import XmlBinding.Proofs.Fragment
import XmlBinding.Proofs.Scene

/-!
# Labels in force

A start tag declares labels and the end tag takes the declarations back, each from the front of what
its label stands for. So behind an element every label stands for what it stood for in front of it,
and inside a document whose labels are bound every name can be resolved.
-/
namespace XmlBinding

variable {κ : Type}

/-- A label stands for one more namespace. -/
def declare (label uri : String) (spaces : String → List String) (l : String) : List String :=
  if l = label then uri :: spaces l else spaces l

/-- The last declaration of a label is taken back. -/
def retract (label : String) (spaces : String → List String) (l : String) : List String :=
  if l = label then (spaces l).tail else spaces l

def declareAll (ds : List (String × String)) (spaces : String → List String) :
    String → List String :=
  ds.foldl (fun sp d => declare d.1 d.2 sp) spaces

def retractAll (labels : List String) (spaces : String → List String) : String → List String :=
  labels.foldl (fun sp label => retract label sp) spaces

theorem retract_declare (label uri : String) (spaces : String → List String) :
    retract label (declare label uri spaces) = spaces := by
  funext l
  unfold retract declare
  split <;> rfl

theorem declareAll_cons (d : String × String) (rest : List (String × String))
    (spaces : String → List String) :
    declareAll (d :: rest) spaces = declareAll rest (declare d.1 d.2 spaces) := rfl

theorem retractAll_concat (labels : List String) (label : String)
    (spaces : String → List String) :
    retractAll (labels ++ [label]) spaces = retract label (retractAll labels spaces) := by
  unfold retractAll
  rw [List.foldl_append]
  rfl

/-- Declarations that are taken back in the opposite order leave nothing behind. -/
theorem retractAll_declareAll (ds : List (String × String)) (spaces : String → List String) :
    retractAll (ds.map (·.1)).reverse (declareAll ds spaces) = spaces := by
  induction ds generalizing spaces with
  | nil => rfl
  | cons d rest ih =>
    rw [List.map_cons, List.reverse_cons, retractAll_concat, declareAll_cons, ih,
      retract_declare]

theorem declare_ne_nil {spaces : String → List String} {label other uri : String}
    (h : label = other ∨ spaces label ≠ []) : declare other uri spaces label ≠ [] := by
  unfold declare
  split
  · exact List.cons_ne_nil _ _
  · next hne => exact h.resolve_left hne

/-- A label stands for something if it did before or is declared. -/
theorem declareAll_ne_nil {ds : List (String × String)} {spaces : String → List String}
    {label : String} (h : label ∈ ds.map (·.1) ∨ spaces label ≠ []) :
    declareAll ds spaces label ≠ [] := by
  induction ds generalizing spaces with
  | nil => exact h.resolve_left (by simp)
  | cons d rest ih =>
    rw [declareAll_cons]
    rw [List.map_cons, List.mem_cons] at h
    rcases h with (hnew | hrest) | hold
    · exact ih (Or.inr (declare_ne_nil (Or.inl hnew)))
    · exact ih (Or.inl hrest)
    · exact ih (Or.inr (declare_ne_nil (Or.inr hold)))

/-- Every label of a scope stands for something. -/
def Covers (spaces : String → List String) (scope : List String) : Prop :=
  ∀ label ∈ scope, spaces label ≠ []

theorem Covers.declareAll {spaces : String → List String} {scope : List String}
    (h : Covers spaces scope) (ds : List (String × String)) :
    Covers (declareAll ds spaces) (ds.map (·.1) ++ scope) := by
  intro label hlabel
  rcases List.mem_append.mp hlabel with hnew | hold
  · exact declareAll_ne_nil (Or.inl hnew)
  · exact declareAll_ne_nil (Or.inr (h label hold))

namespace Binder

theorem scene_bindName (b : Binder κ) (label uri : String) :
    (b.bindName label uri).scene = { b.scene with spaces := declare label uri b.spaces } := by
  have hspaces : (b.bindName label uri).spaces = declare label uri b.spaces := by
    have hbindings : (b.note .trace .dispatch
        ("prefix '" ++ label ++ "' -> '" ++ uri ++ "'")).bindings = b.bindings := by
      unfold note
      split <;> rfl
    funext l
    unfold bindName spaces declare
    dsimp only
    rw [hbindings, Dict.get?_insert]
    split
    · next heq =>
      subst heq
      rfl
    · rfl
  have hrest : (b.bindName label uri).scene =
      { (b.note .trace .dispatch ("prefix '" ++ label ++ "' -> '" ++ uri ++ "'")).scene with
        spaces := (b.bindName label uri).spaces } := rfl
  rw [hrest, scene_note, hspaces]

theorem scene_unbindName (b : Binder κ) (label : String) :
    (b.unbindName label).scene = { b.scene with spaces := retract label b.spaces } := by
  have hspaces : ∀ bindings : Dict String (List String),
      (∀ l, (bindings.get? l).getD [] = retract label b.spaces l) →
      { b with bindings }.scene = { b.scene with spaces := retract label b.spaces } := by
    intro bindings h
    have hfun : { b with bindings }.spaces = retract label b.spaces := funext h
    rw [← hfun]
    rfl
  unfold unbindName
  split
  · next hnone =>
    rw [scene_note]
    refine hspaces b.bindings fun l => ?_
    unfold retract spaces
    split
    · next heq =>
      subst heq
      rw [hnone]
      rfl
    · rfl
  · next uris hsome =>
    split
    · next htail =>
      refine hspaces _ fun l => ?_
      unfold retract spaces
      rw [Dict.get?_erase]
      split
      · next heq =>
        subst heq
        rw [hsome]
        exact htail.symm
      · rfl
    · refine hspaces _ fun l => ?_
      unfold retract spaces
      rw [Dict.get?_insert]
      split
      · next heq =>
        subst heq
        rw [hsome]
        rfl
      · rfl

theorem scene_bindAll (ds : List (String × String)) (b : Binder κ) :
    (ds.foldl (fun b d => b.bindName d.1 d.2) b).scene =
      { b.scene with spaces := declareAll ds b.spaces } := by
  induction ds generalizing b with
  | nil => rfl
  | cons d rest ih =>
    have hspaces : (b.bindName d.1 d.2).spaces = declare d.1 d.2 b.spaces :=
      congrArg Scene.spaces (b.scene_bindName d.1 d.2)
    rw [List.foldl_cons, ih, scene_bindName, hspaces, declareAll_cons]

theorem scene_unbindAll (labels : List String) (b : Binder κ) :
    (labels.foldl unbindName b).scene = { b.scene with spaces := retractAll labels b.spaces } := by
  induction labels generalizing b with
  | nil => rfl
  | cons label rest ih =>
    have hspaces : (b.unbindName label).spaces = retract label b.spaces :=
      congrArg Scene.spaces (b.scene_unbindName label)
    rw [List.foldl_cons, ih, scene_unbindName, hspaces]
    rfl

/-- A label is resolved by the last of its declarations. -/
theorem namespaceOf?_eq_head? (b : Binder κ) (label : String) :
    b.namespaceOf? label = (b.spaces label).head? := by
  unfold namespaceOf? spaces
  cases b.bindings.get? label <;> rfl

end Binder

namespace Generic

open Document

variable {b : Binder κ} {scope : List String}

theorem resolve_of_isBound (hcovers : Covers b.spaces scope) {label : String}
    (h : IsBound scope label) : ∃ uri, resolve b label = .ok uri := by
  unfold resolve
  by_cases hxml : label = "xml"
  · rw [if_pos hxml]
    exact ⟨_, rfl⟩
  · rw [if_neg hxml, b.namespaceOf?_eq_head?]
    have hspaces := hcovers label (h.resolve_left hxml)
    obtain ⟨uri, outer, heq⟩ := List.exists_cons_of_ne_nil hspaces
    rw [heq]
    exact ⟨uri, rfl⟩

theorem resolveAttribute_of_bound (hcovers : Covers b.spaces scope) {name : String}
    (h : ∀ p ∈ splitName name, IsBound scope p.1) (value : String) :
    ∃ a, resolveAttribute b name value = .ok a := by
  unfold resolveAttribute
  cases hsplit : splitName name with
  | none => exact ⟨_, rfl⟩
  | some parts =>
    obtain ⟨uri, huri⟩ := resolve_of_isBound hcovers (h _ hsplit)
    dsimp only
    rw [huri]
    exact ⟨_, rfl⟩

theorem resolveAttributes_of_bound (hcovers : Covers b.spaces scope)
    {attrs : List (String × String)}
    (h : ∀ a ∈ attrs, declaredName? a.1 = none → ∀ p ∈ splitName a.1, IsBound scope p.1) :
    ∃ attributes, resolveAttributes b attrs = .ok attributes := by
  unfold resolveAttributes
  induction attrs with
  | nil => exact ⟨[], rfl⟩
  | cons a rest ih =>
    obtain ⟨others, hothers⟩ := ih fun a ha => h a (List.mem_cons_of_mem _ ha)
    cases hdeclared : declaredName? a.1 with
    | some label =>
      rw [List.filter_cons_of_neg (by simp [hdeclared])]
      exact ⟨others, hothers⟩
    | none =>
      obtain ⟨first, hfirst⟩ :=
        resolveAttribute_of_bound hcovers (h a List.mem_cons_self hdeclared) a.2
      rw [List.filter_cons_of_pos (by simp [hdeclared]), List.mapM_cons, hfirst, hothers]
      exact ⟨first :: others, rfl⟩

theorem resolveElement_of_bound (hcovers : Covers b.spaces scope) {name : String}
    (hname : nameIn true name ≠ "")
    (h : ∀ p ∈ splitName name, p.1 ≠ "" → IsBound scope p.1)
    (declared : List String) : ∃ element, resolveElement b name declared = .ok element ∧
      element.declared = declared ∧
      elementName element.localName element.qualifiedName = nameIn true name := by
  have hown : elementName (nameIn true name) name = nameIn true name :=
    if_neg (by simpa using hname)
  unfold resolveElement
  cases hsplit : splitName name with
  | none =>
    have hlocal : nameIn true name = name := by
      rw [nameIn, if_pos rfl, hsplit]
      rfl
    rw [hlocal] at hown
    exact ⟨_, rfl, rfl, hown.trans hlocal.symm⟩
  | some parts =>
    obtain ⟨label, rest⟩ := parts
    have hlocal : nameIn true name = rest := by
      rw [nameIn, if_pos rfl, hsplit]
      rfl
    rw [hlocal] at hown
    rw [Option.getD_some]
    dsimp only
    by_cases hlabel : label = ""
    · rw [if_pos (by simpa using hlabel)]
      exact ⟨_, rfl, rfl, hown.trans hlocal.symm⟩
    · obtain ⟨uri, huri⟩ := resolve_of_isBound hcovers (h _ hsplit hlabel)
      rw [if_neg (by simpa using hlabel), huri]
      exact ⟨_, rfl, rfl, hown.trans hlocal.symm⟩

/-- The declarations that a start tag makes. -/
def declarationsIn (aware : Bool) (attrs : List (String × String)) : List (String × String) :=
  if aware then declarations attrs else []

/-- What the names of a start tag are resolved to. -/
structure Resolved (aware : Bool) (name : String) (attrs : List (String × String))
    (element : OpenElement) (attributes : Attributes) : Prop where
  declared : element.declared = (declarationsIn aware attrs).map (·.1)
  name_eq : elementName element.localName element.qualifiedName = nameIn aware name
  attributes_eq : attributes.map (fun a => (a.name, a.value)) = assignments aware attrs

/-- A tag whose labels are bound can be resolved. -/
theorem reaches_resolveTag {aware : Bool} {name : String} {attrs : List (String × String)}
    {s : Scene κ} (here : Position) (hname : nameIn aware name ≠ "")
    (hcovers : aware = true → Covers s.spaces scope)
    (hbound : aware = true → TagBound (declaredIn attrs ++ scope) name attrs) :
    (resolveTag aware here name attrs : Action κ BindError _).Reaches s fun r s' =>
      Resolved aware name attrs r.1 r.2 ∧
        s' = { s with spaces := declareAll (declarationsIn aware attrs) s.spaces } := by
  cases aware with
  | false =>
    have hnames : ∀ a ∈ attrs, (fun a : Attribute => (a.name, a.value))
        ⟨"", a.1, a.1, a.2⟩ = (propertyIn false a.1, a.2) := by
      intro a _
      change ((if a.1.isEmpty then a.1 else a.1), a.2) = ((if a.1.isEmpty then a.1 else a.1), a.2)
      rfl
    refine (Action.leads_pure _ s).reaches ⟨⟨rfl, rfl, ?_⟩, rfl⟩
    have hall : attrs.filter (fun a => !isDeclaration false a.1) = attrs :=
      List.filter_eq_self.mpr fun _ _ => rfl
    unfold assignments
    rw [List.map_map, hall]
    exact List.map_congr_left hnames
  | true =>
    intro b hb
    subst hb
    have hscene := b.scene_bindAll (declarations attrs)
    have hinside := (hcovers rfl).declareAll (declarations attrs)
    have htag := hbound rfl
    generalize hopened : (declarations attrs).foldl (fun b d => b.bindName d.1 d.2) b = opened
      at hscene
    have hspaces : opened.spaces = declareAll (declarations attrs) b.spaces :=
      congrArg Scene.spaces hscene
    change Covers (declareAll (declarations attrs) b.spaces) _ at hinside
    rw [← hspaces] at hinside
    obtain ⟨attributes, hattributes⟩ := resolveAttributes_of_bound hinside htag.attributes
    have hassigned := resolveAttributes_eq_ok hattributes
    obtain ⟨element, helement, hdeclared, hown⟩ :=
      resolveElement_of_bound hinside hname htag.element ((declarations attrs).map (·.1))
    refine ⟨(element, attributes), opened, ?_, ⟨hdeclared, hown, hassigned⟩, hscene⟩
    unfold resolveTag
    rw [if_pos rfl, Action.modify_bind_run, Action.get_bind_run, hopened, hattributes]
    change (liftFault here (resolveElement opened name ((declarations attrs).map (·.1))) >>=
      fun element => pure (element, attributes)) opened = _
    rw [helement]
    rfl

end Generic

end XmlBinding
