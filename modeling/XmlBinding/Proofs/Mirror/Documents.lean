import XmlBinding.Proofs.Mirror.Elements
import XmlBinding.Proofs.Trace

/-!
# Documents and their mirror images

Two related binders resolve the names of a document alike, so they go through its tokens side by
side. What an element declares ends with it: when no element is open any more, no label stands for
anything, and no decoration is in place.
-/
namespace XmlBinding

namespace Document

variable {κ : Type} {s b : Binder κ}

/-! ### Names -/

theorem resolve_congr (h : b.spaces = s.spaces) (label : String) :
    resolve b label = resolve s label := by
  unfold resolve
  rw [b.namespaceOf?_eq_head?, s.namespaceOf?_eq_head?, h]

theorem resolveAttributes_congr (h : b.spaces = s.spaces) (attrs : List (String × String)) :
    resolveAttributes b attrs = resolveAttributes s attrs := by
  have hone : (fun a : String × String => resolveAttribute b a.1 a.2) =
      fun a => resolveAttribute s a.1 a.2 := by
    funext a
    unfold resolveAttribute
    simp only [resolve_congr h]
  unfold resolveAttributes
  rw [hone]

theorem resolveElement_congr (h : b.spaces = s.spaces) (name : String) (declared : List String) :
    resolveElement b name declared = resolveElement s name declared := by
  unfold resolveElement
  simp only [resolve_congr h, Binder.namespaceOf?_eq_head?, h]

theorem declared_of_resolveElement {name : String} {declared : List String}
    {element : OpenElement} (h : resolveElement s name declared = .ok element) :
    element.declared = declared := by
  unfold resolveElement at h
  dsimp only at h
  split at h
  · cases h
    rfl
  · cases hr : resolve s ((splitName name).getD ("", name)).1 with
    | error fault =>
      rw [hr] at h
      cases h
    | ok uri =>
      rw [hr] at h
      cases h
      rfl

end Document

namespace Along

open XmlBinding.Action Document

variable {g : Ground} {depth : Nat} {spaces : String → List String} {s b : Binder Empty}

theorem spaces_first (h : Along g depth spaces s b) : s.spaces = spaces := h.mirrors.spaces

theorem spaces_second (h : Along g depth spaces s b) : b.spaces = spaces :=
  (congrArg Outline.spaces h.mirrors.outline).trans h.spaces_first

/-- Other bindings on both sides, and nothing else but messages. -/
theorem rebind {s' b' : Binder Empty} {spaces' : String → List String}
    (h : Along g depth spaces s b)
    (hs : s' = { s with bindings := s'.bindings, journal := s'.journal })
    (hb : b' = { b with bindings := b'.bindings, journal := b'.journal })
    (hspaces : s'.spaces = spaces') (hspaces' : b'.spaces = spaces') :
    Along g depth spaces' s' b' := by
  have houtline : { b.outline with spaces := b'.spaces } =
      { s.outline with spaces := s'.spaces } := by
    rw [h.mirrors.outline, hspaces, hspaces']
  rw [hs, hb]
  exact ⟨{ h.mirrors with outline := houtline, spaces := hspaces }, h.texts, h.depth_eq⟩

theorem bindAll (h : Along g depth spaces s b) (ds : List (String × String)) :
    Along g depth (declareAll ds spaces) (ds.foldl (fun b d => b.bindName d.1 d.2) s)
      (ds.foldl (fun b d => b.bindName d.1 d.2) b) := by
  induction ds generalizing spaces s b with
  | nil => exact h
  | cons d rest ih =>
    have hspaces : ∀ c : Binder Empty, (c.bindName d.1 d.2).spaces = declare d.1 d.2 c.spaces :=
      fun c => congrArg Scene.spaces (c.scene_bindName d.1 d.2)
    refine ih (h.rebind (s.bindName_eq ..) (b.bindName_eq ..) ?_ ?_)
    · rw [hspaces, h.spaces_first]
    · rw [hspaces, h.spaces_second]

theorem unbindAll (h : Along g depth spaces s b) (labels : List String) :
    Along g depth (retractAll labels spaces) (labels.foldl Binder.unbindName s)
      (labels.foldl Binder.unbindName b) := by
  induction labels generalizing spaces s b with
  | nil => exact h
  | cons label rest ih =>
    have hspaces : ∀ c : Binder Empty, (c.unbindName label).spaces = retract label c.spaces :=
      fun c => congrArg Scene.spaces (c.scene_unbindName label)
    refine ih (h.rebind (s.unbindName_eq ..) (b.unbindName_eq ..) ?_ ?_)
    · rw [hspaces, h.spaces_first]
    · rw [hspaces, h.spaces_second]

/-! ### Tokens -/

/-- A start tag is resolved alike, and its end will take its declarations back. -/
theorem resolveTag (h : Along g depth spaces s b) (aware : Bool) (here : Position) (name : String)
    (attrs : List (String × String)) :
    Together id
      (fun r s' b' => ∃ spaces', Along g depth spaces' s' b' ∧
        retractAll r.1.declared.reverse spaces' = spaces)
      (Related g) (resolveTag aware here name attrs s) (resolveTag aware here name attrs b) := by
  unfold Document.resolveTag
  cases aware with
  | false => exact .ok ⟨spaces, h, rfl⟩
  | true =>
    rw [if_pos rfl, modify_bind_run, modify_bind_run, get_bind_run, get_bind_run]
    have hbound := h.bindAll (declarations attrs)
    have hspaces := hbound.spaces_second.trans hbound.spaces_first.symm
    rw [resolveAttributes_congr hspaces, resolveElement_congr hspaces]
    generalize (declarations attrs).foldl (fun b d => b.bindName d.1 d.2) s = s' at *
    generalize (declarations attrs).foldl (fun b d => b.bindName d.1 d.2) b = b' at *
    cases resolveAttributes s' attrs with
    | error fault => exact .error hbound.mirrors.related
    | ok attributes =>
      cases helement : resolveElement s' name ((declarations attrs).map (·.1)) with
      | error fault => exact .error hbound.mirrors.related
      | ok element =>
        refine .ok ⟨_, hbound, ?_⟩
        rw [declared_of_resolveElement helement, retractAll_declareAll]

end Along

/-- Two binders in the middle of a document, with these elements open: behind the last of their end
tags no label will stand for anything. -/
def Inside (g : Ground) (opened : List OpenElement) (s b : Binder Empty) : Prop :=
  ∃ spaces, Along g opened.length spaces s b ∧
    retractAll (opened.flatMap (·.declared.reverse)) spaces = fun _ => []

namespace Inside

open XmlBinding.Action Document

variable {g : Ground} {opened : List OpenElement} {s b : Binder Empty}

theorem related (h : Inside g opened s b) : Related g s b :=
  let ⟨_, halong, _⟩ := h
  halong.mirrors.related

theorem start (hg : g.Closed) (h : Inside g opened s b) (aware : Bool) (here : Position)
    (name : String) (attrs : List (String × String)) :
    Together id (fun opened' => Inside g opened') (Related g)
      (start .none aware here name attrs opened s)
      (start .none aware here name attrs opened b) := by
  obtain ⟨spaces, halong, hsettles⟩ := h
  refine (halong.resolveTag aware here name attrs).bind fun r s' b' hr => ?_
  obtain ⟨spaces', halong', hretract⟩ := hr
  obtain ⟨element, attributes⟩ := r
  refine (halong'.start hg ⟨element.uri, element.localName, element.qualifiedName, attributes⟩).bind
    fun _ s'' b'' hopen => .ok ⟨spaces', hopen, ?_⟩
  -- The innermost element is the first to take its declarations back.
  rw [List.flatMap_cons, retractAll, List.foldl_append]
  change retractAll _ (retractAll element.declared.reverse spaces') = _
  rw [show retractAll element.declared.reverse spaces' = spaces from hretract, hsettles]

theorem close (h : Inside g opened s b) (here : Position) :
    Together id (fun opened' => Inside g opened') (Related g)
      (close .none here opened s) (close .none here opened b) := by
  unfold Document.close
  cases opened with
  | nil => exact .error h.related
  | cons element outer =>
    obtain ⟨spaces, halong, hsettles⟩ := h
    refine (halong.close ⟨element.uri, element.localName, element.qualifiedName⟩).bind
      fun _ s' b' hclosed => .ok ⟨_, hclosed.unbindAll element.declared.reverse, ?_⟩
    rw [List.flatMap_cons, retractAll, List.foldl_append] at hsettles
    exact hsettles

theorem characters (h : Inside g opened s b) (content : String) :
    Inside g opened (s.characters content) (b.characters content) :=
  let ⟨spaces, halong, hsettles⟩ := h
  ⟨spaces, halong.characters content, hsettles⟩

theorem setPosition (h : Inside g opened s b) (position : Option Position) :
    Inside g opened { s with position } { b with position } :=
  let ⟨spaces, halong, hsettles⟩ := h
  ⟨spaces, ⟨halong.mirrors.setPosition position, halong.texts, halong.depth_eq⟩, hsettles⟩

theorem handle (hg : g.Closed) (h : Inside g opened s b) (aware : Bool) (here : Position)
    (token : Markup.Token) :
    Together id (fun opened' => Inside g opened') (Related g)
      (handle .none aware here opened token s) (handle .none aware here opened token b) := by
  unfold Document.handle
  cases token with
  | start name attrs => exact h.start hg aware here name attrs
  | empty name attrs =>
    exact (h.start hg aware here name attrs).bind fun opened' s' b' hopen => hopen.close here
  | close => exact h.close here
  | text content => exact .ok (h.characters content)
  | reference name =>
    dsimp only
    cases Markup.textReference? name.toList with
    | some c => exact .ok (h.characters (String.singleton c))
    | none => exact .error h.related
  | skipped | finish => exact .ok h
  | badTag | broken => exact .error h.related

theorem handleAll (hg : g.Closed) (aware : Bool) (tokens : List (Nat × Markup.Token))
    (cursor : Cursor) (h : Inside g opened s b) :
    Together id (fun opened' => Inside g opened') (Related g)
      (handleAll .none aware cursor opened tokens s)
      (handleAll .none aware cursor opened tokens b) := by
  induction tokens generalizing cursor opened s b with
  | nil => exact .ok h
  | cons entry rest ih =>
    obtain ⟨offset, token⟩ := entry
    have hrest : ∀ (here : Position) {s b : Binder Empty}, Inside g opened s b →
        Together id (fun opened' => Inside g opened') (Related g)
          ((Document.handle .none aware here opened token >>= fun opened' =>
            Document.handleAll .none aware (cursor.seek offset) opened' rest) s)
          ((Document.handle .none aware here opened token >>= fun opened' =>
            Document.handleAll .none aware (cursor.seek offset) opened' rest) b) :=
      fun here _ _ hplaced => (hplaced.handle hg aware here token).bind fun _ _ _ => ih _
    unfold Document.handleAll
    dsimp only
    by_cases htoken : token = .broken
    · rw [if_pos htoken]
      exact hrest _ h
    · rw [if_neg htoken]
      exact hrest _ (h.setPosition _)

end Inside

end XmlBinding
