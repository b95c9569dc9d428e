import XmlBinding.Proofs.Reading

/-!
# The image of a document

The mapping registers its rules under a pattern that accepts every path, puts an object for the
document on the stack and reads the text. So the reading of content applies to the whole document,
and what the document's object then holds is the image of the document element.
-/
namespace XmlBinding

open XmlBinding.Action

/-! ### A pattern for every path -/

theorem Glob.tokens?_star : Glob.tokens? true ['*'] = some [.many] := by
  simp [Glob.tokens?]

theorem Glob.nil_mem_ends (cs : List Char) : [] ∈ Glob.ends cs := by
  induction cs with
  | nil => exact List.mem_singleton.mpr rfl
  | cons c rest ih => exact List.mem_cons_of_mem _ ih

/-- One star accepts every text. -/
theorem Glob.accepts_many (cs : List Char) : Glob.accepts [.many] cs = true :=
  List.any_eq_true.mpr ⟨[], Glob.nil_mem_ends cs, rfl⟩

/-- The rules `found` are registered in this order, each of them for every path. -/
def Everywhere {ρ : Type} (m : Matcher ρ) (found : List ρ) : Prop :=
  ∃ t : Textual ρ, m = .textual t ∧ t.dialect = .glob ∧ t.rules = found ∧
    ∀ r ∈ t.registered, ∀ path, r.2.accepts path = true

namespace Everywhere

variable {ρ : Type} {m : Matcher ρ} {found : List ρ}

theorem rules_eq (h : Everywhere m found) : m.rules = found := by
  obtain ⟨t, rfl, -, hrules, -⟩ := h
  exact hrules

theorem rulesFor?_eq (h : Everywhere m found) (uri : String) (path : List Char) (name : String)
    (attrs : Attributes) : m.rulesFor? uri path name attrs = some found := by
  obtain ⟨t, rfl, -, rfl, hall⟩ := h
  have hfilter : t.registered.filter (·.2.accepts path) = t.registered :=
    List.filter_eq_self.mpr fun r hr => hall r hr path
  change some ((t.registered.filter (·.2.accepts path)).map (·.1.rule)) = _
  rw [hfilter]
  rfl

theorem add_star (h : Everywhere m found) (rule : ρ) :
    ∃ m', m.add "*" rule = .ok m' ∧ Everywhere m' (found ++ [rule]) := by
  obtain ⟨t, rfl, hdialect, rfl, hall⟩ := h
  have hcompiled : t.dialect.compile? ['*'] = some (.glob [.many]) := by
    rw [hdialect]
    exact congrArg (Option.map Compiled.glob) Glob.tokens?_star
  refine ⟨.textual { t with registered :=
    t.registered ++ [(⟨"*", t.scope, rule, t.registered.length⟩, .glob [.many])] }, ?_, _, rfl,
    hdialect, ?_, ?_⟩
  · have hadd : t.add "*" rule = .ok { t with registered :=
        t.registered ++ [(⟨"*", t.scope, rule, t.registered.length⟩, .glob [.many])] } := by
      have htext : "*".toList = ['*'] := rfl
      unfold Textual.add
      rw [if_neg (by decide), htext, hcompiled]
    exact congrArg (Except.map Matcher.textual) hadd
  · unfold Textual.rules
    rw [List.map_append]
    rfl
  · intro r hr path
    rcases List.mem_append.mp hr with hold | hnew
    · exact hall r hold path
    · rw [List.mem_singleton.mp hnew]
      exact Glob.accepts_many path

end Everywhere

/-! ### Registration -/

variable {κ : Type}

/-- New rules with their identities and with stacks of their own. -/
def numbered (nextRule nextStack : Nat) : List StandardRule → List (RuleRef κ)
  | [] => []
  | rule :: rest => ⟨nextRule, .standard (rule.renumber nextStack)⟩ ::
      numbered (nextRule + 1) (nextStack + 1) rest

variable {x : Extension κ} {b : Binder κ} {found : List (RuleRef κ)}

theorem addRule_of_added {matcher : Matcher (RuleRef κ)} {pattern : String} {ref : RuleRef κ}
    (h : b.matcher.add pattern ref = .ok matcher) :
    ∃ journal, addRule x pattern ref b = .ok () { b with matcher, journal } := by
  refine ⟨(b.note .debug .dispatch
    ("add " ++ ref.name x ++ " for '" ++ pattern ++ "'")).journal, ?_⟩
  unfold addRule note
  rw [modify_bind_run, get_bind_run, b.note_eq, h]
  rfl

theorem addStandard_star (h : Everywhere b.matcher found) (rule : StandardRule) :
    ∃ matcher journal, addStandard x "*" rule b = .ok () { b with
        matcher, journal, nextRule := b.nextRule + 1, nextStack := b.nextStack + 1 } ∧
      Everywhere matcher (found ++ [⟨b.nextRule, .standard (rule.renumber b.nextStack)⟩]) := by
  obtain ⟨matcher, hadd, hmatcher⟩ :=
    h.add_star ⟨b.nextRule, .standard (rule.renumber b.nextStack)⟩
  obtain ⟨journal, hrun⟩ := addRule_of_added (x := x) (b := { b with
    nextRule := b.nextRule + 1, nextStack := b.nextStack + 1 }) hadd
  exact ⟨matcher, journal, hrun, hmatcher⟩

/-- All rules can be registered for every path. -/
theorem addAll_star (rules : List StandardRule) (h : Everywhere b.matcher found) :
    ∃ matcher journal nextRule nextStack, rules.forM (addStandard x "*") b = .ok ⟨⟩ { b with
        matcher, journal, nextRule, nextStack } ∧
      Everywhere matcher (found ++ numbered b.nextRule b.nextStack rules) := by
  induction rules generalizing b found with
  | nil => exact ⟨_, _, _, _, rfl, (List.append_nil found).symm ▸ h⟩
  | cons rule rest ih =>
    obtain ⟨matcher, journal, hfirst, hmatcher⟩ := addStandard_star (x := x) h rule
    obtain ⟨matcher', journal', nextRule, nextStack, hrest, hmatcher'⟩ := ih (b := { b with
      matcher, journal, nextRule := b.nextRule + 1, nextStack := b.nextStack + 1 }) hmatcher
    rw [List.append_assoc] at hmatcher'
    exact ⟨matcher', journal', nextRule, nextStack, bind_eq_ok.mpr ⟨_, _, hfirst, hrest⟩,
      hmatcher'⟩

namespace Generic

open Document

/-- After the installation the rules of the mapping apply everywhere. -/
theorem install_run (x : Extension κ) (trim : Bool) (b : Binder κ) :
    ∃ matcher journal nextRule nextStack, install x trim b = .ok () { b with
        matcher, journal, nextRule, nextStack } ∧
      Everywhere matcher (numbered b.nextRule b.nextStack (rules trim)) := by
  have hempty : Everywhere (b.setMatcher (.textual { dialect := .glob })).matcher [] :=
    ⟨{ dialect := .glob, scope := b.matcher.scope }, rfl, rfl, rfl,
      fun _ hr => absurd hr List.not_mem_nil⟩
  obtain ⟨matcher, journal, nextRule, nextStack, hrun, hall⟩ :=
    addAll_star (x := x) (rules trim) hempty
  exact ⟨matcher, journal, nextRule, nextStack, hrun, hall⟩

/-! ### The whole document -/

variable {s s' : Scene κ} {o : Options} {document : ObjectId}

/-- The end of a document calls the rules in vain and leaves the objects as they are. -/
theorem leads_endDocument (h : ∀ ref ∈ s.matcher.rules, ∃ rule, ref.rule = .standard rule) :
    (endDocument x).Leads s ()
      { s with
        path := "", outerPaths := [], matched := [], text := "", outerTexts := [], capture := none
        stack := [] } := by
  have hnote : (modify Binder.noteLeftover : Action κ BindError PUnit).Leads s ⟨⟩ s :=
    leads_modify fun b hb => by
      unfold Binder.noteLeftover
      split
      · rw [b.scene_note, hb]
      · exact hb
  have hidle : (callRules x .finish (distinctRules s.matcher.rules)).Leads s () s := by
    refine leads_callRules_idle fun ref href => ?_
    obtain ⟨rule, hrule⟩ := h ref ((unseenRules_sublist [] _).subset href)
    have hfire : ref.fire x .finish = pure () := by
      unfold RuleRef.fire
      rw [hrule]
      rfl
    rw [hfire]
    exact leads_pure () s
  have hclear : (modify fun b => (b.note .debug .dispatch "end document").clear :
      Action κ BindError PUnit).Leads s ⟨⟩
        { s with
          path := "", outerPaths := [], matched := [], text := "", outerTexts := []
          capture := none, stack := [] } := leads_modify fun b hb => by
    have hcleared : ∀ c : Binder κ, c.clear.scene = { c.scene with
        path := "", outerPaths := [], matched := [], text := "", outerTexts := []
        capture := none, stack := [] } := fun c => rfl
    rw [hcleared, b.scene_note, hb]
  refine hnote.bind (leads_get_bind fun b hb => ?_)
  subst hb
  exact (hidle.attempt.bind (hclear.bind (leads_pure () _))) b rfl

/-- The scene in which a document is read: nothing is open, and the object for the document is all
that there is on the stack. -/
structure Prepared (o : Options) (document : ObjectId) (bean : DynamicBean) (s : Scene κ) :
    Prop where
  everywhere : Everywhere s.matcher (refs o.trimText)
  capture : s.capture = none
  substitutor : s.substitutor = none
  stack : s.stack = [.object document]
  shown : s.heap.bean? document = some (.dynamic bean)

/-- The object of a document is made and put on the empty stack. -/
theorem prepared_push {b : Binder κ} (hall : Everywhere b.matcher (refs o.trimText))
    (hcapture : b.capture = none) (hsubstitutor : b.substitutor = none) (hstack : b.stack = [])
    (bean : DynamicBean) :
    Prepared o b.heap.next bean ({ b with
      heap := (b.heap.alloc (.dynamic bean)).2 }.push (.object b.heap.next)).scene := by
  rw [Binder.scene_push]
  exact ⟨hall, hcapture, hsubstitutor, congrArg (Value.object b.heap.next :: ·) hstack,
    (Heap.changes_alloc b.heap (.dynamic bean)).shown⟩

/-- The reading of a document, once it is known whether names are resolved. -/
def readDocument (x : Extension κ) (aware : Bool) (text : List Char) :
    Action κ BindError Unit := do
  modify fun b => { b with position := some (Position.ofOffset text 0) }.startDocument
  match ← handleAll x aware { rest := text } [] (Markup.scan text) with
  | [] => endDocument x
  | element :: _ =>
    liftFault (Position.ofOffset text (Text.byteLength text))
      (.error (.unclosedElement element.qualifiedName))

theorem run_eq_readDocument (text : List Char) (b : Binder κ) :
    Document.run x text b = readDocument x b.options.namespaceAware text b := rfl

/-- What is left behind a document: its object has taken in the images of the content. -/
def TakenIn (o : Options) (document : ObjectId) (bean : DynamicBean) (c : Fragment)
    (s : Scene κ) : Prop :=
  ∃ children, s.heap.bean? document =
      some (.dynamic { bean with children := bean.children ++ children }) ∧
    Images s.heap.bean? o c children

/-- A text whose events are those of some content becomes the images of that content. -/
theorem reaches_readDocument {bean : DynamicBean} {c : Fragment} {text : List Char}
    (hprepared : Prepared o document bean s)
    (hread : delivered? (Markup.scan text) = some c.events) (hfit : c.NamesFit o.namespaceAware)
    (hbound : o.namespaceAware = true → c.LabelsBound []) :
    (readDocument x o.namespaceAware text).Reaches s fun _ s' =>
      TakenIn o document bean c s' := by
  have hready : Ready o.trimText s :=
    ⟨hprepared.everywhere.rulesFor?_eq, hprepared.capture, hprepared.substitutor⟩
  have hcovers : o.namespaceAware = true → Covers s.spaces [] :=
    fun _ label hlabel => absurd hlabel List.not_mem_nil
  have hfeeds : Feeds x o.namespaceAware c.events [] s _ :=
    feeds_content hready hprepared.stack hprepared.shown hfit hbound hcovers
  have hstart : (modify fun b => { b with
      position := some (Position.ofOffset text 0) }.startDocument :
      Action κ BindError PUnit).Reaches s fun _ m => m = s := by
    intro b hb
    refine ⟨⟨⟩, _, rfl, ?_⟩
    have hstarted : ∀ c : Binder κ, c.startDocument.scene = (c.note .debug .dispatch
        "start document").scene := fun c => rfl
    rw [hstarted, Binder.scene_note, ← hb]
    rfl
  have hstandard : ∀ ref ∈ refs (κ := κ) o.trimText, ∃ rule, ref.rule = .standard rule := by
    intro ref href
    simp only [refs, List.mem_cons, List.not_mem_nil, or_false] at href
    rcases href with rfl | rfl | rfl | rfl <;> exact ⟨_, rfl⟩
  refine hstart.bind fun _ m hm => ?_
  subst hm
  refine (reaches_handleAll _ hread hfeeds _).bind fun opened m h => ?_
  obtain ⟨rfl, children, hgrown⟩ := h
  have hrules : m.matcher.rules = refs o.trimText := by
    rw [hgrown.scene]
    exact hprepared.everywhere.rules_eq
  refine (leads_endDocument (hrules ▸ hstandard)).reaches ⟨children, hgrown.changes.shown, ?_⟩
  exact hgrown.images.mono fun id own hid => (Heap.since_eq_some.mp hid).2

theorem parse_run {text : String} {b b' : Binder κ}
    (h : Document.run x text.toList b = .ok () b') : parse x text b = .ok b'.root b' := by
  have hattempt : ((Document.run x text.toList).attempt :
      Action κ BindError (Except BindError Unit)) b = .ok (.ok ()) b' := by
    unfold attempt
    rw [h]
  exact bind_eq_ok.mpr ⟨_, _, hattempt, rfl⟩

/-- Before the text is read, the rules are installed and the document's object is put on the stack.
Nothing else has happened. -/
theorem exists_installed (o : Options) (text : String) :
    ∃ b : Binder Empty, Everywhere b.matcher (refs o.trimText) ∧
      (∃ matcher journal nextRule nextStack,
        b = { options := o, matcher, journal, nextRule, nextStack }) ∧
      mapDocument text { options := o } = (do
        discard (parse .none text)
        return firstChild? (← get).heap b.heap.next : Action Empty BindError (Option ObjectId))
        ({ b with heap := (b.heap.alloc (.dynamic { typeName := "#document" })).2 }.push
          (.object b.heap.next)) := by
  obtain ⟨matcher, journal, nextRule, nextStack, hinstall, hall⟩ :=
    install_run .none o.trimText { options := o }
  refine ⟨_, hall, ⟨matcher, journal, nextRule, nextStack, rfl⟩, ?_⟩
  unfold mapDocument
  rw [get_bind_run]
  simp only [bind, EStateM.bind, hinstall]
  rfl

theorem exists_prepared (o : Options) (text : String) :
    ∃ (b : Binder Empty) (document : ObjectId) (bean : DynamicBean),
      Prepared o document bean b.scene ∧ bean.children = [] ∧ b.options = o ∧
      mapDocument text { options := o } = (do
        discard (parse .none text)
        return firstChild? (← get).heap document : Action Empty BindError (Option ObjectId)) b := by
  obtain ⟨b, hall, ⟨matcher, journal, nextRule, nextStack, rfl⟩, hmap⟩ := exists_installed o text
  refine ⟨_, _, _, prepared_push hall rfl rfl rfl _, rfl, ?_, hmap⟩
  rw [Binder.push_eq]

/-- **The mapping is the recursive map on elements.** Every text whose events are those of a
document with one element around all others is mapped, and the object of that element is its image,
all the way down. -/
theorem mapping_law (o : Options) (text : String) (c inner : Fragment) (name : String)
    (attrs : List (String × String)) (hread : delivered? (Markup.scan text.toList) = some c.events)
    (hsingle : c.elements = [(name, attrs, inner)]) (hfit : c.NamesFit o.namespaceAware)
    (hbound : o.namespaceAware = true → c.LabelsBound []) :
    ∃ m id children, run o text = .ok m ∧ m.root = some id ∧
      Mapped m.heap.bean? o name attrs inner.ownText id children ∧
      Images m.heap.bean? o inner children := by
  obtain ⟨b, document, bean, hprepared, hempty, hoptions, hmap⟩ := exists_prepared o text
  obtain ⟨⟨⟩, b', hdocument, children, hshown, himages⟩ :=
    reaches_readDocument (x := .none) hprepared hread hfit hbound b rfl
  obtain ⟨id, inside, rfl, hmapped, hinside⟩ := himages.of_single hsingle
  have hparse : (discard (parse .none text) : Action Empty BindError PUnit) b = .ok ⟨⟩ b' := by
    have hrun : Document.run .none text.toList b = .ok () b' := by
      rw [run_eq_readDocument, hoptions, hdocument]
    have hparsed := parse_run hrun
    simp only [Functor.discard, Functor.mapConst, Function.comp, EStateM.map, hparsed]
  have hroot : firstChild? b'.heap document = some id := by
    have hbean : b'.heap.bean? document = _ := hshown
    unfold firstChild?
    rw [hbean, hempty]
    rfl
  refine ⟨⟨some id, b'.heap, b'.metrics⟩, id, inside, ?_, rfl, hmapped, hinside⟩
  have hall : mapDocument text { options := o } = .ok (some id) b' :=
    hmap.trans (bind_eq_ok.mpr ⟨⟨⟩, b', hparse, by rw [← hroot]; rfl⟩)
  unfold run
  rw [hall]

/-- An attribute that hides another one, a declared label, and text on both sides of elements. -/
theorem mapping_law_of_three_elements :
    let attrs := [("xmlns:p", "u"), ("x", "1"), ("p:x", "2")]
    let inner : Fragment := .text " hi " (.element "p:b" [] (.text "<" .done)
      (.text "\n" (.element "c" [] .done (.text " you" .done))))
    let text := "<a xmlns:p='u' x='1' p:x='2'> hi <p:b>&lt;</p:b>\n<c/> you</a>"
    let c : Fragment := .element "a" attrs inner .done
    delivered? (Markup.scan text.toList) = some c.events ∧ c.elements = [("a", attrs, inner)] ∧
      c.NamesFit true ∧ (true = true → c.LabelsBound []) ∧
      ∃ m id children, run {} text = .ok m ∧ m.root = some id ∧
        Mapped m.heap.bean? {} "a" attrs inner.ownText id children ∧
        Images m.heap.bean? {} inner children := by
  intro attrs inner text c
  have hread : delivered? (Markup.scan text.toList) = some c.events := by decide +kernel
  have hfit : c.NamesFit true := by decide +kernel
  have hbound : c.LabelsBound [] := by decide +kernel
  exact ⟨hread, rfl, hfit, fun _ => hbound,
    mapping_law {} text c inner "a" attrs hread rfl hfit fun _ => hbound⟩

end Generic

end XmlBinding
