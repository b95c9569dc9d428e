import XmlBinding.Proofs.Decoration
import XmlBinding.Proofs.Frames
import XmlBinding.Proofs.Trace.Turn

/-!
# Nested properties

A rule for nested properties adds one rule to the list of every direct child of its element, and to
no other list. This holds for every use of the rule apart, however the paths repeat and the uses are
nested. With the text of the child the added rule assigns the property of the child's name, once, to
the object that is then on top.
-/
namespace XmlBinding

open Generic (pathInside)

/-! ### The text of a child -/

section Assignment

variable {κ : Type} {b b' : Binder κ} {config : NestedConfig} {name text : String}

/-- What the rule for a child does with the text: it is assigned to a property of the object on top,
unless the child is left out. Besides the objects only messages change. -/
def Assigns (config : NestedConfig) (name text : String) (b b' : Binder κ) : Prop :=
  b'.bare = b.bare ∧
    match StandardRule.propertyFor config.aliases name with
    | none => b'.heap = b.heap
    | some property => ∃ target, b.stack.head? = some target ∧
      if config.allowUnknown = true ∧ b.heap.isWritable target property = false then
        b'.heap = b.heap
      else
        b.heap.setProperty target property
          (.text (if config.trim then Text.trim text else text)) = (.ok (), b'.heap)

namespace Action

open Binder

theorem heap_note (level : Level) (channel : Channel) (text : String) :
    (note level channel text : Action κ RuleError Unit).Keeps heap := by
  refine keeps_modify fun b => ?_
  unfold Binder.note
  split <;> rfl

theorem heap_showAccess {ε : Type} (e : Binder κ → Event) :
    (showAccess e : Action κ ε Unit).Keeps heap := by
  refine keeps_modify fun b => ?_
  split <;> rfl

theorem setProperty_eq_ok {target v : Value} {property : String}
    (h : setProperty target property v b = .ok () b') :
    b.heap.setProperty target property v = (.ok (), b'.heap) := by
  obtain ⟨⟨⟩, m, hshow, h⟩ := bind_eq_ok.mp h
  have hm : m.heap = b.heap := (heap_showAccess _).of_ok hshow
  rw [get_bind_run, hm] at h
  generalize b.heap.setProperty target property v = r at h
  obtain ⟨⟨⟩ | ⟨⟨⟩⟩, heap⟩ := r <;> cases h
  rfl

end Action

namespace StandardRule

open XmlBinding.Action

theorem top_eq_ok {rule : String} {target : Value}
    (h : (top rule : Action κ RuleError Value) b = .ok target b') :
    b.stack.head? = some target ∧ b' = b := by
  obtain ⟨found, m, hpeek, h⟩ := bind_eq_ok.mp h
  obtain ⟨hfound, hsame⟩ := peek_eq_ok hpeek
  cases found with
  | none => cases h
  | some v =>
    cases h
    exact ⟨(List.head?_eq_getElem? ..).trans hfound.symm, hsame rfl⟩

/-- Whether a property is left out is known from the objects, and asking changes none of them. -/
theorem isLeftOut_eq_ok {ignoreMissing leftOut : Bool} {target : Value} {property : String}
    (h : isLeftOut ignoreMissing target property b = .ok leftOut b') :
    (leftOut = true ↔ ignoreMissing = true ∧ b.heap.isWritable target property = false) ∧
      b'.heap = b.heap := by
  cases ignoreMissing with
  | false =>
    cases h
    exact ⟨by simp, rfl⟩
  | true =>
    obtain ⟨writable, m, hask, h⟩ := bind_eq_ok.mp h
    cases h
    unfold isWritable at hask
    rw [get_bind_run] at hask
    obtain ⟨⟨⟩, s, hshow, hreturn⟩ := bind_eq_ok.mp hask
    cases hreturn
    exact ⟨by simp, (heap_showAccess _).of_ok hshow⟩

theorem assigns_of_setFromChild (h : setFromChild config name text b = .ok () b') :
    Assigns config name text b b' := by
  refine ⟨(bare_setFromChild config name text).of_ok h, ?_⟩
  unfold setFromChild at h
  cases hproperty : propertyFor config.aliases name with
  | none =>
    rw [hproperty] at h
    cases h
    rfl
  | some property =>
    rw [hproperty] at h
    obtain ⟨target, m, htop, hrest⟩ := bind_eq_ok.mp h
    obtain ⟨hhead, rfl⟩ := top_eq_ok htop
    obtain ⟨leftOut, s, hask, hset⟩ := bind_eq_ok.mp hrest
    obtain ⟨hleft, hs⟩ := isLeftOut_eq_ok hask
    refine ⟨target, hhead, ?_⟩
    cases leftOut with
    | true =>
      rw [if_pos (hleft.mp rfl)]
      exact ((heap_note ..).of_ok hset).trans hs
    | false =>
      rw [if_neg (mt hleft.mpr Bool.false_ne_true), ← hs]
      exact setProperty_eq_ok hset

end StandardRule

end Assignment

/-! ### The element around -/

section Around

variable {κ : Type} {x : Extension κ} {b m : Binder κ} {es : List DocumentEvent}
  {fs : List (Firing κ)}

/-- The binder behind some events, with the list that was matched for the innermost element that is
open there; at the top there is no such element. -/
inductive Around (x : Extension κ) (b : Binder κ) :
    List DocumentEvent → List (Firing κ) → List (RuleRef κ) → Binder κ → Prop
  | top {c : Content} {m : Binder κ} {fs : List (Firing κ)} (h : Delivered x c.events b fs m) :
      Around x b c.events fs [] m
  | inside {before : List DocumentEvent} {tag : StartTag} {inner : Content} {s m : Binder κ}
      {fs gs : List (Firing κ)} {parent : List (RuleRef κ)} (hbefore : Delivered x before b fs s)
      (hparent : s.rulesAt? tag = some parent)
      (hinner : Delivered x (.start tag :: inner.events) s gs m) :
      Around x b (before ++ .start tag :: inner.events) (fs ++ gs) parent m

namespace Binder

theorem rulesAt?_eq (b : Binder κ) (tag : StartTag) : b.rulesAt? tag =
    b.matcher.rulesFor? tag.uri (pathInside b.path tag.name).toList tag.name tag.attrs := by
  have hpath : (b.enter tag.name).path = pathInside b.path tag.name :=
    congrArg Progress.path (b.progress_enter tag.name)
  unfold rulesAt?
  rw [hpath]

theorem rulesAt?_of_unread {s b : Binder κ} (h : s.unread = b.unread) (tag : StartTag) :
    s.rulesAt? tag = b.rulesAt? tag := by
  have hmatcher : s.matcher = b.matcher := congrArg Held.matcher (held_of_unread h)
  have hpath : s.path = b.path := congrArg Location.path (location_of_unread h)
  rw [rulesAt?_eq, rulesAt?_eq, hmatcher, hpath]

end Binder

namespace Delivered

/-- Content behind which nothing is captured left the rules of the open elements as they were. -/
theorem matched_eq (hx : x.Quiet) {c : Content} (h : Delivered x c.events b fs m)
    (hm : m.capture = none) : b.capture = none ∧ m.matched = b.matched := by
  cases hb : b.capture with
  | none => exact ⟨rfl, congrArg Progress.matched (h.settles hx c hb).progress⟩
  | some own =>
    obtain ⟨-, hunread⟩ := h.captured hb
    have hcapture : m.capture = some (own.take c) := congrArg Binder.capture hunread
    cases hm.symm.trans hcapture

/-- The list on top of those of the open elements is the one that was matched for the innermost of
them. -/
theorem around (hx : x.Quiet) {due : List EndTag} (h : Delivered x es b fs m) (hp : Pairs [] es due)
    (hmatched : b.matched = []) (hm : m.capture = none) :
    Around x b es fs (m.matched.headD []) m := by
  cases due with
  | nil =>
    obtain ⟨c, rfl⟩ := wellNested_iff.mp hp.closesAll
    rw [(h.matched_eq hx hm).2, hmatched]
    exact .top h
  | cons tag outer =>
    obtain ⟨above, habove, -⟩ | ⟨before, opening, inner, rfl, -⟩ := hp.opening_or
    · cases above <;> cases habove
    · obtain ⟨s, front, back, rfl, hbefore, hinner⟩ := h.split
      have hstart := hinner
      cases hstart with
      | @step _ _ _ entry o _ _ _ hentry hstart hcontent =>
        obtain ⟨hnone, hsame⟩ := hcontent.matched_eq hx hm
        cases hstart with
        | startInside => cases hnone
        | @start _ _ _ found _ _ hfound hstarts =>
          have hopened : o.matched = found :: entry.matched := by
            have hprogress := (hstarts.progress hx).1
            rw [entry.progress_opened] at hprogress
            exact congrArg Progress.matched hprogress
          rw [hsame, hopened]
          exact .inside hbefore ((Binder.rulesAt?_of_unread hentry opening).symm.trans hfound) hinner

end Delivered

end Around

/-! ### The rules of an element -/

/-- The rules for children among the rules of an element do nothing at its start and at its end.
With its text each of them assigns one property. -/
def Passage.AssignsChildren {tag : StartTag} {inner : Content} {closing : EndTag}
    {b b' : Binder Empty} (p : Passage .none tag inner closing b b') : Prop :=
  ∀ front ref back config, p.found = front ++ ref :: back →
    ref.standard = .nestedChild config →
    ∃ t : p.Turn front ref back, t.opening.after = t.opening.before ∧
      Assigns config closing.name p.text t.told.before t.told.after ∧
      t.ending.after = t.ending.before

theorem Passage.assignsChildren {tag : StartTag} {inner : Content} {closing : EndTag}
    {b b' : Binder Empty} (p : Passage .none tag inner closing b b') : p.AssignsChildren := by
  intro front ref back config hfound hrule
  obtain ⟨t⟩ := p.exists_turn hfound
  have hopening := t.opening_fires
  have htold := t.told_fires
  have hending := t.ending_fires
  unfold Firing.Fires at hopening htold hending
  rw [t.opening_call, RuleRef.fire_standard, hrule] at hopening
  rw [t.told_call, RuleRef.fire_standard, hrule] at htold
  rw [t.ending_call, RuleRef.fire_standard, hrule] at hending
  refine ⟨t, ?_, StandardRule.assigns_of_setFromChild htold, ?_⟩
  · exact (EStateM.Result.ok.inj hopening).2.symm
  · exact (EStateM.Result.ok.inj hending).2.symm

/-! ### All elements of a text -/

/-- Every element outside a captured node gets the list that `base` has for its path, and behind it
one rule for each rule for nested properties in the list of the element around. When the element
ends, each of these rules assigns its text. -/
def ReachesChildren (base : Matcher (RuleRef Empty)) (b : Binder Empty) (es : List DocumentEvent)
    (fs : List (Firing Empty)) (b' : Binder Empty) : Prop :=
  ∀ earlier tag later, es = earlier ++ .start tag :: later →
    ∃ m ahead behind, fs = ahead ++ behind ∧ Delivered .none earlier b ahead m ∧
      Delivered .none (.start tag :: later) m behind b' ∧
      (m.capture = none → ∃ parent own kids, Around .none b earlier ahead parent m ∧
        ChildRules parent kids ∧
        base.rulesFor? tag.uri (pathInside m.path tag.name).toList tag.name tag.attrs = some own ∧
        m.rulesAt? tag = some (own ++ kids) ∧
        ∀ inner closing rest, later = Content.events inner ++ .close closing :: rest →
          closing.name = tag.name ∧ ∃ m' next, ∃ p : Passage .none tag inner closing m m',
            behind = p.firings ++ next ∧ Delivered .none rest m' next b' ∧
            p.found = own ++ kids ∧ p.AssignsChildren)

/-- An element whose start got through outside a captured node has a list. -/
theorem Delivered.exists_rulesAt? {κ : Type} {x : Extension κ} {tag : StartTag}
    {es : List DocumentEvent} {b b' : Binder κ} {fs : List (Firing κ)} (hb : b.capture = none)
    (h : Delivered x (.start tag :: es) b fs b') : ∃ found, b.rulesAt? tag = some found := by
  cases h with
  | step hs he _ =>
    cases he with
    | startInside _ hsome =>
      cases ((congrArg Binder.capture hs).trans hb).symm.trans hsome
    | start _ hfound _ => exact ⟨_, (Binder.rulesAt?_of_unread hs tag).symm.trans hfound⟩

theorem Delivered.reachesChildren {es : List DocumentEvent} {b b' : Binder Empty}
    {fs : List (Firing Empty)} {due : List EndTag} (h : Delivered .none es b fs b')
    (hp : Pairs [] es due) (hmatched : b.matched = [])
    (hnames : ∀ tag, .start tag ∈ es → ProperName tag.name) :
    ReachesChildren b.matcher b es fs b' := by
  intro earlier tag later hes
  subst hes
  obtain ⟨m, ahead, behind, rfl, hearlier, hrest⟩ := h.split
  refine ⟨m, ahead, behind, rfl, hearlier, hrest, fun hm => ?_⟩
  obtain ⟨due', hfront, hback⟩ := hp.split
  have hstart : Layered b.matcher b.location b.matcher := by
    unfold Binder.location
    rw [hmatched]
    exact .bare ..
  have hlayered := hstart.delivered hearlier fun tag htag =>
    hnames tag (List.mem_append_left _ htag)
  obtain ⟨kids, hkids, hlist⟩ := hlayered.rulesFor?_eq
    (hnames tag (List.mem_append_right _ List.mem_cons_self))
  obtain ⟨found, hfound⟩ := hrest.exists_rulesAt? hm
  have hsplit := (m.rulesAt?_eq tag).symm.trans hfound
  rw [show m.path = m.location.path from rfl, hlist] at hsplit
  obtain ⟨own, hown, rfl⟩ := Option.map_eq_some_iff.mp hsplit
  refine ⟨_, own, kids, hearlier.around Extension.quiet_none hfront hmatched hm, hkids, hown, hfound,
    fun inner closing rest hlater => ?_⟩
  subst hlater
  obtain rfl := hback.closing_eq
  obtain ⟨m', p, next, rfl, hnext, -⟩ := hrest.passage Extension.quiet_none
    (fun hb h => h.settles Extension.quiet_none inner hb) hm
  have hlisted := (Binder.rulesAt?_of_unread p.entry_unread tag).symm.trans p.found_eq
  refine ⟨rfl, m', next, p, rfl, hnext, ?_, p.assignsChildren⟩
  exact Option.some.inj (hlisted.symm.trans hfound)

/-- **Nested properties.** Whatever part of a text has been handled without a failure, the rules for
nested properties reach exactly the direct children of their elements: besides the rules that the
matcher had at the start, the list of an element has one rule for each of them in the list of its
parent and no others. With the text of the child each of these rules assigns one property of the
object on top, unless it leaves the child out. -/
theorem nested_properties_law {text : String} {b : Binder Empty} (hmatched : b.matched = []) :
    ∀ front back, Markup.scan text.toList = front ++ back → ∀ opened b',
      Document.handleAll .none b.options.namespaceAware { rest := text.toList } [] front
        (b.atStart text.toList) = .ok opened b' →
      ∃ rs, Generic.delivered? front = some rs ∧
        ((∀ name attrs, .start name attrs ∈ rs →
          ProperName (elementName (Generic.nameIn b.options.namespaceAware name) name)) →
        ∃ es fs,
          Handled .none b.options.namespaceAware rs [] (b.atStart text.toList) opened b' es fs ∧
          b'.calls = (fs.map Firing.call).reverse ∧
          ReachesChildren b.matcher (b.atStart text.toList) es fs b') := by
  intro front back _ opened b' hrun
  obtain ⟨⟨rs, es, fs, hrs, hhandled⟩, -⟩ := Document.handled_handleAll hrun
  refine ⟨rs, hrs, fun hnames => ⟨es, fs, hhandled, ?_, ?_⟩⟩
  · exact (hhandled.delivered.calls Extension.quiet_none).trans (List.append_nil _)
  · have hstart : (b.atStart text.toList).matched = [] :=
      (congrArg Location.matched (b.location_atStart text.toList)).trans hmatched
    have hmatcher : (b.atStart text.toList).matcher = b.matcher := Binder.matcher_note ..
    rw [← hmatcher]
    exact hhandled.delivered.reachesChildren hhandled.pairs hstart
      (forall_names_of_conveys hhandled.conveys hnames)

/-- An element with one child. -/
theorem nested_properties_law_of_a_child :
    let b : Binder Empty :=
      { matcher := .plain (({} : Table _).register ['p'] ⟨0, .standard (.setNested {})⟩)
        stack := [.object ⟨0⟩], heap := ⟨#[{ bean := .person "" 0 none }]⟩ }
    let text := "<p><name>t</name></p>"
    let read := Document.handleAll .none b.options.namespaceAware { rest := text.toList } []
      (Markup.scan text.toList)
    let b' := read.after (b.atStart text.toList)
    let rs := [.start "p" [], .start "name" [], .text "t", .close, .close]
    b.matched = [] ∧ read (b.atStart text.toList) = .ok [] b' ∧
      Generic.delivered? (Markup.scan text.toList) = some rs ∧
      (∀ name attrs, .start name attrs ∈ rs →
        ProperName (elementName (Generic.nameIn b.options.namespaceAware name) name)) ∧
      ∃ es fs, Handled .none b.options.namespaceAware rs [] (b.atStart text.toList) [] b' es fs ∧
        b'.calls = (fs.map Firing.call).reverse ∧
        ReachesChildren b.matcher (b.atStart text.toList) es fs b' := by
  intro b text read b' rs
  have hread : read (b.atStart text.toList) = .ok [] b' :=
    Action.eq_ok_of_answer? (by decide +kernel)
  have hscan : Generic.delivered? (Markup.scan text.toList) = some rs := by decide +kernel
  have hnames : ∀ name attrs, .start name attrs ∈ rs →
      ProperName (elementName (Generic.nameIn b.options.namespaceAware name) name) := by
    intro name attrs h
    obtain ⟨rfl, -⟩ | ⟨rfl, -⟩ : (name = "p" ∧ attrs = []) ∨ (name = "name" ∧ attrs = []) := by
      simpa [rs] using h
    · decide
    · decide
  obtain ⟨rs', hrs, hlaw⟩ := nested_properties_law rfl _ [] (List.append_nil _).symm [] b' hread
  obtain rfl : rs = rs' := Option.some.inj (hscan.symm.trans hrs)
  exact ⟨rfl, hread, hscan, hnames, hlaw hnames⟩

/-- The text of a child that the rule leaves out is assigned to no property, although the child has
its rule and the rule gets the text. -/
theorem nested_properties_leave_out_a_child :
    let config : NestedConfig := { aliases := (∅ : Dict _ _).insert "name" none }
    let b : Binder Empty :=
      { matcher := .plain (({} : Table _).register ['p'] ⟨0, .standard (.setNested config)⟩)
        stack := [.object ⟨0⟩], heap := ⟨#[{ bean := .person "" 0 none }]⟩ }
    let b' := (parse .none "<p><name>t</name></p>").after b
    (b'.calls.filterMap fun c => match c.rule.rule, c.callback with
      | .standard (.nestedChild _), .body _ name text => some (name, text)
      | _, _ => none) = [("name", "t")] ∧
      ((b'.heap.bean? ⟨0⟩).bind (·.property? "name")).bind Value.text? = some "" := by
  decide +kernel

end XmlBinding
