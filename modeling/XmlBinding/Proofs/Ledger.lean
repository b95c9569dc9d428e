import XmlBinding.Proofs.Finish

/-!
# What is entered in the ledger

The lists of rules of the open elements, the metrics and the record of calls are written by events
only, however the rules end that an event calls. This module says once what each thing that a caller
may do enters there, whether or not it gets through: a start tag that is dispatched enters an element
and starts, an end tag bodies and ends, the end of the document finishes, and nothing else enters
anything.
-/
namespace XmlBinding

variable {κ : Type} {x : Extension κ}

/-- What only events write, as far as it is counted. -/
structure Ledger (κ : Type) where
  matched : List (List (RuleRef κ))
  metrics : Metrics
  calls : List (Call κ)

def Progress.ledger (p : Progress κ) : Ledger κ := ⟨p.matched, p.metrics, p.calls⟩

def Binder.ledger (b : Binder κ) : Ledger κ := b.progress.ledger

/-- A start tag that was dispatched: where, and with which rules. -/
structure Arrival (κ : Type) where
  path : String
  depth : Nat
  rules : List (RuleRef κ)
  /-- Whether a trace was wanted at that time. -/
  traced : Bool

def Arrival.line? (x : Extension κ) (a : Arrival κ) : Option ElementTrace :=
  if a.traced then some ⟨a.path, a.depth, a.rules.map (·.name x)⟩ else none

namespace Ledger

/-- An element is entered. -/
def arrive (l : Ledger κ) (x : Extension κ) (a : Arrival κ) : Ledger κ :=
  { l with
    matched := a.rules :: l.matched
    metrics := l.metrics.record a.depth (!a.rules.isEmpty) (a.line? x) }

/-- A call is entered. -/
def call (l : Ledger κ) (cb : Callback) (ref : RuleRef κ) : Ledger κ :=
  { l with metrics := l.metrics.countCall cb.phase, calls := ⟨ref, cb⟩ :: l.calls }

def callAll (l : Ledger κ) (cb : Callback) (refs : List (RuleRef κ)) : Ledger κ :=
  refs.foldl (fun l ref => l.call cb ref) l

theorem matched_callAll (l : Ledger κ) (cb : Callback) (refs : List (RuleRef κ)) :
    (l.callAll cb refs).matched = l.matched := by
  induction refs generalizing l with
  | nil => rfl
  | cons ref rest ih => exact ih (l.call cb ref)

end Ledger

/-! ### What rules leave alone -/

/-- Rules of the user's own that deliver no events and neither clear nor reset the binder, even when
they fail. Where a call gets through, no element is open inside a captured node if none was. -/
structure Extension.Reserved (x : Extension κ) : Prop where
  ledger : ∀ rule cb, (x.fire rule cb).Keeps Binder.ledger
  fresh : ∀ {rule cb b b'}, x.fire rule cb b = .ok () b' → Capture.Fresh b.capture →
    Capture.Fresh b'.capture

theorem Extension.reserved_none : Extension.none.Reserved := ⟨nofun, nofun⟩

theorem RuleRef.ledger_fire (hx : x.Reserved) (ref : RuleRef κ) (cb : Callback) :
    (ref.fire x cb).Keeps Binder.ledger := by
  obtain ⟨id, rule | rule⟩ := ref
  · exact (StandardRule.progress_fire rule cb).of_view Progress.ledger fun _ => rfl
  · exact hx.ledger rule cb

namespace Binder

theorem ledger_note (b : Binder κ) (level : Level) (channel : Channel) (text : String) :
    (b.note level channel text).ledger = b.ledger :=
  congrArg (·.1.ledger) (b.course_note level channel text)

theorem ledger_recordCall (x : Extension κ) (cb : Callback) (ref : RuleRef κ) (b : Binder κ) :
    (b.recordCall x cb ref).ledger = b.ledger.call cb ref :=
  congrArg (·.1.ledger) (b.course_recordCall x cb ref)

theorem ledger_enter (b : Binder κ) (name : String) : (b.enter name).ledger = b.ledger := by
  unfold ledger
  rw [b.progress_enter]
  rfl

theorem ledger_closing (b : Binder κ) (outer : List (List (RuleRef κ))) :
    (b.closing outer).ledger = { b.ledger with matched := outer } :=
  congrArg (·.1.ledger) (b.course_closing outer)

theorem ledger_endCapture (b : Binder κ) : b.endCapture.ledger = b.ledger :=
  congrArg (·.1.ledger) b.course_endCapture

theorem ledger_leave (b : Binder κ) : b.leave.ledger = b.ledger := by
  unfold leave
  split <;> rfl

theorem ledger_characters (b : Binder κ) (content : String) :
    (b.characters content).ledger = b.ledger := by
  unfold characters
  split <;> rfl

theorem ledger_noteLeftover (b : Binder κ) : b.noteLeftover.ledger = b.ledger := by
  unfold noteLeftover
  split
  · exact b.ledger_note ..
  · rfl

theorem ledger_closeDocument (b : Binder κ) :
    b.closeDocument.ledger = { b.ledger with matched := [] } :=
  congrArg (fun l : Ledger κ => { l with matched := [] }) (b.ledger_note ..)

/-- The arrival of an element that starts here and for which these rules are found. -/
def arrival (b : Binder κ) (tag : StartTag) (found : List (RuleRef κ)) : Arrival κ :=
  ⟨(b.enter tag.name).path, b.depth + 1, found, b.options.collectTrace⟩

theorem ledger_noteRules (b : Binder κ) (found : List (RuleRef κ)) :
    (b.noteRules x found).ledger =
      b.ledger.arrive x ⟨b.path, b.depth + 1, found, b.options.collectTrace⟩ := rfl

theorem ledger_opened (b : Binder κ) (tag : StartTag) (found : List (RuleRef κ)) :
    (b.opened x tag found).ledger = b.ledger.arrive x (b.arrival tag found) := by
  have hdepth : (b.enter tag.name).depth = b.depth :=
    congrArg (·.matched.length) (b.ledger_enter tag.name)
  have hoptions : (b.enter tag.name).options = b.options := by
    unfold enter
    rw [note_eq]
  unfold opened
  rw [ledger_noteRules, ledger_enter, hdepth, hoptions]
  rfl

end Binder

theorem Called.ledger (hx : x.Reserved) {cb : Callback} {refs : List (RuleRef κ)}
    {b b' : Binder κ} {fs : List (Firing κ)} (h : Called x cb refs b fs b') :
    b'.ledger = b.ledger.callAll cb refs := by
  induction h with
  | nil => rfl
  | @cons ref rest b m b' fs hfire _ ih =>
    rw [ih, (RuleRef.ledger_fire hx ref cb).of_ok hfire, b.ledger_recordCall]
    rfl

/-- A call is entered even if it does not get through. -/
theorem Fails.ledger (hx : x.Reserved) {cb : Callback} {ref : RuleRef κ} {b b' : Binder κ}
    {halt : Halt BindError} (h : Fails x cb ref b halt b') :
    b'.ledger = b.ledger.call cb ref := by
  have hfire := (RuleRef.ledger_fire hx ref cb).keepsAt (b.recordCall x cb ref)
  rw [Action.KeepsAt, b.ledger_recordCall] at hfire
  cases h with
  | error h =>
    rw [Action.after_of_error h] at hfire
    exact (Binder.ledger_note ..).trans hfire
  | crash h => rwa [Action.after_of_error h] at hfire

/-- Calls of rules are entered up to the first that does not get through, that one included. -/
theorem meets_callRules_ledger (hx : x.Reserved) (cb : Callback) (refs : List (RuleRef κ))
    (b : Binder κ) : (callRules x cb refs).Meets b
      (fun _ b' => b'.ledger = b.ledger.callAll cb refs)
      fun _ b' => ∃ done, b'.ledger = b.ledger.callAll cb done := by
  refine Action.meets_iff.mpr ⟨fun _ b' h => ?_, fun halt b' h => ?_⟩
  · obtain ⟨fs, hcalled⟩ := callRules_eq_ok.mp h
    exact hcalled.ledger hx
  · obtain ⟨front, ref, back, fs, m, -, hcalled, hfails⟩ := fails_of_callRules h
    refine ⟨front ++ [ref], ?_⟩
    rw [hfails.ledger hx, hcalled.ledger hx, Ledger.callAll, Ledger.callAll, List.foldl_append]
    rfl

/-! ### Turns -/

/-- What a caller does: hand over an event, end the document, or do something aside, as a reader that
notes a position or declares a name of a namespace. -/
inductive Turn (κ : Type)
  | event (e : DocumentEvent)
  | endDocument
  | aside (f : Binder κ → Binder κ)

namespace Turn

def run (x : Extension κ) : Turn κ → Action κ BindError Unit
  | .event e => deliver x e
  | .endDocument => XmlBinding.endDocument x
  | .aside f => modify f

/-- What is done aside is neither an event nor a way to forget the document. -/
def Harmless : Turn κ → Prop
  | .aside f => ∀ b, (f b).ledger = b.ledger ∧ (f b).capture = b.capture
  | _ => True

/-- The start tag that is dispatched. Inside a captured node there is none. -/
def arrival? (t : Turn κ) (b : Binder κ) : Option (Arrival κ) :=
  match t with
  | .event (.start tag) => if b.capture.isSome then none else (b.rulesAt? tag).map (b.arrival tag)
  | _ => none

theorem arrival?_of_capturing (tag : StartTag) {b : Binder κ} {c : Capture}
    (hb : b.capture = some c) : arrival? (.event (.start tag)) b = none := by
  unfold arrival?
  rw [hb]
  rfl

theorem arrival?_start (tag : StartTag) {b : Binder κ} (hb : b.capture = none) :
    arrival? (.event (.start tag)) b = (b.rulesAt? tag).map (b.arrival tag) := by
  unfold arrival?
  rw [hb]
  rfl

/-- What a turn enters in the ledger of a binder, and whether it gets through. -/
inductive Enters (x : Extension κ) (t : Turn κ) (b : Binder κ) : Bool → Ledger κ → Prop
  | nothing {through : Bool} (ht : t.arrival? b = none) : Enters x t b through b.ledger
  | starts {through : Bool} {a : Arrival κ} (ha : t.arrival? b = some a) {cb : Callback}
      (hcb : cb.phase = .start) {done : List (RuleRef κ)} (hall : through = true → done = a.rules) :
      Enters x t b through ((b.ledger.arrive x a).callAll cb done)
  | closes {through : Bool} {tag : EndTag} (ht : t = .event (.close tag))
      {found : List (RuleRef κ)} {outer : List (List (RuleRef κ))} (hm : b.matched = found :: outer)
      {body close : Callback} (hbody : body.phase = .body) (hclose : close.phase = .close)
      {told ended : List (RuleRef κ)}
      (hall : through = true → told = found ∧ ended.length = found.length) :
      Enters x t b through
        (({ b.ledger with matched := outer }.callAll body told).callAll close ended)
  | finishes {through : Bool} (ht : t = .endDocument) {cb : Callback} (hcb : cb.phase = .finish)
      {done : List (RuleRef κ)} {matched : List (List (RuleRef κ))}
      (hm : matched = [] ∨ matched = b.matched) :
      Enters x t b through { b.ledger.callAll cb done with matched }

theorem enters_start (hx : x.Reserved) (tag : StartTag) (b : Binder κ) :
    (deliver x (.start tag)).Meets b (fun _ b' => Enters x (.event (.start tag)) b true b'.ledger)
      fun _ b' => Enters x (.event (.start tag)) b false b'.ledger := by
  cases hb : b.capture with
  | some c =>
    rw [Action.meets_of_ok (startElement_captured x tag b c hb)]
    exact .nothing (arrival?_of_capturing tag hb)
  | none =>
    have harrival := arrival?_start tag hb
    cases hfound : b.rulesAt? tag with
    | none =>
      rw [hfound, Option.map_none] at harrival
      rw [Action.meets_of_error (start_eq_crash tag hb hfound), b.ledger_enter]
      exact .nothing harrival
    | some found =>
      rw [hfound, Option.map_some] at harrival
      rw [Action.meets_congr (start_eq_callRules tag hb hfound)]
      refine (meets_callRules_ledger hx ..).mono (fun _ b' h => ?_) fun _ b' h => ?_
      · rw [h, b.ledger_opened]
        exact .starts harrival rfl fun _ => rfl
      · obtain ⟨done, h⟩ := h
        rw [h, b.ledger_opened]
        exact .starts harrival rfl Bool.false_ne_true.elim

theorem enters_close (hx : x.Reserved) (tag : EndTag) (b : Binder κ) :
    (deliver x (.close tag)).Meets b (fun _ b' => Enters x (.event (.close tag)) b true b'.ledger)
      fun _ b' => Enters x (.event (.close tag)) b false b'.ledger := by
  cases hc : b.capture.bind (·.close?) with
  | some c' =>
    obtain ⟨c, hb, hc'⟩ := Option.bind_eq_some_iff.mp hc
    rw [Action.meets_of_ok (endElement_captured x tag b c c' hb hc')]
    exact .nothing rfl
  | none =>
    cases hm : b.matched with
    | nil =>
      rw [Action.meets_of_error (close_eq_unbalanced tag hc hm), b.ledger_endCapture]
      exact .nothing rfl
    | cons found outer =>
      rw [Action.meets_congr (close_eq_closeRules tag hc hm)]
      unfold closeRules
      simp only [Action.meets_bind, Action.meets_modify]
      refine (meets_callRules_ledger hx ..).mono (fun _ m hbodies => ?_) fun _ m hbodies => ?_
      · have hresumed : m.resumeText.ledger = m.ledger := rfl
        refine (meets_callRules_ledger hx ..).mono (fun _ m' hends => ?_) fun _ m' hends => ?_
        · rw [m'.ledger_leave, hends, hresumed, hbodies, b.ledger_closing]
          exact .closes rfl hm rfl rfl fun _ => ⟨rfl, List.length_reverse⟩
        · obtain ⟨ended, hends⟩ := hends
          rw [hends, hresumed, hbodies, b.ledger_closing]
          exact .closes rfl hm rfl rfl Bool.false_ne_true.elim
      · obtain ⟨told, hbodies⟩ := hbodies
        rw [hbodies, b.ledger_closing]
        change Enters x _ b false
          (({ b.ledger with matched := outer }.callAll _ told).callAll (.close tag.uri tag.name) [])
        exact .closes rfl hm rfl rfl Bool.false_ne_true.elim

theorem enters_endDocument (hx : x.Reserved) (b : Binder κ) :
    (XmlBinding.endDocument x).Meets b (fun _ b' => Enters x .endDocument b true b'.ledger)
      fun _ b' => Enters x .endDocument b false b'.ledger := by
  obtain ⟨fs, s, hcalled, hend⟩ | ⟨front, ref, _, fs, s, halt, s', -, hcalled, hfails, hend⟩ :=
    finishes_endDocument (x := x) b
  · rw [Action.meets_of_ok hend, s.ledger_closeDocument, hcalled.ledger hx, b.ledger_noteLeftover]
    exact .finishes rfl rfl (.inl rfl)
  · have hledger : s'.ledger = b.ledger.callAll .finish (front ++ [ref]) := by
      rw [hfails.ledger hx, hcalled.ledger hx, b.ledger_noteLeftover, Ledger.callAll,
        Ledger.callAll, List.foldl_append]
      rfl
    rw [Action.meets_of_error hend]
    cases halt with
    | error cause =>
      rw [s'.ledger_closeDocument, hledger]
      exact .finishes rfl rfl (.inl rfl)
    | crash =>
      have hsame : s'.ledger = { s'.ledger with matched := b.matched } := by
        rw [hledger]
        exact congrArg (Ledger.mk · _ _) (b.ledger.matched_callAll ..)
      rw [hsame, hledger]
      exact .finishes rfl rfl (.inr rfl)

/-- **One turn.** These are all entries that a turn makes, however it ends. -/
theorem enters (hx : x.Reserved) {t : Turn κ} (ht : t.Harmless) (b : Binder κ) :
    (t.run x).Meets b (fun _ b' => Enters x t b true b'.ledger)
      fun _ b' => Enters x t b false b'.ledger := by
  cases t with
  | event e =>
    cases e with
    | start tag => exact enters_start hx tag b
    | close tag => exact enters_close hx tag b
    | text content =>
      change Enters x _ b true (b.characters content).ledger
      rw [b.ledger_characters]
      exact .nothing rfl
  | endDocument => exact enters_endDocument hx b
  | aside f =>
    change Enters x _ b true (f b).ledger
    rw [(ht b).1]
    exact .nothing rfl

end Turn

end XmlBinding
