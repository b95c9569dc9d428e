import XmlBinding.Proofs.Scene
import XmlBinding.Proofs.Trace.Reader

/-!
# The end of a document

When the last element is closed, the registered rules finish one after the other. A rule that is
registered for several patterns does so once. The first that fails is the last that is called, and
its error is the answer. What belongs to the document is forgotten either way, since the binder is
cleared behind the calls and not behind their success.
-/
namespace XmlBinding

variable {κ : Type} {x : Extension κ}

/-! ### The rules that finish -/

theorem nodup_unseenRules (refs : List (RuleRef κ)) (seen : List Nat) :
    ((unseenRules seen refs).map (·.id)).Nodup ∧
      ∀ ref ∈ unseenRules seen refs, ref.id ∉ seen := by
  induction refs generalizing seen with
  | nil => exact ⟨.nil, nofun⟩
  | cons ref rest ih =>
    unfold unseenRules
    split
    · exact ih seen
    · next hnew =>
      obtain ⟨hnodup, hunseen⟩ := ih (ref.id :: seen)
      have hfresh : ref.id ∉ seen := fun hmem => hnew (List.contains_iff_mem.mpr hmem)
      refine ⟨List.nodup_cons.mpr ⟨fun hmem => ?_, hnodup⟩, List.forall_mem_cons.mpr
        ⟨hfresh, fun other hother hmem => hunseen other hother (List.mem_cons_of_mem _ hmem)⟩⟩
      obtain ⟨other, hother, hid⟩ := List.mem_map.mp hmem
      exact hunseen other hother (hid ▸ List.mem_cons_self)

theorem mem_ids_unseenRules {refs : List (RuleRef κ)} {seen : List Nat} {ref : RuleRef κ}
    (hmem : ref ∈ refs) (hfresh : ref.id ∉ seen) :
    ref.id ∈ (unseenRules seen refs).map (·.id) := by
  induction refs generalizing seen with
  | nil => cases hmem
  | cons first rest ih =>
    unfold unseenRules
    split
    · next hseen =>
      obtain rfl | hrest := List.mem_cons.mp hmem
      · exact absurd (List.contains_iff_mem.mp hseen) hfresh
      · exact ih hrest hfresh
    · by_cases hid : ref.id = first.id
      · rw [hid]
        exact List.mem_cons_self
      · obtain rfl | hrest := List.mem_cons.mp hmem
        · exact absurd rfl hid
        · exact List.mem_cons_of_mem _ (ih hrest fun h => (List.mem_cons.mp h).elim hid hfresh)

/-! ### What is left behind a document -/

/-- The binder holds nothing of a document. -/
structure Binder.Cleared (b : Binder κ) : Prop where
  path : b.path = ""
  outerPaths : b.outerPaths = []
  matched : b.matched = []
  text : b.text = ""
  outerTexts : b.outerTexts = []
  capture : b.capture = none
  stack : b.stack = []
  params : b.params = []
  named : b.named = ∅

theorem Binder.cleared_clear (b : Binder κ) : b.clear.Cleared :=
  ⟨rfl, rfl, rfl, rfl, rfl, rfl, rfl, rfl, rfl⟩

theorem Binder.cleared_abandon (b : Binder κ) : b.abandon.Cleared := by
  unfold abandon
  generalize b.undecorateAll = outer
  exact ⟨rfl, rfl, rfl, rfl, rfl, rfl, rfl, rfl, rfl⟩

/-! ### Decorations that a failure leaves -/

/-- The matcher inside all decorations. -/
def Matcher.core {ρ : Type} : Matcher ρ → Matcher ρ
  | .decorated inner _ _ => inner.core
  | m => m

theorem Matcher.core_eq_self {ρ : Type} {m : Matcher ρ} (h : m.undecorated? = none) :
    m.core = m := by
  cases m with
  | decorated inner place extra => cases h
  | _ => rfl

/-- A decoration lists nothing of its own. -/
theorem Matcher.rules_core {ρ : Type} (m : Matcher ρ) : m.core.rules = m.rules := by
  induction m with
  | decorated inner place extra ih => exact ih
  | _ => rfl

namespace Binder

variable (b : Binder κ)

theorem undecorateAll_eq : b.undecorateAll =
    { b with matcher := b.matcher.core, journal := b.undecorateAll.journal } := by
  suffices hgo : ∀ (m : Matcher (RuleRef κ)) (c : Binder κ), c.matcher = m →
      undecorateAll.go c m = { c with
        matcher := m.core
        journal := (undecorateAll.go c m).journal } from hgo _ b rfl
  intro m
  induction m with
  | decorated inner place extra ih =>
    intro c _
    unfold undecorateAll.go
    rw [note_eq, ih _ rfl]
    rfl
  | _ => exact fun c hc => congrArg (fun matcher => { c with matcher }) hc

theorem abandon_eq : b.abandon = Binder.clear
    { b with matcher := b.matcher.core, bindings := ∅, journal := b.abandon.journal } := by
  unfold abandon
  rw [undecorateAll_eq]
  rfl

theorem calls_abandon : b.abandon.calls = b.calls := by
  rw [abandon_eq]
  rfl

end Binder

/-! ### The calls at the end -/

/-- The binder behind the calls at the end of a document. -/
def Binder.closeDocument (b : Binder κ) : Binder κ := (b.note .debug .dispatch "end document").clear

/-- The answer of a document whose rules finish, given the binder in front of them. All of them get
through, or the first that does not is the last that is called. -/
inductive Finishes (x : Extension κ) (refs : List (RuleRef κ)) (b : Binder κ) :
    EStateM.Result (Halt BindError) (Binder κ) (Option Value) → Prop
  | all {fs : List (Firing κ)} {s : Binder κ} (hcalled : Called x .finish refs b fs s) :
      Finishes x refs b (.ok s.closeDocument.root s.closeDocument)
  | failed {front back : List (RuleRef κ)} {ref : RuleRef κ} {fs : List (Firing κ)}
      {s s' : Binder κ} {cause : RuleError} (hrefs : refs = front ++ ref :: back)
      (hcalled : Called x .finish front b fs s)
      (hfire : ref.fire x .finish (s.recordCall x .finish ref) = .error (.error cause) s') :
      Finishes x refs b (.error (.error (s'.report (ref.name x) .finish cause))
        (s'.noteFailure x .finish ref cause).closeDocument.abandon)
  | crashed {front back : List (RuleRef κ)} {ref : RuleRef κ} {fs : List (Firing κ)}
      {s s' : Binder κ} (hrefs : refs = front ++ ref :: back)
      (hcalled : Called x .finish front b fs s)
      (hfire : ref.fire x .finish (s.recordCall x .finish ref) = .error .crash s') :
      Finishes x refs b (.error .crash s')

/-- Unless the program crashed, nothing of the document is left. -/
def LeavesNothing : EStateM.Result (Halt BindError) (Binder κ) (Option Value) → Prop
  | .ok _ b' | .error (.error _) b' => b'.Cleared
  | .error .crash _ => True

theorem Finishes.leavesNothing {refs : List (RuleRef κ)} {b : Binder κ}
    {r : EStateM.Result (Halt BindError) (Binder κ) (Option Value)} (h : Finishes x refs b r) :
    LeavesNothing r := by
  cases h with
  | all _ => exact Binder.cleared_clear _
  | failed _ _ _ => exact Binder.cleared_abandon _
  | crashed _ _ _ => trivial

/-- The end of a document answers as its rules finish. -/
theorem finishes_endDocument (b : Binder κ) :
    let refs := distinctRules b.matcher.rules
    (∃ fs s, Called x .finish refs b.noteLeftover fs s ∧
      endDocument x b = .ok () s.closeDocument) ∨
    ∃ front ref back fs s halt s', refs = front ++ ref :: back ∧
      Called x .finish front b.noteLeftover fs s ∧ Fails x .finish ref s halt s' ∧
      endDocument x b = .error halt (match halt with
        | .error _ => s'.closeDocument
        | .crash => s') := by
  intro refs
  have hend : endDocument x b = ((callRules x .finish refs).attempt >>= fun r =>
      modify Binder.closeDocument >>= fun _ => Action.lift r) b.noteLeftover := by
    unfold endDocument
    rw [Action.modify_bind_run, Action.get_bind_run, b.matcher_noteLeftover]
    rfl
  rw [hend]
  cases hr : callRules x .finish refs b.noteLeftover with
  | ok a s =>
    obtain ⟨fs, hcalled⟩ := callRules_eq_ok.mp hr
    rw [Action.bind_run_of_ok (Action.attempt_of_ok hr)]
    exact .inl ⟨fs, s, hcalled, rfl⟩
  | error halt s' =>
    obtain ⟨front, ref, back, fs, s, hrefs, hfront, hfails⟩ := fails_of_callRules hr
    refine .inr ⟨front, ref, back, fs, s, halt, s', hrefs, hfront, hfails, ?_⟩
    cases halt with
    | error cause =>
      rw [Action.bind_run_of_ok (Action.attempt_of_error hr)]
      rfl
    | crash => rw [Action.bind_run_of_error (Action.attempt_of_crash hr)]

/-- Behind the last element a document comes to its end. -/
theorem run_eq_endDocument {text : List Char} {b m : Binder κ}
    (h : Document.handleAll x b.options.namespaceAware { rest := text } [] (Markup.scan text)
      (b.atStart text) = .ok [] m) : Document.run x text b = endDocument x m := by
  unfold Document.run
  rw [Action.get_bind_run, Action.modify_bind_run]
  exact Action.bind_run_of_ok h _

/-- A text that gets through, with all its calls: its events are delivered, the registered rules
finish, and the rest of the document is forgotten. -/
inductive Completes (x : Extension κ) (text : String) (b : Binder κ) :
    List (Firing κ) → Binder κ → Prop
  | intro {rs : List Generic.ReaderEvent} {es : List DocumentEvent} {m s : Binder κ}
      {reading finishing : List (Firing κ)}
      (hevents : Generic.delivered? (Markup.scan text.toList) = some rs)
      (hread : Handled x b.options.namespaceAware rs [] (b.atStart text.toList) [] m es reading)
      (hfinish : Called x .finish (distinctRules m.matcher.rules) m.noteLeftover finishing s) :
      Completes x text b (reading ++ finishing) s.closeDocument

theorem completes_of_parse {text : String} {b b' : Binder κ} {root : Option Value}
    (h : parse x text b = .ok root b') : root = b'.root ∧ ∃ fs, Completes x text b fs b' := by
  have hrun := run_of_parse_ok h
  obtain ⟨m, hread⟩ := handleAll_of_parse h
  obtain ⟨⟨rs, es, fs, hevents, hhandled⟩, -⟩ := Document.handled_handleAll hread
  obtain ⟨gs, s, hfinish, hend⟩ | ⟨_, _, _, _, _, _, _, _, _, _, hend⟩ :=
    finishes_endDocument (x := x) m
  · obtain ⟨-, rfl⟩ := EStateM.Result.ok.inj
      (hrun.symm.trans ((run_eq_endDocument hread).trans hend))
    obtain ⟨rfl, -⟩ := EStateM.Result.ok.inj (h.symm.trans (parse_of_run_ok hrun))
    exact ⟨rfl, _, .intro hevents hhandled hfinish⟩
  · cases hrun.symm.trans ((run_eq_endDocument hread).trans hend)

/-- **The end of a document.** When a text has been read to its end and no element is open, the
rules that are registered by then finish in the order of their first registration, each of them
once, up to the first that fails. The answer is the root or the error of that rule, and nothing of
the document is left. -/
theorem finish_law {text : String} {b m : Binder κ}
    (h : Document.handleAll x b.options.namespaceAware { rest := text.toList } []
      (Markup.scan text.toList) (b.atStart text.toList) = .ok [] m) :
    let refs := m.matcher.rules.eraseDupsBy fun r s => r.id == s.id
    Finishes x refs m.noteLeftover (parse x text b) ∧
      (refs.map (·.id)).Nodup ∧ (∀ ref ∈ m.matcher.rules, ref.id ∈ refs.map (·.id)) ∧
      LeavesNothing (parse x text b) := by
  intro refs
  have hrefs : refs = distinctRules m.matcher.rules := (distinctRules_eq_eraseDupsBy _).symm
  have hfinishes : Finishes x refs m.noteLeftover (parse x text b) := by
    have hrun := run_eq_endDocument h
    obtain ⟨fs, s, hcalled, hend⟩ | ⟨front, ref, back, fs, s, halt, s', hsplit, hcalled, hfails,
      hend⟩ := finishes_endDocument (x := x) m
    · rw [parse_of_run_ok (hrun.trans hend)]
      exact .all (hrefs ▸ hcalled)
    · cases hfails with
      | error hfire =>
        rw [parse_of_run_error (hrun.trans hend)]
        exact .failed (hrefs.trans hsplit) hcalled hfire
      | crash hfire =>
        rw [parse_of_run_crash (hrun.trans hend)]
        exact .crashed (hrefs.trans hsplit) hcalled hfire
  refine ⟨hfinishes, ?_, fun ref hmem => ?_, hfinishes.leavesNothing⟩
  · rw [hrefs]
    exact (nodup_unseenRules _ []).1
  · rw [hrefs]
    exact mem_ids_unseenRules hmem List.not_mem_nil

/-- A document with two rules for its only element, the first of which cannot finish. -/
theorem finish_law_of_a_failure :
    let x : Extension Unit := ⟨fun _ => "first", fun _ cb => match cb with
      | .finish => Action.fail (.custom "no")
      | _ => pure ()⟩
    let first : Table (RuleRef Unit) := ({} : Table _).register ['a'] ⟨0, .custom ()⟩
    let both := first.register ['a'] ⟨1, .standard (.setProperty "name" "value")⟩
    let b : Binder Unit := { matcher := .plain both }
    let read := Document.handleAll x b.options.namespaceAware { rest := "<a/>".toList } []
      (Markup.scan "<a/>".toList)
    let m := read.after (b.atStart "<a/>".toList)
    let refs := m.matcher.rules.eraseDupsBy fun r s => r.id == s.id
    read (b.atStart "<a/>".toList) = .ok [] m ∧
      Finishes x refs m.noteLeftover (parse x "<a/>" b) ∧ (refs.map (·.id)).Nodup ∧
      (∀ ref ∈ m.matcher.rules, ref.id ∈ refs.map (·.id)) ∧ LeavesNothing (parse x "<a/>" b) := by
  intro x first both b read m refs
  have hread : read (b.atStart "<a/>".toList) = .ok [] m :=
    Action.eq_ok_of_answer? (by decide +kernel)
  exact ⟨hread, finish_law hread⟩

/-- The rule behind one that cannot finish is registered and is not called. -/
theorem finish_misses_a_rule :
    let x : Extension Unit := ⟨fun _ => "first", fun _ cb => match cb with
      | .finish => Action.fail (.custom "no")
      | _ => pure ()⟩
    let first : Table (RuleRef Unit) := ({} : Table _).register ['a'] ⟨0, .custom ()⟩
    let both := first.register ['a'] ⟨1, .standard (.setProperty "name" "value")⟩
    let b : Binder Unit := { matcher := .plain both }
    let b' := (parse x "<a/>").after b
    b.matcher.rules.map (·.id) = [0, 1] ∧
      (b'.calls.filter (·.callback.phase = .finish)).map (·.rule.id) = [0] := by
  decide +kernel

end XmlBinding
