import XmlBinding.Proofs.Failure.Pardon
import XmlBinding.Proofs.Failure.Place

/-!
# The first failure

The first rule that fails in a document is the last that is called, since every loop over rules,
every event and the reader stop at once. What is reported is what the binder held at that moment: the
rule, the phase, the path of its element, the position of the tag and the rule's own error. Then
everything that belongs to the document is forgotten. Had the failure been overlooked, the document
would have made the same calls up to there, and gone on.
-/
namespace XmlBinding

variable {κ : Type} {x : Extension κ}

/-! ### What is left behind a failure -/

theorem Matcher.undecorated?_core {ρ : Type} (m : Matcher ρ) : m.core.undecorated? = none := by
  induction m with
  | decorated inner place extra ih => exact ih
  | _ => rfl

/-- The binder holds nothing of a document, no label stands for a namespace, and the matcher has no
decoration. -/
structure Binder.Unburdened (b : Binder κ) : Prop where
  cleared : b.Cleared
  bindings : b.bindings = ∅
  undecorated : b.matcher.undecorated? = none

theorem Binder.unburdened_abandon (b : Binder κ) : b.abandon.Unburdened := by
  refine ⟨b.cleared_abandon, rfl, ?_⟩
  rw [b.abandon_eq]
  exact b.matcher.undecorated?_core

/-! ### The law -/

/-- Where a rule fails: in which phase, with which path and at which position. The elements that are
open are known from the tokens, and the token is the first one that does not get through. -/
inductive FailsAt (x : Extension κ) (b : Binder κ) (text : List Char) :
    Phase → String → Position → Prop
  | tag {front : List (Nat × Markup.Token)} {offset : Nat} {token : Markup.Token}
      {opened : List OpenElement} {m b' : Binder κ} {halt : Halt BindError} {phase : Phase}
      (h : Document.StopsAt x b text front offset token opened m halt b')
      (hphase : phase ∈ token.phases) :
      FailsAt x b text phase
        (pathOf ((token.namesAt (Markup.openNames front)).map
          (Document.nameOf b.options.namespaceAware)))
        (Position.ofOffset text offset)
  | finish {front : List (Nat × Markup.Token)} {offset : Nat} {m : Binder κ}
      (hscan : Markup.scan text = front ++ [(offset, .finish)])
      (hread : Document.handleAll x b.options.namespaceAware { rest := text } [] (Markup.scan text)
        (b.atStart text) = .ok [] m) :
      FailsAt x b text .finish "" (Position.ofOffset text offset)

/-- No call of the document fails but those with these numbers. For whatever would be done where
another one fails, the document is the same. -/
def OnlyFails (x : Extension κ) (b : Binder κ) (text : String) (numbers : Nat → Prop) : Prop :=
  ∀ call : Caller κ, call.Spoils x (fun number => ¬ numbers number) →
    call.parse x text b = parse x text b

/-- How a document ends that makes these calls, the first of them in front. -/
inductive Concludes (x : Extension κ) (b : Binder κ) (text : String) (calls : List (Call κ)) :
    EStateM.Result (Halt BindError) (Binder κ) (Option Value) → Prop
  /-- All calls get through, none of them fails, and no failure of a rule is reported. -/
  | unfailing {fs : List (Firing κ)} {m : Binder κ}
      {r : EStateM.Result (Halt BindError) (Binder κ) (Option Value)}
      (h : Ran x (b.atStart text.toList) fs m) (hcalls : calls = fs.map Firing.call)
      (honly : OnlyFails x b text fun _ => False)
      (hr : ∀ failure b', r ≠ .error (.error (.rule failure)) b') : Concludes x b text calls r
  /-- The last call fails and is reported. Nothing of the document is left. If that call is pardoned,
  what it did stays done, and the document makes the same calls up to there. -/
  | failed {fs : List (Firing κ)} {m s b' : Binder κ} {cb : Callback} {ref : RuleRef κ}
      {cause : RuleError} {path : String} {position : Position}
      (h : Ran x (b.atStart text.toList) fs m)
      (hcalls : calls = fs.map Firing.call ++ [⟨ref, cb⟩])
      (honly : OnlyFails x b text (· = fs.length + 1))
      (hfire : ref.fire x cb (m.recordCall x cb ref) = .error (.error cause) s)
      (hplace : FailsAt x b text.toList cb.phase path position) (hleft : b'.Unburdened)
      (hpardon : pardon x (fs.length + 1) cb ref m = .ok () s)
      (hfirst : calls <+: (((pardon x (fs.length + 1)).parse x text).after b).calls.reverse) :
      Concludes x b text calls
        (.error (.error (.rule ⟨ref.name x, cb.phase, path, some position, cause⟩)) b')
  /-- The last call has no answer. -/
  | crashed {fs : List (Firing κ)} {m b' : Binder κ} {cb : Callback} {ref : RuleRef κ}
      (h : Ran x (b.atStart text.toList) fs m)
      (hcalls : calls = fs.map Firing.call ++ [⟨ref, cb⟩])
      (honly : OnlyFails x b text fun _ => False)
      (hfire : ref.fire x cb (m.recordCall x cb ref) = .error .crash b') :
      Concludes x b text calls (.error .crash b')

theorem onlyFails_of_parse (hx : x.Discreet) {b : Binder κ} {text : String} {numbers : Nat → Prop}
    (h : ∀ failure b', parse x text b = .error (.error (.rule failure)) b' →
      numbers b'.calls.length) : OnlyFails x b text numbers := fun _ hcall =>
  parse_eq_of_spoils hx.calls hcall fun failure b' hparse => not_not_intro (h failure b' hparse)

namespace Ran

variable {b m : Binder κ} {text : String} {fs : List (Firing κ)}

theorem map_call (h : Ran x (b.atStart text.toList) fs m) :
    m.calls.reverse = fs.map Firing.call := by
  rw [h.calls, List.reverse_append, List.reverse_reverse]
  rfl

/-- A call that is pardoned leaves what it would have left. -/
theorem pardon_eq (h : Ran x (b.atStart text.toList) fs m) {cb : Callback} {ref : RuleRef κ}
    {cause : RuleError} {s : Binder κ}
    (hfire : ref.fire x cb (m.recordCall x cb ref) = .error (.error cause) s) :
    pardon x (fs.length + 1) cb ref m = .ok () s := by
  have hlength : m.calls.length = fs.length := by
    rw [← List.length_reverse, h.map_call, List.length_map]
  rw [pardon, hlength, if_pos rfl, overlook, Action.modify_bind_run]
  change ((fun _ => ()) <$> (ref.fire x cb).attempt) _ = _
  simp only [Functor.map, EStateM.map, Action.attempt_of_error hfire]

/-- A text that stops between two calls with no failure to report. -/
theorem concludes_of_error (hx : x.Discreet) (h : Ran x (b.atStart text.toList) fs m)
    {halt : Halt BindError} (hrun : Document.run x text.toList b = .error halt m)
    (hhalt : halt.failure? = none) :
    Concludes x b text ((parse x text).after b).calls.reverse (parse x text b) := by
  cases halt with
  | error cause =>
    have hparse := parse_of_run_error hrun
    have hresult : ∀ failure b', parse x text b ≠ .error (.error (.rule failure)) b' := by
      intro failure b' hfails
      rw [(EStateM.Result.error.inj (hparse.symm.trans hfails)).1] at hhalt
      cases hhalt
    rw [Action.after_of_error hparse, m.calls_abandon]
    exact .unfailing h h.map_call (onlyFails_of_parse hx fun _ _ => hresult _ _) hresult
  | crash =>
    have hparse := parse_of_run_crash hrun
    have hresult : ∀ failure b', parse x text b ≠ .error (.error (.rule failure)) b' := by
      intro failure b' hfails
      cases (EStateM.Result.error.inj (hparse.symm.trans hfails)).1
    rw [Action.after_of_error hparse]
    exact .unfailing h h.map_call (onlyFails_of_parse hx fun _ _ => hresult _ _) hresult

/-- A text that stops at a call that does not get through. -/
theorem concludes_of_fails (hx : x.Discreet) (h : Ran x (b.atStart text.toList) fs m)
    {cb : Callback} {ref : RuleRef κ} {halt : Halt BindError} {s s' : Binder κ} {position : Position}
    (hfails : Fails x cb ref m halt s) (hposition : m.position = some position)
    (hplace : FailsAt x b text.toList cb.phase m.path position)
    (hrun : Document.run x text.toList b = .error halt s') (hcrash : halt = .crash → s' = s)
    (hcalls : s'.calls = s.calls) :
    Concludes x b text ((parse x text).after b).calls.reverse (parse x text b) := by
  have hall : s'.calls.reverse = fs.map Firing.call ++ [⟨ref, cb⟩] := by
    rw [hcalls, hfails.recorded hx.calls, List.reverse_cons, h.map_call]
  cases hfails with
  | @error cause t hfire =>
    have hparse := parse_of_run_error hrun
    have hbearings : t.bearings = m.bearings := by
      have hkept := (RuleRef.bearings_fire hx ref cb).keepsAt (m.recordCall x cb ref)
      rw [Action.KeepsAt, Action.after_of_error hfire] at hkept
      exact hkept.trans (m.bearings_recordCall x cb ref)
    have hreport : t.report (ref.name x) cb.phase cause =
        .rule ⟨ref.name x, cb.phase, m.path, some position, cause⟩ := by
      have hpath : t.path = m.path := congrArg (·.1.path) hbearings
      have hhere : t.position = some position := (congrArg Prod.snd hbearings).trans hposition
      rw [Binder.report, hpath, hhere]
    have hpardoned := List.reverse_prefix.mpr (calls_pardon hx.calls (fs.length + 1) text b)
    have honly : OnlyFails x b text (· = fs.length + 1) := by
      refine onlyFails_of_parse hx fun failure b' hfails => ?_
      obtain ⟨-, rfl⟩ := EStateM.Result.error.inj (hparse.symm.trans hfails)
      rw [s'.calls_abandon, ← List.length_reverse, hall, List.length_append, List.length_map]
      rfl
    rw [Action.after_of_error hparse, s'.calls_abandon] at hpardoned ⊢
    rw [hparse, hreport]
    exact .failed h hall honly hfire hplace s'.unburdened_abandon (h.pardon_eq hfire) hpardoned
  | crash hfire =>
    obtain rfl := hcrash rfl
    have hparse := parse_of_run_crash hrun
    have honly : OnlyFails x b text fun _ => False :=
      onlyFails_of_parse hx fun failure b' hfails => by
        cases (EStateM.Result.error.inj (hparse.symm.trans hfails)).1
    rw [Action.after_of_error hparse, hparse]
    exact .crashed h hall honly hfire

end Ran

/-- A text that stops at one of its tokens. -/
theorem Document.StopsAt.concludes (hx : x.Discreet) {b m b' : Binder κ} {text : String}
    {front : List (Nat × Markup.Token)} {offset : Nat} {token : Markup.Token}
    {opened : List OpenElement} {halt : Halt BindError}
    (h : StopsAt x b text.toList front offset token opened m halt b')
    (hstart : InStep b.outerPaths [] (b.atStart text.toList))
    (hrun : Document.run x text.toList b = .error halt b') :
    Concludes x b text ((parse x text).after b).calls.reverse (parse x text b) := by
  obtain ⟨⟨rs, es, fs, -, hhandled⟩, hnames⟩ := handled_handleAll h.read
  have hstep : InStep b.outerPaths (opened.map OpenElement.endTag) m :=
    hhandled.inStep hx.aloof hstart
  have hreach := m.unread_reach (Position.ofOffset text.toList offset) token
  have hbroken := broken_of_handle hx (hstep.of_unread hreach) (named_of_handled hhandled rfl)
    h.stops
  rw [show opened.map (·.qualifiedName) = Markup.openNames front from hnames] at hbroken
  have hfront := (hhandled.delivered.ran hx.calls).trans (.of_unread hreach)
  cases hbroken with
  | between hran hhalt => exact (hfront.trans hran).concludes_of_error hx hrun hhalt
  | @call _ s _ cb _ _ hran hspot hfails =>
    have hproper : token ≠ .broken := by
      rintro rfl
      cases hspot.phase
    have hposition : s.position = some (Position.ofOffset text.toList offset) := by
      rw [hspot.position, Binder.reach, if_neg hproper]
    have hplace := FailsAt.tag h hspot.phase
    rw [← hspot.path] at hplace
    exact (hfront.trans hran).concludes_of_fails hx hfails hposition hplace hrun (fun _ => rfl) rfl

theorem Binder.ran_noteLeftover (m : Binder κ) : Ran x m [] m.noteLeftover := by
  refine .of_same ?_ m.calls_noteLeftover
  unfold noteLeftover
  split
  · exact m.held_note ..
  · rfl

theorem Binder.bearings_noteLeftover (m : Binder κ) : m.noteLeftover.bearings = m.bearings := by
  unfold noteLeftover
  split
  · rw [note_eq]
    rfl
  · rfl

/-- A text that is read to its end stops at a rule that cannot finish. -/
theorem concludes_of_endDocument (hx : x.Discreet) {b m b' : Binder κ} {text : String}
    {halt : Halt BindError} (hstart : InStep b.outerPaths [] (b.atStart text.toList))
    (hread : Document.handleAll x b.options.namespaceAware { rest := text.toList } []
      (Markup.scan text.toList) (b.atStart text.toList) = .ok [] m)
    (hrun : Document.run x text.toList b = .error halt b') :
    Concludes x b text ((parse x text).after b).calls.reverse (parse x text b) := by
  obtain ⟨⟨rs, es, fs, -, hhandled⟩, -⟩ := Document.handled_handleAll hread
  obtain ⟨front, offset, hscan, hposition⟩ := Document.position_of_handleAll hread
  have hend := run_eq_endDocument hread
  rw [hend] at hrun
  obtain ⟨_, _, _, hok⟩ | ⟨_, ref, _, gs, s, _, s', -, hcalled, hfails, herror⟩ :=
    finishes_endDocument (x := x) m
  · cases hok.symm.trans hrun
  · obtain ⟨rfl, rfl⟩ := EStateM.Result.error.inj (herror.symm.trans hrun)
    have hbearings := (hcalled.bearings hx).trans m.bearings_noteLeftover
    have hran := (hhandled.delivered.ran hx.calls).trans
      (m.ran_noteLeftover.trans (hcalled.ran hx.calls))
    have hpath : s.path = "" := by
      have hdone := (hhandled.inStep hx.aloof hstart).path
      rw [List.map_nil, List.drop_nil] at hdone
      exact (congrArg (·.1.path) hbearings).trans hdone
    refine hran.concludes_of_fails hx hfails ((congrArg Prod.snd hbearings).trans hposition) ?_
      (hend.trans herror) ?_ ?_
    · rw [hpath]
      exact .finish hscan hread
    · rintro rfl
      rfl
    · split
      · exact s'.calls_note ..
      · rfl

/-- **The first failure.** When a document that is read with no element open makes a call that fails,
this is its last call. The calls in front of it all got through, and they are those that the document
makes when this call is pardoned. The failure is reported with the rule, the phase, the path of the
element and the position of the tag at which it was called, and nothing of the document is left. -/
theorem first_failure_law (hx : x.Discreet) {b : Binder κ} (hpath : b.path = "")
    (hmatched : b.matched = []) (hcapture : b.capture = none) (text : String) :
    Concludes x b text ((parse x text).after b).calls.reverse (parse x text b) := by
  have hstart := inStep_atStart hpath hmatched hcapture text.toList
  cases hrun : Document.run x text.toList b with
  | ok a m =>
    have hparse := parse_of_run_ok hrun
    obtain ⟨-, fs, hcompletes⟩ := completes_of_parse hparse
    have hresult : ∀ failure b', parse x text b ≠ .error (.error (.rule failure)) b' :=
      fun _ _ hfails => by cases hparse.symm.trans hfails
    rw [Action.after_of_ok hparse]
    cases hcompletes with
    | @intro _ _ m' s _ _ _ hread hfinish =>
      have hran := (hread.delivered.ran hx.calls).trans
        (m'.ran_noteLeftover.trans (hfinish.ran hx.calls))
      refine .unfailing hran ?_ (onlyFails_of_parse hx fun _ _ => hresult _ _) hresult
      rw [← hran.map_call]
      exact congrArg List.reverse (s.calls_note ..)
  | error halt m =>
    obtain ⟨front, offset, token, opened, m', hstops⟩ | ⟨opened, m', hread, hconclude⟩ :=
      Document.run_eq_error hrun
    · exact hstops.concludes hx hstart hrun
    · cases opened with
      | nil => exact concludes_of_endDocument hx hstart hread hrun
      | cons element outer =>
        obtain ⟨⟨fault, rfl⟩, rfl⟩ := Document.liftFault_eq_error hconclude
        obtain ⟨⟨rs, es, fs, -, hhandled⟩, -⟩ := Document.handled_handleAll hread
        exact (hhandled.delivered.ran hx.calls).concludes_of_error hx hrun rfl

/-- A rule that fails at the end of the first of two children. -/
theorem first_failure_law_of_a_child :
    let x : Extension Unit := ⟨fun _ => "fails", fun _ cb => match cb with
      | .close .. => Action.fail (.custom "no")
      | _ => pure ()⟩
    let table : Table (RuleRef Unit) := ({} : Table _).register ['a', '/', 'b'] ⟨0, .custom ()⟩
    let b : Binder Unit := { matcher := .plain table }
    let text := "<a>\n<b/><b/></a>"
    x.Discreet ∧ b.path = "" ∧ b.matched = [] ∧ b.capture = none ∧
      Concludes x b text ((parse x text).after b).calls.reverse (parse x text b) ∧
      (parse x text).error? b =
        some (.rule ⟨"fails", .close, "a/b", some ⟨2, 1⟩, .custom "no"⟩) := by
  intro x table b text
  have hfire : ∀ {γ : Type} (view : Binder Unit → γ) rule cb, (x.fire rule cb).Keeps view := by
    intro γ view rule cb
    cases cb with
    | close => exact Action.keeps_fail _
    | _ => exact Action.keeps_pure _
  have hx : x.Discreet :=
    ⟨hfire _, hfire _, fun h hfresh => (hfire Binder.capture _ _).of_ok h ▸ hfresh⟩
  exact ⟨hx, rfl, rfl, rfl, first_failure_law hx rfl rfl rfl text, by decide +kernel⟩

end XmlBinding
