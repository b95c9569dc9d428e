import XmlBinding.Proofs.Finish
import XmlBinding.Proofs.Trace.Offsets

/-!
# Runs in which a call is pardoned

The same document can be read with rules that are called in another way. When one call counts as a
success whatever it answers, and what it did stays done, the reading goes on where it would have
stopped. Up to there the two readings make the same calls, since neither has seen anything that the
other has not. And when a call that fails does anything else instead, a document in which it does not
fail is read as before.
-/
namespace XmlBinding

open Markup (Token)

variable {κ ε α β : Type} {x : Extension κ}

/-! ### Reading a document with any way of calling rules -/

/-- A way of calling a rule. -/
abbrev Caller (κ : Type) := Callback → RuleRef κ → Action κ BindError Unit

namespace Caller

def callRules (call : Caller κ) (cb : Callback) (refs : List (RuleRef κ)) :
    Action κ BindError Unit :=
  refs.forM (call cb)

def openElement (call : Caller κ) (x : Extension κ) (uri name : String) (attrs : Attributes) :
    Action κ BindError Unit := do
  modify (·.enter name)
  let b ← get
  match b.matcher.rulesFor? uri b.path.toList name attrs with
  | none => Action.crash
  | some found =>
    let b := b.noteRules x found
    set b
    call.callRules (.start uri name (b.expandAttributes attrs)) found

def startElement (call : Caller κ) (x : Extension κ) (uri localName qualifiedName : String)
    (attrs : Attributes) : Action κ BindError Unit := do
  let b ← get
  let name := elementName localName qualifiedName
  match b.capture with
  | some c => set { b with capture := some (c.start uri name attrs) }
  | none => call.openElement x uri name attrs

def closeElement (call : Caller κ) (uri name : String) : Action κ BindError Unit := do
  let b ← get
  match b.matched with
  | [] => Action.fail (.unbalanced name)
  | found :: outer =>
    let b := b.unmatch outer
    set { b with text := "" }
    call.callRules (.body uri name (b.expandText b.text)) found
    modify (·.resumeText)
    call.callRules (.close uri name) found.reverse
    modify (·.leave)

def endElement (call : Caller κ) (uri localName qualifiedName : String) :
    Action κ BindError Unit := do
  let b ← get
  match b.capture.bind (·.close?) with
  | some c => set { b with capture := some c }
  | none =>
    set b.endCapture
    call.closeElement uri (elementName localName qualifiedName)

def endDocument (call : Caller κ) : Action κ BindError Unit := do
  modify Binder.noteLeftover
  let result ← (call.callRules .finish (distinctRules (← get).matcher.rules)).attempt
  modify fun b => (b.note .debug .dispatch "end document").clear
  Action.lift result

def start (call : Caller κ) (x : Extension κ) (aware : Bool) (here : Position) (name : String)
    (attrs : List (String × String)) (opened : List OpenElement) :
    Action κ BindError (List OpenElement) := do
  let (element, attributes) ← Document.resolveTag aware here name attrs
  call.startElement x element.uri element.localName element.qualifiedName attributes
  return element :: opened

def close (call : Caller κ) (here : Position) (opened : List OpenElement) :
    Action κ BindError (List OpenElement) := do
  match opened with
  | [] => Document.liftFault here (.error .strayEndTag)
  | element :: outer =>
    call.endElement element.uri element.localName element.qualifiedName
    modify fun b => element.declared.reverse.foldl Binder.unbindName b
    return outer

def handle (call : Caller κ) (x : Extension κ) (aware : Bool) (here : Position)
    (opened : List OpenElement) (token : Token) : Action κ BindError (List OpenElement) := do
  match token with
  | .start name attrs => call.start x aware here name attrs opened
  | .empty name attrs => call.close here (← call.start x aware here name attrs opened)
  | .close => call.close here opened
  | token => Document.handle x aware here opened token

def handleAll (call : Caller κ) (x : Extension κ) (aware : Bool) (cursor : Cursor)
    (opened : List OpenElement) : List (Nat × Token) → Action κ BindError (List OpenElement)
  | [] => return opened
  | (offset, token) :: rest => do
    let cursor := cursor.seek offset
    let here := cursor.positionOf offset
    modify (·.reach here token)
    call.handleAll x aware cursor (← call.handle x aware here opened token) rest

def conclude (call : Caller κ) (text : List Char) : List OpenElement → Action κ BindError Unit
  | [] => call.endDocument
  | element :: _ =>
    Document.liftFault (Position.ofOffset text (Text.byteLength text))
      (.error (.unclosedElement element.qualifiedName))

def run (call : Caller κ) (x : Extension κ) (text : List Char) : Action κ BindError Unit := do
  let aware := (← get).options.namespaceAware
  modify (·.atStart text)
  call.conclude text (← call.handleAll x aware { rest := text } [] (Markup.scan text))

/-- Read a document and answer the root. -/
def parse (call : Caller κ) (x : Extension κ) (text : String) :
    Action κ BindError (Option Value) := do
  match ← (call.run x text.toList).attempt with
  | .ok () => return (← get).root
  | .error cause =>
    modify (·.abandon)
    Action.fail cause

theorem handle_callRule (aware : Bool) (here : Position) (opened : List OpenElement)
    (token : Token) :
    handle (callRule x) x aware here opened token = Document.handle x aware here opened token := by
  cases token <;> rfl

theorem handleAll_callRule (aware : Bool) (cursor : Cursor) (opened : List OpenElement)
    (tokens : List (Nat × Token)) :
    handleAll (callRule x) x aware cursor opened tokens =
      Document.handleAll x aware cursor opened tokens := by
  induction tokens generalizing cursor opened with
  | nil => rfl
  | cons entry rest ih =>
    obtain ⟨offset, token⟩ := entry
    funext b
    rw [Document.handleAll_cons, handleAll, Action.modify_bind_run, handle_callRule]
    refine congrFun (congrArg _ (funext fun opened' => ?_)) _
    exact ih ..

theorem run_callRule (text : List Char) : run (callRule x) x text = Document.run x text := by
  funext b
  rw [Document.run_eq, run, Action.get_bind_run, Action.modify_bind_run, handleAll_callRule]
  refine congrFun (congrArg _ (funext fun opened => ?_)) _
  cases opened <;> rfl

/-- A document that is read with rules called as always is read as always. -/
theorem parse_callRule (text : String) :
    parse (callRule x) x text = XmlBinding.parse x text := by
  unfold parse
  rw [run_callRule]
  rfl

end Caller

/-- A call whose error is overlooked. -/
def overlook (x : Extension κ) : Caller κ := fun cb ref => do
  modify (Binder.recordCall x cb ref)
  discard ((ref.fire x cb).attempt)

/-- Rules are called as always, but the error of the call with one number is overlooked. -/
def pardon (x : Extension κ) (number : Nat) : Caller κ := fun cb ref b =>
  if b.calls.length + 1 = number then overlook x cb ref b else callRule x cb ref b

/-- A call that fails. -/
def FailsIn (x : Extension κ) (cb : Callback) (ref : RuleRef κ) (b : Binder κ) : Prop :=
  ∃ cause s, ref.fire x cb (b.recordCall x cb ref) = .error (.error cause) s

/-- Rules are called as always, but where the call with one of these numbers fails, anything may be
done. -/
def Caller.Spoils (x : Extension κ) (numbers : Nat → Prop) (call : Caller κ) : Prop :=
  ∀ cb ref b, call cb ref b = callRule x cb ref b ∨
    numbers (b.calls.length + 1) ∧ FailsIn x cb ref b

/-! ### Two runs -/

/-- What two runs are compared by: how the calls of the second go on behind those of the first, and
with which calls the first may stop at a failure. -/
structure Comparison (κ : Type) where
  grows : List (Call κ) → List (Call κ) → Prop
  stops : List (Call κ) → Prop
  refl : ∀ calls, grows calls calls
  trans : ∀ {front mid back}, grows front mid → grows mid back → grows front back

/-- The calls of the first run are the first calls of the second. -/
def Comparison.suffix : Comparison κ :=
  ⟨(· <:+ ·), fun _ => True, List.suffix_refl, List.IsSuffix.trans⟩

/-- The first run stops with a call of one of these numbers. -/
def Comparison.numbered (numbers : Nat → Prop) : Comparison κ :=
  ⟨fun _ _ => True, fun calls => numbers calls.length, fun _ => trivial, fun _ _ => trivial⟩

namespace Action

/-- From `b` on, the second action does what the first one does, unless that one stops at a rule that
fails. -/
structure SparesAt (t : Comparison κ) (act act' : Action κ BindError α) (b : Binder κ) : Prop where
  grows : t.grows b.calls (act'.after b).calls
  together : act' b = act b ∨ ∃ failure b', act b = .error (.error (.rule failure)) b' ∧
    t.stops b'.calls ∧ t.grows b'.calls (act'.after b).calls

def Spares (t : Comparison κ) (act act' : Action κ BindError α) : Prop := ∀ b, act.SparesAt t act' b

variable {t : Comparison κ} {act act' : Action κ BindError α} {b : Binder κ}

theorem SparesAt.after_grows (h : act.SparesAt t act' b) :
    t.grows (act.after b).calls (act'.after b).calls := by
  obtain hsame | ⟨failure, b', hfails, -, hcalls⟩ := h.together
  · exact after_congr hsame ▸ t.refl _
  · rw [after_of_error hfails]
    exact hcalls

theorem spares_of_keeps (h : act.Keeps Binder.calls) : act.Spares t act := fun b =>
  have hsame : (act.after b).calls = b.calls := h.keepsAt b
  ⟨hsame ▸ t.refl _, .inl rfl⟩

theorem SparesAt.bind {f f' : α → Action κ BindError β} (h : act.SparesAt t act' b)
    (hf : ∀ a b', act b = .ok a b' → (f a).SparesAt t (f' a) b')
    (hgrows : ∀ a b', t.grows b'.calls ((f' a).after b').calls) :
    (act >>= f).SparesAt t (act' >>= f') b := by
  have hlater : t.grows (act'.after b).calls ((act' >>= f').after b).calls := by
    cases hr : act' b with
    | ok a m =>
      rw [after_of_ok hr, after_bind_of_ok hr]
      exact hgrows a m
    | error halt m =>
      rw [after_of_error hr, after_bind_of_error hr]
      exact t.refl _
  refine ⟨t.trans h.grows hlater, ?_⟩
  obtain hsame | ⟨failure, b', hfails, hstops, hcalls⟩ := h.together
  · cases hr : act b with
    | ok a m =>
      have hr' : act' b = .ok a m := hsame.trans hr
      rw [bind_run_of_ok hr, bind_run_of_ok hr', after_bind_of_ok hr']
      exact (hf a m hr).together
    | error halt m =>
      rw [bind_run_of_error hr, bind_run_of_error (hsame.trans hr)]
      exact .inl rfl
  · exact .inr ⟨failure, b', bind_run_of_error hfails f, hstops, t.trans hcalls hlater⟩

theorem Spares.bind {f f' : α → Action κ BindError β} (h : act.Spares t act')
    (hf : ∀ a, (f a).Spares t (f' a)) : (act >>= f).Spares t (act' >>= f') := fun b =>
  (h b).bind (fun a b' _ => hf a b') fun a b' => (hf a b').grows

/-- A step that only looks at the binder. -/
theorem spares_get_bind {f f' : Binder κ → Action κ BindError β}
    (h : ∀ b, (f b).SparesAt t (f' b) b) : (get >>= f).Spares t (get >>= f') := fun b =>
  ⟨(h b).grows, (h b).together⟩

/-- A step that leaves the calls alone. -/
theorem sparesAt_set_bind {s : Binder κ} {f f' : PUnit → Action κ BindError β}
    (h : s.calls = b.calls) (hf : (f ⟨⟩).SparesAt t (f' ⟨⟩) s) :
    (set s >>= f).SparesAt t (set s >>= f') b := by
  refine ⟨?_, hf.together⟩
  rw [← h]
  exact hf.grows

theorem spares_modify_bind {g : Binder κ → Binder κ} {f f' : PUnit → Action κ BindError β}
    (hg : ∀ b, (g b).calls = b.calls) (hf : (f ⟨⟩).Spares t (f' ⟨⟩)) :
    (modify g >>= f).Spares t (modify g >>= f') := fun b =>
  have hset := sparesAt_set_bind (hg b) (hf (g b))
  ⟨hset.grows, hset.together⟩

/-- What is done behind an action, however it ends, changes no calls. -/
theorem calls_behind {g : Binder κ → Binder κ} (hg : ∀ b, (g b).calls = b.calls) :
    ((act.attempt >>= fun r => modify g >>= fun _ => lift r : Action κ BindError α).after b).calls =
      (act.after b).calls := by
  cases hr : act b with
  | ok a m =>
    rw [after_of_ok hr, after_bind_of_ok (attempt_of_ok hr)]
    exact hg m
  | error halt m =>
    rw [after_of_error hr]
    cases halt with
    | error cause =>
      rw [after_bind_of_ok (attempt_of_error hr)]
      exact hg m
    | crash => rw [after_bind_of_error (attempt_of_crash hr)]

theorem Spares.behind {g : Binder κ → Binder κ} (hg : ∀ b, (g b).calls = b.calls)
    (h : act.Spares t act') :
    (act.attempt >>= fun r => modify g >>= fun _ => lift r : Action κ BindError α).Spares t
      (act'.attempt >>= fun r => modify g >>= fun _ => lift r) := by
  intro b
  refine ⟨?_, ?_⟩
  · rw [calls_behind hg]
    exact (h b).grows
  · obtain hsame | ⟨failure, b', hfails, hstops, hcalls⟩ := (h b).together
    · have hattempt : (act'.attempt : Action κ BindError (Except BindError α)) b = act.attempt b := by
        unfold attempt
        rw [hsame]
      exact .inl (bind_run_congr hattempt _)
    · refine .inr ⟨failure, g b', bind_run_of_ok (attempt_of_error hfails) _, ?_, ?_⟩
      · rwa [hg]
      · rwa [calls_behind hg, hg]

theorem spares_forM {f f' : β → Action κ BindError PUnit}
    (h : ∀ item, (f item).Spares t (f' item)) (items : List β) :
    (items.forM f).Spares t (items.forM f') := by
  induction items with
  | nil => exact spares_of_keeps (keeps_pure _)
  | cons item rest ih => exact (h item).bind fun _ => ih

end Action

/-- One way of calling rules does what the other does, unless that one stops at a rule that fails. -/
def Caller.Spares (t : Comparison κ) (call call' : Caller κ) : Prop :=
  ∀ cb ref, (call cb ref).Spares t (call' cb ref)

/-! #### Calls -/

theorem calls_overlook (hx : x.KeepsCalls) (cb : Callback) (ref : RuleRef κ) (b : Binder κ) :
    ((overlook x cb ref).after b).calls = ⟨ref, cb⟩ :: b.calls :=
  ((RuleRef.calls_fire hx ref cb).attempt.discard.keepsAt (b.recordCall x cb ref)).trans
    (b.calls_recordCall x cb ref)

/-- A call is on record however it ends. -/
theorem calls_callRule (hx : x.KeepsCalls) (cb : Callback) (ref : RuleRef κ) (b : Binder κ) :
    ((callRule x cb ref).after b).calls = ⟨ref, cb⟩ :: b.calls := by
  cases hr : callRule x cb ref b with
  | ok a m =>
    rw [Action.after_of_ok hr, (RuleRef.calls_fire hx ref cb).of_ok (callRule_eq_ok.mp hr)]
    exact b.calls_recordCall x cb ref
  | error halt m =>
    rw [Action.after_of_error hr]
    exact (fails_of_callRule hr).recorded hx

theorem calls_pardon_call (hx : x.KeepsCalls) (number : Nat) (cb : Callback) (ref : RuleRef κ)
    (b : Binder κ) : ((pardon x number cb ref).after b).calls = ⟨ref, cb⟩ :: b.calls := by
  by_cases hnumber : b.calls.length + 1 = number
  · have hrun : pardon x number cb ref b = overlook x cb ref b := if_pos hnumber
    rw [Action.after_congr hrun]
    exact calls_overlook hx cb ref b
  · have hrun : pardon x number cb ref b = callRule x cb ref b := if_neg hnumber
    rw [Action.after_congr hrun]
    exact calls_callRule hx cb ref b

/-- A call that gets through or has no answer is the same if its error is overlooked. -/
theorem overlook_eq_or (cb : Callback) (ref : RuleRef κ) (b : Binder κ) :
    overlook x cb ref b = callRule x cb ref b ∨ FailsIn x cb ref b := by
  have hoverlook : overlook x cb ref b = ((fun _ => ()) <$> (ref.fire x cb).attempt)
      (b.recordCall x cb ref) := rfl
  cases hfire : ref.fire x cb (b.recordCall x cb ref) with
  | ok a m =>
    refine .inl ?_
    rw [hoverlook, callRule_eq_ok.mpr hfire]
    simp only [Functor.map, EStateM.map, Action.attempt_of_ok hfire]
  | error halt m =>
    cases halt with
    | error cause => exact .inr ⟨cause, m, hfire⟩
    | crash =>
      refine .inl ?_
      rw [hoverlook, callRule, Action.modify_bind_run,
        Action.bind_run_of_error (Action.attempt_of_crash hfire)]
      simp only [Functor.map, EStateM.map, Action.attempt_of_crash hfire]

theorem callRule_of_failsIn {cb : Callback} {ref : RuleRef κ} {b : Binder κ}
    (h : FailsIn x cb ref b) : ∃ failure b', callRule x cb ref b = .error (.error (.rule failure)) b'
    := by
  obtain ⟨cause, s, hfire⟩ := h
  refine ⟨⟨ref.name x, cb.phase, s.path, s.position, cause⟩, s.noteFailure x cb ref cause, ?_⟩
  rw [callRule, Action.modify_bind_run, Action.bind_run_of_ok (Action.attempt_of_error hfire)]
  rfl

/-- Up to the call that is pardoned the two runs are one, and that call is on record in both. -/
theorem spares_pardon (hx : x.KeepsCalls) (number : Nat) :
    Caller.Spares .suffix (callRule x) (pardon x number) := by
  intro cb ref b
  have hafter := calls_pardon_call hx number cb ref b
  refine ⟨hafter ▸ List.suffix_cons _ _, ?_⟩
  have hpardon : pardon x number cb ref b = callRule x cb ref b ∨ FailsIn x cb ref b := by
    unfold pardon
    split
    · exact overlook_eq_or cb ref b
    · exact .inl rfl
  refine hpardon.imp id fun hfails => ?_
  obtain ⟨failure, b', hrun⟩ := callRule_of_failsIn hfails
  have hcalls := calls_callRule hx cb ref b
  rw [Action.after_of_error hrun] at hcalls
  exact ⟨failure, b', hrun, trivial, hafter.trans hcalls.symm ▸ List.suffix_refl _⟩

/-- Where a call that fails is spoilt, the run stops with a call of its number. -/
theorem spares_spoils (hx : x.KeepsCalls) {numbers : Nat → Prop} {call : Caller κ}
    (h : call.Spoils x numbers) : Caller.Spares (.numbered numbers) (callRule x) call := by
  refine fun cb ref b => ⟨trivial, (h cb ref b).imp id ?_⟩
  rintro ⟨hnumber, hfails⟩
  obtain ⟨failure, b', hrun⟩ := callRule_of_failsIn hfails
  have hcalls := calls_callRule hx cb ref b
  rw [Action.after_of_error hrun] at hcalls
  refine ⟨failure, b', hrun, ?_, trivial⟩
  change numbers b'.calls.length
  rwa [hcalls]

/-! #### Documents -/

namespace Caller.Spares

open XmlBinding.Action

variable {t : Comparison κ} {call call' : Caller κ} (h : call.Spares t call')

include h

theorem callRules (cb : Callback) (refs : List (RuleRef κ)) :
    (call.callRules cb refs).Spares t (call'.callRules cb refs) := spares_forM (h cb) refs

theorem openElement (uri name : String) (attrs : Attributes) :
    (call.openElement x uri name attrs).Spares t (call'.openElement x uri name attrs) := by
  refine spares_modify_bind (Binder.calls_enter · name) (spares_get_bind fun b => ?_)
  split
  · exact spares_of_keeps keeps_crash b
  · next found _ => exact sparesAt_set_bind rfl (h.callRules _ found _)

theorem startElement (uri localName qualifiedName : String) (attrs : Attributes) :
    (call.startElement x uri localName qualifiedName attrs).Spares t
      (call'.startElement x uri localName qualifiedName attrs) := by
  refine spares_get_bind fun b => ?_
  split
  · exact ⟨t.refl _, .inl rfl⟩
  · exact h.openElement uri _ attrs b

theorem closeElement (uri name : String) :
    (call.closeElement uri name).Spares t (call'.closeElement uri name) := by
  refine spares_get_bind fun b => ?_
  split
  · exact spares_of_keeps (keeps_fail _) b
  · next found outer _ =>
    have hrest : ∀ cb, (call.callRules cb found >>= fun _ => modify (·.resumeText) >>= fun _ =>
        call.callRules (.close uri name) found.reverse >>= fun _ => modify (·.leave)).Spares t
        (call'.callRules cb found >>= fun _ => modify (·.resumeText) >>= fun _ =>
          call'.callRules (.close uri name) found.reverse >>= fun _ => modify (·.leave)) :=
      fun cb => (h.callRules cb found).bind fun _ => spares_modify_bind (fun _ => rfl) <|
        (h.callRules _ found.reverse).bind fun _ =>
          spares_of_keeps (keeps_modify Binder.calls_leave)
    exact sparesAt_set_bind (congrArg (·.1.calls) (b.course_unmatch outer)) (hrest _ _)

theorem endElement (uri localName qualifiedName : String) :
    (call.endElement uri localName qualifiedName).Spares t
      (call'.endElement uri localName qualifiedName) := by
  refine spares_get_bind fun b => ?_
  split
  · exact ⟨t.refl _, .inl rfl⟩
  · exact sparesAt_set_bind (congrArg (·.1.calls) b.course_endCapture) (h.closeElement uri _ _)

theorem endDocument : call.endDocument.Spares t call'.endDocument := by
  refine spares_modify_bind Binder.calls_noteLeftover (spares_get_bind fun b => ?_)
  exact (h.callRules .finish _).behind (g := Binder.closeDocument) (fun b => b.calls_note ..) b

theorem start (aware : Bool) (here : Position) (name : String) (attrs : List (String × String))
    (opened : List OpenElement) : (call.start x aware here name attrs opened).Spares t
      (call'.start x aware here name attrs opened) :=
  have hresolve : (Document.resolveTag aware here name attrs).Keeps (Binder.calls (κ := κ)) :=
    Document.keeps_resolveTag (fun b _ _ => Binder.calls_of_unread (b.unread_bindName ..)) name attrs
  (spares_of_keeps hresolve).bind fun tag =>
    (h.startElement tag.1.uri tag.1.localName tag.1.qualifiedName tag.2).bind fun _ =>
      spares_of_keeps (keeps_pure _)

theorem close (here : Position) (opened : List OpenElement) :
    (call.close here opened).Spares t (call'.close here opened) := by
  cases opened with
  | nil => exact spares_of_keeps (Document.keeps_liftFault ..)
  | cons element outer =>
    exact (h.endElement element.uri element.localName element.qualifiedName).bind fun _ =>
      spares_modify_bind (fun b => Binder.calls_of_unread (b.unread_unbindAll _))
        (spares_of_keeps (keeps_pure outer))

theorem handle (aware : Bool) (here : Position) (opened : List OpenElement) (token : Token) :
    (call.handle x aware here opened token).Spares t (call'.handle x aware here opened token) := by
  cases token with
  | start name attrs => exact h.start aware here name attrs opened
  | empty name attrs =>
    exact (h.start aware here name attrs opened).bind fun opened' => h.close here opened'
  | close => exact h.close here opened
  | text content =>
    exact spares_of_keeps ((keeps_modify (Binder.calls_characters · content)).bind fun _ =>
      keeps_pure opened)
  | reference name =>
    refine spares_of_keeps ?_
    unfold Caller.handle Document.handle
    dsimp only
    cases Markup.textReference? name.toList with
    | some c =>
      exact (keeps_modify (Binder.calls_characters · (String.singleton c))).bind fun _ =>
        keeps_pure opened
    | none => exact keeps_lift _
  | skipped | finish => exact spares_of_keeps (keeps_pure opened)
  | badTag | broken => exact spares_of_keeps (Document.keeps_liftFault here (.error .illFormed))

theorem handleAll (aware : Bool) (tokens : List (Nat × Token)) (cursor : Cursor)
    (opened : List OpenElement) : (call.handleAll x aware cursor opened tokens).Spares t
      (call'.handleAll x aware cursor opened tokens) := by
  induction tokens generalizing cursor opened with
  | nil => exact spares_of_keeps (keeps_pure opened)
  | cons entry rest ih =>
    obtain ⟨offset, token⟩ := entry
    refine spares_modify_bind (fun b => Binder.calls_of_unread (b.unread_reach ..)) ?_
    exact (h.handle aware _ opened token).bind fun opened' => ih _ opened'

theorem conclude (text : List Char) (opened : List OpenElement) :
    (call.conclude text opened).Spares t (call'.conclude text opened) := by
  cases opened with
  | nil => exact h.endDocument
  | cons element outer => exact spares_of_keeps (Document.keeps_liftFault ..)

end Caller.Spares

theorem Caller.calls_parse (call : Caller κ) (text : String) (b : Binder κ) :
    ((call.parse x text).after b).calls = ((call.run x text.toList).after b).calls := by
  unfold parse
  cases hr : call.run x text.toList b with
  | ok a m =>
    rw [Action.after_of_ok hr, Action.after_bind_of_ok (Action.attempt_of_ok hr)]
    rfl
  | error halt m =>
    rw [Action.after_of_error hr]
    cases halt with
    | error cause =>
      rw [Action.after_bind_of_ok (Action.attempt_of_error hr)]
      exact m.calls_abandon
    | crash => rw [Action.after_bind_of_error (Action.attempt_of_crash hr)]

/-- Two ways of reading a document, from its beginning on. -/
theorem Caller.Spares.read {t : Comparison κ} {call call' : Caller κ} (h : call.Spares t call')
    (text : List Char) (b : Binder κ) :
    (call.handleAll x b.options.namespaceAware { rest := text } [] (Markup.scan text) >>=
      call.conclude text).SparesAt t
        (call'.handleAll x b.options.namespaceAware { rest := text } [] (Markup.scan text) >>=
          call'.conclude text) (b.atStart text) :=
  ((h.handleAll b.options.namespaceAware (Markup.scan text) { rest := text } []).bind fun opened =>
    h.conclude text opened) (b.atStart text)

/-- The document that is read with a call pardoned makes the calls of the document that is read as
always, and before any others. -/
theorem calls_pardon (hx : x.KeepsCalls) (number : Nat) (text : String) (b : Binder κ) :
    ((parse x text).after b).calls <:+ (((pardon x number).parse x text).after b).calls := by
  rw [← Caller.parse_callRule, (Caller.calls_parse ..), Caller.calls_parse]
  exact ((spares_pardon hx number).read text.toList b).after_grows

/-- A document in which no call with one of these numbers fails is the same, whatever would be done
where one of them fails. -/
theorem parse_eq_of_spoils (hx : x.KeepsCalls) {numbers : Nat → Prop} {call : Caller κ}
    (hcall : call.Spoils x numbers) {text : String} {b : Binder κ}
    (h : ∀ failure b', parse x text b = .error (.error (.rule failure)) b' →
      ¬ numbers b'.calls.length) : call.parse x text b = parse x text b := by
  have hrun : call.run x text.toList b = Caller.run (callRule x) x text.toList b := by
    obtain hsame | ⟨failure, m, hfails, hstops, -⟩ :=
      ((spares_spoils hx hcall).read text.toList b).together
    · exact hsame
    · have hfailed : Document.run x text.toList b = .error (.error (.rule failure)) m := by
        rw [← Caller.run_callRule]
        exact hfails
      refine absurd ?_ (h failure _ (parse_of_run_error hfailed))
      rw [m.calls_abandon]
      exact hstops
  have hattempt : ((call.run x text.toList).attempt : Action κ BindError _) b =
      (Caller.run (callRule x) x text.toList).attempt b := by
    unfold Action.attempt
    rw [hrun]
  rw [← Caller.parse_callRule]
  exact Action.bind_run_congr hattempt _

end XmlBinding
