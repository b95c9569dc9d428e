import XmlBinding.Proofs.Root
import XmlBinding.Proofs.Trace.Offsets

/-!
# What a binder works off

Traces of runs that get through say nothing of those that end early, and a caller may go on with the
binder all the same. This module follows every run as far as it gets: what an event, the end of a
document or a whole text makes of a binder is a stint, made of calls of rules, the last of which may
fail, and of what the binder does between them.
-/
namespace XmlBinding

open Markup (Token)

variable {κ ε ε' α β : Type} {x : Extension κ}

/-! ### Stints -/

/-- What the binder does between two calls. -/
structure Pause (b s : Binder κ) : Prop where
  lull : Lull b s
  calls : s.calls = b.calls

theorem Pause.of_unread {b s : Binder κ} (h : s.unread = b.unread) : Pause b s :=
  ⟨.of_unread h, Binder.calls_of_unread h⟩

/-- A stretch of a binder's work: calls of rules, whatever they end in, with pauses between them.
Documents may start in it and come to an end, where the objects are forgotten and the root is not. -/
inductive Stint (x : Extension κ) : Binder κ → List (Firing κ) → Binder κ → Prop
  | done (b : Binder κ) : Stint x b [] b
  | pause {b m s : Binder κ} {fs : List (Firing κ)} (h : Pause b m) (hrest : Stint x m fs s) :
      Stint x b fs s
  | opens {b s : Binder κ} {fs : List (Firing κ)} (text : List Char)
      (hrest : Stint x (b.atStart text) fs s) : Stint x b fs s
  | forgets {b m s : Binder κ} {fs : List (Firing κ)} (hpile : m.pile = ⟨[], b.root⟩)
      (hcalls : m.calls = b.calls) (hrest : Stint x m fs s) : Stint x b fs s
  | call {ref : RuleRef κ} {cb : Callback} {b m s : Binder κ} {fs : List (Firing κ)}
      (h : (ref.fire x cb).after (b.recordCall x cb ref) = m) (hrest : Stint x m fs s) :
      Stint x b (⟨⟨ref, cb⟩, b.recordCall x cb ref, m⟩ :: fs) s

namespace Stint

variable {b m s : Binder κ} {fs gs : List (Firing κ)}

theorem append (h : Stint x b fs m) (h' : Stint x m gs s) : Stint x b (fs ++ gs) s := by
  induction h with
  | done => exact h'
  | pause hpause _ ih => exact .pause hpause (ih h')
  | opens text _ ih => exact .opens text (ih h')
  | forgets hpile hcalls _ ih => exact .forgets hpile hcalls (ih h')
  | call hcall _ ih => exact .call hcall (ih h')

/-- What stands in front of one of the calls is a stint as well. -/
theorem before {f : Firing κ} (h : Stint x b (fs ++ f :: gs) s) :
    ∃ m, Stint x b fs m ∧ f.before = m.recordCall x f.call.callback f.call.rule := by
  generalize hall : fs ++ f :: gs = all at h
  induction h generalizing fs with
  | done => cases fs <;> cases hall
  | pause hpause _ ih =>
    obtain ⟨m, hm, hbefore⟩ := ih hall
    exact ⟨m, .pause hpause hm, hbefore⟩
  | opens text _ ih =>
    obtain ⟨m, hm, hbefore⟩ := ih hall
    exact ⟨m, .opens text hm, hbefore⟩
  | forgets hpile hcalls _ ih =>
    obtain ⟨m, hm, hbefore⟩ := ih hall
    exact ⟨m, .forgets hpile hcalls hm, hbefore⟩
  | @call _ _ b _ _ _ hcall _ ih =>
    cases fs with
    | nil =>
      cases hall
      exact ⟨b, .done b, rfl⟩
    | cons first rest =>
      obtain ⟨rfl, hrest⟩ := List.cons.inj hall
      obtain ⟨m, hm, hbefore⟩ := ih hrest
      exact ⟨m, .call hcall hm, hbefore⟩

theorem after_eq (h : Stint x b fs s) :
    ∀ f ∈ fs, (f.call.rule.fire x f.call.callback).after f.before = f.after := by
  induction h with
  | done => exact List.forall_mem_nil _
  | pause _ _ ih | opens _ _ ih | forgets _ _ _ ih => exact ih
  | call hcall _ ih => exact List.forall_mem_cons.mpr ⟨hcall, ih⟩

end Stint

/-! ### Actions -/

namespace Action

/-- However the action ends, its run is a stint. -/
def StintAt (x : Extension κ) (act : Action κ ε α) (b : Binder κ) : Prop :=
  ∃ fs, Stint x b fs (act.after b)

def IsStint (x : Extension κ) (act : Action κ ε α) : Prop := ∀ b, act.StintAt x b

variable {act : Action κ ε α} {b m : Binder κ}

theorem stintAt_of_pause (h : Pause b (act.after b)) : act.StintAt x b :=
  ⟨[], .pause h (.done _)⟩

theorem isStint_of_keeps (h : act.Keeps Binder.unread) : act.IsStint x :=
  fun b => stintAt_of_pause (.of_unread (h.keepsAt b))

/-- Behind a pause the run goes on as another one. -/
theorem StintAt.lead {act' : Action κ ε α} (hpause : Pause b m) (hrun : act b = act' m)
    (h : act'.StintAt x m) : act.StintAt x b := by
  obtain ⟨fs, hfs⟩ := h
  rw [← after_congr hrun] at hfs
  exact ⟨fs, .pause hpause hfs⟩

theorem StintAt.bind {f : α → Action κ ε β} (h : act.StintAt x b)
    (hf : ∀ a m, act b = .ok a m → (f a).StintAt x m) : (act >>= f).StintAt x b := by
  obtain ⟨fs, hfs⟩ := h
  unfold StintAt
  cases hr : act b with
  | ok a m =>
    obtain ⟨gs, hgs⟩ := hf a m hr
    rw [after_of_ok hr] at hfs
    rw [after_bind_of_ok hr]
    exact ⟨fs ++ gs, hfs.append hgs⟩
  | error halt m =>
    rw [after_of_error hr] at hfs
    rw [after_bind_of_error hr]
    exact ⟨fs, hfs⟩

theorem IsStint.bind {f : α → Action κ ε β} (h : act.IsStint x) (hf : ∀ a, (f a).IsStint x) :
    (act >>= f).IsStint x := fun b => (h b).bind fun a m _ => hf a m

theorem isStint_modify_bind {g : Binder κ → Binder κ} {f : PUnit → Action κ ε β}
    (hpause : ∀ b, Pause b (g b)) (h : (f ⟨⟩).IsStint x) : (modify g >>= f).IsStint x :=
  fun b => (h (g b)).lead (hpause b) rfl

theorem StintAt.attempt (h : act.StintAt x b) :
    (act.attempt : Action κ ε' (Except ε α)).StintAt x b := by
  obtain ⟨fs, hfs⟩ := h
  rw [← after_attempt] at hfs
  exact ⟨fs, hfs⟩

theorem isStint_forM {f : β → Action κ ε PUnit} (h : ∀ item, (f item).IsStint x)
    (items : List β) : (items.forM f).IsStint x := by
  induction items with
  | nil => exact isStint_of_keeps (keeps_pure _)
  | cons item rest ih => exact (h item).bind fun _ => ih

end Action

/-! ### Events -/

open XmlBinding.Action

theorem isStint_callRule (cb : Callback) (ref : RuleRef κ) : (callRule x cb ref).IsStint x := by
  intro b
  unfold StintAt
  cases hr : callRule x cb ref b with
  | ok a m =>
    have hfire := after_of_ok (callRule_eq_ok.mp hr)
    rw [after_of_ok hr]
    exact ⟨_, .call hfire (.done m)⟩
  | error halt m =>
    rw [after_of_error hr]
    cases fails_of_callRule hr with
    | @error cause s hfire =>
      have hnote : Pause s (s.noteFailure x cb ref cause) :=
        ⟨.quiet (s.pile_note ..) (congrArg Prod.snd (s.course_note ..)).trans, s.calls_note ..⟩
      exact ⟨_, .call (after_of_error hfire) (.pause hnote (.done _))⟩
    | crash hfire => exact ⟨_, .call (after_of_error hfire) (.done m)⟩

theorem isStint_callRules (cb : Callback) (refs : List (RuleRef κ)) :
    (callRules x cb refs).IsStint x := isStint_forM (isStint_callRule cb) refs

theorem isStint_start (tag : StartTag) : (deliver x (.start tag)).IsStint x := by
  intro b
  cases hb : b.capture with
  | some c =>
    refine stintAt_of_pause ?_
    rw [after_of_ok (startElement_captured x tag b c hb)]
    exact ⟨.of_inside hb _, rfl⟩
  | none =>
    cases hfound : b.rulesAt? tag with
    | none =>
      refine stintAt_of_pause ?_
      rw [after_of_error (start_eq_crash tag hb hfound)]
      exact ⟨.quiet (Binder.pile_note ..) (b.capture_enter tag.name).trans, b.calls_enter tag.name⟩
    | some found =>
      exact (isStint_callRules _ found _).lead ⟨.of_opened x b tag found, b.calls_enter tag.name⟩
        (start_eq_callRules tag hb hfound)

theorem isStint_closeRules (tag : EndTag) (found : List (RuleRef κ)) (text : String) :
    (closeRules x tag found text).IsStint x :=
  have hresume (b : Binder κ) : Pause b b.resumeText := ⟨.quiet rfl id, rfl⟩
  (isStint_callRules _ found).bind fun _ => isStint_modify_bind hresume <|
    (isStint_callRules _ found.reverse).bind fun _ => fun b =>
      stintAt_of_pause ⟨.of_leave b, b.calls_leave⟩

theorem isStint_close (tag : EndTag) : (deliver x (.close tag)).IsStint x := by
  intro b
  cases hc : b.capture.bind (·.close?) with
  | some c' =>
    obtain ⟨c, hb, hc'⟩ := Option.bind_eq_some_iff.mp hc
    refine stintAt_of_pause ?_
    rw [after_of_ok (endElement_captured x tag b c c' hb hc')]
    exact ⟨.of_inside hb _, rfl⟩
  | none =>
    cases hm : b.matched with
    | nil =>
      refine stintAt_of_pause ?_
      rw [after_of_error (close_eq_unbalanced tag hc hm)]
      exact ⟨.of_endCapture b, congrArg (·.1.calls) b.course_endCapture⟩
    | cons found outer =>
      exact (isStint_closeRules tag found _ _).lead ⟨.of_closing b outer, b.calls_closing outer⟩
        (close_eq_closeRules tag hc hm)

theorem isStint_text (content : String) : (deliver x (.text content)).IsStint x :=
  fun b => stintAt_of_pause ⟨.of_characters b content, b.calls_characters content⟩

/-- At its end a document is forgotten, but for the root. -/
theorem isStint_endDocument : (endDocument x).IsStint x := by
  have hleftover (b : Binder κ) : Pause b b.noteLeftover :=
    ⟨.of_noteLeftover b, b.calls_noteLeftover⟩
  refine isStint_modify_bind hleftover fun b => ?_
  have hcalls := isStint_callRules (x := x) .finish (distinctRules b.matcher.rules) b
  refine hcalls.attempt.bind fun answer m _ => ?_
  obtain ⟨fs, hfs⟩ := isStint_of_keeps (x := x) (keeps_lift answer) m.closeDocument
  have hpile : m.closeDocument.pile = ⟨[], m.root⟩ :=
    congrArg (Pile.mk []) (congrArg Pile.root (Binder.pile_note ..))
  exact ⟨fs, .forgets hpile (m.calls_note ..) hfs⟩

/-! ### Texts -/

namespace Document

variable {aware : Bool} {here : Position}

theorem isStint_startTag (name : String) (attrs : List (String × String))
    (opened : List OpenElement) : (start x aware here name attrs opened).IsStint x :=
  have hresolve : (resolveTag aware here name attrs : Action κ BindError _).IsStint x :=
    isStint_of_keeps (keeps_resolveTag Binder.unread_bindName name attrs)
  hresolve.bind fun tag =>
    (isStint_start ⟨tag.1.uri, tag.1.localName, tag.1.qualifiedName, tag.2⟩).bind fun _ =>
      isStint_of_keeps (keeps_pure _)

theorem isStint_endTag (opened : List OpenElement) : (close x here opened).IsStint x := by
  cases opened with
  | nil => exact isStint_of_keeps (keeps_liftFault ..)
  | cons element outer =>
    exact (isStint_close element.endTag).bind fun _ =>
      isStint_of_keeps ((keeps_modify fun b => b.unread_unbindAll _).bind fun _ => keeps_pure _)

theorem isStint_handle (opened : List OpenElement) (token : Token) :
    (handle x aware here opened token).IsStint x := by
  have htext (content : String) : (modify (·.characters content) >>= fun _ =>
      pure opened : Action κ BindError (List OpenElement)).IsStint x :=
    (isStint_text content).bind fun _ => isStint_of_keeps (keeps_pure _)
  cases token with
  | start name attrs => exact isStint_startTag name attrs opened
  | empty name attrs => exact (isStint_startTag name attrs opened).bind isStint_endTag
  | close => exact isStint_endTag opened
  | text content => exact htext content
  | reference name =>
    unfold handle
    dsimp only
    cases Markup.textReference? name.toList with
    | some c => exact htext (String.singleton c)
    | none => exact isStint_of_keeps (keeps_liftFault ..)
  | skipped | finish => exact isStint_of_keeps (keeps_pure _)
  | badTag | broken => exact isStint_of_keeps (keeps_liftFault here (.error .illFormed))

theorem isStint_handleAll (tokens : List (Nat × Token)) (cursor : Cursor)
    (opened : List OpenElement) : (handleAll x aware cursor opened tokens).IsStint x := by
  induction tokens generalizing cursor opened with
  | nil => exact isStint_of_keeps (keeps_pure _)
  | cons entry rest ih =>
    obtain ⟨offset, token⟩ := entry
    refine fun b => StintAt.lead (.of_unread (b.unread_reach _ token))
      (handleAll_cons offset token rest) ?_
    exact (isStint_handle opened token).bind (fun opened' => ih _ opened') _

theorem isStint_conclude (text : List Char) (opened : List OpenElement) :
    (conclude x text opened).IsStint x := by
  cases opened with
  | nil => exact isStint_endDocument
  | cons element outer => exact isStint_of_keeps (keeps_liftFault ..)

theorem isStint_run (text : List Char) : (run x text).IsStint x := by
  intro b
  have hread : (handleAll x b.options.namespaceAware { rest := text } [] (Markup.scan text) >>=
      conclude x text).IsStint x := (isStint_handleAll _ _ []).bind (isStint_conclude text)
  obtain ⟨fs, hfs⟩ := hread (b.atStart text)
  rw [← after_congr (run_eq text b)] at hfs
  exact ⟨fs, .opens text hfs⟩

end Document

/-- A text that fails is forgotten like one that gets through. -/
theorem isStint_parse (text : String) : (parse x text).IsStint x := by
  intro b
  refine (Document.isStint_run text.toList b).attempt.bind fun answer m _ => ?_
  cases answer with
  | ok => exact isStint_of_keeps (keeps_get.bind fun _ => keeps_pure _) m
  | error cause =>
    have hpile : m.abandon.pile = ⟨[], m.root⟩ := by
      rw [Binder.abandon_eq]
      rfl
    exact ⟨[], .forgets hpile m.calls_abandon (.done _)⟩

/-! ### Errands -/

/-- What a caller may ask for that has rules called. -/
inductive Errand
  | event (e : DocumentEvent)
  | finish
  | parse (text : String)

/-- The binder behind an errand, whether or not it gets through. -/
def Errand.after (x : Extension κ) : Errand → Binder κ → Binder κ
  | .event e, b => (deliver x e).after b
  | .finish, b => (endDocument x).after b
  | .parse text, b => (XmlBinding.parse x text).after b

theorem Errand.exists_stint (x : Extension κ) (e : Errand) (b : Binder κ) :
    ∃ fs, Stint x b fs (e.after x b) := by
  cases e with
  | event e =>
    cases e with
    | start tag => exact isStint_start tag b
    | text content => exact isStint_text content b
    | close tag => exact isStint_close tag b
  | finish => exact isStint_endDocument b
  | parse text => exact isStint_parse text b

end XmlBinding
