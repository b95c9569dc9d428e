import XmlBinding.Proofs.Trace.Reader

/-!
# Where tokens stand

The tokens of a text stand one behind the other, and the reader walks through the text once. So the
position of an event depends on the offset of its token only, and a text can be read up to any token
and from there on.
-/
namespace XmlBinding

open Markup (Token)

variable {κ : Type} {x : Extension κ}

/-! ### Offsets -/

namespace Markup

/-- Behind the tokens that were found before, the scanner finds tokens from its offset on, none of
them in front of an earlier one. -/
theorem scanFrom_ascends (done : List (Nat × Token)) (fuel offset : Nat)
    (opened : List (List Char)) (cs : List Char) :
    ∃ tokens, scanFrom done fuel offset opened cs = done.reverse ++ tokens ∧
      (offset :: tokens.map (·.1)).Pairwise (· ≤ ·) := by
  have hlast : ∀ (done : List (Nat × Token)) (offset : Nat) (token : Token),
      ∃ tokens, ((offset, token) :: done).reverse = done.reverse ++ tokens ∧
        (offset :: tokens.map (·.1)).Pairwise (· ≤ ·) := fun done offset token =>
    ⟨[(offset, token)], List.reverse_cons, by simp⟩
  fun_induction scanFrom done fuel offset opened cs with
  | case1 | case2 | case4 => exact hlast ..
  | case3 done offset opened fuel c rest s _ ih =>
    obtain ⟨tokens, hscan, hascends⟩ := ih
    refine ⟨(offset, s.token) :: tokens, ?_, ?_⟩
    · rw [hscan, List.reverse_cons, List.append_assoc, List.singleton_append]
    · obtain ⟨hlater, htokens⟩ := List.pairwise_cons.mp hascends
      refine List.pairwise_cons.mpr ⟨fun later hmem => ?_, List.pairwise_cons.mpr ⟨?_, htokens⟩⟩
      · obtain rfl | hmem := List.mem_cons.mp hmem
        · exact Nat.le_refl _
        · exact Nat.le_trans (Nat.le_add_right offset s.size) (hlater later hmem)
      · exact fun later hmem =>
          Nat.le_trans (Nat.le_add_right offset s.size) (hlater later hmem)

/-- No token of a text stands in front of an earlier one. -/
theorem scan_ascends (cs : List Char) : ((scan cs).map (·.1)).Pairwise (· ≤ ·) := by
  unfold scan
  obtain ⟨tokens, hscan, hascends⟩ := scanFrom_ascends [] _ 0 [] _
  rw [hscan]
  exact (List.pairwise_cons.mp hascends).2

/-- The tokens stop at the end of the text, or where it is not well formed. -/
theorem scanFrom_last (done : List (Nat × Token)) (fuel offset : Nat) (opened : List (List Char))
    (cs : List Char) : ∃ front last, scanFrom done fuel offset opened cs = front ++ [last] ∧
      (last.2 = .finish ∨ last.2 = .broken) := by
  fun_induction scanFrom done fuel offset opened cs with
  | case1 => exact ⟨_, _, List.reverse_cons, .inl rfl⟩
  | case2 | case4 => exact ⟨_, _, List.reverse_cons, .inr rfl⟩
  | case3 _ _ _ _ _ _ _ _ ih => exact ih

theorem scan_last (cs : List Char) :
    ∃ front last, scan cs = front ++ [last] ∧ (last.2 = .finish ∨ last.2 = .broken) :=
  scanFrom_last [] _ 0 [] _

end Markup

/-- The reader's place behind some tokens. -/
def Cursor.past (cursor : Cursor) (tokens : List (Nat × Token)) : Cursor :=
  tokens.foldl (fun c entry => c.seek entry.1) cursor

/-- To look at tokens on the way to a later one changes nothing. -/
theorem Cursor.seek_past {offset : Nat} {tokens : List (Nat × Token)}
    (h : (tokens.map (·.1) ++ [offset]).Pairwise (· ≤ ·)) (cursor : Cursor) :
    (cursor.past tokens).seek offset = cursor.seek offset := by
  induction tokens generalizing cursor with
  | nil => rfl
  | cons entry rest ih =>
    obtain ⟨hlater, hrest⟩ := List.pairwise_cons.mp h
    exact (ih hrest _).trans (cursor.seek_seek (hlater offset (by simp)))

theorem Cursor.seek_of_scan {text : List Char} {front back : List (Nat × Token)} {offset : Nat}
    {token : Token} (h : Markup.scan text = front ++ (offset, token) :: back) :
    (Cursor.past { rest := text } front).seek offset = Cursor.seek { rest := text } offset := by
  have hascends := Markup.scan_ascends text
  rw [h, List.map_append, List.map_cons, List.append_cons] at hascends
  exact Cursor.seek_past (List.pairwise_append.mp hascends).1 { rest := text }

/-! ### Reading from a token on -/

namespace Document

variable {aware : Bool} {cursor : Cursor} {opened : List OpenElement} {b : Binder κ}

/-- Tokens are read one part after the other. -/
theorem handleAll_append (front back : List (Nat × Token)) :
    handleAll x aware cursor opened (front ++ back) b =
      (handleAll x aware cursor opened front >>= fun opened' =>
        handleAll x aware (cursor.past front) opened' back) b := by
  induction front generalizing cursor opened b with
  | nil => rfl
  | cons entry rest ih =>
    obtain ⟨offset, token⟩ := entry
    rw [List.cons_append, handleAll_cons, Action.bind_run_congr (handleAll_cons ..), bind_assoc]
    refine congrFun (congrArg _ (funext fun opened' => funext fun s => ?_)) _
    exact ih

/-- What follows the last token. -/
def conclude (x : Extension κ) (text : List Char) : List OpenElement → Action κ BindError Unit
  | [] => endDocument x
  | element :: _ =>
    liftFault (Position.ofOffset text (Text.byteLength text))
      (.error (.unclosedElement element.qualifiedName))

theorem run_eq (text : List Char) (b : Binder κ) :
    run x text b = (handleAll x b.options.namespaceAware { rest := text } [] (Markup.scan text) >>=
      conclude x text) (b.atStart text) := by
  unfold run
  rw [Action.get_bind_run, Action.modify_bind_run]
  refine congrFun (congrArg _ (funext fun opened => ?_)) _
  cases opened <;> rfl

/-- Behind tokens that got through, the run goes on with the next one, at its position. -/
theorem run_from_token {text : List Char} {front back : List (Nat × Token)} {offset : Nat}
    {token : Token} {m : Binder κ} (hscan : Markup.scan text = front ++ (offset, token) :: back)
    (hfront : handleAll x b.options.namespaceAware { rest := text } [] front (b.atStart text) =
      .ok opened m) :
    run x text b = (handle x b.options.namespaceAware (Position.ofOffset text offset) opened token
      >>= fun opened' => handleAll x b.options.namespaceAware (Cursor.seek { rest := text } offset)
        opened' back >>= conclude x text) (m.reach (Position.ofOffset text offset) token) := by
  have hread : handleAll x b.options.namespaceAware { rest := text } []
      (front ++ (offset, token) :: back) (b.atStart text) = _ := handleAll_append ..
  rw [Action.bind_run_of_ok hfront, handleAll_cons, Cursor.seek_of_scan hscan] at hread
  rw [run_eq, hscan, Action.bind_run_congr hread, bind_assoc]
  rfl

/-! ### The token that does not get through -/

/-- Tokens that do not get through stop at the first of them that does not. -/
theorem handleAll_eq_error {tokens : List (Nat × Token)} {halt : Halt BindError} {b' : Binder κ}
    (h : handleAll x aware cursor opened tokens b = .error halt b') :
    ∃ front offset token back mid m, tokens = front ++ (offset, token) :: back ∧
      handleAll x aware cursor opened front b = .ok mid m ∧
      let here := ((cursor.past front).seek offset).positionOf offset
      handle x aware here mid token (m.reach here token) = .error halt b' := by
  induction tokens generalizing cursor opened b with
  | nil => cases h
  | cons entry rest ih =>
    obtain ⟨offset, token⟩ := entry
    rw [handleAll_cons] at h
    cases hr : handle x aware ((cursor.seek offset).positionOf offset) opened token
        (b.reach ((cursor.seek offset).positionOf offset) token) with
    | ok mid m =>
      rw [Action.bind_run_of_ok hr] at h
      obtain ⟨front, first, failing, back, last, m', rfl, hfront, hfails⟩ := ih h
      refine ⟨(offset, token) :: front, first, failing, back, last, m', rfl, ?_, hfails⟩
      rw [handleAll_cons, Action.bind_run_of_ok hr]
      exact hfront
    | error halt' m =>
      rw [Action.bind_run_of_error hr] at h
      cases h
      exact ⟨[], offset, token, rest, opened, b, rfl, rfl, hr⟩

/-- The part of a text that is in front of one of its tokens gets through, and this token does
not. -/
structure StopsAt (x : Extension κ) (b : Binder κ) (text : List Char) (front : List (Nat × Token))
    (offset : Nat) (token : Token) (opened : List OpenElement) (m : Binder κ)
    (halt : Halt BindError) (b' : Binder κ) : Prop where
  scan : ∃ back, Markup.scan text = front ++ (offset, token) :: back
  read : handleAll x b.options.namespaceAware { rest := text } [] front (b.atStart text) =
    .ok opened m
  stops : handle x b.options.namespaceAware (Position.ofOffset text offset) opened token
    (m.reach (Position.ofOffset text offset) token) = .error halt b'

/-- A text that does not get through stops at one of its tokens or behind the last of them. -/
theorem run_eq_error {text : List Char} {halt : Halt BindError} {b' : Binder κ}
    (h : run x text b = .error halt b') :
    (∃ front offset token opened m, StopsAt x b text front offset token opened m halt b') ∨
      ∃ opened m, handleAll x b.options.namespaceAware { rest := text } [] (Markup.scan text)
        (b.atStart text) = .ok opened m ∧ conclude x text opened m = .error halt b' := by
  rw [run_eq] at h
  cases hr : handleAll x b.options.namespaceAware { rest := text } [] (Markup.scan text)
      (b.atStart text) with
  | ok opened m =>
    rw [Action.bind_run_of_ok hr] at h
    exact .inr ⟨opened, m, rfl, h⟩
  | error halt' m =>
    rw [Action.bind_run_of_error hr] at h
    cases h
    obtain ⟨front, offset, token, back, opened, m, hscan, hfront, hstops⟩ := handleAll_eq_error hr
    dsimp only at hstops
    rw [Cursor.seek_of_scan hscan] at hstops
    exact .inl ⟨front, offset, token, opened, m, ⟨back, hscan⟩, hfront, hstops⟩

/-- What gets through to its end has the position of its end. -/
theorem position_of_handleAll {text : List Char} {m : Binder κ}
    (h : handleAll x aware { rest := text } [] (Markup.scan text) b = .ok opened m) :
    ∃ front offset, Markup.scan text = front ++ [(offset, .finish)] ∧
      m.position = some (Position.ofOffset text offset) := by
  obtain ⟨front, ⟨offset, token⟩, hscan, hlast⟩ := Markup.scan_last text
  rw [hscan, handleAll_append] at h
  obtain ⟨mid, s, -, hend⟩ := Action.bind_eq_ok.mp h
  rw [handleAll_cons, Cursor.seek_of_scan hscan] at hend
  obtain ⟨last, s', htoken, hnil⟩ := Action.bind_eq_ok.mp hend
  cases hnil
  obtain rfl | rfl := hlast
  · cases htoken
    exact ⟨front, offset, hscan, rfl⟩
  · cases htoken

end Document

end XmlBinding
