import XmlBinding.Proofs.Expression.Classes

/-!
# Steps in front of the end of a group

Groups, repetitions and single items are read in front of the ending as they are read alone, unless
they use up the parenthesis of the ending.
-/
namespace XmlBinding.Regex

variable {fl : Flags} {cs rest : List Char}

/-! ### Groups -/

theorem contained_groupName? : Contained groupName? := by
  constructor
  · intro cs name rest h
    unfold groupName? at h
    dsimp only at h
    split at h
    · next hdrop =>
      split at h
      · cases h
        exact (List.suffix_cons _ _).trans (hdrop ▸ List.dropWhile_suffix _)
      · cases h
    · cases h
  · intro cs name rest h
    left
    unfold groupName? at h ⊢
    dsimp only at h ⊢
    rcases @span_ending '>' (by decide) cs with ⟨-, hnone⟩ | ⟨hfound, hne, htake⟩
    · rw [hnone] at h
      split at h
      · next heq => cases heq
      · cases h
    · obtain ⟨d, back, hback⟩ := List.exists_cons_of_ne_nil hne
      rw [hfound, htake, hback] at h
      rw [hback]
      cases hname : cs.takeWhile (· ≠ '>') with
      | nil =>
        rw [hname] at h
        cases h
      | cons c more =>
        rw [hname] at h
        dsimp only [List.cons_append] at h ⊢
        split at h
        · next hletters =>
          cases h
          exact ⟨back, rfl, if_pos hletters⟩
        · cases h

theorem contained_named? (st : ReadState) : Contained st.named? := by
  have hnew : ∀ name, Contained fun rest => if st.names.contains name = true then none
      else some ({ st.enter true st.flags with names := name :: st.names }, rest) := fun _ =>
    .ite .nothing (.answer _)
  refine (contained_groupName?.bind (g := fun p => if st.names.contains p.1 = true then none
    else some ({ st.enter true st.flags with names := p.1 :: st.names }, p.2)) hnew).congr
      fun cs => ?_
  unfold ReadState.named?
  cases groupName? cs <;> rfl

theorem switches?_suffix {seen : List Char} {on dangling : Bool} {p : Flags × Char}
    (h : switches? fl seen on dangling cs = some (p, rest)) : rest <:+ cs.tail := by
  induction cs generalizing fl seen on dangling with
  | nil => cases h
  | cons d cs ih =>
    rw [List.tail_cons]
    unfold switches? at h
    split at h
    · split at h
      · cases h
      · cases h
        exact List.suffix_rfl
    split at h
    · split at h
      · exact (ih h).trans (List.tail_suffix cs)
      · cases h
    split at h
    · cases h
    split at h
    · exact (ih h).trans (List.tail_suffix cs)
    · cases h

theorem contained_switches? (fl : Flags) (seen : List Char) (on dangling : Bool) :
    Contained (switches? fl seen on dangling) := by
  refine ⟨fun h => (switches?_suffix h).trans (List.tail_suffix _), fun {cs} => ?_⟩
  induction cs generalizing fl seen on dangling with
  | nil => exact fun h => .inr (switches?_suffix h)
  | cons d cs ih =>
    intro p rest h
    rw [List.cons_append] at h
    unfold switches? at h ⊢
    by_cases hend : d = ':' ∨ d = ')'
    · rw [if_pos hend] at h ⊢
      cases dangling with
      | true => cases h
      | false =>
        cases h
        exact .inl ⟨cs, rfl, rfl⟩
    rw [if_neg hend] at h ⊢
    by_cases hhyphen : d = '-'
    · rw [if_pos hhyphen] at h ⊢
      cases on with
      | true => exact ih _ _ _ _ h
      | false => cases h
    rw [if_neg hhyphen] at h ⊢
    by_cases hseen : seen.contains d = true
    · rw [if_pos hseen] at h
      cases h
    rw [if_neg hseen] at h ⊢
    cases hswitch : fl.switch? d on with
    | none =>
      rw [hswitch] at h
      cases h
    | some fl' =>
      rw [hswitch] at h
      exact ih _ _ _ _ h

theorem contained_switched? (st : ReadState) : Contained st.switched? := by
  refine (contained_switches? st.flags [] true false).bind fun p => ?_
  exact .ite (.answer _) (.result _)

theorem switched?_suffix {st st' : ReadState} (h : st.switched? cs = some (st', rest)) :
    rest <:+ cs.tail := by
  obtain ⟨⟨p, back⟩, hswitches, h⟩ := Option.bind_eq_some_iff.mp h
  have hrest : Contained fun rest => if p.2 = ':' then some (st.enter false p.1, rest)
      else ({ st with flags := p.1 }.add? ⟨.empty, 0⟩).map (·, rest) :=
    .ite (.answer _) (.result _)
  exact (hrest.shrinks h).trans (switches?_suffix hswitches)

/-- A letter for a mode. -/
theorem special?_of_ne {st : ReadState} {c : Char} (hangle : c ≠ '<') (hclose : c ≠ ')')
    (hname : ¬(c = 'P' ∧ cs.head? = some '<')) :
    st.special? (c :: cs) = st.switched? (c :: cs) := by
  unfold ReadState.special?
  split
  · next heq =>
    cases heq
    exact absurd ⟨rfl, rfl⟩ hname
  · next heq => exact absurd (List.cons.inj heq).1 hangle
  · next heq => exact absurd (List.cons.inj heq).1 hclose
  · rfl

theorem contained_special? (st : ReadState) : Contained st.special? := by
  refine .cons (g := fun c rest => st.special? (c :: rest)) (fun c => ?_) rfl fun _ _ => rfl
  have hletter := (contained_switched? st).behind switched?_suffix c
  by_cases hangle : c = '<'
  · subst hangle
    exact contained_named? st
  by_cases hclose : c = ')'
  · subst hclose
    exact .nothing
  by_cases hname : c = 'P'
  · subst hname
    refine .lookingFor '<' (by decide) hletter (contained_named? st) (fun cs hcs => ?_) fun _ => rfl
    exact special?_of_ne hangle hclose fun h => hcs h.2
  · exact hletter.congr fun cs => special?_of_ne hangle hclose fun h => hname h.1

theorem contained_group? (st : ReadState) : Contained st.group? := by
  refine .lookingFor (g := fun rest => some (st.enter true st.flags, rest)) '?' (by decide)
    (.answer _) (contained_special? st) (fun cs hcs => ?_) fun _ => rfl
  unfold ReadState.group?
  split
  · simp at hcs
  · rfl

/-! ### Repetitions -/

theorem count_suffix (digits : List Char) (ended inComment : Bool) (cs : List Char) :
    (fl.count digits ended inComment cs).2 <:+ cs := by
  induction cs generalizing digits ended inComment with
  | nil => exact List.suffix_rfl
  | cons c rest ih =>
    have hrest : ∀ digits ended inComment,
        (fl.count digits ended inComment rest).2 <:+ c :: rest := fun digits ended inComment =>
      (ih digits ended inComment).trans (List.suffix_cons c rest)
    unfold Flags.count
    split
    · exact hrest _ _ _
    split
    · exact hrest _ _ _
    split
    · exact hrest _ _ _
    split
    · exact hrest _ _ _
    · exact List.suffix_rfl

theorem count_ending (digits : List Char) (ended inComment : Bool) (cs : List Char) :
    fl.count digits ended inComment (cs ++ ending) =
        ((fl.count digits ended inComment cs).1,
          (fl.count digits ended inComment cs).2 ++ ending) ∨
      (fl.count digits ended inComment (cs ++ ending)).2 = [] := by
  induction cs generalizing digits ended inComment with
  | nil =>
    cases inComment with
    | true => exact .inr rfl
    | false =>
      have hblank : Text.isBlank ')' = false := by decide
      exact .inl (by simp [ending, Flags.count, hblank])
  | cons c rest ih =>
    rw [List.cons_append]
    unfold Flags.count
    split
    · exact ih _ _ _
    split
    · exact ih _ _ _
    split
    · exact ih _ _ _
    split
    · exact ih _ _ _
    · exact .inl rfl

theorem contained_number? : Contained fl.number? := by
  constructor
  · intro cs n rest h
    obtain ⟨_, -, hpair⟩ := Option.map_eq_some_iff.mp h
    cases hpair
    exact count_suffix [] false false cs
  · intro cs n rest h
    unfold Flags.number? at h ⊢
    dsimp only at h ⊢
    have hcount := @count_ending fl [] false false cs
    obtain ⟨_, hn, hpair⟩ := Option.map_eq_some_iff.mp h
    cases hpair
    rcases hcount with hcount | hcount
    · rw [hcount] at hn ⊢
      exact .inl ⟨_, rfl, Option.map_eq_some_iff.mpr ⟨n, hn, rfl⟩⟩
    · rw [hcount]
      exact .inr List.nil_suffix

theorem contained_upper? : Contained fl.upper? := by
  have hbound : ∀ most : Nat, Contained fun rest => some (some most, rest) := fun _ => .answer _
  have hnumber := (@contained_number? fl).map (g := fun p => (some p.1, p.2)) hbound
  refine .seeing '\x7d' (by decide) none hnumber (fun cs hcs => ?_) fun _ => rfl
  unfold Flags.upper?
  split
  · simp at hcs
  · rfl

theorem contained_most? (least : Nat) : Contained (fl.most? least) := by
  refine .lookingFor (g := fun rest => some (some least, rest)) ',' (by decide) (.answer _)
    contained_upper?.skip (fun cs hcs => ?_) fun _ => rfl
  unfold Flags.most?
  split
  · simp at hcs
  · rfl

theorem contained_closeBounds? (least : Nat) (most : Option Nat) :
    Contained (closeBounds? least most) := by
  refine .cons (g := fun c rest => closeBounds? least most (c :: rest)) (fun c => ?_) rfl
    fun _ _ => rfl
  by_cases hc : c = '\x7d'
  · subst hc
    exact .ite .nothing (.answer _)
  · refine Contained.nothing.congr fun rest => ?_
    unfold closeBounds?
    split
    · next heq => exact absurd (List.cons.inj heq).1 hc
    · rfl

theorem contained_bounds? : Contained fl.bounds? := by
  refine contained_number?.skip.bind fun least => ?_
  exact (contained_most? least).bind fun most => contained_closeBounds? least most

theorem contained_repeat? (st : ReadState) (least : Nat) (most : Option Nat) :
    Contained (st.repeat? least most) := by
  refine .lookingFor (g := fun rest => (st.repeatLast? least most false).map (·, rest)) '?'
    (by decide) (.result _) (.result _) (fun cs hcs => ?_) fun _ => rfl
  unfold ReadState.repeat?
  split
  · simp at hcs
  · rfl

/-! ### Steps -/

/-- The characters that do not stand for themselves. -/
def operators : List Char := ['(', ')', '|', '[', '?', '*', '+', '\x7b', '.', '^', '$', '\\']

theorem step?_literal {st : ReadState} {c : Char} (hc : c ∉ operators) :
    st.step? (c :: cs) = (st.add? ⟨st.flags.literal c, 0⟩).map (·, cs) := by
  unfold ReadState.step?
  split
  case h_1 heq => cases heq
  case h_14 heq =>
    cases heq
    rfl
  all_goals
    rename_i heq
    cases heq
    exact absurd (by decide) hc

/-- The first character says what is read, and it is used up. -/
theorem contained_step?_cons (st : ReadState) (c : Char) :
    Contained fun rest => st.step? (c :: rest) := by
  by_cases hc : c ∈ operators
  · simp only [operators, List.mem_cons, List.not_mem_nil, or_false] at hc
    rcases hc with rfl | rfl | rfl | rfl | rfl | rfl | rfl | rfl | rfl | rfl | rfl | rfl
    · exact (contained_group? st).skip
    · exact .result st.leave?
    · exact .answer st.branch
    · exact contained_class?.bind fun p => .option _ fun _ => .answer _
    · exact contained_repeat? st 0 (some 1)
    · exact contained_repeat? st 0 none
    · exact contained_repeat? st 1 none
    · exact contained_bounds?.bind fun bounds => (contained_repeat? st bounds.1 bounds.2).skip
    · exact .option _ fun _ => .option _ fun _ => .answer _
    · exact .result (st.add? ⟨.look st.flags.start, 0⟩)
    · exact .result (st.add? ⟨.look st.flags.finish, 0⟩)
    · exact contained_escape?.bind fun a => .option _ fun _ => .answer _
  · refine Contained.congr (.result (st.add? ⟨st.flags.literal c, 0⟩)) fun cs => ?_
    exact step?_literal hc

theorem contained_step? (st : ReadState) : Contained st.step? :=
  .cons (contained_step?_cons st) rfl fun _ _ => rfl

theorem step?_suffix {st st' : ReadState} (h : st.step? cs = some (st', rest)) :
    rest <:+ cs.tail := by
  cases cs with
  | nil => cases h
  | cons c cs => exact (contained_step?_cons st c).shrinks h

end XmlBinding.Regex
