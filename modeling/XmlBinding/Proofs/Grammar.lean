import XmlBinding.Proofs.LongestSuffix
import XmlBinding.Proofs.Matching

/-!
# Which patterns can be registered

A plain and an extended matcher check a pattern by searches through its text. Here both grammars
are said of segments and of what stands in front of a mark and behind it, and every fault has the
condition under which it is the first one. Nothing else plays a part: not the rule, not the
namespace, and not what was registered before.
-/
namespace XmlBinding.Pattern

open Extended (star question)

variable {ρ : Type} {cs body : List Char}

/-! ### The pattern of a text -/

/-- The pattern that a text stands for: of more than one byte, a slash at the end is dropped. -/
def withoutFinalSlash (cs : List Char) : List Char :=
  if 1 < Text.byteLength cs ∧ cs.getLast? = some '/' then cs.dropLast else cs

/-- A text with a slash at its end is longer than that slash, whether by characters or by bytes. -/
theorem dropFinalSlash_eq (cs : List Char) : dropFinalSlash cs = withoutFinalSlash cs := by
  unfold dropFinalSlash withoutFinalSlash
  refine if_congr (and_congr_left fun hlast => ?_) rfl rfl
  obtain ⟨front, rfl⟩ := List.getLast?_eq_some_iff.mp hlast
  have hslash : Text.byteLength ['/'] = 1 := rfl
  rw [List.length_append, List.length_singleton, Text.byteLength_append, hslash]
  cases front with
  | nil => simp [Text.byteLength]
  | cons c rest =>
    have hlong := Text.length_le_byteLength (c :: rest)
    rw [List.length_cons] at hlong ⊢
    omega

/-! ### The two grammars -/

/-- An exact path or a `*/suffix`. -/
structure IsPlain (cs : List Char) : Prop where
  nonempty : cs ≠ []
  filled : [] ∉ segments cs
  /-- A star is the first of several segments. -/
  stars : ∀ front back, segments cs = front ++ star :: back → front = [] ∧ back ≠ []

/-- A pattern without its `!` that has its marks in their places. -/
structure IsMarked (body : List Char) : Prop where
  filled : [] ∉ segments body
  /-- A question mark is the last of several segments. -/
  questions : ∀ front back, segments body = front ++ question :: back → front ≠ [] ∧ back = []
  /-- A star is the first segment or the last. -/
  stars : ∀ front back, segments body = front ++ star :: back → front = [] ∨ back = []

/-- A pattern of an extended matcher, with or without a `!` in front. -/
structure IsExtended (cs : List Char) : Prop where
  noBang : '!' ∉ withoutBang cs
  form : withoutBang cs = ['*'] ∨ IsMarked (withoutBang cs)

/-! ### The first fault -/

/-- Why a text is no plain pattern. -/
inductive PlainFault (cs : List Char) : PatternError → Prop
  | empty (h : cs = []) : PlainFault cs .empty
  | emptySegment (hne : cs ≠ []) (h : [] ∈ segments cs) :
      PlainFault cs (.emptySegment (String.ofList cs))
  | misplaced (hfilled : [] ∉ segments cs) {front back : List (List Char)}
      (hsegments : segments cs = front ++ star :: back) (h : front ≠ [] ∨ back = []) :
      PlainFault cs (.misplaced (String.ofList cs) .starOnlyLeading)

/-- A mark is out of place, given the segments in front of it and behind it. -/
inductive Misplaced (front back : List (List Char)) : List Char → Misplacement → Prop
  | question (h : front = [] ∨ back ≠ []) : Misplaced front back question .questionOnlyLast
  | star (hfront : front ≠ []) (hback : back ≠ []) : Misplaced front back star .starOnlyOutside

/-- The first mark out of place in some segments that have others in front of them. -/
def FirstMisplaced (before ss : List (List Char)) (fault : Misplacement) : Prop :=
  ∃ front s back, ss = front ++ s :: back ∧ Misplaced (before ++ front) back s fault ∧
    ∀ front' s' back' other, ss = front' ++ s' :: back' → front'.length < front.length →
      ¬Misplaced (before ++ front') back' s' other

/-- Why a text is no pattern of an extended matcher. -/
inductive ExtendedFault (cs : List Char) : PatternError → Prop
  | empty (h : withoutBang cs = []) : ExtendedFault cs .empty
  | bang (h : '!' ∈ withoutBang cs) :
      ExtendedFault cs (.misplaced (String.ofList cs) .bangOnlyFirst)
  | emptySegment (hbang : '!' ∉ withoutBang cs) (hne : withoutBang cs ≠ [])
      (h : [] ∈ segments (withoutBang cs)) :
      ExtendedFault cs (.emptySegment (String.ofList (withoutBang cs)))
  | misplaced (hbang : '!' ∉ withoutBang cs) (hfilled : [] ∉ segments (withoutBang cs))
      {fault : Misplacement} (h : FirstMisplaced [] (segments (withoutBang cs)) fault) :
      ExtendedFault cs (.misplaced (String.ofList cs) fault)

/-! ### The checks -/

theorem ne_nil_of_filled (h : [] ∉ segments cs) : cs ≠ [] := by
  rintro rfl
  exact h List.mem_cons_self

theorem checkSegments_of_filled (h : [] ∉ segments cs) : checkSegments cs = .ok () := by
  have hempty : cs.isEmpty = false := by simpa using ne_nil_of_filled h
  have hany : (segments cs).any List.isEmpty = false := by
    refine List.any_eq_false.mpr fun s hs hnil => h ?_
    rwa [List.isEmpty_iff.mp hnil] at hs
  simp [checkSegments, hempty, hany]

theorem checkSegments_of_mem (hne : cs ≠ []) (h : [] ∈ segments cs) :
    checkSegments cs = .error (.emptySegment (String.ofList cs)) := by
  have hempty : cs.isEmpty = false := by simpa using hne
  have hany : (segments cs).any List.isEmpty = true := List.any_eq_true.mpr ⟨[], h, rfl⟩
  simp [checkSegments, hempty, hany]

/-- A check that answers every good text with success and every fault with that fault says exactly
which texts are good, if there is nothing between them. -/
theorem check_iff {check : Except PatternError Unit} {Good : Prop} {Fault : PatternError → Prop}
    (hgood : Good → check = .ok ()) (hfault : ∀ cause, Fault cause → check = .error cause)
    (hall : Good ∨ ∃ cause, Fault cause) :
    (check = .ok () ↔ Good) ∧ ∀ cause, check = .error cause ↔ Fault cause := by
  rcases hall with h | ⟨found, h⟩
  · have hok := hgood h
    refine ⟨iff_of_true hok h, fun cause => ⟨fun herror => ?_, hfault cause⟩⟩
    rw [hok] at herror
    cases herror
  · have herror := hfault found h
    constructor
    · refine ⟨fun hok => ?_, hgood⟩
      rw [herror] at hok
      cases hok
    · intro cause
      refine ⟨fun hcause => ?_, hfault cause⟩
      rw [herror] at hcause
      cases hcause
      exact h

/-! ### Plain patterns -/

/-- Behind a leading `*/`, or in the whole text if it has none, a star is out of place. -/
theorem star_mem_iff : star ∈ segments ((afterLeadingStar? cs).getD cs) ↔
    ∃ front back, segments cs = front ++ star :: back ∧ (front ≠ [] ∨ back = []) := by
  cases hleading : afterLeadingStar? cs with
  | some rest =>
    obtain rfl := Plain.afterLeadingStar?_eq_some hleading
    rw [Option.getD_some, Extended.segments_star_slash]
    constructor
    · intro hmem
      obtain ⟨front, back, hrest⟩ := List.append_of_mem hmem
      exact ⟨star :: front, back, by rw [hrest]; rfl, Or.inl (List.cons_ne_nil _ _)⟩
    · rintro ⟨front, back, hsegments, h⟩
      cases front with
      | nil =>
        obtain rfl : segments rest = back := (List.cons.inj hsegments).2
        exact absurd (h.resolve_left fun hne => hne rfl) (segments_ne_nil rest)
      | cons first front =>
        rw [(List.cons.inj hsegments).2]
        exact List.mem_append_right _ List.mem_cons_self
  | none =>
    rw [Option.getD_none]
    constructor
    · intro hmem
      obtain ⟨front, back, hsegments⟩ := List.append_of_mem hmem
      refine ⟨front, back, hsegments, ?_⟩
      by_contra hplace
      rw [not_or, not_not] at hplace
      obtain ⟨rfl, hback⟩ := hplace
      have hsome := Extended.afterLeadingStar?_isSome_iff.mpr ⟨back, hback, hsegments⟩
      rw [hleading] at hsome
      cases hsome
    · rintro ⟨front, back, hsegments, -⟩
      rw [hsegments]
      exact List.mem_append_right _ List.mem_cons_self

theorem any_star_iff {ss : List (List Char)} : ss.any (· == ['*']) = true ↔ star ∈ ss := by
  simp [Extended.star]

theorem IsPlain.checkPlain_eq (h : IsPlain cs) : checkPlain cs = .ok () := by
  have hany : ¬(segments ((afterLeadingStar? cs).getD cs)).any (· == ['*']) = true := by
    rw [any_star_iff, star_mem_iff]
    rintro ⟨front, back, hsegments, hplace⟩
    obtain ⟨hfront, hback⟩ := h.stars front back hsegments
    exact hplace.elim (fun hne => hne hfront) hback
  unfold checkPlain
  rw [checkSegments_of_filled h.filled]
  exact if_neg hany

theorem PlainFault.checkPlain_eq {cause : PatternError} (h : PlainFault cs cause) :
    checkPlain cs = .error cause := by
  cases h with
  | empty h =>
    subst h
    rfl
  | emptySegment hne h =>
    unfold checkPlain
    rw [checkSegments_of_mem hne h]
    rfl
  | misplaced hfilled hsegments h =>
    have hany := any_star_iff.mpr (star_mem_iff.mpr ⟨_, _, hsegments, h⟩)
    unfold checkPlain
    rw [checkSegments_of_filled hfilled]
    exact if_pos hany

theorem isPlain_or_fault (cs : List Char) : IsPlain cs ∨ ∃ cause, PlainFault cs cause := by
  by_cases hne : cs = []
  · exact Or.inr ⟨_, .empty hne⟩
  by_cases hempty : [] ∈ segments cs
  · exact Or.inr ⟨_, .emptySegment hne hempty⟩
  by_cases hstar : ∃ front back, segments cs = front ++ star :: back ∧ (front ≠ [] ∨ back = [])
  · obtain ⟨front, back, hsegments, h⟩ := hstar
    exact Or.inr ⟨_, .misplaced hempty hsegments h⟩
  · refine Or.inl ⟨hne, hempty, fun front back hsegments => ?_⟩
    by_contra hplace
    refine hstar ⟨front, back, hsegments, ?_⟩
    tauto

/-- **A plain pattern is what the grammar says, and a refusal names the first fault.** -/
theorem checkPlain_iff (cs : List Char) : (checkPlain cs = .ok () ↔ IsPlain cs) ∧
    ∀ cause, checkPlain cs = .error cause ↔ PlainFault cs cause :=
  check_iff IsPlain.checkPlain_eq (fun _ => PlainFault.checkPlain_eq) (isPlain_or_fault cs)

/-! ### Patterns with all marks -/

theorem markFault?_eq_some_iff {front back : List (List Char)} {s : List Char}
    {fault : Misplacement} :
    markFault? front.isEmpty back.isEmpty s = some fault ↔ Misplaced front back s fault := by
  unfold markFault?
  constructor
  · intro h
    split at h
    · next hplace =>
      obtain ⟨rfl, hplace⟩ := hplace
      obtain rfl := Option.some.inj h
      refine .question ?_
      simp only [Bool.not_eq_true', List.isEmpty_eq_false_iff, List.isEmpty_iff] at hplace
      exact hplace.symm
    · split at h
      · next hplace =>
        obtain ⟨rfl, hfront, hback⟩ := hplace
        obtain rfl := Option.some.inj h
        exact .star (by simpa using hfront) (by simpa using hback)
      · cases h
  · intro h
    cases h with
    | question h =>
      have hplace : (!back.isEmpty) = true ∨ front.isEmpty = true := by
        simpa [or_comm] using h
      exact if_pos ⟨rfl, hplace⟩
    | star hfront hback =>
      have hne : ¬(star = ['?'] ∧ ((!back.isEmpty) = true ∨ front.isEmpty = true)) :=
        fun h => absurd h.1 (by decide)
      rw [if_neg hne]
      exact if_pos ⟨rfl, by simpa using hfront, by simpa using hback⟩

theorem Misplaced.unique {front back : List (List Char)} {s : List Char}
    {fault other : Misplacement} (h : Misplaced front back s fault)
    (h' : Misplaced front back s other) : fault = other := by
  rw [← markFault?_eq_some_iff] at h h'
  exact Option.some.inj (h.symm.trans h')

section First

variable {before rest : List (List Char)} {s : List Char} {fault found : Misplacement}

/-- A segment out of place comes before all others. -/
theorem firstMisplaced_cons_of_misplaced (h : Misplaced before rest s found) :
    FirstMisplaced before (s :: rest) fault ↔ fault = found := by
  constructor
  · rintro ⟨front, s', back, hsplit, hplace, hfirst⟩
    cases front with
    | nil =>
      obtain ⟨rfl, rfl⟩ := List.cons.inj hsplit
      rw [List.append_nil] at hplace
      exact hplace.unique h
    | cons first front =>
      have hno := hfirst [] s rest found rfl (Nat.zero_lt_succ _)
      rw [List.append_nil] at hno
      exact absurd h hno
  · rintro rfl
    refine ⟨[], s, rest, rfl, by rwa [List.append_nil], fun _ _ _ _ _ hlt => ?_⟩
    exact absurd hlt (Nat.not_lt_zero _)

/-- Behind a segment in its place the search goes on. -/
theorem firstMisplaced_cons_of_inPlace (h : ∀ other, ¬Misplaced before rest s other) :
    FirstMisplaced before (s :: rest) fault ↔ FirstMisplaced (before ++ [s]) rest fault := by
  constructor
  · rintro ⟨front, s', back, hsplit, hplace, hfirst⟩
    cases front with
    | nil =>
      obtain ⟨rfl, rfl⟩ := List.cons.inj hsplit
      rw [List.append_nil] at hplace
      exact absurd hplace (h fault)
    | cons first front =>
      obtain ⟨rfl, rfl⟩ := List.cons.inj hsplit
      refine ⟨front, s', back, rfl, by rwa [List.append_assoc], ?_⟩
      intro front' other' back' other hsplit' hlt
      have hlater := hfirst (s :: front') other' back' other (by rw [hsplit']; rfl)
        (Nat.succ_lt_succ hlt)
      rwa [List.append_assoc]
  · rintro ⟨front, s', back, rfl, hplace, hfirst⟩
    rw [List.append_assoc] at hplace
    refine ⟨s :: front, s', back, rfl, hplace, ?_⟩
    intro front' other' back' other hsplit hlt
    cases front' with
    | nil =>
      obtain ⟨rfl, rfl⟩ := List.cons.inj hsplit
      rw [List.append_nil]
      exact h other
    | cons first front' =>
      obtain ⟨rfl, hsplit'⟩ := List.cons.inj hsplit
      have hlater := hfirst front' other' back' other hsplit' (Nat.lt_of_succ_lt_succ hlt)
      rwa [List.append_assoc] at hlater

end First

/-- The search through the segments finds the first mark out of place. -/
theorem firstFault?_eq_some_iff {before ss : List (List Char)} {fault : Misplacement} :
    firstFault? before.isEmpty ss = some fault ↔ FirstMisplaced before ss fault := by
  induction ss generalizing before with
  | nil =>
    refine iff_of_false nofun ?_
    rintro ⟨front, s, back, hnil, -⟩
    cases front <;> cases hnil
  | cons s rest ih =>
    unfold firstFault?
    cases hmark : markFault? before.isEmpty rest.isEmpty s with
    | some found =>
      rw [firstMisplaced_cons_of_misplaced (markFault?_eq_some_iff.mp hmark), Option.some.injEq,
        eq_comm]
    | none =>
      have hplace : ∀ other, ¬Misplaced before rest s other := fun other h => by
        rw [markFault?_eq_some_iff.mpr h] at hmark
        cases hmark
      have hbehind : (before ++ [s]).isEmpty = false := by simp
      rw [firstMisplaced_cons_of_inPlace hplace, ← ih, hbehind]

/-- If a mark is out of place, one of them is the first. -/
theorem exists_firstMisplaced {ss front back : List (List Char)} {s : List Char}
    {fault : Misplacement} (hsplit : ss = front ++ s :: back)
    (hplace : Misplaced front back s fault) : ∃ first, FirstMisplaced [] ss first := by
  induction hlen : front.length using Nat.strong_induction_on
    generalizing front s back fault with
  | _ n ih =>
    subst hlen
    by_cases hearlier : ∃ front' s' back' other, ss = front' ++ s' :: back' ∧
        front'.length < front.length ∧ Misplaced front' back' s' other
    · obtain ⟨front', s', back', other, hsplit', hlt, hplace'⟩ := hearlier
      exact ih _ hlt hsplit' hplace' rfl
    · refine ⟨fault, front, s, back, hsplit, hplace, ?_⟩
      intro front' s' back' other hsplit' hlt hplace'
      exact hearlier ⟨front', s', back', other, hsplit', hlt, hplace'⟩

/-- All marks are in their places if none is the first out of place. -/
theorem isMarked_iff : IsMarked body ↔
    [] ∉ segments body ∧ ∀ fault, ¬FirstMisplaced [] (segments body) fault := by
  constructor
  · refine fun h => ⟨h.filled, ?_⟩
    rintro fault ⟨front, s, back, hsplit, hplace, -⟩
    cases hplace with
    | question hwrong =>
      obtain ⟨hfront, hback⟩ := h.questions front back hsplit
      exact hwrong.elim hfront fun hne => hne hback
    | star hfront hback => exact (h.stars front back hsplit).elim hfront hback
  · rintro ⟨hfilled, hnone⟩
    have hplaced : ∀ front s back fault, segments body = front ++ s :: back →
        ¬Misplaced front back s fault := by
      intro front s back fault hsplit hplace
      obtain ⟨first, hfirst⟩ := exists_firstMisplaced hsplit hplace
      exact hnone first hfirst
    refine ⟨hfilled, fun front back hsplit => ?_, fun front back hsplit => ?_⟩
    · have hno := hplaced _ _ _ .questionOnlyLast hsplit
      by_contra hwrong
      refine hno (.question ?_)
      tauto
    · have hno := hplaced _ _ _ .starOnlyOutside hsplit
      by_contra hwrong
      rw [not_or] at hwrong
      exact hno (.star hwrong.1 hwrong.2)

/-- The check as a chain of questions. -/
theorem checkExtended_eq (cs : List Char) : checkExtended cs =
    if cs = [] then .error .empty
    else if '!' ∈ withoutBang cs then .error (.misplaced (String.ofList cs) .bangOnlyFirst)
    else if withoutBang cs = ['*'] then .ok ()
    else match checkSegments (withoutBang cs), firstFault? true (segments (withoutBang cs)) with
      | .error cause, _ => .error cause
      | .ok (), some fault => .error (.misplaced (String.ofList cs) fault)
      | .ok (), none => .ok () := by
  unfold checkExtended
  by_cases hne : cs = []
  · subst hne
    rfl
  have hempty : cs.isEmpty = false := List.isEmpty_eq_false_iff.mpr hne
  by_cases hbang : '!' ∈ withoutBang cs
  · simp [hempty, hbang, hne, bind, Except.bind, throw, throwThe, MonadExceptOf.throw]
  by_cases hall : withoutBang cs = ['*']
  · simp [hempty, hne, hall, pure, Except.pure]
  · cases hcheck : checkSegments (withoutBang cs) with
    | error cause => simp [hempty, hbang, hne, hall, hcheck, bind, Except.bind]
    | ok u =>
      cases hfault : firstFault? true (segments (withoutBang cs)) <;>
        simp [hempty, hbang, hne, hall, hcheck, hfault, bind, Except.bind, pure, Except.pure,
          throw, throwThe, MonadExceptOf.throw]

theorem ne_nil_of_withoutBang (h : withoutBang cs ≠ []) : cs ≠ [] := by
  rintro rfl
  exact h rfl

/-- In the lone star no mark is out of place. -/
theorem withoutBang_ne_star {fault : Misplacement}
    (h : FirstMisplaced [] (segments (withoutBang cs)) fault) : withoutBang cs ≠ ['*'] := by
  intro hall
  rw [hall] at h
  have hfault : firstFault? true (segments ['*']) = some fault := firstFault?_eq_some_iff.mpr h
  have hnone : firstFault? true (segments ['*']) = none := rfl
  rw [hnone] at hfault
  cases hfault

theorem IsExtended.checkExtended_eq_ok (h : IsExtended cs) : checkExtended cs = .ok () := by
  rw [checkExtended_eq]
  by_cases hall : withoutBang cs = ['*']
  · have hne : cs ≠ [] := ne_nil_of_withoutBang (by rw [hall]; exact List.cons_ne_nil _ _)
    rw [if_neg hne, if_neg h.noBang, if_pos hall]
  · obtain ⟨hfilled, hnone⟩ := isMarked_iff.mp (h.form.resolve_left hall)
    have hfault : firstFault? true (segments (withoutBang cs)) = none := by
      refine Option.eq_none_iff_forall_ne_some.mpr fun fault hfault => hnone fault ?_
      exact firstFault?_eq_some_iff.mp hfault
    have hne : cs ≠ [] := ne_nil_of_withoutBang (ne_nil_of_filled hfilled)
    rw [if_neg hne, if_neg h.noBang, if_neg hall, checkSegments_of_filled hfilled, hfault]

theorem ExtendedFault.checkExtended_eq_error {cause : PatternError} (h : ExtendedFault cs cause) :
    checkExtended cs = .error cause := by
  rw [checkExtended_eq]
  cases h with
  | empty h =>
    by_cases hne : cs = []
    · exact if_pos hne
    · rw [if_neg hne, h]
      rfl
  | bang h => rw [if_neg (ne_nil_of_withoutBang (List.ne_nil_of_mem h)), if_pos h]
  | emptySegment hbang hne h =>
    have hall : withoutBang cs ≠ ['*'] := by
      intro hall
      rw [hall] at h
      exact absurd h (by decide)
    rw [if_neg (ne_nil_of_withoutBang hne), if_neg hbang, if_neg hall, checkSegments_of_mem hne h]
  | @misplaced hbang hfilled fault h =>
    have hfault : firstFault? true (segments (withoutBang cs)) = some fault :=
      firstFault?_eq_some_iff.mpr h
    have hne : cs ≠ [] := ne_nil_of_withoutBang (ne_nil_of_filled hfilled)
    rw [if_neg hne, if_neg hbang, if_neg (withoutBang_ne_star h), checkSegments_of_filled hfilled,
      hfault]

theorem isExtended_or_fault (cs : List Char) : IsExtended cs ∨ ∃ cause, ExtendedFault cs cause := by
  by_cases hbang : '!' ∈ withoutBang cs
  · exact Or.inr ⟨_, .bang hbang⟩
  by_cases hne : withoutBang cs = []
  · exact Or.inr ⟨_, .empty hne⟩
  by_cases hempty : [] ∈ segments (withoutBang cs)
  · exact Or.inr ⟨_, .emptySegment hbang hne hempty⟩
  by_cases hfirst : ∃ fault, FirstMisplaced [] (segments (withoutBang cs)) fault
  · obtain ⟨fault, hfault⟩ := hfirst
    exact Or.inr ⟨_, .misplaced hbang hempty hfault⟩
  · exact Or.inl ⟨hbang, Or.inr (isMarked_iff.mpr ⟨hempty, not_exists.mp hfirst⟩)⟩

/-- **A pattern of an extended matcher is what the grammar says, and a refusal names the first
fault.** -/
theorem checkExtended_iff (cs : List Char) : (checkExtended cs = .ok () ↔ IsExtended cs) ∧
    ∀ cause, checkExtended cs = .error cause ↔ ExtendedFault cs cause :=
  check_iff IsExtended.checkExtended_eq_ok (fun _ => ExtendedFault.checkExtended_eq_error)
    (isExtended_or_fault cs)

/-! ### Registering -/

/-- A table takes a rule if its pattern passes the check, whatever else it holds. -/
theorem add_iff {check : List Char → Except PatternError Unit} {hold : Table ρ → Matcher ρ}
    (hh : Table.Holds check hold) (t : Table ρ) (text : String) (rule : ρ) :
    ((∃ m, (hold t).add text rule = .ok m) ↔ check (withoutFinalSlash text.toList) = .ok ()) ∧
      ∀ cause, (hold t).add text rule = .error cause ↔
        check (withoutFinalSlash text.toList) = .error cause := by
  rw [hh.add, Table.add_eq, dropFinalSlash_eq]
  cases check (withoutFinalSlash text.toList) with
  | ok u => exact ⟨iff_of_true ⟨_, rfl⟩ rfl, fun cause => iff_of_false nofun nofun⟩
  | error found =>
    refine ⟨iff_of_false ?_ nofun, fun cause => ?_⟩
    · rintro ⟨m, hm⟩
      cases hm
    · exact ⟨fun h => by cases h; rfl, fun h => by cases h; rfl⟩

/-- **Both matchers take exactly the patterns of their grammars, refuse each other one for the first
fault in it, and ask for nothing else.** -/
theorem grammar_law (text : String) (t : Table ρ) (rule : ρ) :
    ((∃ m, (Matcher.plain t).add text rule = .ok m) ↔ IsPlain (withoutFinalSlash text.toList)) ∧
      (∀ cause, (Matcher.plain t).add text rule = .error cause ↔
        PlainFault (withoutFinalSlash text.toList) cause) ∧
      ((∃ m, (Matcher.extended t).add text rule = .ok m) ↔
        IsExtended (withoutFinalSlash text.toList)) ∧
      (∀ cause, (Matcher.extended t).add text rule = .error cause ↔
        ExtendedFault (withoutFinalSlash text.toList) cause) := by
  obtain ⟨hplain, hplainFault⟩ := add_iff Plain.holds_plain t text rule
  obtain ⟨hextended, hextendedFault⟩ := add_iff Extended.holds_extended t text rule
  obtain ⟨hisPlain, hisPlainFault⟩ := checkPlain_iff (withoutFinalSlash text.toList)
  obtain ⟨hisExtended, hisExtendedFault⟩ := checkExtended_iff (withoutFinalSlash text.toList)
  exact ⟨hplain.trans hisPlain, fun cause => (hplainFault cause).trans (hisPlainFault cause),
    hextended.trans hisExtended, fun cause => (hextendedFault cause).trans (hisExtendedFault cause)⟩

/-- Slashes at the end, a lone `!` and two stars. -/
example : (["/", "a/?/", "!/", "*/*", "!*/"].map fun text =>
    checkExtended (dropFinalSlash text.toList)) =
      [.error (.emptySegment "/"), .ok (), .error .empty, .ok (), .ok ()] := by decide

end XmlBinding.Pattern
