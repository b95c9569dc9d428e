import Mathlib.Data.List.TakeWhile
import XmlBinding.Proofs.Expression.Contained

/-!
# Classes in front of the end of a group

A class that is closed is closed by a bracket of the text itself, since there is none in the ending.
So it is read in front of the ending as it is read alone.
-/
namespace XmlBinding.Regex

open Text (CodeSet)

variable {fl : Flags} {cs rest : List Char}

/-! ### Named classes -/

/-- A mark that is not in the ending is found in front of it, or not at all. -/
theorem span_ending {mark : Char} (hmark : mark ∉ ending) (cs : List Char) :
    (cs.dropWhile (· ≠ mark) = [] ∧ (cs ++ ending).dropWhile (· ≠ mark) = []) ∨
      ((cs ++ ending).dropWhile (· ≠ mark) = cs.dropWhile (· ≠ mark) ++ ending ∧
        cs.dropWhile (· ≠ mark) ≠ [] ∧
        (cs ++ ending).takeWhile (· ≠ mark) = cs.takeWhile (· ≠ mark)) := by
  have hnone : ending.dropWhile (· ≠ mark) = [] :=
    List.dropWhile_eq_nil_iff.mpr fun c hc => decide_eq_true (ne_of_mem_of_not_mem hc hmark)
  by_cases hfound : cs.dropWhile (· ≠ mark) = []
  · refine .inl ⟨hfound, ?_⟩
    rw [List.dropWhile_append, hfound, hnone]
    rfl
  · refine .inr ⟨?_, hfound, ?_⟩
    · rw [List.dropWhile_append, if_neg (by simpa using hfound)]
    · rw [List.takeWhile_append, if_neg]
      intro hlength
      have hwhole := List.takeWhile_append_dropWhile (p := (· ≠ mark)) (l := cs)
      have hdrop := congrArg List.length hwhole
      rw [List.length_append, hlength] at hdrop
      exact hfound (List.length_eq_zero_iff.mp (by omega))

theorem className?_suffix {s : CodeSet} (h : className? cs = some (s, rest)) : rest <:+ cs := by
  unfold className? at h
  dsimp only at h
  split at h
  · obtain ⟨s, -, hpair⟩ := Option.map_eq_some_iff.mp h
    cases hpair
    exact (List.drop_suffix _ _).trans (List.dropWhile_suffix _)
  · cases h

/-- A bracket has to follow the name, and none is in the ending. -/
theorem className?_ending (cs : List Char) :
    className? (cs ++ ending) = (className? cs).map fun p => (p.1, p.2 ++ ending) := by
  have hmarks : ∀ found : List Char,
      [':', ']'].isPrefixOf (found ++ ending) = [':', ']'].isPrefixOf found := by
    rintro (_ | ⟨a, _ | ⟨b, more⟩⟩)
    · decide
    · simp [List.isPrefixOf, ending]
    · rfl
  have hdrop : ∀ {found : List Char}, [':', ']'].isPrefixOf found = true →
      (found ++ ending).drop 2 = found.drop 2 ++ ending := by
    intro found h
    obtain ⟨more, rfl⟩ := List.isPrefixOf_iff_prefix.mp h
    rfl
  unfold className?
  dsimp only
  rcases @span_ending ':' (by decide) cs with ⟨hnone, hnone'⟩ | ⟨hfound, -, htake⟩
  · rw [hnone, hnone']
    rfl
  · rw [hfound, htake, hmarks]
    split
    · next h =>
      rw [hdrop h, Option.map_map]
      rfl
    · rfl

theorem namedClass?_suffix {negated : Bool} {s : CodeSet}
    (h : namedClass? cs = some (negated, s, rest)) : rest <:+ cs := by
  unfold namedClass? at h
  split at h
  · obtain ⟨p, hname, hpair⟩ := Option.map_eq_some_iff.mp h
    cases hpair
    exact ((className?_suffix hname).trans (List.suffix_cons _ _)).trans (List.suffix_cons _ _)
  · obtain ⟨p, hname, hpair⟩ := Option.map_eq_some_iff.mp h
    cases hpair
    exact (className?_suffix hname).trans (List.suffix_cons _ _)
  · cases h

theorem namedClass?_ending (cs : List Char) :
    namedClass? (cs ++ ending) =
      (namedClass? cs).map fun p => (p.1, p.2.1, p.2.2 ++ ending) := by
  have hcolon : ∀ {rest : List Char}, rest.head? ≠ some '^' →
      namedClass? (':' :: rest) = (className? rest).map (false, ·) := by
    intro rest hrest
    unfold namedClass?
    split
    · next heq =>
      cases heq
      exact absurd rfl hrest
    · next heq =>
      cases heq
      rfl
    · next h => exact absurd rfl (h _)
  cases cs with
  | nil => decide
  | cons c cs =>
    by_cases hc : c = ':'
    · subst hc
      by_cases hhat : cs.head? = some '^'
      · obtain ⟨cs, rfl⟩ := List.head?_eq_some_iff.mp hhat
        change (className? (cs ++ ending)).map (true, ·) = ((className? cs).map (true, ·)).map _
        rw [className?_ending, Option.map_map, Option.map_map]
        rfl
      · rw [List.cons_append, hcolon (head?_append_ending (by decide) hhat), hcolon hhat,
          className?_ending, Option.map_map, Option.map_map]
        rfl
    · have hother : ∀ rest, namedClass? (c :: rest) = none := by
        intro rest
        unfold namedClass?
        split
        · next heq => exact absurd (List.cons.inj heq).1 hc
        · next heq => exact absurd (List.cons.inj heq).1 hc
        · rfl
      rw [List.cons_append, hother, hother]
      rfl

/-! ### Items -/

/-- The parenthesis at the end ends no range. -/
theorem endsRange_ending (cs : List Char) : fl.endsRange (cs ++ ending) = fl.endsRange cs := by
  have hsign : ∀ inComment (cs : List Char),
      firstSign inComment (cs ++ ending) = (firstSign inComment cs).or (some ')') := by
    intro inComment cs
    induction cs generalizing inComment with
    | nil => cases inComment <;> decide
    | cons c rest ih =>
      rw [List.cons_append]
      unfold firstSign
      split
      · exact ih _
      split
      · exact ih _
      · rfl
  have hother : ∀ o : Option Char, (o.or (some ')') == some ']') = (o == some ']') ∧
      (o.or (some ')') == some '-') = (o == some '-') := by
    rintro (_ | c)
    · decide
    · exact ⟨rfl, rfl⟩
  unfold Flags.endsRange
  dsimp only
  split
  · rw [hsign, (hother _).1, (hother _).2]
  · rw [List.head?_append, show ending.head? = some ')' from rfl, (hother _).1, (hother _).2]

theorem anyAtom?_cons (c : Char) (rest : List Char) :
    fl.anyAtom? (c :: rest) =
      if c = '\\' then fl.escape? rest else some (.char c, rest) := by
  unfold Flags.anyAtom?
  split
  · next heq => cases heq
  · next heq =>
    cases heq
    rfl
  · next hc heq =>
    cases heq
    exact (if_neg hc).symm

theorem contained_anyAtom? : Contained fl.anyAtom? :=
  .cons (g := fun c rest => if c = '\\' then fl.escape? rest else some (.char c, rest))
    (fun _ => .ite contained_escape? (.answer _)) rfl anyAtom?_cons

theorem contained_classAtom? : Contained fl.classAtom? :=
  contained_anyAtom?.filter fun a => !fl.ascii || a.isNarrow

/-- The first character is used up. -/
theorem classAtom?_suffix {atom : Atom} (h : fl.classAtom? cs = some (atom, rest)) :
    rest <:+ cs.tail := by
  obtain ⟨hatom, -⟩ := Option.filter_eq_some_iff.mp h
  cases cs with
  | nil => cases hatom
  | cons c cs =>
    rw [anyAtom?_cons] at hatom
    split at hatom
    · exact contained_escape?.shrinks hatom
    · cases hatom
      exact List.suffix_rfl

theorem contained_rangeFrom? (first : Atom) : Contained (fl.rangeFrom? first) := by
  refine contained_classAtom?.skip.bind fun last => ?_
  cases first with
  | char a =>
    cases last with
    | char b => exact .ite (.answer _) .nothing
    | set | look => exact .nothing
  | set | look => exact .nothing

theorem itemFrom?_hyphen (first : Atom) (single : CodeSet) (after : List Char) :
    fl.itemFrom? first single ('-' :: after) =
      if fl.endsRange after then some (single, '-' :: after) else fl.rangeFrom? first after := rfl

theorem itemFrom?_of_ne {c : Char} (h : c ≠ '-') (first : Atom) (single : CodeSet) :
    fl.itemFrom? first single (c :: rest) = some (single, c :: rest) := by
  unfold Flags.itemFrom?
  split
  · next heq => cases heq
  · next heq => exact absurd (List.cons.inj heq).1 h
  · rfl

theorem itemFrom?_suffix {first : Atom} {single s : CodeSet}
    (h : fl.itemFrom? first single cs = some (s, rest)) : rest <:+ cs := by
  cases cs with
  | nil => cases h
  | cons c cs =>
    by_cases hc : c = '-'
    · subst hc
      rw [itemFrom?_hyphen] at h
      split at h
      · cases h
        exact List.suffix_rfl
      · exact ((contained_rangeFrom? first).shrinks h).trans (List.suffix_cons _ _)
    · rw [itemFrom?_of_ne hc] at h
      cases h
      exact List.suffix_rfl

/-- An item of the text alone, or one that reads into the ending. -/
theorem itemFrom?_ending {first : Atom} {single s : CodeSet}
    (h : fl.itemFrom? first single (cs ++ ending) = some (s, rest)) :
    (∃ back, rest = back ++ ending ∧ fl.itemFrom? first single cs = some (s, back)) ∨
      rest <:+ ending := by
  cases cs with
  | nil => exact .inr (itemFrom?_suffix h)
  | cons c cs =>
    rw [List.cons_append] at h
    by_cases hc : c = '-'
    · subst hc
      rw [itemFrom?_hyphen, endsRange_ending] at h
      rw [itemFrom?_hyphen]
      by_cases hends : fl.endsRange cs = true
      · rw [if_pos hends] at h ⊢
        cases h
        exact .inl ⟨_, rfl, rfl⟩
      · rw [if_neg hends] at h ⊢
        exact ((contained_rangeFrom? first).stays h).imp_right
          (·.trans (List.suffix_cons _ _))
    · rw [itemFrom?_of_ne hc] at h ⊢
      cases h
      exact .inl ⟨_, rfl, rfl⟩

theorem classItem?_eq_some_iff {s : CodeSet} :
    fl.classItem? cs = some (s, rest) ↔
      ∃ first mid single, fl.classAtom? cs = some (first, mid) ∧ first.members? = some single ∧
        fl.itemFrom? first single (fl.skip mid) = some (s, rest) := by
  unfold Flags.classItem?
  constructor
  · intro h
    obtain ⟨⟨first, mid⟩, hatom, h⟩ := Option.bind_eq_some_iff.mp h
    obtain ⟨single, hsingle, hitem⟩ := Option.bind_eq_some_iff.mp h
    exact ⟨first, mid, single, hatom, hsingle, hitem⟩
  · rintro ⟨first, mid, single, hatom, hsingle, hitem⟩
    refine Option.bind_eq_some_iff.mpr ⟨(first, mid), hatom, ?_⟩
    exact Option.bind_eq_some_iff.mpr ⟨single, hsingle, hitem⟩

theorem classItem?_suffix {s : CodeSet} (h : fl.classItem? cs = some (s, rest)) :
    rest <:+ cs.tail := by
  obtain ⟨first, mid, single, hatom, -, hitem⟩ := classItem?_eq_some_iff.mp h
  exact ((itemFrom?_suffix hitem).trans (fl.skip_suffix mid)).trans (classAtom?_suffix hatom)

theorem classItem?_ending {s : CodeSet} (h : fl.classItem? (cs ++ ending) = some (s, rest)) :
    (∃ back, rest = back ++ ending ∧ fl.classItem? cs = some (s, back)) ∨ rest <:+ ending := by
  obtain ⟨first, mid, single, hatom, hsingle, hitem⟩ := classItem?_eq_some_iff.mp h
  rcases contained_classAtom?.stays hatom with ⟨back, rfl, halone⟩ | hover
  · rcases fl.skip_ending back with hskip | ⟨-, hskip⟩
    · rw [hskip] at hitem
      refine (itemFrom?_ending hitem).imp_left fun ⟨back', hrest, hback⟩ => ⟨back', hrest, ?_⟩
      exact classItem?_eq_some_iff.mpr ⟨first, back, single, halone, hsingle, hback⟩
    · rw [hskip] at hitem
      cases hitem
  · exact .inr ((((itemFrom?_suffix hitem).trans (fl.skip_suffix mid)).trans hover).trans
      (List.suffix_cons _ _))

/-! ### The steps of a class -/

theorem openClass_of_skip {cs mid : List Char} (h : fl.skip cs = mid) :
    fl.openClass cs = if mid.head? = some '^' then ({ negated := true }, mid.tail)
      else ({ negated := false }, mid) := by
  unfold Flags.openClass
  rw [h]
  split
  · rfl
  · next hother =>
    rw [if_neg]
    intro hhead
    obtain ⟨rest, rfl⟩ := List.head?_eq_some_iff.mp hhead
    exact hother rest rfl

theorem openClass_suffix (cs : List Char) : (fl.openClass cs).2 <:+ cs := by
  rw [openClass_of_skip rfl]
  split
  · exact (List.tail_suffix _).trans (fl.skip_suffix cs)
  · exact fl.skip_suffix cs

theorem openClass_ending (cs : List Char) :
    fl.openClass (cs ++ ending) = ((fl.openClass cs).1, (fl.openClass cs).2 ++ ending) ∨
      (fl.openClass (cs ++ ending)).2 = [] := by
  rcases fl.skip_ending cs with hskip | ⟨-, hskip⟩
  · left
    rw [openClass_of_skip hskip, openClass_of_skip rfl]
    by_cases hhat : (fl.skip cs).head? = some '^'
    · obtain ⟨rest, hrest⟩ := List.head?_eq_some_iff.mp hhat
      rw [hrest]
      rfl
    · rw [if_neg (head?_append_ending (by decide) hhat), if_neg hhat]
  · right
    rw [openClass_of_skip hskip]
    rfl

variable {o : OpenClass} {outer : List OpenClass} {turn : ClassTurn}

theorem map_adding_suffix (h : (fl.classItem? cs).map (o.adding outer) = some (turn, rest)) :
    rest <:+ cs.tail := by
  obtain ⟨p, hp, hpair⟩ := Option.map_eq_some_iff.mp h
  cases hpair
  exact classItem?_suffix hp

theorem closeStep?_eq_some (h : fl.closeStep? outer o cs = some (turn, rest)) : rest = cs := by
  unfold Flags.closeStep? at h
  split at h
  · cases h
    rfl
  · obtain ⟨p, -, hp⟩ := Option.map_eq_some_iff.mp h
    split at hp
    · cases hp
      rfl
    · cases hp
      rfl

theorem openStep?_suffix (h : fl.openStep? outer o cs = some (turn, rest)) : rest <:+ cs := by
  unfold Flags.openStep? at h
  split at h
  · next hnamed =>
    obtain ⟨p, -, hp⟩ := Option.map_eq_some_iff.mp h
    cases hp
    exact namedClass?_suffix hnamed
  · cases h
    exact openClass_suffix _

theorem hyphenStep?_suffix (h : fl.hyphenStep? outer o cs = some (turn, rest)) : rest <:+ cs := by
  unfold Flags.hyphenStep? at h
  split at h
  · cases h
    exact List.suffix_rfl
  split at h
  · cases h
    exact List.suffix_cons _ _
  · exact map_adding_suffix h

theorem classStep?_suffix (h : fl.classStep? outer o cs = some (turn, rest)) :
    rest <:+ cs.tail := by
  unfold Flags.classStep? at h
  dsimp only at h
  split at h
  · cases h
  · exact hyphenStep?_suffix h
  · exact closeStep?_eq_some h ▸ List.suffix_rfl
  · exact openStep?_suffix h
  · cases h
    exact List.suffix_cons _ _
  · cases h
    exact List.suffix_cons _ _
  · exact map_adding_suffix h

/-- Only a bracket closes a class. -/
theorem head?_of_done {p : Part} (h : fl.classStep? outer o cs = some (.done p, rest)) :
    cs.head? = some ']' := by
  have hitem : ∀ {cs : List Char} {o : OpenClass},
      (fl.classItem? cs).map (o.adding outer) ≠ some (.done p, rest) := by
    intro cs o h
    obtain ⟨p, -, hpair⟩ := Option.map_eq_some_iff.mp h
    cases hpair
  unfold Flags.classStep? at h
  dsimp only at h
  split at h
  · cases h
  · unfold Flags.hyphenStep? at h
    split at h
    · cases h
    split at h
    · cases h
    · exact absurd h hitem
  · rfl
  · unfold Flags.openStep? at h
    split at h
    · obtain ⟨p, -, hp⟩ := Option.map_eq_some_iff.mp h
      cases hp
    · cases h
  · cases h
  · cases h
  · exact absurd h hitem

/-! ### Steps in front of the ending -/

/-- A step of the text alone, or one that reads into the ending and leaves the class open. -/
def Within (step? : List Char → Option (ClassTurn × List Char)) : Prop :=
  ∀ {cs turn rest}, step? (cs ++ ending) = some (turn, rest) →
    (∃ back, rest = back ++ ending ∧ step? cs = some (turn, back)) ∨
      rest <:+ ending ∧ ∃ outer o, turn = .inside outer o

theorem within_item (outer : List OpenClass) (o : OpenClass) :
    Within fun cs => (fl.classItem? cs).map (o.adding outer) := by
  intro cs turn rest h
  obtain ⟨⟨s, rest⟩, hp, hpair⟩ := Option.map_eq_some_iff.mp h
  cases hpair
  rcases classItem?_ending hp with ⟨back, rfl, halone⟩ | hover
  · exact .inl ⟨back, rfl, Option.map_eq_some_iff.mpr ⟨_, halone, rfl⟩⟩
  · exact .inr ⟨hover, _, _, rfl⟩

theorem within_closeStep? (outer : List OpenClass) (o : OpenClass) :
    Within (fl.closeStep? outer o) := by
  intro cs turn rest h
  left
  unfold Flags.closeStep? at h ⊢
  by_cases hliteral : (o.atStart && o.count = 0) = true
  · rw [if_pos hliteral] at h ⊢
    cases h
    exact ⟨cs, rfl, rfl⟩
  · rw [if_neg hliteral] at h ⊢
    obtain ⟨p, hp, hturn⟩ := Option.map_eq_some_iff.mp h
    rw [hp]
    cases outer with
    | nil =>
      cases hturn
      exact ⟨cs, rfl, rfl⟩
    | cons next outer =>
      cases hturn
      exact ⟨cs, rfl, rfl⟩

theorem within_openStep? (outer : List OpenClass) (o : OpenClass) :
    Within (fl.openStep? outer o) := by
  intro cs turn rest h
  unfold Flags.openStep? at h ⊢
  rw [namedClass?_ending] at h
  cases hnamed : namedClass? cs with
  | some p =>
    obtain ⟨negated, s, back⟩ := p
    rw [hnamed] at h
    obtain ⟨s', hs, hturn⟩ := Option.map_eq_some_iff.mp h
    cases hturn
    exact .inl ⟨back, rfl, Option.map_eq_some_iff.mpr ⟨s', hs, rfl⟩⟩
  | none =>
    rw [hnamed] at h
    have hopen := @openClass_ending fl cs
    rw [Option.map_none] at h
    rcases hopen with hopen | hopen
    · rw [hopen] at h
      cases h
      exact .inl ⟨_, rfl, rfl⟩
    · cases h
      exact .inr ⟨hopen ▸ List.nil_suffix, _, _, rfl⟩

theorem within_hyphenStep? (outer : List OpenClass) (o : OpenClass) :
    Within (fl.hyphenStep? outer o) := by
  intro cs turn rest h
  by_cases hstart : o.atStart = true
  · unfold Flags.hyphenStep? at h ⊢
    rw [if_pos hstart] at h ⊢
    cases h
    exact .inl ⟨cs, rfl, rfl⟩
  have hitem : ∀ cs : List Char, cs.head? ≠ some '-' →
      fl.hyphenStep? outer o cs = (fl.classItem? ('-' :: cs)).map (o.adding outer) := by
    intro cs hcs
    unfold Flags.hyphenStep?
    rw [if_neg hstart]
    split
    · exact absurd rfl hcs
    · rfl
  by_cases hnext : cs.head? = some '-'
  · obtain ⟨cs, rfl⟩ := List.head?_eq_some_iff.mp hnext
    unfold Flags.hyphenStep? at h ⊢
    rw [if_neg hstart] at h ⊢
    cases h
    exact .inl ⟨cs, rfl, rfl⟩
  · rw [hitem _ (head?_append_ending (by decide) hnext)] at h
    rw [hitem _ hnext]
    exact @within_item fl outer o ('-' :: cs) _ _ h

theorem classStep?_item {c : Char} (hhyphen : c ≠ '-') (hclose : c ≠ ']') (hopen : c ≠ '[')
    (hpair : ¬((c = '&' ∨ c = '~') ∧ cs.head? = some c)) :
    fl.classStep? outer o (c :: cs) =
      (fl.classItem? (c :: cs)).map (OpenClass.adding { o with atStart := false } outer) := by
  unfold Flags.classStep?
  dsimp only
  split
  · next heq => cases heq
  · next heq => exact absurd (List.cons.inj heq).1 hhyphen
  · next heq => exact absurd (List.cons.inj heq).1 hclose
  · next heq => exact absurd (List.cons.inj heq).1 hopen
  · next heq =>
    cases heq
    exact absurd ⟨.inl rfl, rfl⟩ hpair
  · next heq =>
    cases heq
    exact absurd ⟨.inr rfl, rfl⟩ hpair
  · rfl

theorem within_classStep? (outer : List OpenClass) (o : OpenClass) :
    Within (fl.classStep? outer o) := by
  intro cs turn rest h
  cases cs with
  | nil =>
    refine .inr ⟨(classStep?_suffix h).trans (List.tail_suffix _), ?_⟩
    cases turn with
    | inside outer o => exact ⟨outer, o, rfl⟩
    | done p => exact absurd (head?_of_done h) (by decide)
  | cons c cs =>
    rw [List.cons_append] at h
    by_cases hhyphen : c = '-'
    · subst hhyphen
      exact within_hyphenStep? outer o h
    by_cases hclose : c = ']'
    · subst hclose
      exact within_closeStep? outer o h
    by_cases hopen : c = '['
    · subst hopen
      exact within_openStep? outer _ h
    by_cases hpair : (c = '&' ∨ c = '~') ∧ cs.head? = some c
    · obtain ⟨hc, hhead⟩ := hpair
      obtain ⟨cs, rfl⟩ := List.head?_eq_some_iff.mp hhead
      left
      rcases hc with rfl | rfl
      · cases h
        exact ⟨cs, rfl, rfl⟩
      · cases h
        exact ⟨cs, rfl, rfl⟩
    · have hpair' : ¬((c = '&' ∨ c = '~') ∧ (cs ++ ending).head? = some c) := by
        rintro ⟨hc, hhead⟩
        have hparenthesis : c ≠ ')' := by
          rintro rfl
          exact absurd hc (by decide)
        exact head?_append_ending hparenthesis (fun h => hpair ⟨hc, h⟩) hhead
      rw [classStep?_item hhyphen hclose hopen hpair'] at h
      rw [classStep?_item hhyphen hclose hopen hpair]
      exact @within_item fl outer _ (c :: cs) _ _ h

/-! ### Classes -/

/-- A class without a bracket to close it is none. -/
theorem classFrom?_eq_none {fuel : Nat} (h : ']' ∉ fl.skip cs) :
    fl.classFrom? fuel outer o cs = none := by
  induction fuel generalizing outer o cs with
  | zero => rfl
  | succ fuel ih =>
    unfold Flags.classFrom?
    split
    · next outer o rest hstep =>
      refine ih fun hmem => h ?_
      have hrest := ((fl.skip_suffix rest).trans (classStep?_suffix hstep)).trans (List.tail_suffix _)
      exact hrest.subset hmem
    · next p rest hstep =>
      exact absurd (List.mem_of_mem_head? (head?_of_done hstep)) h
    · rfl

/-- Every step uses a character. -/
theorem length_of_classStep? (h : fl.classStep? outer o (fl.skip cs) = some (turn, rest)) :
    rest.length < cs.length := by
  refine fl.length_lt_of_skip (fun hnil => ?_) (classStep?_suffix h)
  rw [hnil] at h
  cases h

theorem classFrom?_suffix {fuel : Nat} {p : Part}
    (h : fl.classFrom? fuel outer o cs = some (p, rest)) : rest <:+ cs := by
  have hstep : ∀ {cs outer o turn rest},
      fl.classStep? outer o (fl.skip cs) = some (turn, rest) → rest <:+ cs := fun h =>
    ((classStep?_suffix h).trans (List.tail_suffix _)).trans (fl.skip_suffix _)
  induction fuel generalizing outer o cs with
  | zero => cases h
  | succ fuel ih =>
    unfold Flags.classFrom? at h
    split at h
    · next hinside => exact (ih h).trans (hstep hinside)
    · next hdone =>
      cases h
      exact hstep hdone
    · cases h

/-- A class that is closed is closed in front of the ending, and it is the same one there. -/
theorem classFrom?_ending {fuel : Nat} {p : Part}
    (h : fl.classFrom? fuel outer o (cs ++ ending) = some (p, rest)) :
    ∃ back, rest = back ++ ending ∧
      ∀ more, cs.length < more → fl.classFrom? more outer o cs = some (p, back) := by
  induction fuel generalizing outer o cs with
  | zero => cases h
  | succ fuel ih =>
    rcases fl.skip_ending cs with hskip | ⟨-, hskip⟩
    · unfold Flags.classFrom? at h
      rw [hskip] at h
      split at h
      · next hstep =>
        rcases within_classStep? outer o hstep with ⟨back, rfl, halone⟩ | ⟨hover, -⟩
        · obtain ⟨back', hrest, hmore⟩ := ih h
          refine ⟨back', hrest, fun more hlength => ?_⟩
          have hback := length_of_classStep? halone
          obtain ⟨more, rfl⟩ : ∃ n, more = n + 1 := ⟨more - 1, by omega⟩
          unfold Flags.classFrom?
          rw [halone]
          exact hmore more (by omega)
        · -- no bracket is left behind a step that has read into the ending
          rw [classFrom?_eq_none] at h
          · cases h
          · intro hmem
            have hending := ((fl.skip_suffix _).trans hover).subset hmem
            exact absurd hending (by decide)
      · next hstep =>
        cases h
        rcases within_classStep? outer o hstep with ⟨back, hrest, halone⟩ | ⟨-, _, _, hinside⟩
        · refine ⟨back, hrest, fun more hlength => ?_⟩
          obtain ⟨more, rfl⟩ : ∃ n, more = n + 1 := ⟨more - 1, by omega⟩
          unfold Flags.classFrom?
          rw [halone]
        · cases hinside
      · cases h
    · rw [classFrom?_eq_none (by rw [hskip]; exact List.not_mem_nil)] at h
      cases h

theorem contained_class? : Contained fl.class? := by
  constructor
  · intro cs p rest h
    exact (classFrom?_suffix h).trans (openClass_suffix cs)
  · intro cs p rest h
    left
    unfold Flags.class? at h ⊢
    dsimp only at h ⊢
    have hopen := @openClass_ending fl cs
    rcases hopen with hopen | hopen
    · rw [hopen] at h
      obtain ⟨back, hrest, hmore⟩ := classFrom?_ending h
      exact ⟨back, hrest, hmore _ (Nat.lt_succ_of_le (openClass_suffix cs).length_le)⟩
    · rw [hopen, classFrom?_eq_none] at h
      · cases h
      · exact fun hmem => absurd ((fl.skip_suffix []).subset hmem) List.not_mem_nil

end XmlBinding.Regex
