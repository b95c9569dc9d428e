import Mathlib.Tactic.Tauto
import XmlBinding.Proofs.Expression

/-!
# Expressions run on lists of places

An expression is run on a list of places, and the list that it comes to holds exactly the places
that it leads to. No list has to be in order for that: two places of one text with the same number
are the same, so a place that is dropped because of its number is not lost.
-/
namespace XmlBinding.Regex

variable {text : List Char} {p q s : Split} {R : Split → Split → Prop}

/-! ### Lists of places -/

/-- A list holds the places of those cuts of a text that have a property. -/
def Represents (text : List Char) (ps : List Place) (S : Split → Prop) : Prop :=
  ∀ x, x ∈ ps ↔ ∃ s, s.whole = text ∧ S s ∧ s.place = x

variable {ps qs : List Place} {S T : Split → Prop}

/-- Places of one text that have the same number are the same. -/
theorem Represents.eq_of_index (hps : Represents text ps S) (hqs : Represents text qs T)
    {x y : Place} (hx : x ∈ ps) (hy : y ∈ qs) (h : x.index = y.index) : x = y := by
  obtain ⟨s, hs, -, rfl⟩ := (hps x).mp hx
  obtain ⟨t, ht, -, rfl⟩ := (hqs y).mp hy
  rw [Split.eq_of_length (ht.trans hs.symm) h]

theorem Represents.place_mem_iff (h : Represents text ps S) (hs : s.whole = text) :
    s.place ∈ ps ↔ S s := by
  refine (h _).trans ⟨?_, fun hS => ⟨s, hs, hS, rfl⟩⟩
  rintro ⟨t, ht, hS, hplace⟩
  rwa [Split.eq_of_length (ht.trans hs.symm) (congrArg Place.index hplace.symm)]

theorem represents_nil : Represents text [] fun _ => False := by simp [Represents]

theorem Represents.congr (h : Represents text ps S) (hST : ∀ s, s.whole = text → (S s ↔ T s)) :
    Represents text ps T := by
  refine fun x => (h x).trans (exists_congr fun s => and_congr_right fun hs => ?_)
  rw [hST s hs]

theorem represents_isEmpty (h : Represents text ps S) :
    ps.isEmpty = true ↔ ∀ s, s.whole = text → ¬S s := by
  rw [List.isEmpty_iff, List.eq_nil_iff_forall_not_mem]
  constructor
  · intro hnone s hs hS
    exact hnone s.place ((h.place_mem_iff hs).mpr hS)
  · intro hnone x hx
    obtain ⟨s, hs, hS, -⟩ := (h x).mp hx
    exact hnone s hs hS

theorem mem_mergeInto {x y : Place} {next : List Place → List Place} {l : List Place}
    (hsame : ∀ q ∈ l, x.index = q.index → q = x)
    (hnext : ∀ l', l' <:+ l → (y ∈ next l' ↔ y ∈ ps ∨ y ∈ l')) :
    y ∈ mergeInto x next l ↔ y = x ∨ y ∈ ps ∨ y ∈ l := by
  induction l with
  | nil =>
    rw [mergeInto, List.mem_cons, hnext [] List.suffix_rfl]
  | cons q rest ih =>
    have hrest := ih (fun q' hq' => hsame q' (List.mem_cons_of_mem _ hq'))
      fun l' hl' => hnext l' (hl'.trans (List.suffix_cons _ _))
    unfold mergeInto
    split
    · rw [List.mem_cons, hnext _ List.suffix_rfl]
    split
    · rw [List.mem_cons, hrest, List.mem_cons]
      tauto
    · obtain rfl := hsame q List.mem_cons_self (by omega)
      rw [List.mem_cons, hnext rest (List.suffix_cons _ _), List.mem_cons]
      tauto

theorem mem_union {x : Place} (hsame : ∀ p ∈ ps, ∀ q ∈ qs, p.index = q.index → q = p) :
    x ∈ union ps qs ↔ x ∈ ps ∨ x ∈ qs := by
  induction ps generalizing qs with
  | nil => simp [union]
  | cons p rest ih =>
    have hrest : ∀ l', l' <:+ qs → (x ∈ union rest l' ↔ x ∈ rest ∨ x ∈ l') := fun l' hl' =>
      ih fun p' hp' q hq => hsame p' (List.mem_cons_of_mem _ hp') q (hl'.subset hq)
    rw [union, mem_mergeInto (hsame p List.mem_cons_self) hrest, List.mem_cons, or_assoc]

theorem Represents.union (hps : Represents text ps S) (hqs : Represents text qs T) :
    Represents text (union ps qs) fun s => S s ∨ T s := by
  intro x
  rw [mem_union fun p hp q hq h => (hps.eq_of_index hqs hp hq h).symm, hps x, hqs x]
  constructor
  · rintro (⟨s, hs, hS, rfl⟩ | ⟨s, hs, hT, rfl⟩)
    · exact ⟨s, hs, .inl hS, rfl⟩
    · exact ⟨s, hs, .inr hT, rfl⟩
  · rintro ⟨s, hs, hS | hT, rfl⟩
    · exact .inl ⟨s, hs, hS, rfl⟩
    · exact .inr ⟨s, hs, hT, rfl⟩

/-! ### What a list of places becomes -/

/-- The cuts that a relation leads to from those with a property. -/
def Image (R : Split → Split → Prop) (S : Split → Prop) (q : Split) : Prop := ∃ p, S p ∧ R p q

/-- A step on lists of places leads from each place to where the relation leads from it. -/
def Realizes (text : List Char) (f : List Place → List Place) (R : Split → Split → Prop) : Prop :=
  ∀ ps S, Represents text ps S → Represents text (f ps) (Image R S)

variable {f : List Place → List Place}

/-- From no places nothing is reached. -/
theorem Represents.image_nil (hR : ∀ p q, R p q → Onward p q) (h : Represents text [] S) :
    Represents text [] (Image R S) := by
  refine represents_nil.congr fun q hq => iff_of_false id ?_
  rintro ⟨p, hS, hp⟩
  exact List.not_mem_nil ((h.place_mem_iff ((hR p q hp).whole.symm.trans hq)).mpr hS)

theorem realizes_advance (holds : Char → Bool) :
    Realizes text (advance holds) fun p q => ∃ c, holds c = true ∧ p.Passes c q := by
  intro ps S h x
  unfold advance
  rw [List.mem_filterMap]
  constructor
  · rintro ⟨y, hy, hx⟩
    obtain ⟨⟨front, back⟩, hs, hS, rfl⟩ := (h y).mp hy
    cases back with
    | nil => cases hx
    | cons c rest =>
      simp only [Split.place] at hx
      split at hx
      · next hc =>
        obtain rfl := Option.some.inj hx
        refine ⟨⟨front ++ [c], rest⟩, ?_, ⟨_, hS, c, hc, rfl, rfl⟩, ?_⟩
        · rw [← hs, Split.whole, Split.whole, List.append_assoc]
          rfl
        · simp [Split.place]
      · cases hx
  · rintro ⟨q, hq, ⟨p, hS, c, hc, hpass⟩, rfl⟩
    have hp : p.whole = text := hpass.onward.whole.symm.trans hq
    refine ⟨p.place, (h.place_mem_iff hp).mpr hS, ?_⟩
    obtain ⟨hback, hfront⟩ := hpass
    simp [Split.place, hback, hfront, hc]

theorem realizes_filter (condition : Look) :
    Realizes text (fun ps => ps.filter fun p => condition.holds p.before p.rest.head?)
      fun p q => p = q ∧ condition.holds p.front.getLast? p.back.head? = true := by
  intro ps S h x
  rw [List.mem_filter, h x]
  constructor
  · rintro ⟨⟨s, hs, hS, rfl⟩, hholds⟩
    exact ⟨s, hs, ⟨s, hS, rfl, hholds⟩, rfl⟩
  · rintro ⟨s, hs, ⟨p, hS, rfl, hholds⟩, rfl⟩
    exact ⟨⟨p, hs, hS, rfl⟩, hholds⟩

/-! ### Repetitions -/

theorem realizes_power (hf : Realizes text f R) (hR : ∀ p q, R p q → Onward p q) (n : Nat) :
    Realizes text (power f n) (Iterated R n) := by
  induction n with
  | zero =>
    intro ps S h
    exact h.congr fun s _ => ⟨fun hS => ⟨s, hS, rfl⟩, fun ⟨p, hS, hp⟩ => hp ▸ hS⟩
  | succ n ih =>
    intro ps S h
    rw [power]
    split
    · next hempty =>
      obtain rfl := List.isEmpty_iff.mp hempty
      exact h.image_nil fun _ _ => Iterated.onward hR
    · refine (ih _ _ (hf ps S h)).congr fun q _ => ?_
      constructor
      · rintro ⟨m, ⟨p, hS, hstep⟩, hrest⟩
        exact ⟨p, hS, m, hstep, hrest⟩
      · rintro ⟨p, hS, m, hstep, hrest⟩
        exact ⟨m, ⟨p, hS, hstep⟩, hrest⟩

theorem mem_dropKnown {x y : Place} {next : List Place → List Place} {l : List Place}
    (hnext : ∀ l', l' <:+ l → y ∈ next l' → y ∈ ps) (h : y ∈ dropKnown x next l) :
    y = x ∨ y ∈ ps := by
  induction l with
  | nil => exact (List.mem_cons.mp h).imp_right (hnext [] List.suffix_rfl)
  | cons q rest ih =>
    unfold dropKnown at h
    split at h
    · exact (List.mem_cons.mp h).imp_right (hnext _ List.suffix_rfl)
    split at h
    · exact ih (fun l' hl' => hnext l' (hl'.trans (List.suffix_cons _ _))) h
    · exact .inr (hnext rest (List.suffix_cons _ _) h)

/-- What is dropped is known. -/
theorem mem_dropKnown_or {x y : Place} {next : List Place → List Place} {l : List Place}
    (hsame : ∀ q ∈ l, x.index = q.index → q = x)
    (hnext : ∀ l', l' <:+ l → y ∈ ps → y ∈ next l' ∨ y ∈ l') (h : y = x ∨ y ∈ ps) :
    y ∈ dropKnown x next l ∨ y ∈ l := by
  induction l with
  | nil =>
    rw [dropKnown]
    refine .inl (List.mem_cons.mpr (h.imp_right fun hy => ?_))
    exact (hnext [] List.suffix_rfl hy).resolve_right List.not_mem_nil
  | cons q rest ih =>
    unfold dropKnown
    split
    · rcases h with rfl | hy
      · exact .inl List.mem_cons_self
      · exact (hnext _ List.suffix_rfl hy).imp_left (List.mem_cons_of_mem _)
    split
    · refine (ih (fun q' hq' => hsame q' (List.mem_cons_of_mem _ hq')) ?_).imp_right
        (List.mem_cons_of_mem _)
      exact fun l' hl' => hnext l' (hl'.trans (List.suffix_cons _ _))
    · obtain rfl := hsame q List.mem_cons_self (by omega)
      rcases h with rfl | hy
      · exact .inr List.mem_cons_self
      · exact (hnext rest (List.suffix_cons _ _) hy).imp_right (List.mem_cons_of_mem _)

theorem except_subset {x : Place} (h : x ∈ except ps qs) : x ∈ ps := by
  induction ps generalizing qs with
  | nil => exact h
  | cons p rest ih =>
    exact List.mem_cons.mpr (mem_dropKnown (fun l' _ h' => ih h') h)

theorem mem_except_or {x : Place} (hsame : ∀ p ∈ ps, ∀ q ∈ qs, p.index = q.index → q = p)
    (h : x ∈ ps) : x ∈ except ps qs ∨ x ∈ qs := by
  induction ps generalizing qs with
  | nil => cases h
  | cons p rest ih =>
    refine mem_dropKnown_or (hsame p List.mem_cons_self) (fun l' hl' h' => ?_)
      (List.mem_cons.mp h)
    exact ih (fun p' hp' q hq => hsame p' (List.mem_cons_of_mem _ hp') q (hl'.subset hq)) h'

/-- Places that are not in a second list, as far as it goes by. -/
theorem represents_except (hps : Represents text ps S) (hqs : Represents text qs T) :
    ∃ N, Represents text (except ps qs) N ∧ (∀ s, s.whole = text → N s → S s) ∧
      ∀ s, s.whole = text → S s → N s ∨ T s := by
  have hsame : ∀ p ∈ ps, ∀ q ∈ qs, p.index = q.index → q = p := fun p hp q hq hindex =>
    (hps.eq_of_index hqs hp hq hindex).symm
  refine ⟨fun s => s.place ∈ except ps qs, fun x => ⟨fun hx => ?_, ?_⟩, fun s hs hN => ?_,
    fun s hs hS => ?_⟩
  · obtain ⟨s, hs, -, rfl⟩ := (hps x).mp (except_subset hx)
    exact ⟨s, hs, hx, rfl⟩
  · rintro ⟨s, -, hN, rfl⟩
    exact hN
  · exact (hps.place_mem_iff hs).mp (except_subset hN)
  · exact (mem_except_or hsame ((hps.place_mem_iff hs).mpr hS)).imp_right
      (hqs.place_mem_iff hs).mp

/-- Of the cuts seen so far only the fresh ones can lead to others. -/
structure Frontier (text : List Char) (R : Split → Split → Prop) (seen fresh : Split → Prop) :
    Prop where
  known : ∀ s, s.whole = text → fresh s → seen s
  closed : ∀ s t, s.whole = text → seen s → R s t → seen t ∨ fresh s

/-- Where nothing fresh is left, a repetition has come to an end. -/
theorem Frontier.iterated (h : Frontier text R S T) (hR : ∀ p q, R p q → Onward p q)
    (hnone : ∀ s, s.whole = text → ¬T s) {k : Nat} (hp : p.whole = text) (hS : S p)
    (hpq : Iterated R k p q) : S q := by
  induction k generalizing p with
  | zero => exact hpq ▸ hS
  | succ k ih =>
    obtain ⟨m, hstep, hrest⟩ := hpq
    have hm : S m := (h.closed p m hp hS hstep).resolve_right (hnone p hp)
    exact ih ((hR p m hstep).whole.trans hp) hm hrest

/-- The rounds of a repetition collect what up to that many rounds come to. -/
theorem represents_upTo (hf : Realizes text f R) (hR : ∀ p q, R p q → Onward p q) (n : Nat)
    {seen fresh : List Place} (hseen : Represents text seen S) (hfresh : Represents text fresh T)
    (h : Frontier text R S T) :
    Represents text (upTo f n seen fresh) (Image (fun p q => ∃ k ≤ n, Iterated R k p q) S) := by
  induction n generalizing seen fresh S T with
  | zero =>
    refine hseen.congr fun q _ => ⟨fun hS => ⟨q, hS, 0, Nat.le_refl 0, rfl⟩, ?_⟩
    rintro ⟨p, hS, k, hk, hp⟩
    obtain rfl := Nat.le_zero.mp hk
    exact hp ▸ hS
  | succ n ih =>
    rw [upTo]
    split
    · next hempty =>
      have hnone := (represents_isEmpty hfresh).mp hempty
      refine hseen.congr fun q hq => ⟨fun hS => ⟨q, hS, 0, Nat.zero_le _, rfl⟩, ?_⟩
      rintro ⟨p, hS, k, -, hp⟩
      exact h.iterated hR hnone ((hp.onward hR).whole.symm.trans hq) hS hp
    · obtain ⟨N, hN, hsub, hor⟩ := represents_except (hf fresh T hfresh) hseen
      have hnext : Frontier text R (fun s => N s ∨ S s) N := by
        refine ⟨fun s _ => .inl, fun s t hs hNS hst => ?_⟩
        rcases hNS with hNs | hSs
        · exact .inr hNs
        · have ht : t.whole = text := (hR s t hst).whole.trans hs
          rcases h.closed s t hs hSs hst with hSt | hTs
          · exact .inl (.inr hSt)
          · exact .inl (hor t ht ⟨s, hTs, hst⟩)
      refine (ih (hN.union hseen) hN hnext).congr fun q hq => ⟨?_, ?_⟩
      · rintro ⟨p, hNp | hSp, k, hk, hp⟩
        · have hpw := (hp.onward hR).whole.symm.trans hq
          obtain ⟨m, hTm, hstep⟩ := hsub p hpw hNp
          have hmw := (hR m p hstep).whole.symm.trans hpw
          exact ⟨m, h.known m hmw hTm, k + 1, Nat.succ_le_succ hk, p, hstep, hp⟩
        · exact ⟨p, hSp, k, Nat.le_succ_of_le hk, hp⟩
      · rintro ⟨p, hSp, k, hk, hp⟩
        have hpw := (hp.onward hR).whole.symm.trans hq
        cases k with
        | zero => exact ⟨p, .inr hSp, 0, Nat.zero_le _, hp⟩
        | succ k =>
          obtain ⟨m, hstep, hrest⟩ := hp
          have hmw := (hR p m hstep).whole.trans hpw
          refine ⟨m, ?_, k, Nat.le_of_succ_le_succ hk, hrest⟩
          rcases h.closed p m hpw hSp hstep with hSm | hTp
          · exact .inr hSm
          · exact hor m hmw ⟨p, hTp, hstep⟩

/-! ### The places that an expression leads to -/

mutual

/-- Run on the places of some cuts, an expression comes to the places it leads to. -/
theorem realizes_reach : ∀ r : Regex, Realizes text (reach (text.length + 1) r) (Leads r)
  | .empty => fun ps S h =>
    h.congr fun s _ => ⟨fun hS => ⟨s, hS, rfl⟩, fun ⟨_, hS, hp⟩ => hp ▸ hS⟩
  | .char c => fun ps S h => by
    refine (realizes_advance (· == c) ps S h).congr fun q _ => ?_
    simp [Image, Leads]
  | .set members => realizes_advance members.contains
  | .look condition => realizes_filter condition
  | .seq parts => realizes_reachAll parts
  | .either branches => realizes_reachAny branches
  | .times least most greedy inner => fun ps S h => by
    have hinner := realizes_reach inner
    have honward : ∀ p q, Leads inner p q → Onward p q := fun _ _ => Leads.onward
    have hfirst := realizes_power hinner honward (min least (text.length + 1)) ps S h
    have hrounds := represents_upTo hinner honward (rounds (text.length + 1) least most) hfirst
      hfirst ⟨fun _ _ => id, fun _ _ _ hS _ => .inr hS⟩
    refine hrounds.congr fun q hq => ⟨?_, ?_⟩
    · rintro ⟨m, ⟨p, hS, hfront⟩, k, hk, hback⟩
      have hp : p.whole = text :=
        ((hfront.onward honward).trans (hback.onward honward)).whole.symm.trans hq
      exact ⟨p, hS, (exists_iterated_iff honward hp least most).mpr ⟨m, hfront, k, hk, hback⟩⟩
    · rintro ⟨p, hS, h⟩
      have hforward : Onward p q := Leads.onward (r := .times least most greedy inner) h
      have hp : p.whole = text := hforward.whole.symm.trans hq
      obtain ⟨m, hfront, k, hk, hback⟩ := (exists_iterated_iff honward hp least most).mp h
      exact ⟨m, ⟨p, hS, hfront⟩, k, hk, hback⟩
  | .group _ inner => realizes_reach inner

theorem realizes_reachAll : ∀ rs : List Regex,
    Realizes text (reachAll (text.length + 1) rs) (LeadsAll rs)
  | [] => fun ps S h =>
    h.congr fun s _ => ⟨fun hS => ⟨s, hS, rfl⟩, fun ⟨_, hS, hp⟩ => hp ▸ hS⟩
  | r :: rest => fun ps S h => by
    rw [reachAll]
    split
    · next hempty =>
      obtain rfl := List.isEmpty_iff.mp hempty
      exact h.image_nil fun _ _ => LeadsAll.onward
    · refine (realizes_reachAll rest _ _ (realizes_reach r ps S h)).congr fun q _ => ⟨?_, ?_⟩
      · rintro ⟨m, ⟨p, hS, hfirst⟩, hrest⟩
        exact ⟨p, hS, m, hfirst, hrest⟩
      · rintro ⟨p, hS, m, hfirst, hrest⟩
        exact ⟨m, ⟨p, hS, hfirst⟩, hrest⟩

theorem realizes_reachAny : ∀ rs : List Regex,
    Realizes text (reachAny (text.length + 1) rs) (LeadsAny rs)
  | [] => fun ps S h => represents_nil.congr fun s _ => ⟨False.elim, fun ⟨_, _, hp⟩ => hp⟩
  | r :: rest => fun ps S h => by
    have hboth := (realizes_reach r ps S h).union (realizes_reachAny rest ps S h)
    refine hboth.congr fun q _ => ⟨?_, ?_⟩
    · rintro (⟨p, hS, hfirst⟩ | ⟨p, hS, hrest⟩)
      · exact ⟨p, hS, .inl hfirst⟩
      · exact ⟨p, hS, .inr hrest⟩
    · rintro ⟨p, hS, hfirst | hrest⟩
      · exact .inl ⟨p, hS, hfirst⟩
      · exact .inr ⟨p, hS, hrest⟩

end

/-! ### Searching a text -/

/-- The places up to a cut are those in front of it and its own. -/
theorem Represents.cons_place {later : List Place} (hp : p.whole = text)
    (h : Represents text later fun s => s.front.length < p.front.length) :
    Represents text (p.place :: later) fun s => s.front.length < p.front.length + 1 := by
  intro x
  rw [List.mem_cons, h x]
  constructor
  · rintro (rfl | ⟨s, hs, hlt, rfl⟩)
    · exact ⟨p, hp, Nat.lt_succ_self _, rfl⟩
    · exact ⟨s, hs, Nat.lt_succ_of_lt hlt, rfl⟩
  · rintro ⟨s, hs, hle, rfl⟩
    rcases Nat.lt_succ_iff_lt_or_eq.mp hle with hlt | heq
    · exact .inr ⟨s, hs, hlt, rfl⟩
    · rw [Split.eq_of_length (hp.trans hs.symm) heq]
      exact .inl rfl

theorem represents_placesFrom (front : List Char) {cs : List Char} {later : List Place}
    (hwhole : front ++ cs = text)
    (h : Represents text later fun s => s.front.length < front.length) :
    Represents text (placesFrom ⟨front.length, front.getLast?, cs⟩ later cs) fun _ => True := by
  have hnext := Represents.cons_place (p := ⟨front, cs⟩) hwhole h
  induction cs generalizing front later with
  | nil =>
    refine hnext.congr fun s hs => iff_of_true ?_ trivial
    rw [List.append_nil] at hwhole
    subst hwhole
    exact Nat.lt_succ_of_le (Split.length_le hs)
  | cons c rest ih =>
    have hwhole' : (front ++ [c]) ++ rest = text := by rw [List.append_assoc]; exact hwhole
    have hlater : Represents text (Split.place ⟨front, c :: rest⟩ :: later)
        fun s => s.front.length < (front ++ [c]).length := by
      simpa only [List.length_append, List.length_singleton] using hnext
    have hrest := ih (front ++ [c]) hwhole' hlater
      (Represents.cons_place (p := ⟨front ++ [c], rest⟩) hwhole' hlater)
    simpa [Split.place, placesFrom] using hrest

theorem represents_places (cs : List Char) : Represents cs (places cs) fun _ => True := by
  refine represents_placesFrom [] rfl (represents_nil.congr fun s _ => ?_)
  exact iff_of_false id (Nat.not_lt_zero _)

/-- An expression occurs in a text if it matches between two places of it. -/
theorem occursIn_iff (r : Regex) (cs : List Char) :
    r.occursIn cs = true ↔ ∃ p q, p.whole = cs ∧ r.Leads p q := by
  have h := realizes_reach r _ _ (represents_places cs)
  rw [occursIn, Bool.not_eq_true', ← Bool.not_eq_true, represents_isEmpty h]
  constructor
  · intro hne
    obtain ⟨q, hq, p, -, hp⟩ : ∃ q, q.whole = cs ∧ Image r.Leads (fun _ => True) q := by
      simpa using hne
    exact ⟨p, q, hp.onward.whole.symm.trans hq, hp⟩
  · rintro ⟨p, q, hp, hleads⟩ hne
    exact hne q (hleads.onward.whole.trans hp) ⟨p, trivial, hleads⟩

end XmlBinding.Regex
