import XmlBinding.Proofs.Coverage
import XmlBinding.Proofs.Registered

/-!
# The competition of patterns

The matcher finds the winner by lookups, by a search for the longest `ancestor/*` and by a running
maximum over the scanned rows. Each search is shown to find what the reference names.
-/
namespace XmlBinding

variable {ρ : Type}

/-! ### Patterns and their segments -/

theorem Pattern.withoutBang_of_ne {key : List Char} (h : key.head? ≠ some '!') :
    withoutBang key = key := by
  unfold withoutBang
  split
  · exact absurd rfl h
  · rfl

theorem Entry.segments_of_competing {e : Entry ρ} (h : e.universal = false) :
    e.segments = Pattern.segments e.pattern.toList := by
  have hhead : e.pattern.toList.head? ≠ some '!' := by simpa [Entry.universal] using h
  rw [Entry.segments, Pattern.withoutBang_of_ne hhead]

theorem Entry.exists_of_universal {e : Entry ρ} (h : e.universal = true) :
    ∃ key, e.pattern.toList = '!' :: key ∧ e.segments = Pattern.segments key := by
  have hhead : e.pattern.toList.head? = some '!' := by simpa [Entry.universal] using h
  obtain ⟨key, hkey⟩ := List.head?_eq_some_iff.mp hhead
  refine ⟨key, hkey, ?_⟩
  rw [Entry.segments, hkey]
  rfl

/-- An entry stands under a pattern without `!` if it competes with the segments of that pattern. -/
theorem Entry.pattern_eq_iff {e : Entry ρ} {key : List Char} (hkey : key.head? ≠ some '!') :
    e.pattern.toList = key ↔ e.universal = false ∧ e.segments = Pattern.segments key := by
  constructor
  · rintro rfl
    have hown : e.universal = false := by simpa [Entry.universal] using hkey
    exact ⟨hown, Entry.segments_of_competing hown⟩
  · rintro ⟨hown, h⟩
    rw [Entry.segments_of_competing hown] at h
    exact Pattern.segments_injective h

theorem Entry.pattern_eq_bang_iff {e : Entry ρ} {key : List Char} :
    e.pattern.toList = '!' :: key ↔ e.universal = true ∧ e.segments = Pattern.segments key := by
  constructor
  · intro h
    constructor
    · rw [Entry.universal, h]
      rfl
    · rw [Entry.segments, h]
      rfl
  · rintro ⟨huniversal, h⟩
    obtain ⟨own, hown, hsegments⟩ := Entry.exists_of_universal huniversal
    rw [hown, Pattern.segments_injective (hsegments.symm.trans h)]

/-- No segment of a checked pattern is empty. -/
theorem Pattern.segments_of_checked {cs : List Char} (h : checkExtended cs = .ok ()) :
    [] ∉ segments (withoutBang cs) := by
  by_cases hall : withoutBang cs = ['*']
  · rw [hall]
    decide
  · intro hmem
    have hany : (segments (withoutBang cs)).any List.isEmpty = true :=
      List.any_eq_true.mpr ⟨[], hmem, rfl⟩
    have hsegments : ∃ cause, checkSegments (withoutBang cs) = .error cause := by
      unfold checkSegments
      rw [if_pos hany]
      split <;> exact ⟨_, rfl⟩
    obtain ⟨cause, hcause⟩ := hsegments
    unfold checkExtended at h
    simp only [bind, Except.bind, pure, Except.pure, throw, throwThe, MonadExceptOf.throw] at h
    rw [if_pos hall, hcause] at h
    split at h
    · cases h
    · split at h <;> cases h

/-! ### The first of the best -/

/-- The first of the best in a list, by some measure. -/
structure FirstBest {α : Type} (w : α → Nat) (xs : List α) (best : α) : Prop where
  split : ∃ front back, xs = front ++ best :: back ∧ (∀ a ∈ front, w a < w best) ∧
    ∀ a ∈ back, w a ≤ w best

namespace FirstBest

variable {α : Type} {w : α → Nat} {xs : List α} {best : α}

theorem mem (h : FirstBest w xs best) : best ∈ xs := by
  obtain ⟨front, back, rfl, -, -⟩ := h.split
  exact List.mem_append_right _ List.mem_cons_self

theorem le (h : FirstBest w xs best) {a : α} (ha : a ∈ xs) : w a ≤ w best := by
  obtain ⟨front, back, rfl, hfront, hback⟩ := h.split
  rcases List.mem_append.mp ha with ha | ha
  · exact Nat.le_of_lt (hfront a ha)
  · rcases List.mem_cons.mp ha with rfl | ha
    · exact Nat.le_refl _
    · exact hback a ha

/-- In a list ordered by a relation, the first of the best stands before the others. -/
theorem rel_of_eq {R : α → α → Prop} (h : FirstBest w xs best) (hxs : xs.Pairwise R) {a : α}
    (ha : a ∈ xs) (heq : w a = w best) : a = best ∨ R best a := by
  obtain ⟨front, back, rfl, hfront, -⟩ := h.split
  rcases List.mem_append.mp ha with ha | ha
  · exact absurd heq (Nat.ne_of_lt (hfront a ha))
  · rcases List.mem_cons.mp ha with rfl | ha
    · exact Or.inl rfl
    · exact Or.inr ((List.pairwise_cons.mp (List.pairwise_append.mp hxs).2.1).1 a ha)

end FirstBest

/-- A running maximum ends in what it began with or in a first of the best. -/
theorem foldl_some {α : Type} {w : α → Nat} {step : Option α → α → Option α}
    (hstep : ∀ b a, step (some b) a = if w b < w a then some a else some b) (xs : List α) (b : α) :
    (xs.foldl step (some b) = some b ∧ ∀ a ∈ xs, w a ≤ w b) ∨
      ∃ best, xs.foldl step (some b) = some best ∧ w b < w best ∧ FirstBest w xs best := by
  induction xs generalizing b with
  | nil => exact Or.inl ⟨rfl, nofun⟩
  | cons x xs ih =>
    rw [List.foldl_cons, hstep]
    by_cases hlt : w b < w x
    · rw [if_pos hlt]
      refine Or.inr ?_
      rcases ih x with ⟨heq, hle⟩ | ⟨best, heq, hbest, front, back, rfl, hfront, hback⟩
      · exact ⟨x, heq, hlt, [], xs, rfl, nofun, hle⟩
      · refine ⟨best, heq, Nat.lt_trans hlt hbest, x :: front, back, rfl, ?_, hback⟩
        exact List.forall_mem_cons.mpr ⟨hbest, hfront⟩
    · rw [if_neg hlt]
      have hle := Nat.le_of_not_lt hlt
      rcases ih b with ⟨heq, hall⟩ | ⟨best, heq, hbest, front, back, rfl, hfront, hback⟩
      · exact Or.inl ⟨heq, List.forall_mem_cons.mpr ⟨hle, hall⟩⟩
      · refine Or.inr ⟨best, heq, hbest, x :: front, back, rfl, ?_, hback⟩
        exact List.forall_mem_cons.mpr ⟨Nat.lt_of_le_of_lt hle hbest, hfront⟩

/-- A running maximum over a list finds the first of the best, if there is any. -/
theorem foldl_firstBest {α : Type} {w : α → Nat} {step : Option α → α → Option α} (xs : List α)
    (hstep : ∀ b a, step (some b) a = if w b < w a then some a else some b)
    (hfirst : ∀ a ∈ xs, step none a = some a) :
    (xs = [] ∧ xs.foldl step none = none) ∨
      ∃ best, xs.foldl step none = some best ∧ FirstBest w xs best := by
  cases xs with
  | nil => exact Or.inl ⟨rfl, rfl⟩
  | cons x xs =>
    refine Or.inr ?_
    rw [List.foldl_cons, hfirst x List.mem_cons_self]
    rcases foldl_some hstep xs x with
      ⟨heq, hle⟩ | ⟨best, heq, hbest, front, back, rfl, hfront, hback⟩
    · exact ⟨x, heq, [], xs, rfl, nofun, hle⟩
    · refine ⟨best, heq, x :: front, back, rfl, ?_, hback⟩
      exact List.forall_mem_cons.mpr ⟨hbest, hfront⟩

namespace Extended

open Pattern

variable {t : Table ρ} {path : List Char}

/-! ### The ends of patterns -/

theorem endsIn_iff {key : List Char} {m : Char} :
    ['/', m].isSuffixOf key = true ↔ ∃ a, key = a ++ ['/', m] := by
  rw [List.isSuffixOf_iff_suffix]
  exact exists_congr fun a => eq_comm

/-- A pattern ends in a slash and a mark with `!` in front or without it. -/
theorem endsIn_withoutBang_iff {key : List Char} {m : Char} :
    ['/', m].isSuffixOf (withoutBang key) = true ↔ ∃ a, key = a ++ ['/', m] := by
  rw [endsIn_iff]
  by_cases hbang : key.head? = some '!'
  · obtain ⟨body, rfl⟩ := List.head?_eq_some_iff.mp hbang
    change (∃ a, body = a ++ ['/', m]) ↔ _
    constructor
    · rintro ⟨a, rfl⟩
      exact ⟨'!' :: a, rfl⟩
    · rintro ⟨a, ha⟩
      cases a with
      | nil => cases ha
      | cons c a => exact ⟨a, (List.cons.inj ha).2⟩
  · rw [withoutBang_of_ne hbang]

theorem anyDescendant_iff {key : List Char} :
    (Shape.of key).anyDescendant = true ↔ ∃ a, key = a ++ ['/', '*'] := endsIn_withoutBang_iff

theorem oneChild_iff {key : List Char} :
    (Shape.of key).oneChild = true ↔ ∃ a, key = a ++ ['/', '?'] := endsIn_withoutBang_iff

theorem byteLength_slash (a : List Char) (m : Char) :
    Text.byteLength (a ++ ['/', m]) = Text.byteLength a + (1 + m.utf8Size) := by
  rw [Text.byteLength_append]
  rfl

theorem dropLast_slash_mark (a : List Char) (m : Char) :
    (a ++ ['/', m]).dropLast = a ++ ['/'] := by
  simp

/-! ### Lookups -/

/-- An unmarked path does not begin with `!`. -/
theorem Unmarked.head?_ne (h : Unmarked path) (rest : List Char) (hrest : rest.head? ≠ some '!') :
    (path ++ rest).head? ≠ some '!' := by
  intro hhead
  cases path with
  | nil => exact hrest hhead
  | cons c cs => exact (h c List.mem_cons_self).2.2 (Option.some.inj hhead)

/-- The registrations under a pattern that competes. -/
def Under (t : Table ρ) (key : List (List Char)) (found : List (Entry ρ)) : Prop :=
  ∀ e, e ∈ found ↔ e ∈ t.entries ∧ e.universal = false ∧ e.segments = key

variable (ht : t.Registered checkExtended)
include ht

theorem under_lookup? {key : List Char} (hkey : key.head? ≠ some '!') {found : List (Entry ρ)}
    (h : t.lookup? key = some found) : Under t (segments key) found := fun e => by
  rw [ht.mem_lookup? h, Entry.pattern_eq_iff hkey]

theorem under_lookup?_getD {key : List Char} (hkey : key.head? ≠ some '!') :
    Under t (segments key) ((t.lookup? key).getD []) := fun e => by
  rw [ht.mem_lookup?_getD, Entry.pattern_eq_iff hkey]

theorem under_row {row : Row ρ} (hrow : row ∈ t.rows) (hkey : row.key.head? ≠ some '!') :
    Under t (segments row.key) row.entries := fun e => by
  rw [ht.mem_row hrow, Entry.pattern_eq_iff hkey]

theorem lookup?_eq_none_iff {key : List Char} (hkey : key.head? ≠ some '!') :
    t.lookup? key = none ↔ ¬Competes t.entries (segments key) := by
  rw [ht.lookup?_eq_none]
  refine not_congr (exists_congr fun e => and_congr_right fun _ => ?_)
  exact Entry.pattern_eq_iff hkey

theorem competes_of_lookup? {key : List Char} (hkey : key.head? ≠ some '!')
    {found : List (Entry ρ)} (h : t.lookup? key = some found) :
    Competes t.entries (segments key) := by
  by_contra hno
  rw [(lookup?_eq_none_iff ht hkey).mpr hno] at h
  cases h

/-! ### The nearest ancestor -/

/-- A row leads through a path if it is a pattern for all that is below some beginning of it. -/
theorem leadsThrough_iff_begins {row : Row ρ} (hrow : row ∈ t.rows) :
    leadsThrough path row = true ↔ ∃ a, row.key = a ++ ['/', '*'] ∧ a ++ ['/'] <+: path := by
  rw [leadsThrough, Bool.and_eq_true, List.isPrefixOf_iff_prefix, ht.shape_eq row hrow,
    anyDescendant_iff]
  constructor
  · rintro ⟨⟨a, ha⟩, hpre⟩
    rw [ha, dropLast_slash_mark] at hpre
    exact ⟨a, ha, hpre⟩
  · rintro ⟨a, ha, hpre⟩
    rw [ha, dropLast_slash_mark]
    exact ⟨⟨a, rfl⟩, hpre⟩

/-- The rows that lead through a path are those of its ancestors. -/
theorem leadsThrough_iff {row : Row ρ} (hrow : row ∈ t.rows) :
    leadsThrough path row = true ↔ ∃ a, row.key = a ++ ['/', '*'] ∧
      segments a <+: (segments path).dropLast := by
  rw [leadsThrough_iff_begins ht hrow]
  refine exists_congr fun a => and_congr_right fun _ => ?_
  rw [slash_prefix_iff]
  constructor
  · rintro ⟨behind, hne, hsegments⟩
    rw [hsegments, List.dropLast_append_of_ne_nil hne]
    exact List.prefix_append ..
  · rintro ⟨behind, hbehind⟩
    refine ⟨behind ++ [(segments path).getLast (segments_ne_nil path)], by simp, ?_⟩
    rw [← List.append_assoc, hbehind, List.dropLast_append_getLast]

/-- A pattern for the descendants of an ancestor is among the rows that lead through the path. -/
theorem exists_leadsThrough {s : List (List Char)} (hs : s ≠ [])
    (hbegins : s <+: (segments path).dropLast) (h : Competes t.entries (s ++ [star])) :
    ∃ row ∈ t.rows, leadsThrough path row = true ∧
      ∃ a, row.key = a ++ ['/', '*'] ∧ segments a = s := by
  obtain ⟨e, he, hown, hsegments⟩ := h
  rw [Entry.segments_of_competing hown] at hsegments
  obtain ⟨a, ha, rfl⟩ := exists_of_append_mark (by decide) hs hsegments
  obtain ⟨row, hrow, hkey⟩ := List.mem_map.mp ((ht.mem_keys _).mpr ⟨e, he, ha⟩)
  exact ⟨row, hrow, (leadsThrough_iff ht hrow).mpr ⟨a, hkey, hbegins⟩, a, hkey, rfl⟩

omit ht in
/-- Of two beginnings of a path the one with more segments is the longer text. -/
theorem byteLength_lt {p : List (List Char)} {a b : List Char} (ha : segments a <+: p)
    (hb : segments b <+: p) (hlt : (segments a).length < (segments b).length) :
    Text.byteLength a < Text.byteLength b := by
  obtain ⟨behind, hbehind⟩ := List.prefix_of_prefix_length_le ha hb (Nat.le_of_lt hlt)
  have hne : behind ≠ [] := by
    rintro rfl
    rw [← hbehind, List.append_nil] at hlt
    exact Nat.lt_irrefl _ hlt
  obtain ⟨rest, rfl⟩ := slash_prefix_iff.mpr ⟨behind, hne, hbehind.symm⟩
  rw [List.append_assoc, Text.byteLength_append, List.singleton_append, Text.byteLength_cons]
  have hslash : 0 < '/'.utf8Size := Char.utf8Size_pos _
  omega

/-- The nearest ancestor's registrations are those of the winner, if nothing closer competes. -/
theorem nearest_spec (hpath : Unmarked path) (hexact : ¬Competes t.entries (segments path))
    (hchild : ¬ChildCompetes t.entries (segments path)) :
    (t.longest? (leadsThrough path) = none ∧ ¬Settled t.entries (segments path)) ∨
      ∃ row key, t.longest? (leadsThrough path) = some row ∧
        Wins t.entries (segments path) key ∧ Under t key row.entries := by
  have hstep : ∀ b row : Row ρ, Table.longer (some b) row =
      if Text.byteLength b.key < Text.byteLength row.key then some row else some b :=
    fun _ _ => rfl
  rcases foldl_firstBest (t.rows.filter (leadsThrough path)) hstep fun _ _ => rfl with
    ⟨hnil, hnone⟩ | ⟨row, hsome, hbest⟩
  · refine Or.inl ⟨hnone, ?_⟩
    rintro (h | h | ⟨s, hs, hbegins, h⟩)
    · exact hexact h
    · exact hchild h
    · obtain ⟨row, hrow, hleads, -⟩ := exists_leadsThrough ht hs hbegins h
      exact List.filter_eq_nil_iff.mp hnil row hrow hleads
  · obtain ⟨hrow, hleads⟩ := List.mem_filter.mp hbest.mem
    obtain ⟨a, hkey, ha⟩ := (leadsThrough_iff ht hrow).mp hleads
    have hunmarked : Unmarked a := hpath.of_segments fun s hs =>
      List.dropLast_subset _ (ha.subset hs)
    have hhead : row.key.head? ≠ some '!' := by
      rw [hkey]
      exact hunmarked.head?_ne _ (by decide)
    have hsegments : segments row.key = segments a ++ [star] := by
      rw [hkey]
      exact segments_slash_mark a (by decide)
    have hunder := under_row ht hrow hhead
    rw [hsegments] at hunder
    obtain ⟨e, he⟩ := ht.exists_mem_row hrow
    refine Or.inr ⟨row, _, hsome, .within hexact hchild (segments_ne_nil a) ha ?_ ?_, hunder⟩
    · exact ⟨e, (hunder e).mp he⟩
    · intro s hs hlt hcompetes
      have hne : s ≠ [] := by
        rintro rfl
        exact Nat.not_lt_zero _ hlt
      obtain ⟨other, hother, hleads', b, hb, rfl⟩ :=
        exists_leadsThrough ht hne hs hcompetes
      have hle := hbest.le (List.mem_filter.mpr ⟨hother, hleads'⟩)
      rw [hkey, hb, byteLength_slash, byteLength_slash] at hle
      have hshort := byteLength_lt ha hs hlt
      omega

/-- **What settles the competition at once is found, and only that.** -/
theorem settled?_spec (hpath : Unmarked path) :
    (settled? t path = none ∧ ¬Settled t.entries (segments path)) ∨
      ∃ found key, settled? t path = some found ∧ Wins t.entries (segments path) key ∧
        Under t key found := by
  have hhead : path.head? ≠ some '!' := by
    rw [← List.append_nil path]
    exact hpath.head?_ne [] (by decide)
  unfold settled?
  cases hexact : t.lookup? path with
  | some found =>
    exact Or.inr ⟨found, _, rfl, .exact (competes_of_lookup? ht hhead hexact),
      under_lookup? ht hhead hexact⟩
  | none =>
    rw [lookup?_eq_none_iff ht hhead] at hexact
    cases hparent : parent? path with
    | none =>
      have hnil := dropLast_of_no_parent hparent
      refine Or.inl ⟨rfl, ?_⟩
      rintro (h | h | ⟨s, hs, hbegins, -⟩)
      · exact hexact h
      · exact h.1 hnil
      · rw [hnil] at hbegins
        exact hs (List.prefix_nil.mp hbegins)
    | some parent =>
      have hdrop := segments_of_parent? hparent
      have hmarked : segments (parent ++ ['/', '?']) = (segments path).dropLast ++ [question] := by
        rw [segments_slash_mark parent (by decide), hdrop]
        rfl
      have hunmarked : Unmarked parent := hpath.of_segments fun s hs =>
        List.dropLast_subset _ (hdrop ▸ hs)
      have hhead' := hunmarked.head?_ne ['/', '?'] (by decide)
      have hne : (segments path).dropLast ≠ [] := hdrop ▸ segments_ne_nil parent
      dsimp only
      cases hchild : t.lookup? (parent ++ ['/', '?']) with
      | some found =>
        have hcompetes := competes_of_lookup? ht hhead' hchild
        have hunder := under_lookup? ht hhead' hchild
        rw [hmarked] at hcompetes hunder
        exact Or.inr ⟨found, _, rfl, .child hexact ⟨hne, hcompetes⟩, hunder⟩
      | none =>
        rw [lookup?_eq_none_iff ht hhead', hmarked] at hchild
        rcases nearest_spec ht hpath hexact (fun h => hchild h.2) with
          ⟨hnone, hfree⟩ | ⟨row, key, hsome, hwins, hunder⟩
        · exact Or.inl ⟨by rw [hnone]; rfl, hfree⟩
        · exact Or.inr ⟨row.entries, key, by rw [hsome]; rfl, hwins, hunder⟩

end Extended

end XmlBinding
