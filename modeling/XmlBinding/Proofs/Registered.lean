import Mathlib.Data.List.Nodup
import XmlBinding.Matcher

/-!
# What a table knows of its registrations

A table is filled by registrations only. Its rows then tell, for every registered pattern, exactly
the registrations under it, and the rows stand in the order of the first registrations.
-/
namespace XmlBinding

variable {ρ : Type}

theorem exists_of_map_eq_ok {ε α β : Type} {f : α → β} {r : Except ε α} {b : β}
    (h : r.map f = .ok b) : ∃ a, r = .ok a ∧ f a = b := by
  cases r with
  | error cause => cases h
  | ok a => exact ⟨a, rfl, Except.ok.inj h⟩

namespace Matcher

/-- Do one thing to a matcher. A refused pattern changes nothing. -/
def apply (m : Matcher ρ) : Registration ρ → Matcher ρ
  | .add pattern rule => match m.add pattern rule with
    | .ok m' => m'
    | .error _ => m
  | .setScope scope => m.setScope scope
  | .clear => m.clear

/-- Do things to a matcher one after the other. -/
def replay (m : Matcher ρ) (history : List (Registration ρ)) : Matcher ρ := history.foldl apply m

variable {m : Matcher ρ} {pattern : String} {rule : ρ}

theorem apply_of_taken {m' : Matcher ρ} (h : m.add pattern rule = .ok m') :
    m.apply (.add pattern rule) = m' := by
  simp only [apply, h]

theorem apply_of_refused {cause : PatternError} (h : m.add pattern rule = .error cause) :
    m.apply (.add pattern rule) = m := by
  simp only [apply, h]

end Matcher

namespace Table

/-- The table of a matcher that lists registrations under checked patterns. -/
structure Registered (check : List Char → Except PatternError Unit) (t : Table ρ) : Prop where
  orders : t.entries.map (·.order) = List.range t.entries.length
  checked : ∀ e ∈ t.entries, check e.pattern.toList = .ok ()
  shape_eq : ∀ row ∈ t.rows, row.shape = Pattern.Shape.of row.key
  entries_eq : ∀ row ∈ t.rows, row.entries = t.entries.filter (·.pattern.toList = row.key)
  nodup_keys : (t.rows.map (·.key)).Nodup
  mem_keys : ∀ key, key ∈ t.rows.map (·.key) ↔ ∃ e ∈ t.entries, e.pattern.toList = key
  byAge : t.rows.Pairwise fun r s => ∃ e ∈ r.entries, ∀ f ∈ s.entries, e.order < f.order

variable {check : List Char → Except PatternError Unit} {t : Table ρ}

theorem registered_empty (scope : Option String) :
    ({ scope } : Table ρ).Registered check where
  orders := rfl
  checked := nofun
  shape_eq := nofun
  entries_eq := nofun
  nodup_keys := List.nodup_nil
  mem_keys := by simp
  byAge := .nil

/-- A registration hangs on the check of its pattern alone. -/
theorem add_eq (t : Table ρ) (pattern : String) (rule : ρ) :
    t.add check pattern rule = (check (Pattern.dropFinalSlash pattern.toList)).map fun _ =>
      t.register (Pattern.dropFinalSlash pattern.toList) rule := by
  unfold Table.add
  dsimp only
  cases check (Pattern.dropFinalSlash pattern.toList) <;> rfl

/-! ### Filing -/

/-- A registration under a new pattern makes a row at the end. -/
theorem file_of_not_mem {key : List Char} {rows : List (Row ρ)} (h : key ∉ rows.map (·.key))
    (e : Entry ρ) : file key e rows = rows ++ [⟨key, Pattern.Shape.of key, [e]⟩] := by
  induction rows with
  | nil => rfl
  | cons row rest ih =>
    rw [List.map_cons, List.mem_cons, not_or] at h
    rw [file, if_neg (Ne.symm h.1), ih h.2]
    rfl

/-- A row behind a registration: longer if it is the row of the pattern. -/
def grow (key : List Char) (e : Entry ρ) (row : Row ρ) : Row ρ :=
  if row.key = key then { row with entries := row.entries ++ [e] } else row

theorem grow_of_ne {key : List Char} {row : Row ρ} (h : row.key ≠ key) (e : Entry ρ) :
    grow key e row = row := if_neg h

theorem grow_self (row : Row ρ) (e : Entry ρ) :
    grow row.key e row = { row with entries := row.entries ++ [e] } := if_pos rfl

theorem key_grow (key : List Char) (e : Entry ρ) (row : Row ρ) :
    (grow key e row).key = row.key := by
  unfold grow
  split <;> rfl

theorem shape_grow (key : List Char) (e : Entry ρ) (row : Row ρ) :
    (grow key e row).shape = row.shape := by
  unfold grow
  split <;> rfl

/-- A registration under a known pattern goes to the end of its row. -/
theorem file_of_mem {key : List Char} {rows : List (Row ρ)} (hn : (rows.map (·.key)).Nodup)
    (h : key ∈ rows.map (·.key)) (e : Entry ρ) : file key e rows = rows.map (grow key e) := by
  induction rows with
  | nil => cases h
  | cons row rest ih =>
    rw [List.map_cons, List.nodup_cons] at hn
    rw [file, List.map_cons]
    by_cases hk : row.key = key
    · subst hk
      rw [if_pos rfl, grow_self]
      congr 1
      refine (List.map_id' _).symm.trans (List.map_congr_left fun other hother => ?_)
      have hne : other.key ≠ row.key := fun heq => hn.1 (heq ▸ List.mem_map_of_mem hother)
      exact (grow_of_ne hne e).symm
    · rw [if_neg hk, grow_of_ne hk]
      rw [List.map_cons, List.mem_cons] at h
      rw [ih hn.2 (h.resolve_left (Ne.symm hk))]

namespace Registered

/-- The order of an entry is its place. -/
theorem order_lt (h : t.Registered check) {e : Entry ρ} (he : e ∈ t.entries) :
    e.order < t.entries.length := by
  have hmem : e.order ∈ t.entries.map (·.order) := List.mem_map_of_mem he
  rw [h.orders] at hmem
  exact List.mem_range.mp hmem

theorem pairwise_order (h : t.Registered check) : t.entries.Pairwise (·.order < ·.order) := by
  have hp : (t.entries.map (·.order)).Pairwise (· < ·) := by
    rw [h.orders]
    exact List.pairwise_lt_range
  exact List.pairwise_map.mp hp

/-- Two entries in the same place are the same. -/
theorem eq_of_order (h : t.Registered check) {e f : Entry ρ} (he : e ∈ t.entries)
    (hf : f ∈ t.entries) (heq : e.order = f.order) : e = f := by
  have hn : (t.entries.map (·.order)).Nodup := by
    rw [h.orders]
    exact List.nodup_range
  exact List.inj_on_of_nodup_map hn he hf heq

/-- A row holds the entries under its pattern. -/
theorem mem_row (h : t.Registered check) {row : Row ρ} (hrow : row ∈ t.rows) {e : Entry ρ} :
    e ∈ row.entries ↔ e ∈ t.entries ∧ e.pattern.toList = row.key := by
  rw [h.entries_eq row hrow, List.mem_filter, decide_eq_true_iff]

/-- Every row has an entry. -/
theorem exists_mem_row (h : t.Registered check) {row : Row ρ} (hrow : row ∈ t.rows) :
    ∃ e, e ∈ row.entries := by
  obtain ⟨e, he, hkey⟩ := (h.mem_keys row.key).mp (List.mem_map_of_mem hrow)
  exact ⟨e, (h.mem_row hrow).mpr ⟨he, hkey⟩⟩

/-- The oldest entry of a row. -/
theorem exists_oldest (h : t.Registered check) {row : Row ρ} (hrow : row ∈ t.rows) :
    ∃ e ∈ row.entries, ∀ f ∈ row.entries, e.order ≤ f.order := by
  have hp : row.entries.Pairwise (·.order < ·.order) := by
    rw [h.entries_eq row hrow]
    exact h.pairwise_order.filter _
  obtain ⟨e, he⟩ := h.exists_mem_row hrow
  obtain ⟨first, rest, heq⟩ := List.exists_cons_of_ne_nil (List.ne_nil_of_mem he)
  rw [heq] at hp ⊢
  refine ⟨first, List.mem_cons_self, fun f hf => ?_⟩
  rcases List.mem_cons.mp hf with rfl | hf
  · exact Nat.le_refl _
  · exact Nat.le_of_lt ((List.pairwise_cons.mp hp).1 f hf)

variable {key : List Char} {e : Entry ρ}

theorem orders_append (h : t.Registered check) (he : e.order = t.entries.length) :
    (t.entries ++ [e]).map (·.order) = List.range (t.entries ++ [e]).length := by
  rw [List.map_append, h.orders, List.length_append, List.length_singleton, List.range_succ, ← he]
  rfl

theorem checked_append (h : t.Registered check) (he : check e.pattern.toList = .ok ()) :
    ∀ f ∈ t.entries ++ [e], check f.pattern.toList = .ok () := by
  intro f hf
  rcases List.mem_append.mp hf with hf | hf
  · exact h.checked f hf
  · rw [List.mem_singleton.mp hf]
    exact he

theorem exists_mem_append (h : t.Registered check) (hpattern : e.pattern.toList = key)
    (other : List Char) : (∃ f ∈ t.entries ++ [e], f.pattern.toList = other) ↔
      other ∈ t.rows.map (·.key) ∨ other = key := by
  rw [h.mem_keys]
  constructor
  · rintro ⟨f, hf, hother⟩
    rcases List.mem_append.mp hf with hf | hf
    · exact Or.inl ⟨f, hf, hother⟩
    · rw [List.mem_singleton.mp hf, hpattern] at hother
      exact Or.inr hother.symm
  · rintro (⟨f, hf, hother⟩ | rfl)
    · exact ⟨f, List.mem_append_left _ hf, hother⟩
    · exact ⟨e, List.mem_append_right _ (List.mem_singleton.mpr rfl), hpattern⟩

/-- A registration under a known pattern. -/
theorem file_known (h : t.Registered check) (hpattern : e.pattern.toList = key)
    (horder : e.order = t.entries.length) (hcheck : check key = .ok ())
    (hmem : key ∈ t.rows.map (·.key)) :
    ({ t with entries := t.entries ++ [e], rows := t.rows.map (grow key e) } : Table ρ).Registered
      check := by
  have hkeys : (t.rows.map (grow key e)).map (·.key) = t.rows.map (·.key) := by
    rw [List.map_map]
    exact List.map_congr_left fun row _ => key_grow key e row
  refine ⟨h.orders_append horder, h.checked_append (hpattern ▸ hcheck), ?_, ?_, ?_, ?_, ?_⟩
  · intro row' hrow'
    obtain ⟨row, hrow, rfl⟩ := List.mem_map.mp hrow'
    rw [shape_grow, key_grow]
    exact h.shape_eq row hrow
  · intro row' hrow'
    obtain ⟨row, hrow, rfl⟩ := List.mem_map.mp hrow'
    have hentries := h.entries_eq row hrow
    rw [key_grow]
    change _ = (t.entries ++ [e]).filter _
    rw [List.filter_append, ← hentries]
    by_cases hk : row.key = key
    · subst hk
      rw [grow_self, List.filter_cons_of_pos (by simp [hpattern])]
      rfl
    · rw [grow_of_ne hk, List.filter_cons_of_neg (by simp [hpattern, Ne.symm hk]),
        List.filter_nil, List.append_nil]
  · change ((t.rows.map (grow key e)).map (·.key)).Nodup
    rw [hkeys]
    exact h.nodup_keys
  · intro other
    change other ∈ (t.rows.map (grow key e)).map (·.key) ↔ _
    rw [hkeys, h.exists_mem_append hpattern, or_iff_left_of_imp]
    rintro rfl
    exact hmem
  · refine List.pairwise_map.mpr (h.byAge.imp_of_mem fun {r s} hr hs hrs => ?_)
    obtain ⟨first, hfirst, hlt⟩ := hrs
    have hold := h.order_lt ((h.mem_row hr).mp hfirst).1
    refine ⟨first, ?_, fun f hf => ?_⟩
    · unfold grow
      split
      · exact List.mem_append_left _ hfirst
      · exact hfirst
    · unfold grow at hf
      split at hf
      · rcases List.mem_append.mp hf with hf | hf
        · exact hlt f hf
        · rw [List.mem_singleton.mp hf, horder]
          exact hold
      · exact hlt f hf

/-- A registration under a new pattern. -/
theorem file_new (h : t.Registered check) (hpattern : e.pattern.toList = key)
    (horder : e.order = t.entries.length) (hcheck : check key = .ok ())
    (hmem : key ∉ t.rows.map (·.key)) :
    ({ t with
      entries := t.entries ++ [e]
      rows := t.rows ++ [⟨key, Pattern.Shape.of key, [e]⟩] } : Table ρ).Registered check := by
  refine ⟨h.orders_append horder, h.checked_append (hpattern ▸ hcheck), ?_, ?_, ?_, ?_, ?_⟩
  · intro row hrow
    rcases List.mem_append.mp hrow with hrow | hrow
    · exact h.shape_eq row hrow
    · rw [List.mem_singleton.mp hrow]
  · intro row hrow
    change _ = (t.entries ++ [e]).filter _
    rw [List.filter_append]
    rcases List.mem_append.mp hrow with hrow | hrow
    · have hne : key ≠ row.key := fun heq => hmem (heq ▸ List.mem_map_of_mem hrow)
      rw [List.filter_cons_of_neg (by simp [hpattern, hne]), List.filter_nil, List.append_nil]
      exact h.entries_eq row hrow
    · rw [List.mem_singleton.mp hrow]
      have hnone : t.entries.filter (·.pattern.toList = key) = [] := by
        rw [List.filter_eq_nil_iff]
        intro f hf
        have hne : f.pattern.toList ≠ key := fun heq => hmem ((h.mem_keys key).mpr ⟨f, hf, heq⟩)
        simpa using hne
      rw [hnone, List.filter_cons_of_pos (by simp [hpattern])]
      rfl
  · change ((t.rows ++ [_]).map _).Nodup
    rw [List.map_append, List.nodup_append]
    refine ⟨h.nodup_keys, List.nodup_singleton _, fun a ha b hb heq => ?_⟩
    obtain rfl : b = key := List.mem_singleton.mp hb
    exact hmem (heq ▸ ha)
  · intro other
    change other ∈ (t.rows ++ [_]).map _ ↔ _
    rw [List.map_append, List.mem_append, h.exists_mem_append hpattern, List.map_singleton,
      List.mem_singleton]
  · refine List.pairwise_append.mpr ⟨h.byAge, List.pairwise_singleton _ _, fun r hr s hs => ?_⟩
    rw [List.mem_singleton.mp hs]
    obtain ⟨first, hfirst⟩ := h.exists_mem_row hr
    refine ⟨first, hfirst, fun f hf => ?_⟩
    rw [List.mem_singleton.mp hf, horder]
    exact h.order_lt ((h.mem_row hr).mp hfirst).1

/-- Registering a rule under a checked pattern. -/
theorem register (h : t.Registered check) (hcheck : check key = .ok ()) (rule : ρ) :
    (t.register key rule).Registered check := by
  have hpattern : (String.ofList key).toList = key := String.toList_ofList
  unfold Table.register
  dsimp only
  by_cases hmem : key ∈ t.rows.map (·.key)
  · rw [file_of_mem h.nodup_keys hmem]
    exact h.file_known hpattern rfl hcheck hmem
  · rw [file_of_not_mem hmem]
    exact h.file_new hpattern rfl hcheck hmem

theorem setScope (h : t.Registered check) (scope : Option String) :
    ({ t with scope } : Table ρ).Registered check :=
  ⟨h.orders, h.checked, h.shape_eq, h.entries_eq, h.nodup_keys, h.mem_keys, h.byAge⟩

theorem add {t' : Table ρ} (h : t.Registered check) {pattern : String} {rule : ρ}
    (hadd : t.add check pattern rule = .ok t') : t'.Registered check := by
  unfold Table.add at hadd
  cases hc : check (Pattern.dropFinalSlash pattern.toList) with
  | error cause => simp [hc, bind, Except.bind] at hadd
  | ok u =>
    simp only [hc, bind, Except.bind, pure, Except.pure, Except.ok.injEq] at hadd
    rw [← hadd]
    exact h.register hc rule

end Registered

/-! ### Looking up -/

theorem mem_find? {key : List Char} {rows : List (Row ρ)} {es : List (Entry ρ)}
    (h : find? key rows = some es) : ∃ row ∈ rows, row.key = key ∧ row.entries = es := by
  induction rows with
  | nil => cases h
  | cons row rest ih =>
    unfold find? at h
    split at h
    · next hk => exact ⟨row, List.mem_cons_self, hk, Option.some.inj h⟩
    · obtain ⟨other, hother, hkey, hes⟩ := ih h
      exact ⟨other, List.mem_cons_of_mem _ hother, hkey, hes⟩

theorem find?_eq_none {key : List Char} {rows : List (Row ρ)} :
    find? key rows = none ↔ key ∉ rows.map (·.key) := by
  induction rows with
  | nil => simp [find?]
  | cons row rest ih =>
    unfold find?
    rw [List.map_cons, List.mem_cons, not_or, eq_comm (a := key)]
    split
    · next hk => simp [hk]
    · next hk => rw [ih, and_iff_right hk]

theorem find?_key {rows : List (Row ρ)} (hn : (rows.map (·.key)).Nodup) {row : Row ρ}
    (hrow : row ∈ rows) : find? row.key rows = some row.entries := by
  induction rows with
  | nil => cases hrow
  | cons other rest ih =>
    rw [List.map_cons, List.nodup_cons] at hn
    unfold find?
    rcases List.mem_cons.mp hrow with rfl | hrow
    · exact if_pos rfl
    · rw [if_neg, ih hn.2 hrow]
      exact fun heq => hn.1 (heq ▸ List.mem_map_of_mem hrow)

namespace Registered

/-- Under the pattern of a row its entries are found. -/
theorem lookup?_key (h : t.Registered check) {row : Row ρ} (hrow : row ∈ t.rows) :
    t.lookup? row.key = some row.entries := find?_key h.nodup_keys hrow

/-- What is found under a pattern are the entries under it. -/
theorem mem_lookup? (h : t.Registered check) {key : List Char} {es : List (Entry ρ)}
    (hes : t.lookup? key = some es) {e : Entry ρ} :
    e ∈ es ↔ e ∈ t.entries ∧ e.pattern.toList = key := by
  obtain ⟨row, hrow, rfl, rfl⟩ := mem_find? hes
  exact h.mem_row hrow

/-- Nothing is found under a pattern that was never registered. -/
theorem lookup?_eq_none (h : t.Registered check) {key : List Char} :
    t.lookup? key = none ↔ ¬∃ e ∈ t.entries, e.pattern.toList = key := by
  unfold lookup?
  rw [find?_eq_none, h.mem_keys]

theorem mem_lookup?_getD (h : t.Registered check) {key : List Char} {e : Entry ρ} :
    e ∈ (t.lookup? key).getD [] ↔ e ∈ t.entries ∧ e.pattern.toList = key := by
  cases hl : t.lookup? key with
  | some es => exact h.mem_lookup? hl
  | none =>
    refine ⟨nofun, fun he => ?_⟩
    exact absurd ⟨e, he⟩ (h.lookup?_eq_none.mp hl)

end Registered

/-! ### Histories -/

/-- The namespace of the registrations to come and the registrations so far, after one more thing
was done. A pattern that is refused leaves no trace, and the order of an entry is its place. -/
def record (check : List Char → Except PatternError Unit) :
    Option String × List (Entry ρ) → Registration ρ → Option String × List (Entry ρ)
  | (scope, es), .add pattern rule =>
    let key := Pattern.dropFinalSlash pattern.toList
    match check key with
    | .ok () => (scope, es ++ [⟨String.ofList key, scope, rule, es.length⟩])
    | .error _ => (scope, es)
  | (_, es), .setScope scope => (scope, es)
  | (scope, _), .clear => (scope, [])

/-- A kind of matcher that keeps its registrations in a table and nothing else. -/
structure Holds (check : List Char → Except PatternError Unit) (hold : Table ρ → Matcher ρ) :
    Prop where
  add : ∀ t pattern rule, (hold t).add pattern rule = (t.add check pattern rule).map hold
  setScope : ∀ t scope, (hold t).setScope scope = hold { t with scope }
  clear : ∀ t, (hold t).clear = hold t.clear

namespace Holds

variable {hold : Table ρ → Matcher ρ}

/-- One thing done to a matcher that keeps a table. -/
theorem apply (hh : Holds check hold) (ht : t.Registered check) (done : Registration ρ) :
    ∃ t' : Table ρ, (hold t).apply done = hold t' ∧
      record check (t.scope, t.entries) done = (t'.scope, t'.entries) ∧ t'.Registered check := by
  cases done with
  | add pattern rule =>
    cases hcheck : check (Pattern.dropFinalSlash pattern.toList) with
    | error cause =>
      have hadd : t.add check pattern rule = .error cause := by
        simp [Table.add, hcheck, bind, Except.bind]
      refine ⟨t, ?_, ?_, ht⟩
      · simp [Matcher.apply, hh.add, hadd, Except.map]
      · simp [record, hcheck]
    | ok u =>
      have hadd : t.add check pattern rule =
          .ok (t.register (Pattern.dropFinalSlash pattern.toList) rule) := by
        simp [Table.add, hcheck, bind, Except.bind, pure, Except.pure]
      refine ⟨_, ?_, ?_, ht.register hcheck rule⟩
      · simp [Matcher.apply, hh.add, hadd, Except.map]
      · simp [record, hcheck, Table.register]
  | setScope scope => exact ⟨_, hh.setScope t scope, rfl, ht.setScope scope⟩
  | clear => exact ⟨_, hh.clear t, rfl, registered_empty t.scope⟩

/-- Whatever is done to a matcher that keeps a table, the table lists the registrations that are
left. -/
theorem replay (hh : Holds check hold) (ht : t.Registered check)
    (history : List (Registration ρ)) :
    ∃ t' : Table ρ, (hold t).replay history = hold t' ∧
      history.foldl (record check) (t.scope, t.entries) = (t'.scope, t'.entries) ∧
      t'.Registered check := by
  induction history generalizing t with
  | nil => exact ⟨t, rfl, rfl, ht⟩
  | cons done rest ih =>
    obtain ⟨t', happly, hrecord, ht'⟩ := hh.apply ht done
    obtain ⟨t'', hreplay, hrest, ht''⟩ := ih ht'
    refine ⟨t'', ?_, ?_, ht''⟩
    · change Matcher.replay (Matcher.apply _ done) rest = _
      rw [happly, hreplay]
    · rw [List.foldl_cons, hrecord, hrest]

end Holds

end Table

end XmlBinding
