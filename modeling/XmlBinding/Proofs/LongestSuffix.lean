import XmlBinding.Proofs.Competition

/-!
# What a plain matcher answers

The reference is said of the registrations that a history leaves, in their order, and of segments.
The entries of the exact path come first, as far as they accept the namespace. If there are none,
the longest `*/suffix` that covers the path answers, and it answers even with nothing.
-/
namespace XmlBinding

variable {ρ : Type}

/-- A registration without a namespace applies in every one, another one in its own. -/
def Entry.Applies (e : Entry ρ) (uri : String) : Prop := e.scope = none ∨ e.scope = some uri

instance (e : Entry ρ) (uri : String) : Decidable (e.Applies uri) :=
  inferInstanceAs (Decidable (_ ∨ _))

theorem Entry.accepts_iff {e : Entry ρ} {uri : String} : e.accepts uri = true ↔ e.Applies uri := by
  unfold Entry.accepts Entry.Applies
  cases e.scope with
  | none => simp
  | some own => simp

namespace Plain

open Pattern

/-- The registrations that a history leaves in an empty matcher. -/
def registrations (history : List (Registration ρ)) : List (Entry ρ) :=
  (history.foldl (Table.record checkPlain) (none, [])).2

/-- The registrations under a pattern that apply in a namespace, in their order. -/
def under (es : List (Entry ρ)) (uri : String) (key : List Char) : List (Entry ρ) :=
  es.filter fun e => e.pattern.toList = key ∧ e.Applies uri

/-- A registered `*/suffix` covers a path: the suffix is the path or its last segments. -/
def CoversEnd (es : List (Entry ρ)) (path key : List Char) : Prop :=
  ∃ suffix, key = '*' :: '/' :: suffix ∧ (∃ e ∈ es, e.pattern.toList = key) ∧
    segments suffix <:+ segments path

/-- What the registrations mean for a path in a namespace. -/
inductive Answers (es : List (Entry ρ)) (uri : String) (path : List Char) :
    List (Entry ρ) → Prop
  | exact (h : under es uri path ≠ []) : Answers es uri path (under es uri path)
  | longest (hexact : under es uri path = []) {key : List Char} (hkey : CoversEnd es path key)
      (hbest : ∀ other, CoversEnd es path other → Text.byteLength other ≤ Text.byteLength key) :
      Answers es uri path (under es uri key)
  | nothing (hexact : under es uri path = []) (hnone : ∀ key, ¬CoversEnd es path key) :
      Answers es uri path []

variable {es : List (Entry ρ)} {uri : String} {path : List Char}

/-! ### One answer -/

theorem suffix_of_segments {suffix : List Char} (h : segments suffix <:+ segments path) :
    suffix <:+ path := by
  have hends := endsAtSegment_iff.mpr h
  simp only [endsAtSegment, Bool.or_eq_true, beq_iff_eq, List.isSuffixOf_iff_suffix] at hends
  rcases hends with rfl | hbehind
  · exact List.suffix_refl _
  · exact (List.suffix_cons _ _).trans hbehind

theorem eq_of_suffix {a b : List Char} (h : a <:+ b)
    (hlen : Text.byteLength a = Text.byteLength b) : a = b := by
  obtain ⟨front, rfl⟩ := h
  cases front with
  | nil => rfl
  | cons c front =>
    rw [Text.byteLength_append, Text.byteLength_cons] at hlen
    have hpos : 0 < c.utf8Size := Char.utf8Size_pos c
    omega

/-- Two covering patterns of one length are the same, since both end as the path ends. -/
theorem CoversEnd.eq_of_length {key other : List Char} (hkey : CoversEnd es path key)
    (hother : CoversEnd es path other)
    (hlen : Text.byteLength key = Text.byteLength other) : key = other := by
  obtain ⟨a, rfl, -, ha⟩ := hkey
  obtain ⟨b, rfl, -, hb⟩ := hother
  have hbytes : Text.byteLength a = Text.byteLength b := by
    simp only [Text.byteLength_cons] at hlen
    omega
  rcases List.suffix_or_suffix_of_suffix (suffix_of_segments ha) (suffix_of_segments hb) with
    hab | hba
  · rw [eq_of_suffix hab hbytes]
  · rw [eq_of_suffix hba hbytes.symm]

/-- There is only one answer. -/
theorem Answers.unique {found other : List (Entry ρ)} (h : Answers es uri path found)
    (h' : Answers es uri path other) : found = other := by
  cases h with
  | exact h =>
    cases h' with
    | exact _ => rfl
    | longest hexact _ _ => exact absurd hexact h
    | nothing hexact _ => exact absurd hexact h
  | longest hexact hkey hbest =>
    cases h' with
    | exact h' => exact absurd hexact h'
    | longest _ hother hbest' =>
      have hlen := Nat.le_antisymm (hbest' _ hkey) (hbest _ hother)
      rw [hkey.eq_of_length hother hlen]
    | nothing _ hnone => exact absurd hkey (hnone _)
  | nothing hexact hnone =>
    cases h' with
    | exact h' => exact absurd hexact h'
    | longest _ hkey _ => exact absurd hkey (hnone _)
    | nothing _ _ => rfl

/-! ### The search -/

section Search

variable {t : Table ρ} (ht : t.Registered checkPlain)
include ht

theorem accepted_row {row : Row ρ} (hrow : row ∈ t.rows) :
    accepted uri row.entries = (under t.entries uri row.key).map (·.rule) := by
  rw [accepted, ht.entries_eq row hrow, List.filter_filter, under]
  congr 1
  refine List.filter_congr fun e _ => ?_
  rw [Bool.eq_iff_iff]
  simp [Entry.accepts_iff, and_comm]

theorem accepted_lookup? (key : List Char) :
    accepted uri ((t.lookup? key).getD []) = (under t.entries uri key).map (·.rule) := by
  cases hl : t.lookup? key with
  | some found =>
    obtain ⟨row, hrow, rfl, rfl⟩ := Table.mem_find? hl
    exact accepted_row ht hrow
  | none =>
    have hnone := ht.lookup?_eq_none.mp hl
    have hnil : under t.entries uri key = [] := by
      refine List.filter_eq_nil_iff.mpr fun e he => ?_
      simp only [decide_eq_true_eq, not_and]
      exact fun hkey => absurd ⟨e, he, hkey⟩ hnone
    rw [hnil]
    rfl

omit ht in
theorem afterLeadingStar?_eq_some {key suffix : List Char}
    (h : afterLeadingStar? key = some suffix) : key = '*' :: '/' :: suffix := by
  unfold afterLeadingStar? at h
  split at h
  · rw [Option.some.inj h]
  · cases h

/-- The rows that pass the test are those of the covering patterns. -/
theorem covers_iff {row : Row ρ} (hrow : row ∈ t.rows) :
    covers path row = true ↔ CoversEnd t.entries path row.key := by
  have hregistered := (ht.mem_keys row.key).mp (List.mem_map_of_mem hrow)
  constructor
  · intro h
    unfold covers at h
    split at h
    · next suffix hsuffix =>
      exact ⟨suffix, afterLeadingStar?_eq_some hsuffix, hregistered, endsAtSegment_iff.mp h⟩
    · cases h
  · rintro ⟨suffix, hkey, -, hends⟩
    rw [covers, hkey]
    exact endsAtSegment_iff.mpr hends

theorem exists_row {key : List Char} (h : CoversEnd t.entries path key) :
    ∃ row ∈ t.rows.filter (covers path), row.key = key := by
  obtain ⟨suffix, -, hregistered, -⟩ := id h
  obtain ⟨row, hrow, rfl⟩ := List.mem_map.mp ((ht.mem_keys key).mpr hregistered)
  exact ⟨row, List.mem_filter.mpr ⟨hrow, (covers_iff ht hrow).mpr h⟩, rfl⟩

/-- The running maximum stops at the longest covering pattern, if there is one. -/
theorem longest?_spec (path : List Char) :
    (t.longest? (covers path) = none ∧ ∀ key, ¬CoversEnd t.entries path key) ∨
      ∃ row ∈ t.rows, t.longest? (covers path) = some row ∧ CoversEnd t.entries path row.key ∧
        ∀ other, CoversEnd t.entries path other →
          Text.byteLength other ≤ Text.byteLength row.key := by
  have hstep : ∀ b row : Row ρ, Table.longer (some b) row =
      if Text.byteLength b.key < Text.byteLength row.key then some row else some b :=
    fun _ _ => rfl
  rcases foldl_firstBest (t.rows.filter (covers path)) hstep fun _ _ => rfl with
    ⟨hnil, hnone⟩ | ⟨row, hsome, hbest⟩
  · refine Or.inl ⟨hnone, fun key hkey => ?_⟩
    obtain ⟨row, hrow, -⟩ := exists_row ht hkey
    rw [hnil] at hrow
    cases hrow
  · obtain ⟨hrow, hcovers⟩ := List.mem_filter.mp hbest.mem
    refine Or.inr ⟨row, hrow, hsome, (covers_iff ht hrow).mp hcovers, fun other hother => ?_⟩
    obtain ⟨longer, hlonger, rfl⟩ := exists_row ht hother
    exact hbest.le hlonger

/-- The answer of a table of checked registrations. -/
theorem rulesFor_spec (uri : String) (path : List Char) :
    ∃ found, rulesFor t uri path = found.map (·.rule) ∧ Answers t.entries uri path found := by
  unfold rulesFor
  rw [accepted_lookup? ht]
  cases hexact : under t.entries uri path with
  | cons e rest =>
    have hne : under t.entries uri path ≠ [] := hexact ▸ List.cons_ne_nil e rest
    exact ⟨under t.entries uri path, by rw [hexact]; rfl, .exact hne⟩
  | nil =>
    rcases longest?_spec ht path with ⟨hnone, hno⟩ | ⟨row, hrow, hsome, hkey, hbest⟩
    · exact ⟨[], by rw [hnone]; rfl, .nothing hexact hno⟩
    · refine ⟨under t.entries uri row.key, ?_, .longest hexact hkey hbest⟩
      rw [hsome]
      exact accepted_row ht hrow

end Search

theorem holds_plain : Table.Holds (ρ := ρ) checkPlain .plain :=
  ⟨fun _ _ _ => rfl, fun _ _ => rfl, fun _ => rfl⟩

/-- A plain matcher answers as the reference does, whatever was done to it before. -/
theorem rulesFor?_replay (history : List (Registration ρ)) (uri : String) (path : List Char)
    (name : String) (attrs : Attributes) :
    ∃ found : List (Entry ρ),
      (Matcher.replay (.plain {}) history).rulesFor? uri path name attrs =
          some (found.map (·.rule)) ∧
        Answers (registrations history) uri path found := by
  obtain ⟨t, hreplay, hrecord, ht⟩ :=
    holds_plain.replay (Table.registered_empty (ρ := ρ) none) history
  have hentries : registrations history = t.entries := congrArg Prod.snd hrecord
  obtain ⟨found, hfound, hanswers⟩ := rulesFor_spec ht uri path
  rw [hentries, hreplay]
  exact ⟨found, congrArg some hfound, hanswers⟩

/-- **A plain matcher gives the one answer of the reference, whatever was done to it before.** -/
theorem answering_law (history : List (Registration ρ)) (uri : String) (path : List Char)
    (name : String) (attrs : Attributes) :
    ∃ found : List (Entry ρ),
      (Matcher.replay (.plain {}) history).rulesFor? uri path name attrs =
          some (found.map (·.rule)) ∧
        Answers (registrations history) uri path found ∧
        ∀ other, Answers (registrations history) uri path other → other = found := by
  obtain ⟨found, hrules, hanswers⟩ := rulesFor?_replay history uri path name attrs
  exact ⟨found, hrules, hanswers, fun other hother => hother.unique hanswers⟩

/-- The entry of the exact path is of another namespace, and the search goes on behind it. -/
example : (Matcher.replay (.plain {}) [.setScope (some "u"), .add "a/b" 0, .setScope none,
    .add "*/b" 1]).rulesFor? "v" "a/b".toList "b" [] = some [1] := by decide

end Plain

end XmlBinding
