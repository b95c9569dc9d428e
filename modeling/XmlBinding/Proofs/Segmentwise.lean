import XmlBinding.Proofs.Slicing

/-!
# Patterns are compared segment by segment

The tests of a matcher look at characters: whether a path is a text, ends in it, begins with it or
has it inside, with slashes put around it. Each of them says the same as a relation between two
lists of segments, for all texts. Going up a path visits its proper beginnings, from the longest to
the shortest, and stops at the first below which something is registered.
-/
namespace XmlBinding.Extended

open Pattern Text

variable {ρ : Type}

/-- A test on whole texts and the same test by checked slices both say whether `p` holds. -/
structure Tells (test : Bool) (slices : Except Sliced.Stop Bool) (p : Prop) : Prop where
  whole : test = true ↔ p
  sliced : slices = .ok test

/-- The pattern for everything below the element at a path. -/
def below (path : List (List Char)) : List Char := ['/'].intercalate path ++ ['/', '*']

theorem below_segments (a : List Char) : below (segments a) = a ++ ['/', '*'] := by
  rw [below, intercalate_segments]

/-- Something is registered for everything below the element at a path. -/
def HasBelow (es : List (Entry ρ)) (path : List (List Char)) : Prop :=
  ∃ e ∈ es, e.pattern.toList = below path

/-- A proper beginning of a path below which something is registered. -/
structure Ancestral (es : List (Entry ρ)) (path q : List (List Char)) : Prop where
  begins : q <+: path
  proper : q ≠ path
  registered : HasBelow es q

/-- The longest proper beginning of a path below which something is registered. -/
structure Nearest (es : List (Entry ρ)) (path q : List (List Char)) : Prop
    extends Ancestral es path q where
  longest : ∀ other, Ancestral es path other → other.length ≤ q.length

/-- A text that does not begin with a star and a slash has nothing behind them. -/
theorem afterLeadingStar?_eq_none {cs : List Char} (h : ¬['*', '/'] <+: cs) :
    afterLeadingStar? cs = none := by
  unfold afterLeadingStar?
  split
  · next rest => exact absurd ⟨rest, rfl⟩ h
  · rfl

section Registered

variable {t : Table ρ} {path : List Char} (ht : t.Registered checkExtended)
include ht

/-- A proper beginning below which something is registered is the path of an element. -/
theorem Ancestral.exists_row {q : List (List Char)} (h : Ancestral t.entries (segments path) q) :
    ∃ a, q = segments a ∧ ∃ row ∈ t.rows, row.key = a ++ ['/', '*'] ∧
      leadsThrough path row = true := by
  obtain ⟨e, he, hpattern⟩ := h.registered
  obtain ⟨row, hrow, hkey⟩ := List.mem_map.mp ((ht.mem_keys _).mpr ⟨e, he, hpattern⟩)
  have hne : q ≠ [] := by
    rintro rfl
    exact Sliced.key_ne_slash_star ht hrow hkey
  obtain ⟨behind, hsplit⟩ := h.begins
  have hbehind : behind ≠ [] := by
    rintro rfl
    exact h.proper (by rw [← hsplit, List.append_nil])
  obtain ⟨a, b, rfl, rfl, -⟩ := exists_slash_of_segments hne hbehind hsplit.symm
  rw [below_segments] at hkey
  exact ⟨a, rfl, row, hrow, hkey, (leadsThrough_iff_begins ht hrow).mpr ⟨a, hkey, b, by simp⟩⟩

/-- A row that leads through a path is one for what is below a proper beginning of it. -/
theorem exists_ancestral {row : Row ρ} (hrow : row ∈ t.rows) (h : leadsThrough path row = true) :
    ∃ a, row.key = a ++ ['/', '*'] ∧ Ancestral t.entries (segments path) (segments a) := by
  obtain ⟨a, hkey, ha⟩ := (leadsThrough_iff_begins ht hrow).mp h
  obtain ⟨behind, hne, hsplit⟩ := slash_prefix_iff.mp ha
  obtain ⟨e, he⟩ := ht.exists_mem_row hrow
  obtain ⟨hmem, hpattern⟩ := (ht.mem_row hrow).mp he
  refine ⟨a, hkey, ⟨behind, hsplit.symm⟩, fun heq => ?_, e, hmem, ?_⟩
  · rw [hsplit, List.self_eq_append_right] at heq
    exact hne heq
  · rw [below_segments, hpattern, hkey]

/-- **The nearest ancestor is the longest one.** What is found for it are the registrations for
everything below it, and nothing is found if there is no such ancestor. -/
theorem nearest_or_none (path : List Char) :
    ((t.longest? (leadsThrough path)).map (·.entries) = none ∧
        ∀ q, ¬Ancestral t.entries (segments path) q) ∨
      ∃ q, Nearest t.entries (segments path) q ∧
        (t.longest? (leadsThrough path)).map (·.entries) =
          some (t.entries.filter (·.pattern.toList = below q)) := by
  have hstep : ∀ b row : Row ρ, Table.longer (some b) row =
      if byteLength b.key < byteLength row.key then some row else some b := fun _ _ => rfl
  rcases foldl_firstBest (t.rows.filter (leadsThrough path)) hstep fun _ _ => rfl with
    ⟨hnil, hnone⟩ | ⟨row, hsome, hbest⟩
  · refine .inl ⟨congrArg (Option.map _) hnone, fun q hq => ?_⟩
    obtain ⟨-, -, row, hrow, -, hleads⟩ := hq.exists_row ht
    exact List.filter_eq_nil_iff.mp hnil row hrow hleads
  · obtain ⟨hrow, hleads⟩ := List.mem_filter.mp hbest.mem
    obtain ⟨a, hkey, ha⟩ := exists_ancestral ht hrow hleads
    refine .inr ⟨segments a, ⟨ha, fun other hother => ?_⟩, ?_⟩
    · obtain ⟨b, rfl, row', hrow', hkey', hleads'⟩ := hother.exists_row ht
      by_contra hlt
      have hshort := byteLength_lt ha.begins hother.begins (Nat.lt_of_not_le hlt)
      have hle := hbest.le (List.mem_filter.mpr ⟨hrow', hleads'⟩)
      rw [hkey, hkey', byteLength_slash, byteLength_slash] at hle
      omega
    · have hlongest : t.longest? (leadsThrough path) = some row := hsome
      rw [hlongest, Option.map_some, ht.entries_eq row hrow, below_segments, hkey]

end Registered

/-- **The tests on characters are relations between lists of segments.** For all texts: a path ends
in a suffix at a slash, and `*/s/?` covers the children of a parent, if the segments of the one are
at the end of the other's; `s/?` without a star in front covers the children of `s` alone; and
`*/s/*` covers a path if the segments of `s` stand in it one behind the other. All these tests can
be made with slices that are there. Whatever was done to an extended matcher before, the way up a
path comes to an end, after at most one step for every byte and one more. It ends at the longest
proper beginning of the path below which something is registered, with what is registered there, and
with nothing if there is no such beginning. -/
theorem segmentwise_law (history : List (Registration ρ)) :
    (∀ s path, Tells (endsAtSegment s path) (Sliced.endsAtSegment s path)
        (segments s <:+ segments path)) ∧
      (∀ s parent, Tells (coversChildrenOf ('*' :: '/' :: (s ++ ['/', '?'])) parent)
        (Sliced.coversChildrenOf ('*' :: '/' :: (s ++ ['/', '?'])) parent)
        (segments s <:+ segments parent)) ∧
      (∀ s parent, ¬['*', '/'] <+: s →
        Tells (coversChildrenOf (s ++ ['/', '?']) parent)
          (Sliced.coversChildrenOf (s ++ ['/', '?']) parent) (s = parent)) ∧
      (∀ s path, between? ('*' :: '/' :: (s ++ ['/', '*'])) = some s ∧
        Tells (runsThrough s path) (Sliced.runsThrough ('*' :: '/' :: (s ++ ['/', '*'])) path)
          (segments s <:+: segments path)) ∧
      ∃ t : Table ρ, Matcher.replay (.extended {}) history = .extended t ∧
        ∀ path, ∃ found, (t.longest? (leadsThrough path)).map (·.entries) = found ∧
          (∀ more, Sliced.nearest t path (byteLength path + 1 + more) (byteLength path) =
            .ok found) ∧
          ((found = none ∧ ∀ q, ¬Ancestral (registrations history) (segments path) q) ∨
            ∃ q, Nearest (registrations history) (segments path) q ∧
              found = some ((registrations history).filter (·.pattern.toList = below q))) := by
  obtain ⟨t, hreplay, hrecord, ht⟩ :=
    replay_extended (Table.registered_empty (ρ := ρ) none) history
  have hentries : registrations history = t.entries := congrArg Prod.snd hrecord
  refine ⟨fun s path => ⟨endsAtSegment_iff, Sliced.endsAtSegment_eq s path⟩, fun s parent => ?_,
    fun s parent hs => ?_, fun s path => ?_, t, hreplay, fun path => ?_⟩
  · refine ⟨?_, Sliced.coversChildrenOf_eq ('*' :: '/' :: s) parent⟩
    have hstem : stem ('*' :: '/' :: (s ++ ['/', '?'])) = '*' :: '/' :: s :=
      stem_append ('*' :: '/' :: s) '?'
    rw [coversChildrenOf, hstem]
    exact endsAtSegment_iff
  · refine ⟨?_, Sliced.coversChildrenOf_eq s parent⟩
    rw [coversChildrenOf, stem_append, afterLeadingStar?_eq_none hs]
    exact beq_iff_eq
  · exact ⟨between?_append s '*', runsThrough_iff, Sliced.runsThrough_eq s path⟩
  · rw [hentries]
    exact ⟨_, rfl, fun more => Sliced.nearest_path_eq ht path (by omega), nearest_or_none ht path⟩

/-- A pattern without a star in front does not cover the children of a longer path that ends in it,
and one with a star does. -/
theorem segmentwise_law_of_a_longer_parent :
    let s := ['a', '/', 'b']
    let parent := ['x', '/', 'a', '/', 'b']
    ¬['*', '/'] <+: s ∧
      Tells (coversChildrenOf (s ++ ['/', '?']) parent)
        (Sliced.coversChildrenOf (s ++ ['/', '?']) parent) (s = parent) ∧
      Tells (coversChildrenOf ('*' :: '/' :: (s ++ ['/', '?'])) parent)
        (Sliced.coversChildrenOf ('*' :: '/' :: (s ++ ['/', '?'])) parent)
        (segments s <:+ segments parent) ∧
      s ≠ parent ∧ segments s <:+ segments parent := by
  intro s parent
  have hs : ¬['*', '/'] <+: s := by decide
  obtain ⟨-, hanywhere, hexact, -⟩ := segmentwise_law (ρ := Nat) []
  exact ⟨hs, hexact s parent hs, hanywhere s parent, by decide, by decide⟩

/-- Below `a/b` and below `a` something is registered, and `a/b` is nearer. -/
example : (match Matcher.replay (.extended {}) [.add "a/*" 0, .add "a/b/*" 1, .add "b/*" 2] with
    | .extended t => (Sliced.nearest t "a/b/c/d".toList 8 7).map
      fun found : Option (List (Entry Nat)) => (found.getD []).map Entry.rule
    | _ => .error .steps) = .ok [1] := by decide +kernel

end XmlBinding.Extended
