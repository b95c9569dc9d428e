import XmlBinding.Proofs.LongestSuffix

/-!
# The order between patterns

A plain matcher keeps the registrations under one pattern in their order, and takes no notice of
how those under different patterns follow each other. The running maximum over the patterns does
keep the first of equally long ones, but there is never a choice: a path ends in at most one suffix
of each length.
-/
namespace XmlBinding.Plain

open Pattern

variable {ρ : Type}

/-- What was registered under a pattern, in its order: each rule with its namespace. The pattern is
the one that the registration is kept under, without a slash at its end. -/
def filed (es : List (Entry ρ)) (key : List Char) : List (Option String × ρ) :=
  (es.filter (·.pattern.toList = key)).map fun e => (e.scope, e.rule)

/-- Two lists of registrations differ at most in how their patterns are interleaved. -/
def Interleaves (es other : List (Entry ρ)) : Prop := ∀ key, filed es key = filed other key

variable {es other : List (Entry ρ)} {uri : String} {path key : List Char}

/-- A pattern is registered if something was filed under it. -/
theorem exists_registered_iff : (∃ e ∈ es, e.pattern.toList = key) ↔ filed es key ≠ [] := by
  unfold filed
  rw [ne_eq, List.map_eq_nil_iff, List.filter_eq_nil_iff]
  simp

theorem filed_eq_nil (h : ∀ e ∈ es, e.pattern.toList ≠ key) : filed es key = [] := by
  by_contra hne
  obtain ⟨e, he, hkey⟩ := exists_registered_iff.mpr hne
  exact h e he hkey

/-- Only registered patterns need to be compared. -/
theorem interleaves_iff : Interleaves es other ↔
    ∀ e ∈ es ++ other, filed es e.pattern.toList = filed other e.pattern.toList := by
  refine ⟨fun h e _ => h e.pattern.toList, fun h key => ?_⟩
  by_cases hkey : ∃ e ∈ es ++ other, e.pattern.toList = key
  · obtain ⟨e, he, rfl⟩ := hkey
    exact h e he
  · have hnone : ∀ e ∈ es ++ other, e.pattern.toList ≠ key := fun e he heq => hkey ⟨e, he, heq⟩
    rw [filed_eq_nil fun e he => hnone e (List.mem_append_left _ he),
      filed_eq_nil fun e he => hnone e (List.mem_append_right _ he)]

instance [DecidableEq ρ] (es other : List (Entry ρ)) : Decidable (Interleaves es other) :=
  decidable_of_iff _ interleaves_iff.symm

/-- The rules under a pattern for a namespace are known from what was filed under it. -/
theorem rules_under_eq (es : List (Entry ρ)) (uri : String) (key : List Char) :
    (under es uri key).map (·.rule) =
      ((filed es key).filter fun c => c.1 = none ∨ c.1 = some uri).map Prod.snd := by
  unfold filed under
  rw [List.filter_map, List.map_map, List.filter_filter]
  congr 1
  refine List.filter_congr fun e _ => ?_
  rw [Bool.eq_iff_iff]
  simp [Entry.Applies, and_comm]

namespace Interleaves

variable (h : Interleaves es other)
include h

theorem rules_under (uri : String) (key : List Char) :
    (under other uri key).map (·.rule) = (under es uri key).map (·.rule) := by
  rw [rules_under_eq, rules_under_eq, h key]

theorem under_eq_nil_iff : under other uri key = [] ↔ under es uri key = [] := by
  rw [← List.map_eq_nil_iff (f := fun e : Entry ρ => e.rule), h.rules_under, List.map_eq_nil_iff]

theorem coversEnd_iff : CoversEnd other path key ↔ CoversEnd es path key := by
  unfold CoversEnd
  rw [exists_registered_iff, exists_registered_iff, h key]

/-- What one list answers, the other one answers too, as far as the rules go. -/
theorem answers {found : List (Entry ρ)} (hfound : Answers es uri path found) :
    ∃ same, Answers other uri path same ∧ same.map (·.rule) = found.map (·.rule) := by
  cases hfound with
  | exact hne => exact ⟨_, .exact (h.under_eq_nil_iff.not.mpr hne), h.rules_under uri path⟩
  | @longest hexact key hkey hbest =>
    have hlongest : ∀ longer, CoversEnd other path longer →
        Text.byteLength longer ≤ Text.byteLength key :=
      fun longer hlonger => hbest longer (h.coversEnd_iff.mp hlonger)
    refine ⟨_, .longest (h.under_eq_nil_iff.mpr hexact) (h.coversEnd_iff.mpr hkey) hlongest, ?_⟩
    exact h.rules_under uri key
  | nothing hexact hnone =>
    refine ⟨[], .nothing (h.under_eq_nil_iff.mpr hexact) fun key hkey => ?_, rfl⟩
    exact hnone key (h.coversEnd_iff.mp hkey)

end Interleaves

/-- **How registrations under different patterns are interleaved never shows, and no two patterns
ever tie.** -/
theorem interleaving_law {first second : List (Registration ρ)}
    (h : Interleaves (registrations first) (registrations second)) (uri : String)
    (path : List Char) (name : String) (attrs : Attributes) :
    (Matcher.replay (.plain {}) first).rulesFor? uri path name attrs =
        (Matcher.replay (.plain {}) second).rulesFor? uri path name attrs ∧
      ∀ key other, CoversEnd (registrations first) path key →
        CoversEnd (registrations first) path other →
        Text.byteLength key = Text.byteLength other → key = other := by
  obtain ⟨found, hrules, hfound⟩ := rulesFor?_replay first uri path name attrs
  obtain ⟨found', hrules', hfound'⟩ := rulesFor?_replay second uri path name attrs
  refine ⟨?_, fun key other hkey hother => hkey.eq_of_length hother⟩
  obtain ⟨same, hsame, heq⟩ := h.answers hfound
  rw [hrules, hrules', hfound'.unique hsame, heq]

/-- Two suffixes and a path, each registered twice. -/
def oneAfterTheOther : List (Registration Nat) :=
  [.add "*/b" 0, .setScope (some "u"), .add "*/b" 1, .add "a/b" 2, .setScope none, .add "a/b" 3,
    .add "*/a/b" 4, .add "*/a/b/" 5]

/-- The same registrations in turns. -/
def inTurns : List (Registration Nat) :=
  [.add "*/a/b/" 4, .setScope (some "u"), .add "a/b" 2, .setScope none, .add "*/b" 0,
    .add "a/b" 3, .setScope (some "u"), .add "*/b" 1, .setScope none, .add "*/a/b" 5]

theorem interleaving_law_of_turns :
    Interleaves (registrations oneAfterTheOther) (registrations inTurns) ∧
      (Matcher.replay (.plain {}) oneAfterTheOther).rulesFor? "u" "x/a/b".toList "b" [] =
        (Matcher.replay (.plain {}) inTurns).rulesFor? "u" "x/a/b".toList "b" [] ∧
      (Matcher.replay (.plain {}) inTurns).rulesFor? "u" "x/a/b".toList "b" [] = some [4, 5] := by
  have h : Interleaves (registrations oneAfterTheOther) (registrations inTurns) := by decide
  exact ⟨h, (interleaving_law h "u" "x/a/b".toList "b" []).1, by decide⟩

end XmlBinding.Plain
