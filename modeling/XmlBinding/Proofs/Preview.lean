import XmlBinding.Report

/-!
# Previews of texts

A preview shows the words of a text with single spaces between them. Where that is too long it is
cut, perhaps behind a space, and the sign for the rest that is put there is a word or the end of
one.
-/
namespace XmlBinding

namespace Text

/-- A run of characters without white space. -/
structure IsWord (cs : List Char) : Prop where
  nonempty : cs ≠ []
  notBlank : ∀ c ∈ cs, isBlank c = false

/-- Words with single spaces between them, and nothing else. -/
def SingleSpaced (cs : List Char) : Prop :=
  ∃ ws : List (List Char), (∀ w ∈ ws, IsWord w) ∧ cs = [' '].intercalate ws

variable {cs w word : List Char} {ws : List (List Char)}

/-! ### Words -/

theorem isWord_of_mem_wordsFrom (hword : ∀ c ∈ word, isBlank c = false)
    (h : w ∈ wordsFrom word cs) : IsWord w := by
  have hread : ∀ {word : List Char}, word.isEmpty ≠ true → (∀ c ∈ word, isBlank c = false) →
      IsWord word.reverse := fun hne hword =>
    ⟨by simpa using hne, fun c hc => hword c (List.mem_reverse.mp hc)⟩
  fun_induction wordsFrom word cs with
  | case1 => cases h
  | case2 word hne =>
    obtain rfl := List.mem_singleton.mp h
    exact hread hne hword
  | case3 word c rest hblank hempty ih => exact ih (List.forall_mem_nil _) h
  | case4 word c rest hblank hne ih =>
    rcases List.mem_cons.mp h with rfl | h
    · exact hread hne hword
    · exact ih (List.forall_mem_nil _) h
  | case5 word c rest hblank ih =>
    exact ih (List.forall_mem_cons.mpr ⟨by simpa using hblank, hword⟩) h

/-- Characters of a word are put in front of those read before. -/
theorem wordsFrom_append (hw : ∀ c ∈ w, isBlank c = false) (word rest : List Char) :
    wordsFrom word (w ++ rest) = wordsFrom (w.reverse ++ word) rest := by
  induction w generalizing word with
  | nil => rfl
  | cons c w ih =>
    obtain ⟨hc, hw⟩ := List.forall_mem_cons.mp hw
    rw [List.cons_append, wordsFrom, if_neg (by simp [hc]), ih hw, List.reverse_cons,
      List.append_assoc]
    rfl

/-- The words of words with spaces between them are these words. -/
theorem words_intercalate (h : ∀ w ∈ ws, IsWord w) : words ([' '].intercalate ws) = ws := by
  have hlast : ∀ {w : List Char}, IsWord w → w.reverse.isEmpty = false := fun hw => by
    simpa using hw.nonempty
  induction ws with
  | nil => rfl
  | cons w ws ih =>
    obtain ⟨hw, hws⟩ := List.forall_mem_cons.mp h
    cases ws with
    | nil =>
      have hread := wordsFrom_append hw.notBlank [] []
      rw [List.append_nil, List.append_nil, wordsFrom, hlast hw] at hread
      simpa [words] using hread
    | cons w' ws =>
      have hspace : isBlank ' ' = true := by decide
      rw [List.intercalate_cons_cons, words, List.append_assoc, wordsFrom_append hw.notBlank,
        List.append_nil, List.singleton_append, wordsFrom, if_pos hspace, hlast hw]
      rw [List.reverse_reverse]
      exact congrArg (w :: ·) (ih hws)

theorem singleSpaced_words (cs : List Char) : SingleSpaced ([' '].intercalate (words cs)) :=
  ⟨words cs, fun _ hw => isWord_of_mem_wordsFrom (List.forall_mem_nil _) hw, rfl⟩

theorem SingleSpaced.intercalate_words (h : SingleSpaced cs) :
    [' '].intercalate (words cs) = cs := by
  obtain ⟨ws, hws, rfl⟩ := h
  rw [words_intercalate hws]

/-- A space is the only white space between words. -/
theorem SingleSpaced.eq_space (h : SingleSpaced cs) : ∀ c ∈ cs, isBlank c = true → c = ' ' := by
  obtain ⟨ws, hws, rfl⟩ := h
  intro c hc hblank
  induction ws with
  | nil => cases hc
  | cons w ws ih =>
    obtain ⟨hw, hws⟩ := List.forall_mem_cons.mp hws
    have hfirst : c ∉ w := fun hmem => by simp [hw.notBlank c hmem] at hblank
    cases ws with
    | nil => exact absurd (by simpa using hc) hfirst
    | cons w' ws =>
      rw [List.intercalate_cons_cons, List.append_assoc, List.mem_append] at hc
      rcases List.mem_cons.mp (hc.resolve_left hfirst) with rfl | hc
      · rfl
      · exact ih hws hc

/-- Cut anywhere and marked, words with single spaces are words with single spaces again. -/
theorem SingleSpaced.take_append (h : SingleSpaced cs) (n : Nat) (hw : IsWord w) :
    SingleSpaced (cs.take n ++ w) := by
  obtain ⟨ws, hws, rfl⟩ := h
  induction ws generalizing n with
  | nil => exact ⟨[w], by simpa using hw, by simp⟩
  | cons first ws ih =>
    obtain ⟨hfirst, hws⟩ := List.forall_mem_cons.mp hws
    -- a cut inside the first word leaves one word, which the mark ends
    have hcut : SingleSpaced (first.take n ++ w) := by
      refine ⟨[first.take n ++ w], List.forall_mem_cons.mpr ⟨⟨?_, ?_⟩, List.forall_mem_nil _⟩,
        List.intercalate_singleton.symm⟩
      · exact List.append_ne_nil_of_right_ne_nil _ hw.nonempty
      · exact List.forall_mem_append.mpr
          ⟨fun c hc => hfirst.notBlank c (List.mem_of_mem_take hc), hw.notBlank⟩
    cases ws with
    | nil => rwa [List.intercalate_singleton]
    | cons next ws =>
      rw [List.intercalate_cons_cons, List.append_assoc, List.singleton_append]
      by_cases hn : n ≤ first.length
      · rwa [List.take_append_of_le_length hn]
      · obtain ⟨k, rfl⟩ : ∃ k, n = first.length + (k + 1) := ⟨n - first.length - 1, by omega⟩
        obtain ⟨ws', hws', hrest⟩ := ih k hws
        have hne : ws' ≠ [] := by
          rintro rfl
          exact hw.nonempty (List.append_eq_nil_iff.mp hrest).2
        refine ⟨first :: ws', List.forall_mem_cons.mpr ⟨hfirst, hws'⟩, ?_⟩
        obtain ⟨w', ws', rfl⟩ := List.exists_cons_of_ne_nil hne
        rw [List.take_length_add_append, List.take_succ_cons, List.append_assoc, List.cons_append,
          hrest, List.intercalate_cons_cons, List.append_assoc]
        rfl

end Text

namespace Report

open Text

theorem isWord_rest : IsWord ['…'] :=
  ⟨List.cons_ne_nil _ _, List.forall_mem_singleton.mpr (by decide)⟩

theorem singleSpaced_previewChars (cs : List Char) : SingleSpaced (previewChars cs) := by
  unfold previewChars
  dsimp only
  split
  · exact (singleSpaced_words cs).take_append maxText isWord_rest
  · exact singleSpaced_words cs

theorem length_previewChars_le (cs : List Char) : (previewChars cs).length ≤ maxText + 1 := by
  unfold previewChars
  dsimp only
  split
  · rw [List.length_append, List.length_take]
    exact Nat.add_le_add_right (Nat.min_le_left _ _) 1
  · omega

/-- What is cut and marked is cut at the mark and marked again. -/
theorem previewChars_previewChars (cs : List Char) :
    previewChars (previewChars cs) = previewChars cs := by
  have hflat := (singleSpaced_previewChars cs).intercalate_words
  unfold previewChars at hflat ⊢
  dsimp only at hflat ⊢
  rw [hflat]
  split
  · next hlong =>
    have hcut : (([' '].intercalate (words cs)).take maxText).length = maxText := by
      rw [List.length_take]
      omega
    have hmarked : maxText < (([' '].intercalate (words cs)).take maxText ++ ['…']).length := by
      rw [List.length_append, hcut]
      exact Nat.lt_succ_self _
    rw [if_pos hmarked, List.take_append_of_le_length (Nat.le_of_eq hcut.symm), List.take_take,
      Nat.min_self]
  · rfl

/-- **Previews.** A preview has the words of a text, or the first of them, with single spaces
between them, and no more than 61 characters, and it is its own preview. -/
theorem preview_law (text : String) :
    SingleSpaced (preview text).toList ∧ (preview text).length ≤ 61 ∧
      preview (preview text) = preview text := by
  have hlist : (preview text).toList = previewChars text.toList := String.toList_ofList
  refine ⟨hlist ▸ singleSpaced_previewChars _, ?_, ?_⟩
  · rw [← String.length_toList, hlist]
    exact length_previewChars_le _
  · rw [← String.toList_inj, hlist, preview, String.toList_ofList, hlist, previewChars_previewChars]

end Report

end XmlBinding
