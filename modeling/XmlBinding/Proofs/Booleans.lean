import Mathlib.Data.List.Forall2
import XmlBinding.Proofs.Anchoring
import XmlBinding.Proofs.RoundTrip
import XmlBinding.Value.Coercion

/-!
# The spellings of truth values

A text is a truth value if it is one of ten words, letter by letter in any case. The two expressions
for these words know the cases of all scripts, so they take one letter more than the two cases of
ASCII: the long s.
-/
namespace XmlBinding

/-- A character is a form of a small letter: the letter, its capital in ASCII, or the long s. -/
inductive IsForm (letter : Char) : Char → Prop
  | small : IsForm letter letter
  | capital {c : Char} : 'A' ≤ c → c ≤ 'Z' → c.toNat + 32 = letter.toNat → IsForm letter c
  | long : letter = 's' → IsForm letter '\u017f'

/-- A text spells one of the words, where every letter may have any form. -/
def Spells (words : List (List Char)) (cs : List Char) : Prop :=
  ∃ word ∈ words, List.Forall₂ IsForm word cs

def affirmations : List (List Char) :=
  [['t', 'r', 'u', 'e'], ['y', 'e', 's'], ['y'], ['o', 'n'], ['1']]

def denials : List (List Char) :=
  [['f', 'a', 'l', 's', 'e'], ['n', 'o'], ['n'], ['o', 'f', 'f'], ['0']]

/-- The letters that the words are made of. -/
def letters : List Char := (affirmations ++ denials).flatten

theorem letters_affirmations : ∀ word ∈ affirmations, ∀ letter ∈ word, letter ∈ letters :=
  fun word hword _ h => List.mem_flatten.mpr ⟨word, List.mem_append_left _ hword, h⟩

theorem letters_denials : ∀ word ∈ denials, ∀ letter ∈ word, letter ∈ letters :=
  fun word hword _ h => List.mem_flatten.mpr ⟨word, List.mem_append_right _ hword, h⟩

/-- The forms of a letter by their code points. -/
theorem isForm_iff {letter c : Char} :
    IsForm letter c ↔ c.toNat = letter.toNat ∨
      (65 ≤ c.toNat ∧ c.toNat ≤ 90 ∧ c.toNat + 32 = letter.toNat) ∨
      (letter.toNat = 115 ∧ c.toNat = 0x17f) := by
  constructor
  · rintro (_ | ⟨hlow, hhigh, h⟩ | rfl)
    · exact .inl rfl
    · exact .inr (.inl ⟨hlow, hhigh, h⟩)
    · exact .inr (.inr ⟨rfl, rfl⟩)
  · rintro (h | ⟨hlow, hhigh, h⟩ | ⟨hletter, h⟩)
    · obtain rfl := Char.toNat_inj.mp h
      exact .small
    · exact .capital hlow hhigh h
    · obtain rfl : c = '\u017f' := Char.toNat_inj.mp h
      exact .long (Char.toNat_inj.mp hletter)

theorem letter_range :
    ∀ letter ∈ letters, (97 ≤ letter.toNat ∧ letter.toNat ≤ 122 ∧ letter.isDigit = false) ∨
      (letter.isDigit = true ∧ 48 ≤ letter.toNat ∧ letter.toNat ≤ 57) :=
  @of_decide_eq_true _ (List.decidableBAll _ letters) rfl

theorem toNat_toLower (c : Char) :
    c.toLower.toNat = if 65 ≤ c.toNat ∧ c.toNat ≤ 90 then c.toNat + 32 else c.toNat := by
  unfold Char.toLower
  by_cases h : c.val ≥ 'A'.val ∧ c.val ≤ 'Z'.val
  · have hbounds : 65 ≤ c.toNat ∧ c.toNat ≤ 90 := h
    have hsum : (c.val + ('a'.val - 'A'.val)).toNat = (c.toNat + 32) % 2 ^ 32 :=
      UInt32.toNat_add ..
    rw [dif_pos h, if_pos hbounds]
    change (c.val + ('a'.val - 'A'.val)).toNat = _
    rw [hsum, Nat.mod_eq_of_lt (by omega)]
  · have hbounds : ¬(65 ≤ c.toNat ∧ c.toNat ≤ 90) := h
    rw [dif_neg h, if_neg hbounds]

theorem foldLetter_eq_iff {letter c : Char} (h : letter ∈ letters) :
    Value.foldLetter c = letter ↔ IsForm letter c := by
  have hrange := letter_range letter h
  have hlong : c = '\u017f' ↔ c.toNat = 0x17f := ⟨by rintro rfl; rfl, fun h => Char.toNat_inj.mp h⟩
  rw [isForm_iff, ← Char.toNat_inj]
  unfold Value.foldLetter
  by_cases hc : c = '\u017f'
  · rw [if_pos hc]
    have hs : 's'.toNat = 115 := rfl
    have := hlong.mp hc
    omega
  · rw [if_neg hc, toNat_toLower]
    have := mt hlong.mpr hc
    split <;> omega

/-- A text that is folded to a word is made of forms of its letters. -/
theorem map_foldLetter_eq_iff {word cs : List Char} (h : ∀ letter ∈ word, letter ∈ letters) :
    cs.map Value.foldLetter = word ↔ List.Forall₂ IsForm word cs := by
  induction word generalizing cs with
  | nil => simp
  | cons letter word ih =>
    obtain ⟨hletter, hword⟩ := List.forall_mem_cons.mp h
    cases cs with
    | nil => simp
    | cons c cs =>
      rw [List.map_cons, List.cons.injEq, List.forall₂_cons, foldLetter_eq_iff hletter, ih hword]

namespace Regex

/-! ### An expression for words -/

/-- Modes in which the case of letters does not count. -/
def caseless : Flags := { caseless := true }

def letterPiece (c : Char) : Piece := ⟨caseless.literal c, 0⟩

def wordPiece (word : List Char) : Piece := Piece.sequence (word.map letterPiece)

/-- An expression for a whole text that is one of the words. -/
def oneOf (words : List (List Char)) : Regex :=
  anchored (Piece.choice (words.map wordPiece)).expr

/-- What is read in the group of the words. -/
def choosing (branches items : List Piece) : ReadState where
  level := { branches := branches, items := items }
  open_ := [opening]
  flags := caseless

variable {words : List (List Char)} {word : List Char}

theorem readAll?_start (fuel : Nat) (cs : List Char) :
    readAll? (fuel + 2) {} (['^', '(', '?', 'i', ':'] ++ cs) = readAll? fuel (choosing [] []) cs :=
  rfl

theorem readAll?_letters (branches items : List Piece) (fuel : Nat) (rest : List Char)
    (h : ∀ c ∈ word, c ∉ operators) :
    readAll? (word.length + fuel) (choosing branches items) (word ++ rest) =
      readAll? fuel (choosing branches ((word.map letterPiece).reverse ++ items)) rest := by
  induction word generalizing items with
  | nil => rw [List.length_nil, Nat.zero_add]; rfl
  | cons c word ih =>
    obtain ⟨hc, hword⟩ := List.forall_mem_cons.mp h
    have hstep : (choosing branches items).step? (c :: (word ++ rest)) =
        some (choosing branches (letterPiece c :: items), word ++ rest) := step?_literal hc
    rw [List.length_cons, Nat.add_right_comm, List.cons_append, readAll?_of_step hstep, ih _ hword,
      List.map_cons, List.reverse_cons, List.append_assoc]
    rfl

/-- The words are read one after the other as the branches of the group. -/
theorem readAll?_words (branches : List Piece) (fuel : Nat) (rest : List Char) (hne : words ≠ [])
    (h : ∀ word ∈ words, ∀ c ∈ word, c ∉ operators) :
    ∃ branches' items', (choosing branches' items').level.value =
        Piece.choice (branches.reverse ++ words.map wordPiece) ∧
      readAll? ((['|'].intercalate words).length + fuel) (choosing branches [])
          (['|'].intercalate words ++ rest) =
        readAll? fuel (choosing branches' items') rest := by
  induction words generalizing branches with
  | nil => exact absurd rfl hne
  | cons word words ih =>
    obtain ⟨hword, hwords⟩ := List.forall_mem_cons.mp h
    cases words with
    | nil =>
      refine ⟨branches, (word.map letterPiece).reverse, ?_, ?_⟩
      · simp [choosing, Level.value, Level.branch, wordPiece]
      · simpa using readAll?_letters branches [] fuel rest hword
    | cons word' words =>
      obtain ⟨branches', items', hvalue, hread⟩ :=
        ih (wordPiece word :: branches) (List.cons_ne_nil _ _) hwords
      have hsplit : ['|'].intercalate (word :: word' :: words) =
          word ++ '|' :: ['|'].intercalate (word' :: words) := by
        rw [List.intercalate_cons_cons, List.append_assoc]
        rfl
      refine ⟨branches', items', ?_, ?_⟩
      · rw [hvalue]
        simp
      · have hbar : (choosing branches ((word.map letterPiece).reverse ++ [])).step?
            ('|' :: (['|'].intercalate (word' :: words) ++ rest)) =
            some (choosing (wordPiece word :: branches) [],
              ['|'].intercalate (word' :: words) ++ rest) := by
          simp [choosing, ReadState.step?, ReadState.branch, Level.branch, wordPiece]
        rw [← hread, hsplit, List.length_append, List.length_cons, Nat.add_assoc,
          Nat.add_right_comm, List.append_assoc, readAll?_letters _ _ _ _ hword, List.cons_append,
          readAll?_of_step hbar]

theorem not_mem_operators : ∀ letter ∈ letters, letter ∉ operators :=
  @of_decide_eq_true _ (List.decidableBAll _ letters) rfl

/-- The expression as it is written. -/
def choice (words : List (List Char)) : List Char :=
  ['^', '(', '?', 'i', ':'] ++ ['|'].intercalate words ++ ending

/-- The expression as it is written is read as the expression for the words, if it is not nested too
deeply. -/
theorem isExpression_choice (hne : words ≠ [])
    (h : ∀ word ∈ words, ∀ letter ∈ word, letter ∈ letters)
    (hdepth : (Piece.choice (words.map wordPiece)).depth + 2 ≤ depthLimit) :
    IsExpression (choice words) (oneOf words) := by
  obtain ⟨branches', items', hvalue, hread⟩ := readAll?_words [] 6 ending hne
    fun word hword letter hletter => not_mem_operators letter (h word hword letter hletter)
  have hlength : (choice words).length + 1 = (['|'].intercalate words).length + 6 + 2 := by
    rw [choice, List.length_append, List.length_append]
    change 5 + (['|'].intercalate words).length + 2 + 1 = _
    omega
  have hopening : readAll? ((choice words).length + 1) {} (choice words) =
      readAll? ((['|'].intercalate words).length + 6) (choosing [] [])
        (['|'].intercalate words ++ ending) := by
    rw [hlength, choice, List.append_assoc]
    exact readAll?_start _ _
  let p := Piece.choice (words.map wordPiece)
  let closed : ReadState :=
    { level := { opening with items := ⟨.group false p.expr, p.depth + 1⟩ :: opening.items } }
  have hclose : (choosing branches' items').step? ending = some (closed, ['$']) := by
    have hvalue' : (choosing branches' items').level.value = p := hvalue
    have hinner : p.depth + 1 ≤ depthLimit := Nat.le_of_succ_le hdepth
    change (ReadState.leave? (choosing branches' items')).map (·, ['$']) = _
    unfold ReadState.leave?
    rw [hvalue']
    exact congrArg (Option.map (·, ['$'])) (if_pos hinner)
  have hend : readAll? (5 + 1) (choosing branches' items') ending = readAll? 5 closed ['$'] :=
    readAll?_of_step hclose
  have hdeepest : greatestDepth [⟨.look .textStart, 0⟩, ⟨.group false p.expr, p.depth + 1⟩,
      ⟨.look .textEnd, 0⟩] = p.depth + 1 := by simp [greatestDepth]
  have hwhole : readAll? 5 closed ['$'] = some ⟨oneOf words, p.depth + 2⟩ :=
    congrArg (fun depth => some (Piece.mk (oneOf words) (depth + 1))) hdeepest
  exact ⟨_, by rw [hopening, hread, hend, hwhole], hdepth, rfl⟩

/-! ### The forms of a letter -/

open Text (CodeSet)

/-- The letters that are forms of a small letter of ASCII, each with that letter. -/
def asciiFoldings : List (Nat × Nat) :=
  (0x17f, 0x73) :: (List.range 26).map (fun i => (0x41 + i, 0x61 + i)) ++ [(0x212a, 0x6b)]

/-- The letters that a fold relates to some characters. -/
def related (foldings : List (Nat × Nat)) (s : CodeSet) : CodeSet :=
  .ofList ((foldings.filter fun f => s.member f.1 || s.member f.2).map (·.2))

/-- All forms of some letters. -/
def formsOf (foldings : List (Nat × Nat)) (s : CodeSet) : CodeSet :=
  .ofList ((foldings.filter fun f => s.member f.2).flatMap fun f => [f.1, f.2])

/-- A set has characters of ASCII only. -/
structure IsAscii (s : CodeSet) : Prop where
  below : s.isBelow 0x80 = true
  closed : s.cuts.length % 2 = 0

instance (s : CodeSet) : Decidable (IsAscii s) :=
  decidable_of_iff (s.isBelow 0x80 = true ∧ s.cuts.length % 2 = 0)
    ⟨fun h => ⟨h.1, h.2⟩, fun h => ⟨h.below, h.closed⟩⟩

theorem memberFrom_of_le {inside : Bool} {n : Nat} {cuts : List Nat} (h : ∀ cut ∈ cuts, cut ≤ n) :
    CodeSet.memberFrom inside n cuts = (inside ^^ decide (cuts.length % 2 = 1)) := by
  induction cuts generalizing inside with
  | nil => simp [CodeSet.memberFrom]
  | cons cut cuts ih =>
    obtain ⟨hcut, hcuts⟩ := List.forall_mem_cons.mp h
    rw [CodeSet.memberFrom, if_neg (Nat.not_lt_of_le hcut), ih hcuts, List.length_cons]
    rcases Nat.mod_two_eq_zero_or_one cuts.length with heven | hodd
    · simp [heven, Nat.add_mod]
    · simp [hodd, Nat.add_mod]

theorem IsAscii.lt {s : CodeSet} (h : IsAscii s) {n : Nat} (hn : s.member n = true) : n < 0x80 := by
  refine Nat.lt_of_not_le fun hle => ?_
  have hcuts : ∀ cut ∈ s.cuts, cut ≤ n := fun cut hcut =>
    Nat.le_trans (of_decide_eq_true (List.all_eq_true.mp h.below cut hcut)) hle
  rw [CodeSet.member, memberFrom_of_le hcuts, h.closed] at hn
  exact absurd hn (by decide)

theorem filter_foldings {p : Nat × Nat → Bool}
    (h : ∀ f, p f = true → f.1 < 0x80 ∨ f.2 < 0x80) :
    Text.foldings.filter p = asciiFoldings.filter p := by
  have hascii : Text.foldings.filter (fun f => f.1 < 0x80 || f.2 < 0x80) = asciiFoldings := by
    decide +kernel
  rw [← hascii, List.filter_filter]
  refine List.filter_congr fun f _ => ?_
  cases hp : p f with
  | false => rfl
  | true => simpa using h f hp

/-- The forms of characters of ASCII are found among the few that ASCII has a part in. -/
theorem caseless_eq {s : CodeSet} (hs : IsAscii s) (hrelated : IsAscii (related asciiFoldings s)) :
    s.caseless = s.union (formsOf asciiFoldings (related asciiFoldings s)) := by
  have hfirst : related Text.foldings s = related asciiFoldings s := by
    refine congrArg (fun found => CodeSet.ofList (found.map Prod.snd)) (filter_foldings ?_)
    intro f hf
    exact (Bool.or_eq_true_iff.mp hf).imp hs.lt hs.lt
  have hsecond : formsOf Text.foldings (related asciiFoldings s) =
      formsOf asciiFoldings (related asciiFoldings s) := by
    rw [formsOf, formsOf, filter_foldings fun _ hf => .inr (hrelated.lt hf)]
  rw [← hsecond, ← hfirst]
  rfl

/-- The places where the forms of a letter begin and end. -/
def formCuts (letter : Char) : List Nat :=
  let n := letter.toNat
  if letter = 's' then [n - 32, n - 31, n, n + 1, 0x17f, 0x180]
  else if letter.isDigit then [n, n + 1]
  else [n - 32, n - 31, n, n + 1]

theorem folded_letter {letter : Char} (h : letter ∈ letters) :
    (caseless.folded (.single letter)).cuts = formCuts letter := by
  have hall : ∀ letter ∈ letters, IsAscii (.single letter) ∧
      IsAscii (related asciiFoldings (.single letter)) ∧
      ((CodeSet.single letter).union
        (formsOf asciiFoldings (related asciiFoldings (.single letter)))).cuts =
      formCuts letter := by
    refine @of_decide_eq_true _ (List.decidableBAll _ letters) ?_
    decide +kernel
  obtain ⟨hascii, hrelated, hcuts⟩ := hall letter h
  rw [← hcuts, ← caseless_eq hascii hrelated]
  rfl

theorem isExpression_affirmations :
    IsExpression "^(?i:true|yes|y|on|1)$".toList (oneOf affirmations) := by
  have hwritten : "^(?i:true|yes|y|on|1)$".toList = choice affirmations := by decide
  exact hwritten ▸ isExpression_choice (by decide) letters_affirmations (by decide)

theorem isExpression_denials :
    IsExpression "^(?i:false|no|n|off|0)$".toList (oneOf denials) := by
  have hwritten : "^(?i:false|no|n|off|0)$".toList = choice denials := by decide
  exact hwritten ▸ isExpression_choice (by decide) letters_denials (by decide)

/-! ### What the expression matches -/

theorem contains_folded_iff {letter c : Char} (h : letter ∈ letters) :
    (caseless.folded (.single letter)).contains c = true ↔ IsForm letter c := by
  have hs : letter = 's' ↔ letter.toNat = 115 := ⟨by rintro rfl; rfl, fun h => Char.toNat_inj.mp h⟩
  rw [CodeSet.contains, CodeSet.member, folded_letter h, formCuts, isForm_iff]
  rcases letter_range letter h with ⟨hlow, hhigh, hdigit⟩ | ⟨hdigit, hlow, hhigh⟩
  · simp only [hdigit, hs, Bool.false_eq_true, if_false]
    split <;> simp only [CodeSet.memberFrom] <;> grind
  · have hne : ¬letter = 's' := by rw [hs]; omega
    rw [if_neg hne, if_pos hdigit]
    simp only [CodeSet.memberFrom]
    grind

theorem contains_single_iff {letter c : Char} :
    (CodeSet.single letter).contains c = true ↔ c = letter := by
  have hcuts : CodeSet.single letter = ⟨[letter.toNat, letter.toNat + 1]⟩ :=
    if_pos (Nat.le_refl _)
  rw [hcuts, ← Char.toNat_inj, CodeSet.contains, CodeSet.member]
  simp only [CodeSet.memberFrom]
  grind

theorem leads_literal_iff {letter : Char} (h : letter ∈ letters) {p q : Split} :
    (caseless.literal letter).Leads p q ↔ ∃ c, IsForm letter c ∧ p.Passes c q := by
  simp only [← contains_folded_iff h]
  unfold Flags.literal
  dsimp only
  split
  · next hsingle =>
    rw [hsingle]
    simp only [contains_single_iff, exists_eq_left]
    rfl
  · rfl

/-- A sequence of letters leads over one form of each. -/
theorem leadsAll_literals_iff (h : ∀ letter ∈ word, letter ∈ letters) {p q : Split} :
    LeadsAll (word.map caseless.literal) p q ↔
      ∃ taken, List.Forall₂ IsForm word taken ∧ p.back = taken ++ q.back ∧
        q.front = p.front ++ taken := by
  induction word generalizing p with
  | nil =>
    constructor
    · rintro rfl
      exact ⟨[], .nil, rfl, (List.append_nil _).symm⟩
    · rintro ⟨_, ⟨⟩, hback, hfront⟩
      cases p
      cases q
      simp_all [LeadsAll]
  | cons letter word ih =>
    obtain ⟨hletter, hword⟩ := List.forall_mem_cons.mp h
    constructor
    · rintro ⟨m, hfirst, hrest⟩
      obtain ⟨c, hc, hback, hfront⟩ := (leads_literal_iff hletter).mp hfirst
      obtain ⟨taken, hforms, hback', hfront'⟩ := (ih hword).mp hrest
      exact ⟨c :: taken, .cons hc hforms, by rw [hback, hback']; rfl,
        by rw [hfront', hfront, List.append_assoc]; rfl⟩
    · rintro ⟨_, hforms, hback, hfront⟩
      cases hforms with
      | @cons _ c _ taken hc hforms =>
        refine ⟨⟨p.front ++ [c], taken ++ q.back⟩,
          (leads_literal_iff hletter).mpr ⟨c, hc, hback, rfl⟩, (ih hword).mpr ?_⟩
        exact ⟨taken, hforms, rfl, by rw [hfront, List.append_assoc]; rfl⟩

/-- The expression for a word matches what spells it. -/
theorem matchesWhole_wordPiece_iff (h : ∀ letter ∈ word, letter ∈ letters) {cs : List Char} :
    (wordPiece word).expr.MatchesWhole cs ↔ List.Forall₂ IsForm word cs := by
  have hall : (wordPiece word).expr.MatchesWhole cs ↔
      LeadsAll (word.map caseless.literal) ⟨[], cs⟩ ⟨cs, []⟩ := by
    match word with
    | [] => rfl
    | [letter] => simp [wordPiece, Piece.sequence, letterPiece, MatchesWhole, LeadsAll]
    | letter :: letter' :: word =>
      simp [wordPiece, Piece.sequence, letterPiece, MatchesWhole, Leads, Function.comp_def]
  rw [hall, leadsAll_literals_iff h]
  constructor
  · rintro ⟨taken, hforms, hback, -⟩
    obtain rfl : cs = taken := hback.trans (List.append_nil taken)
    exact hforms
  · intro hforms
    exact ⟨cs, hforms, (List.append_nil cs).symm, rfl⟩

theorem leadsAny_iff {rs : List Regex} {p q : Split} :
    LeadsAny rs p q ↔ ∃ r ∈ rs, r.Leads p q := by
  induction rs with
  | nil => simp [LeadsAny]
  | cons r rs ih => rw [LeadsAny, ih, List.exists_mem_cons_iff]

theorem occursIn_oneOf (h : ∀ word ∈ words, ∀ letter ∈ word, letter ∈ letters) (cs : List Char) :
    (oneOf words).occursIn cs = true ↔ Spells words cs := by
  have hany : (Piece.choice (words.map wordPiece)).expr.MatchesWhole cs ↔
      ∃ word ∈ words, (wordPiece word).expr.MatchesWhole cs := by
    match words with
    | [word] => simp [Piece.choice]
    | [] => simp [Piece.choice, MatchesWhole, Leads, LeadsAny]
    | word :: word' :: words =>
      have hchoice : (Piece.choice ((word :: word' :: words).map wordPiece)).expr =
          .either ((word :: word' :: words).map fun w => (wordPiece w).expr) := by
        simp [Piece.choice]
      rw [hchoice]
      refine leadsAny_iff.trans ?_
      simp only [List.mem_map, exists_exists_and_eq_and]
      rfl
  rw [oneOf, occursIn_anchored, hany]
  exact exists_congr fun word => and_congr_right fun hword =>
    matchesWhole_wordPiece_iff (h word hword)

end Regex

/-! ### White space around a word -/

namespace Text

/-- What is cut off both ends of a text is white space. -/
theorem exists_trimChars (cs : List Char) :
    ∃ front back, cs = front ++ trimChars cs ++ back ∧ (∀ c ∈ front, isBlank c = true) ∧
      ∀ c ∈ back, isBlank c = true := by
  have htaken : ∀ cs : List Char, ∀ c ∈ cs.takeWhile isBlank, isBlank c = true := fun cs c hc =>
    List.all_eq_true.mp List.all_takeWhile c hc
  have hfront : cs.takeWhile isBlank ++ trimFront cs = cs := List.takeWhile_append_dropWhile
  have hback : (trimFront cs).reverse.takeWhile isBlank ++ trimFront (trimFront cs).reverse =
      (trimFront cs).reverse := List.takeWhile_append_dropWhile
  refine ⟨cs.takeWhile isBlank, ((trimFront cs).reverse.takeWhile isBlank).reverse, ?_, htaken cs,
    fun c hc => htaken _ c (List.mem_reverse.mp hc)⟩
  have hinner : trimChars cs ++ ((trimFront cs).reverse.takeWhile isBlank).reverse =
      trimFront cs := by
    rw [trimChars, ← List.reverse_append, hback, List.reverse_reverse]
  rw [List.append_assoc, hinner, hfront]

end Text

/-- A text spells one of the words between white space. -/
def SpellsWithin (words : List (List Char)) (cs : List Char) : Prop :=
  ∃ front spelled back, cs = front ++ spelled ++ back ∧ (∀ c ∈ front, Text.isBlank c = true) ∧
    (∀ c ∈ back, Text.isBlank c = true) ∧ Spells words spelled

theorem IsForm.notBlank {letter c : Char} (h : IsForm letter c) (hletter : letter ∈ letters) :
    Text.isBlank c = false := by
  have hrange := letter_range letter hletter
  have hform := isForm_iff.mp h
  simp only [Text.isBlank, Bool.or_eq_false_iff, Bool.and_eq_false_iff, decide_eq_false_iff_not,
    beq_eq_false_iff_ne]
  omega

theorem notBlank_of_forms {word cs : List Char} (h : List.Forall₂ IsForm word cs)
    (hword : ∀ letter ∈ word, letter ∈ letters) : ∀ c ∈ cs, Text.isBlank c = false := by
  induction h with
  | nil => exact nofun
  | cons hform _ ih =>
    obtain ⟨hletter, hword⟩ := List.forall_mem_cons.mp hword
    exact List.forall_mem_cons.mpr ⟨hform.notBlank hletter, ih hword⟩

/-- The white space around a word is what is cut off. -/
theorem spellsWithin_iff {words : List (List Char)} {cs : List Char}
    (hwords : ∀ word ∈ words, ∀ letter ∈ word, letter ∈ letters) :
    SpellsWithin words cs ↔ Spells words (Text.trimChars cs) := by
  constructor
  · rintro ⟨front, spelled, back, rfl, hfront, hback, hspells⟩
    obtain ⟨word, hword, hforms⟩ := hspells
    rw [trimChars_around hfront hback (notBlank_of_forms hforms (hwords word hword))]
    exact ⟨word, hword, hforms⟩
  · intro h
    obtain ⟨front, back, hcs, hfront, hback⟩ := Text.exists_trimChars cs
    exact ⟨front, _, back, hcs, hfront, hback, h⟩

/-! ### The law of truth values -/

/-- What is read is what is spelled, as no text spells a word for true and one for false. -/
theorem readBool?_eq_some_iff (cs : List Char) :
    (Value.readBool? cs = some true ↔ Spells affirmations cs) ∧
      (Value.readBool? cs = some false ↔ Spells denials cs) := by
  have hspells : ∀ words : List (List Char), (∀ word ∈ words, ∀ letter ∈ word, letter ∈ letters) →
      (words.contains (cs.map Value.foldLetter) = true ↔ Spells words cs) := by
    intro words hwords
    rw [List.contains_iff_mem]
    refine ⟨fun hmem => ⟨_, hmem, (map_foldLetter_eq_iff (hwords _ hmem)).mp rfl⟩, ?_⟩
    rintro ⟨word, hword, hforms⟩
    rwa [(map_foldLetter_eq_iff (hwords word hword)).mpr hforms]
  rw [← hspells _ letters_affirmations, ← hspells _ letters_denials]
  have hone : ∀ word ∈ affirmations, word ∉ denials := by decide
  have hread : Value.readBool? cs =
      if affirmations.contains (cs.map Value.foldLetter) then some true
      else if denials.contains (cs.map Value.foldLetter) then some false else none := rfl
  rw [hread]
  cases hyes : affirmations.contains (cs.map Value.foldLetter) with
  | true =>
    have hno : denials.contains (cs.map Value.foldLetter) = false := by
      simpa using hone _ (List.contains_iff_mem.mp hyes)
    rw [hno]
    simp
  | false => cases denials.contains (cs.map Value.foldLetter) <;> simp

theorem coerce_bool_eq (s : String) : Value.coerce .bool (.text s) =
    (Value.readBool? (Text.trimChars s.toList)).elim (.error ⟨s, .bool⟩) (.ok <| .bool ·) := by
  have hread : Value.read? .bool s =
      (Value.readBool? (Text.trimChars s.toList)).map .bool := rfl
  unfold Value.coerce
  dsimp only
  rw [hread]
  cases Value.readBool? (Text.trimChars s.toList) <;> rfl

/-- **A truth value has ten spellings.** A text is converted to true if it spells, between white
space, one of the words `true`, `yes`, `y`, `on` and `1`, and to false if it spells one of the words
`false`, `no`, `n`, `off` and `0`, where each letter may be small or capital and a long s is an s as
well. Any other text is not converted, and the error has the text as it is given. These are the
texts that the two expressions for the words find, run in a mode where the case of letters does not
count. -/
theorem boolean_law (s : String) :
    (Value.coerce .bool (.text s) = .ok (.bool true) ↔ SpellsWithin affirmations s.toList) ∧
      (Value.coerce .bool (.text s) = .ok (.bool false) ↔ SpellsWithin denials s.toList) ∧
      (¬SpellsWithin affirmations s.toList → ¬SpellsWithin denials s.toList →
        Value.coerce .bool (.text s) = .error ⟨s, .bool⟩) ∧
      ∃ yes no : Regex, Regex.IsExpression "^(?i:true|yes|y|on|1)$".toList yes ∧
        Regex.IsExpression "^(?i:false|no|n|off|0)$".toList no ∧
        ∀ cs, Value.readBool? cs =
          if yes.occursIn cs then some true else if no.occursIn cs then some false else none := by
  obtain ⟨hyes, hno⟩ := readBool?_eq_some_iff (Text.trimChars s.toList)
  rw [spellsWithin_iff letters_affirmations, spellsWithin_iff letters_denials, ← hyes, ← hno]
  rw [coerce_bool_eq]
  refine ⟨?_, ?_, ?_, _, _, Regex.isExpression_affirmations, Regex.isExpression_denials,
    fun cs => ?_⟩
  · cases Value.readBool? (Text.trimChars s.toList) <;> simp
  · cases Value.readBool? (Text.trimChars s.toList) <;> simp
  · intro hnotTrue hnotFalse
    cases hvalue : Value.readBool? (Text.trimChars s.toList) with
    | none => rfl
    | some b => cases b <;> simp_all
  · obtain ⟨hyes, hno⟩ := readBool?_eq_some_iff cs
    have hyes' := hyes.trans (Regex.occursIn_oneOf letters_affirmations cs).symm
    have hno' := hno.trans (Regex.occursIn_oneOf letters_denials cs).symm
    cases hvalue : Value.readBool? cs with
    | none => simp_all
    | some b => cases b <;> simp_all

/-- The long s is an s. -/
theorem long_s_is_accepted :
    Value.coerce .bool (.text "ye\u017f") = .ok (.bool true) ∧
      ∀ word ∈ affirmations ++ denials, (Text.trimChars "ye\u017f".toList).map Char.toLower ≠
        word :=
  ⟨rfl, by decide⟩

end XmlBinding
