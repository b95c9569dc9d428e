import Mathlib.Data.Nat.Digits.Lemmas
import Mathlib.Tactic.IntervalCases
import Mathlib.Tactic.Ring
import XmlBinding.Proofs.Numerals
import XmlBinding.Proofs.Trace.Extents
import XmlBinding.Proofs.Trace.Offsets

/-!
# References in content

A reference stands for one of five characters that have names, or for the character with a number
that is written in decimal or hexadecimal digits. A number may have a plus sign, which the
description of the language does not allow. A reference that stands for a character contributes this
character; any other one ends the document with an error at its place.
-/
namespace XmlBinding

open Markup (Token)

namespace Markup

/-! ### Numerals -/

/-- The value of a digit, where letters may be small or capital. -/
def HasValue (base : Nat) (c : Char) (d : Nat) : Prop :=
  d < base ∧ ("0123456789abcdef".toList[d]? = some c ∨ "0123456789ABCDEF".toList[d]? = some c)

instance (base : Nat) (c : Char) (d : Nat) : Decidable (HasValue base c d) :=
  inferInstanceAs (Decidable (_ ∧ _))

/-- Digits spell a number, the first one with the greatest weight. -/
def Spells (base : Nat) (digits : List Char) (n : Nat) : Prop :=
  digits ≠ [] ∧ ∃ values, List.Forall₂ (HasValue base) digits values ∧
    Nat.ofDigits base values.reverse = n

variable {c : Char} {d n base : Nat} {cs digits name : List Char}

/-- A character between two others is one of those in between. -/
theorem eq_ofNat_of_mem_range {low high : Char} (h : low ≤ c ∧ c ≤ high) :
    ∃ n, low.toNat ≤ n ∧ n ≤ high.toNat ∧ c = Char.ofNat n :=
  ⟨c.toNat, h.1, h.2, c.ofNat_toNat.symm⟩

theorem hasValue_of_hexDigit? (h : hexDigit? c = some d) : HasValue 16 c d := by
  unfold hexDigit? at h
  split at h
  · next hrange =>
    obtain ⟨n, hlow, hhigh, rfl⟩ := eq_ofNat_of_mem_range hrange
    cases h
    simp only [Char.reduceToNat] at hlow hhigh
    interval_cases n <;> decide
  split at h
  · next hrange =>
    obtain ⟨n, hlow, hhigh, rfl⟩ := eq_ofNat_of_mem_range hrange
    cases h
    simp only [Char.reduceToNat] at hlow hhigh
    interval_cases n <;> decide
  split at h
  · next hrange =>
    obtain ⟨n, hlow, hhigh, rfl⟩ := eq_ofNat_of_mem_range hrange
    cases h
    simp only [Char.reduceToNat] at hlow hhigh
    interval_cases n <;> decide
  · cases h

theorem hexDigit?_eq_some_iff : hexDigit? c = some d ↔ HasValue 16 c d := by
  refine ⟨hasValue_of_hexDigit?, ?_⟩
  rintro ⟨hd, h⟩
  interval_cases d <;> rcases h with h | h <;> cases h <;> rfl

theorem digit?_eq_some_iff_hasValue : Decimal.digit? c = some d ↔ HasValue 10 c d := by
  constructor
  · intro h
    unfold Decimal.digit? at h
    split at h
    · next hrange =>
      obtain ⟨n, hlow, hhigh, rfl⟩ := eq_ofNat_of_mem_range hrange
      cases h
      simp only [Char.reduceToNat] at hlow hhigh
      interval_cases n <;> decide
    · cases h
  · rintro ⟨hd, h⟩
    interval_cases d <;> rcases h with h | h <;> cases h <;> rfl

/-- To read digits from the first to the last is to sum them up with their weights. -/
theorem read_eq_some_iff (digit? : Char → Option Nat) (read? : Nat → List Char → Option Nat)
    (hdigit : ∀ c d, digit? c = some d ↔ HasValue base c d)
    (hnil : ∀ acc, read? acc [] = some acc)
    (hcons : ∀ acc c rest, read? acc (c :: rest) = (digit? c).bind fun d =>
      read? (base * acc + d) rest) (acc : Nat) (cs : List Char) :
    read? acc cs = some n ↔ ∃ values, List.Forall₂ (HasValue base) cs values ∧
      base ^ cs.length * acc + Nat.ofDigits base values.reverse = n := by
  induction cs generalizing acc with
  | nil => simp [hnil]
  | cons c rest ih =>
    have hweight : ∀ {d : Nat} {values : List Nat}, List.Forall₂ (HasValue base) rest values →
        base ^ rest.length * (base * acc + d) + Nat.ofDigits base values.reverse =
          base ^ (c :: rest).length * acc + Nat.ofDigits base (d :: values).reverse := by
      intro d values hvalues
      rw [List.reverse_cons, Nat.ofDigits_append, List.length_reverse, ← hvalues.length_eq,
        Nat.ofDigits_singleton, List.length_cons, Nat.pow_succ]
      ring
    rw [hcons, Option.bind_eq_some_iff]
    simp only [ih, hdigit]
    constructor
    · rintro ⟨d, hd, values, hvalues, hsum⟩
      exact ⟨d :: values, .cons hd hvalues, (hweight hvalues).symm.trans hsum⟩
    · rintro ⟨_, hvalues, hsum⟩
      obtain ⟨d, values, hd, hrest, rfl⟩ := List.forall₂_cons_left_iff.mp hvalues
      exact ⟨d, hd, values, hrest, (hweight hrest).trans hsum⟩

/-- A numeral has a digit. -/
theorem numeral_eq_some_iff (digit? : Char → Option Nat) (read? : Nat → List Char → Option Nat)
    (hdigit : ∀ c d, digit? c = some d ↔ HasValue base c d)
    (hnil : ∀ acc, read? acc [] = some acc)
    (hcons : ∀ acc c rest, read? acc (c :: rest) = (digit? c).bind fun d =>
      read? (base * acc + d) rest) :
    (if cs.isEmpty then none else read? 0 cs) = some n ↔ Spells base cs n := by
  cases cs with
  | nil => exact ⟨nofun, fun h => absurd rfl h.1⟩
  | cons c rest =>
    have hread := read_eq_some_iff (n := n) digit? read? hdigit hnil hcons 0 (c :: rest)
    simp only [Nat.mul_zero, Nat.zero_add] at hread
    rw [Spells, ← hread]
    exact (and_iff_right (List.cons_ne_nil c rest)).symm

theorem natural?_eq_some_iff_spells : Decimal.natural? cs = some n ↔ Spells 10 cs n :=
  numeral_eq_some_iff Decimal.digit? Decimal.ofDigits (fun _ _ => digit?_eq_some_iff_hasValue)
    (fun _ => rfl) fun acc c rest => by rw [Decimal.ofDigits]; cases Decimal.digit? c <;> rfl

theorem hexadecimal?_eq_some_iff_spells : hexadecimal? cs = some n ↔ Spells 16 cs n :=
  numeral_eq_some_iff hexDigit? ofHexDigits (fun _ _ => hexDigit?_eq_some_iff)
    (fun _ => rfl) fun acc c rest => by rw [ofHexDigits]; cases hexDigit? c <;> rfl

/-! ### What a reference stands for -/

/-- The characters that have names. -/
def predefined : List (List Char × Char) :=
  [("lt".toList, '<'), ("gt".toList, '>'), ("amp".toList, '&'), ("apos".toList, '\''),
    ("quot".toList, '"')]

/-- A reference by name or by number, where a number may have one of the `signs`. -/
inductive StandsFor (signs : List (List Char)) : List Char → Char → Prop
  | named {name : List Char} {c : Char} : (name, c) ∈ predefined → StandsFor signs name c
  | decimal {sign digits : List Char} {c : Char} : sign ∈ signs → Spells 10 digits c.toNat →
    StandsFor signs ('#' :: (sign ++ digits)) c
  | hexadecimal {mark : Char} {sign digits : List Char} {c : Char} : mark = 'x' ∨ mark = 'X' →
    sign ∈ signs → Spells 16 digits c.toNat → StandsFor signs ('#' :: mark :: (sign ++ digits)) c

/-- No sign, or a plus sign. -/
def optionalPlus : List (List Char) := [[], ['+']]

theorem HasValue.mem (h : HasValue base c d) :
    c ∈ "0123456789abcdef".toList ∨ c ∈ "0123456789ABCDEF".toList :=
  h.2.imp List.mem_of_getElem? List.mem_of_getElem?

/-- A numeral is made of digits only. -/
theorem Spells.hasValue (h : Spells base digits n) : ∀ d ∈ digits, ∃ v, HasValue base d v := by
  obtain ⟨-, values, hvalues, -⟩ := h
  induction hvalues with
  | nil => nofun
  | cons hv _ ih => exact List.forall_mem_cons.mpr ⟨⟨_, hv⟩, ih⟩

theorem Spells.exists_head (h : Spells base digits n) :
    ∃ d rest, digits = d :: rest ∧ ∃ v, HasValue base d v := by
  obtain ⟨d, rest, rfl⟩ := List.exists_cons_of_ne_nil h.1
  exact ⟨d, rest, rfl, h.hasValue d List.mem_cons_self⟩

theorem Spells.plus_not_mem (h : Spells base digits n) : '+' ∉ digits := by
  intro hmem
  obtain ⟨v, hv⟩ := h.hasValue _ hmem
  exact absurd hv.mem (by decide)

theorem spells_dropPlus_iff :
    Spells base (dropPlus cs) n ↔
      ∃ sign ∈ optionalPlus, ∃ digits, cs = sign ++ digits ∧ Spells base digits n := by
  constructor
  · intro h
    unfold dropPlus at h
    split at h
    · next rest => exact ⟨['+'], by decide, rest, rfl, h⟩
    · exact ⟨[], by decide, cs, rfl, h⟩
  · rintro ⟨sign, hsign, digits, rfl, h⟩
    simp only [optionalPlus, List.mem_cons, List.not_mem_nil, or_false] at hsign
    rcases hsign with rfl | rfl
    · obtain ⟨d, rest, rfl, -⟩ := h.exists_head
      have hplus : d ≠ '+' := fun hd => h.plus_not_mem (hd ▸ List.mem_cons_self)
      have hdrop : dropPlus (d :: rest) = d :: rest := by
        unfold dropPlus
        split
        · next heq => exact absurd (List.cons.inj heq).1 hplus
        · rfl
      rw [List.nil_append, hdrop]
      exact h
    · exact h

/-- Every character has a number, and the numbers that have a character have one. -/
theorem charOf?_eq_some_iff : charOf? n = some c ↔ c.toNat = n := by
  unfold charOf?
  by_cases hvalid : n.isValidChar
  · have hn : (Char.ofNat n).toNat = n := by
      rw [Char.ofNat, dif_pos hvalid]
      rfl
    rw [if_pos hvalid, Option.some.injEq, ← Char.toNat_inj, hn, eq_comm]
  · rw [if_neg hvalid]
    exact ⟨nofun, fun h => absurd (h ▸ c.valid) hvalid⟩

theorem bind_charOf?_eq_some_iff {o : Option Nat} : o.bind charOf? = some c ↔ o = some c.toNat := by
  rw [Option.bind_eq_some_iff]
  simp only [charOf?_eq_some_iff]
  exact ⟨fun ⟨_, ho, hn⟩ => hn ▸ ho, fun h => ⟨_, h, rfl⟩⟩

theorem mem_predefined_of_named? (h : named? name = some c) : (name, c) ∈ predefined := by
  unfold named? at h
  split at h
  all_goals cases h
  all_goals decide

theorem textReference?_of_mem_predefined (h : (name, c) ∈ predefined) :
    textReference? name = some c := by
  simp only [predefined, List.mem_cons, List.not_mem_nil, or_false, Prod.mk.injEq] at h
  rcases h with ⟨rfl, rfl⟩ | ⟨rfl, rfl⟩ | ⟨rfl, rfl⟩ | ⟨rfl, rfl⟩ | ⟨rfl, rfl⟩ <;> rfl

/-- Neither a sign nor a decimal digit marks hexadecimal digits. -/
theorem textReference?_decimal {sign : List Char} (hsign : sign ∈ optionalPlus)
    (h : Spells 10 digits n) :
    textReference? ('#' :: (sign ++ digits)) =
      (Decimal.natural? (dropPlus (sign ++ digits))).bind charOf? := by
  obtain ⟨d, rest, rfl, v, hv⟩ := h.exists_head
  simp only [optionalPlus, List.mem_cons, List.not_mem_nil, or_false] at hsign
  rcases hsign with rfl | rfl
  · have hmark : d ≠ 'x' ∧ d ≠ 'X' := by
      constructor
      · rintro rfl
        exact absurd hv.mem (by decide)
      · rintro rfl
        exact absurd hv.mem (by decide)
    rw [List.nil_append, textReference?.eq_def]
    split
    · next heq => exact absurd (List.cons.inj (List.cons.inj heq).2).1 hmark.1
    · next heq => exact absurd (List.cons.inj (List.cons.inj heq).2).1 hmark.2
    · next heq =>
      cases heq
      rfl
    · next hother => exact absurd rfl (hother _)
  · rfl

/-- What a reference in content stands for. -/
theorem textReference?_eq_some_iff :
    textReference? name = some c ↔ StandsFor optionalPlus name c := by
  constructor
  · intro h
    unfold textReference? at h
    split at h
    · obtain ⟨sign, hsign, digits, rfl, hdigits⟩ := spells_dropPlus_iff.mp
        (hexadecimal?_eq_some_iff_spells.mp (bind_charOf?_eq_some_iff.mp h))
      exact .hexadecimal (.inl rfl) hsign hdigits
    · obtain ⟨sign, hsign, digits, rfl, hdigits⟩ := spells_dropPlus_iff.mp
        (hexadecimal?_eq_some_iff_spells.mp (bind_charOf?_eq_some_iff.mp h))
      exact .hexadecimal (.inr rfl) hsign hdigits
    · obtain ⟨sign, hsign, digits, rfl, hdigits⟩ := spells_dropPlus_iff.mp
        (natural?_eq_some_iff_spells.mp (bind_charOf?_eq_some_iff.mp h))
      exact .decimal hsign hdigits
    · exact .named (mem_predefined_of_named? h)
  · intro h
    cases h with
    | named hmem => exact textReference?_of_mem_predefined hmem
    | @decimal sign digits _ hsign hdigits =>
      rw [textReference?_decimal hsign hdigits, bind_charOf?_eq_some_iff,
        natural?_eq_some_iff_spells, spells_dropPlus_iff]
      exact ⟨sign, hsign, digits, rfl, hdigits⟩
    | @hexadecimal mark sign digits _ hmark hsign hdigits =>
      have hread : (hexadecimal? (dropPlus (sign ++ digits))).bind charOf? = some c := by
        rw [bind_charOf?_eq_some_iff, hexadecimal?_eq_some_iff_spells, spells_dropPlus_iff]
        exact ⟨sign, hsign, digits, rfl, hdigits⟩
      rcases hmark with rfl | rfl
      · exact hread
      · exact hread

theorem StandsFor.mono {signs signs' : List (List Char)} (hsigns : signs ⊆ signs')
    (h : StandsFor signs name c) : StandsFor signs' name c := by
  cases h with
  | named hmem => exact .named hmem
  | decimal hsign hdigits => exact .decimal (hsigns hsign) hdigits
  | hexadecimal hmark hsign hdigits => exact .hexadecimal hmark (hsigns hsign) hdigits

/-- A reference without a sign has no plus sign anywhere. -/
theorem StandsFor.plus_not_mem (h : StandsFor [[]] name c) : '+' ∉ name := by
  cases h with
  | named hmem =>
    have hnames : ∀ entry ∈ predefined, '+' ∉ entry.1 := by decide
    exact hnames _ hmem
  | decimal hsign hdigits =>
    obtain rfl := List.mem_singleton.mp hsign
    simpa using hdigits.plus_not_mem
  | hexadecimal hmark hsign hdigits =>
    obtain rfl := List.mem_singleton.mp hsign
    rcases hmark with rfl | rfl
    · simpa using hdigits.plus_not_mem
    · simpa using hdigits.plus_not_mem

theorem StandsFor.unsigned (h : StandsFor optionalPlus name c) (hplus : '+' ∉ name) :
    StandsFor [[]] name c := by
  have hsign : ∀ {sign digits : List Char}, sign ∈ optionalPlus → '+' ∉ sign ++ digits →
      sign ∈ [[]] := by
    intro sign digits hsign hnone
    simp only [optionalPlus, List.mem_cons, List.not_mem_nil, or_false] at hsign
    rcases hsign with rfl | rfl
    · exact List.mem_singleton_self _
    · exact absurd List.mem_cons_self hnone
  cases h with
  | named hmem => exact .named hmem
  | decimal hmem hdigits =>
    exact .decimal (hsign hmem fun h => hplus (List.mem_cons_of_mem _ h)) hdigits
  | hexadecimal hmark hmem hdigits =>
    exact .hexadecimal hmark (hsign hmem fun h =>
      hplus (List.mem_cons_of_mem _ (List.mem_cons_of_mem _ h))) hdigits

/-- A name that no reference may have is resolved only because of a plus sign. -/
theorem resolves_exactly_iff :
    (∀ c, textReference? name = some c ↔ StandsFor [[]] name c) ↔
      ((textReference? name).isSome → '+' ∉ name) := by
  simp only [textReference?_eq_some_iff]
  constructor
  · intro hexact hsome
    obtain ⟨c, hc⟩ := Option.isSome_iff_exists.mp hsome
    exact ((hexact c).mp (textReference?_eq_some_iff.mp hc)).plus_not_mem
  · intro hplus c
    refine ⟨fun h => h.unsigned (hplus ?_), fun h => h.mono (by decide)⟩
    rw [textReference?_eq_some_iff.mpr h]
    rfl

end Markup

/-! ### References in a document -/

namespace Document

variable {κ : Type} {x : Extension κ} {b m : Binder κ} {text : List Char}
  {front back : List (Nat × Token)} {offset : Nat} {name : String} {opened : List OpenElement}

/-- A document in which a reference comes up: the tokens in front of it got through. -/
structure Reaches (x : Extension κ) (b : Binder κ) (text : List Char) (offset : Nat)
    (name : String) (back : List (Nat × Token)) (opened : List OpenElement) (m : Binder κ) :
    Prop where
  read : ∃ front, Markup.scan text = front ++ (offset, .reference name) :: back ∧
    handleAll x b.options.namespaceAware { rest := text } [] front (b.atStart text) = .ok opened m

/-- The text of a reference is handed on, and the document goes on behind it. -/
theorem Reaches.run_of_resolved (h : Reaches x b text offset name back opened m) {c : Char}
    (hc : Markup.textReference? name.toList = some c) :
    run x text b =
      (handleAll x b.options.namespaceAware (Cursor.seek { rest := text } offset) opened back >>=
        conclude x text) ((m.reach (Position.ofOffset text offset) (.reference name)).characters
          (String.singleton c)) := by
  obtain ⟨front, hscan, hfront⟩ := h.read
  have hhandle : handle x b.options.namespaceAware (Position.ofOffset text offset) opened
      (.reference name) (m.reach (Position.ofOffset text offset) (.reference name)) =
      .ok opened ((m.reach (Position.ofOffset text offset) (.reference name)).characters
        (String.singleton c)) := by
    simp only [handle, hc]
    rfl
  rw [run_from_token hscan hfront, Action.bind_run_of_ok hhandle]

theorem Reaches.run_of_unresolved (h : Reaches x b text offset name back opened m)
    (hc : Markup.textReference? name.toList = none) :
    run x text b =
      .error (.error (.document (Position.ofOffset text offset) (.unknownEntity name)))
        (m.reach (Position.ofOffset text offset) (.reference name)) := by
  obtain ⟨front, hscan, hfront⟩ := h.read
  have hhandle : handle x b.options.namespaceAware (Position.ofOffset text offset) opened
      (.reference name) (m.reach (Position.ofOffset text offset) (.reference name)) =
      .error (.error (.document (Position.ofOffset text offset) (.unknownEntity name)))
        (m.reach (Position.ofOffset text offset) (.reference name)) := by
    simp only [handle, hc]
    rfl
  rw [run_from_token hscan hfront, Action.bind_run_of_error hhandle]

end Document

/-- **References in content resolve exactly.** A reference stands for a character if it is one of
the five names, or a number sign, for hexadecimal digits the letter x, an optional plus sign and at
least one digit that spell the number of this character. Only where there is such a sign is this
not what the language says. Where the tokens in front of a reference
got through, its character is handed on and the document goes on; a reference that stands for no
character ends the document with an error at the position of its offset, which counts the bytes in
front of it without a byte order mark. In a text without such a mark this is the position of its
ampersand. -/
theorem entity_law {κ : Type} (x : Extension κ) (b : Binder κ) (text : String) :
    (∀ name c, Markup.textReference? name = some c ↔
      Markup.StandsFor Markup.optionalPlus name c) ∧
    (∀ name, (∀ c, Markup.textReference? name = some c ↔ Markup.StandsFor [[]] name c) ↔
      ((Markup.textReference? name).isSome → '+' ∉ name)) ∧
    ∀ (offset : Nat) (name : String) (back : List (Nat × Token)) (opened : List OpenElement)
      (m : Binder κ), Document.Reaches x b text.toList offset name back opened m →
      let here := Position.ofOffset text.toList offset
      (∃ mark front behind,
        (mark = [] ∧ text.toList.head? ≠ some '\ufeff' ∨ mark = ['\ufeff']) ∧
        text.toList = mark ++ front ++ '&' :: (name.toList ++ ';' :: behind) ∧
        offset = Text.byteLength front ∧ (mark = [] → here = Position.behind front)) ∧
      (∀ c, Markup.StandsFor Markup.optionalPlus name.toList c →
        Document.run x text.toList b =
          (Document.handleAll x b.options.namespaceAware
              (Cursor.seek { rest := text.toList } offset) opened back >>=
            Document.conclude x text.toList)
          ((m.reach here (.reference name)).characters (String.singleton c))) ∧
      ((∀ c, ¬Markup.StandsFor Markup.optionalPlus name.toList c) →
        ∃ b', parse x text b = .error (.error (.document here (.unknownEntity name))) b') := by
  refine ⟨fun name c => Markup.textReference?_eq_some_iff,
    fun name => Markup.resolves_exactly_iff, ?_⟩
  intro offset name back opened m h here
  refine ⟨?_, fun c hc => h.run_of_resolved (Markup.textReference?_eq_some_iff.mpr hc), ?_⟩
  · obtain ⟨front, hscan, -⟩ := h.read
    have hmem : (offset, .reference name) ∈ Markup.scan text.toList := by
      rw [hscan]
      exact List.mem_append_right _ List.mem_cons_self
    obtain ⟨mark, before, behind, hmark, htext, hoffset⟩ := Markup.scan_reference hmem
    refine ⟨mark, before, behind, hmark, htext, hoffset, ?_⟩
    rintro rfl
    change Position.ofOffset text.toList offset = _
    rw [htext, hoffset]
    exact Position.ofOffset_append ..
  · intro hnone
    have hc : Markup.textReference? name.toList = none :=
      Option.eq_none_iff_forall_ne_some.mpr fun c hc =>
        hnone c (Markup.textReference?_eq_some_iff.mp hc)
    exact ⟨_, parse_of_run_error (h.run_of_unresolved hc)⟩

/-- An unknown name in the second line. -/
theorem entity_law_of_an_unknown_name :
    let text := "<a>\n&b;</a>"
    ∃ back opened m, Document.Reaches .none ({} : Binder Empty) text.toList 4 "b" back opened m ∧
      ∃ b', parse .none text ({} : Binder Empty) =
        .error (.error (.document ⟨2, 1⟩ (.unknownEntity "b"))) b' := by
  intro text
  have hscan : Markup.scan text.toList = (Markup.scan text.toList).take 2 ++
      (4, .reference "b") :: (Markup.scan text.toList).drop 3 := by decide +kernel
  have hgets : ((Document.handleAll .none true { rest := text.toList } []
      ((Markup.scan text.toList).take 2)).answer?
        (({} : Binder Empty).atStart text.toList)).isSome := by decide +kernel
  obtain ⟨opened, hopened⟩ := Option.isSome_iff_exists.mp hgets
  have hreaches : Document.Reaches .none ({} : Binder Empty) text.toList 4 "b" _ opened _ :=
    ⟨_, hscan, Action.eq_ok_of_answer? hopened⟩
  have hhere : Position.ofOffset text.toList 4 = ⟨2, 1⟩ := by decide +kernel
  refine ⟨_, _, _, hreaches, ?_⟩
  have hunknown : Markup.textReference? "b".toList = none := by decide
  rw [← hhere]
  refine ((entity_law .none _ _).2.2 _ _ _ _ _ hreaches).2.2 fun c hc => ?_
  cases hunknown.symm.trans (Markup.textReference?_eq_some_iff.mpr hc)

/-- A plus sign in front of the digits does no harm, though none may stand there. -/
theorem signed_number_is_resolved :
    (∀ c, ¬Markup.StandsFor [[]] "#+65".toList c) ∧
      Markup.textReference? "#+65".toList = some 'A' ∧
      ((parse .none "<a>&#+65;</a>").answer? ({} : Binder Empty)).isSome := by
  exact ⟨fun c hc => absurd hc.plus_not_mem (by decide), by decide, by decide +kernel⟩

end XmlBinding
