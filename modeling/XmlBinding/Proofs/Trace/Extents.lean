import Mathlib.Data.List.Induction
import XmlBinding.Markup.Token
import XmlBinding.Position

/-!
# What tokens take up

A token is cut from the front of a text, and it has the size of what was cut off. So the offset of a
token is the number of bytes in front of it, and its position is found by counting the lines in front
of it and the characters on its own line.
-/
namespace XmlBinding

open Text (byteLength byteLength_cons byteLength_append)

namespace Markup

variable {cs front back marker : List Char}

/-! ### Parts of the text -/

theorem eq_of_until? (h : until? marker cs = some (front, back)) : cs = front ++ marker ++ back := by
  induction cs generalizing front with
  | nil =>
    unfold until? at h
    split at h
    · next hmarker =>
      cases h
      rw [List.isEmpty_iff.mp hmarker]
      rfl
    · cases h
  | cons c rest ih =>
    unfold until? at h
    split at h
    · next hprefix =>
      cases h
      obtain ⟨back, hback⟩ := List.isPrefixOf_iff_prefix.mp hprefix
      rw [← hback, List.drop_left]
      rfl
    · obtain ⟨⟨front', back'⟩, hrest, hpair⟩ := Option.map_eq_some_iff.mp h
      cases hpair
      rw [ih hrest]
      rfl

theorem eq_of_untilTagEnd? {quote : Option Char}
    (h : untilTagEnd? quote cs = some (front, back)) : cs = front ++ '>' :: back := by
  induction cs generalizing quote front with
  | nil => cases h
  | cons c rest ih =>
    unfold untilTagEnd? at h
    split at h
    · next hend =>
      cases h
      rw [Bool.and_eq_true, decide_eq_true_eq] at hend
      rw [hend.2]
      rfl
    · obtain ⟨⟨front', back'⟩, hrest, hpair⟩ := Option.map_eq_some_iff.mp h
      cases hpair
      rw [ih hrest]
      rfl

theorem eq_of_untilBalanced? {opened : Nat}
    (h : untilBalanced? opened cs = some (front, back)) : cs = front ++ '>' :: back := by
  induction cs generalizing opened front with
  | nil => cases h
  | cons c rest ih =>
    unfold untilBalanced? at h
    split at h
    · next hend =>
      subst hend
      cases opened with
      | zero =>
        cases h
        rfl
      | succ n =>
        obtain ⟨⟨front', back'⟩, hrest, hpair⟩ := Option.map_eq_some_iff.mp h
        cases hpair
        rw [ih hrest]
        rfl
    · obtain ⟨⟨front', back'⟩, hrest, hpair⟩ := Option.map_eq_some_iff.mp h
      cases hpair
      rw [ih hrest]
      rfl

/-! ### Tokens -/

/-- A token is cut from the front of a text. What is cut off has its size, and a reference is all
from its ampersand to its semicolon. -/
structure Scanned.CutFrom (s : Scanned) (cs taken : List Char) : Prop where
  text : cs = taken ++ s.rest
  size : byteLength taken = s.size
  reference : ∀ name, s.token = .reference name → taken = '&' :: (name.toList ++ [';'])

variable {opened : List (List Char)} {c : Char} {rest : List Char} {s : Scanned}

theorem byteLength_around (front content back : List Char) :
    byteLength (front ++ content ++ back) =
      byteLength content + (byteLength front + byteLength back) := by
  rw [byteLength_append, byteLength_append]
  omega

theorem cutFrom_scanDeclaration (h : scanDeclaration opened cs = some s) :
    ∃ taken, s.CutFrom ('<' :: '!' :: cs) taken := by
  unfold scanDeclaration at h
  split at h
  · obtain ⟨⟨content, rest⟩, huntil, hs⟩ := Option.bind_eq_some_iff.mp h
    cases hs
    refine ⟨['<', '!', '-', '-'] ++ content ++ ['-', '-', '>'], ?_, ?_, nofun⟩
    · simp [eq_of_until? huntil]
    · exact byteLength_around ..
  · obtain ⟨⟨content, rest⟩, huntil, hs⟩ := Option.bind_eq_some_iff.mp h
    cases hs
    refine ⟨['<', '!', '[', 'C', 'D', 'A', 'T', 'A', '['] ++ content ++ [']', ']', '>'], ?_, ?_,
      nofun⟩
    · simp [eq_of_until? huntil]
    · exact byteLength_around ..
  · obtain ⟨⟨content, rest⟩, huntil, hs⟩ := Option.bind_eq_some_iff.mp h
    dsimp only at hs
    split at hs
    · cases hs
      refine ⟨['<', '!'] ++ content ++ ['>'], ?_, ?_, nofun⟩
      · simp [eq_of_untilBalanced? huntil]
      · exact byteLength_around ..
    · cases hs

theorem openingTag_ne_reference {content : List Char}
    {token : String → List (String × String) → Token} {name : String}
    (h : ∀ tag attrs, token tag attrs ≠ .reference name) :
    openingTag content token ≠ .reference name := by
  unfold openingTag
  split
  · exact h _ _
  · nofun

theorem cutFrom_tag {token : Token} (huntil : untilTagEnd? none cs = some (front, back))
    (htoken : ∀ name, token ≠ .reference name) (opened : List (List Char)) :
    ∃ taken, Scanned.CutFrom ⟨token, byteLength front + 2, back, opened⟩ ('<' :: cs) taken := by
  refine ⟨['<'] ++ front ++ ['>'], ?_, ?_, fun name hname => absurd hname (htoken name)⟩
  · simp [eq_of_untilTagEnd? huntil]
  · exact byteLength_around ..

theorem cutFrom_scanMarkup (h : scanMarkup opened rest = some s) :
    ∃ taken, s.CutFrom ('<' :: rest) taken := by
  unfold scanMarkup at h
  split at h
  case h_1 | h_3 => cases h
  case h_2 => exact cutFrom_scanDeclaration h
  case h_4 =>
    obtain ⟨⟨content, rest⟩, huntil, hs⟩ := Option.bind_eq_some_iff.mp h
    cases hs
    refine ⟨['<', '?'] ++ content ++ ['?', '>'], ?_, ?_, nofun⟩
    · simp [eq_of_until? huntil]
    · exact byteLength_around ..
  case h_5 =>
    obtain ⟨⟨content, rest⟩, huntil, hs⟩ := Option.bind_eq_some_iff.mp h
    dsimp only at hs
    split at hs
    · split at hs
      · cases hs
        refine ⟨['<', '/'] ++ content ++ ['>'], ?_, ?_, nofun⟩
        · simp [eq_of_untilTagEnd? huntil]
        · exact byteLength_around ..
      · cases hs
    · cases hs
  case h_6 =>
    obtain ⟨⟨content, rest⟩, huntil, hs⟩ := Option.bind_eq_some_iff.mp h
    dsimp only at hs
    split at hs
    · cases hs
      exact cutFrom_tag huntil (fun name => openingTag_ne_reference (by simp)) _
    · cases hs
      exact cutFrom_tag huntil (fun name => openingTag_ne_reference (by simp)) _

theorem cutFrom_scanReference (h : scanReference opened rest = some s) :
    ∃ taken, s.CutFrom ('&' :: rest) taken := by
  unfold scanReference at h
  dsimp only at h
  split at h
  · next behind hbehind =>
    cases h
    let inName (c : Char) : Bool := c != ';' && c != '&' && c != '<'
    have hsplit : rest = rest.takeWhile inName ++ ';' :: behind := by
      rw [← hbehind]
      exact List.takeWhile_append_dropWhile.symm
    refine ⟨['&'] ++ rest.takeWhile inName ++ [';'], ?_, byteLength_around .., ?_⟩
    · simpa using hsplit
    · rintro name ⟨⟩
      rw [String.toList_ofList]
      rfl
  · cases h

theorem cutFrom_scanText (opened : List (List Char)) (cs : List Char) :
    ∃ taken, (scanText opened cs).CutFrom cs taken :=
  ⟨_, List.takeWhile_append_dropWhile.symm, rfl, nofun⟩

theorem cutFrom_scanFirst (h : scanFirst opened c rest = some s) :
    ∃ taken, s.CutFrom (c :: rest) taken := by
  unfold scanFirst at h
  split at h
  · next hc =>
    subst hc
    exact cutFrom_scanMarkup h
  split at h
  · next hc =>
    subst hc
    exact cutFrom_scanReference h
  · cases h
    exact cutFrom_scanText ..

/-! ### Offsets -/

theorem scanFrom_reference (done : List (Nat × Token)) (fuel start : Nat)
    (opened : List (List Char)) (cs : List Char) {offset : Nat} {name : String}
    (h : (offset, .reference name) ∈ scanFrom done fuel start opened cs) :
    (offset, .reference name) ∈ done ∨
      ∃ front back, cs = front ++ '&' :: (name.toList ++ ';' :: back) ∧
        offset = start + byteLength front := by
  fun_induction scanFrom done fuel start opened cs with
  | case1 | case2 | case4 =>
    rcases List.mem_cons.mp (List.mem_reverse.mp h) with hlast | hdone
    · cases hlast
    · exact .inl hdone
  | case3 done start opened fuel c rest s hfirst ih =>
    obtain ⟨taken, hcut⟩ := cutFrom_scanFirst hfirst
    rcases ih h with hdone | ⟨front, back, hrest, hoffset⟩
    · rcases List.mem_cons.mp hdone with hthis | hdone
      · obtain ⟨rfl, htoken⟩ := Prod.mk.inj hthis
        refine .inr ⟨[], s.rest, ?_, rfl⟩
        rw [hcut.text, hcut.reference name htoken.symm]
        simp
      · exact .inl hdone
    · refine .inr ⟨taken ++ front, back, ?_, ?_⟩
      · rw [hcut.text, hrest, List.append_assoc]
      · rw [hoffset, byteLength_append, hcut.size, Nat.add_assoc]

/-- A reference stands in the text behind as many bytes as its offset says, where a byte order mark
at the beginning does not count. -/
theorem scan_reference {text : List Char} {offset : Nat} {name : String}
    (h : (offset, .reference name) ∈ scan text) :
    ∃ mark front back, (mark = [] ∧ text.head? ≠ some '\ufeff' ∨ mark = ['\ufeff']) ∧
      text = mark ++ front ++ '&' :: (name.toList ++ ';' :: back) ∧ offset = byteLength front := by
  unfold scan at h
  dsimp only at h
  have hfound : ∀ {cs : List Char}, (offset, .reference name) ∈ scanFrom [] cs.length 0 [] cs →
      ∃ front back, cs = front ++ '&' :: (name.toList ++ ';' :: back) ∧
        offset = byteLength front := fun h => by
    rcases scanFrom_reference _ _ _ _ _ h with hdone | ⟨front, back, hcs, hoffset⟩
    · cases hdone
    · exact ⟨front, back, hcs, by rw [hoffset, Nat.zero_add]⟩
  split at h
  · obtain ⟨front, back, rfl, hoffset⟩ := hfound h
    exact ⟨['\ufeff'], front, back, .inr rfl, by simp, hoffset⟩
  · next hmark =>
    obtain ⟨front, back, rfl, hoffset⟩ := hfound h
    refine ⟨[], front, back, .inl ⟨rfl, fun hhead => ?_⟩, rfl, hoffset⟩
    obtain ⟨rest, hrest⟩ := List.head?_eq_some_iff.mp hhead
    exact hmark rest hrest

end Markup

/-! ### Positions -/

/-- The position behind a text: one line more than it has line feeds, and one column more than it
has characters behind the last of them. -/
def Position.behind (front : List Char) : Position :=
  ⟨front.count '\n' + 1, (front.reverse.takeWhile (· ≠ '\n')).length + 1⟩

/-- Go on by one character. -/
def Position.next (p : Position) (c : Char) : Position :=
  if c = '\n' then ⟨p.line + 1, 1⟩ else ⟨p.line, p.column + 1⟩

theorem Position.behind_append (front : List Char) (c : Char) :
    behind (front ++ [c]) = (behind front).next c := by
  by_cases hc : c = '\n'
  · subst hc
    simp [behind, next]
  · simp [behind, next, hc]

theorem Position.foldl_next (front : List Char) : front.foldl next ⟨1, 1⟩ = behind front := by
  induction front using List.reverseRecOn with
  | nil => rfl
  | append_singleton front c ih =>
    rw [List.foldl_append, ih, behind_append]
    rfl

/-- A walk comes to the place with as many bytes in front of it as it is long. -/
theorem Cursor.walk_append (p : Position) (byte : Nat) (front back : List Char) :
    walk (byte + byteLength front) p byte (front ++ back) =
      ⟨front.foldl Position.next p, byte + byteLength front, back⟩ := by
  induction front generalizing p byte with
  | nil =>
    cases back with
    | nil => rfl
    | cons c rest => exact if_pos (Nat.le_refl byte)
  | cons c front ih =>
    have hsize := c.utf8Size_pos
    have hstep : byte + byteLength (c :: front) = byte + c.utf8Size + byteLength front := by
      rw [byteLength_cons, Nat.add_assoc]
    rw [List.cons_append, hstep, walk, if_neg (by omega), List.foldl_cons, Position.next]
    by_cases hc : c = '\n'
    · subst hc
      rw [if_pos rfl, if_pos rfl]
      exact ih ..
    · rw [if_neg hc, if_neg hc]
      exact ih ..

/-- A place is known by the text in front of it. -/
theorem Position.ofOffset_append (front back : List Char) :
    ofOffset (front ++ back) (byteLength front) = behind front := by
  have hwalk := Cursor.walk_append ⟨1, 1⟩ 0 front back
  rw [Nat.zero_add, foldl_next] at hwalk
  rw [ofOffset, Cursor.seek, hwalk, Cursor.positionOf, if_neg (Nat.lt_irrefl _)]

end XmlBinding
