import XmlBinding.Text.CodeSet
import XmlBinding.Text.LowerCase

/-!
# Characters that differ only in case

Two characters are the same letter when they have one representative: the lower-case form or, for a
few variant letters, the letter they are a form of. The letters are those of edition 16.
-/
namespace XmlBinding.Text

/-- Variant letters and the letters they stand for. -/
def variantLetters : List (Nat × Nat) :=
  [(0xB5, 0x3BC), (0x17F, 0x73), (0x345, 0x3B9), (0x3C2, 0x3C3), (0x3D0, 0x3B2), (0x3D1, 0x3B8),
   (0x3D5, 0x3C6), (0x3D6, 0x3C0), (0x3F0, 0x3BA), (0x3F1, 0x3C1), (0x3F5, 0x3B5),
   (0x1C80, 0x432), (0x1C81, 0x434), (0x1C82, 0x43E), (0x1C83, 0x441), (0x1C84, 0x442),
   (0x1C85, 0x442), (0x1C86, 0x44A), (0x1C87, 0x463), (0x1C88, 0xA64B), (0x1E9B, 0x1E61),
   (0x1FBE, 0x3B9), (0x1FD3, 0x390), (0x1FE3, 0x3B0), (0xFB05, 0xFB06)]

def CaseRun.pairs (r : CaseRun) : List (Nat × Nat) :=
  (List.range ((r.last - r.first) / r.step + 1)).map fun i =>
    let n := r.first + i * r.step
    (n, ((n : Int) + r.shift).toNat)

/-- All letters that are not their own representative, each with its representative. -/
def foldings : List (Nat × Nat) := variantLetters ++ pairedRuns.flatMap CaseRun.pairs

/-- A set together with all characters that differ from one of its members only in case. -/
def CodeSet.caseless (s : CodeSet) : CodeSet :=
  let found := CodeSet.ofList ((foldings.filter fun f => s.member f.1 || s.member f.2).map (·.2))
  s.union (.ofList ((foldings.filter fun f => found.member f.2).flatMap fun f => [f.1, f.2]))

example : ((CodeSet.single 'k').caseless).cuts = [0x4B, 0x4C, 0x6B, 0x6C, 0x212A, 0x212B] := by
  decide +kernel

end XmlBinding.Text
