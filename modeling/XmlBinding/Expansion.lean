import XmlBinding.Dict
import XmlBinding.Attribute

/-!
# Expansion of variables

A reference `${name}` in a text is replaced by the value of the variable. The text is read
once from left to right: what a variable contributes is not read again, and a reference to an
unknown variable stays as it is written.
-/
namespace XmlBinding

/-- The name of the reference that starts here, and what follows it. A name has at least one
character and ends at the first closing brace. -/
def reference? : List Char → Option (List Char × List Char)
  | '$' :: '\x7b' :: rest =>
    let name := rest.takeWhile (· ≠ '\x7d')
    match rest.dropWhile (· ≠ '\x7d') with
    | _ :: after => if name.isEmpty then none else some (name, after)
    | [] => none
  | _ => none

theorem reference?_length {cs name after : List Char} (h : reference? cs = some (name, after)) :
    after.length < cs.length := by
  unfold reference? at h
  split at h
  · next rest =>
    split at h
    · next d after' hd =>
      dsimp only at h
      split at h
      · simp at h
      · simp only [Option.some.injEq, Prod.mk.injEq] at h
        have hl := (List.dropWhile_suffix (p := fun c => decide (c ≠ '\x7d')) (l := rest)).length_le
        rw [hd] at hl
        obtain ⟨_, rfl⟩ := h
        simp at hl ⊢
        omega
    · simp at h
  · simp at h

/-- Whether a text has the first two characters of a reference somewhere. -/
def opensReference : List Char → Bool
  | [] => false
  | c :: rest => ['$', '\x7b'].isPrefixOf (c :: rest) || opensReference rest

/-- Replace the references to variables that have a value. -/
def expandChars (value? : String → Option String) (cs : List Char) : List Char :=
  match h : reference? cs with
  | some (name, after) =>
    let shown := match value? (String.ofList name) with
      | some value => value.toList
      | none => '$' :: '\x7b' :: name ++ ['\x7d']
    have := reference?_length h
    shown ++ expandChars value? after
  | none => match cs with
    | [] => []
    | c :: rest => c :: expandChars value? rest
  termination_by cs.length

/-- Variables, and the two places in which their references are expanded. -/
structure Expander where
  values : Dict String String
  inAttributes : Bool := true
  inText : Bool := true

namespace Expander

def set (e : Expander) (name value : String) : Expander :=
  { e with values := e.values.insert name value }

def attributesOnly (e : Expander) : Expander := { e with inText := false }

def textOnly (e : Expander) : Expander := { e with inAttributes := false }

/-- A text in which no reference begins is not read at all. -/
def expand (e : Expander) (s : String) : String :=
  if opensReference s.toList then String.ofList (expandChars e.values.get? s.toList) else s

def attributes (e : Expander) (attrs : Attributes) : Attributes :=
  if e.inAttributes then attrs.mapValues e.expand else attrs

def text (e : Expander) (s : String) : String := if e.inText then e.expand s else s

end Expander

/-- What the attributes and the texts of a document go through before rules see them. -/
structure Substitutor where
  attributes : Attributes → Attributes
  text : String → String

def Expander.substitutor (e : Expander) : Substitutor := ⟨e.attributes, e.text⟩

end XmlBinding
