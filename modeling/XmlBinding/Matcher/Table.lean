import XmlBinding.Pattern

/-!
# Registered rules

A table lists every registration in order, and for every pattern the registrations under it. The
rows stand in the order in which their patterns were first registered.
-/
namespace XmlBinding

/-- One registration: a rule under a pattern, for elements of one namespace or of all. -/
structure Entry (ρ : Type) where
  pattern : String
  scope : Option String
  rule : ρ
  order : Nat

/-- A registration without a namespace applies everywhere, one with a namespace only there. -/
def Entry.accepts {ρ : Type} (e : Entry ρ) (uri : String) : Bool :=
  match e.scope with
  | none => true
  | some own => own == uri

structure Row (ρ : Type) where
  key : List Char
  shape : Pattern.Shape
  entries : List (Entry ρ)

structure Table (ρ : Type) where
  entries : List (Entry ρ) := []
  rows : List (Row ρ) := []
  /-- The namespace of the registrations to come. -/
  scope : Option String := none

namespace Table

variable {ρ : Type}

def find? (key : List Char) : List (Row ρ) → Option (List (Entry ρ))
  | [] => none
  | row :: rest => if row.key = key then some row.entries else find? key rest

def lookup? (t : Table ρ) (key : List Char) : Option (List (Entry ρ)) := find? key t.rows

/-- The better of the best row so far and another one: a longer pattern is better, and of two
equally long ones the earlier. -/
def longer (best : Option (Row ρ)) (row : Row ρ) : Option (Row ρ) :=
  match best with
  | none => some row
  | some b => if Text.byteLength b.key < Text.byteLength row.key then some row else best

/-- The row with the longest pattern among those that pass a test. -/
def longest? (t : Table ρ) (test : Row ρ → Bool) : Option (Row ρ) :=
  (t.rows.filter test).foldl longer none

/-- Add a registration to the row of its pattern, or as a new row at the end. -/
def file (key : List Char) (e : Entry ρ) : List (Row ρ) → List (Row ρ)
  | [] => [⟨key, Pattern.Shape.of key, [e]⟩]
  | row :: rest =>
    if row.key = key then { row with entries := row.entries ++ [e] } :: rest
    else row :: file key e rest

/-- Register a rule under a pattern that has been checked. -/
def register (t : Table ρ) (key : List Char) (rule : ρ) : Table ρ :=
  let e : Entry ρ := ⟨String.ofList key, t.scope, rule, t.entries.length⟩
  { t with entries := t.entries ++ [e], rows := file key e t.rows }

/-- Forget every registration and keep the namespace. -/
def clear (t : Table ρ) : Table ρ := { t with entries := [], rows := [] }

def rules (t : Table ρ) : List ρ := t.entries.map (·.rule)

/-- Register a rule if its pattern passes a check. One slash at the end of a pattern is dropped. -/
def add (t : Table ρ) (check : List Char → Except PatternError Unit) (pattern : String)
    (rule : ρ) : Except PatternError (Table ρ) := do
  let key := Pattern.dropFinalSlash pattern.toList
  check key
  return t.register key rule

end Table

end XmlBinding
