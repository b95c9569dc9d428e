import XmlBinding.Matcher.Table

/-!
# Competing and universal patterns

Patterns without `!` compete for an element: its exact path comes first, then `parent/?`, then the
nearest `ancestor/*`, then the heaviest pattern with a leading `*/`, and `*` when nothing else
covers the path. Universal patterns do not compete; all that cover the path are taken as well. The
result is in the order of registration.
-/
namespace XmlBinding.Extended

variable {ρ : Type}

/-- Register a rule under a pattern with any of the marks. -/
def add (t : Table ρ) (pattern : String) (rule : ρ) : Except PatternError (Table ρ) :=
  t.add Pattern.checkExtended pattern rule

/-- Whether a row is an `ancestor/*` pattern and the path leads through its ancestor. -/
def leadsThrough (path : List Char) (row : Row ρ) : Bool :=
  row.shape.anyDescendant && row.key.dropLast.isPrefixOf path

/-- The registrations of the exact path, of the children of its parent, or of the descendants of
its nearest ancestor that has some, which is the one with the longest path. -/
def settled? (t : Table ρ) (path : List Char) : Option (List (Entry ρ)) :=
  match t.lookup? path with
  | some found => some found
  | none => match Pattern.parent? path with
    | none => none
    | some parent => match t.lookup? (parent ++ ['/', '?']) with
      | some found => some found
      | none => (t.longest? (leadsThrough path)).map (·.entries)

/-- The rows that are compared with the path one by one: those with a leading `*/`, and the
universal ones for all descendants. -/
def isScanned (row : Row ρ) : Bool :=
  row.shape.anyAncestor || (row.shape.universal && row.shape.anyDescendant)

/-- The scanned rows that cover the path; `none` if one of them has no part to compare. -/
def covering? (path : List Char) : List (Row ρ) → Option (List (Row ρ))
  | [] => some []
  | row :: rest =>
    if isScanned row then
      match row.shape.covers? (Pattern.withoutBang row.key) path, covering? path rest with
      | some true, some found => some (row :: found)
      | some false, some found => some found
      | _, _ => none
    else covering? path rest

/-- The first of the heaviest rows. -/
def heavier (best : Option (Row ρ)) (row : Row ρ) : Option (Row ρ) :=
  match best with
  | none => if 0 < row.shape.weight row.key then some row else none
  | some b => if b.shape.weight b.key < row.shape.weight row.key then some row else best

/-- The registrations that win the competition, given the scanned rows that cover the path. -/
def winning (t : Table ρ) (path : List Char) (scanned : List (Row ρ)) : List (Entry ρ) :=
  match settled? t path with
  | some found => found
  | none => match (scanned.filter (!·.shape.universal)).foldl heavier none with
    | some row => row.entries
    | none => (t.lookup? ['*']).getD []

/-- The registrations under universal patterns that cover the path. -/
def universal (t : Table ρ) (path : List Char) (scanned : List (Row ρ)) : List (Entry ρ) :=
  (t.lookup? ['!', '*']).getD [] ++
    (t.lookup? ('!' :: (Pattern.parent? path).getD [] ++ ['/', '?'])).getD [] ++
    (scanned.filter (·.shape.universal)).flatMap (·.entries)

/-- Drop an entry that stands right behind one with the same order. -/
def dropRepeated : List (Entry ρ) → List (Entry ρ)
  | [] => []
  | [e] => [e]
  | e :: f :: rest =>
    if e.order = f.order then dropRepeated (e :: rest) else e :: dropRepeated (f :: rest)
  termination_by es => es.length

/-- The entries for an element, in the order of registration. -/
def entriesFor? (t : Table ρ) (uri : String) (path : List Char) : Option (List (Entry ρ)) :=
  (covering? path t.rows).map fun scanned =>
    let found := (winning t path scanned ++ universal t path scanned).filter (·.accepts uri)
    dropRepeated (found.mergeSort fun a b => a.order ≤ b.order)

/-- The rules for an element; `none` while `*/*` is registered. -/
def rulesFor? (t : Table ρ) (uri : String) (path : List Char) : Option (List ρ) :=
  (entriesFor? t uri path).map fun found => found.map (·.rule)

end XmlBinding.Extended
