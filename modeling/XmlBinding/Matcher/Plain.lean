import XmlBinding.Matcher.Table

/-!
# The best pattern wins

An element takes the rules of its exact path. If there are none for its namespace, it takes those of
the longest `*/suffix` pattern that covers the path, again as far as they accept the namespace.
-/
namespace XmlBinding.Plain

variable {ρ : Type}

/-- Register a rule under an exact path or a `*/suffix` pattern. -/
def add (t : Table ρ) (pattern : String) (rule : ρ) : Except PatternError (Table ρ) :=
  t.add Pattern.checkPlain pattern rule

/-- Whether a row is a `*/suffix` pattern that covers the path. -/
def covers (path : List Char) (row : Row ρ) : Bool :=
  match Pattern.afterLeadingStar? row.key with
  | some suffix => Pattern.endsAtSegment suffix path
  | none => false

/-- The rules of the entries that accept a namespace. -/
def accepted (uri : String) (entries : List (Entry ρ)) : List ρ :=
  (entries.filter (·.accepts uri)).map (·.rule)

def rulesFor (t : Table ρ) (uri : String) (path : List Char) : List ρ :=
  match accepted uri ((t.lookup? path).getD []) with
  | [] => match t.longest? (covers path) with
    | some row => accepted uri row.entries
    | none => []
  | found => found

end XmlBinding.Plain
