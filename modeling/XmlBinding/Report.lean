import XmlBinding.Generic
import XmlBinding.Text.Blank

/-!
# Reports

The report of a mapped document for a terminal: the tree of objects with one line for each, how
often each element occurs, what the rules did, and the time it took. Colours are optional.
-/
namespace XmlBinding.Report

/-- How a piece of text stands out. -/
inductive Style
  | dim | bold | green | yellow | blue | cyan | gray
  deriving DecidableEq

def Style.code : Style → String
  | .dim => "\x1b[2m"
  | .bold => "\x1b[1m"
  | .green => "\x1b[32m"
  | .yellow => "\x1b[33m"
  | .blue => "\x1b[34m"
  | .cyan => "\x1b[36m"
  | .gray => "\x1b[90m"

def paint (color : Bool) (style : Style) (text : String) : String :=
  if color then style.code ++ text ++ "\x1b[0m" else text

/-! ### Short texts -/

/-- The greatest number of characters that are shown of a text. -/
def maxText : Nat := 60

/-- The words of a text with single spaces between them, cut off where they get too long. -/
def previewChars (cs : List Char) : List Char :=
  let flat := [' '].intercalate (Text.words cs)
  if maxText < flat.length then flat.take maxText ++ ['…'] else flat

def preview (text : String) : String := String.ofList (previewChars text.toList)

def quoted (h : Heap) (v : Value) : String := "\"" ++ preview (v.display h.typeName) ++ "\""

/-! ### The tree -/

def indent (depth : Nat) : String := String.ofList (List.replicate (2 * depth) ' ')

/-- The properties of a bean but for its text. -/
def properties (color : Bool) (h : Heap) (bean : DynamicBean) : String :=
  String.join ((bean.properties.sorted.filter (·.1 ≠ "text")).map fun p =>
    " " ++ paint color .cyan p.1 ++ "=" ++ quoted h p.2)

def textOf (color : Bool) (h : Heap) (bean : DynamicBean) : String :=
  match bean.properties.get? "text" with
  | some v => paint color .dim (" " ++ quoted h v)
  | none => ""

/-- The lines of an object and of the objects below it, down to `fuel` levels. -/
def tree (color : Bool) (h : Heap) (fuel depth : Nat) (id : ObjectId) : List String :=
  match fuel with
  | 0 => []
  | fuel + 1 => match h.bean? id with
    | some (.dynamic bean) =>
      (indent depth ++ paint color .bold bean.typeName ++ properties color h bean ++
          textOf color h bean) ::
        bean.children.flatMap fun child => match child with
          | .object id => tree color h fuel (depth + 1) id
          | other => [indent (depth + 1) ++ quoted h other]
    | _ => [indent depth ++ paint color .blue (h.typeName id)]

/-- The lines of the document element; no tree is deeper than there are objects. -/
def treeOf (color : Bool) (m : Generic.Mapping) : List String :=
  match m.root with
  | some id => tree color m.heap m.heap.cells.size 1 id
  | none => [paint color .dim "  Empty document"]

/-! ### The other parts -/

def elements (color : Bool) (s : Generic.Summary) : List String :=
  (s.counts.sorted.map fun p =>
    "  " ++ paint color .blue p.1 ++ " " ++ paint color .dim ("× " ++ toString p.2)) ++
  if s.deepestPath.isEmpty then []
  else ["  " ++ paint color .dim "deepest:" ++ " " ++ paint color .yellow s.deepestPath]

/-- The nearest whole number of hundredths; a half goes to the even neighbour. -/
def percent (part whole : Nat) : Nat :=
  let hundredths := 100 * part / whole
  let rest := 100 * part % whole
  if whole < 2 * rest ∨ (2 * rest = whole ∧ 0 < whole ∧ hundredths % 2 = 1) then hundredths + 1
  else hundredths

def dispatch (color : Bool) (m : Metrics) : List String :=
  ["  Elements: " ++ paint color .green (toString m.elements) ++
    "  │  Matched: " ++ paint color .green (toString m.matched) ++
    " (" ++ toString (percent m.matched m.elements) ++ "%)" ++
    "  │  Max depth: " ++ paint color .yellow (toString m.maxDepth),
   "  " ++ paint color .dim "calls:" ++ " begin " ++ toString m.starts ++
    "  body " ++ toString m.bodies ++ "  end " ++ toString m.closes ++
    "  finish " ++ toString m.finishes]

/-- A heading with an empty line before it. -/
def heading (color : Bool) (title : String) : List String :=
  ["", paint color .gray ("━━━ " ++ title ++ " ━━━")]

def lines (color : Bool) (label elapsed : String) (s : Generic.Summary) : List String :=
  ["", paint color .bold (paint color .cyan ("⚙  Digesting: " ++ label))] ++
  heading color "Tree" ++ treeOf color s.mapping ++
  heading color "Elements" ++ elements color s ++
  heading color "Dispatch" ++ dispatch color s.mapping.metrics ++
  heading color "Timing" ++ ["  Total: " ++ paint color .green elapsed, ""]

end XmlBinding.Report
