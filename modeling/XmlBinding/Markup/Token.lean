import XmlBinding.Markup.Reference
import XmlBinding.Text.Bytes

/-!
# Tokens of a document

A document is cut into tags, runs of text, references and parts that do not count: comments,
processing instructions and document types. Every token has the byte offset of its first character.
The tokens end at the end of the document or at the first part that is not well formed; a start tag
whose attributes cannot be read is such a part, but it is told apart, because it is known where the
tag ends.
-/
namespace XmlBinding.Markup

inductive Token
  | start (name : String) (attributes : List (String × String))
  | empty (name : String) (attributes : List (String × String))
  | close
  | text (content : String)
  | reference (name : String)
  /-- Something that does not count. -/
  | skipped
  /-- A start tag whose attributes cannot be read. -/
  | badTag
  | broken
  | finish
  deriving DecidableEq, Inhabited

/-- The white space inside tags. -/
def isSpace (c : Char) : Bool := c == ' ' || c == '\t' || c == '\r' || c == '\n'

/-! ### Parts of the text -/

/-- What stands before the first occurrence of `marker`, and what stands behind it. -/
def until? (marker : List Char) : List Char → Option (List Char × List Char)
  | [] => if marker.isEmpty then some ([], []) else none
  | c :: rest =>
    if marker.isPrefixOf (c :: rest) then some ([], (c :: rest).drop marker.length)
    else (until? marker rest).map fun p => (c :: p.1, p.2)

/-- What stands before the end of a tag, and what stands behind it. A `>` between quotes ends no
tag. -/
def untilTagEnd? (quote : Option Char) : List Char → Option (List Char × List Char)
  | [] => none
  | c :: rest =>
    if quote.isNone && c = '>' then some ([], rest)
    else
      let inside := match quote with
        | some q => if c = q then none else some q
        | none => if c = '"' ∨ c = '\'' then some c else none
      (untilTagEnd? inside rest).map fun p => (c :: p.1, p.2)

/-- What stands before the `>` that closes as many brackets as are open, and what stands behind it.
-/
def untilBalanced? (opened : Nat) : List Char → Option (List Char × List Char)
  | [] => none
  | c :: rest =>
    if c = '>' then
      match opened with
      | 0 => some ([], rest)
      | n + 1 => (untilBalanced? n rest).map fun p => (c :: p.1, p.2)
    else
      (untilBalanced? (if c = '<' then opened + 1 else opened) rest).map fun p => (c :: p.1, p.2)

/-! ### Tags -/

/-- One attribute at the beginning of a text: its name, its value as written, and what follows.
Blanks may stand around the equals sign; the value is quoted. The first character of a name may be
any that is no blank. -/
def attribute? (first : Char) (rest : List Char) : Option (List Char × List Char × List Char) :=
  let inName (c : Char) : Bool := c != '=' && !isSpace c
  match (rest.dropWhile inName).dropWhile isSpace with
  | '=' :: after => match after.dropWhile isSpace with
    | quote :: after =>
      if quote = '"' ∨ quote = '\'' then
        match after.dropWhile (· != quote) with
        | _ :: behind => some (first :: rest.takeWhile inName, after.takeWhile (· != quote), behind)
        | [] => none
      else none
    | [] => none
  | _ => none

/-- The attributes of a tag. No name may stand twice among them and the names `seen` before. -/
def attributesFrom? (seen : List (List Char)) (fuel : Nat) (cs : List Char) :
    Option (List (String × String)) :=
  match fuel, cs.dropWhile isSpace with
  | _, [] => some []
  | 0, _ => none
  | fuel + 1, first :: rest => do
    let (name, written, behind) ← attribute? first rest
    let value ← resolve? written
    if seen.contains name then none
    else
      let more ← attributesFrom? (name :: seen) fuel behind
      return (String.ofList name, String.ofList value) :: more

/-- The attributes of a tag; every attribute has a character of its own. -/
def attributes? (cs : List Char) : Option (List (String × String)) :=
  attributesFrom? [] cs.length cs

/-- The name of a tag, which ends at the first blank. -/
def tagName (content : List Char) : List Char := content.takeWhile (!isSpace ·)

/-- A tag that opens an element, from what stands between its brackets. -/
def openingTag (content : List Char) (token : String → List (String × String) → Token) : Token :=
  match attributes? (content.dropWhile (!isSpace ·)) with
  | some attributes => token (String.ofList (tagName content)) attributes
  | none => .badTag

/-- A name without the blanks behind it. A name of blanks only stays as it is. -/
def trimName (content : List Char) : List Char :=
  if content.all isSpace then content else (content.reverse.dropWhile isSpace).reverse

/-! ### The document -/

/-- A token, the number of its bytes, what follows it, and the names of the elements that are open
behind it. -/
structure Scanned where
  token : Token
  size : Nat
  rest : List Char
  opened : List (List Char)

/-- What begins with `<!`: a comment, a section of plain characters or a document type. -/
def scanDeclaration (opened : List (List Char)) : List Char → Option Scanned
  | '-' :: '-' :: rest => do
    let (content, rest) ← until? ['-', '-', '>'] rest
    return ⟨.skipped, Text.byteLength content + 7, rest, opened⟩
  | '[' :: 'C' :: 'D' :: 'A' :: 'T' :: 'A' :: '[' :: rest => do
    let (content, rest) ← until? [']', ']', '>'] rest
    return ⟨.text (String.ofList content), Text.byteLength content + 12, rest, opened⟩
  | cs => do
    let (content, rest) ← untilBalanced? 0 cs
    let keyword := (content.take 7).map Char.toUpper
    if keyword = ['D', 'O', 'C', 'T', 'Y', 'P', 'E'] ∧ !(content.drop 7).all isSpace then
      return ⟨.skipped, Text.byteLength content + 3, rest, opened⟩
    else none

def scanMarkup (opened : List (List Char)) : List Char → Option Scanned
  | [] => none
  | '!' :: rest => scanDeclaration opened rest
  | '?' :: '>' :: _ => none
  | '?' :: rest => do
    let (content, rest) ← until? ['?', '>'] rest
    return ⟨.skipped, Text.byteLength content + 4, rest, opened⟩
  | '/' :: rest => do
    let (content, rest) ← untilTagEnd? none rest
    match opened with
    | name :: outer =>
      if trimName content = name then
        return ⟨.close, Text.byteLength content + 3, rest, outer⟩
      else none
    | [] => none
  | rest => do
    let (content, rest) ← untilTagEnd? none rest
    let size := Text.byteLength content + 2
    if content.getLast? = some '/' then
      return ⟨openingTag content.dropLast .empty, size, rest, opened⟩
    else return ⟨openingTag content .start, size, rest, tagName content :: opened⟩

/-- What begins with `&`: a reference up to its semicolon. -/
def scanReference (opened : List (List Char)) (cs : List Char) : Option Scanned :=
  let inName (c : Char) : Bool := c != ';' && c != '&' && c != '<'
  match cs.dropWhile inName with
  | ';' :: rest =>
    let name := cs.takeWhile inName
    some ⟨.reference (String.ofList name), Text.byteLength name + 2, rest, opened⟩
  | _ => none

/-- A run of text up to the next tag or reference. -/
def scanText (opened : List (List Char)) (cs : List Char) : Scanned :=
  let inText (c : Char) : Bool := c != '<' && c != '&'
  let content := cs.takeWhile inText
  ⟨.text (String.ofList content), Text.byteLength content, cs.dropWhile inText, opened⟩

/-- The first token of a text that is not empty. -/
def scanFirst (opened : List (List Char)) (c : Char) (rest : List Char) : Option Scanned :=
  if c = '<' then scanMarkup opened rest
  else if c = '&' then scanReference opened rest
  else some (scanText opened (c :: rest))

/-- The tokens of a text that begins at a byte offset, each with its own offset, behind the tokens
`done`, the last of which comes first. -/
def scanFrom (done : List (Nat × Token)) (fuel offset : Nat) (opened : List (List Char))
    (cs : List Char) : List (Nat × Token) :=
  match fuel, cs with
  | _, [] => ((offset, .finish) :: done).reverse
  | 0, _ => ((offset, .broken) :: done).reverse
  | fuel + 1, c :: rest => match scanFirst opened c rest with
    | some s => scanFrom ((offset, s.token) :: done) fuel (offset + s.size) s.opened s.rest
    | none => ((offset, .broken) :: done).reverse

/-- The tokens of a document; every token has a character of its own. A byte order mark at the
beginning belongs to no token and is not counted. -/
def scan (cs : List Char) : List (Nat × Token) :=
  let cs := match cs with
    | '\ufeff' :: rest => rest
    | cs => cs
  scanFrom [] cs.length 0 [] cs

example : scan "<a b = '1>'>x&lt;</a >".toList =
    [(0, .start "a" [("b", "1>")]), (12, .text "x"), (13, .reference "lt"), (17, .close),
      (22, .finish)] := by decide +kernel

end XmlBinding.Markup
