import XmlBinding.Text.Age
import XmlBinding.Text.Boundary
import XmlBinding.Text.ScriptExtension

/-!
# Sets of characters by name

A set is named by a property that its members have, by a general category or script, or by a
property with a value. Names are compared loosely: case, blanks, underscores and hyphens do not
count, nor does a leading `is`.
-/
namespace XmlBinding.Text.Named

open Category Property

/-- The form in which names are compared. A lone `c` behind `is` is the name of a comment and not of
a category. -/
def loose (name : List Char) : String :=
  let (rest, isPassed) := match name with
    | a :: b :: rest =>
      if a.toLower = 'i' ∧ b.toLower = 's' then (rest, true) else (name, false)
    | _ => (name, false)
  let kept := rest.filter fun c => c.toNat ≤ 0x7F && !([' ', '_', '-'].contains c)
  let kept := kept.map Char.toLower
  if isPassed && kept = ['c'] then "isc" else String.ofList kept

def properties : List (List String × CodeSet) :=
  [(["ahex", "asciihexdigit"], asciiHexDigit), (["alpha", "alphabetic"], alphabetic),
   (["bidic", "bidicontrol"], bidiControl), (["bidim", "bidimirrored"], bidiMirrored),
   (["ci", "caseignorable"], caseIgnorable), (["cased"], cased),
   (["cwcf", "changeswhencasefolded"], changesWhenCasefolded),
   (["cwcm", "changeswhencasemapped"], changesWhenCasemapped),
   (["cwl", "changeswhenlowercased"], changesWhenLowercased),
   (["cwt", "changeswhentitlecased"], changesWhenTitlecased),
   (["cwu", "changeswhenuppercased"], changesWhenUppercased), (["dash"], dash),
   (["di", "defaultignorablecodepoint"], defaultIgnorable), (["dep", "deprecated"], deprecated),
   (["dia", "diacritic"], diacritic), (["emoji"], emoji),
   (["ecomp", "emojicomponent"], emojiComponent),
   (["emod", "emojimodifier"], emojiModifier), (["ebase", "emojimodifierbase"], emojiModifierBase),
   (["epres", "emojipresentation"], emojiPresentation),
   (["extpict", "extendedpictographic"], pictographic), (["ext", "extender"], extender),
   (["grbase", "graphemebase"], graphemeBase), (["grext", "graphemeextend"], graphemeExtend),
   (["grlink", "graphemelink"], graphemeLink), (["hex", "hexdigit"], hexDigit),
   (["hyphen"], hyphen),
   (["idsb", "idsbinaryoperator"], ideographBinaryOperator),
   (["idst", "idstrinaryoperator"], ideographTrinaryOperator),
   (["idsu", "idsunaryoperator"], ideographUnaryOperator),
   (["idcompatmathcontinue"], compatMathContinue), (["idcompatmathstart"], compatMathStart),
   (["idc", "idcontinue"], idContinue), (["ids", "idstart"], idStart),
   (["ideo", "ideographic"], ideographic), (["joinc", "joincontrol"], joinControl),
   (["loe", "logicalorderexception"], logicalOrderException), (["lower", "lowercase"], lowercase),
   (["math"], math), (["mcm", "modifiercombiningmark"], modifierCombiningMark),
   (["nchar", "noncharactercodepoint"], noncharacter),
   (["oalpha", "otheralphabetic"], alphabeticMark),
   (["odi", "otherdefaultignorablecodepoint"], ignorableSign),
   (["ogrext", "othergraphemeextend"], graphemeExtender),
   (["oidc", "otheridcontinue"], identifierPartSign),
   (["oids", "otheridstart"], identifierStartSign),
   (["olower", "otherlowercase"], lowercaseSign), (["omath", "othermath"], mathSign),
   (["oupper", "otheruppercase"], uppercaseSign), (["patsyn", "patternsyntax"], patternSyntax),
   (["patws", "patternwhitespace"], patternWhiteSpace),
   (["pcm", "prependedconcatenationmark"], prependedMark),
   (["qmark", "quotationmark"], quotationMark), (["radical"], radical),
   (["ri", "regionalindicator"], regionalIndicator), (["sd", "softdotted"], softDotted),
   (["space", "wspace", "whitespace"], whiteSpace),
   (["sterm", "sentenceterminal"], sentenceTerminal),
   (["term", "terminalpunctuation"], terminalPunctuation),
   (["uideo", "unifiedideograph"], unifiedIdeograph), (["upper", "uppercase"], uppercase),
   (["vs", "variationselector"], variationSelector), (["xidc", "xidcontinue"], xidContinue),
   (["xids", "xidstart"], xidStart)]

def categories : List (List String × CodeSet) :=
  [(["lu", "uppercaseletter"], uppercaseLetter), (["ll", "lowercaseletter"], lowercaseLetter),
   (["lt", "titlecaseletter"], titlecaseLetter), (["lc", "casedletter"], casedLetter),
   (["lm", "modifierletter"], modifierLetter), (["lo", "otherletter"], otherLetter),
   (["l", "letter"], letter), (["mn", "nonspacingmark"], nonspacingMark),
   (["mc", "spacingmark"], spacingMark), (["me", "enclosingmark"], enclosingMark),
   (["m", "mark", "combiningmark"], mark), (["nd", "decimalnumber", "digit"], decimalNumber),
   (["nl", "letternumber"], letterNumber), (["no", "othernumber"], otherNumber),
   (["n", "number"], number), (["pc", "connectorpunctuation"], connectorPunctuation),
   (["pd", "dashpunctuation"], dashPunctuation), (["ps", "openpunctuation"], openPunctuation),
   (["pe", "closepunctuation"], closePunctuation),
   (["pi", "initialpunctuation"], initialPunctuation),
   (["pf", "finalpunctuation"], finalPunctuation), (["po", "otherpunctuation"], otherPunctuation),
   (["p", "punctuation", "punct"], punctuation), (["sm", "mathsymbol"], mathSymbol),
   (["sc", "currencysymbol"], currencySymbol), (["sk", "modifiersymbol"], modifierSymbol),
   (["so", "othersymbol"], otherSymbol), (["s", "symbol"], symbol),
   (["zs", "spaceseparator"], spaceSeparator), (["zl", "lineseparator"], lineSeparator),
   (["zp", "paragraphseparator"], paragraphSeparator), (["z", "separator"], separator),
   (["cc", "control", "cntrl"], control), (["cf", "format"], format),
   (["co", "privateuse"], privateUse), (["cn", "unassigned"], unassigned), (["c", "other"], other),
   (["any"], .all), (["assigned"], unassigned.compl), (["ascii"], .range 0 0x7F)]

/-- The set that has a name in a table. -/
def lookup? (table : List (List String × CodeSet)) (name : String) : Option CodeSet :=
  (table.find? (·.1.contains name)).map (·.2)

def script? (name : String) : Option Script :=
  Script.all.find? fun s => s.code == name || s.names.contains name

/-- The class of text segmentation with a name. -/
def kind? (kinds : List Boundary.Kind) (name : String) : Option CodeSet :=
  (kinds.find? (·.names.contains name)).map (·.members)

/-- The characters of an edition and all before it. The name is the number of the edition; in
letters it starts with a `v` and leaves out the point. -/
def age? (name : String) : Option CodeSet :=
  (Age.editions.find? fun e =>
    e.number == name || "v" ++ String.ofList (e.number.toList.filter (· ≠ '.')) == name).bind
    fun e => Age.assignedIn? e.number

def set? (name : List Char) : Option CodeSet :=
  let name := loose name
  (lookup? properties name).or
    ((lookup? categories name).or ((script? name).map (·.members)))

def valueSet? (property value : List Char) : Option CodeSet :=
  let property := loose property
  let value := loose value
  if ["gc", "generalcategory"].contains property then lookup? categories value
  else if ["sc", "script"].contains property then (script? value).map (·.members)
  else if ["scx", "scriptextensions"].contains property then (script? value).map (·.extended)
  else if property = "age" then age? value
  else if ["gcb", "graphemeclusterbreak"].contains property then
    kind? Boundary.graphemeCluster value
  else if ["wb", "wordbreak"].contains property then kind? Boundary.word value
  else if ["sb", "sentencebreak"].contains property then kind? Boundary.sentence value
  else none

example : loose "Is_Upper-case Letter".toList = "uppercaseletter" := by decide
example : loose "isc".toList = "isc" := by decide

end XmlBinding.Text.Named
