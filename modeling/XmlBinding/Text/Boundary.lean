import XmlBinding.Text.Property
import XmlBinding.Text.Script

/-!
# Classes of text segmentation

The classes by which the standard cuts text into grapheme clusters, words and sentences. They follow
from categories, properties and scripts; the classes of what is left over have no members here.
-/
namespace XmlBinding.Text.Boundary

open CodeSet Category Property

/-- A class with the names it goes by. -/
structure Kind where
  names : List String
  members : CodeSet

def carriageReturn : Kind := ⟨["cr"], .range 0xD 0xD⟩

def lineFeed : Kind := ⟨["lf"], .range 0xA 0xA⟩

def zeroWidthJoiner : CodeSet := .range 0x200D 0x200D

def indicator : Kind := ⟨["ri", "regionalindicator"], regionalIndicator⟩

/-! ## Grapheme clusters -/

/-- Characters that join the one behind them. -/
def prepended : CodeSet :=
  prependedMark.union
    (.ofText "D4E 111C2-111C3 113D1 1193F 11941 11A3A 11A84-11A89 11D46 11F02")

/-- Characters that join the one before them. -/
def clusterExtend : CodeSet := graphemeExtend.union emojiModifier

/-- Marks that take up space and join the character before them. -/
def clusterSpacing : CodeSet :=
  (spacingMark.union (.ofText "E33 EB3")).without (clusterExtend.union (.ofText
    "102B-102C 1038 1062-1064 1067-106D 1083 1087-108C 108F 109A-109C 1A61 1A63-1A64 AA7B AA7D
     11720-11721"))

/-- Characters that join nothing. -/
def clusterControl : CodeSet :=
  (CodeSet.unionAll [lineSeparator, paragraphSeparator, control, format,
    unassigned.inter defaultIgnorable]).without
    (.unionAll [.ofText "A D 200C-200D", prependedMark, clusterExtend])

/-- Hangul syllables with two parts, which stand at every twenty-eighth place. -/
def syllablePairs : CodeSet := .ofText "AC00-D788/1C"

def graphemeCluster : List Kind :=
  [carriageReturn, lineFeed, indicator, ⟨["cn", "control"], clusterControl⟩,
   ⟨["ex", "extend"], clusterExtend⟩, ⟨["pp", "prepend"], prepended⟩,
   ⟨["sm", "spacingmark"], clusterSpacing⟩, ⟨["zwj"], zeroWidthJoiner⟩,
   ⟨["l"], .ofText "1100-115F A960-A97C"⟩, ⟨["v"], .ofText "1160-11A7 D7B0-D7C6 16D63 16D67-16D6A"⟩,
   ⟨["t"], .ofText "11A8-11FF D7CB-D7FB"⟩, ⟨["lv"], syllablePairs⟩,
   ⟨["lvt"], (CodeSet.range 0xAC00 0xD7A3).without syllablePairs⟩]

/-! ## Words -/

/-- Marks, which belong to the character before them. -/
def marks : CodeSet :=
  (CodeSet.unionAll [graphemeExtend, spacingMark, emojiModifier]).without zeroWidthJoiner

def katakanaLetters : CodeSet :=
  Script.katakana.members.union (.ofText "3031-3035 309B-309C 30A0 30FC FF70")

def hebrewLetters : CodeSet := Script.hebrew.members.inter otherLetter

/-- Digits, and the marks that are written around them. -/
def numeric : CodeSet :=
  (CodeSet.unionAll [decimalNumber, .ofText "66B 19DA", prependedMark]).without (.range 0x70F 0x70F)

/-- Letters of scripts that are written without gaps between words. -/
def ungapped : CodeSet :=
  .unionAll ([Script.thai, Script.lao, Script.myanmar, Script.khmer, Script.taiLe, Script.newTaiLue,
    Script.taiTham, Script.taiViet, Script.ahom].map Script.members)

def wordLetters : CodeSet :=
  (alphabetic.union (.ofText
    "2C2-2C5 2D2-2D7 2DE-2DF 2E5-2EB 2ED 2EF-2FF 55A-55C 55E 58A 5F3 70F A708-A716 A720-A721
     A789-A78A AB5B")).without
    (.unionAll [ideographic, katakanaLetters, Script.hiragana.members, marks, hebrewLetters,
      ungapped])

def word : List Kind :=
  [carriageReturn, lineFeed, indicator, ⟨["nl", "newline"], .ofText "B-C 85 2028-2029"⟩,
   ⟨["extend"], marks⟩, ⟨["zwj"], zeroWidthJoiner⟩,
   ⟨["fo", "format"],
     format.without (.unionAll [.range 0x200B 0x200D, prepended, marks])⟩,
   ⟨["ka", "katakana"], katakanaLetters⟩, ⟨["hl", "hebrewletter"], hebrewLetters⟩,
   ⟨["le", "aletter"], wordLetters⟩, ⟨["sq", "singlequote"], .range 0x27 0x27⟩,
   ⟨["dq", "doublequote"], .range 0x22 0x22⟩,
   ⟨["mb", "midnumlet"], .ofText "2E 2018-2019 2024 FE52 FF07 FF0E"⟩,
   ⟨["ml", "midletter"], .ofText "3A B7 387 55F 5F4 2027 FE13 FE55 FF1A"⟩,
   ⟨["mn", "midnum"],
     .ofText "2C 3B 37E 589 60C-60D 66C 7F8 2044 FE50 FE54 FF0C FF1B"⟩,
   ⟨["nu", "numeric"], numeric⟩,
   ⟨["ex", "extendnumlet"], .ofText "5F 202F 203F-2040 2054 FE33-FE34 FE4D-FE4F FF3F"⟩,
   ⟨["wsegspace"], .ofText "20 1680 2000-2006 2008-200A 205F 3000"⟩]

/-! ## Sentences -/

def separators : CodeSet := .ofText "85 2028-2029"

/-- Marks and joiners, which belong to the character before them. -/
def sentenceExtend : CodeSet :=
  .unionAll [graphemeExtend, spacingMark, zeroWidthJoiner]

def sentenceLower : CodeSet :=
  lowercase.without (graphemeExtend.union (.ofText "10D0-10FA 10FD-10FF"))

def sentenceUpper : CodeSet :=
  (uppercase.union titlecaseLetter).without (.ofText "1C90-1CBA 1CBD-1CBF")

def fullStops : CodeSet := .ofText "2E 2024 FE52 FF0E"

def sentenceTerminals : CodeSet := sentenceTerminal.without fullStops

def sentenceNumeric : CodeSet := numeric.union (.range 0x66C 0x66C)

def sentence : List Kind :=
  [carriageReturn, lineFeed, ⟨["se", "sep"], separators⟩,
   ⟨["sp"], whiteSpace.without (separators.union (.ofText "A D"))⟩,
   ⟨["ex", "extend"], sentenceExtend⟩,
   ⟨["fo", "format"],
     format.without (.unionAll [.range 0x200C 0x200D, sentenceExtend, sentenceNumeric])⟩,
   ⟨["lo", "lower"], sentenceLower⟩, ⟨["up", "upper"], sentenceUpper⟩,
   ⟨["le", "oletter"], (alphabetic.union (.range 0x5F3 0x5F3)).without
     (.unionAll [sentenceLower, sentenceUpper, sentenceExtend])⟩,
   ⟨["nu", "numeric"], sentenceNumeric⟩, ⟨["at", "aterm"], fullStops⟩,
   ⟨["sc", "scontinue"], .ofText
     "2C-2D 3A-3B 37E 55D 60C-60D 7F8 1802 1808 2013-2014 3001 FE10-FE11 FE13-FE14 FE31-FE32
      FE50-FE51 FE54-FE55 FE58 FE63 FF0C-FF0D FF1A-FF1B FF64"⟩,
   ⟨["st", "sterm"], sentenceTerminals⟩,
   ⟨["cl", "close"],
     (CodeSet.unionAll [openPunctuation, closePunctuation, initialPunctuation, finalPunctuation,
       .ofText "22 27 275B-2760 2E00-2E01 2E06-2E08 2E0B 1F676-1F678"]).without
       (fullStops.union sentenceTerminals)⟩]

end XmlBinding.Text.Boundary
