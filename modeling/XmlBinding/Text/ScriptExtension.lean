import XmlBinding.Text.Blank
import XmlBinding.Text.Script

/-!
# Characters of several scripts

Some characters, most of them shared marks and punctuation, are used with a known list of scripts.
For them that list takes the place of their own script.
-/
namespace XmlBinding.Text.Script

/-- Characters that are used with the same scripts, and the codes of these. -/
structure Sharing where
  members : CodeSet
  codes : List String

/-- Characters, and the codes of the scripts that share them, with blanks between. -/
def sharing (members codes : String) : Sharing :=
  ⟨.ofText members, (words codes.toList).map String.ofList⟩

/-- The characters that have a list of scripts. -/
def shared : List Sharing :=
  [sharing "B7" "avst cari copt dupl elba geor glag gong goth grek hani latn lydi mahj perm shaw",
   sharing "2BC" "beng cyrl deva latn lisu thai toto",
   sharing "2C7 2C9-2CB 2D9" "bopo latn",
   sharing "2CD" "latn lisu",
   sharing "2D7" "latn thai",
   sharing "300" "cher copt cyrl grek latn perm sunu tale",
   sharing "301" "cher cyrl grek latn osge sunu tale todr",
   sharing "302" "cher cyrl latn tfng",
   sharing "303" "glag latn sunu syrc thai",
   sharing "304" "aghb cher copt cyrl goth grek latn osge syrc tfng todr",
   sharing "305" "copt elba glag goth kana latn",
   sharing "306" "cyrl grek latn perm",
   sharing "307" "copt dupl hebr latn perm syrc tale tfng todr",
   sharing "308" "armn cyrl dupl goth grek hebr latn perm syrc tale",
   sharing "309" "latn tfng",
   sharing "30A" "dupl latn syrc",
   sharing "30B" "cher cyrl latn osge",
   sharing "30C" "cher latn tale",
   sharing "30D 310" "latn sunu",
   sharing "30E" "ethi latn",
   sharing "311" "cyrl latn todr",
   sharing "313" "grek latn perm todr",
   sharing "323" "cher dupl kana latn syrc",
   sharing "324" "cher dupl latn syrc",
   sharing "320 325 32E" "latn syrc",
   sharing "32D" "latn sunu syrc",
   sharing "330" "cher latn syrc",
   sharing "331" "aghb cher goth latn sunu thai",
   sharing "342 345 1DC0-1DC1" "grek",
   sharing "358" "latn osge",
   sharing "35E" "aghb latn todr",
   sharing "363-36F" "latn",
   sharing "374-375" "copt grek",
   sharing "483" "cyrl perm",
   sharing "484 487 2E43 A66F" "cyrl glag",
   sharing "485-486" "cyrl latn",
   sharing "589" "armn geor glag",
   sharing "60C 61B" "arab gara nkoo rohg syrc thaa yezi",
   sharing "61C" "arab syrc thaa",
   sharing "61F" "adlm arab gara nkoo rohg syrc thaa yezi",
   sharing "640" "adlm arab mand mani ougr phlp rohg sogd syrc",
   sharing "64B-655 670" "arab syrc",
   sharing "660-669" "arab thaa yezi",
   sharing "6D4" "arab rohg",
   sharing "951" "beng deva gran gujr guru knda latn mlym orya shrd taml telu tirh",
   sharing "952" "beng deva gran gujr guru knda latn mlym orya taml telu tirh",
   sharing "964" "beng deva dogr gong gonm gran gujr guru knda mahj mlym nand onao orya sind sinh
      sylo takr taml telu tirh",
   sharing "965" "beng deva dogr gong gonm gran gujr gukh guru knda limb mahj mlym nand onao orya
      sind sinh sylo takr taml telu tirh",
   sharing "966-96F" "deva dogr kthi mahj",
   sharing "9E6-9EF" "beng cakm sylo",
   sharing "A66-A6F" "guru mult",
   sharing "AE6-AEF" "gujr khoj",
   sharing "BE6-BF3 11301 11303 1133B-1133C 11FD0-11FD1 11FD3" "gran taml",
   sharing "CE6-CEF" "knda nand tutg",
   sharing "1040-1049" "cakm mymr tale",
   sharing "10FB" "geor glag latn",
   sharing "16EB-16ED" "runr",
   sharing "1735-1736" "buhd hano tagb tglg",
   sharing "1802-1803 1805" "mong phag",
   sharing "1CD0 1CD2" "beng deva gran knda",
   sharing "1CD1 1CD4 1CDB 1CDE-1CDF 1CE2-1CE8 1CEB-1CEC 1CEE-1CF1" "deva",
   sharing "1CD3" "deva gran knda",
   sharing "1CD5-1CD6 1CD8 1CE1 1CEA 1CED 1CF5-1CF6" "beng deva",
   sharing "1CD7 1CD9 1CDC-1CDD 1CE0" "deva shrd",
   sharing "1CDA" "deva knda mlym orya taml telu",
   sharing "1CE9" "deva nand",
   sharing "1CF2" "beng deva gran knda mlym nand orya sinh telu tirh tutg",
   sharing "1CF3 1CF8-1CF9" "deva gran",
   sharing "1CF4" "deva gran knda tutg",
   sharing "1CF7" "beng",
   sharing "1CFA" "nand",
   sharing "1DF8" "cyrl latn syrc",
   sharing "1DFA" "syrc",
   sharing "202F" "latn mong phag",
   sharing "204F" "adlm arab",
   sharing "205A" "cari geor glag hung lyci orkh",
   sharing "205D" "cari grek hung mero",
   sharing "20F0" "deva gran latn",
   sharing "2E17" "copt latn",
   sharing "2E30" "avst orkh",
   sharing "2E31" "avst cari geor hung kthi lydi samr",
   sharing "2E3C 1BCA0-1BCA3" "dupl",
   sharing "2E41" "adlm arab hung",
   sharing "2FF0-2FFF 31EF" "hani tang",
   sharing "3001" "bopo hang hani hira kana mong yiii",
   sharing "3002" "bopo hang hani hira kana mong phag yiii",
   sharing "3003 3013 301C-301F 3030 3037 FE45-FE46" "bopo hang hani hira kana",
   sharing "3006 303E-303F 3190-319F 31C0-31E5 3220-3247 3280-32B0 32C0-32CB 32FF 3358-3370
     337B-337F 33E0-33FE 1D360-1D371 1F250-1F251" "hani",
   sharing "3008-3009" "bopo hang hani hira kana mong tibt yiii",
   sharing "300A-300B" "bopo hang hani hira kana lisu mong tibt yiii",
   sharing "300C-3011 3014-301B 30FB FF61-FF65" "bopo hang hani hira kana yiii",
   sharing "302A-302D" "bopo hani",
   sharing "3031-3035 3099-309C 30A0 30FC FF70 FF9E-FF9F" "hira kana",
   sharing "303C-303D" "hani hira kana",
   sharing "A700-A707" "hani latn",
   sharing "A830-A832" "deva dogr gujr guru khoj knda kthi mahj mlym modi nand shrd sind takr tirh
      tutg",
   sharing "A833-A835" "deva dogr gujr guru khoj knda kthi mahj modi nand shrd sind takr tirh tutg",
   sharing "A836-A837 A839" "deva dogr gujr guru khoj kthi mahj modi sind takr tirh",
   sharing "A838" "deva dogr gujr guru khoj kthi mahj modi shrd sind takr tirh",
   sharing "A8F1" "beng deva tutg",
   sharing "A8F3" "deva taml",
   sharing "A92E" "kali latn mymr",
   sharing "A9CF" "bugi java",
   sharing "FD3E-FD3F" "arab nkoo",
   sharing "FDF2 FDFD" "arab thaa",
   sharing "10100-10101" "cpmn cprt linb",
   sharing "10102 10137-1013F" "cprt linb",
   sharing "10107-10133" "cprt lina linb",
   sharing "102E0-102FB" "arab copt",
   sharing "10AF2" "mani ougr"]

/-- The characters that are used with a script. -/
def extended (s : Script) : CodeSet :=
  (s.members.without (.unionAll (shared.map (·.members)))).union
    (.unionAll ((shared.filter (·.codes.contains s.code)).map (·.members)))

end XmlBinding.Text.Script
