/-!
Letter case for names written in ASCII. A name such as a stop code or a log level is recognised
whatever case it is written in. Only characters with an ASCII counterpart can take part in such a
match, so the two maps here cover exactly these: under them a text equals an ASCII name if and only
if its full case mapping does.
-/

namespace Rejoin.Text

/-- The lower-case form of a character where that form is ASCII; any other character is left as it
    is. Besides the capitals only the Kelvin sign has an ASCII lower case. -/
def lowerAscii (c : Char) : Char :=
  if c = '\u212a' then 'k' else c.toLower

/-- The upper-case form of a character where that form is ASCII; any other character is left as it
    is. The sharp s and the Latin ligatures have upper-case forms of more than one letter. -/
def upperAscii : Char → List Char
  | '\u00df' => ['S', 'S']
  | '\u0131' => ['I']
  | '\u017f' => ['S']
  | '\ufb00' => ['F', 'F']
  | '\ufb01' => ['F', 'I']
  | '\ufb02' => ['F', 'L']
  | '\ufb03' => ['F', 'F', 'I']
  | '\ufb04' => ['F', 'F', 'L']
  | '\ufb05' => ['S', 'T']
  | '\ufb06' => ['S', 'T']
  | c => [c.toUpper]

/-- The text with every letter in lower case, as far as ASCII names are concerned. -/
def lower (t : List Char) : List Char := t.map lowerAscii

/-- The text with every letter in upper case, as far as ASCII names are concerned. -/
def upper (t : List Char) : List Char := t.flatMap upperAscii

end Rejoin.Text
