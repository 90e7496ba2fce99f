/-!
# Blank characters and trimming

A text that carries a number or a word may be padded. The padding is made of
*blank* characters (`isBlankChar`): those with the Unicode property
`White_Space`, of which there are twenty-five. `trim` cuts the padding off both
ends of a text and keeps what is between; a text that is nothing but padding
is itself blank (`isBlank`).

Words are compared without regard to the case of the letters `A`–`Z`
(`equalIgnoringCase`); no other character has a case here.
-/

namespace Scoring.Text

/-- The characters with the Unicode property `White_Space`. -/
def isBlankChar (c : Char) : Bool :=
  ('\t' ≤ c && c ≤ '\r') || c = ' ' || c = '\u0085' || c = '\u00a0' || c = '\u1680' ||
    ('\u2000' ≤ c && c ≤ '\u200a') || c = '\u2028' || c = '\u2029' || c = '\u202f' ||
    c = '\u205f' || c = '\u3000'

/-- What is left of the characters when the blank ones at both ends are cut off. -/
def trimChars (cs : List Char) : List Char :=
  ((cs.dropWhile isBlankChar).reverse.dropWhile isBlankChar).reverse

/-- The text without the blank characters at either end. -/
def trim (s : String) : String := String.ofList (trimChars s.toList)

/-- Whether a text holds nothing but blank characters. -/
def isBlank (s : String) : Bool := s.toList.all isBlankChar

/-- The text with the letters `A`–`Z` made small; every other character is kept. -/
def lowercase (s : String) : String := String.ofList (s.toList.map Char.toLower)

/-- Whether two texts are equal when the case of `A`–`Z` is ignored. -/
def equalIgnoringCase (s t : String) : Bool := lowercase s = lowercase t

end Scoring.Text
