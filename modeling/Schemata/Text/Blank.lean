/-!
# Blank characters

Words and clauses of a statement are separated by *blank* characters, the ones with Unicode's
`White_Space` property.  This file fixes that set and the three operations that depend on nothing
else: trimming, cutting at blanks, and collapsing runs of blanks.

Every operation is defined on lists of characters (namespace `Chars`) and has a face on `String`
(namespace `Text`) that only converts.  The other modules on texts keep to this, so that proofs are
by recursion on lists and a statement about strings is one conversion away.
-/

namespace Schemata

/-- A blank character, by Unicode's `White_Space` property. -/
def isBlank (c : Char) : Bool :=
  let code := c.toNat
  (9 ≤ code && code ≤ 13) || code == 0x20 || code == 0x85 || code == 0xA0 || code == 0x1680
    || (0x2000 ≤ code && code ≤ 0x200A) || code == 0x2028 || code == 0x2029 || code == 0x202F
    || code == 0x205F || code == 0x3000

/-- A decimal digit of the ASCII range. -/
def isAsciiDigit (c : Char) : Bool :=
  '0' ≤ c && c ≤ '9'

namespace Chars

/-- The text without its leading blanks. -/
def trimStart (text : List Char) : List Char :=
  text.dropWhile isBlank

/-- The text without its trailing blanks. -/
def trimEnd (text : List Char) : List Char :=
  (text.reverse.dropWhile isBlank).reverse

/-- The text without the blanks at either end. -/
def trim (text : List Char) : List Char :=
  trimEnd (trimStart text)

/-- The stretches of text between single blanks, empty ones included. -/
def betweenBlanks : List Char → List (List Char)
  | [] => [[]]
  | c :: rest =>
      if isBlank c then [] :: betweenBlanks rest else (betweenBlanks rest).modifyHead (c :: ·)

/-- The text with every inner run of blanks made one space and none left at the ends. -/
def collapse (text : List Char) : List Char :=
  [' '].intercalate ((betweenBlanks text).filter (! ·.isEmpty))

end Chars

namespace Text

/-- The text without the blanks at either end. -/
def trim (text : String) : String :=
  String.ofList (Chars.trim text.toList)

/-- The words put back together with single spaces. -/
def unwords (words : List String) : String :=
  " ".intercalate words

end Text

end Schemata
