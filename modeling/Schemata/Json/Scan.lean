import Schemata.Json

/-!
# Scanning JSON texts

The parts of a JSON text that a reader of settings needs: strings are decoded, and any other value
is stepped over after its form is checked.  Every function takes the text that remains and gives
back what is left behind the part it scanned, or `none` when the text is not well formed.

A string is scanned in two steps.  The first splits it into characters and UTF-16 code units, which
is all that has to succeed for a string that is stepped over; the second joins the units to
characters and refuses a surrogate without its partner.
-/

namespace Schemata

namespace Json

/-- The text behind its leading blanks; JSON knows four of them. -/
def skipBlanks (text : List Char) : List Char :=
  text.dropWhile fun c => c == ' ' || c == '\n' || c == '\r' || c == '\t'

/-- The text behind a character that must come next, blanks aside. -/
def expect? (c : Char) (text : List Char) : Option (List Char) :=
  match skipBlanks text with
  | d :: rest => if c == d then some rest else none
  | [] => none

/-- The text behind the given one, which must come next. -/
def expectText? : List Char → List Char → Option (List Char)
  | [], text => some text
  | _ :: _, [] => none
  | c :: expected, d :: rest => if c == d then expectText? expected rest else none

/-! ## Strings -/

/-- A part of a string: a character, or a code unit written in hexadecimal. -/
inductive StringPart where
  | char (c : Char)
  | unit (code : Nat)
  deriving DecidableEq, Repr, Inhabited

/-- The value of a hexadecimal digit. -/
def hexValue? (c : Char) : Option Nat :=
  if '0' ≤ c && c ≤ '9' then some (c.toNat - '0'.toNat)
  else if 'a' ≤ c && c ≤ 'f' then some (c.toNat - 'a'.toNat + 10)
  else if 'A' ≤ c && c ≤ 'F' then some (c.toNat - 'A'.toNat + 10)
  else none

/-- The character that a backslash and a letter stand for. -/
def escaped? (c : Char) : Option Char :=
  if c == '\x22' || c == '\\' || c == '/' then some c
  else if c == 'b' then some '\x08'
  else if c == 'f' then some '\x0c'
  else if c == 'n' then some '\n'
  else if c == 'r' then some '\r'
  else if c == 't' then some '\t'
  else none

/-- The parts of a string behind its opening quote, and the text behind the closing one. -/
def stringParts? : List Char → Option (List StringPart × List Char)
  | [] => none
  | '\\' :: 'u' :: a :: b :: c :: d :: rest => do
      let code := (((← hexValue? a) * 16 + (← hexValue? b)) * 16 + (← hexValue? c)) * 16
        + (← hexValue? d)
      let (parts, behind) ← stringParts? rest
      return (.unit code :: parts, behind)
  | '\\' :: c :: rest => do
      let escaped ← escaped? c
      let (parts, behind) ← stringParts? rest
      return (.char escaped :: parts, behind)
  | c :: rest =>
      if c == '\x22' then some ([], rest)
      else if c.toNat < 0x20 || c == '\\' then none
      else do
        let (parts, behind) ← stringParts? rest
        return (.char c :: parts, behind)

/-- A unit that starts a pair. -/
def isHighSurrogate (code : Nat) : Bool :=
  0xD800 ≤ code && code < 0xDC00

/-- A unit that ends a pair. -/
def isLowSurrogate (code : Nat) : Bool :=
  0xDC00 ≤ code && code < 0xE000

/-- The characters that the parts of a string spell. -/
def joinParts? : List StringPart → Option (List Char)
  | [] => some []
  | .char c :: parts => (joinParts? parts).map (c :: ·)
  | .unit high :: .unit low :: parts =>
      if isHighSurrogate high && isLowSurrogate low then
        let code := 0x10000 + (high - 0xD800) * 0x400 + (low - 0xDC00)
        (joinParts? parts).map (Char.ofNat code :: ·)
      else if isHighSurrogate high || isLowSurrogate high then none
      else (joinParts? (.unit low :: parts)).map (Char.ofNat high :: ·)
  | .unit code :: parts =>
      if isHighSurrogate code || isLowSurrogate code then none
      else (joinParts? parts).map (Char.ofNat code :: ·)

/-- Scans a string that must come next, blanks aside. -/
def scanString? (text : List Char) : Option (String × List Char) := do
  let (parts, behind) ← stringParts? (← expect? '\x22' text)
  return (String.ofList (← joinParts? parts), behind)

/-- Steps over a string behind its opening quote. -/
def skipString? (text : List Char) : Option (List Char) :=
  (stringParts? text).map Prod.snd

/-! ## Numbers -/

/-- Steps over digits, of which there must be one. -/
def skipDigits? : List Char → Option (List Char)
  | [] => none
  | c :: rest => if c.isDigit then some (rest.dropWhile Char.isDigit) else none

/-- Steps over an integer without its sign: no zero before other digits. -/
def skipInteger? : List Char → Option (List Char)
  | '0' :: rest => if rest.head?.any Char.isDigit then none else some rest
  | text => skipDigits? text

/-- Steps over a fraction, if there is one. -/
def skipFraction? : List Char → Option (List Char)
  | '.' :: rest => skipDigits? rest
  | text => some text

/-- Steps over an exponent, if there is one. -/
def skipExponent? : List Char → Option (List Char)
  | c :: rest =>
      if c == 'e' || c == 'E' then
        match rest with
        | '+' :: digits => skipDigits? digits
        | '-' :: digits => skipDigits? digits
        | digits => skipDigits? digits
      else some (c :: rest)
  | [] => some []

/-- Steps over a number. -/
def skipNumber? (text : List Char) : Option (List Char) := do
  let unsigned := match text with
    | '-' :: rest => rest
    | _ => text
  skipExponent? (← skipFraction? (← skipInteger? unsigned))

/-! ## Values -/

mutual

/-- Steps over a value, blanks before it included. -/
def skipValueWithin? : Nat → List Char → Option (List Char)
  | 0, _ => none
  | fuel + 1, text =>
      match skipBlanks text with
      | [] => none
      | c :: rest =>
          if c == '\x22' then skipString? rest
          else if c == '[' then
            match expect? ']' rest with
            | some behind => some behind
            | none => skipItemsWithin? fuel rest
          else if c == '\x7b' then
            match expect? '\x7d' rest with
            | some behind => some behind
            | none => skipMembersWithin? fuel rest
          else if c == 'n' then expectText? "ull".toList rest
          else if c == 't' then expectText? "rue".toList rest
          else if c == 'f' then expectText? "alse".toList rest
          else skipNumber? (c :: rest)

/-- Steps over the items of an array and its closing bracket. -/
def skipItemsWithin? : Nat → List Char → Option (List Char)
  | 0, _ => none
  | fuel + 1, text => do
      let behind ← skipValueWithin? fuel text
      match skipBlanks behind with
      | ',' :: rest => skipItemsWithin? fuel rest
      | ']' :: rest => some rest
      | _ => none

/-- Steps over the members of an object and its closing brace. -/
def skipMembersWithin? : Nat → List Char → Option (List Char)
  | 0, _ => none
  | fuel + 1, text => do
      let name ← skipString? (← expect? '\x22' text)
      let behind ← skipValueWithin? fuel (← expect? ':' name)
      match skipBlanks behind with
      | ',' :: rest => skipMembersWithin? fuel rest
      | '\x7d' :: rest => some rest
      | _ => none

end

/-- Steps over a value.  Each value and each list of items takes a character, which bounds how deep
the steps can nest. -/
def skipValue? (text : List Char) : Option (List Char) :=
  skipValueWithin? (2 * text.length + 2) text

end Json

end Schemata
