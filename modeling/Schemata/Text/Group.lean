import Schemata.Text.Nesting

/-!
# Groups

A word may carry a parenthesised group, as in `numeric(10, 2)` or `CHECK(price > 0)`.  This file
finds the first group at the top of a text, cuts the text around it, and compares the part before
it, the *head*, with a keyword.

The closing parenthesis of a group is the first unquoted `)` after which nothing is open, counting
from the opening one.

Positions are reported as offsets in UTF-8 bytes.  Nothing reads a text by them: a text is cut where
the scan stops, and the offsets only tell where that was.
-/

namespace Schemata

namespace Chars

/-- The text before and behind the first `target` at the top. -/
def breakAt (target : Char) : Nesting → List Char → Option (List Char × List Char)
  | _, [] => none
  | nesting, c :: rest =>
      if nesting.isTop && c == target then some ([], rest)
      else (breakAt target (nesting.step c) rest).map fun (before, behind) => (c :: before, behind)

/-- The text before and behind the parenthesis that closes what is open. -/
def breakAtClose : Nesting → List Char → Option (List Char × List Char)
  | _, [] => none
  | nesting, c :: rest =>
      if c == ')' && nesting.quote.isNone && (nesting.step c).isTop then some ([], rest)
      else (breakAtClose (nesting.step c) rest).map fun (inside, behind) => (c :: inside, behind)

/-- For a text that follows an opening parenthesis: what the group holds and what is behind it. -/
def closeGroup (text : List Char) : Option (List Char × List Char) :=
  breakAtClose (Nesting.top.step '(') text

/-- A word as a call: the part before its group and what the group holds.  A word without a closed
group is all name. -/
def call (word : List Char) : List Char × Option (List Char) :=
  match breakAt '(' .top word with
  | none => (word, none)
  | some (before, behind) =>
      match closeGroup behind with
      | none => (word, none)
      | some (inside, _) => (trimEnd before, some inside)

/-- The part of a word before its group. -/
def head (word : List Char) : List Char :=
  (call word).1

/-- Two texts that differ at most in the case of ASCII letters. -/
def sameIgnoringCase (first second : List Char) : Bool :=
  first.map Char.toLower == second.map Char.toLower

/-- The number of bytes the text takes in UTF-8. -/
def byteLength : List Char → Nat
  | [] => 0
  | c :: rest => c.utf8Size + byteLength rest

/-- The text from a byte offset on; `none` where no character starts. -/
def dropBytes : Nat → List Char → Option (List Char)
  | offset, [] => if offset == 0 then some [] else none
  | offset, c :: rest =>
      if offset == 0 then some (c :: rest)
      else if c.utf8Size ≤ offset then dropBytes (offset - c.utf8Size) rest
      else none

end Chars

namespace Text

/-- The byte offset of the first `target` at the top. -/
def findTop (target : Char) (text : String) : Option Nat :=
  (Chars.breakAt target .top text.toList).map fun (before, _) => Chars.byteLength before

/-- The byte offset of the parenthesis that closes the one at byte offset `start`. -/
def closingOffset (start : Nat) (text : String) : Option Nat :=
  match Chars.dropBytes start text.toList with
  | some ('(' :: behind) =>
      (Chars.closeGroup behind).map fun (inside, _) => start + 1 + Chars.byteLength inside
  | _ => none

/-- A word as a call: the part before its group and what the group holds. -/
def call (word : String) : String × Option String :=
  let (name, inside) := Chars.call word.toList
  (String.ofList name, inside.map String.ofList)

/-- What the group of a word holds. -/
def group? (word : String) : Option String :=
  (call word).2

/-- The part of a word before its group. -/
def head (word : String) : String :=
  (call word).1

/-- The head of the word is the keyword, whatever the case of its ASCII letters. -/
def isKeyword (word keyword : String) : Bool :=
  Chars.sameIgnoringCase (Chars.head word.toList) keyword.toList

/-- The head of the word is one of the keywords. -/
def isAnyKeyword (word : String) (keywords : List String) : Bool :=
  keywords.any (isKeyword word)

/-- The words start with the given keywords, in that order. -/
def startWithKeywords : List String → List String → Bool
  | _, [] => true
  | [], _ :: _ => false
  | word :: words, keyword :: keywords => isKeyword word keyword && startWithKeywords words keywords

end Text

end Schemata
