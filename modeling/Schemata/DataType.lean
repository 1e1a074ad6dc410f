import Schemata.Text.Case
import Schemata.Text.Group

/-!
# Data types

A column's type is a family name in lower case with optional size parameters; what families exist
is not this library's business.  `ColumnType.read?` reads the written form, which may put the
parameters after any word of the name (`timestamp(3) with time zone`) and may end in array suffixes
(`text[]`, `int[3][3]`, `int ARRAY`).

Reading takes the suffixes away from the right, one after the other, and each of them makes the text
shorter (`Chars.length_lt_of_dropArraySuffix?`).  Of what is left, the first group gives the sizes
and the words around it the name.  A size that is no number of 32 bits is no size, and parameters
with such a part are ignored as a whole.
-/

namespace Schemata

/-- A type family with its size parameters. -/
structure DataType where
  /-- The family in lower case, its words separated by single spaces. -/
  name : String
  /-- The length, as in `varchar(255)`. -/
  length : Option UInt32
  /-- The precision, as in `numeric(10, 2)`. -/
  precision : Option UInt32
  /-- The scale, as in `numeric(10, 2)`. -/
  scale : Option UInt32
  deriving DecidableEq, Repr, Inhabited

namespace DataType

/-- The type of a family without parameters. -/
def ofFamily (name : String) : DataType :=
  ⟨Text.lower name, none, none, none⟩

/-- The type with a length and nothing else. -/
def withLength (dataType : DataType) (length : UInt32) : DataType :=
  { dataType with length := some length, precision := none, scale := none }

/-- The type with a precision and a scale and nothing else. -/
def withPrecision (dataType : DataType) (precision scale : UInt32) : DataType :=
  { dataType with length := none, precision := some precision, scale := some scale }

/-- The type with the parameters of a written list: one number is a length, two are a precision and
a scale, and any other list is dropped. -/
def withParameters (dataType : DataType) : Option (List UInt32) → DataType
  | some [length] => dataType.withLength length
  | some [precision, scale] => dataType.withPrecision precision scale
  | _ => dataType

/-- The written form of a type. -/
def text (dataType : DataType) : String :=
  match dataType.length, dataType.precision, dataType.scale with
  | some length, _, _ => dataType.name ++ "(" ++ Nat.repr length.toNat ++ ")"
  | none, some precision, some scale =>
      dataType.name ++ "(" ++ Nat.repr precision.toNat ++ ", " ++ Nat.repr scale.toNat ++ ")"
  | _, _, _ => dataType.name

end DataType

namespace Chars

/-- The number that decimal digits spell. -/
def decimal (digits : List Char) : Nat :=
  digits.foldl (fun value c => value * 10 + (c.toNat - '0'.toNat)) 0

/-- Reads a size parameter: decimal digits, a plus sign allowed before them, within 32 bits. -/
def readSize? (text : List Char) : Option UInt32 :=
  let digits := match text with
    | '+' :: rest => rest
    | _ => text
  if !digits.isEmpty && digits.all isAsciiDigit && decimal digits < UInt32.size then
    some (UInt32.ofNat (decimal digits))
  else none

/-! ## Array suffixes -/

/-- The text before a suffix `[]` or `[n]`. -/
def dropBrackets? (text : List Char) : Option (List Char) :=
  match text.reverse with
  | ']' :: back =>
      match back.dropWhile (· != '[') with
      | _ :: before =>
          if (trim (back.takeWhile (· != '['))).all isAsciiDigit then some (trimEnd before.reverse)
          else none
      | [] => none
  | _ => none

/-- The text before a suffix `ARRAY` that is a word of its own. -/
def dropArrayWord? (text : List Char) : Option (List Char) :=
  match text.reverse.drop 5 with
  | c :: before =>
      if isBlank c && sameIgnoringCase (text.reverse.take 5) ['y', 'a', 'r', 'r', 'a'] then
        some (trimEnd (c :: before).reverse)
      else none
  | [] => none

/-- The text before one array suffix. -/
def dropArraySuffix? (text : List Char) : Option (List Char) :=
  (dropBrackets? text).or (dropArrayWord? text)

private theorem length_dropWhile_le (p : Char → Bool) (text : List Char) :
    (text.dropWhile p).length ≤ text.length :=
  (List.dropWhile_sublist p).length_le

theorem length_trimEnd_le (text : List Char) : (trimEnd text).length ≤ text.length := by
  simpa [trimEnd] using length_dropWhile_le isBlank text.reverse

theorem length_lt_of_dropBrackets? {text rest : List Char}
    (hdrop : dropBrackets? text = some rest) : rest.length < text.length := by
  unfold dropBrackets? at hdrop
  split at hdrop
  · rename_i back hback
    split at hdrop
    · rename_i c before hbefore
      split at hdrop
      · cases hdrop
        have hlength := length_dropWhile_le (· != '[') back
        have htrim := length_trimEnd_le before.reverse
        have htext : text.length = back.length + 1 := by
          rw [← List.length_reverse, hback, List.length_cons]
        rw [hbefore, List.length_cons] at hlength
        rw [List.length_reverse] at htrim
        omega
      · cases hdrop
    · cases hdrop
  · cases hdrop

theorem length_lt_of_dropArrayWord? {text rest : List Char}
    (hdrop : dropArrayWord? text = some rest) : rest.length < text.length := by
  unfold dropArrayWord? at hdrop
  split at hdrop
  · rename_i c before hbefore
    split at hdrop
    · cases hdrop
      -- the blank in front of the word is there, so the text is longer than the word
      have htrim := length_trimEnd_le (c :: before).reverse
      have hlength : (text.reverse.drop 5).length = text.length - 5 := by simp
      rw [hbefore, List.length_cons] at hlength
      rw [List.length_reverse, List.length_cons] at htrim
      omega
    · cases hdrop
  · cases hdrop

/-- Dropping an array suffix leaves less text. -/
theorem length_lt_of_dropArraySuffix? {text rest : List Char}
    (hdrop : dropArraySuffix? text = some rest) : rest.length < text.length := by
  rw [dropArraySuffix?, Option.or_eq_some_iff] at hdrop
  rcases hdrop with hbrackets | ⟨-, hword⟩
  · exact length_lt_of_dropBrackets? hbrackets
  · exact length_lt_of_dropArrayWord? hword

/-- The text without its array suffixes, and whether there were any. -/
def dropArraySuffixes (text : List Char) : List Char × Bool :=
  match _hdrop : dropArraySuffix? text with
  | some rest => ((dropArraySuffixes rest).1, true)
  | none => (text, false)
  termination_by text.length
  decreasing_by exact length_lt_of_dropArraySuffix? _hdrop

end Chars

/-- The type of a column: a data type or an array of one. -/
structure ColumnType where
  /-- The type, of the elements for an array. -/
  dataType : DataType
  /-- The column holds arrays. -/
  array : Bool
  deriving DecidableEq, Repr, Inhabited

namespace ColumnType

/-- A type text taken apart: its name with the words on both sides of the parameters, and the
parameters of a closed list. -/
def nameAndParameters (text : List Char) : List Char × Option (List (List Char)) :=
  match Chars.breakAt '(' .top text with
  | none => (Chars.collapse text, none)
  | some (before, behind) =>
      match Chars.closeGroup behind with
      | none => (Chars.collapse before, none)
      | some (inside, after) =>
          (Chars.collapse (before ++ ' ' :: after), some (Chars.split ',' inside))

/-- Reads a written type; `none` when no name is left. -/
def read? (text : String) : Option ColumnType :=
  let (base, array) := Chars.dropArraySuffixes (Chars.trim text.toList)
  let (name, parameters) := nameAndParameters (Chars.lower base)
  if name.isEmpty then none
  else
    let sizes := parameters.bind fun list => list.mapM Chars.readSize?
    some ⟨(⟨String.ofList name, none, none, none⟩ : DataType).withParameters sizes, array⟩

end ColumnType

end Schemata
