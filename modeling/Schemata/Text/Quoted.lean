import Schemata.Text.Nesting

/-!
# Quoted identifiers and literals

An identifier is written bare, or between double quotes, back quotes or brackets; inside quotes the
quote character is written twice.  A string literal stands between single quotes with the same
rule.  `Chars.undouble` takes the doubling away and `Chars.double` puts it in.

Names are written with double quotes or bare, as `Chars.isBare` says, and read in all four forms.
A keyword may be written bare: it is the reader of a statement that tells the two apart.
-/

namespace Schemata

namespace Chars

/-- Every `quote` written twice. -/
def double (quote : Char) : List Char → List Char
  | [] => []
  | c :: rest => if c == quote then c :: c :: double quote rest else c :: double quote rest

/-- Each pair of adjacent `quote`s, from the left, made one. -/
def undouble (quote : Char) : List Char → List Char
  | [] => []
  | [c] => [c]
  | c :: d :: rest =>
      if c == quote && d == quote then c :: undouble quote rest else c :: undouble quote (d :: rest)

/-- The text between an opening and a closing character that stand at its two ends. -/
def between? (opening closing : Char) : List Char → Option (List Char)
  | [] => none
  | c :: rest =>
      if c == opening && rest.getLast? == some closing then some rest.dropLast else none

/-- The name that an identifier spells: quotes and brackets around it are taken away. -/
def unquoteIdentifier (text : List Char) : List Char :=
  let identifier := trim text
  match between? '\x22' '\x22' identifier with
  | some inner => undouble '\x22' inner
  | none =>
      match between? '\x60' '\x60' identifier with
      | some inner => undouble '\x60' inner
      | none => (between? '[' ']' identifier).getD identifier

/-- The text that a literal spells; `none` when it is not in single quotes. -/
def unquoteLiteral? (text : List Char) : Option (List Char) :=
  (between? '\x27' '\x27' (trim text)).map (undouble '\x27')

/-- A name that can be written without quotes: ASCII letters, digits and underscores, not starting
with a digit. -/
def isBare : List Char → Bool
  | [] => false
  | c :: rest =>
      !isAsciiDigit c && (c :: rest).all fun d => d.isAlphanum || d == '_'

/-- The identifier that spells a name, quoted only when it has to be. -/
def quoteIdentifier (name : List Char) : List Char :=
  if isBare name then name else '\x22' :: (double '\x22' name ++ ['\x22'])

/-- Doubling and undoubling give the text back. -/
theorem undouble_double (quote : Char) (text : List Char) :
    undouble quote (double quote text) = text := by
  induction text with
  | nil => rfl
  | cons c rest ih =>
      by_cases hquote : c = quote
      · simp [double, undouble, hquote, ih]
      · simp only [double, beq_iff_eq, hquote, if_false]
        cases hrest : double quote rest with
        | nil => rw [hrest] at ih; rw [← ih]; rfl
        | cons d others => rw [hrest] at ih; simp [undouble, hquote, ih]

/-- What stands between two characters is found again. -/
theorem between?_append (opening closing : Char) (inner : List Char) :
    between? opening closing (opening :: (inner ++ [closing])) = some inner := by
  simp [between?]

end Chars

namespace Text

/-- The name that an identifier spells. -/
def unquoteIdentifier (text : String) : String :=
  String.ofList (Chars.unquoteIdentifier text.toList)

/-- The text that a literal spells; `none` when it is not in single quotes. -/
def unquoteLiteral? (text : String) : Option String :=
  (Chars.unquoteLiteral? text.toList).map String.ofList

/-- The identifier that spells a name, quoted only when it has to be. -/
def quoteIdentifier (name : String) : String :=
  String.ofList (Chars.quoteIdentifier name.toList)

/-- The names that a comma-separated list of identifiers spells. -/
def identifiers (text : String) : List String :=
  (clauses text).map unquoteIdentifier

end Text

end Schemata
