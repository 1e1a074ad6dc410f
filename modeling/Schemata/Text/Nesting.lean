import Schemata.Text.Blank

/-!
# Nesting

Statements are taken apart without a tokenizer.  A scan remembers two things about the text it has
passed: the quote it is inside of, if any, and how many parentheses and brackets are open.  A
character stands *at the top* when no quote and no group is open around it; commas, dots and blanks
count as separators only there.

A doubled quote inside quoted text closes the quote and opens it again at once.  Nothing can be cut
between the two characters, since neither of them is a separator, so the pair needs no rule of its
own.

## Main definitions

* `Nesting.step`: what one character does to the scan.
* `Chars.pieces`: the text cut at the separators that stand at the top.
* `Chars.split`, `Chars.words`: trimmed clauses, and words.
* `Chars.afterWords`: the raw text behind the first words.
-/

namespace Schemata

/-- What a scan remembers: the quote it is inside of and the number of open groups. -/
structure Nesting where
  /-- The quote character that would close the open quote. -/
  quote : Option Char
  /-- How many parentheses and brackets are open. -/
  depth : Nat
  deriving DecidableEq, Repr

namespace Nesting

/-- The scan before the first character: nothing is open. -/
def top : Nesting := ⟨none, 0⟩

/-- Nothing is open. -/
def isTop (nesting : Nesting) : Bool :=
  nesting.quote.isNone && nesting.depth == 0

/-- A character that opens a quote: a single quote, a double quote or a back quote. -/
def isQuote (c : Char) : Bool :=
  c == '\x27' || c == '\x22' || c == '\x60'

/-- A character that opens a group. -/
def opensGroup (c : Char) : Bool :=
  c == '(' || c == '['

/-- A character that closes a group. -/
def closesGroup (c : Char) : Bool :=
  c == ')' || c == ']'

/-- One character.  Inside a quote only the same quote counts; a closing bracket with nothing open
is ignored. -/
def step (nesting : Nesting) (c : Char) : Nesting :=
  match nesting.quote with
  | some quote => if c == quote then ⟨none, nesting.depth⟩ else nesting
  | none =>
      if isQuote c then ⟨some c, nesting.depth⟩
      else if opensGroup c then ⟨none, nesting.depth + 1⟩
      else if closesGroup c then ⟨none, nesting.depth - 1⟩
      else nesting

/-- The scan after a whole text. -/
def run (nesting : Nesting) (text : List Char) : Nesting :=
  text.foldl step nesting

/-- A scan with nothing open is the scan at the start. -/
theorem eq_top_of_isTop {nesting : Nesting} (htop : nesting.isTop = true) : nesting = top := by
  obtain ⟨quote, depth⟩ := nesting
  cases quote <;> simp_all [isTop, top]

@[simp]
theorem run_nil (nesting : Nesting) : nesting.run [] = nesting := rfl

@[simp]
theorem run_cons (nesting : Nesting) (c : Char) (text : List Char) :
    nesting.run (c :: text) = (nesting.step c).run text := rfl

/-- A scan of two texts is a scan of the second from where the first ended. -/
theorem run_append (nesting : Nesting) (first second : List Char) :
    nesting.run (first ++ second) = (nesting.run first).run second :=
  List.foldl_append

end Nesting

namespace Chars

/-- The text cut at every character that stands at the top and is a separator by `cut`.  There is
one piece more than there are cuts. -/
def pieces (cut : Char → Bool) : Nesting → List Char → List (List Char)
  | _, [] => [[]]
  | nesting, c :: rest =>
      if nesting.isTop && cut c then [] :: pieces cut nesting rest
      else (pieces cut (nesting.step c) rest).modifyHead (c :: ·)

/-- The text between separators at the top: each piece trimmed, empty ones dropped. -/
def split (separator : Char) (text : List Char) : List (List Char) :=
  ((pieces (· == separator) .top text).map trim).filter (! ·.isEmpty)

/-- The words: pieces between blanks at the top, empty ones dropped.  A group stays in the word it
touches. -/
def words (text : List Char) : List (List Char) :=
  (pieces isBlank .top text).filter (! ·.isEmpty)

/-- What follows the word at the start of the text, from its blank on. -/
def dropWord : Nesting → List Char → List Char
  | _, [] => []
  | nesting, c :: rest =>
      if nesting.isTop && isBlank c then c :: rest else dropWord (nesting.step c) rest

/-- The text from the word after the first `count` words on. -/
def afterWords : Nat → List Char → List Char
  | 0, text => trimStart text
  | count + 1, text =>
      match trimStart text with
      | [] => []
      | c :: rest => afterWords count (dropWord .top (c :: rest))

/-- There is always a piece, if only an empty one. -/
theorem pieces_ne_nil (cut : Char → Bool) (nesting : Nesting) (text : List Char) :
    pieces cut nesting text ≠ [] := by
  induction text generalizing nesting with
  | nil => simp [pieces]
  | cons c rest ih =>
      rw [pieces]
      split
      · simp
      · cases hpieces : pieces cut (nesting.step c) rest with
        | nil => exact absurd hpieces (ih _)
        | cons piece others => simp

end Chars

namespace Text

/-- The trimmed, non-empty parts of the text between separators at the top. -/
def split (separator : Char) (text : String) : List String :=
  (Chars.split separator text.toList).map String.ofList

/-- The comma-separated clauses of the text. -/
def clauses (text : String) : List String :=
  split ',' text

/-- The words of the text. -/
def words (text : String) : List String :=
  (Chars.words text.toList).map String.ofList

/-- The raw text from the word after the first `count` words on. -/
def afterWords (count : Nat) (text : String) : String :=
  String.ofList (Chars.afterWords count text.toList)

end Text

end Schemata
