import Schemata.ObjectName
import Schemata.ParseError
import Schemata.Text.Group

/-!
# Reading words

A `Reader` walks the words of one statement or clause.  `Reading` is the monad of the statement
readers: a step looks at the words that remain, takes some, and may refuse the text with a fault.
A refused step keeps the words it has taken.

Questions about the remaining words are functions of the `Reader`; steps that take words live in the
namespace `Reading`.

The words are cut once, when a reader starts.  A clause that has a grammar of its own is handed on
as a text (`Reader.remainder`) and cut again by the reader that gets it; `Reader.taken` is the
number of words to leave out of the raw text there, so that blanks and quotes in it survive as
written.
-/

namespace Schemata

/-- The words of a text, some of them taken. -/
structure Reader where
  /-- The migration file, for errors. -/
  file : String
  /-- The whole text. -/
  text : String
  /-- How many words are taken. -/
  taken : Nat
  /-- The words not taken. -/
  remaining : List String
  deriving DecidableEq, Repr, Inhabited

namespace Reader

/-- A reader that has taken nothing. -/
def start (file text : String) : Reader :=
  ⟨file, text, 0, Text.words text⟩

/-- The next word. -/
def peek (reader : Reader) : Option String :=
  reader.remaining.head?

/-- The word `ahead` places behind the next one. -/
def peekAt (reader : Reader) (ahead : Nat) : Option String :=
  reader.remaining[ahead]?

/-- No words remain. -/
def atEnd (reader : Reader) : Bool :=
  reader.remaining.isEmpty

/-- The next word is the keyword. -/
def nextIs (reader : Reader) (keyword : String) : Bool :=
  reader.peek.any (Text.isKeyword · keyword)

/-- The word `ahead` places behind the next one is the keyword. -/
def nextIsAt (reader : Reader) (ahead : Nat) (keyword : String) : Bool :=
  (reader.peekAt ahead).any (Text.isKeyword · keyword)

/-- The raw text behind the words taken, without blanks around it. -/
def remainder (reader : Reader) : String :=
  Text.trim (Text.afterWords reader.taken reader.text)

/-- The reader with `count` more words taken, or all that remain. -/
def skip (reader : Reader) (count : Nat) : Reader :=
  { reader with
    taken := reader.taken + min count reader.remaining.length
    remaining := reader.remaining.drop count }

/-- The error of a fault in the reader's text. -/
def error (reader : Reader) (fault : Fault) : ParseError :=
  .ofFault reader.file reader.text fault

end Reader

/-- A step that takes words and may refuse the text. -/
abbrev Reading := EStateM ParseError Reader

namespace Reading

/-- Reads a text from its first word on. -/
def ofText {α : Type} (action : Reading α) (file text : String) : Except ParseError α :=
  match action.run (Reader.start file text) with
  | .ok value _ => .ok value
  | .error error _ => .error error

/-- Refuses the text. -/
def fail {α : Type} (fault : Fault) : Reading α := do
  throw ((← get).error fault)

/-- Takes `count` words. -/
def skip (count : Nat) : Reading Unit :=
  modify (·.skip count)

/-- Takes the next word, if there is one. -/
def next? : Reading (Option String) := do
  let word := (← get).peek
  skip 1
  return word

/-- Takes the next word if it is the keyword. -/
def accept (keyword : String) : Reading Bool := do
  if (← get).nextIs keyword then
    skip 1
    return true
  else return false

/-- Takes the keywords if all of them come next, in order. -/
def acceptAll (keywords : List String) : Reading Bool := do
  if Text.startWithKeywords (← get).remaining keywords then
    skip keywords.length
    return true
  else return false

/-- Takes the next word if it is one of the keywords. -/
def acceptAny (keywords : List String) : Reading (Option String) := do
  if (← get).peek.any (Text.isAnyKeyword · keywords) then next? else return none

/-- Takes the next word, which must be the keyword and may carry a group. -/
def expectKeyword (keyword : String) : Reading String := do
  let reader ← get
  match reader.peek with
  | some word =>
      if Text.isKeyword word keyword then
        skip 1
        return word
      else fail (.expectedKeyword keyword (some word))
  | none => fail (.expectedKeyword keyword none)

/-- Takes the next word, which must exist. -/
def expectWord (what : String) : Reading String := do
  match ← next? with
  | some word => return word
  | none => fail (.expected what)

/-- Takes the next word, which must exist, as an identifier. -/
def expectIdentifier (what : String) : Reading String := do
  return Text.unquoteIdentifier (← expectWord what)

/-- What the group of `word` holds, or the group that is the next word.  A next word that opens a
group is taken even if it does not close it. -/
def group? (word : String) : Reading (Option String) := do
  match Text.group? word with
  | some inside => return some inside
  | none =>
      match (← get).peek with
      | some next =>
          if next.toList.head? == some '(' then
            skip 1
            return Text.group? next
          else return none
      | none => return none

/-- What the group of `word` or the next word holds, which must exist. -/
def expectGroup (word what : String) : Reading String := do
  match ← group? word with
  | some inside => return inside
  | none => fail (.expectedGroup what word)

/-- Takes all words that remain. -/
def rest : Reading (List String) := do
  let words := (← get).remaining
  skip words.length
  return words

/-- Takes words as long as they pass a test. -/
def takeWhile (test : String → Bool) : Reading (List String) := do
  let words := (← get).remaining.takeWhile test
  skip words.length
  return words

/-- Refuses a word that is left over. -/
def expectEnd : Reading Unit := do
  match (← get).peek with
  | some word => fail (.unexpected word)
  | none => return ()

/-- Takes items until a step declines, at most `limit` of them. -/
def manyUpTo {α : Type} (step : Reading (Option α)) : Nat → Reading (List α)
  | 0 => return []
  | limit + 1 => do
      match ← step with
      | some item => return item :: (← manyUpTo step limit)
      | none => return []

/-- Takes items until a step declines.  Each item takes a word at least, so that there are no more
items than words. -/
def many {α : Type} (step : Reading (Option α)) : Reading (List α) := do
  manyUpTo step (← get).remaining.length

/-- Takes the comma-separated names that remain, and a last word `CASCADE` or `RESTRICT`.  The result
says whether it was `CASCADE`. -/
def nameList (what : String) : Reading (List String × Bool) := do
  let words ← rest
  let cascade := words.getLast?.any (Text.isKeyword · "cascade")
  let restrict := words.getLast?.any (Text.isKeyword · "restrict")
  let listed := if cascade || restrict then words.dropLast else words
  match Text.clauses (Text.unwords listed) with
  | [] => fail (.expected what)
  | names => return (names, cascade)

end Reading

end Schemata
