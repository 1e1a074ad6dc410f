import Schemata.Text.CaseTable

/-!
# Letter case

Lower and upper case of whole texts, for every script.  ASCII letters are mapped directly and the
rest through `Schemata.Text.CaseTable`.  Three mappings are not letter by letter:

* a capital sigma is lowered to a final sigma at the end of a word, where a letter stands before it
  and none behind it, and to a medial sigma elsewhere;
* a capital dotted I is lowered to an `i` and a combining dot;
* some small letters have an upper-case form of several letters, as `ß` has `SS`.
-/

namespace Schemata

namespace CaseTable

/-- The image of a character by the first run that holds it. -/
def image? (runs : List Run) (code : Nat) : Option Nat :=
  runs.findSome? fun (first, last, stride, image) =>
    if first ≤ code && code ≤ last && (code - first) % stride == 0 then some (image + (code - first))
    else none

/-- Some span holds the character. -/
def mem (spans : List Span) (c : Char) : Bool :=
  spans.any fun (first, last) => first ≤ c.toNat && c.toNat ≤ last

end CaseTable

namespace Chars

/-- The lower-case form of one character outside of any context. -/
def lowerChar (c : Char) : List Char :=
  if c.toNat < 0x80 then [c.toLower]
  else if c.toNat == 0x130 then ['i', Char.ofNat 0x307]
  else [((CaseTable.image? CaseTable.lowerRuns c.toNat).map Char.ofNat).getD c]

/-- The upper-case form of one character. -/
def upperChar (c : Char) : List Char :=
  if c.toNat < 0x80 then [c.toUpper]
  else
    match CaseTable.upperExpansions.lookup c.toNat with
    | some codes => codes.map Char.ofNat
    | none => [((CaseTable.image? CaseTable.upperRuns c.toNat).map Char.ofNat).getD c]

/-- The first character that is not skipped is a letter with a case. -/
def letterFollows (text : List Char) : Bool :=
  match text.dropWhile (CaseTable.mem CaseTable.ignorableSpans) with
  | [] => false
  | c :: _ => CaseTable.mem CaseTable.casedSpans c

/-- The lower-case form of a text, given what stands before it, nearest character first. -/
def lowerFrom : List Char → List Char → List Char
  | _, [] => []
  | before, c :: rest =>
      let image :=
        if c.toNat == 0x3A3 then
          if letterFollows before && !letterFollows rest then [Char.ofNat 0x3C2]
          else [Char.ofNat 0x3C3]
        else lowerChar c
      image ++ lowerFrom (c :: before) rest

/-- The lower-case form of a text. -/
def lower (text : List Char) : List Char :=
  lowerFrom [] text

/-- The upper-case form of a text. -/
def upper (text : List Char) : List Char :=
  text.flatMap upperChar

/-- A text of ASCII characters is lowered letter by letter. -/
theorem lower_eq_map_toLower {text : List Char} (hascii : ∀ c ∈ text, c.toNat < 0x80) :
    lower text = text.map Char.toLower := by
  suffices hfrom : ∀ before, lowerFrom before text = text.map Char.toLower from hfrom []
  induction text with
  | nil => intro before; rfl
  | cons c rest ih =>
      intro before
      have hc : c.toNat < 0x80 := hascii c List.mem_cons_self
      have hsigma : (c.toNat == 0x3A3) = false := by
        rw [beq_eq_false_iff_ne]; omega
      have hrest := ih (fun d hd => hascii d (List.mem_cons_of_mem c hd)) (c :: before)
      simp [lowerFrom, hsigma, lowerChar, hc, hrest]

end Chars

namespace Text

/-- The lower-case form of a text. -/
def lower (text : String) : String :=
  String.ofList (Chars.lower text.toList)

/-- The upper-case form of a text. -/
def upper (text : String) : String :=
  String.ofList (Chars.upper text.toList)

end Text

end Schemata
