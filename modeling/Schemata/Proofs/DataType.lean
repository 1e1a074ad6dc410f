import Schemata.DataType
import Schemata.Proofs.ObjectName

/-!
# Printed types

A type with a name of one word, with sizes or without, is written as one word
(`OneWordType.isWord_written`), and reading it gives the type back (`OneWordType.read?_written`).

A printed type is its name in lower case, the sizes as a group that touches it, and brackets if it
is an array.  The reader undoes this from the outside: it drops suffixes, lowers what is left, cuts
it at the first parenthesis, and reads the digits of the sizes.  The lemmas go the same way, one for
each thing that the reader does, and the sizes have one form for all types (`Sizes`): none, one, or
two that stand for a precision and a scale.
-/

namespace Schemata

namespace Chars

/-! ## Sizes -/

/-- The decimal digits of a size. -/
def digits (size : UInt32) : List Char :=
  (Nat.repr size.toNat).toList

theorem digits_eq (size : UInt32) : digits size = Nat.toDigits 10 size.toNat := by
  rw [digits, Nat.repr_eq_ofList_toDigits, String.toList_ofList]

theorem isDigit_of_mem_digits {size : UInt32} {c : Char} (hc : c ∈ digits size) :
    c.isDigit = true := by
  rw [digits_eq] at hc
  exact Nat.isDigit_of_mem_toDigits (by decide) (by decide) hc

theorem isNameChar_of_isDigit {c : Char} (hdigit : c.isDigit = true) : isNameChar c = true := by
  simp [isNameChar, Char.isAlphanum, hdigit]

theorem isAsciiDigit_of_isDigit {c : Char} (hdigit : c.isDigit = true) : isAsciiDigit c = true := by
  simp only [Char.isDigit, Bool.and_eq_true, decide_eq_true_eq, ge_iff_le] at hdigit
  simp only [isAsciiDigit, Bool.and_eq_true, decide_eq_true_eq, Char.le_def]
  exact hdigit

theorem digits_ne_nil (size : UInt32) : digits size ≠ [] := by
  rw [digits_eq]
  exact Nat.toDigits_ne_nil

theorem decimal_digits (size : UInt32) : decimal (digits size) = size.toNat := by
  have hfold : decimal (digits size) = Nat.ofDigitChars 10 (digits size) 0 := by
    rw [Nat.ofDigitChars_eq_foldl, decimal]
    congr 1
    funext value c
    rw [Nat.mul_comm]
  rw [hfold, digits_eq]
  exact Nat.ofDigitChars_ten_toDigits

/-- Reading the digits of a size gives the size back. -/
theorem readSize?_digits (size : UInt32) : readSize? (digits size) = some size := by
  have hdigits : (digits size).all isAsciiDigit = true :=
    List.all_eq_true.mpr fun c hc => isAsciiDigit_of_isDigit (isDigit_of_mem_digits hc)
  have hsize : size.toNat < UInt32.size := size.toNat_lt_size
  have hsign : ∀ rest, digits size ≠ '+' :: rest := by
    intro rest hrest
    have hplus := isDigit_of_mem_digits (hrest ▸ List.mem_cons_self)
    cases hplus
  unfold readSize?
  split
  · rename_i rest hrest
    exact absurd hrest (hsign rest)
  · simp [digits_ne_nil, hdigits, hsize, decimal_digits]

/-! ## Array suffixes -/

variable {text : List Char}

theorem dropBrackets?_eq_none (hlast : text.getLast? ≠ some ']') : dropBrackets? text = none := by
  rw [← List.head?_reverse] at hlast
  unfold dropBrackets?
  split
  · rename_i back hback
    rw [hback] at hlast
    exact absurd rfl hlast
  · rfl

theorem dropArrayWord?_eq_none
    (hword : text.getLast? = some ')' ∨ ∀ c ∈ text, isBlank c = false) :
    dropArrayWord? text = none := by
  unfold dropArrayWord?
  split
  · rename_i c before hbefore
    split
    · rename_i hsuffix
      obtain ⟨hblank, hsame⟩ := (Bool.and_eq_true _ _).mp hsuffix
      have hsame : (text.reverse.take 5).map Char.toLower =
          ['y', 'a', 'r', 'r', 'a'].map Char.toLower := eq_of_beq hsame
      -- a text of which the word were dropped would end in its last letter, behind a blank
      rcases hword with hclosing | hblanks
      · rw [← List.head?_reverse] at hclosing
        obtain ⟨rest, hrest⟩ := List.head?_eq_some_iff.mp hclosing
        rw [hrest] at hsame
        cases hsame
      · have hmem : c ∈ text := by
          rw [← List.mem_reverse]
          exact List.mem_of_mem_drop (hbefore ▸ List.mem_cons_self)
        rw [hblanks c hmem] at hblank
        cases hblank
    · rfl
  · rfl

theorem dropArraySuffixes_of_none (hnone : dropArraySuffix? text = none) :
    dropArraySuffixes text = (text, false) := by
  rw [dropArraySuffixes]
  split
  · rename_i rest hrest
    rw [hnone] at hrest
    cases hrest
  · rfl

/-- Brackets behind a text without a suffix are dropped. -/
theorem dropArraySuffixes_append (hnone : dropArraySuffix? text = none)
    (hlast : ∀ c ∈ text.getLast?, isBlank c = false) :
    dropArraySuffixes (text ++ ['[', ']']) = (text, true) := by
  have hdrop : dropArraySuffix? (text ++ ['[', ']']) = some text := by
    have hbrackets : dropBrackets? (text ++ ['[', ']']) = some (trimEnd text) := by
      simp [dropBrackets?, trim, trimStart, trimEnd]
    rw [dropArraySuffix?, hbrackets, trimEnd_eq_self hlast]
    rfl
  rw [dropArraySuffixes]
  split
  · rename_i rest hrest
    rw [hdrop] at hrest
    cases hrest
    rw [dropArraySuffixes_of_none hnone]
  · rename_i hrest
    rw [hdrop] at hrest
    cases hrest

/-! ## Names -/

theorem betweenBlanks_append {word : List Char} (hword : ∀ c ∈ word, isBlank c = false)
    (rest : List Char) :
    betweenBlanks (word ++ rest) = (betweenBlanks rest).modifyHead (word ++ ·) := by
  induction word with
  | nil => exact (congrFun List.modifyHead_id _).symm
  | cons c others ih =>
      have hrest := ih fun d hd => hword d (List.mem_cons_of_mem c hd)
      rw [List.cons_append, betweenBlanks, hword c List.mem_cons_self, hrest,
        List.modifyHead_modifyHead]
      rfl

/-- A word without blanks, with a blank behind it or not, is collapsed to itself. -/
theorem collapse_word {word : List Char} (hword : ∀ c ∈ word, isBlank c = false)
    (hne : word ≠ []) : collapse word = word ∧ collapse (word ++ [' ']) = word := by
  constructor
  · have hstretches : betweenBlanks (word ++ []) = [word] := by
      rw [betweenBlanks_append hword]
      simp [betweenBlanks]
    rw [List.append_nil] at hstretches
    rw [collapse, hstretches]
    simp [hne]
  · have hspace : betweenBlanks [' '] = [[], []] := by decide
    have hstretches : betweenBlanks (word ++ [' ']) = [word, []] := by
      rw [betweenBlanks_append hword, hspace]
      simp
    rw [collapse, hstretches]
    simp [hne]

end Chars

/-! ## Types of one word -/

/-- What is written behind the name of a type. -/
inductive Sizes where
  | none
  | length (size : UInt32)
  | precision (digits places : UInt32)
  deriving DecidableEq, Repr

namespace Sizes

/-- The sizes in the order written. -/
def numbers : Sizes → List UInt32
  | none => []
  | length size => [size]
  | precision digits places => [digits, places]

/-- The sizes as a list with commas. -/
def chars (sizes : Sizes) : List Char :=
  [',', ' '].intercalate (sizes.numbers.map Chars.digits)

/-- The group behind the name. -/
def group : Sizes → List Char
  | none => []
  | sizes => '(' :: (sizes.chars ++ [')'])

variable (sizes : Sizes)

theorem isListed_of_mem {chars : List Char} (hchars : chars ∈ sizes.numbers.map Chars.digits) :
    Chars.IsListed chars := by
  obtain ⟨size, -, rfl⟩ := List.mem_map.mp hchars
  have hwhole : Chars.Whole (Chars.digits size) :=
    Chars.whole_of_nameChars fun c hc =>
      Chars.isNameChar_of_isDigit (Chars.isDigit_of_mem_digits hc)
  exact ⟨hwhole.toBalanced, hwhole.toTrimmed, hwhole.uncut_comma, Chars.digits_ne_nil size⟩

theorem balanced_chars : Chars.Balanced sizes.chars :=
  Chars.balanced_intercalate (Chars.balanced_of_plain (List.all_eq_true.mp (by decide)))
    fun _ hchars => (sizes.isListed_of_mem hchars).toBalanced

theorem split_chars : Chars.split ',' sizes.chars = sizes.numbers.map Chars.digits :=
  Chars.split_intercalate (List.all_eq_true.mp (by decide)) fun _ hchars =>
    sizes.isListed_of_mem hchars

theorem whole_group : Chars.Whole sizes.group := by
  cases sizes with
  | none => exact Chars.whole_of_nameChars fun c hc => nomatch hc
  | _ => exact (balanced_chars _).whole_group

/-- The sizes, if there are any. -/
def listed? : Sizes → Option (List UInt32)
  | none => Option.none
  | sizes => some sizes.numbers

theorem bind_readSize? :
    (sizes.listed?.map (·.map Chars.digits)).bind (·.mapM Chars.readSize?) = sizes.listed? := by
  cases sizes <;> simp [listed?, numbers, Chars.readSize?_digits]

theorem mem_group {c : Char} (hc : c ∈ sizes.group) :
    c ∈ ['(', ')', ',', ' '] ∨ c.isDigit = true := by
  have hdigit : ∀ size, c ∈ Chars.digits size → c.isDigit = true := fun _ =>
    Chars.isDigit_of_mem_digits
  cases sizes with
  | none => cases hc
  | length size =>
      simp only [group, chars, numbers, List.map_cons, List.map_nil, List.intercalate_singleton,
        List.mem_cons, List.mem_append] at hc ⊢
      grind
  | precision digits places =>
      simp only [group, chars, numbers, List.map_cons, List.map_nil, List.intercalate_singleton,
        List.intercalate_cons_cons, List.mem_cons, List.mem_append] at hc ⊢
      grind

theorem lower_group {c : Char} (hc : c ∈ sizes.group) : c.toNat < 0x80 ∧ c.toLower = c := by
  rcases sizes.mem_group hc with hmark | hdigit
  · simp only [List.mem_cons, List.not_mem_nil, or_false] at hmark
    rcases hmark with rfl | rfl | rfl | rfl <;> decide
  · have hupper : ¬c.isUpper = true := by
      intro hupper
      have hnot := Chars.not_isAsciiDigit_of_isUpper hupper
      rw [Chars.isAsciiDigit_of_isDigit hdigit] at hnot
      cases hnot
    exact ⟨(Chars.toNat_of_isNameChar (Chars.isNameChar_of_isDigit hdigit)).2,
      Chars.toLower_of_not_isUpper hupper⟩

/-- There is no group, or one that lists the sizes. -/
theorem group_cases : sizes.listed? = .none ∧ sizes.group = [] ∨
    sizes.listed? = some sizes.numbers ∧ sizes.group = '(' :: (sizes.chars ++ [')']) := by
  cases sizes with
  | none => exact Or.inl ⟨rfl, rfl⟩
  | length size => exact Or.inr ⟨rfl, rfl⟩
  | precision digits places => exact Or.inr ⟨rfl, rfl⟩

/-- The type of a name with the sizes. -/
def dataType (sizes : Sizes) (name : String) : DataType :=
  match sizes with
  | none => ⟨name, .none, .none, .none⟩
  | length size => ⟨name, some size, .none, .none⟩
  | precision digits places => ⟨name, .none, some digits, some places⟩

theorem toList_dataType_text (name : String) :
    (sizes.dataType name).text.toList = name.toList ++ sizes.group := by
  have hopen : "(".toList = ['('] := by decide
  have hclose : ")".toList = [')'] := by decide
  have hcomma : ", ".toList = [',', ' '] := by decide
  unfold dataType group DataType.text
  cases sizes with
  | none => simp
  | length size => simp [chars, numbers, Chars.digits_eq, hopen, hclose]
  | precision digits places => simp [chars, numbers, Chars.digits_eq, hopen, hclose, hcomma]

theorem withParameters_listed? (name : String) :
    (⟨name, .none, .none, .none⟩ : DataType).withParameters sizes.listed? =
      sizes.dataType name := by
  unfold dataType
  cases sizes <;> rfl

end Sizes

/-- A type with a name of one word in lower case. -/
structure OneWordType where
  name : String
  sizes : Sizes
  bare : Chars.isBare name.toList = true
  lower : name.toList.any Char.isUpper = false

namespace OneWordType

/-- The type as data. -/
def dataType (type : OneWordType) : DataType :=
  match type.sizes with
  | .none => ⟨type.name, none, none, none⟩
  | .length size => ⟨type.name, some size, none, none⟩
  | .precision digits places => ⟨type.name, none, some digits, some places⟩

/-- The type of a column as written. -/
def written (type : OneWordType) (array : Bool) : String :=
  if array then type.dataType.text ++ "[]" else type.dataType.text

variable (type : OneWordType)

theorem dataType_eq : type.dataType = type.sizes.dataType type.name := rfl

theorem toList_text : type.dataType.text.toList = type.name.toList ++ type.sizes.group :=
  type.sizes.toList_dataType_text type.name

theorem isNameChar_name : ∀ c ∈ type.name.toList, Chars.isNameChar c = true :=
  Chars.isNameChar_of_isBare type.bare

theorem isBlank_name : ∀ c ∈ type.name.toList, isBlank c = false := fun c hc =>
  Chars.isBlank_of_isNameChar (type.isNameChar_name c hc)

theorem toLower_name : ∀ c ∈ type.name.toList, c.toLower = c := fun c hc =>
  Chars.toLower_of_not_isUpper (List.any_eq_false.mp type.lower c hc)

theorem name_ne_nil : type.name.toList ≠ [] :=
  (Chars.isNameWord_of_isBare type.bare).ne_nil

theorem uncut_name : Chars.Uncut (· == '(') .top type.name.toList :=
  Chars.uncut_of_nameChars type.isNameChar_name fun _ hc =>
    beq_false_of_ne (Chars.ne_of_isNameChar hc (by decide))

theorem whole_text : Chars.Whole type.dataType.text.toList := by
  rw [toList_text]
  exact (Chars.whole_of_nameChars type.isNameChar_name).append type.sizes.whole_group

theorem toList_written (array : Bool) : (type.written array).toList =
    type.dataType.text.toList ++ if array then ['[', ']'] else [] := by
  have hbrackets : "[]".toList = ['[', ']'] := by decide
  cases array with
  | false => simp [written]
  | true => simp [written, hbrackets]

/-- A type is written as one word. -/
theorem isWord_written (array : Bool) : Chars.IsWord (type.written array).toList := by
  have hbrackets : Chars.Whole (if array then ['[', ']'] else []) := by
    cases array with
    | false => exact Chars.whole_of_nameChars fun c hc => nomatch hc
    | true =>
        refine ⟨Chars.balanced_nil.group rfl rfl, ⟨?_, ?_⟩, rfl, rfl, trivial⟩
        · intro c hc
          cases hc
          decide
        · intro c hc
          cases hc
          decide
  rw [toList_written]
  refine ⟨type.whole_text.append hbrackets, ?_⟩
  rw [toList_text, List.append_assoc]
  exact List.append_ne_nil_of_left_ne_nil type.name_ne_nil _

theorem mem_text {c : Char} (hc : c ∈ type.dataType.text.toList) :
    c.toNat < 0x80 ∧ c.toLower = c := by
  rw [toList_text, List.mem_append] at hc
  rcases hc with hname | hgroup
  · exact ⟨(Chars.toNat_of_isNameChar (type.isNameChar_name c hname)).2, type.toLower_name c hname⟩
  · exact type.sizes.lower_group hgroup

/-- The text of a type is in lower case. -/
theorem lower_text : Chars.lower type.dataType.text.toList = type.dataType.text.toList :=
  calc Chars.lower type.dataType.text.toList
      = type.dataType.text.toList.map Char.toLower :=
        Chars.lower_eq_map_toLower fun _ hc => (type.mem_text hc).1
    _ = type.dataType.text.toList.map id :=
        List.map_congr_left fun _ hc => (type.mem_text hc).2
    _ = type.dataType.text.toList := List.map_id _

/-- The text is all name, or it ends in the parenthesis of the sizes. -/
theorem text_cases :
    type.sizes.listed? = none ∧ type.dataType.text.toList = type.name.toList ∨
      type.sizes.listed? = some type.sizes.numbers ∧
        type.dataType.text.toList = type.name.toList ++ '(' :: (type.sizes.chars ++ [')']) := by
  rw [toList_text]
  rcases type.sizes.group_cases with ⟨hlisted, hgroup⟩ | ⟨hlisted, hgroup⟩
  · exact Or.inl ⟨hlisted, by rw [hgroup, List.append_nil]⟩
  · exact Or.inr ⟨hlisted, by rw [hgroup]⟩

theorem nameAndParameters_text :
    ColumnType.nameAndParameters type.dataType.text.toList =
      (type.name.toList, type.sizes.listed?.map (·.map Chars.digits)) := by
  have hcollapse := Chars.collapse_word type.isBlank_name type.name_ne_nil
  rcases type.text_cases with ⟨hsizes, htext⟩ | ⟨hsizes, htext⟩
  · rw [htext, ColumnType.nameAndParameters, Chars.breakAt_of_uncut type.uncut_name, hsizes]
    dsimp only
    rw [hcollapse.1]
    rfl
  · rw [htext, ColumnType.nameAndParameters,
      Chars.breakAt_append_cons type.uncut_name (Chars.run_of_nameChars type.isNameChar_name),
      hsizes]
    dsimp only
    rw [Chars.closeGroup_append type.sizes.balanced_chars]
    dsimp only
    rw [hcollapse.2, type.sizes.split_chars]
    rfl

theorem dropArraySuffix?_text : Chars.dropArraySuffix? type.dataType.text.toList = none := by
  have hlast : type.dataType.text.toList.getLast? ≠ some ']' := by
    rcases type.text_cases with ⟨-, htext⟩ | ⟨-, htext⟩
    · rw [htext]
      intro hlast
      have hname := type.isNameChar_name ']' (List.mem_of_getLast? hlast)
      cases hname
    · rw [htext, ← List.cons_append, ← List.append_assoc, List.getLast?_concat]
      decide
  have hword : type.dataType.text.toList.getLast? = some ')' ∨
      ∀ c ∈ type.dataType.text.toList, isBlank c = false := by
    rcases type.text_cases with ⟨-, htext⟩ | ⟨-, htext⟩
    · rw [htext]
      exact Or.inr type.isBlank_name
    · rw [htext, ← List.cons_append, ← List.append_assoc, List.getLast?_concat]
      exact Or.inl rfl
  rw [Chars.dropArraySuffix?, Chars.dropBrackets?_eq_none hlast,
    Chars.dropArrayWord?_eq_none hword]
  rfl

theorem dropArraySuffixes_written (array : Bool) :
    Chars.dropArraySuffixes (type.written array).toList = (type.dataType.text.toList, array) := by
  rw [toList_written]
  cases array with
  | false =>
      rw [if_neg Bool.false_ne_true, List.append_nil]
      exact Chars.dropArraySuffixes_of_none type.dropArraySuffix?_text
  | true =>
      rw [if_pos rfl]
      exact Chars.dropArraySuffixes_append type.dropArraySuffix?_text type.whole_text.last

/-- Reading a written type gives the type back. -/
theorem read?_written (array : Bool) :
    ColumnType.read? (type.written array) = some ⟨type.dataType, array⟩ := by
  have hname : type.name.toList.isEmpty = false := by simp [type.name_ne_nil]
  rw [ColumnType.read?, (type.isWord_written array).trim_eq, dropArraySuffixes_written]
  dsimp only
  rw [lower_text, nameAndParameters_text]
  dsimp only
  rw [hname, if_neg Bool.false_ne_true, type.sizes.bind_readSize?, String.ofList_toList,
    type.sizes.withParameters_listed?, dataType_eq]

end OneWordType

end Schemata
