import Schemata.Proofs.DataType

/-!
# Texts of types

A type with a name of several words is written with its sizes behind the last of them, or behind any
other (`timestamp(3) with time zone`): the words on both sides make the name.  An array suffix may
follow any text that is read as a type, and is dropped from its end before anything else is looked
at.

Reading goes inwards.  Suffixes are dropped from the right, one after the other, for which the text
has to end in none of its own; the first parenthesis cuts the rest into a name in front, sizes and a
name behind; and the two parts of the name are put together with one space, however many blanks
stood in them.  So the text is described from outside by how it ends (`WordyType.ends_textAt`), and
from inside by its words and the place of the sizes (`WordyType.toList_textAt`).

* `Chars.stretches_append_cons`: blanks separate the words of a name, sizes do not join them.
* `Chars.IsArraySuffix.dropArraySuffixes_append_suffix`: a suffix behind a text, whatever the text
  ends in.
* `ColumnType.read?_text_and_suffixed`: the types with their sizes at any place, and all suffixes.
-/

namespace Schemata

namespace Chars

variable {text first rest suffix : List Char} {c : Char}

/-! ## Array suffixes -/

/-- A suffix that makes an array of a type: brackets around a size or nothing, or the word `ARRAY`
behind a space, in any letter case. -/
inductive IsArraySuffix : List Char → Prop
  | brackets {digits : List Char} (hdigits : ∀ c ∈ digits, isAsciiDigit c = true) :
      IsArraySuffix ('[' :: (digits ++ [']']))
  | word {word : List Char}
      (hword : sameIgnoringCase word ['a', 'r', 'r', 'a', 'y'] = true) :
      IsArraySuffix (' ' :: word)

theorem dropBrackets?_append {digits : List Char} (hdigits : ∀ c ∈ digits, isAsciiDigit c = true)
    (text : List Char) :
    dropBrackets? (text ++ '[' :: (digits ++ [']'])) = some (trimEnd text) := by
  have hreverse : (text ++ '[' :: (digits ++ [']'])).reverse =
      ']' :: (digits.reverse ++ '[' :: text.reverse) := by
    simp
  have hinside : ∀ c ∈ digits.reverse, (c != '[') = true := by
    intro c hc
    have hdigit := hdigits c (List.mem_reverse.mp hc)
    refine bne_iff_ne.mpr ?_
    rintro rfl
    cases hdigit
  have hnumber : (trim digits.reverse).all isAsciiDigit = true := by
    refine List.all_eq_true.mpr fun c hc => hdigits c (List.mem_reverse.mp ?_)
    exact (List.dropWhile_suffix isBlank).subset ((trimEnd_beginning _).subset hc)
  rw [dropBrackets?, hreverse]
  simp only [List.dropWhile_append_of_pos hinside, List.takeWhile_append_of_pos hinside]
  simp [hnumber]

theorem dropArrayWord?_append {word : List Char}
    (hword : sameIgnoringCase word ['a', 'r', 'r', 'a', 'y'] = true) (text : List Char) :
    dropArrayWord? (text ++ ' ' :: word) = some (trimEnd text) := by
  have hmap : word.map Char.toLower = ['a', 'r', 'r', 'a', 'y'] := eq_of_beq hword
  have hlength : word.reverse.length = 5 := by
    rw [List.length_reverse, ← List.length_map Char.toLower, hmap]
    rfl
  have hreverse : (text ++ ' ' :: word).reverse = word.reverse ++ ' ' :: text.reverse := by simp
  have hbehind : (text ++ ' ' :: word).reverse.drop 5 = ' ' :: text.reverse := by
    rw [hreverse, ← hlength, List.drop_left]
  have htail : (text ++ ' ' :: word).reverse.take 5 = word.reverse := by
    rw [hreverse, ← hlength, List.take_left]
  have hsame : sameIgnoringCase word.reverse ['y', 'a', 'r', 'r', 'a'] = true := by
    rw [sameIgnoringCase, List.map_reverse, hmap]
    rfl
  have hblank : isBlank ' ' = true := rfl
  rw [dropArrayWord?, hbehind, htail]
  dsimp only
  rw [hblank, hsame, if_pos (by rfl)]
  simp [trimEnd, hblank]

namespace IsArraySuffix

/-- No suffix ends in a blank. -/
theorem last_not_blank (hsuffix : IsArraySuffix suffix) :
    suffix ≠ [] ∧ ∀ c ∈ suffix.getLast?, isBlank c = false := by
  cases hsuffix with
  | @brackets digits hdigits =>
      refine ⟨List.cons_ne_nil _ _, fun c hc => ?_⟩
      rw [← List.cons_append, List.getLast?_concat] at hc
      cases hc
      rfl
  | @word word hword =>
      have hmap : word.map Char.toLower = ['a', 'r', 'r', 'a', 'y'] := eq_of_beq hword
      have hlast : (word.map Char.toLower).getLast? = some 'y' := by
        rw [hmap]
        rfl
      refine ⟨List.cons_ne_nil _ _, fun c hc => ?_⟩
      rw [List.getLast?_map] at hlast
      obtain ⟨d, hd, hlower⟩ := Option.map_eq_some_iff.mp hlast
      rw [List.getLast?_cons, hd] at hc
      cases hc
      exact isBlank_of_isNameChar (isNameChar_of_toLower (hlower ▸ rfl))

/-- One suffix is dropped with the blanks in front of it. -/
theorem dropArraySuffix?_append (hsuffix : IsArraySuffix suffix) (text : List Char) :
    dropArraySuffix? (text ++ suffix) = some (trimEnd text) := by
  rw [dropArraySuffix?]
  cases hsuffix with
  | brackets hdigits =>
      rw [dropBrackets?_append hdigits]
      rfl
  | @word word hword =>
      have hmap : word.map Char.toLower = ['a', 'r', 'r', 'a', 'y'] := eq_of_beq hword
      -- the word does not end in a bracket, so that the brackets are not looked for inside it
      have hlast : (text ++ ' ' :: word).getLast? ≠ some ']' := by
        intro hlast
        have hbracket : (word.map Char.toLower).getLast? = some ']' := by
          have hne : word ≠ [] := by
            rintro rfl
            cases hmap
          rw [List.getLast?_append_of_ne_nil _ (List.cons_ne_nil _ _),
            List.getLast?_cons_of_ne_nil hne] at hlast
          rw [List.getLast?_map, hlast]
          rfl
        rw [hmap] at hbracket
        cases hbracket
      rw [dropBrackets?_eq_none hlast, dropArrayWord?_append hword]
      rfl

/-- A suffix behind a text, whatever suffixes the text has of its own. -/
theorem dropArraySuffixes_append_suffix (hsuffix : IsArraySuffix suffix) (text : List Char) :
    dropArraySuffixes (text ++ suffix) = ((dropArraySuffixes (trimEnd text)).1, true) := by
  have hdrop := hsuffix.dropArraySuffix?_append text
  rw [dropArraySuffixes]
  split
  · rename_i rest hrest
    cases hdrop.symm.trans hrest
    rfl
  · rename_i hnone
    cases hdrop.symm.trans hnone

/-- Trimming a text with a suffix leaves the suffix. -/
theorem trim_append (hsuffix : IsArraySuffix suffix) (htext : trim text ≠ []) :
    trim (text ++ suffix) = trimStart text ++ suffix := by
  obtain ⟨hne, hlast⟩ := hsuffix.last_not_blank
  have hstart : (trimStart text).isEmpty = false := by
    rw [List.isEmpty_eq_false_iff]
    intro hnil
    exact htext (by rw [trim, hnil]; rfl)
  have hfront : trimStart (text ++ suffix) = trimStart text ++ suffix := by
    rw [trimStart, List.dropWhile_append, ← trimStart, hstart, if_neg Bool.false_ne_true]
  rw [trim, hfront]
  refine trimEnd_eq_self fun c hc => hlast c ?_
  rwa [List.getLast?_append_of_ne_nil _ hne] at hc

end IsArraySuffix

end Chars

/-- A suffix that makes an array of a type. -/
def Text.IsArraySuffix (suffix : String) : Prop :=
  Chars.IsArraySuffix suffix.toList

namespace ColumnType

theorem trim_ne_nil_of_read? {raw : String} {type : ColumnType} (hread : read? raw = some type) :
    Chars.trim raw.toList ≠ [] := by
  intro hnil
  have hnone : Chars.dropArraySuffixes [] = ([], false) :=
    Chars.dropArraySuffixes_of_none rfl
  rw [read?, hnil, hnone] at hread
  cases hread

/-- A suffix behind a type makes an array of it, an array or not. -/
theorem read?_append {raw suffix : String} {type : ColumnType}
    (hread : read? raw = some type) (hsuffix : Text.IsArraySuffix suffix) :
    read? (raw ++ suffix) = some { type with array := true } := by
  have htrim := Chars.IsArraySuffix.trim_append hsuffix (trim_ne_nil_of_read? hread)
  rw [read?, String.toList_append, htrim,
    Chars.IsArraySuffix.dropArraySuffixes_append_suffix hsuffix, ← Chars.trim]
  rw [read?] at hread
  generalize Chars.dropArraySuffixes (Chars.trim raw.toList) = dropped at hread ⊢
  obtain ⟨base, array⟩ := dropped
  dsimp only at hread ⊢
  split at hread
  · cases hread
  · rename_i hname
    rw [if_neg hname]
    cases hread
    rfl

end ColumnType

/-! ## Names of several words -/

namespace Chars

/-- The stretches of text between blanks that are not empty. -/
def stretches (text : List Char) : List (List Char) :=
  (betweenBlanks text).filter (! ·.isEmpty)

theorem collapse_eq (text : List Char) : collapse text = [' '].intercalate (stretches text) := rfl

theorem betweenBlanks_ne_nil (text : List Char) : betweenBlanks text ≠ [] := by
  induction text with
  | nil => exact List.cons_ne_nil _ _
  | cons c rest ih =>
      rw [betweenBlanks]
      split
      · exact List.cons_ne_nil _ _
      · obtain ⟨stretch, others, hothers⟩ := List.exists_cons_of_ne_nil ih
        rw [hothers]
        exact List.cons_ne_nil _ _

theorem betweenBlanks_append_cons (hblank : isBlank c = true) (first rest : List Char) :
    betweenBlanks (first ++ c :: rest) = betweenBlanks first ++ betweenBlanks rest := by
  induction first with
  | nil =>
      rw [List.nil_append, betweenBlanks.eq_2, if_pos hblank]
      rfl
  | cons d others ih =>
      rw [List.cons_append, betweenBlanks, betweenBlanks]
      split
      · rw [ih, List.cons_append]
      · obtain ⟨stretch, more, hmore⟩ := List.exists_cons_of_ne_nil (betweenBlanks_ne_nil others)
        rw [ih, hmore]
        rfl

/-- A blank separates the stretches on both sides of it. -/
theorem stretches_append_cons (hblank : isBlank c = true) (first rest : List Char) :
    stretches (first ++ c :: rest) = stretches first ++ stretches rest := by
  rw [stretches, betweenBlanks_append_cons hblank, List.filter_append]
  rfl

theorem stretches_of_word {word : List Char} (hword : ∀ c ∈ word, isBlank c = false)
    (hne : word ≠ []) : stretches word = [word] := by
  have hbetween := betweenBlanks_append hword []
  rw [List.append_nil] at hbetween
  rw [stretches, hbetween]
  simp [betweenBlanks, hne]

/-- Words with a space in front of each. -/
def spaced (words : List (List Char)) : List Char :=
  words.flatMap (' ' :: ·)

theorem intercalate_cons_eq (word : List Char) (words : List (List Char)) :
    [' '].intercalate (word :: words) = word ++ spaced words := by
  induction words generalizing word with
  | nil =>
      rw [List.intercalate_singleton]
      exact (List.append_nil word).symm
  | cons next others ih =>
      rw [List.intercalate_cons_cons, ih]
      simp [spaced]

/-- What stands right behind one of the words. -/
theorem intercalate_append_cons (before : List (List Char)) (word behind : List Char)
    (after : List (List Char)) :
    [' '].intercalate (before ++ (word ++ behind) :: after) =
      [' '].intercalate (before ++ [word]) ++ (behind ++ spaced after) := by
  cases before with
  | nil => rw [List.nil_append, List.nil_append, intercalate_cons_eq, List.intercalate_singleton,
      List.append_assoc]
  | cons first others =>
      rw [List.cons_append, List.cons_append, intercalate_cons_eq, intercalate_cons_eq]
      simp [spaced]

theorem intercalate_append_spaced (before : List (List Char)) (word : List Char)
    (after : List (List Char)) :
    [' '].intercalate (before ++ word :: after) =
      [' '].intercalate (before ++ [word]) ++ spaced after := by
  have hbehind := intercalate_append_cons before word [] after
  rwa [List.append_nil, List.nil_append] at hbehind

theorem mem_intercalate {words : List (List Char)} (hc : c ∈ [' '].intercalate words) :
    c = ' ' ∨ ∃ word ∈ words, c ∈ word := by
  cases words with
  | nil => cases hc
  | cons word others =>
      rw [intercalate_cons_eq, spaced, List.mem_append, List.mem_flatMap] at hc
      grind

theorem spaced_concat (words : List (List Char)) (last : List Char) :
    spaced (words ++ [last]) = spaced words ++ [' '] ++ last := by
  simp [spaced]

/-- The last of the words stands behind a blank, if it is not the only one. -/
theorem exists_intercalate_concat (words : List (List Char)) (last : List Char) :
    ∃ front, [' '].intercalate (words ++ [last]) = front ++ last ∧
      ∀ c ∈ front.getLast?, isBlank c = true := by
  cases words with
  | nil => exact ⟨[], List.intercalate_singleton, fun c hc => absurd hc (Option.not_mem_none c)⟩
  | cons word others =>
      refine ⟨word ++ spaced others ++ [' '], ?_, fun c hc => ?_⟩
      · rw [List.cons_append, intercalate_cons_eq, spaced_concat]
        simp only [List.append_assoc]
      · rw [List.getLast?_concat] at hc
        cases hc
        rfl

theorem stretches_intercalate {words : List (List Char)}
    (hwords : ∀ word ∈ words, word ≠ [] ∧ ∀ c ∈ word, isBlank c = false) :
    stretches ([' '].intercalate words) = words := by
  induction words with
  | nil => rfl
  | cons word others ih =>
      obtain ⟨⟨hne, hword⟩, hothers⟩ := List.forall_mem_cons.mp hwords
      cases others with
      | nil => rw [List.intercalate_singleton, stretches_of_word hword hne]
      | cons next more =>
          rw [List.intercalate_cons_cons, List.append_assoc, List.singleton_append,
            stretches_append_cons rfl, stretches_of_word hword hne, ih hothers]
          rfl

theorem stretches_spaced {words : List (List Char)}
    (hwords : ∀ word ∈ words, word ≠ [] ∧ ∀ c ∈ word, isBlank c = false) :
    stretches (spaced words) = words := by
  cases words with
  | nil => rfl
  | cons word others =>
      have hall : spaced (word :: others) = [] ++ ' ' :: [' '].intercalate (word :: others) := by
        rw [intercalate_cons_eq, spaced, List.flatMap_cons]
        rfl
      rw [hall, stretches_append_cons rfl, stretches_intercalate hwords]
      rfl

/-- The word that is dropped stands behind a blank. -/
theorem exists_of_dropArrayWord? (hdrop : dropArrayWord? text = some rest) :
    ∃ front c word, text = front ++ c :: word ∧ isBlank c = true ∧
      sameIgnoringCase word ['a', 'r', 'r', 'a', 'y'] = true := by
  unfold dropArrayWord? at hdrop
  split at hdrop
  · rename_i c before hbefore
    split at hdrop
    · rename_i hsuffix
      obtain ⟨hblank, hsame⟩ := (Bool.and_eq_true _ _).mp hsuffix
      have hmap : (text.reverse.take 5).map Char.toLower = ['y', 'a', 'r', 'r', 'a'] :=
        eq_of_beq hsame
      refine ⟨before.reverse, c, (text.reverse.take 5).reverse, ?_, hblank, ?_⟩
      · have hsplit : text.reverse.take 5 ++ c :: before = text.reverse := by
          rw [← hbefore, List.take_append_drop]
        calc text = (text.reverse.take 5 ++ c :: before).reverse := by
              rw [hsplit, List.reverse_reverse]
          _ = before.reverse ++ c :: (text.reverse.take 5).reverse := by
              rw [List.reverse_append, List.reverse_cons, List.append_assoc, List.singleton_append]
      · rw [sameIgnoringCase, List.map_reverse, hmap]
        rfl
    · cases hdrop
  · cases hdrop

/-- Only one word stands at the end of a text. -/
theorem last_word_unique {front other last word : List Char}
    (hfront : ∀ d ∈ front.getLast?, isBlank d = true) (hlast : ∀ d ∈ last, isBlank d = false)
    (hblank : isBlank c = true) (hword : ∀ d ∈ word, isBlank d = false)
    (hsame : front ++ last = other ++ c :: word) : last = word := by
  have hletters : ∀ {text : List Char}, (∀ d ∈ text, isBlank d = false) →
      ∀ d ∈ text.reverse, (! isBlank d) = true := by
    intro text htext d hd
    rw [htext d (List.mem_reverse.mp hd)]
    rfl
  have hfirst : (front ++ last).reverse.takeWhile (! isBlank ·) = last.reverse := by
    rw [List.reverse_append, List.takeWhile_append_of_pos (hletters hlast)]
    cases hreverse : front.reverse with
    | nil => simp
    | cons d others =>
        have hd : isBlank d = true := hfront d (by rw [← List.head?_reverse, hreverse]; rfl)
        simp [hd]
  have hsecond : (other ++ c :: word).reverse.takeWhile (! isBlank ·) = word.reverse := by
    rw [List.reverse_append, List.reverse_cons, List.append_assoc,
      List.takeWhile_append_of_pos (hletters hword)]
    simp [hblank]
  rw [hsame, hsecond] at hfirst
  exact List.reverse_inj.mp hfirst.symm

/-- A last word that is not `array` is not dropped. -/
theorem dropArrayWord?_eq_none_of_last {front last : List Char}
    (hfront : ∀ d ∈ front.getLast?, isBlank d = true) (hlast : ∀ d ∈ last, isBlank d = false)
    (hne : sameIgnoringCase last ['a', 'r', 'r', 'a', 'y'] = false) :
    dropArrayWord? (front ++ last) = none := by
  refine Option.eq_none_iff_forall_ne_some.mpr fun dropped hdropped => ?_
  obtain ⟨other, c, word, hsame, hblank, hword⟩ := exists_of_dropArrayWord? hdropped
  have hletters : ∀ d ∈ word, isBlank d = false := by
    have hmap : word.map Char.toLower = ['a', 'r', 'r', 'a', 'y'] := eq_of_beq hword
    have hall : ∀ d ∈ word.map Char.toLower, isNameChar d = true := by
      rw [hmap]
      exact List.all_eq_true.mp (by decide)
    exact fun d hd =>
      isBlank_of_isNameChar (isNameChar_of_toLower (hall _ (List.mem_map_of_mem hd)))
  obtain rfl := last_word_unique hfront hlast hblank hletters hsame
  rw [hword] at hne
  cases hne

end Chars

/-! ## Types with names of several words -/

/-- An identifier in lower case. -/
structure Chars.IsLowerName (word : List Char) : Prop where
  bare : isBare word = true
  lower : word.any Char.isUpper = false

namespace Chars.IsLowerName

variable {word : List Char}

instance (word : List Char) : Decidable (IsLowerName word) :=
  decidable_of_iff (isBare word = true ∧ word.any Char.isUpper = false)
    ⟨fun hword => ⟨hword.1, hword.2⟩, fun hword => ⟨hword.bare, hword.lower⟩⟩

theorem isNameWord (hword : IsLowerName word) : IsNameWord word :=
  isNameWord_of_isBare hword.bare

theorem isNameChar (hword : IsLowerName word) : ∀ c ∈ word, isNameChar c = true :=
  hword.isNameWord.chars

theorem ne_nil (hword : IsLowerName word) : word ≠ [] :=
  hword.isNameWord.ne_nil

theorem isBlank (hword : IsLowerName word) : ∀ c ∈ word, isBlank c = false := fun c hc =>
  isBlank_of_isNameChar (hword.isNameChar c hc)

theorem isWord (hword : IsLowerName word) : IsWord word :=
  hword.isNameWord.isWord

theorem toLower (hword : IsLowerName word) : ∀ c ∈ word, c.toLower = c := fun c hc =>
  toLower_of_not_isUpper (List.any_eq_false.mp hword.lower c hc)

theorem map_toLower (hword : IsLowerName word) : word.map Char.toLower = word :=
  calc word.map Char.toLower = word.map id := List.map_congr_left hword.toLower
    _ = word := List.map_id word

end Chars.IsLowerName

/-- A type with a name of one or several words in lower case, the last of which is no suffix. -/
structure WordyType where
  words : List String
  sizes : Sizes
  words_ne_nil : words ≠ []
  lower : ∀ word ∈ words, Chars.IsLowerName word.toList
  last_ne : words.getLast? ≠ some "array"

namespace WordyType

/-- The type as data. -/
def dataType (type : WordyType) : DataType :=
  type.sizes.dataType (Text.unwords type.words)

/-- The words with the sizes right behind the one at the given place. -/
def textAt (type : WordyType) (place : Nat) : String :=
  Text.unwords (type.words.modify place (· ++ String.ofList type.sizes.group))

variable (type : WordyType) {place : Nat}

theorem toList_dataType_text :
    type.dataType.text.toList = (Text.unwords type.words).toList ++ type.sizes.group :=
  type.sizes.toList_dataType_text (Text.unwords type.words)

theorem isLowerName_of_mem {chars : List Char} (hchars : chars ∈ type.words.map String.toList) :
    Chars.IsLowerName chars := by
  obtain ⟨word, hword, rfl⟩ := List.mem_map.mp hchars
  exact type.lower word hword

/-- The words in front of the sizes and behind them. -/
theorem toList_textAt (hplace : place < type.words.length) : ∃ before word after,
    type.words.map String.toList = before ++ word :: after ∧
      (type.textAt place).toList = [' '].intercalate (before ++ [word]) ++
        (type.sizes.group ++ Chars.spaced after) := by
  obtain ⟨before, word, after, hwords, -, hmodify⟩ :=
    List.exists_of_modify (· ++ String.ofList type.sizes.group) hplace
  refine ⟨before.map String.toList, word.toList, after.map String.toList, ?_, ?_⟩
  · rw [hwords, List.map_append, List.map_cons]
  · rw [textAt, hmodify, Text.toList_unwords, List.map_append, List.map_cons,
      String.toList_append, String.toList_ofList, Chars.intercalate_append_cons]

/-- Behind the last word the sizes stand where they are printed. -/
theorem textAt_last : type.textAt (type.words.length - 1) = type.dataType.text := by
  have hplace : type.words.length - 1 < type.words.length :=
    Nat.sub_lt (List.length_pos_iff.mpr type.words_ne_nil) Nat.one_pos
  obtain ⟨before, word, after, hwords, hlength, hmodify⟩ :=
    List.exists_of_modify (· ++ String.ofList type.sizes.group) hplace
  have hnil : after = [] := by
    have hall := congrArg List.length hwords
    rw [List.length_append, List.length_cons, hlength] at hall
    exact List.eq_nil_of_length_eq_zero (by omega)
  subst hnil
  have happend := Chars.intercalate_append_cons (before.map String.toList) word.toList
    type.sizes.group []
  refine String.toList_inj.mp ?_
  rw [textAt, hmodify, toList_dataType_text, Text.toList_unwords, Text.toList_unwords, hwords,
    List.map_append, List.map_append, List.map_singleton, List.map_singleton,
    String.toList_append, String.toList_ofList, happend]
  simp [Chars.spaced]

/-! ### The words are found again -/

theorem isWord_of_mem_modify {word : String}
    (hword : word ∈ type.words.modify place (· ++ String.ofList type.sizes.group)) :
    Chars.IsWord word.toList := by
  have hplain : ∀ word ∈ type.words, Chars.IsWord word.toList := fun word hword =>
    (type.lower word hword).isWord
  by_cases hplace : place < type.words.length
  · obtain ⟨before, sized, after, hwords, -, hmodify⟩ :=
      List.exists_of_modify (· ++ String.ofList type.sizes.group) hplace
    have hsized : Chars.IsWord sized.toList := hplain sized (by simp [hwords])
    rw [hmodify] at hword
    rcases List.mem_append.mp hword with hword | hword
    · exact hplain word (by simp [hwords, hword])
    rcases List.mem_cons.mp hword with rfl | hword
    · rw [String.toList_append, String.toList_ofList]
      exact ⟨hsized.toWhole.append type.sizes.whole_group,
        List.append_ne_nil_of_left_ne_nil hsized.ne_nil _⟩
    · exact hplain word (by simp [hwords, hword])
  · rw [List.modify_eq_self (Nat.le_of_not_lt hplace)] at hword
    exact hplain word hword

theorem trimmed_textAt : Chars.Trimmed (type.textAt place).toList := by
  have hne : type.words.modify place (· ++ String.ofList type.sizes.group) ≠ [] := by
    intro hnil
    have hlength := congrArg List.length hnil
    rw [List.length_modify] at hlength
    exact type.words_ne_nil (List.eq_nil_of_length_eq_zero hlength)
  exact (Text.isListed_unwords (fun _ hword => type.isWord_of_mem_modify hword) hne).toTrimmed

/-- The text ends in the parenthesis of the sizes or in the last word. -/
theorem ends_textAt (hplace : place < type.words.length) :
    (type.textAt place).toList.getLast? = some ')' ∨
      ∃ front last, (type.words.map String.toList).getLast? = some last ∧
        (type.textAt place).toList = front ++ last ∧ ∀ c ∈ front.getLast?, isBlank c = true := by
  obtain ⟨before, word, after, hwords, htext⟩ := type.toList_textAt hplace
  rw [hwords, htext]
  -- by whether a word stands behind the sizes, and if not, by whether there are sizes
  rcases List.eq_nil_or_concat' after with rfl | ⟨more, last, rfl⟩
  · rcases type.sizes.group_cases with ⟨-, hgroup⟩ | ⟨-, hgroup⟩
    · obtain ⟨front, hfront, hblank⟩ := Chars.exists_intercalate_concat before word
      refine Or.inr ⟨front, word, List.getLast?_concat, ?_, hblank⟩
      rw [hgroup, hfront]
      simp [Chars.spaced]
    · left
      rw [hgroup, List.getLast?_append_of_ne_nil _ (by simp), Chars.spaced, List.flatMap_nil,
        List.append_nil, ← List.cons_append, List.getLast?_concat]
  · right
    refine ⟨[' '].intercalate (before ++ [word]) ++ (type.sizes.group ++ Chars.spaced more) ++
      [' '], last, ?_, ?_, fun c hc => ?_⟩
    · rw [← List.cons_append, ← List.append_assoc, List.getLast?_concat]
    · rw [Chars.spaced_concat]
      simp only [List.append_assoc]
    · rw [List.getLast?_concat] at hc
      cases hc
      rfl

theorem dropArraySuffix?_textAt (hplace : place < type.words.length) :
    Chars.dropArraySuffix? (type.textAt place).toList = none := by
  rw [Chars.dropArraySuffix?]
  rcases type.ends_textAt hplace with hclosing | ⟨front, last, hlast, htext, hfront⟩
  · have hbracket : (type.textAt place).toList.getLast? ≠ some ']' := by
      rw [hclosing]
      decide
    rw [Chars.dropBrackets?_eq_none hbracket, Chars.dropArrayWord?_eq_none (Or.inl hclosing)]
    rfl
  · -- the last word is no suffix, for it is not `array`
    have hname := type.isLowerName_of_mem (List.mem_of_getLast? hlast)
    have hbracket : (front ++ last).getLast? ≠ some ']' := by
      rw [List.getLast?_append_of_ne_nil _ hname.ne_nil]
      intro hend
      have hchar := hname.isNameChar ']' (List.mem_of_getLast? hend)
      cases hchar
    have harray : Chars.sameIgnoringCase last ['a', 'r', 'r', 'a', 'y'] = false := by
      rw [Chars.sameIgnoringCase, hname.map_toLower]
      refine beq_eq_false_iff_ne.mpr fun hsame => type.last_ne ?_
      rw [List.getLast?_map] at hlast
      obtain ⟨word, hword, rfl⟩ := Option.map_eq_some_iff.mp hlast
      have harray : word = "array" := String.toList_inj.mp hsame
      exact harray ▸ hword
    rw [htext, Chars.dropBrackets?_eq_none hbracket,
      Chars.dropArrayWord?_eq_none_of_last hfront hname.isBlank harray]
    rfl

/-! ### Reading the text -/

/-- Between the words stand spaces and nothing else. -/
theorem mem_name {chars : List (List Char)} (hchars : ∀ word ∈ chars, Chars.IsLowerName word)
    {c : Char} (hc : c ∈ [' '].intercalate chars) :
    c = ' ' ∨ Chars.isNameChar c = true ∧ c.toLower = c := by
  rcases Chars.mem_intercalate hc with rfl | ⟨word, hword, hmem⟩
  · exact Or.inl rfl
  · have hname := hchars word hword
    exact Or.inr ⟨hname.isNameChar c hmem, hname.toLower c hmem⟩

theorem isPlain_of_mem_name {chars : List (List Char)}
    (hchars : ∀ word ∈ chars, Chars.IsLowerName word) {c : Char}
    (hc : c ∈ [' '].intercalate chars) : Nesting.isPlain c = true := by
  rcases mem_name hchars hc with rfl | ⟨hchar, -⟩
  · rfl
  · exact Chars.isPlain_of_isNameChar hchar

/-- No parenthesis stands in a name. -/
theorem uncut_name {chars : List (List Char)} (hchars : ∀ word ∈ chars, Chars.IsLowerName word) :
    Chars.Uncut (· == '(') .top ([' '].intercalate chars) := by
  refine Chars.uncut_of_plain (fun c hc => isPlain_of_mem_name hchars hc) fun c hc => ?_
  rcases mem_name hchars hc with rfl | ⟨hchar, -⟩
  · rfl
  · exact beq_false_of_ne (Chars.ne_of_isNameChar hchar (by decide))

theorem mem_textAt (hplace : place < type.words.length) {c : Char}
    (hc : c ∈ (type.textAt place).toList) : c.toNat < 0x80 ∧ c.toLower = c := by
  have hname : c ∈ (Text.unwords type.words).toList → c.toNat < 0x80 ∧ c.toLower = c := by
    intro hmem
    rw [Text.toList_unwords] at hmem
    rcases mem_name (fun _ hword => type.isLowerName_of_mem hword) hmem with rfl | ⟨hchar, hlower⟩
    · decide
    · exact ⟨(Chars.toNat_of_isNameChar hchar).2, hlower⟩
  obtain ⟨before, word, after, hwords, htext⟩ := type.toList_textAt hplace
  have hall := Chars.intercalate_append_spaced before word after
  rw [← hwords, ← Text.toList_unwords] at hall
  rw [htext, List.mem_append, List.mem_append] at hc
  rw [hall, List.mem_append] at hname
  rcases hc with hfront | hgroup | hbehind
  · exact hname (Or.inl hfront)
  · exact type.sizes.lower_group hgroup
  · exact hname (Or.inr hbehind)

theorem lower_textAt (hplace : place < type.words.length) :
    Chars.lower (type.textAt place).toList = (type.textAt place).toList :=
  calc Chars.lower (type.textAt place).toList
      = (type.textAt place).toList.map Char.toLower :=
        Chars.lower_eq_map_toLower fun _ hc => (type.mem_textAt hplace hc).1
    _ = (type.textAt place).toList.map id :=
        List.map_congr_left fun _ hc => (type.mem_textAt hplace hc).2
    _ = (type.textAt place).toList := List.map_id _

/-- The words on both sides of the sizes make the name. -/
theorem nameAndParameters_textAt (hplace : place < type.words.length) :
    ColumnType.nameAndParameters (type.textAt place).toList =
      ((Text.unwords type.words).toList, type.sizes.listed?.map (·.map Chars.digits)) := by
  obtain ⟨before, word, after, hwords, htext⟩ := type.toList_textAt hplace
  have hall : ∀ other ∈ before ++ word :: after, Chars.IsLowerName other := fun _ hother =>
    type.isLowerName_of_mem (hwords ▸ hother)
  have hletters : ∀ other ∈ before ++ word :: after,
      other ≠ [] ∧ ∀ c ∈ other, isBlank c = false := fun other hother =>
    ⟨(hall other hother).ne_nil, (hall other hother).isBlank⟩
  -- the sizes stand behind `word`, and what is left without them is one name
  have hsplit : before ++ word :: after = before ++ [word] ++ after := by simp
  have hname : (Text.unwords type.words).toList = [' '].intercalate (before ++ word :: after) := by
    rw [Text.toList_unwords, hwords]
  rcases type.sizes.group_cases with ⟨hnone, hgroup⟩ | ⟨hsome, hgroup⟩
  · -- no parenthesis: the whole text is the name
    rw [htext, hgroup, List.nil_append, ← Chars.intercalate_append_spaced,
      ColumnType.nameAndParameters, Chars.breakAt_of_uncut (uncut_name hall), hnone, hname]
    dsimp only
    rw [Chars.collapse_eq, Chars.stretches_intercalate hletters]
    rfl
  · -- the parenthesis is found behind the first words, and the others come behind its group
    have hfront : ∀ other ∈ before ++ [word], Chars.IsLowerName other := by
      rw [hsplit] at hall
      exact (List.forall_mem_append.mp hall).1
    have hrun := Nesting.run_top fun c hc => isPlain_of_mem_name hfront hc
    rw [hsplit] at hletters
    obtain ⟨hbefore, hafter⟩ := List.forall_mem_append.mp hletters
    rw [htext, hgroup, List.cons_append, List.append_assoc, List.singleton_append,
      ColumnType.nameAndParameters, Chars.breakAt_append_cons (uncut_name hfront) hrun, hsome, hname]
    dsimp only
    rw [Chars.closeGroup_append type.sizes.balanced_chars]
    dsimp only
    rw [Chars.collapse_eq, Chars.stretches_append_cons rfl, Chars.stretches_intercalate hbefore,
      Chars.stretches_spaced hafter, ← hsplit, type.sizes.split_chars]
    rfl

/-- A type with its sizes behind any of its words is read back. -/
theorem read?_textAt (hplace : place < type.words.length) :
    ColumnType.read? (type.textAt place) = some ⟨type.dataType, false⟩ := by
  have hname : (Text.unwords type.words).toList.isEmpty = false := by
    have hwords : ∀ word ∈ type.words, Chars.IsWord word.toList := fun word hword =>
      (type.lower word hword).isWord
    exact List.isEmpty_eq_false_iff.mpr (Text.isListed_unwords hwords type.words_ne_nil).ne_nil
  rw [ColumnType.read?, type.trimmed_textAt.trim_eq,
    Chars.dropArraySuffixes_of_none (type.dropArraySuffix?_textAt hplace)]
  dsimp only
  rw [type.lower_textAt hplace, type.nameAndParameters_textAt hplace]
  dsimp only
  rw [hname, if_neg Bool.false_ne_true, type.sizes.bind_readSize?, String.ofList_toList,
    type.sizes.withParameters_listed?, dataType]

end WordyType

/-- A type is read back from its text, wherever its sizes stand among the words of its name, and a
suffix behind any text of a type makes an array of the type. -/
theorem ColumnType.read?_text_and_suffixed :
    (∀ type : WordyType, read? type.dataType.text = some ⟨type.dataType, false⟩ ∧
      ∀ place < type.words.length, read? (type.textAt place) = some ⟨type.dataType, false⟩) ∧
    ∀ raw type, read? raw = some type → ∀ suffix, Text.IsArraySuffix suffix →
      read? (raw ++ suffix) = some { type with array := true } := by
  refine ⟨fun type => ⟨?_, fun place hplace => type.read?_textAt hplace⟩,
    fun raw type hread suffix hsuffix => read?_append hread hsuffix⟩
  have hlast : type.words.length - 1 < type.words.length :=
    Nat.sub_lt (List.length_pos_iff.mpr type.words_ne_nil) Nat.one_pos
  exact type.textAt_last ▸ type.read?_textAt hlast

/-- A time with its precision. -/
def WordyType.zonedTime : WordyType where
  words := ["timestamp", "with", "time", "zone"]
  sizes := .length 3
  words_ne_nil := List.cons_ne_nil _ _
  lower := by decide
  last_ne := by decide

/-- A precision behind the first word, behind the last, and in an array of arrays. -/
theorem ColumnType.read?_text_and_suffixed_time :
    0 < WordyType.zonedTime.words.length ∧
    WordyType.zonedTime.dataType = ⟨"timestamp with time zone", some 3, none, none⟩ ∧
    read? "timestamp with time zone(3)" = some ⟨WordyType.zonedTime.dataType, false⟩ ∧
    read? "timestamp(3) with time zone" = some ⟨WordyType.zonedTime.dataType, false⟩ ∧
    Text.IsArraySuffix "[02]" ∧ Text.IsArraySuffix " Array" ∧
    read? "timestamp(3) with time zone[02]" = some ⟨WordyType.zonedTime.dataType, true⟩ ∧
    read? "timestamp(3) with time zone[02] Array" = some ⟨WordyType.zonedTime.dataType, true⟩ := by
  have hplace : 0 < WordyType.zonedTime.words.length := by decide
  have hbrackets : Text.IsArraySuffix "[02]" := by
    have hsuffix : "[02]".toList = '[' :: (['0', '2'] ++ [']']) := by decide
    rw [Text.IsArraySuffix, hsuffix]
    exact .brackets (List.all_eq_true.mp (by decide))
  have hword : Text.IsArraySuffix " Array" := by
    have hsuffix : " Array".toList = ' ' :: ['A', 'r', 'r', 'a', 'y'] := by decide
    rw [Text.IsArraySuffix, hsuffix]
    exact .word (by decide)
  have hdata : WordyType.zonedTime.dataType = ⟨"timestamp with time zone", some 3, none, none⟩ := by
    decide +kernel
  have hlast : WordyType.zonedTime.dataType.text = "timestamp with time zone(3)" := by
    decide +kernel
  have hfirst : WordyType.zonedTime.textAt 0 = "timestamp(3) with time zone" := by
    decide +kernel
  obtain ⟨htexts, hsuffixed⟩ := read?_text_and_suffixed
  obtain ⟨htext, hplaces⟩ := htexts .zonedTime
  have hplaced := hplaces 0 hplace
  rw [hlast] at htext
  rw [hfirst] at hplaced
  have harray := hsuffixed _ _ hplaced _ hbrackets
  have hnested := hsuffixed _ _ harray _ hword
  have hone : "timestamp(3) with time zone" ++ "[02]" = "timestamp(3) with time zone[02]" := by
    decide
  have htwo : "timestamp(3) with time zone[02]" ++ " Array" =
      "timestamp(3) with time zone[02] Array" := by
    decide
  rw [hone] at harray hnested
  rw [htwo] at hnested
  exact ⟨hplace, hdata, htext, hplaced, hbrackets, hword, harray, hnested⟩

end Schemata
