import Mathlib.Data.List.Basic
import Schemata.Proofs.Statement.ColumnDeclaration
import Schemata.Proofs.Statement.Wordwise

/-!
# Keywords with groups

A group may touch the keyword in front of it or stand behind a space.  The comparison with keywords
that ends a type, or a default value, does not see a group that touches; the choice of the
constraint, which compares the whole word in lower case, does.  So a keyword with a group ends what
stands in front of it and is then an unknown word, unless it is `CHECK`, which is asked for again by
its head.

* `Text.isColumnKeyword_withGroup`, `Text.lower_withGroup_not_mem`: the two comparisons.
* `ColumnConstraint.gives_readFrom_checkGroup`, `ColumnConstraint.gives_readFrom_check`: `CHECK`
  with its group, which is passed over either way.
* `ColumnConstraint.gives_readFrom_untracked`, `ColumnConstraint.gives_readFrom_default`: `DEFAULT`
  with a group that touches it is passed over, and with one behind it takes a value.
-/

namespace Schemata

/-! ## Words with a group -/

namespace Chars

/-- A parenthesis stays when a text is lowered. -/
theorem mem_lowerFrom {text : List Char} (hmem : '(' ∈ text) (before : List Char) :
    '(' ∈ lowerFrom before text := by
  induction text generalizing before with
  | nil => cases hmem
  | cons c rest ih =>
      rw [lowerFrom]
      rcases List.mem_cons.mp hmem with rfl | hrest
      · have hsigma : ('('.toNat == 0x3A3) = false := by decide
        have hlower : lowerChar '(' = ['('] := by decide
        rw [hsigma, if_neg Bool.false_ne_true, hlower]
        exact List.mem_append_left _ List.mem_cons_self
      · exact List.mem_append_right _ (ih hrest _)

end Chars

/-- The word is the keyword, in any letter case. -/
def IsSpelling (keyword word : String) : Prop :=
  Chars.sameIgnoringCase word.toList keyword.toList = true

instance (keyword word : String) : Decidable (IsSpelling keyword word) :=
  inferInstanceAs (Decidable (_ = true))

namespace Text

/-- The text in parentheses. -/
def group (inside : String) : String :=
  "(" ++ inside ++ ")"

/-- The word with a group that touches it. -/
def withGroup (word inside : String) : String :=
  word ++ group inside

theorem toList_withGroup (word inside : String) :
    (withGroup word inside).toList = word.toList ++ '(' :: (inside.toList ++ [')']) := by
  rw [withGroup, String.toList_append, group, toList_group]

variable {keyword word inside : String}

theorem lower_withGroup_not_mem (word inside : String) :
    lower (withGroup word inside) ∉ columnKeywords := by
  have hopen : '(' ∈ (lower (withGroup word inside)).toList := by
    rw [lower, String.toList_ofList]
    refine Chars.mem_lowerFrom ?_ []
    rw [toList_withGroup]
    exact List.mem_append_right _ List.mem_cons_self
  have hnone : ∀ keyword ∈ columnKeywords, '(' ∉ keyword.toList := by decide
  exact fun hmem => hnone _ hmem hopen

section Spelling

variable (hkeyword : keyword ∈ columnKeywords) (hword : IsSpelling keyword word)
include hkeyword hword

theorem isNameChar_of_isSpelling : ∀ c ∈ word.toList, Chars.isNameChar c = true := by
  have hbare : ∀ keyword ∈ columnKeywords,
      Chars.isBare (keyword.toList.map Char.toLower) = true := by decide
  exact Chars.isNameChar_of_isBare (Chars.isBare_of_sameIgnoringCase (hbare keyword hkeyword) hword)

theorem lower_of_isSpelling : lower word = keyword := by
  have hsame : ∀ keyword ∈ columnKeywords, keyword.toList.map Char.toLower = keyword.toList := by
    decide
  have hascii : ∀ c ∈ word.toList, c.toNat < 0x80 := fun c hc =>
    (Chars.toNat_of_isNameChar (isNameChar_of_isSpelling hkeyword hword c hc)).2
  have hmap : word.toList.map Char.toLower = keyword.toList.map Char.toLower := eq_of_beq hword
  rw [lower, Chars.lower_eq_map_toLower hascii, hmap, hsame keyword hkeyword, String.ofList_toList]

theorem uncut_of_isSpelling : Chars.Uncut (· == '(') .top word.toList := by
  have hnone : ∀ c, Chars.isNameChar c = true → (c == '(') = false := fun c hc =>
    beq_eq_false_iff_ne.mpr (Chars.ne_of_isNameChar hc rfl)
  exact Chars.uncut_of_nameChars (isNameChar_of_isSpelling hkeyword hword) hnone

theorem isWord_of_isSpelling : Chars.IsWord word.toList where
  toWhole := Chars.whole_of_nameChars (isNameChar_of_isSpelling hkeyword hword)
  ne_nil := by
    intro hnil
    have hmap : word.toList.map Char.toLower = keyword.toList.map Char.toLower := eq_of_beq hword
    have hne : ∀ keyword ∈ columnKeywords, keyword.toList.map Char.toLower ≠ [] := by decide
    rw [hnil] at hmap
    exact hne keyword hkeyword hmap.symm

theorem call_of_isSpelling : Chars.call word.toList = (word.toList, none) := by
  rw [Chars.call, Chars.breakAt_of_uncut (uncut_of_isSpelling hkeyword hword)]

theorem isKeyword_of_isSpelling : isKeyword word keyword = true := by
  rw [isKeyword, Chars.head, call_of_isSpelling hkeyword hword]
  exact hword

theorem isColumnKeyword_of_isSpelling : isColumnKeyword word = true :=
  List.any_eq_true.mpr ⟨keyword, hkeyword, isKeyword_of_isSpelling hkeyword hword⟩

variable (hinside : Chars.Balanced inside.toList)
include hinside

theorem call_withGroup :
    Chars.call (withGroup word inside).toList = (word.toList, some inside.toList) := by
  have hchars := isNameChar_of_isSpelling hkeyword hword
  rw [toList_withGroup, Chars.call_group (uncut_of_isSpelling hkeyword hword)
    (Chars.run_of_nameChars hchars) hinside,
    Chars.trimEnd_eq_self (Chars.whole_of_nameChars hchars).last]

theorem isWord_withGroup : Chars.IsWord (withGroup word inside).toList := by
  rw [toList_withGroup]
  exact ⟨(isWord_of_isSpelling hkeyword hword).toWhole.append hinside.whole_group, by simp⟩

/-- A word is compared with keywords without its group. -/
theorem isKeyword_withGroup (other : String) :
    isKeyword (withGroup word inside) other = isKeyword word other := by
  rw [isKeyword, isKeyword, Chars.head, Chars.head, call_withGroup hkeyword hword hinside,
    call_of_isSpelling hkeyword hword]

/-- A group that touches a keyword does not hide it from the end of a type. -/
theorem isColumnKeyword_withGroup : isColumnKeyword (withGroup word inside) = true :=
  List.any_eq_true.mpr ⟨keyword, hkeyword, by
    rw [isKeyword_withGroup hkeyword hword hinside, isKeyword_of_isSpelling hkeyword hword]⟩

end Spelling

end Text

/-! ## Reading constraints with groups -/

/-- Words are taken up to the first keyword. -/
theorem Reading.gives_takeWhile_keyword {free tail : List String}
    (hfree : ∀ word ∈ free, isColumnKeyword word = false)
    (htail : ∀ word ∈ tail.head?, isColumnKeyword word = true) :
    Gives (takeWhile (! isColumnKeyword ·)) (free ++ tail) (.ok (free, tail)) := by
  refine (isWordwise_takeWhile _).gives_of_reads (reads_takeWhile (fun word hmem => ?_)
    fun word hmem => ?_)
  · rw [hfree word hmem]
    rfl
  · rw [htail word hmem]
    rfl

namespace ColumnConstraint

open Reading

variable {column word inside : String} {words free tail : List String}

theorem readFrom_of_not_mem (hword : Text.lower word ∉ columnKeywords) :
    readFrom column word = (do
      if Text.isKeyword word "check" then discard (group? word)
      return untracked) := by
  have hother : ∀ keyword ∈ columnKeywords, Text.lower word ≠ keyword :=
    fun keyword hkeyword hsame => hword (hsame ▸ hkeyword)
  unfold readFrom
  split
  all_goals first
    | rfl
    | (rename_i hsame; exact absurd hsame (hother _ (by decide)))

/-- A word that is no keyword, `CHECK` apart, is passed over. -/
theorem gives_readFrom_untracked (hword : Text.lower word ∉ columnKeywords)
    (hcheck : Text.isKeyword word "check" = false) (column : String) (words : List String) :
    Gives (readFrom column word) words (.ok (untracked, words)) := by
  rw [readFrom_of_not_mem hword, hcheck]
  exact gives_pure untracked words

/-- `CHECK` with a group that touches it is passed over. -/
theorem gives_readFrom_checkGroup (hword : IsSpelling "check" word)
    (hinside : Chars.Balanced inside.toList) (column : String) (words : List String) :
    Gives (readFrom column (Text.withGroup word inside)) words (.ok (untracked, words)) := by
  have hmem : "check" ∈ columnKeywords := by decide
  have hcheck : Text.isKeyword (Text.withGroup word inside) "check" = true := by
    rw [Text.isKeyword_withGroup hmem hword hinside]
    exact Text.isKeyword_of_isSpelling hmem hword
  have hgroup : Text.group? (Text.withGroup word inside) = some inside := by
    rw [Text.group?, Text.call, Text.call_withGroup hmem hword hinside]
    simp
  rw [readFrom_of_not_mem (Text.lower_withGroup_not_mem word inside), hcheck]
  have htaken : Gives (group? (Text.withGroup word inside)) words (.ok (some inside, words)) :=
    (isWordwise_group? _).gives_of_reads (reads_group?_own hgroup words)
  exact htaken.discard.bind (gives_pure untracked words)

/-- `CHECK` and a group behind it are passed over. -/
theorem gives_readFrom_check (hword : IsSpelling "check" word)
    (hinside : Chars.Balanced inside.toList) (column : String) (words : List String) :
    Gives (readFrom column word) (Text.group inside :: words) (.ok (untracked, words)) := by
  have hmem : "check" ∈ columnKeywords := by decide
  have hlower : Text.lower word = "check" := Text.lower_of_isSpelling hmem hword
  have hnone : Text.group? word = none := by
    rw [Text.group?, Text.call, Text.call_of_isSpelling hmem hword]
    rfl
  have hopen : (Text.group inside).toList.head? = some '(' := by
    rw [Text.group, Text.toList_group]
    rfl
  have htaken : Gives (group? word) (Text.group inside :: words) (.ok (some inside, words)) :=
    (isWordwise_group? _).gives_of_reads
      (reads_group? hnone hopen (Text.group?_group hinside) words)
  rw [readFrom, hlower]
  dsimp only
  rw [Text.isKeyword_of_isSpelling hmem hword, if_pos rfl]
  exact htaken.discard.bind (gives_pure untracked words)

/-- `DEFAULT` takes its first word, and more up to the next keyword. -/
theorem gives_readFrom_default (hword : IsSpelling "default" word) (first : String)
    (hfree : ∀ word ∈ free, isColumnKeyword word = false)
    (htail : ∀ word ∈ tail.head?, isColumnKeyword word = true) (column : String) :
    Gives (readFrom column word) (first :: (free ++ tail))
      (.ok (defaultValue (Text.unwords (first :: free)), tail)) := by
  have hlower : Text.lower word = "default" := Text.lower_of_isSpelling (by decide) hword
  have hdefault : readFrom column word = readDefault := by
    rw [readFrom, hlower]
    rfl
  have hfirst : Gives (expectWord "default value") (first :: (free ++ tail))
      (.ok (first, free ++ tail)) :=
    (isWordwise_expectWord _).gives_of_reads (reads_expectWord _ first (free ++ tail))
  rw [hdefault]
  exact hfirst.bind ((gives_takeWhile_keyword hfree htail).bind (gives_pure _ tail))

/-- Words that are no keywords are passed over, one by one. -/
theorem gives_many_untracked {result : Except Fault (List ColumnConstraint × List String)}
    (hfree : ∀ word ∈ free, Text.lower word ∉ columnKeywords ∧ Text.isKeyword word "check" = false)
    (htail : Gives (many (read? column)) tail result) :
    Gives (many (read? column)) (free ++ tail)
      (result.map (Prod.map (free.map (fun _ => untracked) ++ ·) id)) := by
  induction free with
  | nil =>
      cases result <;> exact htail
  | cons word others ih =>
      obtain ⟨⟨hword, hcheck⟩, hothers⟩ := List.forall_mem_cons.mp hfree
      have hfirst := gives_readFrom_untracked hword hcheck column (others ++ tail)
      have hmany := gives_many_cons hfirst (ih hothers)
      cases result <;> exact hmany

end ColumnConstraint

end Schemata
