import Schemata.ObjectName
import Schemata.Proofs.Text.Balance

/-!
# Printed names

A name that is printed is one word, and reading it gives the name back, whatever characters it
holds.  What a printed name may be mistaken for is a keyword, since keywords are not quoted.

A scan of a printed identifier meets no separator at the top: a bare one has none, and in a quoted
one every character stands inside quotes, where a doubled quote opens them again at once.  The name
is cut at the dot between its parts, and the doubling is undone by `Chars.undouble_double`.

* `Chars.uncut_quoteIdentifier`, `Chars.run_quoteIdentifier`: a printed identifier is scanned
  without a cut, and the scan is back at the top behind it.
* `ObjectName.isKeyword_text_iff`: which names are printed as keywords.
* `ObjectName.read_text`: reading a printed name gives the name back.
-/

namespace Schemata

namespace Chars

/-- A character of names that are printed without quotes. -/
def isNameChar (c : Char) : Bool :=
  c.isAlphanum || c == '_'

/-- A name character is none of the characters that are not. -/
theorem ne_of_isNameChar {c d : Char} (hname : isNameChar c = true) (hd : isNameChar d = false) :
    c ≠ d := by
  rintro rfl
  rw [hname] at hd
  cases hd

theorem isPlain_of_isNameChar {c : Char} (hname : isNameChar c = true) :
    Nesting.isPlain c = true := by
  simp [Nesting.isPlain, Nesting.isQuote, Nesting.opensGroup, Nesting.closesGroup,
    ne_of_isNameChar hname (d := '\x27') (by decide),
    ne_of_isNameChar hname (d := '\x22') (by decide),
    ne_of_isNameChar hname (d := '\x60') (by decide), ne_of_isNameChar hname (d := '(') (by decide),
    ne_of_isNameChar hname (d := ')') (by decide), ne_of_isNameChar hname (d := '[') (by decide),
    ne_of_isNameChar hname (d := ']') (by decide)]

theorem toNat_of_isNameChar {c : Char} (hname : isNameChar c = true) :
    0x30 ≤ c.toNat ∧ c.toNat < 0x80 := by
  unfold isNameChar Char.isAlphanum Char.isAlpha Char.isUpper Char.isLower Char.isDigit at hname
  simp only [Bool.or_eq_true, Bool.and_eq_true, decide_eq_true_eq, beq_iff_eq, ge_iff_le,
    UInt32.le_iff_toNat_le] at hname
  rcases hname with ((hupper | hlower) | hdigit) | rfl
  · simp only [Char.toNat_val, Char.reduceVal, UInt32.reduceToNat] at hupper
    omega
  · simp only [Char.toNat_val, Char.reduceVal, UInt32.reduceToNat] at hlower
    omega
  · simp only [Char.toNat_val, Char.reduceVal, UInt32.reduceToNat] at hdigit
    omega
  · decide

theorem isBlank_of_isNameChar {c : Char} (hname : isNameChar c = true) : isBlank c = false := by
  have hcode := toNat_of_isNameChar hname
  simp only [isBlank, Bool.or_eq_false_iff, Bool.and_eq_false_iff, decide_eq_false_iff_not,
    beq_eq_false_iff_ne]
  omega

/-- Only capital letters are changed by lowering. -/
theorem toLower_of_not_isUpper {c : Char} (hupper : ¬c.isUpper = true) : c.toLower = c := by
  unfold Char.isUpper at hupper
  unfold Char.toLower
  rw [dif_neg]
  simpa using hupper

theorem not_isAsciiDigit_of_isUpper {c : Char} (hupper : c.isUpper = true) :
    isAsciiDigit c = false := by
  unfold Char.isUpper at hupper
  simp only [decide_eq_true_eq, ge_iff_le, UInt32.le_iff_toNat_le] at hupper
  simp only [isAsciiDigit, Bool.and_eq_false_iff, decide_eq_false_iff_not, Char.le_def,
    UInt32.le_iff_toNat_le]
  simp only [Char.reduceVal, UInt32.reduceToNat] at hupper ⊢
  omega

variable {cut : Char → Bool}

theorem isNameChar_of_isBare {name : List Char} (hbare : isBare name = true) :
    ∀ c ∈ name, isNameChar c = true := by
  cases name with
  | nil => exact fun _ hc => nomatch hc
  | cons c rest =>
      simp only [isBare, Bool.and_eq_true] at hbare
      exact List.all_eq_true.mp hbare.2

theorem uncut_of_nameChars {word : List Char} (hword : ∀ c ∈ word, isNameChar c = true)
    (hname : ∀ c, isNameChar c = true → cut c = false) : Uncut cut .top word :=
  uncut_of_plain (fun c hc => isPlain_of_isNameChar (hword c hc)) fun c hc => hname c (hword c hc)

theorem run_of_nameChars {word : List Char} (hword : ∀ c ∈ word, isNameChar c = true) :
    Nesting.top.run word = .top :=
  Nesting.run_top fun c hc => isPlain_of_isNameChar (hword c hc)

theorem whole_of_nameChars {word : List Char} (hword : ∀ c ∈ word, isNameChar c = true) :
    Whole word := by
  refine whole_of_plain (fun c hc => isPlain_of_isNameChar (hword c hc)) fun c hc => ?_
  have hcomma : (c == ',') = false := beq_false_of_ne (ne_of_isNameChar (hword c hc) (by decide))
  rw [isSeparator, isBlank_of_isNameChar (hword c hc), hcomma]
  rfl

/-- A word that needs no quotes. -/
structure IsNameWord (word : List Char) : Prop where
  all_chars : word.all isNameChar = true
  ne_nil : word ≠ []

instance (word : List Char) : Decidable (IsNameWord word) :=
  decidable_of_iff (word.all isNameChar = true ∧ word ≠ [])
    ⟨fun hword => ⟨hword.1, hword.2⟩, fun hword => ⟨hword.all_chars, hword.ne_nil⟩⟩

theorem IsNameWord.chars {word : List Char} (hword : IsNameWord word) :
    ∀ c ∈ word, isNameChar c = true :=
  List.all_eq_true.mp hword.all_chars

theorem IsNameWord.isWord {word : List Char} (hword : IsNameWord word) : IsWord word :=
  ⟨whole_of_nameChars hword.chars, hword.ne_nil⟩

theorem isNameWord_of_isBare {name : List Char} (hbare : isBare name = true) : IsNameWord name :=
  ⟨List.all_eq_true.mpr (isNameChar_of_isBare hbare), by
    rintro rfl
    cases hbare⟩

/-- A printed identifier is scanned without a cut, whatever it holds. -/
theorem uncut_quoteIdentifier (hquote : cut '\x22' = false)
    (hname : ∀ c, isNameChar c = true → cut c = false) (name : List Char) :
    Uncut cut .top (quoteIdentifier name) := by
  rw [quoteIdentifier]
  split
  · rename_i hbare
    exact uncut_of_nameChars (isNameChar_of_isBare hbare) hname
  · exact ⟨by simp [hquote], (uncut_double rfl (Bool.and_eq_false_imp.mpr fun _ => hquote) name).1⟩

theorem whole_quoteIdentifier (name : List Char) : Whole (quoteIdentifier name) := by
  rw [quoteIdentifier]
  split
  · rename_i hbare
    exact whole_of_nameChars (isNameChar_of_isBare hbare)
  · exact whole_quoted rfl name

/-- Behind a printed identifier the scan is back at the top. -/
theorem run_quoteIdentifier (name : List Char) : Nesting.top.run (quoteIdentifier name) = .top :=
  (whole_quoteIdentifier name).run_top

theorem quoteIdentifier_ne_nil (name : List Char) : quoteIdentifier name ≠ [] := by
  rw [quoteIdentifier]
  split
  · rename_i hbare
    rintro rfl
    cases hbare
  · exact List.cons_ne_nil _ _

/-- An identifier that starts with a name character is not quoted. -/
theorem unquoteIdentifier_cons {c : Char} (hname : isNameChar c = true) (rest : List Char) :
    unquoteIdentifier (c :: rest) = trim (c :: rest) := by
  obtain ⟨others, hothers⟩ := exists_trim_cons (isBlank_of_isNameChar hname) rest
  have hbetween : ∀ opening closing, isNameChar opening = false →
      between? opening closing (c :: others) = none := by
    intro opening closing hopening
    rw [between?, beq_false_of_ne (ne_of_isNameChar hname hopening)]
    rfl
  rw [unquoteIdentifier, hothers, hbetween '\x22' _ (by decide), hbetween '\x60' _ (by decide),
    hbetween '[' _ (by decide)]
  rfl

/-- Unquoting a printed identifier gives the name back. -/
theorem unquoteIdentifier_quoteIdentifier (name : List Char) :
    unquoteIdentifier (quoteIdentifier name) = name := by
  by_cases hbare : isBare name = true
  · have htrim := (whole_quoteIdentifier name).trim_eq
    rw [quoteIdentifier, if_pos hbare] at htrim ⊢
    cases name with
    | nil => cases hbare
    | cons c rest =>
        rw [unquoteIdentifier_cons (isNameChar_of_isBare hbare c List.mem_cons_self), htrim]
  · rw [unquoteIdentifier, (whole_quoteIdentifier name).trim_eq, quoteIdentifier, if_neg hbare,
      between?_append]
    exact undouble_double _ _

/-! ## Words of name characters -/

section Words

variable {word : List Char}

/-- A word of name characters is read off the start of a text. -/
theorem words_of_nameChars (hword : ∀ c ∈ word, isNameChar c = true) (hne : word ≠ [])
    (rest : List Char) : words (word ++ ' ' :: rest) = word :: words rest :=
  words_append_cons (uncut_of_nameChars hword fun _ => isBlank_of_isNameChar)
    (run_of_nameChars hword) hne rfl rest

theorem afterWords_of_nameChars (hword : ∀ c ∈ word, isNameChar c = true) (hne : word ≠ [])
    (count : Nat) (rest : List Char) :
    afterWords (count + 1) (word ++ ' ' :: rest) = afterWords count rest :=
  afterWords_append_cons (uncut_of_nameChars hword fun _ => isBlank_of_isNameChar)
    (run_of_nameChars hword) hne rfl count rest

end Words

/-! ## Names that are keywords -/

theorem isNameChar_of_toLower {c : Char} (hname : isNameChar c.toLower = true) :
    isNameChar c = true := by
  by_cases hupper : c.isUpper = true
  · unfold isNameChar Char.isAlphanum Char.isAlpha
    simp [hupper]
  · rwa [toLower_of_not_isUpper hupper] at hname

theorem isBare_of_map_toLower {name : List Char} (hbare : isBare (name.map Char.toLower) = true) :
    isBare name = true := by
  cases name with
  | nil => cases hbare
  | cons c rest =>
      have hchars := isNameChar_of_isBare hbare
      rw [List.map_cons, isBare, Bool.and_eq_true] at hbare
      rw [isBare, Bool.and_eq_true]
      constructor
      · -- Lowering keeps a digit as it is.
        by_cases hupper : c.isUpper = true
        · exact Bool.not_eq_true' _ ▸ not_isAsciiDigit_of_isUpper hupper
        · have hdigit := hbare.1
          rwa [toLower_of_not_isUpper hupper] at hdigit
      · refine List.all_eq_true.mpr fun d hd => isNameChar_of_toLower (hchars d.toLower ?_)
        exact List.mem_map_of_mem hd

/-- A text that is a bare keyword but for letter case is bare. -/
theorem isBare_of_sameIgnoringCase {text keyword : List Char}
    (hkeyword : isBare (keyword.map Char.toLower) = true)
    (hsame : sameIgnoringCase text keyword = true) : isBare text = true := by
  have hmap : text.map Char.toLower = keyword.map Char.toLower := eq_of_beq hsame
  exact isBare_of_map_toLower (hmap ▸ hkeyword)

end Chars

/-- A word without a group is no keyword if it holds a character that no keyword holds. -/
theorem Text.isKeyword_eq_false {word keyword : String}
    (huncut : Chars.Uncut (· == '(') .top word.toList)
    (hkeyword : Chars.isBare (keyword.toList.map Char.toLower) = true) {c : Char}
    (hmem : c ∈ word.toList) (hc : Chars.isNameChar c = false) : isKeyword word keyword = false := by
  rw [Bool.eq_false_iff, isKeyword, Chars.head_of_uncut huncut]
  intro hsame
  have hbare := Chars.isBare_of_sameIgnoringCase hkeyword hsame
  rw [Chars.isNameChar_of_isBare hbare c hmem] at hc
  cases hc

/-! ## Object names -/

namespace ObjectName

variable {cut : Char → Bool}

theorem toList_text (name : ObjectName) :
    name.text.toList = match name.schema with
      | some schema =>
          Chars.quoteIdentifier schema.toList ++ '.' :: Chars.quoteIdentifier name.base.toList
      | none => Chars.quoteIdentifier name.base.toList := by
  unfold text Text.quoteIdentifier
  cases name.schema with
  | none => rw [String.toList_ofList]
  | some schema =>
      simp only [String.toList_append, String.toList_ofList]
      rw [List.append_assoc]
      rfl

/-- A printed name is scanned without a cut, whatever it holds. -/
theorem uncut_text (hquote : cut '\x22' = false) (hdot : cut '.' = false)
    (hname : ∀ c, Chars.isNameChar c = true → cut c = false) (name : ObjectName) :
    Chars.Uncut cut .top name.text.toList := by
  rw [toList_text]
  split
  · rw [Chars.uncut_append, Chars.run_quoteIdentifier]
    refine ⟨Chars.uncut_quoteIdentifier hquote hname _, by simp [hdot], ?_⟩
    exact Chars.uncut_quoteIdentifier hquote hname _
  · exact Chars.uncut_quoteIdentifier hquote hname _

theorem toList_text_ne_nil (name : ObjectName) : name.text.toList ≠ [] := by
  rw [toList_text]
  split
  · exact List.append_ne_nil_of_right_ne_nil _ (List.cons_ne_nil _ _)
  · exact Chars.quoteIdentifier_ne_nil _

/-- A printed name is one word. -/
theorem isWord_text (name : ObjectName) : Chars.IsWord name.text.toList := by
  refine ⟨?_, name.toList_text_ne_nil⟩
  have hdot : Chars.Whole ['.'] :=
    Chars.whole_of_plain (List.forall_mem_singleton.mpr (by decide))
      (List.forall_mem_singleton.mpr (by decide))
  rw [toList_text]
  split
  · exact (Chars.whole_quoteIdentifier _).append (hdot.append (Chars.whole_quoteIdentifier _))
  · exact Chars.whole_quoteIdentifier _

theorem run_text (name : ObjectName) : Nesting.top.run name.text.toList = .top :=
  name.isWord_text.run_top

/-- A printed name is a keyword only if it is unqualified and is the keyword but for letter case. -/
theorem isKeyword_text_iff {name : ObjectName} {keyword : String}
    (hkeyword : Chars.isBare (keyword.toList.map Char.toLower) = true) :
    Text.isKeyword name.text keyword = true ↔
      name.schema = none ∧ Chars.sameIgnoringCase name.base.toList keyword.toList = true := by
  have hhead : Chars.head name.text.toList = name.text.toList :=
    Chars.head_of_uncut (uncut_text rfl rfl
      (fun c hc => beq_false_of_ne (Chars.ne_of_isNameChar hc (by decide))) name)
  rw [Text.isKeyword, hhead, toList_text]
  cases name.schema with
  | none =>
      -- a bare name stands as it is, and a quoted one starts with a quote, as no keyword does
      by_cases hbare : Chars.isBare name.base.toList = true
      · simp [Chars.quoteIdentifier, hbare]
      · constructor
        · intro hsame
          have hquoted := Chars.isBare_of_sameIgnoringCase hkeyword hsame
          rw [Chars.quoteIdentifier, if_neg hbare] at hquoted
          simp [Chars.isBare] at hquoted
        · rintro ⟨-, hsame⟩
          exact absurd (Chars.isBare_of_sameIgnoringCase hkeyword hsame) hbare
  | some schema =>
      constructor
      · intro hsame
        -- a qualified name has a dot in it, as no keyword has
        have hbare := Chars.isBare_of_sameIgnoringCase hkeyword hsame
        have hdot := Chars.isNameChar_of_isBare hbare '.'
          (List.mem_append_right _ List.mem_cons_self)
        cases hdot
      · rintro ⟨hschema, -⟩
        cases hschema

/-- A printed name with a comma behind it is no keyword. -/
theorem isKeyword_text_comma (name : ObjectName) {keyword : String}
    (hkeyword : Chars.isBare (keyword.toList.map Char.toLower) = true) :
    Text.isKeyword (name.text ++ ",") keyword = false := by
  have hchars : (name.text ++ ",").toList = name.text.toList ++ [','] := String.toList_append
  refine Text.isKeyword_eq_false (c := ',') ?_ hkeyword ?_ (by decide)
  · rw [hchars, Chars.uncut_append, run_text]
    refine ⟨uncut_text rfl rfl (fun c hc => ?_) name, rfl, trivial⟩
    exact beq_false_of_ne (Chars.ne_of_isNameChar hc (by decide))
  · rw [hchars]
    exact List.mem_append_right _ List.mem_cons_self

/-- A word that starts with a name character is read as a qualified name or as one that starts with
the same character. -/
theorem head?_base_read {word : String} {c : Char} (hhead : word.toList.head? = some c)
    (hname : Chars.isNameChar c = true) (hschema : (read word).schema = none) :
    (read word).base.toList.head? = some c := by
  have hdot : (c == '.') = false := beq_false_of_ne (Chars.ne_of_isNameChar hname (by decide))
  have hblank := Chars.isBlank_of_isNameChar hname
  obtain ⟨rest, hword⟩ := List.head?_eq_some_iff.mp hhead
  -- The first part starts with the character.
  obtain ⟨part, parts, hsplit⟩ : ∃ part parts,
      Text.split '.' word = String.ofList (c :: part) :: parts := by
    obtain ⟨piece, pieces, hpieces, -⟩ :=
      Chars.uncut_pieces (· == '.') (Nesting.top.step c) rest
    obtain ⟨part, hpart⟩ := Chars.exists_trim_cons hblank piece
    refine ⟨part, ((pieces.map Chars.trim).filter (! ·.isEmpty)).map String.ofList, ?_⟩
    rw [Text.split, hword, Chars.split, Chars.pieces, hdot, hpieces]
    simp [hpart]
  rw [read, hsplit] at hschema ⊢
  cases hparts : parts.reverse with
  | nil =>
      have hnil : parts = [] := List.reverse_eq_nil_iff.mp hparts
      obtain ⟨others, hothers⟩ := Chars.exists_trim_cons hblank part
      subst hnil
      show (Text.unquoteIdentifier (String.ofList (c :: part))).toList.head? = _
      rw [Text.unquoteIdentifier, String.toList_ofList, String.toList_ofList,
        Chars.unquoteIdentifier_cons hname, hothers]
      rfl
  | cons base schemas =>
      rw [List.reverse_cons, hparts, List.cons_append] at hschema
      cases schemas with
      | nil => cases hschema
      | cons schema others => cases hschema

/-- A written part of a name: one word without a dot at the top. -/
structure IsPart (part : List Char) : Prop extends Chars.IsWord part where
  undotted : Chars.Uncut (· == '.') .top part

theorem IsPart.split_eq {part : List Char} (hpart : IsPart part) : Chars.split '.' part = [part] :=
  Chars.split_eq_singleton hpart.undotted hpart.toTrimmed hpart.ne_nil

theorem isPart_quoteIdentifier (name : List Char) : IsPart (Chars.quoteIdentifier name) :=
  ⟨⟨Chars.whole_quoteIdentifier name, Chars.quoteIdentifier_ne_nil name⟩,
    Chars.uncut_quoteIdentifier rfl
      (fun _ hc => beq_false_of_ne (Chars.ne_of_isNameChar hc (by decide))) name⟩

/-- One written part is a name without a schema. -/
theorem read_part {base : List Char} (hbase : IsPart base) :
    read (String.ofList base) = ⟨none, String.ofList (Chars.unquoteIdentifier base)⟩ := by
  have hparts : Text.split '.' (String.ofList base) = [String.ofList base] := by
    rw [Text.split, String.toList_ofList, hbase.split_eq]
    rfl
  rw [read, hparts]
  show ObjectName.mk none (Text.unquoteIdentifier _) = _
  rw [Text.unquoteIdentifier, String.toList_ofList]

/-- Of two written parts with a dot between them the first is the schema. -/
theorem read_parts {schema base : List Char} (hschema : IsPart schema) (hbase : IsPart base) :
    read (String.ofList (schema ++ '.' :: base)) =
      ⟨some (String.ofList (Chars.unquoteIdentifier schema)),
        String.ofList (Chars.unquoteIdentifier base)⟩ := by
  have hparts : Text.split '.' (String.ofList (schema ++ '.' :: base)) =
      [String.ofList schema, String.ofList base] := by
    have hrest := hbase.split_eq
    rw [Chars.split] at hrest
    rw [Text.split, String.toList_ofList, Chars.split,
      Chars.pieces_append_cons hschema.undotted hschema.run_top rfl, List.map_cons,
      hschema.toTrimmed.trim_eq, List.filter_cons_of_pos (by simp [hschema.ne_nil]), hrest]
    rfl
  rw [read, hparts]
  show ObjectName.mk (some (Text.unquoteIdentifier _)) (Text.unquoteIdentifier _) = _
  rw [Text.unquoteIdentifier, Text.unquoteIdentifier, String.toList_ofList, String.toList_ofList]

/-- Reading a printed name gives the name back. -/
theorem read_text (name : ObjectName) : read name.text = name := by
  obtain ⟨schema, base⟩ := name
  have hbase := isPart_quoteIdentifier base.toList
  have hchars := toList_text ⟨schema, base⟩
  cases schema with
  | none =>
      rw [← String.ofList_toList (s := text ⟨none, base⟩), hchars, read_part hbase,
        Chars.unquoteIdentifier_quoteIdentifier, String.ofList_toList]
  | some schema =>
      have hschema := isPart_quoteIdentifier schema.toList
      rw [← String.ofList_toList (s := text ⟨some schema, base⟩), hchars,
        read_parts hschema hbase, Chars.unquoteIdentifier_quoteIdentifier,
        Chars.unquoteIdentifier_quoteIdentifier, String.ofList_toList, String.ofList_toList]

end ObjectName

end Schemata
