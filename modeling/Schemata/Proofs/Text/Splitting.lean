import Schemata.Proofs.Text.Balance

/-!
# Texts cut into parts and joined again

Clauses and words are two ways to cut a text (`Chars.Cuts`): a separator at the top separates the
parts of the two sides, and a text without one has one part at most.  What follows from this alone
is that the parts of a text can be joined by a separator and cut again (`Chars.Cuts.intercalate`).

Clauses have changed by then: they are trimmed, and empty ones are gone.  Cutting the joined text
gives these same parts, so a text is changed by being cut and joined once, and never again.

* `Chars.piecesByPairs_eq`: a scan that looks ahead for doubled quotes cuts in the same places.
* `Text.split_append_and_join`: clauses, for the separators that are in use.
* `Text.words_unwords_words`: words.
* `Text.words_afterWords`: the text behind some words has the other words.
-/

namespace Schemata

/-! ## Quotes -/

/-- Only quote characters open a quote. -/
theorem Nesting.isQuote_of_mem_quote_step {nesting : Nesting}
    (hquote : ∀ q ∈ nesting.quote, isQuote q = true) (c : Char) :
    ∀ q ∈ (nesting.step c).quote, isQuote q = true := by
  intro q hq
  unfold step at hq
  grind

/-- A doubled quote inside of quoted text leaves a scan where it is. -/
theorem Nesting.step_step_of_mem_quote {nesting : Nesting} {q : Char} (hopen : q ∈ nesting.quote)
    (hquote : isQuote q = true) : (nesting.step q).step q = nesting := by
  obtain ⟨quote, depth⟩ := nesting
  cases hopen
  simp [step, hquote]

namespace Chars

variable {cut : Char → Bool} {nesting : Nesting} {first text : List Char} {c separator : Char}

/-! ## The first cut -/

/-- A text is uncut, or there is a first separator at the top. -/
theorem uncut_or_exists_cut (cut : Char → Bool) (nesting : Nesting) (text : List Char) :
    Uncut cut nesting text ∨ ∃ first c rest, text = first ++ c :: rest ∧
      Uncut cut nesting first ∧ nesting.run first = .top ∧ cut c = true := by
  induction text generalizing nesting with
  | nil => exact Or.inl trivial
  | cons c rest ih =>
      cases hcut : nesting.isTop && cut c with
      | true =>
          obtain ⟨htop, hc⟩ := (Bool.and_eq_true _ _).mp hcut
          exact Or.inr ⟨[], c, rest, rfl, trivial, Nesting.eq_top_of_isTop htop, hc⟩
      | false =>
          rcases ih (nesting.step c) with huncut | ⟨first, d, behind, rfl, hfirst, hrun, hd⟩
          · exact Or.inl ⟨hcut, huncut⟩
          · exact Or.inr ⟨c :: first, d, behind, rfl, ⟨hcut, hfirst⟩, hrun, hd⟩

/-! ## Doubled quotes -/

/-- The pieces of a text, cut by a scan that takes a doubled quote inside of quoted text at once. -/
def piecesByPairs (cut : Char → Bool) : Nesting → List Char → List (List Char)
  | _, [] => [[]]
  | nesting, [c] => if nesting.isTop && cut c then [[], []] else [[c]]
  | nesting, c :: d :: rest =>
      if nesting.isTop && cut c then [] :: piecesByPairs cut nesting (d :: rest)
      else if nesting.quote == some c && d == c then
        (piecesByPairs cut nesting rest).modifyHead (c :: d :: ·)
      else (piecesByPairs cut (nesting.step c) (d :: rest)).modifyHead (c :: ·)

/-- Closing a quote and opening it again is as good as taking both characters at once. -/
theorem piecesByPairs_eq (hcut : ∀ q, Nesting.isQuote q = true → cut q = false)
    (hquote : ∀ q ∈ nesting.quote, Nesting.isQuote q = true) (text : List Char) :
    piecesByPairs cut nesting text = pieces cut nesting text := by
  fun_induction piecesByPairs cut nesting text with
  | case1 => rfl
  | case2 nesting c hc => rw [pieces, if_pos hc, pieces]
  | case3 nesting c hc => rw [pieces, if_neg hc, pieces]; rfl
  | case4 nesting c d rest hc ih => rw [pieces, if_pos hc, ih hquote]
  | case5 nesting c d rest hc hpair ih =>
      obtain ⟨hopen, rfl⟩ : nesting.quote = some c ∧ d = c := by simpa using hpair
      have hd : Nesting.isQuote d = true := hquote d hopen
      have hsecond : pieces cut (nesting.step d) (d :: rest) =
          (pieces cut nesting rest).modifyHead (d :: ·) := by
        rw [pieces, hcut d hd, Bool.and_false, Nesting.step_step_of_mem_quote hopen hd]
        rfl
      rw [ih hquote, pieces, if_neg hc, hsecond]
      exact List.modifyHead_modifyHead.symm
  | case6 nesting c d rest hc hpair ih =>
      rw [ih (Nesting.isQuote_of_mem_quote_step hquote c)]
      conv_rhs => rw [pieces, if_neg hc]

/-! ## Ways to cut -/

/-- A way to cut texts into parts at separators that stand at the top. -/
structure Cuts (cut : Char → Bool) (parts : List Char → List (List Char)) : Prop where
  /-- A text that ends at the top does not touch the parts behind a separator. -/
  append : ∀ {first : List Char} {c : Char}, Nesting.top.run first = .top → cut c = true →
    ∀ rest, parts (first ++ c :: rest) = parts first ++ parts rest
  /-- An uncut text has one part at most, which ends as the text does. -/
  uncut : ∀ {text : List Char}, Uncut cut .top text → parts text = [] ∨
    ∃ part, parts text = [part] ∧ parts part = [part] ∧
      Nesting.top.run part = Nesting.top.run text
  /-- A text without characters has no part. -/
  nil : parts [] = []

/-- The parts of a text, joined by a separator, are its parts again. -/
theorem Cuts.intercalate {parts : List Char → List (List Char)} (hcuts : Cuts cut parts)
    (hcut : cut c = true) (text : List Char) :
    parts ([c].intercalate (parts text)) = parts text := by
  rcases uncut_or_exists_cut cut .top text with
    huncut | ⟨first, d, rest, htext, huncut, hrun, hd⟩
  · rcases hcuts.uncut huncut with hnone | ⟨part, hpart, hagain, -⟩
    · rw [hnone]
      exact hcuts.nil
    · rw [hpart, List.intercalate_singleton, hagain]
  · have hrest := hcuts.intercalate hcut rest
    rw [htext, hcuts.append hrun hd rest]
    rcases hcuts.uncut huncut with hnone | ⟨part, hpart, hagain, hend⟩
    · rw [hnone, List.nil_append, hrest]
    · rw [hpart]
      cases hparts : parts rest with
      | nil => rw [List.append_nil, List.intercalate_singleton, hagain]
      | cons next others =>
          rw [hparts] at hrest
          -- The first part ends at the top, so that the joined parts are cut behind it again.
          rw [List.singleton_append, List.intercalate_cons_cons, List.append_assoc,
            List.singleton_append, hcuts.append (hend.trans hrun) hcut, hagain, hrest,
            List.singleton_append]
termination_by text.length
decreasing_by
  rw [htext, List.length_append, List.length_cons]
  omega

theorem cuts_split (hplain : Nesting.isPlain separator = true) :
    Cuts (· == separator) (split separator) where
  append := by
    intro first c hrun hc rest
    have hplains : ∀ d, (d == separator) = true → Nesting.isPlain d = true := by
      rintro d hd
      rwa [eq_of_beq hd]
    rw [split, pieces_append_of_run hplains hrun hc, List.map_append, List.filter_append]
    rfl
  uncut := by
    intro text huncut
    by_cases hempty : trim text = []
    · refine Or.inl ?_
      rw [split, pieces_of_uncut huncut, List.map_singleton, hempty]
      rfl
    · refine Or.inr ⟨trim text, ?_, ?_, run_trim text⟩
      · rw [split, pieces_of_uncut huncut, List.map_singleton,
          List.filter_cons_of_pos (by simp [hempty]), List.filter_nil]
      · exact split_eq_singleton huncut.trim (trimmed_trim text) hempty
  nil := rfl

/-- An uncut text is its only word. -/
theorem words_of_uncut (huncut : Uncut isBlank .top text) (hne : text ≠ []) :
    words text = [text] := by
  rw [words, pieces_of_uncut huncut, List.filter_cons_of_pos (by simp [hne]), List.filter_nil]

theorem cuts_words : Cuts isBlank words where
  append := fun hrun hblank rest => words_append_of_run hrun hblank rest
  uncut := by
    intro text huncut
    by_cases hempty : text = []
    · exact Or.inl (hempty ▸ rfl)
    · have hwords := words_of_uncut huncut hempty
      exact Or.inr ⟨text, hwords, hwords, rfl⟩
  nil := rfl

/-! ## The text behind some words -/

theorem words_trimStart (text : List Char) : words (trimStart text) = words text := by
  have hblanks : ∀ c ∈ text.takeWhile isBlank, isBlank c = true :=
    List.all_eq_true.mp List.all_takeWhile
  conv_rhs => rw [← List.takeWhile_append_dropWhile (p := isBlank) (l := text),
    words_append_of_blank hblanks]
  rfl

theorem dropWord_of_uncut (huncut : Uncut isBlank nesting text) : dropWord nesting text = [] := by
  induction text generalizing nesting with
  | nil => rfl
  | cons c rest ih =>
      obtain ⟨hkeep, hrest⟩ := huncut
      rw [dropWord, hkeep]
      exact ih hrest

/-- Behind its first word a text has the other words. -/
theorem words_dropWord (hblank : isBlank c = false) (rest : List Char) :
    words (dropWord .top (c :: rest)) = (words (c :: rest)).tail := by
  rcases uncut_or_exists_cut isBlank .top (c :: rest) with
    huncut | ⟨first, d, behind, htext, huncut, hrun, hd⟩
  · rw [dropWord_of_uncut huncut, words_of_uncut huncut (List.cons_ne_nil c rest)]
    rfl
  · have hne : first ≠ [] := by
      rintro rfl
      cases htext
      rw [hblank] at hd
      cases hd
    rw [htext, dropWord_append_cons huncut hrun hd, words_append_cons huncut hrun hne hd,
      words_cons_of_blank hd, List.tail_cons]

/-- Behind its first words a text has the other words. -/
theorem words_afterWords (count : Nat) (text : List Char) :
    words (afterWords count text) = (words text).drop count := by
  induction count generalizing text with
  | zero => exact words_trimStart text
  | succ count ih =>
      rw [afterWords, ← words_trimStart text]
      split
      · rename_i hempty
        rw [hempty]
        rfl
      · rename_i c rest hrest
        have hc : isBlank c = false := head?_trimStart text (by rw [hrest]; rfl)
        rw [ih, words_dropWord hc, hrest, ← List.drop_one, List.drop_drop, Nat.add_comm]

theorem head?_afterWords {count : Nat} (hc : c ∈ (afterWords count text).head?) :
    isBlank c = false := by
  induction count generalizing text with
  | zero => exact head?_trimStart text hc
  | succ count ih =>
      rw [afterWords] at hc
      split at hc
      · cases hc
      · exact ih hc

/-- Behind some words there are no blanks to trim, if there are none at the end of the text. -/
theorem trimmed_afterWords (hlast : ∀ c ∈ text.getLast?, isBlank c = false) (count : Nat) :
    Trimmed (afterWords count text) := by
  refine ⟨fun c hc => head?_afterWords hc, fun c hc => hlast c ?_⟩
  obtain ⟨before, hbefore⟩ := afterWords_ending count text
  rw [← hbefore, List.getLast?_append, Option.mem_def.mp hc]
  rfl

end Chars

namespace Text

/-! ## Words -/

theorem map_toList_map_ofList (list : List (List Char)) :
    (list.map String.ofList).map String.toList = list := by
  rw [List.map_map]
  exact (List.map_congr_left fun chars _ => String.toList_ofList).trans (List.map_id list)

/-- Words put together with single spaces are the words of what they make. -/
theorem words_unwords_words (text : String) : words (unwords (words text)) = words text := by
  rw [words, toList_unwords, words, map_toList_map_ofList, Chars.cuts_words.intercalate (by decide)]

/-- The text behind some words has the other words. -/
theorem words_afterWords (count : Nat) (text : String) :
    words (afterWords count text) = (words text).drop count := by
  rw [words, afterWords, String.toList_ofList, Chars.words_afterWords, List.map_drop]
  rfl

theorem afterWords_ending (count : Nat) (text : String) :
    ∃ before, text = before ++ afterWords count text := by
  obtain ⟨before, hbefore⟩ := Chars.afterWords_ending count text.toList
  refine ⟨String.ofList before, String.toList_inj.mp ?_⟩
  rw [String.toList_append, afterWords, String.toList_ofList, String.toList_ofList, hbefore]

/-! ## Clauses -/

/-- What stands behind a separator at the top is cut on its own, and the clauses of a text are what
they are when they are joined again. -/
theorem split_append_and_join {separator : Char} (hseparator : separator = ',' ∨ separator = '.') :
    (∀ first second : String, Nesting.top.run first.toList = .top →
      split separator (first ++ String.singleton separator ++ second) =
        split separator first ++ split separator second) ∧
    ∀ text : String,
      (∀ piece ∈ split separator text, piece ≠ "" ∧ trim piece = piece ∧
        Chars.Uncut (· == separator) .top piece.toList) ∧
      split separator ((String.singleton separator).intercalate (split separator text)) =
        split separator text := by
  have hplain : Nesting.isPlain separator = true := by
    rcases hseparator with rfl | rfl <;> decide
  have hcuts := Chars.cuts_split hplain
  -- both laws are those of a cutting, carried over from characters to texts
  refine ⟨fun first second hrun => ?_, fun text => ⟨fun piece hpiece => ?_, ?_⟩⟩
  · rw [split, String.toList_append, String.toList_append, String.toList_singleton,
      List.append_assoc, List.singleton_append, hcuts.append hrun (beq_self_eq_true separator),
      List.map_append]
    rfl
  · obtain ⟨clause, hclause, rfl⟩ := List.mem_map.mp hpiece
    obtain ⟨huncut, htrimmed, hne⟩ := Chars.of_mem_split hclause
    rw [String.toList_ofList]
    refine ⟨fun hempty => hne ?_, trim_eq_self (by rwa [String.toList_ofList]), huncut⟩
    rw [← String.toList_ofList (l := clause), hempty]
    rfl
  · rw [split, String.toList_intercalate, String.toList_singleton]
    rw [split, map_toList_map_ofList, hcuts.intercalate (beq_self_eq_true separator)]

theorem split_append_and_join_quoted :
    Nesting.top.run "a, 'b,''c'".toList = .top ∧
      split ',' ("a, 'b,''c'" ++ String.singleton ',' ++ " d (e, f") =
        split ',' "a, 'b,''c'" ++ split ',' " d (e, f" :=
  have hrun : Nesting.top.run "a, 'b,''c'".toList = .top := by decide
  ⟨hrun, (split_append_and_join (Or.inl rfl)).1 _ _ hrun⟩

end Text

end Schemata
