import Schemata.Text.Group

/-!
# Scanning text from the top

A text is *uncut* when a scan meets no separator at the top (`Chars.Uncut`).  An uncut text is its
only piece, and in front of a separator it is the first of the pieces, if the scan is back at the
top there; so words and clauses can be read off a text that was put together from them.

The lemmas on pieces hold for any separator and from any state of the scan.  A scan is a fold, so a
text put behind another one is scanned from the state that the first one ends in, and inductions go
along the text with the state left open.

* `pieces_of_uncut`, `pieces_append_cons`: the pieces of a text.
* `uncut_of_mem_pieces`: every piece of a text is uncut, so cutting it again gives nothing new.
* `split_eq_singleton`: a trimmed and uncut text is its only clause.
* `afterWords_append_cons`: behind a word, the rest of the text is found as it stands.
* `exists_of_breakWhere`: a scan that stops has passed the text in front of its stop.
* `length_afterWords_lt`: behind a word there is less text.
-/

namespace Schemata

namespace Chars

/-! ## Trimming -/

/-- No blank stands at either end. -/
structure Trimmed (text : List Char) : Prop where
  head : ∀ c ∈ text.head?, isBlank c = false
  last : ∀ c ∈ text.getLast?, isBlank c = false

theorem trimStart_eq_self {text : List Char} (hhead : ∀ c ∈ text.head?, isBlank c = false) :
    trimStart text = text := by
  cases text with
  | nil => rfl
  | cons c rest =>
      have hblank : isBlank c = false := hhead c rfl
      rw [trimStart, List.dropWhile_cons_of_neg (by simp [hblank])]

theorem trimEnd_eq_self {text : List Char} (hlast : ∀ c ∈ text.getLast?, isBlank c = false) :
    trimEnd text = text := by
  have hreverse : trimStart text.reverse = text.reverse :=
    trimStart_eq_self fun c hc => hlast c (by rwa [List.head?_reverse] at hc)
  rw [trimEnd, ← trimStart, hreverse, List.reverse_reverse]

theorem Trimmed.trim_eq {text : List Char} (htrimmed : Trimmed text) : trim text = text := by
  rw [trim, trimStart_eq_self htrimmed.head, trimEnd_eq_self htrimmed.last]

theorem head?_trimStart (text : List Char) {c : Char} (hc : c ∈ (trimStart text).head?) :
    isBlank c = false := by
  have hnot := List.head?_dropWhile_not isBlank text
  rw [trimStart] at hc
  rw [Option.mem_def.mp hc] at hnot
  simpa using hnot

theorem getLast?_trimEnd (text : List Char) {c : Char} (hc : c ∈ (trimEnd text).getLast?) :
    isBlank c = false := by
  refine head?_trimStart text.reverse ?_
  rwa [trimEnd, List.getLast?_reverse] at hc

/-- Trimming the end leaves a beginning of the text. -/
theorem trimEnd_beginning (text : List Char) : trimEnd text <+: text := by
  rw [← List.reverse_suffix, trimEnd, List.reverse_reverse]
  exact List.dropWhile_suffix isBlank

/-- What is dropped from the end of a text passes the test. -/
theorem exists_append_dropped (drop : Char → Bool) (chars : List Char) :
    ∃ dropped, chars = (chars.reverse.dropWhile drop).reverse ++ dropped ∧
      ∀ c ∈ dropped, drop c = true := by
  refine ⟨(chars.reverse.takeWhile drop).reverse, ?_, fun c hc => ?_⟩
  · rw [← List.reverse_append, List.takeWhile_append_dropWhile, List.reverse_reverse]
  · exact List.all_eq_true.mp List.all_takeWhile c (List.mem_reverse.mp hc)

theorem trimmed_trim (text : List Char) : Trimmed (trim text) := by
  constructor
  · intro c hc
    obtain ⟨rest, hrest⟩ := trimEnd_beginning (trimStart text)
    refine head?_trimStart text ?_
    rw [trim] at hc
    rw [← hrest, List.head?_append, Option.mem_def.mp hc]
    rfl
  · exact fun c hc => getLast?_trimEnd (trimStart text) hc

/-- A text that does not start with a blank starts with the same character when it is trimmed. -/
theorem exists_trim_cons {c : Char} (hblank : isBlank c = false) (rest : List Char) :
    ∃ others, trim (c :: rest) = c :: others := by
  have hstart : trimStart (c :: rest) = c :: rest :=
    trimStart_eq_self fun d hd => by
      cases hd
      exact hblank
  rw [trim, hstart, trimEnd, List.reverse_cons, List.dropWhile_append]
  split
  · exact ⟨[], by simp [hblank]⟩
  · exact ⟨_, List.reverse_concat⟩

/-! ## Uncut texts -/

/-- No separator stands at the top of the text, scanned from the given state. -/
def Uncut (cut : Char → Bool) : Nesting → List Char → Prop
  | _, [] => True
  | nesting, c :: rest => (nesting.isTop && cut c) = false ∧ Uncut cut (nesting.step c) rest

variable {cut : Char → Bool} {nesting : Nesting} {first text rest : List Char} {c : Char}

theorem uncut_append : Uncut cut nesting (first ++ rest) ↔
    Uncut cut nesting first ∧ Uncut cut (nesting.run first) rest := by
  induction first generalizing nesting with
  | nil => simp [Uncut]
  | cons c others ih => simp only [List.cons_append, Uncut, Nesting.run_cons, ih, and_assoc]

/-- An uncut text is its only piece. -/
theorem pieces_of_uncut (huncut : Uncut cut nesting text) : pieces cut nesting text = [text] := by
  induction text generalizing nesting with
  | nil => rfl
  | cons c others ih =>
      obtain ⟨hkeep, hrest⟩ := huncut
      rw [pieces, hkeep, ih hrest]
      rfl

/-- An uncut text in front of a separator at the top is the first piece. -/
theorem pieces_append_cons (huncut : Uncut cut nesting first) (htop : nesting.run first = .top)
    (hcut : cut c = true) (rest : List Char) :
    pieces cut nesting (first ++ c :: rest) = first :: pieces cut .top rest := by
  induction first generalizing nesting with
  | nil =>
      have htop : nesting = .top := htop
      rw [htop, List.nil_append, pieces, hcut]
      rfl
  | cons d others ih =>
      obtain ⟨hkeep, hrest⟩ := huncut
      rw [List.cons_append, pieces, hkeep, ih hrest htop]
      rfl

/-- The first piece is uncut from where the scan started, and the others are from the top. -/
theorem uncut_pieces (cut : Char → Bool) (nesting : Nesting) (text : List Char) :
    ∃ piece others, pieces cut nesting text = piece :: others ∧ Uncut cut nesting piece ∧
      ∀ other ∈ others, Uncut cut .top other := by
  induction text generalizing nesting with
  | nil => exact ⟨[], [], rfl, trivial, fun _ hother => nomatch hother⟩
  | cons c rest ih =>
      rw [pieces]
      split
      · rename_i hcut
        obtain ⟨piece, others, hpieces, hpiece, hothers⟩ := ih nesting
        have htop : nesting = .top := Nesting.eq_top_of_isTop (Bool.and_eq_true _ _ ▸ hcut).1
        subst htop
        -- In front of the separator stands an empty piece, and the scan goes on at the top.
        refine ⟨[], piece :: others, by rw [hpieces], trivial, fun other hother => ?_⟩
        rcases List.mem_cons.mp hother with rfl | hother
        · exact hpiece
        · exact hothers other hother
      · rename_i hkeep
        obtain ⟨piece, others, hpieces, hpiece, hothers⟩ := ih (nesting.step c)
        refine ⟨c :: piece, others, by rw [hpieces]; rfl, ⟨?_, hpiece⟩, hothers⟩
        exact Bool.eq_false_iff.mpr hkeep

/-- Cutting a piece again gives nothing new. -/
theorem uncut_of_mem_pieces {piece : List Char} (hpiece : piece ∈ pieces cut .top text) :
    Uncut cut .top piece := by
  obtain ⟨leading, others, hpieces, hleading, hothers⟩ := uncut_pieces cut .top text
  rw [hpieces] at hpiece
  rcases List.mem_cons.mp hpiece with rfl | hpiece
  · exact hleading
  · exact hothers piece hpiece

end Chars

/-! ## Characters that change nothing -/

/-- A character that neither quotes nor groups. -/
def Nesting.isPlain (c : Char) : Bool :=
  !isQuote c && !opensGroup c && !closesGroup c

/-- A character that neither quotes nor groups leaves a scan outside of quotes where it is. -/
theorem Nesting.step_plain {c : Char} (hplain : isPlain c = true) (depth : Nat) :
    step ⟨none, depth⟩ c = ⟨none, depth⟩ := by
  simp only [isPlain, Bool.and_eq_true, Bool.not_eq_true'] at hplain
  obtain ⟨⟨hquote, hopens⟩, hcloses⟩ := hplain
  simp [step, hquote, hopens, hcloses]

theorem Nesting.step_top {c : Char} (hplain : isPlain c = true) : top.step c = top :=
  step_plain hplain 0

theorem Nesting.run_top {text : List Char} (hplain : ∀ c ∈ text, isPlain c = true) :
    top.run text = top := by
  induction text with
  | nil => rfl
  | cons c rest ih =>
      rw [run_cons, step_top (hplain c List.mem_cons_self)]
      exact ih fun d hd => hplain d (List.mem_cons_of_mem c hd)

theorem Nesting.isPlain_of_isBlank {c : Char} (hblank : isBlank c = true) : isPlain c = true := by
  have hne : ∀ d, isBlank d = false → c ≠ d := by
    rintro d hd rfl
    rw [hblank] at hd
    cases hd
  simp [isPlain, isQuote, opensGroup, closesGroup, hne '\x27' (by decide), hne '\x22' (by decide),
    hne '\x60' (by decide), hne '(' (by decide), hne ')' (by decide), hne '[' (by decide),
    hne ']' (by decide)]

namespace Chars

variable {cut : Char → Bool} {nesting : Nesting} {first text rest : List Char} {c : Char}

/-- A text of characters that neither quote nor group is uncut if none of them is a separator. -/
theorem uncut_of_plain (hplain : ∀ c ∈ text, Nesting.isPlain c = true)
    (hcut : ∀ c ∈ text, cut c = false) : Uncut cut .top text := by
  induction text with
  | nil => trivial
  | cons c rest ih =>
      refine ⟨by simp [hcut c List.mem_cons_self], ?_⟩
      rw [Nesting.step_top (hplain c List.mem_cons_self)]
      exact ih (fun d hd => hplain d (List.mem_cons_of_mem c hd))
        fun d hd => hcut d (List.mem_cons_of_mem c hd)

theorem Uncut.of_beginning (huncut : Uncut cut nesting text) (hfirst : first <+: text) :
    Uncut cut nesting first := by
  obtain ⟨rest, rfl⟩ := hfirst
  exact (uncut_append.mp huncut).1

theorem Uncut.trimStart (huncut : Uncut cut .top text) : Uncut cut .top (trimStart text) := by
  have hsplit := List.takeWhile_append_dropWhile (p := isBlank) (l := text)
  have hblanks : ∀ c ∈ text.takeWhile isBlank, isBlank c = true :=
    List.all_eq_true.mp List.all_takeWhile
  -- The scan is still at the top behind the blanks.
  rw [← hsplit, uncut_append,
    Nesting.run_top fun c hc => Nesting.isPlain_of_isBlank (hblanks c hc)] at huncut
  exact huncut.2

/-- Trimming does not cut. -/
theorem Uncut.trim (huncut : Uncut cut .top text) : Uncut cut .top (trim text) :=
  huncut.trimStart.of_beginning (trimEnd_beginning (Chars.trimStart text))

/-- A trimmed and uncut text is its only clause. -/
theorem split_eq_singleton {separator : Char} (huncut : Uncut (· == separator) .top text)
    (htrimmed : Trimmed text) (hne : text ≠ []) : split separator text = [text] := by
  rw [split, pieces_of_uncut huncut, List.map_singleton, htrimmed.trim_eq]
  simp [hne]

theorem length_split_le_one {separator : Char} (huncut : Uncut (· == separator) .top text) :
    (split separator text).length ≤ 1 := by
  rw [split, pieces_of_uncut huncut]
  exact List.length_filter_le _ _

/-- The clauses of a text are trimmed, not empty, and uncut. -/
theorem of_mem_split {separator : Char} {clause : List Char}
    (hclause : clause ∈ split separator text) :
    Uncut (· == separator) .top clause ∧ Trimmed clause ∧ clause ≠ [] := by
  obtain ⟨hmem, hne⟩ := List.mem_filter.mp hclause
  obtain ⟨piece, hpiece, rfl⟩ := List.mem_map.mp hmem
  exact ⟨(uncut_of_mem_pieces hpiece).trim, trimmed_trim piece, by simpa using hne⟩

/-! ## Words -/

/-- A word in front of a blank is the first of the words. -/
theorem words_append_cons (huncut : Uncut isBlank .top first) (htop : Nesting.top.run first = .top)
    (hne : first ≠ []) (hblank : isBlank c = true) (rest : List Char) :
    words (first ++ c :: rest) = first :: words rest := by
  rw [words, pieces_append_cons huncut htop hblank, List.filter_cons_of_pos (by simp [hne])]
  rfl

/-- A text that ends at the top does not touch the pieces behind the next separator. -/
theorem pieces_append_of_run (hplain : ∀ d, cut d = true → Nesting.isPlain d = true)
    (hrun : nesting.run first = .top) (hcut : cut c = true) (rest : List Char) :
    pieces cut nesting (first ++ c :: rest) = pieces cut nesting first ++ pieces cut .top rest := by
  induction first generalizing nesting with
  | nil =>
      have htop : nesting = .top := hrun
      have hc : (Nesting.top.isTop && cut c) = true := by rw [hcut]; rfl
      rw [htop, List.nil_append, pieces, pieces, if_pos hc]
      rfl
  | cons d others ih =>
      rw [List.cons_append, pieces, pieces]
      split
      · rename_i hd
        obtain ⟨htop, hd⟩ := (Bool.and_eq_true _ _).mp hd
        obtain rfl := Nesting.eq_top_of_isTop htop
        rw [Nesting.run_cons, Nesting.step_top (hplain d hd)] at hrun
        rw [ih hrun, List.cons_append]
      · obtain ⟨piece, pieces, hpieces⟩ :=
          List.exists_cons_of_ne_nil (pieces_ne_nil cut (nesting.step d) others)
        rw [ih hrun, hpieces]
        rfl

theorem words_append_of_run (hrun : Nesting.top.run first = .top) (hblank : isBlank c = true)
    (rest : List Char) : words (first ++ c :: rest) = words first ++ words rest := by
  rw [words, pieces_append_of_run (fun _ => Nesting.isPlain_of_isBlank) hrun hblank,
    List.filter_append]
  rfl

theorem words_cons_of_blank (hblank : isBlank c = true) (text : List Char) :
    words (c :: text) = words text :=
  words_append_of_run (Nesting.run_nil .top) hblank text

theorem dropWord_append_cons (huncut : Uncut isBlank nesting first)
    (htop : nesting.run first = .top) (hblank : isBlank c = true) (rest : List Char) :
    dropWord nesting (first ++ c :: rest) = c :: rest := by
  induction first generalizing nesting with
  | nil =>
      have htop : nesting = .top := htop
      rw [htop, List.nil_append, dropWord, hblank]
      rfl
  | cons d others ih =>
      obtain ⟨hkeep, hothers⟩ := huncut
      rw [List.cons_append, dropWord, hkeep, ih hothers htop]
      rfl

theorem afterWords_cons_of_blank (hblank : isBlank c = true) (count : Nat) (text : List Char) :
    afterWords count (c :: text) = afterWords count text := by
  have hskip : trimStart (c :: text) = trimStart text := by
    rw [trimStart, List.dropWhile_cons_of_pos hblank, ← trimStart]
  cases count with
  | zero => rw [afterWords, afterWords, hskip]
  | succ count => rw [afterWords, afterWords, hskip]

/-- A word and the blank behind it are stepped over. -/
theorem afterWords_append_cons (huncut : Uncut isBlank .top first)
    (htop : Nesting.top.run first = .top) (hne : first ≠ []) (hblank : isBlank c = true)
    (count : Nat) (rest : List Char) :
    afterWords (count + 1) (first ++ c :: rest) = afterWords count rest := by
  have hdrop := dropWord_append_cons huncut htop hblank rest
  cases first with
  | nil => exact absurd rfl hne
  | cons d others =>
      have hd : isBlank d = false := huncut.1
      have hstart : trimStart (d :: others ++ c :: rest) = d :: (others ++ c :: rest) :=
        trimStart_eq_self fun e he => by
          cases he
          exact hd
      rw [afterWords, hstart]
      show afterWords count (dropWord .top (d :: others ++ c :: rest)) = _
      rw [hdrop, afterWords_cons_of_blank hblank]

theorem Uncut.dropWord (huncut : Uncut cut nesting text) :
    Uncut cut .top (dropWord nesting text) := by
  induction text generalizing nesting with
  | nil => trivial
  | cons c rest ih =>
      rw [Chars.dropWord]
      split
      · rename_i hstop
        obtain ⟨htop, -⟩ := (Bool.and_eq_true _ _).mp hstop
        rwa [Nesting.eq_top_of_isTop htop] at huncut
      · exact ih huncut.2

/-- What follows some words of an uncut text is uncut. -/
theorem Uncut.afterWords (huncut : Uncut cut .top text) (count : Nat) :
    Uncut cut .top (afterWords count text) := by
  induction count generalizing text with
  | zero => exact huncut.trimStart
  | succ count ih =>
      have hstart := huncut.trimStart
      rw [Chars.afterWords]
      split
      · trivial
      · rename_i c rest hrest
        rw [hrest] at hstart
        exact ih hstart.dropWord

/-- An uncut text has no parenthesis at the top to break it. -/
theorem breakAt_of_uncut {target : Char} (huncut : Uncut (· == target) nesting text) :
    breakAt target nesting text = none := by
  induction text generalizing nesting with
  | nil => rfl
  | cons c rest ih =>
      obtain ⟨hkeep, hrest⟩ := huncut
      rw [breakAt, hkeep, ih hrest]
      rfl

/-- A word without a group at the top is all head. -/
theorem head_of_uncut (huncut : Uncut (· == '(') .top text) : head text = text := by
  rw [head, call, breakAt_of_uncut huncut]

/-! ## The first stop of a scan -/

/-- The text before and behind the first character at which a scan stops. -/
def breakWhere (stop : Nesting → Char → Bool) :
    Nesting → List Char → Option (List Char × List Char)
  | _, [] => none
  | nesting, c :: rest =>
      if stop nesting c then some ([], rest)
      else (breakWhere stop (nesting.step c) rest).map
        fun (before, behind) => (c :: before, behind)

/-- A text is what stands before the first stop, the character there, and what is behind. -/
theorem exists_of_breakWhere {stop : Nesting → Char → Bool} {before behind : List Char}
    (hbreak : breakWhere stop nesting text = some (before, behind)) :
    ∃ c, text = before ++ c :: behind ∧ stop (nesting.run before) c = true := by
  induction text generalizing nesting before with
  | nil => cases hbreak
  | cons c rest ih =>
      rw [breakWhere] at hbreak
      split at hbreak
      · rename_i hstop
        cases hbreak
        exact ⟨c, rfl, hstop⟩
      · obtain ⟨⟨others, after⟩, hothers, hpair⟩ := Option.map_eq_some_iff.mp hbreak
        cases hpair
        obtain ⟨d, rfl, hstop⟩ := ih hothers
        exact ⟨d, rfl, hstop⟩

theorem breakAt_eq_breakWhere (target : Char) (nesting : Nesting) (text : List Char) :
    breakAt target nesting text =
      breakWhere (fun nesting c => nesting.isTop && c == target) nesting text := by
  induction text generalizing nesting with
  | nil => rfl
  | cons c rest ih => rw [breakAt, breakWhere, ih]

theorem breakAtClose_eq_breakWhere (nesting : Nesting) (text : List Char) :
    breakAtClose nesting text = breakWhere
      (fun nesting c => c == ')' && nesting.quote.isNone && (nesting.step c).isTop)
      nesting text := by
  induction text generalizing nesting with
  | nil => rfl
  | cons c rest ih => rw [breakAtClose, breakWhere, ih]

theorem eq_of_breakAt {target : Char} {before behind : List Char}
    (hbreak : breakAt target nesting text = some (before, behind)) :
    text = before ++ target :: behind := by
  rw [breakAt_eq_breakWhere] at hbreak
  obtain ⟨c, rfl, hstop⟩ := exists_of_breakWhere hbreak
  rw [eq_of_beq ((Bool.and_eq_true _ _).mp hstop).2]

theorem eq_of_breakAtClose {inside behind : List Char}
    (hclose : breakAtClose nesting text = some (inside, behind)) :
    text = inside ++ ')' :: behind := by
  rw [breakAtClose_eq_breakWhere] at hclose
  obtain ⟨c, rfl, hstop⟩ := exists_of_breakWhere hclose
  simp only [Bool.and_eq_true, beq_iff_eq] at hstop
  rw [hstop.1.1]

/-- The text in front of the first target at the top has no target there and ends at the top. -/
theorem uncut_of_breakAt_eq_some {target : Char} {before behind : List Char}
    (hbreak : breakAt target nesting text = some (before, behind)) :
    Uncut (· == target) nesting before ∧ nesting.run before = .top := by
  induction text generalizing nesting before with
  | nil => cases hbreak
  | cons c others ih =>
      rw [breakAt] at hbreak
      split at hbreak
      · rename_i hfound
        cases hbreak
        exact ⟨trivial, Nesting.eq_top_of_isTop ((Bool.and_eq_true _ _).mp hfound).1⟩
      · rename_i hother
        obtain ⟨⟨rest, after⟩, hrest, hpair⟩ := Option.map_eq_some_iff.mp hbreak
        cases hpair
        obtain ⟨huncut, hrun⟩ := ih hrest
        exact ⟨⟨Bool.eq_false_iff.mpr hother, huncut⟩, hrun⟩

theorem uncut_of_breakAt_eq_none {target : Char}
    (hbreak : breakAt target nesting text = none) : Uncut (· == target) nesting text := by
  induction text generalizing nesting with
  | nil => trivial
  | cons c others ih =>
      rw [breakAt] at hbreak
      split at hbreak
      · cases hbreak
      · rename_i hother
        exact ⟨Bool.eq_false_iff.mpr hother, ih (Option.map_eq_none_iff.mp hbreak)⟩

/-- The head of a word is its beginning. -/
theorem head_beginning (word : List Char) : head word <+: word := by
  rw [head, call]
  split
  · exact List.prefix_refl word
  · rename_i before behind hbreak
    split
    · exact List.prefix_refl word
    · rw [eq_of_breakAt hbreak]
      exact (trimEnd_beginning before).trans (List.prefix_append _ _)

/-! ## Parts of a text -/

/-- The first piece is a beginning of the text. -/
theorem pieces_beginning {piece : List Char} {others : List (List Char)}
    (hpieces : pieces cut nesting text = piece :: others) : piece <+: text := by
  induction text generalizing nesting piece others with
  | nil =>
      cases hpieces
      exact List.prefix_refl []
  | cons c rest ih =>
      rw [pieces] at hpieces
      split at hpieces
      · cases hpieces
        exact List.nil_prefix
      · obtain ⟨leading, behind, hrest⟩ :=
          List.exists_cons_of_ne_nil (pieces_ne_nil cut (nesting.step c) rest)
        rw [hrest] at hpieces
        cases hpieces
        exact List.cons_prefix_cons.mpr ⟨rfl, ih hrest⟩

/-- The pieces stand in the text. -/
theorem infix_of_mem_pieces {piece : List Char} (hpiece : piece ∈ pieces cut nesting text) :
    piece <:+: text := by
  induction text generalizing nesting piece with
  | nil => exact List.mem_singleton.mp hpiece ▸ List.infix_rfl
  | cons c rest ih =>
      obtain ⟨first, others, hpieces⟩ :=
        List.exists_cons_of_ne_nil (pieces_ne_nil cut nesting (c :: rest))
      rw [hpieces] at hpiece
      rcases List.mem_cons.mp hpiece with rfl | hother
      · exact (pieces_beginning hpieces).isInfix
      -- Every other piece stands behind the first character.
      rw [pieces] at hpieces
      split at hpieces
      · cases hpieces
        exact List.infix_cons (ih hother)
      · obtain ⟨leading, behind, hrest⟩ :=
          List.exists_cons_of_ne_nil (pieces_ne_nil cut (nesting.step c) rest)
        rw [hrest] at hpieces
        cases hpieces
        exact List.infix_cons (ih (hrest ▸ List.mem_cons_of_mem leading hother))

theorem infix_trim (text : List Char) : trim text <:+: text :=
  (trimEnd_beginning (trimStart text)).isInfix.trans (List.dropWhile_suffix isBlank).isInfix

/-! ## Lengths -/

theorem length_trim_le (text : List Char) : (trim text).length ≤ text.length :=
  (infix_trim text).length_le

/-- A clause is no longer than the text. -/
theorem length_le_of_mem_split {separator : Char} {clause : List Char}
    (hclause : clause ∈ split separator text) : clause.length ≤ text.length := by
  obtain ⟨piece, hpiece, rfl⟩ := List.mem_map.mp (List.mem_filter.mp hclause).1
  exact Nat.le_trans (length_trim_le piece) (infix_of_mem_pieces hpiece).length_le

theorem dropWord_ending (nesting : Nesting) (text : List Char) :
    dropWord nesting text <:+ text := by
  induction text generalizing nesting with
  | nil => exact List.suffix_refl []
  | cons c rest ih =>
      rw [dropWord]
      split
      · exact List.suffix_refl _
      · exact (ih _).trans (List.suffix_cons c rest)

theorem afterWords_ending (count : Nat) (text : List Char) : afterWords count text <:+ text := by
  induction count generalizing text with
  | zero => exact List.dropWhile_suffix isBlank
  | succ count ih =>
      have hstart : trimStart text <:+ text := List.dropWhile_suffix isBlank
      rw [afterWords]
      split
      · exact List.nil_suffix
      · rename_i c rest hrest
        rw [hrest] at hstart
        exact ((ih _).trans (dropWord_ending _ _)).trans hstart

/-- Behind a word there is less text. -/
theorem length_afterWords_lt (hne : text ≠ []) (count : Nat) :
    (afterWords (count + 1) text).length < text.length := by
  have hstart : (trimStart text).length ≤ text.length := (List.dropWhile_suffix isBlank).length_le
  rw [afterWords]
  split
  · exact List.length_pos_iff.mpr hne
  · rename_i c rest hrest
    have hc : isBlank c = false := head?_trimStart text (by rw [hrest]; rfl)
    have hdrop : dropWord .top (c :: rest) = dropWord (Nesting.top.step c) rest := by
      rw [dropWord, if_neg (by simp [hc])]
    have hafter := (afterWords_ending count (dropWord .top (c :: rest))).length_le
    have hword := (dropWord_ending (Nesting.top.step c) rest).length_le
    rw [hdrop] at hafter ⊢
    rw [hrest, List.length_cons] at hstart
    omega

end Chars

end Schemata
