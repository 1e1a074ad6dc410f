import Mathlib.Data.List.Basic
import Schemata.Proofs.Text.Scanning
import Schemata.Text.Quoted

/-!
# Texts that close what they open

A text is *balanced* when a scan of it ends with as much open as it started with and never closes a
group that was open before it (`Chars.Balanced`).  It is *whole* when besides no blank and no comma
stands at its top (`Chars.Whole`), so that it stays in one piece wherever it is written.  Both are
kept when texts are put behind one another.

A scan that starts inside a group passes a balanced text as one that starts outside of all groups
does, which is why balance is asked at every depth.  Whatever is written in quotes is balanced,
since the quotes keep the brackets inside from counting; so is a group around a balanced text.
Texts that are put together from names, literals and groups are balanced by these facts alone.

* `Chars.closeGroup_append`: a group around a balanced text is found again.
* `Chars.words_intercalate`: words that are whole are read off the text that joins them.
* `Chars.split_intercalate`: and so are clauses off the text that lists them.
-/

namespace Schemata

namespace Chars

variable {cut : Char → Bool} {nesting : Nesting} {first text inside : List Char} {c : Char}

/-- A text between two quotes, with the quotes in it doubled. -/
def quoted (quote : Char) (text : List Char) : List Char :=
  quote :: (double quote text ++ [quote])

/-- A quoted text is scanned without a cut, and the quote behind it closes it. -/
theorem uncut_double {quote : Char} (hquote : Nesting.isQuote quote = true) {depth : Nat}
    (hcut : (Nesting.isTop ⟨none, depth⟩ && cut quote) = false) (text : List Char) :
    Uncut cut ⟨some quote, depth⟩ (double quote text ++ [quote]) ∧
      Nesting.run ⟨some quote, depth⟩ (double quote text ++ [quote]) = ⟨none, depth⟩ := by
  have hclose : Nesting.step ⟨some quote, depth⟩ quote = ⟨none, depth⟩ := by
    simp [Nesting.step]
  have hopen : Nesting.step ⟨none, depth⟩ quote = ⟨some quote, depth⟩ := by
    simp [Nesting.step, hquote]
  induction text with
  | nil => exact ⟨⟨rfl, trivial⟩, hclose⟩
  | cons c rest ih =>
      rw [double]
      split
      · rename_i hc
        obtain rfl : c = quote := by simpa using hc
        -- The first of the two quotes closes and the second opens again.
        rw [List.cons_append, List.cons_append, Nesting.run_cons, Nesting.run_cons, hclose, hopen]
        refine ⟨⟨rfl, ?_⟩, ih.2⟩
        rw [hclose]
        refine ⟨hcut, ?_⟩
        rw [hopen]
        exact ih.1
      · rename_i hc
        have hstep : Nesting.step ⟨some quote, depth⟩ c = ⟨some quote, depth⟩ := by
          simp [Nesting.step, hc]
        rw [List.cons_append, Nesting.run_cons, hstep]
        refine ⟨⟨rfl, ?_⟩, ih.2⟩
        rw [hstep]
        exact ih.1

/-! ## Balanced texts -/

/-- A scan of the text ends where it started, and stays inside of a group that it started in. -/
structure Balanced (text : List Char) : Prop where
  run_eq : ∀ depth, Nesting.run ⟨none, depth⟩ text = ⟨none, depth⟩
  inside : ∀ depth, Uncut (fun _ => true) ⟨none, depth + 1⟩ text

theorem Uncut.mono {other : Char → Bool} (huncut : Uncut cut nesting text)
    (hother : ∀ c, other c = true → cut c = true) : Uncut other nesting text := by
  induction text generalizing nesting with
  | nil => trivial
  | cons c rest ih =>
      obtain ⟨hkeep, hrest⟩ := huncut
      refine ⟨?_, ih hrest⟩
      cases htop : nesting.isTop with
      | false => rfl
      | true =>
          rw [htop, Bool.true_and] at hkeep
          rw [Bool.true_and, Bool.eq_false_iff]
          intro hc
          rw [hother c hc] at hkeep
          cases hkeep

theorem Balanced.uncut (hbalanced : Balanced text) (cut : Char → Bool) (depth : Nat) :
    Uncut cut ⟨none, depth + 1⟩ text :=
  (hbalanced.inside depth).mono fun _ _ => rfl

theorem balanced_nil : Balanced [] :=
  ⟨fun _ => rfl, fun _ => trivial⟩

theorem Balanced.append {second : List Char} (hfirst : Balanced first) (hsecond : Balanced second) :
    Balanced (first ++ second) := by
  constructor
  · intro depth
    rw [Nesting.run_append, hfirst.run_eq, hsecond.run_eq]
  · intro depth
    rw [uncut_append, hfirst.run_eq]
    exact ⟨hfirst.inside depth, hsecond.inside depth⟩

theorem balanced_singleton (hplain : Nesting.isPlain c = true) : Balanced [c] := by
  constructor
  · intro depth
    exact Nesting.step_plain hplain depth
  · intro depth
    exact ⟨rfl, trivial⟩

theorem balanced_of_plain (hplain : ∀ c ∈ text, Nesting.isPlain c = true) : Balanced text := by
  induction text with
  | nil => exact balanced_nil
  | cons c rest ih =>
      have hrest := ih fun d hd => hplain d (List.mem_cons_of_mem c hd)
      exact (balanced_singleton (hplain c List.mem_cons_self)).append hrest

theorem balanced_quoted {quote : Char} (hquote : Nesting.isQuote quote = true)
    (text : List Char) : Balanced (quoted quote text) := by
  have hopen : ∀ depth, Nesting.step ⟨none, depth⟩ quote = ⟨some quote, depth⟩ := by
    intro depth
    simp [Nesting.step, hquote]
  constructor
  · intro depth
    have hscan : Uncut (fun _ => false) ⟨some quote, depth⟩ (double quote text ++ [quote]) ∧ _ :=
      uncut_double hquote (Bool.and_false _) text
    rw [quoted, Nesting.run_cons, hopen]
    exact hscan.2
  · intro depth
    refine ⟨rfl, ?_⟩
    rw [hopen]
    exact (uncut_double hquote rfl text).1

/-- A group around a balanced text is balanced. -/
theorem Balanced.group {opening closing : Char} (hopening : Nesting.opensGroup opening = true)
    (hclosing : Nesting.closesGroup closing = true) (hinside : Balanced inside) :
    Balanced (opening :: (inside ++ [closing])) := by
  have hopen : ∀ depth, Nesting.step ⟨none, depth⟩ opening = ⟨none, depth + 1⟩ := by
    intro depth
    have hquote : Nesting.isQuote opening = false := by
      simp only [Nesting.opensGroup, Bool.or_eq_true, beq_iff_eq] at hopening
      rcases hopening with rfl | rfl <;> decide
    simp [Nesting.step, hquote, hopening]
  have hclose : ∀ depth, Nesting.step ⟨none, depth + 1⟩ closing = ⟨none, depth⟩ := by
    intro depth
    simp only [Nesting.closesGroup, Bool.or_eq_true, beq_iff_eq] at hclosing
    rcases hclosing with rfl | rfl <;> rfl
  constructor
  · intro depth
    rw [Nesting.run_cons, Nesting.run_append, hopen, hinside.run_eq]
    exact hclose depth
  · intro depth
    refine ⟨rfl, ?_⟩
    rw [hopen, uncut_append, hinside.run_eq]
    exact ⟨hinside.inside (depth + 1), rfl, trivial⟩

/-! ## Groups -/

/-- A group is not closed inside of a text that stays inside. -/
theorem breakAtClose_append (hinside : Uncut (fun _ => true) nesting text)
    (hrun : (nesting.run text).isTop = false) (rest : List Char) :
    breakAtClose nesting (text ++ rest) = (breakAtClose (nesting.run text) rest).map
      fun (before, behind) => (text ++ before, behind) := by
  induction text generalizing nesting with
  | nil => simp
  | cons c others ih =>
      obtain ⟨-, hothers⟩ := hinside
      have hnot : (nesting.step c).isTop = false := by
        cases others with
        | nil => exact hrun
        | cons d more =>
            have hd := hothers.1
            rwa [Bool.and_true] at hd
      rw [List.cons_append, breakAtClose, hnot, Bool.and_false, ih hothers hrun, Nesting.run_cons]
      cases breakAtClose ((nesting.step c).run others) rest with
      | none => simp
      | some found => simp

/-- The group around a balanced text holds it. -/
theorem closeGroup_append (hinside : Balanced inside) (rest : List Char) :
    closeGroup (inside ++ ')' :: rest) = some (inside, rest) := by
  have hrun := hinside.run_eq 1
  show breakAtClose ⟨none, 1⟩ (inside ++ ')' :: rest) = _
  rw [breakAtClose_append (hinside.inside 0) (by rw [hrun]; rfl), hrun]
  simp [breakAtClose, Nesting.step, Nesting.isTop, Nesting.isQuote, Nesting.opensGroup,
    Nesting.closesGroup]

theorem breakAt_append_cons {target : Char} (huncut : Uncut (· == target) nesting first)
    (htop : nesting.run first = .top) (rest : List Char) :
    breakAt target nesting (first ++ target :: rest) = some (first, rest) := by
  induction first generalizing nesting with
  | nil =>
      have htop : nesting = .top := htop
      rw [htop, List.nil_append, breakAt, beq_self_eq_true]
      rfl
  | cons d others ih =>
      obtain ⟨hkeep, hrest⟩ := huncut
      rw [List.cons_append, breakAt, hkeep, ih hrest htop]
      rfl

/-- A word with a group around a balanced text is taken apart. -/
theorem call_group (huncut : Uncut (· == '(') .top first) (htop : Nesting.top.run first = .top)
    (hinside : Balanced inside) (rest : List Char) :
    call (first ++ '(' :: (inside ++ ')' :: rest)) = (trimEnd first, some inside) := by
  rw [call, breakAt_append_cons huncut htop]
  dsimp only
  rw [closeGroup_append hinside]

/-! ## Whole texts -/

/-- Words and clauses are separated by blanks and commas. -/
def isSeparator (c : Char) : Bool :=
  isBlank c || c == ','

/-- A balanced text without a separator at the top or a blank at an end. -/
structure Whole (text : List Char) : Prop extends Balanced text, Trimmed text where
  uncut : Uncut isSeparator .top text

theorem Balanced.run_top (hbalanced : Balanced text) : Nesting.top.run text = .top :=
  hbalanced.run_eq 0

theorem Trimmed.append {second : List Char} (hfirst : Trimmed first) (hsecond : Trimmed second) :
    Trimmed (first ++ second) := by
  constructor
  · intro c hc
    cases first with
    | nil => exact hsecond.head c hc
    | cons d others => exact hfirst.head c hc
  · intro c hc
    by_cases hne : second = []
    · rw [hne, List.append_nil] at hc
      exact hfirst.last c hc
    · rw [List.getLast?_append_of_ne_nil _ hne] at hc
      exact hsecond.last c hc

/-- What stands between two trimmed texts does not matter. -/
theorem Trimmed.around {second : List Char} (hfirst : Trimmed first) (hsecond : Trimmed second)
    (hfirstNe : first ≠ []) (hsecondNe : second ≠ []) (middle : List Char) :
    Trimmed (first ++ middle ++ second) := by
  constructor
  · intro c hc
    obtain ⟨d, others, rfl⟩ := List.exists_cons_of_ne_nil hfirstNe
    exact hfirst.head c hc
  · intro c hc
    rw [List.getLast?_append_of_ne_nil _ hsecondNe] at hc
    exact hsecond.last c hc

theorem Whole.append {second : List Char} (hfirst : Whole first) (hsecond : Whole second) :
    Whole (first ++ second) := by
  refine ⟨hfirst.toBalanced.append hsecond.toBalanced,
    hfirst.toTrimmed.append hsecond.toTrimmed, ?_⟩
  rw [uncut_append, hfirst.run_top]
  exact ⟨hfirst.uncut, hsecond.uncut⟩

theorem Whole.uncut_blank (hwhole : Whole text) : Uncut isBlank .top text :=
  hwhole.uncut.mono fun c hc => by simp [isSeparator, hc]

theorem Whole.uncut_comma (hwhole : Whole text) : Uncut (· == ',') .top text :=
  hwhole.uncut.mono fun c hc => by simp [isSeparator, hc]

theorem whole_of_plain (hplain : ∀ c ∈ text, Nesting.isPlain c = true)
    (hseparator : ∀ c ∈ text, isSeparator c = false) : Whole text := by
  have hblank : ∀ c ∈ text, isBlank c = false := fun c hc =>
    (Bool.or_eq_false_iff.mp (hseparator c hc)).1
  exact ⟨balanced_of_plain hplain, ⟨fun c hc => hblank c (List.mem_of_mem_head? hc),
    fun c hc => hblank c (List.mem_of_getLast? hc)⟩, uncut_of_plain hplain hseparator⟩

/-- A text between two characters that are no blanks is trimmed. -/
theorem trimmed_between {opening closing : Char} (hopening : isBlank opening = false)
    (hclosing : isBlank closing = false) (text : List Char) :
    Trimmed (opening :: (text ++ [closing])) := by
  constructor
  · intro c hc
    cases hc
    exact hopening
  · intro c hc
    rw [← List.cons_append, List.getLast?_concat] at hc
    cases hc
    exact hclosing

theorem whole_quoted {quote : Char} (hquote : Nesting.isQuote quote = true)
    (text : List Char) : Whole (quoted quote text) := by
  have hseparator : isSeparator quote = false := by
    simp only [Nesting.isQuote, Bool.or_eq_true, beq_iff_eq] at hquote
    rcases hquote with (rfl | rfl) | rfl <;> decide
  have hblank : isBlank quote = false := (Bool.or_eq_false_iff.mp hseparator).1
  refine ⟨balanced_quoted hquote text, trimmed_between hblank hblank _, ?_, ?_⟩
  · rw [hseparator, Bool.and_false]
  · have hopen : Nesting.top.step quote = ⟨some quote, 0⟩ := by
      simp [Nesting.step, Nesting.top, hquote]
    rw [hopen]
    exact (uncut_double hquote (by rw [hseparator, Bool.and_false]) text).1

/-- A group around a balanced text is whole, whatever separators stand in it. -/
theorem Balanced.whole_group (hinside : Balanced inside) : Whole ('(' :: (inside ++ [')'])) := by
  refine ⟨hinside.group rfl rfl, trimmed_between (by decide) (by decide) inside, rfl, ?_⟩
  show Uncut isSeparator ⟨none, 1⟩ (inside ++ [')'])
  rw [uncut_append, hinside.run_eq]
  exact ⟨hinside.uncut isSeparator 0, rfl, trivial⟩

/-! ## Texts put together -/

theorem balanced_intercalate {separator : List Char} {texts : List (List Char)}
    (hseparator : Balanced separator) (htexts : ∀ text ∈ texts, Balanced text) :
    Balanced (separator.intercalate texts) := by
  induction texts with
  | nil => exact balanced_nil
  | cons text rest ih =>
      have htext : Balanced text := htexts text List.mem_cons_self
      have hrest := ih fun other hother => htexts other (List.mem_cons_of_mem text hother)
      cases rest with
      | nil =>
          rw [List.intercalate_singleton]
          exact htext
      | cons next others =>
          rw [List.intercalate_cons_cons]
          exact (htext.append hseparator).append hrest

/-- A text that can be a word: whole and not empty. -/
structure IsWord (word : List Char) : Prop extends Whole word where
  ne_nil : word ≠ []

/-- A text that can be one clause of a list. -/
structure IsListed (clause : List Char) : Prop extends Balanced clause, Trimmed clause where
  uncut : Uncut (· == ',') .top clause
  ne_nil : clause ≠ []

/-- A text that can stand between two commas of a list. -/
structure IsEntry (text : List Char) : Prop extends Balanced text where
  uncut : Uncut (· == ',') .top text

/-- A text that can be one clause of a list with blanks around it or not. -/
structure IsItem (text : List Char) : Prop extends Balanced text where
  uncut : Uncut (· == ',') .top text
  trim_ne_nil : trim text ≠ []

theorem IsListed.isItem {clause : List Char} (hclause : IsListed clause) : IsItem clause :=
  ⟨hclause.toBalanced, hclause.uncut, hclause.toTrimmed.trim_eq.symm ▸ hclause.ne_nil⟩

theorem IsItem.isEntry (hitem : IsItem text) : IsEntry text :=
  ⟨hitem.toBalanced, hitem.uncut⟩

theorem IsWord.isListed {word : List Char} (hword : IsWord word) : IsListed word :=
  ⟨hword.toBalanced, hword.toTrimmed, hword.uncut_comma, hword.ne_nil⟩

theorem IsWord.words_eq {word : List Char} (hword : IsWord word) : words word = [word] := by
  rw [words, pieces_of_uncut hword.uncut_blank]
  simp [hword.ne_nil]

/-- The words of texts that are joined by spaces are their words one after the other. -/
theorem words_intercalate_of_balanced {texts : List (List Char)}
    (htexts : ∀ text ∈ texts, Balanced text) :
    words ([' '].intercalate texts) = texts.flatMap words := by
  induction texts with
  | nil => rfl
  | cons text rest ih =>
      have htext : Balanced text := htexts text List.mem_cons_self
      have hrest := ih fun other hother => htexts other (List.mem_cons_of_mem text hother)
      cases rest with
      | nil => rw [List.intercalate_singleton, List.flatMap_singleton]
      | cons next others =>
          rw [List.intercalate_cons_cons, List.append_assoc, List.singleton_append,
            words_append_of_run htext.run_top rfl, hrest]
          rfl

/-- The words are read off the text that joins them by spaces. -/
theorem words_intercalate {list : List (List Char)} (hwords : ∀ word ∈ list, IsWord word) :
    words ([' '].intercalate list) = list := by
  have hsingle : list.flatMap words = list.flatMap fun word => [word] :=
    List.flatMap_congr fun word hword => (hwords word hword).words_eq
  rw [words_intercalate_of_balanced fun word hword => (hwords word hword).toBalanced, hsingle]
  simp

/-- Parts of a clause that are joined make one clause. -/
theorem isListed_intercalate {list : List (List Char)} (hlist : ∀ part ∈ list, IsListed part)
    (hne : list ≠ []) : IsListed ([' '].intercalate list) := by
  induction list with
  | nil => exact absurd rfl hne
  | cons part rest ih =>
      obtain ⟨hpart, hothers⟩ := List.forall_mem_cons.mp hlist
      cases rest with
      | nil =>
          rw [List.intercalate_singleton]
          exact hpart
      | cons next others =>
          have hrest := ih hothers (List.cons_ne_nil next others)
          have hspace : Balanced [' '] := balanced_singleton rfl
          rw [List.intercalate_cons_cons]
          refine ⟨(hpart.toBalanced.append hspace).append hrest.toBalanced,
            hpart.toTrimmed.around hrest.toTrimmed hpart.ne_nil hrest.ne_nil _, ?_,
            List.append_ne_nil_of_right_ne_nil _ hrest.ne_nil⟩
          rw [List.append_assoc, uncut_append, hpart.run_top]
          exact ⟨hpart.uncut, rfl, hrest.uncut⟩

/-- A comma and the spaces behind it. -/
theorem balanced_comma (spaces : Nat) : Balanced (',' :: List.replicate spaces ' ') := by
  refine balanced_of_plain fun c hc => ?_
  rcases List.mem_cons.mp hc with rfl | hc
  · decide
  · obtain rfl := List.eq_of_mem_replicate hc
    decide

theorem split_append_of_blank {blanks : List Char} (hblanks : ∀ c ∈ blanks, isBlank c = true)
    (text : List Char) : split ',' (blanks ++ text) = split ',' text := by
  induction blanks with
  | nil => rfl
  | cons c rest ih =>
      have hc : isBlank c = true := hblanks c List.mem_cons_self
      have hcomma : (c == ',') = false := by
        refine beq_false_of_ne ?_
        rintro rfl
        cases hc
      rw [← ih fun d hd => hblanks d (List.mem_cons_of_mem c hd), List.cons_append, split, split,
        pieces, hcomma, Bool.and_false, Nesting.step_top (Nesting.isPlain_of_isBlank hc)]
      obtain ⟨piece, others, hpieces, -⟩ := uncut_pieces (· == ',') .top (rest ++ text)
      have htrim : trim (c :: piece) = trim piece := by
        rw [trim, trim, trimStart, List.dropWhile_cons_of_pos hc, ← trimStart]
      rw [hpieces]
      simp [htrim]

/-- The clauses of a list are the listed texts without the blanks around them. -/
theorem split_intercalate_of_uncut {blanks : List Char} {clauses : List (List Char)}
    (hblanks : ∀ c ∈ blanks, isBlank c = true)
    (hclauses : ∀ clause ∈ clauses, Uncut (· == ',') .top clause)
    (hruns : ∀ clause ∈ clauses, Nesting.top.run clause = .top) :
    split ',' ((',' :: blanks).intercalate clauses) = (clauses.map trim).filter (! ·.isEmpty) := by
  induction clauses with
  | nil => rfl
  | cons clause rest ih =>
      obtain ⟨hclause, hothers⟩ := List.forall_mem_cons.mp hclauses
      obtain ⟨hrun, hothersRun⟩ := List.forall_mem_cons.mp hruns
      have hrest := ih hothers hothersRun
      cases rest with
      | nil => rw [List.intercalate_singleton, split, pieces_of_uncut hclause]
      | cons next others =>
          rw [← split_append_of_blank hblanks, split] at hrest
          have hmap : (clause :: next :: others).map trim =
              trim clause :: (next :: others).map trim :=
            List.map_cons
          rw [hmap, List.intercalate_cons_cons, List.append_assoc, List.cons_append, split,
            pieces_append_cons hclause hrun rfl, List.map_cons, List.filter_cons, hrest,
            List.filter_cons]

/-- The clauses are read off the text that lists them, with any blanks behind the commas. -/
theorem split_intercalate {blanks : List Char} {clauses : List (List Char)}
    (hblanks : ∀ c ∈ blanks, isBlank c = true) (hclauses : ∀ clause ∈ clauses, IsListed clause) :
    split ',' ((',' :: blanks).intercalate clauses) = clauses := by
  have htrim : clauses.map trim = clauses :=
    (List.map_congr_left fun clause hclause => (hclauses clause hclause).toTrimmed.trim_eq).trans
      (List.map_id clauses)
  rw [split_intercalate_of_uncut hblanks (fun clause hclause => (hclauses clause hclause).uncut)
    (fun clause hclause => (hclauses clause hclause).run_top), htrim, List.filter_eq_self]
  intro clause hclause
  simpa using (hclauses clause hclause).ne_nil

/-! ## Blanks at the ends -/

/-- A scan from the start is never inside a quote that a blank would close. -/
theorem isBlank_of_mem_quote_run {nesting : Nesting}
    (hquote : ∀ q ∈ nesting.quote, isBlank q = false) (text : List Char) :
    ∀ q ∈ (nesting.run text).quote, isBlank q = false := by
  induction text generalizing nesting with
  | nil => exact hquote
  | cons c rest ih =>
      refine ih fun q hq => ?_
      unfold Nesting.step at hq
      have hopen : Nesting.isQuote c = true → isBlank c = false := by
        intro hc
        simp only [Nesting.isQuote, Bool.or_eq_true, beq_iff_eq] at hc
        rcases hc with (rfl | rfl) | rfl <;> decide
      grind

theorem run_of_blank {nesting : Nesting} (hquote : ∀ q ∈ nesting.quote, isBlank q = false)
    {blanks : List Char} (hblanks : ∀ c ∈ blanks, isBlank c = true) :
    nesting.run blanks = nesting := by
  induction blanks with
  | nil => rfl
  | cons c rest ih =>
      obtain ⟨hc, hrest⟩ := List.forall_mem_cons.mp hblanks
      have hstep : nesting.step c = nesting := by
        obtain ⟨quote, depth⟩ := nesting
        cases quote with
        | none => exact Nesting.step_plain (Nesting.isPlain_of_isBlank hc) depth
        | some q =>
            have hne : (c == q) = false := by
              refine beq_false_of_ne ?_
              rintro rfl
              rw [hquote c rfl] at hc
              cases hc
            simp [Nesting.step, hne]
      rw [Nesting.run_cons, hstep, ih hrest]

theorem words_append_of_blank {blanks : List Char} (hblanks : ∀ c ∈ blanks, isBlank c = true)
    (text : List Char) : words (blanks ++ text) = words text := by
  induction blanks with
  | nil => rfl
  | cons c rest ih =>
      obtain ⟨hc, hrest⟩ := List.forall_mem_cons.mp hblanks
      rw [List.cons_append, words_cons_of_blank hc, ih hrest]

/-- A text is what trimming leaves of it, with blanks around. -/
theorem exists_trim_append (text : List Char) : ∃ front dropped,
    text = front ++ trim text ++ dropped ∧ (∀ c ∈ front, isBlank c = true) ∧
      ∀ c ∈ dropped, isBlank c = true := by
  obtain ⟨dropped, hdropped, hblank⟩ := exists_append_dropped isBlank (trimStart text)
  refine ⟨text.takeWhile isBlank, dropped, ?_, List.all_eq_true.mp List.all_takeWhile, hblank⟩
  calc text = text.takeWhile isBlank ++ trimStart text := List.takeWhile_append_dropWhile.symm
    _ = text.takeWhile isBlank ++ (trim text ++ dropped) := congrArg _ hdropped
    _ = text.takeWhile isBlank ++ trim text ++ dropped := (List.append_assoc _ _ _).symm

/-- Blanks around a text open and close nothing. -/
theorem run_trim (text : List Char) : Nesting.top.run (trim text) = Nesting.top.run text := by
  obtain ⟨front, dropped, htext, hfront, hdropped⟩ := exists_trim_append text
  have hnone : ∀ q ∈ Nesting.top.quote, isBlank q = false :=
    fun q hq => absurd hq (Option.not_mem_none q)
  conv_rhs => rw [htext, Nesting.run_append, Nesting.run_append, run_of_blank hnone hfront,
    run_of_blank (isBlank_of_mem_quote_run hnone _) hdropped]

/-- Blanks around a text are not part of its words. -/
theorem words_trim (hrun : Nesting.top.run text = .top) : words (trim text) = words text := by
  obtain ⟨front, dropped, htext, hfront, hblank⟩ := exists_trim_append text
  have htop : Nesting.top.run (trim text) = .top := (run_trim text).trans hrun
  calc words (trim text) = words (trim text ++ dropped) := by
        cases dropped with
        | nil => rw [List.append_nil]
        | cons c rest =>
            obtain ⟨hc, hrest⟩ := List.forall_mem_cons.mp hblank
            have hnil := words_append_of_blank hrest []
            rw [List.append_nil] at hnil
            rw [words_append_of_run htop hc, hnil]
            exact (List.append_nil _).symm
    _ = words text := by
        conv_rhs => rw [htext, List.append_assoc, words_append_of_blank hfront]

end Chars

namespace Text

variable {list : List String}

theorem toList_unwords (list : List String) :
    (unwords list).toList = [' '].intercalate (list.map String.toList) := by
  have hspace : " ".toList = [' '] := by decide
  rw [unwords, String.toList_intercalate, hspace]

theorem words_unwords (hwords : ∀ word ∈ list, Chars.IsWord word.toList) :
    words (unwords list) = list := by
  rw [words, toList_unwords, Chars.words_intercalate (List.forall_mem_map.mpr hwords), List.map_map]
  simp

/-- Parts of a clause that are joined make one clause. -/
theorem isListed_unwords_of_parts (hlist : ∀ part ∈ list, Chars.IsListed part.toList)
    (hne : list ≠ []) : Chars.IsListed (unwords list).toList := by
  rw [toList_unwords]
  refine Chars.isListed_intercalate (List.forall_mem_map.mpr hlist) ?_
  simpa using hne

theorem isListed_unwords (hwords : ∀ word ∈ list, Chars.IsWord word.toList) (hne : list ≠ []) :
    Chars.IsListed (unwords list).toList :=
  isListed_unwords_of_parts (fun word hword => (hwords word hword).isListed) hne

/-- The text that joins words ends with the last of them. -/
theorem getLast?_unwords_concat (list : List String) {word : String} (hne : word.toList ≠ []) :
    (unwords (list ++ [word])).toList.getLast? = word.toList.getLast? := by
  rw [toList_unwords, List.map_append, List.map_singleton]
  induction list with
  | nil => rw [List.map_nil, List.nil_append, List.intercalate_singleton]
  | cons first rest ih =>
      have hrest : rest.map String.toList ++ [word.toList] ≠ [] :=
        List.append_ne_nil_of_right_ne_nil _ (List.cons_ne_nil _ _)
      rw [List.map_cons, List.cons_append, List.intercalate_cons_of_ne_nil hrest,
        List.getLast?_append, ih, List.getLast?_eq_some_getLast hne]
      rfl

/-- The text that joins words has no blank at either end. -/
theorem trimmed_unwords {first last : String} (hfirst : Chars.IsWord first.toList)
    (hlast : Chars.IsWord last.toList) (middle : List String) :
    Chars.Trimmed (unwords (first :: middle ++ [last])).toList := by
  constructor
  · intro c hc
    obtain ⟨d, others, hd⟩ := List.exists_cons_of_ne_nil hfirst.ne_nil
    have hrest : (middle ++ [last]).map String.toList ≠ [] := by simp
    rw [toList_unwords, List.cons_append, List.map_cons, List.intercalate_cons_of_ne_nil hrest,
      hd] at hc
    exact hfirst.toTrimmed.head c (hd ▸ hc)
  · intro c hc
    rw [getLast?_unwords_concat _ hlast.ne_nil] at hc
    exact hlast.toTrimmed.last c hc

theorem words_of_isWord {word : String} (hword : Chars.IsWord word.toList) :
    words word = [word] := by
  rw [words, hword.words_eq, List.map_singleton, String.ofList_toList]

theorem clauses_of_isListed {clause : String} (hclause : Chars.IsListed clause.toList) :
    clauses clause = [clause] := by
  rw [clauses, split, Chars.split_eq_singleton hclause.uncut hclause.toTrimmed hclause.ne_nil,
    List.map_singleton, String.ofList_toList]

theorem words_unwords_of_balanced (htexts : ∀ text ∈ list, Chars.Balanced text.toList) :
    words (unwords list) = list.flatMap words := by
  rw [words, toList_unwords,
    Chars.words_intercalate_of_balanced (List.forall_mem_map.mpr htexts), List.flatMap_map,
    List.map_flatMap]
  rfl

/-- The words of a text and of what follows it. -/
theorem words_unwords_cons_of_balanced {text : String} (htext : Chars.Balanced text.toList)
    (rest : List String) : words (unwords (text :: rest)) = words text ++ words (unwords rest) := by
  cases rest with
  | nil =>
      have hnil : words (unwords []) = [] := rfl
      rw [hnil, List.append_nil]
      rfl
  | cons next others =>
      have hne : (next :: others).map String.toList ≠ [] := by simp
      rw [words, toList_unwords, List.map_cons, List.intercalate_cons_of_ne_nil hne,
        List.append_assoc, List.singleton_append,
        Chars.words_append_of_run htext.run_top (by decide), List.map_append, ← toList_unwords]
      rfl

/-- Words in front of texts are the first of their words. -/
theorem words_unwords_words_append (hwords : ∀ word ∈ list, Chars.IsWord word.toList)
    (rest : List String) : words (unwords (list ++ rest)) = list ++ words (unwords rest) := by
  induction list with
  | nil => rfl
  | cons word others ih =>
      obtain ⟨hword, hothers⟩ := List.forall_mem_cons.mp hwords
      rw [List.cons_append, words_unwords_cons_of_balanced hword.toBalanced, ih hothers,
        words_of_isWord hword]
      rfl

/-- Words behind a text are its last words. -/
theorem words_unwords_append {text : String} (htext : Chars.Balanced text.toList)
    (hwords : ∀ word ∈ list, Chars.IsWord word.toList) :
    words (unwords (text :: list)) = words text ++ list := by
  rw [words_unwords_cons_of_balanced htext, words_unwords hwords]

/-! ## Lists and groups -/

/-- The clauses in a list, with some spaces behind each comma. -/
def listed (spaces : Nat) (clauses : List String) : String :=
  (String.ofList (',' :: List.replicate spaces ' ')).intercalate clauses

theorem toList_listed (spaces : Nat) (list : List String) : (listed spaces list).toList =
    (',' :: List.replicate spaces ' ').intercalate (list.map String.toList) := by
  rw [listed, String.toList_intercalate, String.toList_ofList]

theorem balanced_listed (spaces : Nat) (hlist : ∀ clause ∈ list, Chars.Balanced clause.toList) :
    Chars.Balanced (listed spaces list).toList := by
  rw [toList_listed]
  exact Chars.balanced_intercalate (Chars.balanced_comma spaces) (List.forall_mem_map.mpr hlist)

/-- The clauses are read off the list. -/
theorem clauses_listed (spaces : Nat) (hlist : ∀ clause ∈ list, Chars.IsListed clause.toList) :
    clauses (listed spaces list) = list := by
  have hspaces : ∀ c ∈ List.replicate spaces ' ', isBlank c = true := by
    intro c hc
    obtain rfl := List.eq_of_mem_replicate hc
    decide
  rw [clauses, split, toList_listed,
    Chars.split_intercalate hspaces (List.forall_mem_map.mpr hlist), List.map_map]
  simp

/-- The clauses of a list are the listed texts without the blanks around them; blank ones are no
clauses. -/
theorem clauses_listed_of_isEntry (spaces : Nat)
    (hlist : ∀ clause ∈ list, Chars.IsEntry clause.toList) : clauses (listed spaces list) =
      (list.filter fun clause => !(Chars.trim clause.toList).isEmpty).map trim := by
  have hspaces : ∀ c ∈ List.replicate spaces ' ', isBlank c = true := by
    intro c hc
    obtain rfl := List.eq_of_mem_replicate hc
    decide
  rw [clauses, split, toList_listed, Chars.split_intercalate_of_uncut hspaces
    (List.forall_mem_map.mpr fun clause hclause => (hlist clause hclause).uncut)
    (List.forall_mem_map.mpr fun clause hclause => (hlist clause hclause).run_top), List.map_map,
    List.filter_map, List.map_map]
  rfl

/-- The clauses are read off a list of texts with blanks around them. -/
theorem clauses_listed_of_isItem (spaces : Nat)
    (hlist : ∀ clause ∈ list, Chars.IsItem clause.toList) :
    clauses (listed spaces list) = list.map trim := by
  rw [clauses_listed_of_isEntry spaces fun clause hclause => (hlist clause hclause).isEntry,
    List.filter_eq_self.mpr]
  intro clause hclause
  simpa using (hlist clause hclause).trim_ne_nil

theorem trim_eq_self {text : String} (htrimmed : Chars.Trimmed text.toList) :
    trim text = text := by
  rw [trim, htrimmed.trim_eq, String.ofList_toList]

theorem trim_trim (text : String) : trim (trim text) = trim text := by
  refine trim_eq_self ?_
  rw [trim, String.toList_ofList]
  exact Chars.trimmed_trim text.toList

theorem words_trim {text : String} (hrun : Nesting.top.run text.toList = .top) :
    words (trim text) = words text := by
  rw [words, trim, String.toList_ofList, Chars.words_trim hrun]
  rfl

/-- A text with words is not blank. -/
theorem trim_ne_nil {text : String} (hrun : Nesting.top.run text.toList = .top)
    (hwords : words text ≠ []) : Chars.trim text.toList ≠ [] := by
  intro hnil
  have hchars := Chars.words_trim hrun
  rw [hnil] at hchars
  rw [words, ← hchars] at hwords
  exact hwords rfl

section Group

variable {inside word : String}

theorem call_of_uncut (huncut : Chars.Uncut (· == '(') .top word.toList) :
    call word = (word, none) := by
  rw [call, Chars.call, Chars.breakAt_of_uncut huncut]
  simp

theorem head_of_uncut (huncut : Chars.Uncut (· == '(') .top word.toList) : head word = word := by
  rw [head, call_of_uncut huncut]

theorem group?_of_uncut (huncut : Chars.Uncut (· == '(') .top word.toList) :
    group? word = none := by
  rw [group?, call_of_uncut huncut]

theorem toList_group (inside : String) :
    ("(" ++ inside ++ ")").toList = '(' :: (inside.toList ++ [')']) := by
  have hopen : "(".toList = ['('] := by decide
  have hclose : ")".toList = [')'] := by decide
  simp [hopen, hclose]

theorem isWord_group (hinside : Chars.Balanced inside.toList) :
    Chars.IsWord ("(" ++ inside ++ ")").toList := by
  rw [toList_group]
  exact ⟨hinside.whole_group, List.cons_ne_nil _ _⟩

theorem call_group (hinside : Chars.Balanced inside.toList) :
    Chars.call ("(" ++ inside ++ ")").toList = ([], some inside.toList) := by
  have hnil : Chars.Uncut (· == '(') .top [] := trivial
  rw [toList_group]
  exact Chars.call_group hnil rfl hinside []

theorem group?_group (hinside : Chars.Balanced inside.toList) :
    group? ("(" ++ inside ++ ")") = some inside := by
  rw [group?, call, call_group hinside]
  simp

end Group

end Text

end Schemata
