import Schemata.Proofs.Statement.ColumnReading

/-!
# Readings with more words behind

A reading that took all it wanted of some words does the same when more words stand behind them, if
the first of these could not have been part of anything it took.  A repeated step then takes the
same items and goes on with the words behind.

The condition on the first extra word differs from step to step, and so does what makes it needed: a
step that takes words as long as they pass a test must find one that fails it, a step that looks for
a group must not find one opened, and a step that takes one word asks nothing.  A repeated step has
to be looked at where it stands, at the ends of the words it was given (`Reading.Advances`), because
only there is every item known to take a word.

* `Reading.GoesOn`, `Reading.Fails`: a reading that is another one from other words, or fails.
* `Reading.Extends`: a step that does the same with more words behind, with a rule for each step.
* `Reading.Advances.goesOn_manyUpTo`: repeated steps take the same items and go on behind them.
-/

namespace Schemata

namespace Reading

variable {α β : Type} {words rest extra : List String}

/-! ## Readings that go on or fail -/

/-- From the words, the reading goes on as another one from other words. -/
def GoesOn (action : Reading α) (words : List String) (next : Reading α) (rest : List String) :
    Prop :=
  ∀ ⦃reader : Reader⦄, reader.remaining = words →
    ∃ left : Reader, left.remaining = rest ∧ action.run reader = next.run left

/-- From the words, the reading fails. -/
def Fails (action : Reading α) (words : List String) : Prop :=
  ∀ ⦃reader : Reader⦄, reader.remaining = words →
    ∃ error left, action.run reader = .error error left

theorem Reads.goesOn {first : Reading α} {value : α} (hfirst : Reads first words value rest)
    (next : α → Reading β) : GoesOn (first >>= next) words (next value) rest :=
  fun _ hwords => hfirst.run_bind next hwords

theorem Reads.unique {action : Reading α} {value found : α} {reader left : Reader}
    (hreads : Reads action words value rest) (hwords : reader.remaining = words)
    (hrun : action.run reader = .ok found left) : found = value ∧ left.remaining = rest := by
  obtain ⟨last, hlast, hrest⟩ := hreads reader hwords
  obtain ⟨rfl, rfl⟩ := EStateM.Result.ok.inj (hrun.symm.trans hlast)
  exact ⟨rfl, hrest⟩

/-- A step that takes the next word finds one, or is at the end of the words. -/
theorem cases_of_run_next?_bind {next : Option String → Reading β} {reader left : Reader}
    {result : β} (hrun : (next? >>= next).run reader = .ok result left) :
    (∃ middle : Reader, reader.remaining = [] ∧ middle.remaining = [] ∧
      (next none).run middle = .ok result left) ∨
    ∃ (word : String) (middle : Reader), reader.remaining = word :: middle.remaining ∧
      (next (some word)).run middle = .ok result left := by
  obtain ⟨found, middle, hfound, hrun⟩ := run_bind_eq_ok.mp hrun
  cases hwords : reader.remaining with
  | nil =>
      obtain ⟨rfl, hmiddle⟩ := reads_next?_nil.unique hwords hfound
      exact Or.inl ⟨middle, rfl, hmiddle, hrun⟩
  | cons word others =>
      obtain ⟨rfl, rfl⟩ := (reads_next?_cons word others).unique hwords hfound
      exact Or.inr ⟨word, middle, rfl, hrun⟩

theorem GoesOn.trans {first second third : Reading α} {middle : List String}
    (hfirst : GoesOn first words second middle) (hsecond : GoesOn second middle third rest) :
    GoesOn first words third rest := by
  intro reader hwords
  obtain ⟨between, hbetween, hrun⟩ := hfirst hwords
  obtain ⟨left, hleft, hnext⟩ := hsecond hbetween
  exact ⟨left, hleft, hrun.trans hnext⟩

theorem GoesOn.bind {first second : Reading α} (hfirst : GoesOn first words second rest)
    (next : α → Reading β) : GoesOn (first >>= next) words (second >>= next) rest := by
  intro reader hwords
  obtain ⟨left, hleft, hrun⟩ := hfirst hwords
  exact ⟨left, hleft, by rw [EStateM.run_bind, EStateM.run_bind, hrun]⟩

theorem GoesOn.reads {first second : Reading α} {value : α} {last : List String}
    (hfirst : GoesOn first words second rest) (hsecond : Reads second rest value last) :
    Reads first words value last := by
  intro reader hwords
  obtain ⟨left, hleft, hrun⟩ := hfirst hwords
  rw [hrun]
  exact hsecond left hleft

theorem GoesOn.fails {first second : Reading α} (hfirst : GoesOn first words second rest)
    (hsecond : Fails second rest) : Fails first words := by
  intro reader hwords
  obtain ⟨left, hleft, hrun⟩ := hfirst hwords
  rw [hrun]
  exact hsecond hleft

theorem fails_fail (fault : Fault) (words : List String) : Fails (fail fault : Reading α) words :=
  fun reader _ => ⟨_, reader, rfl⟩

theorem Fails.bind {first : Reading α} (hfirst : Fails first words) (next : α → Reading β) :
    Fails (first >>= next) words := by
  intro reader hwords
  obtain ⟨error, left, hrun⟩ := hfirst hwords
  exact ⟨error, left, by rw [EStateM.run_bind, hrun]⟩

theorem Fails.ne_ok {action : Reading α} {file text : String} {value : α}
    (haction : Fails action (Text.words text)) : action.ofText file text ≠ .ok value := by
  intro hread
  obtain ⟨left, hrun⟩ := ofText_eq_ok_iff.mp hread
  have hstart : (Reader.start file text).remaining = Text.words text := rfl
  obtain ⟨error, last, hfail⟩ := haction hstart
  rw [hfail] at hrun
  cases hrun

/-! ## Steps with more words behind -/

/-- Where the step succeeds it takes words from the front, and it does the same with the extra words
behind. -/
def Extends (extra : List String) (action : Reading α) : Prop :=
  ∀ ⦃reader : Reader⦄ ⦃value : α⦄ ⦃left : Reader⦄, action.run reader = .ok value left →
    left.remaining <:+ reader.remaining ∧
      Reads action (reader.remaining ++ extra) value (left.remaining ++ extra)

theorem extends_pure (extra : List String) (value : α) : Extends extra (pure value) := by
  intro reader result left hrun
  cases hrun
  exact ⟨List.suffix_refl _, reads_pure value _⟩

theorem extends_fail (extra : List String) (fault : Fault) :
    Extends extra (fail fault : Reading α) := by
  intro reader result left hrun
  cases hrun

theorem Extends.bind {first : Reading α} {next : α → Reading β} (hfirst : Extends extra first)
    (hnext : ∀ value, Extends extra (next value)) : Extends extra (first >>= next) := by
  intro reader result left hrun
  obtain ⟨value, middle, hvalue, hrun⟩ := run_bind_eq_ok.mp hrun
  obtain ⟨hmiddle, hreads⟩ := hfirst hvalue
  obtain ⟨hleft, hresult⟩ := hnext value hrun
  exact ⟨hleft.trans hmiddle, hreads.bind hresult⟩

theorem Extends.discard {action : Reading α} (haction : Extends extra action) :
    Extends extra (discard action) := by
  intro reader result left hrun
  rw [run_discard] at hrun
  split at hrun
  · rename_i value middle hvalue
    cases hrun
    obtain ⟨hleft, hreads⟩ := haction hvalue
    exact ⟨hleft, hreads.discard⟩
  · cases hrun

theorem extends_expectWord (extra : List String) (what : String) :
    Extends extra (expectWord what) := by
  intro reader word left hrun
  obtain ⟨hword, rfl⟩ := run_expectWord_iff.mp hrun
  rw [remaining_eq_cons hword]
  exact ⟨List.suffix_cons word _, reads_expectWord what word _⟩

theorem extends_expectIdentifier (extra : List String) (what : String) :
    Extends extra (expectIdentifier what) :=
  (extends_expectWord extra what).bind fun word =>
    extends_pure extra (Text.unquoteIdentifier word)

theorem extends_expectKeyword (extra : List String) (keyword : String) :
    Extends extra (expectKeyword keyword) := by
  intro reader word left hrun
  obtain ⟨hword, hkeyword, rfl⟩ := run_expectKeyword_iff.mp hrun
  rw [remaining_eq_cons hword]
  exact ⟨List.suffix_cons word _, reads_expectKeyword hkeyword _⟩

theorem extends_takeWhile {test : String → Bool}
    (hextra : ∀ word ∈ extra.head?, test word = false) :
    Extends extra (takeWhile test) := by
  intro reader taken left hrun
  rw [run_takeWhile] at hrun
  obtain ⟨rfl, rfl⟩ := EStateM.Result.ok.inj hrun
  have hsplit : reader.remaining.takeWhile test ++ reader.remaining.dropWhile test =
      reader.remaining := List.takeWhile_append_dropWhile
  -- the reader is left with the first word that fails the test, or with none
  have hleft : (reader.skip (reader.remaining.takeWhile test).length).remaining =
      reader.remaining.dropWhile test :=
    calc reader.remaining.drop (reader.remaining.takeWhile test).length
        = (reader.remaining.takeWhile test ++ reader.remaining.dropWhile test).drop
            (reader.remaining.takeWhile test).length := by rw [hsplit]
      _ = reader.remaining.dropWhile test := List.drop_left
  -- with more words behind, that word is still the first to fail, or an extra one is
  have hrest : ∀ word ∈ (reader.remaining.dropWhile test ++ extra).head?, test word = false := by
    intro word hword
    rw [List.head?_append, Option.mem_def, Option.or_eq_some_iff] at hword
    rcases hword with hword | ⟨-, hword⟩
    · have hnot := List.head?_dropWhile_not test reader.remaining
      rw [hword] at hnot
      simpa using hnot
    · exact hextra word hword
  have htaken : ∀ word ∈ reader.remaining.takeWhile test, test word = true :=
    List.all_eq_true.mp List.all_takeWhile
  have hreads := reads_takeWhile htaken hrest
  rw [← List.append_assoc, hsplit] at hreads
  rw [hleft]
  exact ⟨List.dropWhile_suffix test, hreads⟩

/-- Keywords are found in the words themselves or not at all. -/
theorem startWithKeywords_append {keywords : List String}
    (hextra : ∀ word ∈ extra.head?, Text.isAnyKeyword word keywords = false) (words : List String) :
    Text.startWithKeywords (words ++ extra) keywords = Text.startWithKeywords words keywords := by
  -- on the words, as the keywords get fewer with them: an extra word is met only when they are used
  -- up
  induction words generalizing keywords with
  | nil =>
      cases keywords with
      | nil => simp [Text.startWithKeywords]
      | cons keyword keywords =>
          cases extra with
          | nil => rfl
          | cons word others =>
              have hany := hextra word rfl
              rw [Text.isAnyKeyword, List.any_cons, Bool.or_eq_false_iff] at hany
              show (Text.isKeyword word keyword && Text.startWithKeywords others keywords) = false
              rw [hany.1, Bool.false_and]
  | cons word others ih =>
      cases keywords with
      | nil => simp [Text.startWithKeywords]
      | cons keyword keywords =>
          have hothers : ∀ word ∈ extra.head?, Text.isAnyKeyword word keywords = false := by
            intro word hword
            have hany := hextra word hword
            rw [Text.isAnyKeyword, List.any_cons, Bool.or_eq_false_iff] at hany
            exact hany.2
          rw [List.cons_append, Text.startWithKeywords, Text.startWithKeywords, ih hothers]

/-- A word with a group of its own takes no other. -/
theorem reads_group?_own {word inside : String} (hword : Text.group? word = some inside)
    (words : List String) : Reads (group? word) words (some inside) words := by
  unfold group?
  rw [hword]
  exact reads_pure (some inside) words

/-- A next word that opens a group is taken, whether it closes it or not. -/
theorem reads_group?_open {word next : String} (hword : Text.group? word = none)
    (hopen : (next.toList.head? == some '(') = true) (others : List String) :
    Reads (group? word) (next :: others) (Text.group? next) others := by
  unfold group?
  rw [hword]
  refine reads_get_bind fun reader hwords => ?_
  rw [Reader.peek, hwords, List.head?_cons]
  dsimp only
  rw [if_pos hopen]
  exact (reads_skip 1 _).bind (reads_pure _ others)

theorem reads_group?_none {word : String} (hword : Text.group? word = none)
    (hclosed : ∀ next ∈ words.head?, (next.toList.head? == some '(') = false) :
    Reads (group? word) words none words := by
  unfold group?
  rw [hword]
  refine reads_get_bind fun reader hwords => ?_
  rw [Reader.peek, hwords]
  cases hnext : words.head? with
  | none => exact reads_pure none words
  | some next =>
      dsimp only
      rw [hclosed next hnext, if_neg Bool.false_ne_true]
      exact reads_pure none words

/-- The group of a word is the same, unless the extra words open one. -/
theorem extends_group? (hextra : ∀ word ∈ extra.head?, (word.toList.head? == some '(') = false)
    (word : String) : Extends extra (group? word) := by
  intro reader found left hrun
  -- by where the group is looked for: in the word, or in the next word, which may be an extra one
  cases hgroup : Text.group? word with
  | some inside =>
      obtain ⟨rfl, hleft⟩ := (reads_group?_own hgroup reader.remaining).unique rfl hrun
      rw [hleft]
      exact ⟨List.suffix_refl _, reads_group?_own hgroup _⟩
  | none =>
      by_cases hclosed : ∀ next ∈ reader.remaining.head?, (next.toList.head? == some '(') = false
      · have hboth : ∀ next ∈ (reader.remaining ++ extra).head?,
            (next.toList.head? == some '(') = false := by
          intro next hnext
          rw [List.head?_append] at hnext
          cases hhead : reader.remaining.head? with
          | none =>
              rw [hhead] at hnext
              exact hextra next hnext
          | some first =>
              rw [hhead] at hnext
              exact hclosed next (hhead ▸ hnext)
        obtain ⟨rfl, hleft⟩ := (reads_group?_none hgroup hclosed).unique rfl hrun
        rw [hleft]
        exact ⟨List.suffix_refl _, reads_group?_none hgroup hboth⟩
      · obtain ⟨next, hnext, hopen⟩ : ∃ next ∈ reader.remaining.head?,
            (next.toList.head? == some '(') = true := by simpa using hclosed
        obtain ⟨others, hwords⟩ := List.head?_eq_some_iff.mp hnext
        obtain ⟨rfl, hleft⟩ := (reads_group?_open hgroup hopen others).unique hwords hrun
        rw [hleft, hwords]
        exact ⟨List.suffix_cons next others, reads_group?_open hgroup hopen (others ++ extra)⟩

/-! ## Repeated steps -/

section Many

variable {step : Reading (Option α)} {all : List String} {reader left : Reader} {items : List α}
  {limit : Nat}

/-- At the ends of the given words, items take words from the front, at least one each, and the step
that declines leaves the words. -/
structure Advances (all : List String) (step : Reading (Option α)) : Prop where
  some_suffix : ∀ {reader : Reader} {value : α} {left : Reader}, reader.remaining <:+ all →
    step.run reader = .ok (some value) left → left.remaining <:+ reader.remaining
  some_lt : ∀ {reader : Reader} {value : α} {left : Reader}, reader.remaining <:+ all →
    step.run reader = .ok (some value) left → left.remaining.length < reader.remaining.length
  none_eq : ∀ {reader left : Reader},
    step.run reader = .ok none left → left.remaining = reader.remaining

/-- Repeated steps end at their limit or where the step declines. -/
theorem Advances.manyUpTo_stops (hadvances : Advances all step) (hall : reader.remaining <:+ all)
    (hrun : (manyUpTo step limit).run reader = .ok items left) :
    left.remaining <:+ reader.remaining ∧
      items.length + left.remaining.length ≤ reader.remaining.length ∧
      (items.length = limit ∨ ∃ middle, step.run middle = .ok none left) := by
  -- on the limit; each item leaves fewer words, so that the limit is not what ends a reading of all
  induction limit generalizing reader items with
  | zero =>
      cases hrun
      exact ⟨List.suffix_refl _, Nat.le_of_eq (Nat.zero_add _), Or.inl rfl⟩
  | succ limit ih =>
      obtain ⟨found, middle, hstep, hrun⟩ := run_bind_eq_ok.mp hrun
      cases found with
      | none =>
          cases hrun
          rw [hadvances.none_eq hstep]
          exact ⟨List.suffix_refl _, Nat.le_of_eq (Nat.zero_add _), Or.inr ⟨reader, hstep⟩⟩
      | some item =>
          obtain ⟨others, last, hothers, hrun⟩ := run_bind_eq_ok.mp hrun
          cases hrun
          have hmiddle := hadvances.some_suffix hall hstep
          have hless := hadvances.some_lt hall hstep
          obtain ⟨hleft, hlength, hstop⟩ := ih (hmiddle.trans hall) hothers
          rw [List.length_cons]
          exact ⟨hleft.trans hmiddle, by omega, hstop.imp (congrArg Nat.succ) id⟩

/-- Repeated steps take the same items with more words behind, and go on with those. -/
theorem Advances.goesOn_manyUpTo (hadvances : Advances all step)
    (hsome : ∀ {reader : Reader} {value : α} {left : Reader}, reader.remaining <:+ all →
      step.run reader = .ok (some value) left →
        Reads step (reader.remaining ++ extra) (some value) (left.remaining ++ extra))
    (hall : reader.remaining <:+ all) (hrun : (manyUpTo step limit).run reader = .ok items left)
    {bound : Nat} (hbound : items.length ≤ bound) :
    GoesOn (manyUpTo step bound) (reader.remaining ++ extra)
      (do
        let more ← manyUpTo step (bound - items.length)
        return items ++ more)
      (left.remaining ++ extra) := by
  -- A run that ends at once goes on with all of its bound.
  have hstay : ∀ bound words, GoesOn (manyUpTo step bound) words
      (do
        let more ← manyUpTo step (bound - ([] : List α).length)
        return [] ++ more) words := by
    intro bound words reader hwords
    refine ⟨reader, hwords, ?_⟩
    simp only [List.nil_append, List.length_nil, Nat.sub_zero, bind_pure]
  induction limit generalizing reader items bound with
  | zero =>
      cases hrun
      exact hstay _ _
  | succ limit ih =>
      obtain ⟨found, middle, hstep, hrun⟩ := run_bind_eq_ok.mp hrun
      cases found with
      | none =>
          cases hrun
          rw [hadvances.none_eq hstep]
          exact hstay _ _
      | some item =>
          obtain ⟨others, last, hothers, hrun⟩ := run_bind_eq_ok.mp hrun
          cases hrun
          have hmiddle := hadvances.some_suffix hall hstep
          have hreads := hsome hall hstep
          obtain ⟨bound, rfl⟩ : ∃ before, bound = before + 1 :=
            Nat.exists_eq_add_of_le' (Nat.le_trans (Nat.succ_le_succ (Nat.zero_le _)) hbound)
          have hrest := (ih (hmiddle.trans hall) hothers (Nat.le_of_succ_le_succ hbound)).bind
            fun more => (return item :: more : Reading (List α))
          have hfirst : GoesOn (manyUpTo step (bound + 1)) (reader.remaining ++ extra)
              (do
                let more ← manyUpTo step bound
                return item :: more)
              (middle.remaining ++ extra) := hreads.goesOn _
          have hboth := hfirst.trans hrest
          rw [List.length_cons, Nat.add_sub_add_right]
          simpa only [bind_assoc, pure_bind, List.cons_append] using hboth

/-- Repeated steps that end where the step declines do so with more words behind, if the step
declines these too. -/
theorem extends_many (hadvances : ∀ all, Advances all step)
    (hsome : ∀ {reader : Reader} {value : α} {left : Reader},
      step.run reader = .ok (some value) left →
        Reads step (reader.remaining ++ extra) (some value) (left.remaining ++ extra))
    (hnone : ∀ {reader left : Reader}, step.run reader = .ok none left →
      Reads step (left.remaining ++ extra) none (left.remaining ++ extra))
    (hextra : Reads step extra none extra) : Extends extra (many step) := by
  intro reader items left hrun
  have hrun : (manyUpTo step reader.remaining.length).run reader = .ok items left := hrun
  have hadvances := hadvances reader.remaining
  have hall : reader.remaining <:+ reader.remaining := List.suffix_refl _
  obtain ⟨hleft, hlength, hstop⟩ := hadvances.manyUpTo_stops hall hrun
  have hend : Reads step (left.remaining ++ extra) none (left.remaining ++ extra) := by
    rcases hstop with hall | ⟨middle, hmiddle⟩
    -- There are as many steps as words, so that a run which uses them up leaves no word.
    · have hnil : left.remaining = [] := List.eq_nil_of_length_eq_zero (by omega)
      rw [hnil]
      exact hextra
    · exact hnone hmiddle
  have hmore : ∀ bound, Reads (manyUpTo step bound) (left.remaining ++ extra) []
      (left.remaining ++ extra) := by
    intro bound
    cases bound with
    | zero => exact reads_pure [] _
    | succ bound => exact hend.bind (reads_pure [] _)
  refine ⟨hleft, reads_get_bind fun other hother => ?_⟩
  have hbound : items.length ≤ other.remaining.length := by
    rw [hother, List.length_append]
    omega
  have hreads := (hadvances.goesOn_manyUpTo (fun _ => hsome) hall hrun hbound).reads
    ((hmore _).bind (reads_pure _ _))
  rwa [List.append_nil] at hreads

/-- What every item is, all items are. -/
theorem Advances.forall_mem_manyUpTo (hadvances : Advances all step) {P : α → Prop}
    (hitem : ∀ {reader : Reader} {value : α} {left : Reader}, reader.remaining <:+ all →
      step.run reader = .ok (some value) left → P value)
    (hall : reader.remaining <:+ all) (hrun : (manyUpTo step limit).run reader = .ok items left) :
    ∀ item ∈ items, P item := by
  induction limit generalizing reader items with
  | zero =>
      cases hrun
      exact List.forall_mem_nil P
  | succ limit ih =>
      obtain ⟨found, middle, hstep, hrun⟩ := run_bind_eq_ok.mp hrun
      cases found with
      | none =>
          cases hrun
          exact List.forall_mem_nil P
      | some item =>
          obtain ⟨others, last, hothers, hrun⟩ := run_bind_eq_ok.mp hrun
          cases hrun
          exact List.forall_mem_cons.mpr ⟨hitem hall hstep,
            ih ((hadvances.some_suffix hall hstep).trans hall) hothers⟩

end Many

end Reading

end Schemata
