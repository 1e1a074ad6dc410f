import Schemata.Reader

/-!
# What readings give

A reading is a chain of steps over words.  `Reading.Returns` says of all values that a step can
give, from whatever words, that they have a property; it passes through the chain by one lemma for
each way to build a reading.  Where the words are known, `run_accept` and the lemmas beside it say
what a step gives and what it leaves, and `Reading.Reads` says it of a chain of steps.

`Reading.Reads action words value left` leaves open which text the words come from and how many
words were taken before, so the fact about one step serves at every place where the step occurs.  A
statement is read by `Reading.Reads.bind` along its reader, with one such fact for each step.
-/

namespace Schemata

namespace Reading

variable {α β : Type} {P : α → Prop} {Q : β → Prop}

/-- Whatever the step gives has the property. -/
def Returns (P : α → Prop) (action : Reading α) : Prop :=
  ∀ ⦃reader : Reader⦄ ⦃value : α⦄ ⦃left : Reader⦄, action.run reader = .ok value left → P value

theorem returns_pure {value : α} (hvalue : P value) : Returns P (pure value) := by
  intro reader result left hrun
  cases hrun
  exact hvalue

theorem returns_fail (fault : Fault) : Returns P (fail fault) := by
  intro reader result left hrun
  cases hrun

/-- A chain gives a value when its first step does and its second does on what the first left. -/
theorem run_bind_eq_ok {first : Reading α} {next : α → Reading β} {reader left : Reader}
    {result : β} : (first >>= next).run reader = .ok result left ↔
      ∃ value middle, first.run reader = .ok value middle ∧
        (next value).run middle = .ok result left := by
  rw [EStateM.run_bind]
  cases first.run reader with
  | error error middle => simp
  | ok value middle =>
      constructor
      · exact fun hrun => ⟨value, middle, rfl, hrun⟩
      · rintro ⟨given, found, hgiven, hrun⟩
        cases hgiven
        exact hrun

/-- A chain gives what its last step gives, on what its first step gave. -/
theorem Returns.bind {first : Reading α} {next : α → Reading β} (hfirst : Returns P first)
    (hnext : ∀ value, P value → Returns Q (next value)) : Returns Q (first >>= next) := by
  intro reader result left hrun
  obtain ⟨value, middle, hvalue, hrun⟩ := run_bind_eq_ok.mp hrun
  exact hnext value (hfirst hvalue) hrun

theorem returns_bind {first : Reading α} {next : α → Reading β}
    (hnext : ∀ value, Returns Q (next value)) : Returns Q (first >>= next) :=
  Returns.bind (P := fun _ => True) (fun _ _ _ _ => trivial) fun value _ => hnext value

theorem ofText_eq_ok_iff {action : Reading α} {file text : String} {value : α} :
    action.ofText file text = .ok value ↔
      ∃ left, action.run (Reader.start file text) = .ok value left := by
  unfold ofText
  cases action.run (Reader.start file text) <;> simp

/-- What a text is read as has the property. -/
theorem Returns.ofText {action : Reading α} (haction : Returns P action) {file text : String}
    {value : α} (hread : action.ofText file text = .ok value) : P value := by
  obtain ⟨left, hrun⟩ := ofText_eq_ok_iff.mp hread
  exact haction hrun

/-! ## Steps on known words -/

/-- The outcome of a reading, without the words that are left. -/
def outcome : EStateM.Result ParseError Reader α → Except ParseError α
  | .ok value _ => .ok value
  | .error error _ => .error error

theorem ofText_eq_outcome (action : Reading α) (file text : String) :
    action.ofText file text = outcome (action.run (Reader.start file text)) := by
  unfold ofText outcome
  cases action.run (Reader.start file text) <;> rfl

@[simp] theorem skip_one_cons (file text word : String) (taken : Nat) (others : List String) :
    (⟨file, text, taken, word :: others⟩ : Reader).skip 1 = ⟨file, text, taken + 1, others⟩ := by
  simp [Reader.skip]

variable {reader : Reader} {word keyword : String} {others : List String}

/-- A next word stands in front of those that remain behind it. -/
theorem remaining_eq_cons (hword : reader.remaining.head? = some word) :
    reader.remaining = word :: (reader.skip 1).remaining := by
  obtain ⟨others, hwords⟩ := List.head?_eq_some_iff.mp hword
  rw [Reader.skip, hwords]
  rfl

@[simp] theorem peek_cons (file text word : String) (taken : Nat) (others : List String) :
    (⟨file, text, taken, word :: others⟩ : Reader).peek = some word := rfl

@[simp] theorem nextIs_cons (file text word keyword : String) (taken : Nat)
    (others : List String) :
    (⟨file, text, taken, word :: others⟩ : Reader).nextIs keyword = Text.isKeyword word keyword :=
  rfl

theorem run_get_bind (next : Reader → Reading β) (reader : Reader) :
    (get >>= next).run reader = (next reader).run reader := rfl

theorem run_discard (action : Reading α) (reader : Reader) :
    (discard action).run reader = match action.run reader with
      | .ok _ left => .ok () left
      | .error error left => .error error left := by
  show EStateM.map (fun _ => ()) action reader = _
  unfold EStateM.map EStateM.run
  cases action reader <;> rfl

theorem run_accept (keyword : String) (reader : Reader) :
    (accept keyword).run reader =
      if reader.nextIs keyword then .ok true (reader.skip 1) else .ok false reader := by
  show (if reader.nextIs keyword then (do skip 1; return true : Reading Bool) else return false)
    reader = _
  split <;> rfl

/-- A choice by whether the next word is a keyword. -/
theorem run_accept_else (keyword : String) (taken passed : Reading α) (reader : Reader) :
    (do if ← accept keyword then taken else passed : Reading α).run reader =
      if reader.nextIs keyword then taken.run (reader.skip 1) else passed.run reader := by
  rw [EStateM.run_bind, run_accept]
  cases reader.nextIs keyword <;> rfl

theorem length_le_of_startWithKeywords {words keywords : List String}
    (hstart : Text.startWithKeywords words keywords = true) : keywords.length ≤ words.length := by
  induction words generalizing keywords with
  | nil =>
      cases keywords with
      | nil => exact Nat.le_refl 0
      | cons keyword keywords => cases hstart
  | cons word others ih =>
      cases keywords with
      | nil => exact Nat.zero_le _
      | cons keyword keywords =>
          rw [Text.startWithKeywords, Bool.and_eq_true] at hstart
          exact Nat.succ_le_succ (ih hstart.2)

theorem run_acceptAll (keywords : List String) (reader : Reader) :
    (acceptAll keywords).run reader =
      if Text.startWithKeywords reader.remaining keywords then
        .ok true (reader.skip keywords.length)
      else .ok false reader := by
  show (if Text.startWithKeywords reader.remaining keywords then
    (do skip keywords.length; return true : Reading Bool) else return false) reader = _
  split <;> rfl

theorem run_expectKeyword (hwords : reader.remaining = word :: others)
    (hkeyword : Text.isKeyword word keyword = true) :
    (expectKeyword keyword).run reader = .ok word (reader.skip 1) := by
  obtain ⟨file, text, taken, remaining⟩ := reader
  cases hwords
  show (if Text.isKeyword word keyword then (do skip 1; return word : Reading String)
    else fail (.expectedKeyword keyword (some word))) _ = _
  rw [if_pos hkeyword]
  rfl

theorem run_expectWord (what : String) (hwords : reader.remaining = word :: others) :
    (expectWord what).run reader = .ok word (reader.skip 1) := by
  obtain ⟨file, text, taken, remaining⟩ := reader
  cases hwords
  rfl

theorem run_expectKeyword_iff {keyword word : String} {reader left : Reader} :
    (expectKeyword keyword).run reader = .ok word left ↔
      reader.remaining.head? = some word ∧ Text.isKeyword word keyword = true ∧
        reader.skip 1 = left := by
  constructor
  · intro hrun
    unfold expectKeyword at hrun
    rw [run_get_bind, Reader.peek] at hrun
    split at hrun
    · rename_i found hfound
      split at hrun
      · rename_i hkeyword
        cases hrun
        exact ⟨hfound, hkeyword, rfl⟩
      · cases hrun
    · cases hrun
  · rintro ⟨hword, hkeyword, rfl⟩
    obtain ⟨others, hwords⟩ := List.head?_eq_some_iff.mp hword
    exact run_expectKeyword hwords hkeyword

theorem run_expectWord_iff {what word : String} {reader left : Reader} :
    (expectWord what).run reader = .ok word left ↔
      reader.remaining.head? = some word ∧ reader.skip 1 = left := by
  obtain ⟨file, text, taken, remaining⟩ := reader
  cases remaining with
  | nil =>
      constructor
      · intro hrun
        cases hrun
      · rintro ⟨hword, -⟩
        cases hword
  | cons first others =>
      rw [run_expectWord what rfl, List.head?_cons, Option.some.injEq, EStateM.Result.ok.injEq]

/-! ## Readings of known words -/

/-- From the words the reading gives the value, and leaves the rest of them. -/
def Reads (action : Reading α) (words : List String) (value : α) (rest : List String) : Prop :=
  ∀ reader : Reader, reader.remaining = words →
    ∃ left, action.run reader = .ok value left ∧ left.remaining = rest

section Reads

variable {words middle rest : List String} {value : α} {result : β}

theorem reads_pure (value : α) (words : List String) : Reads (pure value) words value words :=
  fun reader hwords => ⟨reader, rfl, hwords⟩

theorem Reads.bind {first : Reading α} {next : α → Reading β}
    (hfirst : Reads first words value middle) (hnext : Reads (next value) middle result rest) :
    Reads (first >>= next) words result rest := by
  intro reader hwords
  obtain ⟨left, hleft, hmiddle⟩ := hfirst reader hwords
  obtain ⟨last, hlast, hrest⟩ := hnext left hmiddle
  exact ⟨last, run_bind_eq_ok.mpr ⟨value, left, hleft, hlast⟩, hrest⟩

/-- From words that start as known ones, a chain goes on behind them. -/
theorem Reads.run_bind {first : Reading α} (hfirst : Reads first words value rest)
    (next : α → Reading β) (hwords : reader.remaining = words) :
    ∃ left : Reader, left.remaining = rest ∧
      (first >>= next).run reader = (next value).run left := by
  obtain ⟨left, hleft, hrest⟩ := hfirst reader hwords
  exact ⟨left, hrest, by rw [EStateM.run_bind, hleft]⟩

theorem reads_get_bind {next : Reader → Reading β}
    (hnext : ∀ reader, reader.remaining = words → Reads (next reader) words result rest) :
    Reads (get >>= next) words result rest :=
  fun reader hwords => hnext reader hwords reader hwords

theorem Reads.discard {action : Reading α} (haction : Reads action words value rest) :
    Reads (discard action) words () rest := by
  intro reader hwords
  obtain ⟨left, hleft, hrest⟩ := haction reader hwords
  exact ⟨left, by rw [run_discard, hleft], hrest⟩

theorem Reads.ofText {action : Reading α} {text : String}
    (haction : Reads action (Text.words text) value rest) (file : String) :
    action.ofText file text = .ok value := by
  obtain ⟨left, hleft, -⟩ := haction (Reader.start file text) rfl
  rw [Reading.ofText, hleft]

theorem reads_skip (count : Nat) (words : List String) :
    Reads (skip count) words () (words.drop count) := by
  intro reader hwords
  exact ⟨reader.skip count, rfl, congrArg (List.drop count) hwords⟩

theorem reads_next?_nil : Reads next? [] none [] := by
  refine reads_get_bind fun reader hwords => ?_
  refine (reads_skip 1 []).bind ?_
  rw [Reader.peek, hwords]
  exact reads_pure none []

theorem reads_next?_cons (word : String) (others : List String) :
    Reads next? (word :: others) (some word) others := by
  refine reads_get_bind fun reader hwords => ?_
  refine (reads_skip 1 _).bind ?_
  rw [Reader.peek, hwords]
  exact reads_pure (some word) others

theorem reads_expectWord (what word : String) (others : List String) :
    Reads (expectWord what) (word :: others) word others :=
  (reads_next?_cons word others).bind (reads_pure word others)

theorem reads_expectKeyword (hkeyword : Text.isKeyword word keyword = true) (others : List String) :
    Reads (expectKeyword keyword) (word :: others) word others := by
  intro reader hwords
  refine ⟨reader.skip 1, run_expectKeyword hwords hkeyword, ?_⟩
  show reader.remaining.drop 1 = others
  rw [hwords]
  rfl

theorem reads_expectIdentifier (what word : String) (others : List String) :
    Reads (expectIdentifier what) (word :: others) (Text.unquoteIdentifier word) others :=
  (reads_expectWord what word others).bind (reads_pure _ others)

theorem reads_accept (hkeyword : Text.isKeyword word keyword = true) (others : List String) :
    Reads (accept keyword) (word :: others) true others := by
  rintro ⟨file, text, taken, remaining⟩ rfl
  exact ⟨_, by rw [run_accept, nextIs_cons, if_pos hkeyword], rfl⟩

theorem reads_accept_none (hnot : ∀ word ∈ words.head?, Text.isKeyword word keyword = false) :
    Reads (accept keyword) words false words := by
  rintro reader rfl
  have hnext : reader.nextIs keyword = false := by
    rw [Reader.nextIs, Option.any_eq_false_iff_get]
    exact fun hword => hnot _ (Option.get_mem hword)
  exact ⟨reader, by rw [run_accept, hnext, if_neg Bool.false_ne_true], rfl⟩

theorem reads_acceptAny_none {keywords : List String}
    (hnot : ∀ word ∈ words.head?, Text.isAnyKeyword word keywords = false) :
    Reads (acceptAny keywords) words none words := by
  refine reads_get_bind fun reader hwords => ?_
  have hpeek : reader.peek.any (Text.isAnyKeyword · keywords) = false := by
    rw [Reader.peek, hwords]
    cases hhead : words.head? with
    | none => rfl
    | some word => exact hnot word hhead
  rw [hpeek]
  exact reads_pure none words

theorem reads_acceptAll (keywords words : List String) :
    Reads (acceptAll keywords) words (Text.startWithKeywords words keywords)
      (if Text.startWithKeywords words keywords then words.drop keywords.length else words) := by
  refine reads_get_bind fun reader hwords => ?_
  rw [hwords]
  split
  · rename_i hstart
    rw [hstart]
    exact (reads_skip keywords.length words).bind (reads_pure true _)
  · rename_i hstart
    rw [Bool.eq_false_iff.mpr hstart]
    exact reads_pure false words

theorem reads_acceptAll_none {keywords : List String}
    (hnot : Text.startWithKeywords words keywords = false) :
    Reads (acceptAll keywords) words false words := by
  have hreads := reads_acceptAll keywords words
  rwa [hnot, if_neg Bool.false_ne_true] at hreads

/-- Keywords that may be written are found where they are, if what follows does not look like
them. -/
theorem reads_acceptAll_of_optional {keywords written : List String} (given : Bool)
    (hwritten : Text.startWithKeywords (written ++ rest) keywords = true)
    (hlength : written.length = keywords.length)
    (hrest : Text.startWithKeywords rest keywords = false) :
    Reads (acceptAll keywords) ((if given then written else []) ++ rest) given rest := by
  cases given with
  | true =>
      have hreads := reads_acceptAll keywords (written ++ rest)
      rwa [hwritten, if_pos rfl, ← hlength, List.drop_left] at hreads
  | false => exact reads_acceptAll_none hrest

/-- A word without a group takes the group that follows it. -/
theorem reads_group? {next inside : String} (hword : Text.group? word = none)
    (hopen : next.toList.head? = some '(') (hnext : Text.group? next = some inside)
    (others : List String) : Reads (group? word) (next :: others) (some inside) others := by
  unfold group?
  rw [hword]
  refine reads_get_bind fun reader hwords => ?_
  rw [Reader.peek, hwords, List.head?_cons]
  dsimp only
  rw [hopen, if_pos (beq_self_eq_true _), hnext]
  exact (reads_skip 1 _).bind (reads_pure (some inside) others)

theorem reads_expectGroup {next inside : String} (hword : Text.group? word = none)
    (hopen : next.toList.head? = some '(') (hnext : Text.group? next = some inside) (what : String)
    (others : List String) : Reads (expectGroup word what) (next :: others) inside others :=
  (reads_group? hword hopen hnext others).bind (reads_pure inside others)

theorem reads_rest (words : List String) : Reads Reading.rest words words [] := by
  refine reads_get_bind fun reader hwords => ?_
  have hskip := reads_skip words.length words
  rw [List.drop_length] at hskip
  rw [hwords]
  exact hskip.bind (reads_pure words [])

theorem reads_expectEnd : Reads expectEnd [] () [] := by
  refine reads_get_bind fun reader hwords => ?_
  rw [Reader.peek, hwords]
  exact reads_pure () []

/-- Items that are read without a word are read one by one. -/
theorem reads_mapM {γ : Type} {step : γ → Reading α} {given : γ → α}
    (hstep : ∀ item, Reads (step item) words (given item) words) (items : List γ) :
    Reads (items.mapM step) words (items.map given) words := by
  induction items with
  | nil => exact reads_pure [] words
  | cons item others ih =>
      rw [List.mapM_cons]
      exact (hstep item).bind (ih.bind (reads_pure _ words))

/-- Words are taken up to the first that fails the test. -/
theorem reads_takeWhile {test : String → Bool} {first : List String}
    (hfirst : ∀ word ∈ first, test word = true) (hrest : ∀ word ∈ rest.head?, test word = false) :
    Reads (takeWhile test) (first ++ rest) first rest := by
  have htaken : (first ++ rest).takeWhile test = first := by
    rw [List.takeWhile_append_of_pos hfirst]
    cases rest with
    | nil => simp
    | cons word others =>
        have hword : test word = false := hrest word rfl
        simp [hword]
  refine reads_get_bind fun reader hwords => ?_
  rw [hwords, htaken]
  have hskip := reads_skip first.length (first ++ rest)
  rw [List.drop_left] at hskip
  exact hskip.bind (reads_pure first rest)

section Many

variable {γ : Type} {step : Reading (Option α)} {written : γ → List String} {given : γ → α}

/-- Items that are written one after the other are taken up to words from which none starts. -/
theorem reads_manyUpTo (rest : List String)
    (hitem : ∀ (item : γ) (others : List γ), Reads step
      (written item ++ (others.flatMap written ++ rest)) (some (given item))
      (others.flatMap written ++ rest))
    (hend : Reads step rest none rest) {items : List γ} {limit : Nat}
    (hlimit : items.length ≤ limit) :
    Reads (manyUpTo step limit) (items.flatMap written ++ rest) (items.map given) rest := by
  induction items generalizing limit with
  | nil =>
      cases limit with
      | zero => exact reads_pure [] rest
      | succ limit => exact hend.bind (reads_pure [] rest)
  | cons item others ih =>
      cases limit with
      | zero => exact absurd hlimit (Nat.not_succ_le_zero _)
      | succ limit =>
          have hothers := ih (Nat.le_of_succ_le_succ hlimit)
          rw [List.flatMap_cons, List.append_assoc]
          exact (hitem item others).bind (hothers.bind (reads_pure _ rest))

theorem reads_many_append (rest : List String)
    (hitem : ∀ (item : γ) (others : List γ), Reads step
      (written item ++ (others.flatMap written ++ rest)) (some (given item))
      (others.flatMap written ++ rest))
    (hend : Reads step rest none rest) (hne : ∀ item, written item ≠ []) (items : List γ) :
    Reads (many step) (items.flatMap written ++ rest) (items.map given) rest := by
  have hlimit : items.length ≤ (items.flatMap written ++ rest).length := by
    induction items with
    | nil => exact Nat.zero_le _
    | cons item others ih =>
        have hitem : 0 < (written item).length := List.length_pos_iff.mpr (hne item)
        rw [List.flatMap_cons, List.append_assoc, List.length_append, List.length_cons]
        omega
  refine reads_get_bind fun reader hwords => ?_
  rw [hwords]
  exact reads_manyUpTo rest hitem hend hlimit

/-- Items that are written one after the other are all taken. -/
theorem reads_many (hitem : ∀ (item : γ) (others : List γ), Reads step
      (written item ++ others.flatMap written) (some (given item)) (others.flatMap written))
    (hend : Reads step [] none []) (hne : ∀ item, written item ≠ []) (items : List γ) :
    Reads (many step) (items.flatMap written) (items.map given) [] := by
  have hmany := reads_many_append [] (fun item others => by
    rw [List.append_nil]
    exact hitem item others) hend hne items
  rwa [List.append_nil] at hmany

end Many

end Reads

end Reading

end Schemata
