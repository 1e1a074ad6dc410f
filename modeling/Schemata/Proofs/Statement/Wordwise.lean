import Schemata.Proofs.Statement.Suffix

/-!
# Readings of words

A column definition is read by its words alone: neither the text around them nor the number of the
words already taken makes a difference, except that an error shows the text.  What such a reading
does is then a matter of words, and two texts with the same words behind some point are read alike
from there on.

* `Reading.Gives`: what a reading makes of words, a value with the words left or a fault.
* `Reading.IsWordwise`: a reading of words alone, with a rule for each step.
* `ColumnConstraint.gives_many_cons`: the constraints from a word on are the one that starts with it
  and those behind.
-/

namespace Schemata

namespace Reading

variable {α β : Type} {words middle rest : List String}

/-! ## What a reading makes of words -/

/-- From the words the reading gives the value and leaves the rest, which is their end, or it
refuses the text with the fault. -/
def Gives (action : Reading α) (words : List String) : Except Fault (α × List String) → Prop
  | .ok (value, rest) => rest <:+ words ∧ ∀ file text taken, ∃ count,
      action.run ⟨file, text, taken, words⟩ = .ok value ⟨file, text, count, rest⟩
  | .error fault => ∀ file text taken, ∃ left,
      action.run ⟨file, text, taken, words⟩ = .error (.ofFault file text fault) left

/-- What the reading makes of words depends on nothing else. -/
def IsWordwise (action : Reading α) : Prop :=
  ∀ words, ∃ result, Gives action words result

theorem gives_pure (value : α) (words : List String) :
    Gives (pure value) words (.ok (value, words)) :=
  ⟨List.suffix_refl words, fun _ _ taken => ⟨taken, rfl⟩⟩

theorem gives_fail (fault : Fault) (words : List String) :
    Gives (fail fault : Reading α) words (.error fault) :=
  fun _ _ _ => ⟨_, rfl⟩

/-- A chain makes of the words what its second step makes of the words that the first left. -/
theorem Gives.bind {first : Reading α} {next : α → Reading β} {value : α}
    {result : Except Fault (β × List String)} (hfirst : Gives first words (.ok (value, middle)))
    (hnext : Gives (next value) middle result) : Gives (first >>= next) words result := by
  obtain ⟨hmiddle, hfirst⟩ := hfirst
  cases result with
  | ok given =>
      obtain ⟨hrest, hnext⟩ := hnext
      refine ⟨hrest.trans hmiddle, fun file text taken => ?_⟩
      obtain ⟨count, hrun⟩ := hfirst file text taken
      obtain ⟨last, hlast⟩ := hnext file text count
      exact ⟨last, by rw [EStateM.run_bind, hrun]; exact hlast⟩
  | error fault =>
      intro file text taken
      obtain ⟨count, hrun⟩ := hfirst file text taken
      obtain ⟨left, hleft⟩ := hnext file text count
      exact ⟨left, by rw [EStateM.run_bind, hrun]; exact hleft⟩

theorem Gives.bind_error {first : Reading α} {fault : Fault}
    (hfirst : Gives first words (.error fault)) (next : α → Reading β) :
    Gives (first >>= next) words (.error fault) := by
  intro file text taken
  obtain ⟨left, hrun⟩ := hfirst file text taken
  exact ⟨left, by rw [EStateM.run_bind, hrun]⟩

theorem gives_get_bind {next : Reader → Reading β} {result : Except Fault (β × List String)}
    (hnext : ∀ reader : Reader, reader.remaining = words → Gives (next reader) words result) :
    Gives (get >>= next) words result := by
  cases result with
  | ok given =>
      exact ⟨(hnext ⟨"", "", 0, words⟩ rfl).1, fun file text taken =>
        (hnext ⟨file, text, taken, words⟩ rfl).2 file text taken⟩
  | error fault =>
      exact fun file text taken => hnext ⟨file, text, taken, words⟩ rfl file text taken

theorem gives_skip (count : Nat) (words : List String) :
    Gives (skip count) words (.ok ((), words.drop count)) :=
  ⟨List.drop_suffix count words, fun _ _ taken => ⟨taken + min count words.length, rfl⟩⟩

/-- What is made of the value in the end. -/
theorem Gives.bind_pure {action : Reading α} {result : Except Fault (α × List String)}
    (haction : Gives action words result) (change : α → β) :
    Gives (do return change (← action)) words (result.map (Prod.map change id)) := by
  cases result with
  | ok given => exact haction.bind (gives_pure _ _)
  | error fault => exact haction.bind_error _

theorem Gives.discard {action : Reading α} {result : Except Fault (α × List String)}
    (haction : Gives action words result) :
    Gives (discard action) words (result.map (Prod.map (fun _ => ()) id)) := by
  cases result with
  | ok given =>
      refine ⟨haction.1, fun file text taken => ?_⟩
      obtain ⟨count, hrun⟩ := haction.2 file text taken
      exact ⟨count, by rw [run_discard, hrun]; rfl⟩
  | error fault =>
      intro file text taken
      obtain ⟨left, hrun⟩ := haction file text taken
      exact ⟨left, by rw [run_discard, hrun]⟩

/-- A text is read as its words are, and an error shows the text. -/
theorem Gives.ofText {action : Reading α} {result : Except Fault (α × List String)} {text : String}
    (haction : Gives action (Text.words text) result) (file : String) :
    action.ofText file text =
      (result.map Prod.fst).mapError (ParseError.ofFault file text) := by
  unfold Reading.ofText
  cases result with
  | ok given =>
      obtain ⟨count, hrun⟩ := haction.2 file text 0
      rw [Reader.start, hrun]
      rfl
  | error fault =>
      obtain ⟨left, hrun⟩ := haction file text 0
      rw [Reader.start, hrun]
      rfl

theorem Gives.congr {action other : Reading α} {result : Except Fault (α × List String)}
    (haction : Gives action words result)
    (hsame : ∀ reader : Reader, reader.remaining = words → other.run reader = action.run reader) :
    Gives other words result := by
  cases result with
  | ok given =>
      refine ⟨haction.1, fun file text taken => ?_⟩
      obtain ⟨count, hrun⟩ := haction.2 file text taken
      exact ⟨count, (hsame _ rfl).trans hrun⟩
  | error fault =>
      intro file text taken
      obtain ⟨left, hrun⟩ := haction file text taken
      exact ⟨left, (hsame _ rfl).trans hrun⟩

theorem Gives.unique {action : Reading α} {first second : Except Fault (α × List String)}
    (hfirst : Gives action words first) (hsecond : Gives action words second) : first = second := by
  cases first with
  | ok given =>
      obtain ⟨value, rest⟩ := given
      obtain ⟨count, hrun⟩ := hfirst.2 "" "" 0
      cases second with
      | ok found =>
          obtain ⟨other, left⟩ := found
          obtain ⟨last, hlast⟩ := hsecond.2 "" "" 0
          cases hrun.symm.trans hlast
          rfl
      | error fault =>
          obtain ⟨last, hlast⟩ := hsecond "" "" 0
          cases hrun.symm.trans hlast
  | error fault =>
      obtain ⟨left, hrun⟩ := hfirst "" "" 0
      cases second with
      | ok found =>
          obtain ⟨last, hlast⟩ := hsecond.2 "" "" 0
          cases hrun.symm.trans hlast
      | error other =>
          obtain ⟨last, hlast⟩ := hsecond "" "" 0
          cases hrun.symm.trans hlast
          rfl

theorem Gives.returns {action : Reading α} {P : α → Prop} {value : α}
    (haction : Gives action words (.ok (value, rest))) (hreturns : Returns P action) : P value := by
  obtain ⟨count, hrun⟩ := haction.2 "" "" 0
  exact hreturns hrun

/-- A reading of words alone that gives a value somewhere gives it from these words always. -/
theorem IsWordwise.gives {action : Reading α} (haction : IsWordwise action) {value : α}
    {reader left : Reader} (hrun : action.run reader = .ok value left) :
    Gives action reader.remaining (.ok (value, left.remaining)) := by
  obtain ⟨file, text, taken, remaining⟩ := reader
  obtain ⟨result, hgives⟩ := haction remaining
  cases result with
  | ok given =>
      obtain ⟨count, hfound⟩ := hgives.2 file text taken
      obtain ⟨rfl, rfl⟩ := EStateM.Result.ok.inj (hrun.symm.trans hfound)
      exact hgives
  | error fault =>
      obtain ⟨last, hfound⟩ := hgives file text taken
      cases hrun.symm.trans hfound

theorem IsWordwise.gives_of_reads {action : Reading α} (haction : IsWordwise action) {value : α}
    (hreads : Reads action words value rest) : Gives action words (.ok (value, rest)) := by
  obtain ⟨left, hrun, rfl⟩ := hreads ⟨"", "", 0, words⟩ rfl
  exact haction.gives hrun

/-! ## Steps that read words alone -/

theorem isWordwise_pure (value : α) : IsWordwise (pure value) :=
  fun words => ⟨_, gives_pure value words⟩

theorem isWordwise_fail (fault : Fault) : IsWordwise (fail fault : Reading α) :=
  fun words => ⟨_, gives_fail fault words⟩

theorem IsWordwise.bind {first : Reading α} {next : α → Reading β} (hfirst : IsWordwise first)
    (hnext : ∀ value, IsWordwise (next value)) : IsWordwise (first >>= next) := by
  intro words
  obtain ⟨given | given, hgiven⟩ := hfirst words
  · exact ⟨_, hgiven.bind_error next⟩
  · obtain ⟨result, hresult⟩ := hnext given.1 given.2
    exact ⟨result, hgiven.bind hresult⟩

/-- A reading may look at the reader if it sees words only. -/
theorem isWordwise_get_bind {next : Reader → Reading β}
    (hsame : ∀ reader : Reader, next ⟨"", "", 0, reader.remaining⟩ = next reader)
    (hnext : ∀ reader, IsWordwise (next reader)) : IsWordwise (get >>= next) := by
  intro words
  obtain ⟨result, hresult⟩ := hnext ⟨"", "", 0, words⟩ words
  refine ⟨result, gives_get_bind fun reader hwords => ?_⟩
  rw [← hsame reader, hwords]
  exact hresult

theorem IsWordwise.discard {action : Reading α} (haction : IsWordwise action) :
    IsWordwise (discard action) := by
  intro words
  obtain ⟨result, hresult⟩ := haction words
  exact ⟨_, hresult.discard⟩

theorem isWordwise_skip (count : Nat) : IsWordwise (skip count) :=
  fun words => ⟨_, gives_skip count words⟩

theorem isWordwise_next? : IsWordwise next? :=
  isWordwise_get_bind (fun _ => rfl) fun _ => (isWordwise_skip 1).bind fun _ => isWordwise_pure _

theorem isWordwise_accept (keyword : String) : IsWordwise (accept keyword) := by
  refine isWordwise_get_bind (fun _ => rfl) fun reader => ?_
  split
  · exact (isWordwise_skip 1).bind fun _ => isWordwise_pure true
  · exact isWordwise_pure false

theorem isWordwise_acceptAll (keywords : List String) : IsWordwise (acceptAll keywords) := by
  refine isWordwise_get_bind (fun _ => rfl) fun reader => ?_
  split
  · exact (isWordwise_skip _).bind fun _ => isWordwise_pure true
  · exact isWordwise_pure false

theorem isWordwise_expectKeyword (keyword : String) : IsWordwise (expectKeyword keyword) := by
  refine isWordwise_get_bind (fun _ => rfl) fun reader => ?_
  split
  · split
    · exact (isWordwise_skip 1).bind fun _ => isWordwise_pure _
    · exact isWordwise_fail _
  · exact isWordwise_fail _

theorem isWordwise_expectWord (what : String) : IsWordwise (expectWord what) := by
  refine isWordwise_next?.bind fun word => ?_
  cases word with
  | some word => exact isWordwise_pure word
  | none => exact isWordwise_fail _

theorem isWordwise_expectIdentifier (what : String) : IsWordwise (expectIdentifier what) :=
  (isWordwise_expectWord what).bind fun _ => isWordwise_pure _

/-- A word that must exist is refused at the end of the words. -/
theorem gives_expectWord_nil (what : String) :
    Gives (expectWord what) [] (.error (.expected what)) :=
  (isWordwise_next?.gives_of_reads reads_next?_nil).bind (gives_fail _ [])

theorem isWordwise_group? (word : String) : IsWordwise (group? word) := by
  unfold group?
  split
  · exact isWordwise_pure _
  refine isWordwise_get_bind (fun _ => rfl) fun reader => ?_
  split
  · split
    · exact (isWordwise_skip 1).bind fun _ => isWordwise_pure _
    · exact isWordwise_pure none
  · exact isWordwise_pure none

theorem isWordwise_expectGroup (word what : String) : IsWordwise (expectGroup word what) := by
  refine (isWordwise_group? word).bind fun inside => ?_
  cases inside with
  | some inside => exact isWordwise_pure inside
  | none => exact isWordwise_fail _

theorem isWordwise_takeWhile (test : String → Bool) : IsWordwise (takeWhile test) :=
  isWordwise_get_bind (fun _ => rfl) fun _ => (isWordwise_skip _).bind fun _ => isWordwise_pure _

theorem isWordwise_manyUpTo {step : Reading (Option α)} (hstep : IsWordwise step) (limit : Nat) :
    IsWordwise (manyUpTo step limit) := by
  induction limit with
  | zero => exact isWordwise_pure []
  | succ limit ih =>
      refine hstep.bind fun item => ?_
      cases item with
      | some item => exact ih.bind fun _ => isWordwise_pure _
      | none => exact isWordwise_pure []

theorem isWordwise_many {step : Reading (Option α)} (hstep : IsWordwise step) :
    IsWordwise (many step) :=
  isWordwise_get_bind (fun _ => rfl) fun _ => isWordwise_manyUpTo hstep _

/-! ## Steps without a limit -/

theorem run_manyUpTo_succ (step : Reading (Option α)) (limit : Nat) (reader : Reader) :
    (manyUpTo step (limit + 1)).run reader = match step.run reader with
      | .ok (some item) left => (do return item :: (← manyUpTo step limit)).run left
      | .ok none left => .ok [] left
      | .error error left => .error error left := by
  show (step >>= _).run reader = _
  rw [EStateM.run_bind]
  cases step.run reader with
  | error error left => rfl
  | ok item left => cases item <;> rfl

/-- Where each item takes a word and the step declines at the end of the words, any number of steps
that is not less than the number of words does the same. -/
theorem run_manyUpTo_of_le {step : Reading (Option α)}
    (hless : ∀ {reader : Reader} {item : α} {left : Reader},
      step.run reader = .ok (some item) left → left.remaining.length < reader.remaining.length)
    (hend : ∀ reader : Reader, reader.remaining = [] → step.run reader = .ok none reader)
    {reader : Reader} {limit : Nat} (hlimit : reader.remaining.length ≤ limit) :
    (manyUpTo step limit).run reader = (many step).run reader := by
  -- One step more than enough makes no difference.
  have hmore : ∀ (limit : Nat) (reader : Reader), reader.remaining.length ≤ limit →
      (manyUpTo step (limit + 1)).run reader = (manyUpTo step limit).run reader := by
    intro limit
    induction limit with
    | zero =>
        intro reader hnil
        have hreader : reader.remaining = [] := List.eq_nil_of_length_eq_zero (by omega)
        rw [run_manyUpTo_succ, hend reader hreader]
        rfl
    | succ limit ih =>
        intro reader hlimit
        rw [run_manyUpTo_succ, run_manyUpTo_succ]
        cases hstep : step.run reader with
        | error error left => rfl
        | ok item left =>
            cases item with
            | none => rfl
            | some item =>
                have hleft := hless hstep
                have hrest := ih left (by omega)
                dsimp only
                rw [EStateM.run_bind, EStateM.run_bind, hrest]
  rw [many, run_get_bind]
  induction hlimit with
  | refl => rfl
  | step hlimit ih => rw [hmore _ reader hlimit, ih]

end Reading

open Reading

/-! ## Parts of a column definition -/

namespace ReferenceOption

theorem isWordwise_readAction : IsWordwise readAction := by
  refine (isWordwise_expectWord _).bind fun event =>
    isWordwise_get_bind (fun _ => rfl) fun reader => ?_
  split
  · exact isWordwise_fail _
  · refine (isWordwise_skip _).bind fun _ => ?_
    split
    · exact isWordwise_pure _
    split
    · exact isWordwise_pure _
    · exact isWordwise_fail _

theorem isWordwise_read? : IsWordwise read? := by
  refine (isWordwise_accept _).bind fun action => ?_
  split
  · exact isWordwise_readAction.bind fun _ => isWordwise_pure _
  refine (isWordwise_accept _).bind fun matching => ?_
  split
  · exact (isWordwise_expectWord _).discard.bind fun _ => isWordwise_pure _
  refine (isWordwise_accept _).bind fun initially => ?_
  split
  · exact (isWordwise_expectWord _).discard.bind fun _ => isWordwise_pure _
  refine (isWordwise_accept _).bind fun deferrable => ?_
  split
  · exact isWordwise_pure _
  refine (isWordwise_acceptAll _).bind fun firm => ?_
  split
  · exact isWordwise_pure _
  · exact isWordwise_pure _

end ReferenceOption

theorem Reference.isWordwise_read : IsWordwise read := by
  refine (isWordwise_expectWord _).bind fun word => ?_
  dsimp only
  split
  · exact isWordwise_fail _
  · exact (isWordwise_group? word).bind fun _ =>
      (isWordwise_many ReferenceOption.isWordwise_read?).bind fun _ => isWordwise_pure _

namespace ColumnConstraint

theorem isWordwise_readReference (column : String) : IsWordwise (readReference column) := by
  refine Reference.isWordwise_read.bind fun written => ?_
  dsimp only
  split
  · exact isWordwise_pure _
  · exact isWordwise_fail _

theorem isWordwise_readGeneratedPart? : IsWordwise readGeneratedPart? := by
  refine (isWordwise_acceptAll _).bind fun default => ?_
  split
  · exact isWordwise_pure _
  refine isWordwise_get_bind (fun _ => rfl) fun reader => ?_
  split
  · split
    · exact isWordwise_pure _
    · exact (isWordwise_skip 1).bind fun _ => isWordwise_pure _
  · exact isWordwise_pure _

theorem isWordwise_readFrom (column word : String) : IsWordwise (readFrom column word) := by
  unfold readFrom
  split
  · exact (isWordwise_expectKeyword _).discard.bind fun _ => isWordwise_pure _
  · exact isWordwise_pure _
  · exact (isWordwise_expectKeyword _).discard.bind fun _ => isWordwise_pure _
  · exact isWordwise_pure _
  · exact (isWordwise_expectWord _).bind fun _ => (isWordwise_takeWhile _).bind fun _ =>
      isWordwise_pure _
  · exact isWordwise_readReference column
  · exact (isWordwise_expectWord _).discard.bind fun _ => isWordwise_pure _
  · exact (isWordwise_expectIdentifier _).bind fun _ => isWordwise_pure _
  · exact (isWordwise_many isWordwise_readGeneratedPart?).discard.bind fun _ => isWordwise_pure _
  · exact isWordwise_fail _
  · split
    · exact (isWordwise_group? word).discard.bind fun _ => isWordwise_pure _
    · exact isWordwise_pure _

theorem isWordwise_read? (column : String) : IsWordwise (read? column) := by
  refine isWordwise_next?.bind fun word => ?_
  cases word with
  | some word => exact (isWordwise_readFrom column word).bind fun _ => isWordwise_pure _
  | none => exact isWordwise_pure none

section Many

variable {column word : String} {others rest : List String} {constraint : ColumnConstraint}

/-- A constraint takes its first word at least. -/
theorem length_lt_of_run_read? {reader left : Reader}
    (hrun : (read? column).run reader = .ok (some constraint) left) :
    left.remaining.length < reader.remaining.length := by
  rcases cases_of_run_next?_bind hrun with ⟨middle, -, -, hrest⟩ | ⟨word, middle, hwords, hrest⟩
  · cases hrest
  obtain ⟨value, last, hvalue, hlast⟩ := run_bind_eq_ok.mp hrest
  cases hlast
  obtain ⟨hleft, -⟩ := (isWordwise_readFrom column word).gives hvalue
  rw [hwords]
  exact Nat.lt_succ_of_le hleft.length_le

theorem run_read?_of_nil {reader : Reader} (hwords : reader.remaining = []) :
    (read? column).run reader = .ok none reader := by
  obtain ⟨file, text, taken, remaining⟩ := reader
  subst hwords
  rfl

theorem gives_read?_cons (hfirst : Gives (readFrom column word) others (.ok (constraint, rest))) :
    Gives (read? column) (word :: others) (.ok (some constraint, rest)) :=
  (isWordwise_next?.gives_of_reads (reads_next?_cons word others)).bind
    (hfirst.bind (gives_pure _ rest))

/-- The constraints from a word on are the one that starts with it and those behind. -/
theorem gives_many_cons {result : Except Fault (List ColumnConstraint × List String)}
    (hfirst : Gives (readFrom column word) others (.ok (constraint, rest)))
    (hrest : Gives (many (read? column)) rest result) :
    Gives (many (read? column)) (word :: others)
      (result.map (Prod.map (constraint :: ·) id)) := by
  -- As many steps as words are enough for the rest, which has fewer.
  have hrest : Gives (manyUpTo (read? column) others.length) rest result := by
    refine hrest.congr fun reader hwords => ?_
    exact run_manyUpTo_of_le length_lt_of_run_read? (fun _ hnil => run_read?_of_nil hnil)
      (hwords ▸ hfirst.1.length_le)
  refine gives_get_bind fun reader hwords => ?_
  rw [hwords, List.length_cons]
  exact (gives_read?_cons hfirst).bind (hrest.bind_pure (constraint :: ·))

end Many

end ColumnConstraint

theorem ColumnDefinition.isWordwise_readColumn (file : String) :
    IsWordwise (readColumn file) := by
  refine (isWordwise_expectIdentifier _).bind fun name => (isWordwise_takeWhile _).bind fun words =>
    ?_
  split
  · exact isWordwise_fail _
  · split
    · exact isWordwise_fail _
    · exact isWordwise_pure _

end Schemata
