import Schemata.Proofs.Outcome
import Schemata.Proofs.Statement.Steps

/-!
# Reading `ALTER TABLE`

The words in front of the clauses decide which word is the name of the table: a guard and `ONLY` are
passed over, and what follows is the name, whatever it is.

The reader takes words one by one and then asks the text for what is left behind them, so its
outcome depends on the words through a number: how many of them were taken.  `AlterTable.header?`
computes that number with the guard and the name, from the words alone, and the reader is opened
once to show that it does the same.

* `AlterTable.header?`: which of the words behind `ALTER TABLE` is the name.
* `AlterTable.readHeader_ofText`: what is read of a statement, by its words.
* `AlterTable.read_cases`: one operation that was read, or several that were not.
-/

namespace Schemata

namespace AlterTable

/-! ## Where the name stands -/

/-- Where the name stands among words behind the guard: the number of words taken and the word of
the name. -/
def named? (words : List String) : Option (Nat × String) :=
  match words with
  | [] => none
  | word :: others =>
      if Text.isKeyword word "only" then others.head?.map fun name => (2, name)
      else some (1, word)

/-- What stands in front of the clauses, given the words behind `ALTER TABLE`: the guard, the number
of words taken and the word of the name. -/
def header? (words : List String) : Option (Bool × Nat × String) :=
  if Text.startWithKeywords words ["if", "exists"] then
    (named? (words.drop 2)).map fun (taken, name) => (true, 2 + taken, name)
  else (named? words).map fun (taken, name) => (false, taken, name)

/-- The part of the header behind the guard and `ONLY`. -/
def readName (ifExists : Bool) : Reading (ObjectName × Bool × List String) := do
  let name := ObjectName.read (← Reading.expectWord "table name")
  match Text.clauses (← get).remainder with
  | [] => Reading.fail .missingOperation
  | clauses => return (name, ifExists, clauses)

theorem readHeader_eq : readHeader = (do
    discard (Reading.expectKeyword "alter")
    discard (Reading.expectKeyword "table")
    let ifExists ← Reading.acceptAll ["if", "exists"]
    discard (Reading.accept "only")
    readName ifExists) := by
  unfold readHeader
  refine bind_congr fun _ => bind_congr fun _ => bind_congr fun ifExists => bind_congr fun _ => ?_
  unfold readName
  refine bind_congr fun word => bind_congr fun reader => ?_
  cases Text.clauses reader.remainder with
  | nil => rfl
  | cons clause others => rfl

/-- The header with the clauses behind the first `taken` words of the text. -/
def headed (file text : String) (ifExists : Bool) (taken : Nat) (name : String) :
    Except ParseError (ObjectName × Bool × List String) :=
  match Text.clauses (Text.trim (Text.afterWords taken text)) with
  | [] => .error (.ofFault file text .missingOperation)
  | clause :: others => .ok (ObjectName.read name, ifExists, clause :: others)

variable {file text : String} {words : List String}

theorem outcome_readName_nil (ifExists : Bool) (file text : String) (taken : Nat) :
    Reading.outcome ((readName ifExists).run ⟨file, text, taken, []⟩) =
      .error (.ofFault file text (.expected "table name")) :=
  rfl

theorem outcome_readName_cons (ifExists : Bool) (file text : String) (taken : Nat) (name : String)
    (others : List String) :
    Reading.outcome ((readName ifExists).run ⟨file, text, taken, name :: others⟩) =
      headed file text ifExists (taken + 1) name := by
  unfold readName
  rw [EStateM.run_bind, Reading.run_expectWord _ rfl, Reading.skip_one_cons]
  dsimp only
  rw [EStateM.run_bind, EStateM.run_get]
  dsimp only [Reader.remainder]
  unfold headed
  cases Text.clauses (Text.trim (Text.afterWords (taken + 1) text)) with
  | nil => rfl
  | cons clause others => rfl

/-- Behind the guard, `ONLY` is taken, then the name. -/
theorem outcome_readName (ifExists : Bool) (file text : String) (taken : Nat)
    (words : List String) :
    Reading.outcome ((do discard (Reading.accept "only"); readName ifExists : Reading _).run
        ⟨file, text, taken, words⟩) =
      match named? words with
      | none => .error (.ofFault file text (.expected "table name"))
      | some (more, name) => headed file text ifExists (taken + more) name := by
  rw [EStateM.run_bind, Reading.run_discard, Reading.run_accept]
  cases words with
  | nil => exact outcome_readName_nil ifExists file text taken
  | cons word others =>
      rw [Reading.nextIs_cons, named?]
      by_cases honly : Text.isKeyword word "only" = true
      · rw [if_pos honly, if_pos honly, Reading.skip_one_cons]
        dsimp only
        cases others with
        | nil => exact outcome_readName_nil ifExists file text (taken + 1)
        | cons name behind => exact outcome_readName_cons ifExists file text (taken + 1) name behind
      · rw [if_neg honly, if_neg honly]
        exact outcome_readName_cons ifExists file text taken word others

/-- Reading the header takes its words and leaves the clauses. -/
theorem readHeader_ofText (hwords : Text.words text = "ALTER" :: "TABLE" :: words) :
    readHeader.ofText file text =
      match header? words with
      | none => .error (.ofFault file text (.expected "table name"))
      | some (ifExists, taken, name) => headed file text ifExists (2 + taken) name := by
  have halter : Text.isKeyword "ALTER" "alter" = true := by decide
  have htable : Text.isKeyword "TABLE" "table" = true := by decide
  have hstart : Reader.start file text = ⟨file, text, 0, "ALTER" :: "TABLE" :: words⟩ := by
    rw [Reader.start, hwords]
  rw [Reading.ofText_eq_outcome, readHeader_eq, hstart, EStateM.run_bind, Reading.run_discard,
    Reading.run_expectKeyword rfl halter, Reading.skip_one_cons]
  dsimp only
  rw [EStateM.run_bind, Reading.run_discard, Reading.run_expectKeyword rfl htable,
    Reading.skip_one_cons]
  dsimp only
  rw [EStateM.run_bind, Reading.run_acceptAll, header?]
  by_cases hguard : Text.startWithKeywords words ["if", "exists"] = true
  · rw [if_pos hguard, if_pos hguard]
    -- The guard takes two words.
    obtain ⟨first, second, behind, rfl⟩ : ∃ first second behind,
        words = first :: second :: behind := by
      match words, hguard with
      | [word], hguard => simp [Text.startWithKeywords] at hguard
      | first :: second :: behind, _ => exact ⟨first, second, behind, rfl⟩
    have hskip : (⟨file, text, 2, first :: second :: behind⟩ : Reader).skip 2 =
        ⟨file, text, 4, behind⟩ := by
      simp [Reader.skip]
    show Reading.outcome ((do discard (Reading.accept "only"); readName true : Reading _).run
      ((⟨file, text, 2, first :: second :: behind⟩ : Reader).skip 2)) = _
    rw [hskip, outcome_readName]
    cases hnamed : named? behind with
    | none => simp [hnamed]
    | some found => simp [hnamed, ← Nat.add_assoc 2 2]
  · rw [if_neg hguard, if_neg hguard]
    dsimp only
    rw [outcome_readName]
    cases named? words with
    | none => rfl
    | some found => rfl

/-! ## One and several operations -/

variable {origin : Origin} {statement : AlterTable}

/-- A statement that was read has one operation, read from its only clause, or all its clauses as
they stand. -/
theorem read_cases (hread : read origin text = .ok statement) :
    ∃ clauses, readHeader.ofText origin.file text =
        .ok (statement.name, statement.ifExists, clauses) ∧
      ((∃ clause, clauses = [clause] ∧
          Operation.read origin statement.name.base clause = .ok statement.operation) ∨
        (∀ clause, clauses ≠ [clause]) ∧ statement.operation = .several clauses) := by
  simp only [read, except_bind_eq_ok] at hread
  obtain ⟨⟨name, ifExists, clauses⟩, hheader, hread⟩ := hread
  dsimp only at hread
  split at hread
  · rename_i clause
    simp only [except_bind_eq_ok, except_pure_eq_ok] at hread
    obtain ⟨operation, hoperation, rfl⟩ := hread
    exact ⟨_, hheader, Or.inl ⟨clause, rfl, hoperation⟩⟩
  · rename_i hsingle
    cases hread
    exact ⟨_, hheader, Or.inr ⟨hsingle, rfl⟩⟩

/-- The clauses that were read stand at the end of the text. -/
theorem clauses_of_readHeader {name : ObjectName} {ifExists : Bool} {clauses : List String}
    (hread : readHeader.ofText file text = .ok (name, ifExists, clauses)) :
    clauses ≠ [] ∧ ∃ taken, clauses = Text.clauses (Text.trim (Text.afterWords taken text)) := by
  obtain ⟨left, hrun⟩ := Reading.ofText_eq_ok_iff.mp hread
  have htext : left.text = text := stepwise_readHeader.keepsText hrun
  rw [readHeader_eq] at hrun
  simp only [Reading.run_bind_eq_ok] at hrun
  obtain ⟨_, _, -, _, _, -, _, _, -, _, _, -, hrun⟩ := hrun
  simp only [readName, Reading.run_bind_eq_ok] at hrun
  obtain ⟨word, reader, hword, current, same, hget, hrun⟩ := hrun
  cases hget
  split at hrun
  · cases hrun
  · rename_i hne
    cases hrun
    exact ⟨hne, left.taken, by rw [Reader.remainder, htext]⟩

end AlterTable

end Schemata
