import Mathlib.Logic.Function.Iterate
import Schemata.Proofs.Rejection

/-!
# How deep operations nest

Several operations on a table are carried out by reading a statement from the text of each clause
and carrying that statement out in turn.  Nothing in the statement gets smaller on the way, and a
clause that was not read from a text can hold anything, several operations again included.  What
ends the nesting is the text: whatever is read out of a clause has no comma at the top of its own
clauses.

`applyWith` is one round of this, with the rounds below as an argument, so that a bound on the depth
is an equation between iterates of it rather than a number given to it.

* `not_nests_of_nests`: no statement is nested in one that is nested in a nested one.
* `eq_applyWith_iff`: there is one way to carry statements out round by round.
* `nested_at_most_twice`: three rounds carry a statement out whatever the fourth would do.
-/

namespace Schemata

namespace Statement

variable {origin : Origin} {outer inner innermost statement : Statement}

/-- Carries out a statement, where the statements made from its clauses are carried out by
`again`. -/
def applyWith (origin : Origin) (again : Statement → Change Unit) : Statement → Change Unit
  | alterTable statement => statement.apply origin fun text => do
      again (← Change.ofExcept (Change.ofReading (read origin text)))
  | statement => statement.apply origin

/-- The inner statement is read from a clause of the outer one. -/
def Nests (origin : Origin) (outer inner : Statement) : Prop :=
  ∃ name guard clauses clause, outer = alterTable ⟨name, guard, .several clauses⟩ ∧
    clause ∈ clauses ∧ read origin (AlterTable.clauseText name clause) = .ok inner

/-! ## One round -/

/-- A round depends on the rounds below only through the statements nested in its own. -/
theorem applyWith_congr {again other : Statement → Change Unit}
    (hagain : ∀ inner, Nests origin outer inner → again inner = other inner) :
    applyWith origin again outer = applyWith origin other outer := by
  cases outer with
  | alterTable statement =>
      rw [applyWith, applyWith]
      refine AlterTable.apply_congr fun clauses hseveral clause hclause => ?_
      cases hread : read origin (AlterTable.clauseText statement.name clause) with
      | error error => rw [Change.ofReading_error_bind, Change.ofReading_error_bind]
      | ok inner =>
          rw [Change.ofReading_ok_bind, Change.ofReading_ok_bind]
          have houter : alterTable statement =
              alterTable ⟨statement.name, statement.ifExists, .several clauses⟩ := by
            rw [← hseveral]
          exact hagain inner ⟨_, _, clauses, clause, houter, hclause, hread⟩
  | _ => rfl

theorem applyNested_succ (origin : Origin) (depth : Nat) (statement : Statement) :
    applyNested origin (depth + 1) statement =
      applyWith origin (applyNested origin depth) statement := by
  cases statement <;> rfl

/-- A statement that is no list of operations is carried out in one round. -/
theorem applyNested_eq_applyWith
    (hsingle : ∀ name guard clauses, statement ≠ alterTable ⟨name, guard, .several clauses⟩)
    (depth : Nat) (again : Statement → Change Unit) :
    applyNested origin depth statement = applyWith origin again statement := by
  cases statement with
  | alterTable statement =>
      rw [applyNested, applyWith]
      refine AlterTable.apply_eq_of_ne_several (fun clauses hseveral => ?_) _ _
      obtain ⟨name, guard, operation⟩ := statement
      obtain rfl : operation = .several clauses := hseveral
      exact hsingle name guard clauses rfl
  | _ => cases depth <;> rfl

/-! ## The end of the nesting -/

/-- What is nested in a statement that was read is no list of operations. -/
theorem ne_several_of_nests {text : String} (hread : read origin text = .ok outer)
    (hinner : Nests origin outer inner) (name : ObjectName) (guard : Bool)
    (clauses : List String) : inner ≠ alterTable ⟨name, guard, .several clauses⟩ := by
  obtain ⟨table, ifExists, texts, clause, rfl, hclause, hnested⟩ := hinner
  have hisClause : AlterTable.IsClause clause := AlterTable.isClause_of_read hread hclause
  obtain ⟨nested, rfl, hsingle⟩ := AlterTable.exists_of_read_clauseText hisClause hnested
  intro hseveral
  cases hseveral
  exact hsingle clauses rfl

/-- A nested statement was read, so that what is nested in it is no list of operations. -/
theorem ne_several_of_nests_of_nests (houter : Nests origin outer inner)
    (hinner : Nests origin inner innermost) (name : ObjectName) (guard : Bool)
    (clauses : List String) : innermost ≠ alterTable ⟨name, guard, .several clauses⟩ := by
  obtain ⟨table, ifExists, texts, clause, -, -, hread⟩ := houter
  exact ne_several_of_nests hread hinner name guard clauses

theorem not_nests_of_nests {deepest : Statement} (houter : Nests origin outer inner)
    (hinner : Nests origin inner innermost) : ¬Nests origin innermost deepest := by
  rintro ⟨name, guard, clauses, -, hseveral, -, -⟩
  exact ne_several_of_nests_of_nests houter hinner name guard clauses hseveral

/-- Three rounds carry a statement out, whatever a fourth one would do. -/
theorem iterate_applyWith (origin : Origin) (again : Statement → Change Unit)
    (statement : Statement) :
    (applyWith origin)^[3] again statement = statement.apply origin := by
  rw [apply, nestingDepth, applyNested_succ]
  simp only [Function.iterate_succ_apply', Function.iterate_zero_apply]
  refine applyWith_congr fun inner hinner => ?_
  rw [applyNested_succ]
  refine applyWith_congr fun innermost hinnermost => ?_
  exact (applyNested_eq_applyWith (ne_several_of_nests_of_nests hinner hinnermost) 0 again).symm

/-- Carrying out statements is the one way to go round and round. -/
theorem eq_applyWith_iff {carry : Statement → Change Unit} :
    carry = applyWith origin carry ↔ carry = fun statement => statement.apply origin := by
  constructor
  · intro hcarry
    have hrounds : (applyWith origin)^[3] carry = carry := Function.iterate_fixed hcarry.symm 3
    funext statement
    rw [← iterate_applyWith origin carry statement, hrounds]
  · rintro rfl
    -- A round in front of three is three rounds in front of one.
    have hround :
        applyWith origin ((applyWith origin)^[3] fun statement => statement.apply origin) =
          (applyWith origin)^[3] (applyWith origin fun statement => statement.apply origin) := by
      rw [← Function.iterate_succ_apply' (applyWith origin), Function.iterate_succ_apply]
    have hthree : ∀ again, (applyWith origin)^[3] again = fun statement => statement.apply origin :=
      fun again => funext (iterate_applyWith origin again)
    rw [hthree, hthree] at hround
    exact hround.symm

/-- Carrying out a statement goes at most two statements deep: three rounds do it whatever the next
one would do, going round has one outcome, and no statement is nested in one that is nested in a
nested one.  In a statement of several operations that was read nothing nests twice: the statement
made from a clause has one operation. -/
theorem nested_at_most_twice (origin : Origin) :
    (∀ again statement, (applyWith origin)^[3] again statement = statement.apply origin) ∧
    (∀ carry, carry = applyWith origin carry ↔ carry = fun statement => statement.apply origin) ∧
    (∀ outer inner innermost deepest, Nests origin outer inner → Nests origin inner innermost →
      ¬Nests origin innermost deepest) ∧
    ∀ text name guard clauses, AlterTable.read origin text = .ok ⟨name, guard, .several clauses⟩ →
      ∀ clause ∈ clauses, ∀ nested,
        read origin (AlterTable.clauseText name clause) = .ok (.alterTable nested) →
          ∀ more, nested.operation ≠ .several more := by
  refine ⟨iterate_applyWith origin, fun _ => eq_applyWith_iff,
    fun _ _ _ _ => not_nests_of_nests, ?_⟩
  intro text name guard clauses hread clause hclause nested hnested
  have hisClause : AlterTable.IsClause clause := AlterTable.isClause_of_mem_several hread hclause
  obtain ⟨found, hfound, hsingle⟩ := AlterTable.exists_of_read_clauseText hisClause hnested
  cases hfound
  exact hsingle

/-- Several operations in one clause, which no text is read as. -/
def severalInOne : Statement :=
  alterTable ⟨⟨none, "t"⟩, false, .several ["ADD b text, ADD c text"]⟩

/-- Both levels are reached, where two rounds would stop short: the clause is read as two operations
and each of these as one. -/
theorem nested_at_most_twice_several_in_one :
    Nests ⟨"2.sql", .postgres⟩ severalInOne
      (alterTable ⟨⟨none, "t"⟩, false, .several ["ADD b text", "ADD c text"]⟩) ∧
    (∀ nested, read ⟨"2.sql", .postgres⟩ "ALTER TABLE t ADD c text" = .ok (.alterTable nested) →
      ∀ more, nested.operation ≠ .several more) ∧
    ((applyWith ⟨"2.sql", .postgres⟩)^[2] (fun _ => throw (.schemaNotFound "s"))
      severalInOne).run oneColumn = .error (.schemaNotFound "s") oneColumn ∧
    ((applyWith ⟨"2.sql", .postgres⟩)^[3] (fun _ => throw (.schemaNotFound "s"))
      severalInOne) = severalInOne.apply ⟨"2.sql", .postgres⟩ := by
  obtain ⟨hrounds, -, -, hread⟩ := nested_at_most_twice ⟨"2.sql", .postgres⟩
  refine ⟨⟨_, _, _, "ADD b text, ADD c text", rfl, by decide, by decide +kernel⟩, ?_,
    by decide +kernel, hrounds _ _⟩
  exact hread "ALTER TABLE t ADD b text, ADD c text" ⟨none, "t"⟩ false ["ADD b text", "ADD c text"]
    (by decide +kernel) "ADD c text" (by decide)

end Statement

end Schemata
