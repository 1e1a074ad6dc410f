import Mathlib.Data.List.Forall2
import Schemata.Proofs.Statement.Wordwise
import Schemata.Proofs.Text.Balance

/-!
# Readings that follow one another

A reading follows another from readers that are alike, if it gives a value that is alike wherever
the other gives one (`Reading.Follows`).  There is a rule for each way to build a reading, so that
what the steps do from readers that are alike, a whole reading does.

When readers are alike is a parameter, for different uses keep different things: words that are
compared one by one and may differ inside, or the same words with texts that differ around them.
The relation goes one way.  A reading that gives nothing is followed by any, so that the converse is
asked separately, and where the relation is symmetric it is the same statement again.

* `Reading.Paired`: words that are alike in pairs, of which the steps see the heads.
* `Reading.SameTrimmed`: texts that are the same but for blanks around them.
-/

namespace Schemata

namespace Reading

variable {α β γ δ : Type} {values : α → β → Prop} {results : γ → δ → Prop}

/-! ## One reading after another -/

section Follows

variable {alike : Reader → Reader → Prop}

/-- From readers that are alike, where the first reading gives a value, the second gives one that is
alike, and the readers that are left are alike again. -/
def Follows (alike : Reader → Reader → Prop) (values : α → β → Prop) (first : Reading α)
    (second : Reading β) : Prop :=
  ∀ ⦃reader left other : Reader⦄ ⦃value : α⦄, first.run reader = .ok value left →
    alike reader other → ∃ found rest, second.run other = .ok found rest ∧ values value found ∧
      alike left rest

theorem follows_pure {value : α} {found : β} (hvalue : values value found) :
    Follows alike values (pure value) (pure found) := by
  intro reader left other result hrun halike
  cases hrun
  exact ⟨found, other, rfl, hvalue, halike⟩

/-- A reading that gives nothing is followed by any. -/
theorem follows_fail (fault : Fault) (second : Reading β) :
    Follows alike values (fail fault : Reading α) second := by
  intro reader left other result hrun
  cases hrun

theorem Follows.bind {first : Reading α} {second : Reading β} {next : α → Reading γ}
    {behind : β → Reading δ} (hfirst : Follows alike values first second)
    (hnext : ∀ value found, values value found →
      Follows alike results (next value) (behind found)) :
    Follows alike results (first >>= next) (second >>= behind) := by
  intro reader left other result hrun halike
  obtain ⟨value, middle, hvalue, hrun⟩ := run_bind_eq_ok.mp hrun
  obtain ⟨found, halfway, hfound, hvalues, hmiddle⟩ := hfirst hvalue halike
  obtain ⟨last, rest, hlast, hresults, hrest⟩ := hnext value found hvalues hrun hmiddle
  exact ⟨last, rest, run_bind_eq_ok.mpr ⟨found, halfway, hfound, hlast⟩, hresults, hrest⟩

theorem follows_get_bind {next : Reader → Reading α} {behind : Reader → Reading β}
    (hnext : ∀ reader other : Reader, alike reader other →
      Follows alike values (next reader) (behind other)) :
    Follows alike values (get >>= next) (get >>= behind) :=
  fun reader _ other _ hrun halike => hnext reader other halike hrun halike

theorem Follows.discard {first : Reading α} {second : Reading β}
    (hfirst : Follows alike values first second) :
    Follows alike (fun _ _ => True) (discard first) (discard second) := by
  intro reader left other result hrun halike
  rw [run_discard] at hrun
  split at hrun
  · rename_i value middle hvalue
    cases hrun
    obtain ⟨found, rest, hfound, -, hrest⟩ := hfirst hvalue halike
    exact ⟨(), rest, by rw [run_discard, hfound], trivial, hrest⟩
  · cases hrun

/-- Texts that are alike are read as values that are. -/
theorem Follows.ofText {first : Reading α} {second : Reading β}
    (hfollows : Follows alike values first second) {file text other : String} {value : α}
    (hstart : alike (Reader.start file text) (Reader.start file other))
    (hread : first.ofText file text = .ok value) :
    ∃ found, second.ofText file other = .ok found ∧ values value found := by
  unfold Reading.ofText at hread ⊢
  split at hread
  · rename_i given left hrun
    cases hread
    obtain ⟨found, rest, hfound, hvalues, -⟩ := hfollows hrun hstart
    exact ⟨found, by rw [hfound], hvalues⟩
  · cases hread

end Follows

/-! ## Words that are alike in pairs -/

section Paired

variable {alike : String → String → Prop}

/-- The words that remain are alike in pairs. -/
def Paired (alike : String → String → Prop) (reader other : Reader) : Prop :=
  List.Forall₂ alike reader.remaining other.remaining

theorem follows_skip (count : Nat) :
    Follows (Paired alike) (fun _ _ => True) (skip count) (skip count) := by
  intro reader left other result hrun hwords
  cases hrun
  exact ⟨(), other.skip count, rfl, trivial, List.forall₂_drop count hwords⟩

/-- Both readers are at their end, or their next words are alike. -/
theorem peek_cases {reader other : Reader}
    (hwords : Paired alike reader other) :
    reader.peek = none ∧ other.peek = none ∨
      ∃ word found, reader.peek = some word ∧ other.peek = some found ∧ alike word found := by
  unfold Reader.peek
  unfold Paired at hwords
  generalize reader.remaining = words at hwords ⊢
  generalize other.remaining = others at hwords ⊢
  cases hwords with
  | nil => exact Or.inl ⟨rfl, rfl⟩
  | cons hword _ => exact Or.inr ⟨_, _, rfl, rfl, hword⟩

theorem follows_next? : Follows (Paired alike) (Option.Rel alike) next? next? := by
  refine follows_get_bind fun reader other hwords =>
    (follows_skip 1).bind fun _ _ _ => follows_pure ?_
  rcases peek_cases hwords with ⟨hnone, hend⟩ | ⟨word, found, hword, hfound, halike⟩
  · rw [hnone, hend]
    exact .none
  · rw [hword, hfound]
    exact .some halike

theorem follows_expectWord (what : String) :
    Follows (Paired alike) alike (expectWord what) (expectWord what) := by
  refine follows_next?.bind fun value found hvalues => ?_
  cases hvalues with
  | none => exact follows_fail _ _
  | some halike => exact follows_pure halike

variable (hhead : ∀ {word found : String}, alike word found → Text.head word = Text.head found)

include hhead

theorem isKeyword_eq {word found : String} (halike : alike word found) (keyword : String) :
    Text.isKeyword word keyword = Text.isKeyword found keyword := by
  have hchars : (Chars.call word.toList).1 = (Chars.call found.toList).1 := by
    have hsame := congrArg String.toList (hhead halike)
    simpa only [Text.head, Text.call, String.toList_ofList] using hsame
  rw [Text.isKeyword, Chars.head, hchars, Text.isKeyword, Chars.head]

theorem startWithKeywords_eq {words others : List String} (hwords : List.Forall₂ alike words others)
    (keywords : List String) :
    Text.startWithKeywords words keywords = Text.startWithKeywords others keywords := by
  induction hwords generalizing keywords with
  | nil => rfl
  | cons halike _ ih =>
      cases keywords with
      | nil => rfl
      | cons keyword rest =>
          rw [Text.startWithKeywords, Text.startWithKeywords, isKeyword_eq hhead halike, ih]

theorem follows_expectKeyword (keyword : String) :
    Follows (Paired alike) alike (expectKeyword keyword) (expectKeyword keyword) := by
  refine follows_get_bind fun reader other hwords => ?_
  rcases peek_cases hwords with ⟨hnone, -⟩ | ⟨word, found, hword, hfound, halike⟩
  · rw [hnone]
    exact follows_fail _ _
  · rw [hword, hfound]
    dsimp only
    rw [← isKeyword_eq hhead halike]
    split
    · exact (follows_skip 1).bind fun _ _ _ => follows_pure halike
    · exact follows_fail _ _

theorem follows_acceptAny (keywords : List String) :
    Follows (Paired alike) (Option.Rel alike) (acceptAny keywords) (acceptAny keywords) := by
  refine follows_get_bind fun reader other hwords => ?_
  have hnext : reader.peek.any (Text.isAnyKeyword · keywords) =
      other.peek.any (Text.isAnyKeyword · keywords) := by
    rcases peek_cases hwords with ⟨hnone, hend⟩ | ⟨word, found, hword, hfound, halike⟩
    · rw [hnone, hend]
    · rw [hword, hfound, Option.any_some, Option.any_some, Text.isAnyKeyword, Text.isAnyKeyword,
        funext (isKeyword_eq hhead halike)]
  rw [hnext]
  split
  · exact follows_next?
  · exact follows_pure .none

theorem follows_acceptAll (keywords : List String) :
    Follows (Paired alike) Eq (acceptAll keywords) (acceptAll keywords) := by
  refine follows_get_bind fun reader other hwords => ?_
  rw [startWithKeywords_eq hhead hwords]
  split
  · exact (follows_skip _).bind fun _ _ _ => follows_pure rfl
  · exact follows_pure rfl

end Paired

/-! ## Blanks around a text -/

/-- The readers have the same words, and texts that are the same but for blanks around them. -/
structure SameTrimmed (reader other : Reader) : Prop where
  remaining_eq : reader.remaining = other.remaining
  trim_eq : Text.trim reader.text = Text.trim other.text

/-- A reading of words alone does the same whatever the text. -/
theorem IsWordwise.follows {action : Reading α} (haction : IsWordwise action) :
    Follows SameTrimmed Eq action action := by
  intro reader left other value hrun hsame
  obtain ⟨-, hgives⟩ := haction.gives hrun
  obtain ⟨count, hleft⟩ := hgives reader.file reader.text reader.taken
  obtain ⟨rest, hrest⟩ := hgives other.file other.text other.taken
  have hsplit := (EStateM.Result.ok.inj (hrun.symm.trans hleft)).2
  have htext : left.text = reader.text := by rw [hsplit]
  rw [hsame.remaining_eq] at hrest
  exact ⟨value, _, hrest, rfl, rfl, (congrArg Text.trim htext).trans hsame.trim_eq⟩

/-- A text is read as it is without the blanks around it. -/
theorem Follows.ofText_trim {action : Reading α} (hfollows : Follows SameTrimmed Eq action action)
    {text : String} (hrun : Nesting.top.run text.toList = .top) {file : String} {value : α} :
    action.ofText file (Text.trim text) = .ok value ↔ action.ofText file text = .ok value := by
  have hsame : SameTrimmed (Reader.start file (Text.trim text)) (Reader.start file text) := by
    refine ⟨?_, Text.trim_trim text⟩
    rw [Reader.start, Reader.start, Text.words_trim hrun]
  constructor
  · intro hread
    obtain ⟨_, hfound, rfl⟩ := hfollows.ofText hsame hread
    exact hfound
  · intro hread
    obtain ⟨_, hfound, rfl⟩ :=
      hfollows.ofText ⟨hsame.remaining_eq.symm, hsame.trim_eq.symm⟩ hread
    exact hfound

end Reading

end Schemata
