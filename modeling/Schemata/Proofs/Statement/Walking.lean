import Schemata.Proofs.Statement.Steps
import Schemata.Proofs.Text.Splitting

/-!
# Walking the words of a text

A reader counts the words that it has taken, and what is left of the text is found by counting them
again, in the text.  Both counts agree: wherever the reader stands (`Reader.Placed`), the raw text
behind the words taken has the words that are not taken (`Reader.Placed.words_remainder`).

* `Reader.Call`: the calls that a reader of a statement is walked with.
* `Reader.taken_behind_acceptAll`: keywords are never counted behind the last word.
* `Reader.placed_after`: no sequence of calls leaves the words of the text.
* `Reader.words_and_remainder_agree`: words and raw text, on their own and along a walk.

Blanks at the end of the text would make a difference: a last word with an open quote or group keeps
them, and the raw text does not.
-/

namespace Schemata

namespace Reader

/-! ## Calls -/

/-- A call that may take words.  Questions, which leave the reader as it is, are not among them. -/
inductive Call where
  | next
  | accept (keyword : String)
  | acceptAll (keywords : List String)
  | acceptAny (keywords : List String)
  | expectKeyword (keyword : String)
  | expectWord (what : String)
  | expectIdentifier (what : String)
  | group (word : String)
  | expectGroup (word what : String)
  | skip (count : Nat)
  | rest
  | expectEnd
  deriving DecidableEq, Repr, Inhabited

/-- The call as a step of a reading; what it gives is not kept. -/
def Call.step : Call → Reading Unit
  | next => discard Reading.next?
  | accept keyword => discard (Reading.accept keyword)
  | acceptAll keywords => discard (Reading.acceptAll keywords)
  | acceptAny keywords => discard (Reading.acceptAny keywords)
  | expectKeyword keyword => discard (Reading.expectKeyword keyword)
  | expectWord what => discard (Reading.expectWord what)
  | expectIdentifier what => discard (Reading.expectIdentifier what)
  | group word => discard (Reading.group? word)
  | expectGroup word what => discard (Reading.expectGroup word what)
  | skip count => Reading.skip count
  | rest => discard Reading.rest
  | expectEnd => Reading.expectEnd

open Reading in
theorem Call.stepwise_step (call : Call) : Stepwise call.step := by
  cases call with
  | next => exact stepwise_next?.discard
  | accept keyword => exact (stepwise_accept keyword).discard
  | acceptAll keywords => exact (stepwise_acceptAll keywords).discard
  | acceptAny keywords => exact (stepwise_acceptAny keywords).discard
  | expectKeyword keyword => exact (stepwise_expectKeyword keyword).discard
  | expectWord what => exact (stepwise_expectWord what).discard
  | expectIdentifier what => exact (stepwise_expectIdentifier what).discard
  | group word => exact (stepwise_group? word).discard
  | expectGroup word what => exact (stepwise_expectGroup word what).discard
  | skip count => exact .skip count
  | rest => exact stepwise_rest.discard
  | expectEnd => exact stepwise_expectEnd

/-- The reader behind a call.  A refused call leaves one too. -/
def behind (reader : Reader) (call : Call) : Reader :=
  match call.step.run reader with
  | .ok _ left => left
  | .error _ left => left

/-- The reader behind a sequence of calls. -/
def after (reader : Reader) (calls : List Call) : Reader :=
  calls.foldl behind reader

theorem behind_eq_skip (reader : Reader) (call : Call) :
    ∃ count, reader.behind call = reader.skip count := by
  unfold behind
  split
  · rename_i left hrun
    exact call.stepwise_step.run_ok hrun
  · rename_i error left hrun
    exact (call.stepwise_step.run_error hrun).1

/-- Keywords are counted if all of them come next, so that none is counted behind the last word. -/
theorem taken_behind_acceptAll (reader : Reader) (keywords : List String) :
    (reader.behind (.acceptAll keywords)).taken =
      reader.taken +
        if Text.startWithKeywords reader.remaining keywords then keywords.length else 0 := by
  rw [behind, Call.step, Reading.run_discard, Reading.run_acceptAll]
  by_cases hstart : Text.startWithKeywords reader.remaining keywords = true
  · have hlength := Reading.length_le_of_startWithKeywords hstart
    rw [if_pos hstart, if_pos hstart]
    exact congrArg (reader.taken + ·) (Nat.min_eq_left hlength)
  · rw [if_neg hstart, if_neg hstart]
    rfl

/-! ## Where a reader stands -/

/-- The reader stands in front of a word of its text, or at the end. -/
structure Placed (reader : Reader) : Prop where
  /-- The words that remain are those behind the words taken. -/
  remaining_eq : reader.remaining = (Text.words reader.text).drop reader.taken
  /-- No more words are taken than there are. -/
  taken_le : reader.taken ≤ (Text.words reader.text).length

variable {reader : Reader}

theorem placed_start (file text : String) : Placed (start file text) :=
  ⟨rfl, Nat.zero_le _⟩

theorem Placed.skip (hplaced : Placed reader) (count : Nat) : Placed (reader.skip count) := by
  obtain ⟨file, text, taken, remaining⟩ := reader
  obtain ⟨hremaining, htaken⟩ := hplaced
  dsimp only at hremaining htaken
  have hlength : remaining.length = (Text.words text).length - taken := by
    rw [hremaining, List.length_drop]
  refine ⟨?_, ?_⟩
  · show remaining.drop count = (Text.words text).drop (taken + min count remaining.length)
    rcases Nat.le_total count remaining.length with hcount | hcount
    · rw [Nat.min_eq_left hcount, hremaining, List.drop_drop]
    · -- Both sides have run out of words.
      rw [Nat.min_eq_right hcount, List.drop_eq_nil_of_le hcount,
        List.drop_eq_nil_of_le (by omega)]
  · show taken + min count remaining.length ≤ (Text.words text).length
    omega

/-- No sequence of calls leaves the words of the text. -/
theorem placed_after (file text : String) (calls : List Call) :
    Placed ((start file text).after calls) ∧ ((start file text).after calls).text = text := by
  have hstep : ∀ (reader : Reader) (call : Call), Placed reader ∧ reader.text = text →
      Placed (reader.behind call) ∧ (reader.behind call).text = text := by
    intro reader call hreader
    obtain ⟨count, hbehind⟩ := reader.behind_eq_skip call
    rw [hbehind]
    exact ⟨hreader.1.skip count, hreader.2⟩
  have hrun : ∀ (calls : List Call) (reader : Reader), Placed reader ∧ reader.text = text →
      Placed (reader.after calls) ∧ (reader.after calls).text = text := by
    intro calls
    induction calls with
    | nil => exact fun _ hreader => hreader
    | cons call others ih => exact fun reader hreader => ih _ (hstep reader call hreader)
  exact hrun calls _ ⟨placed_start file text, rfl⟩

/-! ## The raw text behind the words -/

/-- The raw text behind the words taken has the words that are not taken. -/
theorem Placed.words_remainder (hplaced : Placed reader)
    (hlast : ∀ c ∈ reader.text.toList.getLast?, isBlank c = false) :
    Text.words reader.remainder = reader.remaining := by
  have htrimmed : Chars.Trimmed (Text.afterWords reader.taken reader.text).toList := by
    rw [Text.afterWords, String.toList_ofList]
    exact Chars.trimmed_afterWords hlast reader.taken
  rw [remainder, Text.trim_eq_self htrimmed, hplaced.remaining_eq, Text.words_afterWords]

/-- The words of a text and the raw text behind some of them agree, and a reader that walks the text
by any calls keeps both in step. -/
theorem words_and_remainder_agree :
    (∀ (text : String) (count : Nat),
      (∃ before, text = before ++ Text.afterWords count text) ∧
        Text.words (Text.afterWords count text) = (Text.words text).drop count) ∧
    (∀ text : String, Text.words (Text.unwords (Text.words text)) = Text.words text) ∧
    ∀ (file text : String) (calls : List Call),
      (∀ c ∈ text.toList.getLast?, isBlank c = false) →
      ((start file text).after calls).taken ≤ (Text.words text).length ∧
      ((start file text).after calls).remaining =
        (Text.words text).drop ((start file text).after calls).taken ∧
      Text.words ((start file text).after calls).remainder =
        ((start file text).after calls).remaining := by
  refine ⟨fun text count => ⟨?_, Text.words_afterWords count text⟩, Text.words_unwords_words,
    fun file text calls hlast => ?_⟩
  · exact Text.afterWords_ending count text
  · obtain ⟨hplaced, htext⟩ := placed_after file text calls
    have hwords := hplaced.words_remainder (by rwa [htext])
    obtain ⟨hremaining, htaken⟩ := hplaced
    rw [htext] at hremaining htaken
    exact ⟨htaken, hremaining, hwords⟩

theorem words_and_remainder_agree_column :
    (∀ c ∈ "ADD price numeric(10, 2)".toList.getLast?, isBlank c = false) ∧
      Text.words
          ((start "a.sql" "ADD price numeric(10, 2)").after [.accept "add", .next]).remainder =
        ((start "a.sql" "ADD price numeric(10, 2)").after [.accept "add", .next]).remaining :=
  have hend : "ADD price numeric(10, 2)".toList.getLast? = some ')' := by decide +kernel
  have hlast : ∀ c ∈ "ADD price numeric(10, 2)".toList.getLast?, isBlank c = false := by
    intro c hc
    obtain rfl := Option.some.inj (hend.symm.trans hc)
    decide
  ⟨hlast, (words_and_remainder_agree.2.2 _ _ _ hlast).2.2⟩

end Reader

end Schemata
