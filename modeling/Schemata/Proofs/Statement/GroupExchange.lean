import Schemata.Proofs.Statement.Following
import Schemata.Proofs.Statement.KeywordGroup
import Schemata.Proofs.Text.Opening
import Schemata.Statement.TableDefinition

/-!
# Statements with another body

The readers of a statement look at the heads of its words, and at the first group for the body.  Two
texts that differ only inside one group therefore have words that are alike in pairs, and a reading
that follows the words of one follows those of the other, up to what that group holds.

That the words come in pairs is due to the brackets: a group that is balanced is part of one word,
whatever it holds, so the texts fall into words at the same blanks.  In front of the group nothing
may be open, since a quote or a parenthesis that is would take the group into itself
(`Chars.Closed`).  Which of the words has the group is not known, only that all others are equal.

* `Chars.Closed`: what stands in front of the group closes what it opens.
* `Text.forall₂_words_around`: the words of the two texts.
* `CreateTable.readHeader_ofText_exchange`: the header of a table with another body.
-/

namespace Schemata

namespace Chars

variable {text first rest inside front before behind : List Char} {nesting : Nesting}

/-! ## Texts in front of a group -/

/-- The text closes what it opens: nothing is open at its end, and the group of each parenthesis at
its top ends in it. -/
structure Closed (text : List Char) : Prop where
  run_eq : Nesting.top.run text = .top
  closes : ∀ before behind, text = before ++ '(' :: behind → Nesting.top.run before = .top →
    (closeGroup behind).isSome

/-- A text with no parenthesis at its top has no group to close. -/
theorem closed_of_uncut (hrun : Nesting.top.run text = .top)
    (huncut : Uncut (· == '(') .top text) : Closed text := by
  refine ⟨hrun, fun before behind htext htop => ?_⟩
  rw [htext, uncut_append, htop] at huncut
  cases huncut.2.1

theorem Closed.of_append (hclosed : Closed (first ++ rest))
    (hrun : Nesting.top.run first = .top) : Closed rest := by
  constructor
  · have htop := hclosed.run_eq
    rwa [Nesting.run_append, hrun] at htop
  · intro before behind hrest htop
    refine hclosed.closes (first ++ before) behind ?_ ?_
    · rw [hrest, List.append_assoc]
    · rw [Nesting.run_append, hrun, htop]

/-- A text has no blank at its top, or it has a last one. -/
theorem uncut_or_exists_last_blank (nesting : Nesting) (text : List Char) :
    Uncut isBlank nesting text ∨ ∃ before blank rest, text = before ++ blank :: rest ∧
      nesting.run before = .top ∧ isBlank blank = true ∧ Uncut isBlank .top rest := by
  induction text generalizing nesting with
  | nil => exact Or.inl trivial
  | cons c others ih =>
      rcases ih (nesting.step c) with huncut | ⟨before, blank, rest, rfl, hrun, hblank, hrest⟩
      · by_cases hcut : (nesting.isTop && isBlank c) = true
        · obtain ⟨htop, hc⟩ := (Bool.and_eq_true _ _).mp hcut
          obtain rfl := Nesting.eq_top_of_isTop htop
          rw [Nesting.step_top (Nesting.isPlain_of_isBlank hc)] at huncut
          exact Or.inr ⟨[], c, others, rfl, rfl, hc, huncut⟩
        · exact Or.inl ⟨Bool.eq_false_iff.mpr hcut, huncut⟩
      · exact Or.inr ⟨c :: before, blank, rest, rfl, hrun, hblank, hrest⟩

/-- The text with a group between two others. -/
def around (front inside behind : List Char) : List Char :=
  front ++ '(' :: (inside ++ ')' :: behind)

theorem around_eq_append (front inside behind : List Char) :
    around front inside behind = front ++ '(' :: (inside ++ [')']) ++ behind := by
  simp [around]

/-- A group belongs to the word that it touches in front, which reaches as far behind the group as
the text does up to a blank. -/
theorem words_around_of_uncut (hrun : Nesting.top.run front = .top)
    (hfront : Uncut isBlank .top front) (behind : List Char) :
    ∃ after others, ∀ inside, Balanced inside →
      words (around front inside behind) = around front inside after :: others := by
  obtain ⟨after, others, hpieces⟩ :=
    List.exists_cons_of_ne_nil (pieces_ne_nil isBlank .top behind)
  refine ⟨after, others.filter (! ·.isEmpty), fun inside hinside => ?_⟩
  have hgroup : Uncut isBlank .top (front ++ '(' :: (inside ++ [')'])) := by
    rw [uncut_append, hrun]
    exact ⟨hfront, hinside.whole_group.uncut_blank⟩
  have htop : Nesting.top.run (front ++ '(' :: (inside ++ [')'])) = .top := by
    rw [Nesting.run_append, hrun]
    exact hinside.whole_group.run_top
  rw [words, around_eq_append, pieces_append hgroup, htop, hpieces, List.modifyHead_cons,
    List.filter_cons_of_pos (by simp), around_eq_append]

/-- The words of a text with a group in it are the same whatever the group holds, but for the one
that has the group. -/
theorem exists_words_around (hbefore : Closed before) (behind : List Char) :
    ∃ earlier front after later, Closed front ∧ ∀ inside, Balanced inside →
      words (around before inside behind) = earlier ++ around front inside after :: later := by
  rcases uncut_or_exists_last_blank .top before with
    huncut | ⟨initial, blank, front, rfl, hrun, hblank, huncut⟩
  · obtain ⟨after, later, hwords⟩ := words_around_of_uncut hbefore.run_eq huncut behind
    exact ⟨[], before, after, later, hbefore, hwords⟩
  · have hfront : Closed front := by
      have hplain := Nesting.step_top (Nesting.isPlain_of_isBlank hblank)
      have htop : Nesting.top.run (initial ++ [blank]) = .top := by
        rw [Nesting.run_append, hrun]
        exact hplain
      have hall : Closed (initial ++ [blank] ++ front) := by
        rwa [List.append_assoc]
      exact hall.of_append htop
    obtain ⟨after, later, hwords⟩ := words_around_of_uncut hfront.run_eq huncut behind
    refine ⟨words initial, front, after, later, hfront, fun inside hinside => ?_⟩
    rw [← hwords inside hinside, ← words_append_of_run hrun hblank, around, around,
      List.append_assoc, List.cons_append]

/-! ## Words with a group -/

theorem breakAtClose_append_of_some {found : List Char × List Char}
    (hbreak : breakAtClose nesting text = some found) (more : List Char) :
    breakAtClose nesting (text ++ more) = some (found.1, found.2 ++ more) := by
  induction text generalizing nesting found with
  | nil => cases hbreak
  | cons c others ih =>
      rw [breakAtClose] at hbreak
      rw [List.cons_append, breakAtClose]
      split at hbreak
      · rename_i hclose
        cases hbreak
        rw [if_pos hclose]
      · rename_i hopen
        obtain ⟨given, hgiven, rfl⟩ := Option.map_eq_some_iff.mp hbreak
        rw [if_neg hopen, ih hgiven]
        rfl

/-- A word has the group in it as its own, or the text in front has one already. -/
theorem call_around (hfront : Closed front) (behind : List Char) :
    (∃ name group, ∀ inside, call (around front inside behind) = (name, some group)) ∨
      ∃ name, ∀ inside, Balanced inside →
        call (around front inside behind) = (name, some inside) := by
  cases hbreak : breakAt '(' .top front with
  | none =>
      exact Or.inr ⟨_, fun inside hinside =>
        call_group (uncut_of_breakAt_eq_none hbreak) hfront.run_eq hinside behind⟩
  | some found =>
      obtain ⟨name, rest⟩ := found
      obtain ⟨huncut, htop⟩ := uncut_of_breakAt_eq_some hbreak
      have hsplit := eq_of_breakAt hbreak
      obtain ⟨⟨group, after⟩, hgroup⟩ :=
        Option.isSome_iff_exists.mp (hfront.closes name rest hsplit htop)
      refine Or.inl ⟨trimEnd name, group, fun inside => ?_⟩
      have hclose : closeGroup (rest ++ '(' :: (inside ++ ')' :: behind)) = some (group, _) :=
        breakAtClose_append_of_some hgroup _
      rw [call, around, hsplit, List.append_assoc, List.cons_append,
        breakAt_append_cons huncut htop]
      dsimp only
      rw [hclose]

end Chars

namespace Text

variable {inside other word found : String}

/-- The text with a group between two others. -/
def around (before inside behind : String) : String :=
  before ++ group inside ++ behind

theorem toList_around (before inside behind : String) : (around before inside behind).toList =
    Chars.around before.toList inside.toList behind.toList := by
  rw [around, String.toList_append, String.toList_append, group, toList_group,
    Chars.around_eq_append]

/-- The words are the same but for what a group holds, in front of which nothing is open. -/
inductive Exchanged (inside other : String) : String → String → Prop
  | same (word : String) : Exchanged inside other word word
  | group {front : String} (behind : String) (hfront : Chars.Closed front.toList) :
      Exchanged inside other (around front inside behind) (around front other behind)

/-- Texts that differ in what a group holds have words that do, in pairs. -/
theorem forall₂_words_around {before : String} (hbefore : Chars.Closed before.toList)
    (hinside : Chars.Balanced inside.toList) (hother : Chars.Balanced other.toList)
    (behind : String) :
    List.Forall₂ (Exchanged inside other) (words (around before inside behind))
      (words (around before other behind)) := by
  obtain ⟨earlier, front, after, later, hfront, hwords⟩ :=
    Chars.exists_words_around hbefore behind.toList
  have haround : ∀ group : String, String.ofList (Chars.around front group.toList after) =
      around (String.ofList front) group (String.ofList after) := by
    intro group
    refine String.toList_inj.mp ?_
    simp only [toList_around, String.toList_ofList]
  have hsame : ∀ list : List (List Char), List.Forall₂ (Exchanged inside other)
      (list.map String.ofList) (list.map String.ofList) :=
    fun list => List.forall₂_same.mpr fun word _ => .same word
  rw [words, words, toList_around, toList_around, hwords _ hinside, hwords _ hother]
  simp only [List.map_append, List.map_cons, haround]
  refine List.rel_append (hsame earlier) (.cons (.group _ ?_) (hsame later))
  rwa [String.toList_ofList]

/-- The words are the same as calls, or they have the groups as their own. -/
theorem Exchanged.call_eq (hinside : Chars.Balanced inside.toList)
    (hother : Chars.Balanced other.toList) (hwords : Exchanged inside other word found) :
    call word = call found ∨
      ∃ name, call word = (name, some inside) ∧ call found = (name, some other) := by
  cases hwords with
  | same => exact Or.inl rfl
  | @group front behind hfront =>
      simp only [call, toList_around]
      rcases Chars.call_around hfront behind.toList with ⟨name, group, hcall⟩ | ⟨name, hcall⟩
      · exact Or.inl (by rw [hcall, hcall])
      · exact Or.inr ⟨String.ofList name, by simp [hcall _ hinside], by simp [hcall _ hother]⟩

theorem Exchanged.head_eq (hinside : Chars.Balanced inside.toList)
    (hother : Chars.Balanced other.toList) (hwords : Exchanged inside other word found) :
    head word = head found := by
  rcases hwords.call_eq hinside hother with hcall | ⟨name, hword, hfound⟩
  · rw [head, hcall, head]
  · rw [head, hword, head, hfound]

/-- The words start with the same character. -/
theorem Exchanged.head?_eq (hwords : Exchanged inside other word found) :
    word.toList.head? = found.toList.head? := by
  cases hwords with
  | same => rfl
  | @group front behind hfront =>
      rw [toList_around, toList_around, Chars.around, Chars.around, List.head?_append,
        List.head?_append, List.head?_cons, List.head?_cons]

/-- The groups are the same, or the ones exchanged. -/
inductive ExchangedGroup (inside other : String) : Option String → Option String → Prop
  | same (group : Option String) : ExchangedGroup inside other group group
  | exchanged : ExchangedGroup inside other (some inside) (some other)

theorem Exchanged.group?_eq (hinside : Chars.Balanced inside.toList)
    (hother : Chars.Balanced other.toList) (hwords : Exchanged inside other word found) :
    ExchangedGroup inside other (group? word) (group? found) := by
  rcases hwords.call_eq hinside hother with hcall | ⟨name, hword, hfound⟩
  · rw [group?, hcall, group?]
    exact .same _
  · rw [group?, hword, group?, hfound]
    exact .exchanged

end Text

namespace Reading

variable {inside other word found : String}

theorem follows_group? (hinside : Chars.Balanced inside.toList)
    (hother : Chars.Balanced other.toList) (hwords : Text.Exchanged inside other word found) :
    Follows (Paired (Text.Exchanged inside other)) (Text.ExchangedGroup inside other) (group? word)
      (group? found) := by
  unfold group?
  have hgroup := hwords.group?_eq hinside hother
  generalize Text.group? word = group at hgroup ⊢
  generalize Text.group? found = exchanged at hgroup ⊢
  -- a word with a group of its own has it in both texts; without one, the next word may open it
  cases hgroup with
  | exchanged => exact follows_pure .exchanged
  | same =>
      cases group with
      | some group => exact follows_pure (.same _)
      | none =>
          refine follows_get_bind fun reader next hnext => ?_
          rcases peek_cases hnext with ⟨hnone, hend⟩ | ⟨first, second, hfirst, hsecond, hwords⟩
          · rw [hnone, hend]
            exact follows_pure (.same _)
          · rw [hfirst, hsecond]
            dsimp only
            rw [← hwords.head?_eq]
            split
            · exact (follows_skip 1).bind fun _ _ _ =>
                follows_pure (hwords.group?_eq hinside hother)
            · exact follows_pure (.same _)

end Reading

namespace CreateTable

open Reading

/-- The headers are the same but for a body that is the exchanged one. -/
structure ExchangedHeader (inside other : String) (header found : Header) : Prop where
  name_eq : header.name = found.name
  ifNotExists_eq : header.ifNotExists = found.ifNotExists
  body_cases : header.body = found.body ∨ header.body = inside ∧ found.body = other

variable {inside other : String}

theorem follows_readHeader (hinside : Chars.Balanced inside.toList)
    (hother : Chars.Balanced other.toList) :
    Follows (Paired (Text.Exchanged inside other)) (ExchangedHeader inside other) readHeader
      readHeader := by
  have hhead : ∀ {word found}, Text.Exchanged inside other word found →
      Text.head word = Text.head found := fun hwords => hwords.head_eq hinside hother
  -- up to the name of the table the readers look at heads alone
  refine (follows_expectKeyword hhead _).discard.bind fun _ _ _ =>
    (follows_acceptAny hhead _).discard.bind fun _ _ _ =>
    (follows_acceptAny hhead _).discard.bind fun _ _ _ =>
    (follows_expectKeyword hhead _).discard.bind fun _ _ _ =>
    (follows_acceptAll hhead _).bind fun guard _ hguard =>
    (follows_expectWord _).bind fun word found hwords => ?_
  subst hguard
  dsimp only
  rw [← hhead hwords]
  split
  · exact follows_fail _ _
  · refine (follows_group? hinside hother hwords).bind fun group body hgroup => ?_
    cases hgroup with
    | exchanged => exact follows_pure ⟨rfl, rfl, Or.inr ⟨rfl, rfl⟩⟩
    | same =>
        cases group with
        | none => exact follows_fail _ _
        | some body => exact follows_pure ⟨rfl, rfl, Or.inl rfl⟩

/-- The header of a table with another body is the same, but for the body. -/
theorem readHeader_ofText_exchange {before behind file : String} {header : Header}
    (hbefore : Chars.Closed before.toList) (hinside : Chars.Balanced inside.toList)
    (hother : Chars.Balanced other.toList)
    (hread : readHeader.ofText file (Text.around before inside behind) = .ok header) :
    ∃ found, readHeader.ofText file (Text.around before other behind) = .ok found ∧
      ExchangedHeader inside other header found :=
  (follows_readHeader hinside hother).ofText
    (Text.forall₂_words_around hbefore hinside hother behind) hread

end CreateTable

end Schemata
