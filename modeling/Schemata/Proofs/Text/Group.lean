import Schemata.Proofs.Text.BalanceCheck
import Schemata.Proofs.Text.Splitting

/-!
# Groups found in a text

A group is found by two scans.  The first one stops at the first parenthesis at the top, and the
second one starts afresh behind it and stops where everything is closed again.  They are of use only
if they agree on where the group is: the name of a word, the blanks behind it, and the group with
its parentheses make a beginning of the word, and the offsets that the scans report are those of
the two parentheses, whatever characters of several bytes stand before or between them.

* `Chars.breakAt_byPairs`, `Chars.closeGroup_byPairs`: scans that look ahead for doubled quotes stop
  in the same places.
* `Chars.call_eq_some_iff`: which words have a group, and what it holds.
* `Text.call_sound_and_complete`: what is found is there, and a group around a text that closes what
  it opens is found.
-/

namespace Schemata

namespace Chars

variable {nesting : Nesting} {text before behind word name inside : List Char}

/-! ## Doubled quotes -/

/-- The text before and behind the first stop of a scan that takes a doubled quote inside of quoted
text at once. -/
def breakByPairs (stop : Nesting → Char → Bool) :
    Nesting → List Char → Option (List Char × List Char)
  | _, [] => none
  | nesting, [c] => if stop nesting c then some ([], []) else none
  | nesting, c :: d :: rest =>
      if stop nesting c then some ([], d :: rest)
      else if nesting.quote == some c && d == c then
        (breakByPairs stop nesting rest).map fun (before, behind) => (c :: d :: before, behind)
      else (breakByPairs stop (nesting.step c) (d :: rest)).map
        fun (before, behind) => (c :: before, behind)

/-- A scan that never stops at a quote stops in the same place either way. -/
theorem breakByPairs_eq {stop : Nesting → Char → Bool}
    (hstop : ∀ nesting q, Nesting.isQuote q = true → stop nesting q = false)
    (hquote : ∀ q ∈ nesting.quote, Nesting.isQuote q = true) (text : List Char) :
    breakByPairs stop nesting text = breakWhere stop nesting text := by
  fun_induction breakByPairs stop nesting text with
  | case1 => rfl
  | case2 nesting c hc => rw [breakWhere, if_pos hc]
  | case3 nesting c hc => rw [breakWhere, if_neg hc]; rfl
  | case4 nesting c d rest hc => rw [breakWhere, if_pos hc]
  | case5 nesting c d rest hc hpair ih =>
      obtain ⟨hopen, rfl⟩ : nesting.quote = some c ∧ d = c := by simpa using hpair
      have hd : Nesting.isQuote d = true := hquote d hopen
      rw [ih hquote, breakWhere, if_neg hc, breakWhere, hstop _ d hd, if_neg Bool.false_ne_true,
        Nesting.step_step_of_mem_quote hopen hd, Option.map_map]
      rfl
  | case6 nesting c d rest hc hpair ih =>
      rw [ih (Nesting.isQuote_of_mem_quote_step hquote c)]
      conv_rhs => rw [breakWhere, if_neg hc]

theorem beq_eq_false_of_isQuote {q target : Char} (hquote : Nesting.isQuote q = true)
    (htarget : Nesting.isQuote target = false) : (q == target) = false := by
  refine beq_false_of_ne ?_
  rintro rfl
  rw [hquote] at htarget
  cases htarget

theorem breakAt_byPairs {target : Char} (htarget : Nesting.isQuote target = false)
    (text : List Char) :
    breakByPairs (fun nesting c => nesting.isTop && c == target) .top text =
      breakAt target .top text := by
  have hnone : ∀ q ∈ Nesting.top.quote, Nesting.isQuote q = true := fun _ hq => nomatch hq
  rw [breakAt_eq_breakWhere]
  refine breakByPairs_eq (fun nesting q hq => ?_) hnone text
  rw [beq_eq_false_of_isQuote hq htarget, Bool.and_false]

theorem closeGroup_byPairs (text : List Char) :
    breakByPairs (fun nesting c => c == ')' && nesting.quote.isNone && (nesting.step c).isTop)
      (Nesting.top.step '(') text = closeGroup text := by
  have hnone : ∀ q ∈ (Nesting.top.step '(').quote, Nesting.isQuote q = true :=
    fun _ hq => nomatch hq
  rw [closeGroup, breakAtClose_eq_breakWhere]
  refine breakByPairs_eq (fun nesting q hq => ?_) hnone text
  rw [beq_eq_false_of_isQuote hq (by decide), Bool.false_and, Bool.false_and]

/-! ## Offsets -/

theorem utf8ByteSize_ofList (text : List Char) :
    (String.ofList text).utf8ByteSize = byteLength text := by
  induction text with
  | nil => rfl
  | cons c rest ih =>
      rw [String.ofList_cons, String.utf8ByteSize_append, String.utf8ByteSize_singleton, ih,
        byteLength]

theorem byteLength_toList (text : String) : byteLength text.toList = text.utf8ByteSize := by
  rw [← utf8ByteSize_ofList, String.ofList_toList]

/-- At the offset where a text ends stands what follows it. -/
theorem dropBytes_append (first rest : List Char) :
    dropBytes (byteLength first) (first ++ rest) = some rest := by
  induction first with
  | nil => cases rest <;> rfl
  | cons c others ih =>
      have hpos := c.utf8Size_pos
      have hne : (c.utf8Size + byteLength others == 0) = false := beq_false_of_ne (by omega)
      rw [List.cons_append, byteLength, dropBytes, hne, if_neg Bool.false_ne_true,
        if_pos (Nat.le_add_right _ _), Nat.add_sub_cancel_left, ih]

/-! ## Words with a group -/

/-- No parenthesis stands at the top of the text and nothing is open at its end, so that a
parenthesis right behind it is the first at the top. -/
structure Ungrouped (text : List Char) : Prop where
  uncut : Uncut (· == '(') .top text
  run_eq : Nesting.top.run text = .top

theorem breakAt_eq_some_iff : breakAt '(' .top text = some (before, behind) ↔
    text = before ++ '(' :: behind ∧ Ungrouped before := by
  constructor
  · intro hbreak
    obtain ⟨huncut, hrun⟩ := uncut_of_breakAt_eq_some hbreak
    exact ⟨eq_of_breakAt hbreak, huncut, hrun⟩
  · rintro ⟨rfl, huncut, hrun⟩
    exact breakAt_append_cons huncut hrun behind

/-- A word has a group exactly when the one behind its first parenthesis at the top is closed. -/
theorem call_eq_some_iff : call word = (name, some inside) ↔
    ∃ before rest, word = before ++ '(' :: (inside ++ ')' :: rest) ∧ Ungrouped before ∧
      closeGroup (inside ++ ')' :: rest) = some (inside, rest) ∧ name = trimEnd before := by
  constructor
  · intro hcall
    rw [call] at hcall
    split at hcall
    · cases hcall
    · rename_i before behind hbreak
      obtain ⟨rfl, hbefore⟩ := breakAt_eq_some_iff.mp hbreak
      split at hcall
      · cases hcall
      · rename_i found rest hclose
        cases hcall
        obtain rfl := eq_of_breakAtClose hclose
        exact ⟨before, rest, rfl, hbefore, hclose, rfl⟩
  · rintro ⟨before, rest, rfl, hbefore, hclose, rfl⟩
    rw [call, breakAt_eq_some_iff.mpr ⟨rfl, hbefore⟩]
    dsimp only
    rw [hclose]

end Chars

namespace Text

variable {word name before inside rest : String}

theorem ofList_eq_iff {chars : List Char} {text : String} :
    String.ofList chars = text ↔ chars = text.toList := by
  rw [← String.toList_inj, String.toList_ofList]

theorem toList_append_group (before inside rest : String) :
    (before ++ "(" ++ inside ++ ")" ++ rest).toList =
      before.toList ++ '(' :: (inside.toList ++ ')' :: rest.toList) := by
  have hopen : "(".toList = ['('] := by decide
  have hclose : ")".toList = [')'] := by decide
  simp [hopen, hclose]

/-! ## What is found is there -/

/-- A word with a group is put together from its name, blanks, the group, and what is behind. -/
theorem exists_append_group_of_call (hcall : call word = (name, some inside)) :
    ∃ blanks rest : String, word = name ++ blanks ++ "(" ++ inside ++ ")" ++ rest ∧
      (∀ c ∈ name.toList.getLast?, isBlank c = false) ∧
      (∀ c ∈ blanks.toList, isBlank c = true) ∧ Chars.Ungrouped (name ++ blanks).toList ∧
      Chars.closeGroup (inside.toList ++ ')' :: rest.toList) =
        some (inside.toList, rest.toList) := by
  have hchars : Chars.call word.toList = (name.toList, some inside.toList) := by
    obtain ⟨hname, hinside⟩ := Prod.mk.inj hcall
    obtain ⟨chars, hgroup, hofList⟩ := Option.map_eq_some_iff.mp hinside
    exact Prod.ext (ofList_eq_iff.mp hname) (ofList_eq_iff.mp hofList ▸ hgroup)
  obtain ⟨before, rest, hword, hbefore, hclose, hname⟩ := Chars.call_eq_some_iff.mp hchars
  obtain ⟨blanks, hdropped, hblanks⟩ := Chars.exists_append_dropped isBlank before
  have hfront : (name ++ String.ofList blanks).toList = before := by
    rw [String.toList_append, String.toList_ofList, hname]
    exact hdropped.symm
  refine ⟨String.ofList blanks, String.ofList rest, ?_, ?_, ?_, ?_, ?_⟩
  · rw [← String.toList_inj, toList_append_group, hfront, String.toList_ofList, hword]
  · exact fun c hc => Chars.getLast?_trimEnd before (hname ▸ hc)
  · rwa [String.toList_ofList]
  · rwa [hfront]
  · rwa [String.toList_ofList]

/-! ## What is there is found -/

theorem findTop_append_group (hbefore : Chars.Ungrouped before.toList) (inside rest : String) :
    findTop '(' (before ++ "(" ++ inside ++ ")" ++ rest) = some before.utf8ByteSize := by
  rw [findTop, toList_append_group, Chars.breakAt_eq_some_iff.mpr ⟨rfl, hbefore⟩,
    ← Chars.byteLength_toList]
  rfl

section Closed

variable (hclose : Chars.closeGroup (inside.toList ++ ')' :: rest.toList) =
  some (inside.toList, rest.toList))
include hclose

theorem closingOffset_append_group (before : String) :
    closingOffset before.utf8ByteSize (before ++ "(" ++ inside ++ ")" ++ rest) =
      some (before ++ "(" ++ inside).utf8ByteSize := by
  have hsize : "(".utf8ByteSize = 1 := by decide
  rw [String.utf8ByteSize_append, String.utf8ByteSize_append, hsize,
    ← Chars.byteLength_toList before, ← Chars.byteLength_toList inside, closingOffset,
    toList_append_group, Chars.dropBytes_append]
  show (Chars.closeGroup _).map _ = _
  rw [hclose]
  rfl

theorem call_append_group (hbefore : Chars.Ungrouped before.toList) :
    call (before ++ "(" ++ inside ++ ")" ++ rest) =
      (String.ofList (Chars.trimEnd before.toList), some inside) := by
  have hcall := Chars.call_eq_some_iff.mpr ⟨_, _, rfl, hbefore, hclose, rfl⟩
  rw [call, toList_append_group, hcall]
  simp

end Closed

/-- The parts of a word with a group stand in it one behind the other, with all blanks in front of
the group between them, and the group is the one at the first parenthesis at the top.  A group
behind a text without one is found with both of its offsets, if what it holds closes no more than it
has opened and leaves nothing open. -/
theorem call_sound_and_complete :
    (∀ word name inside : String, call word = (name, some inside) → ∃ blanks rest : String,
      word = name ++ blanks ++ "(" ++ inside ++ ")" ++ rest ∧
      (∀ c ∈ name.toList.getLast?, isBlank c = false) ∧
      (∀ c ∈ blanks.toList, isBlank c = true) ∧ Chars.Ungrouped (name ++ blanks).toList ∧
      findTop '(' word = some (name ++ blanks).utf8ByteSize ∧
      closingOffset (name ++ blanks).utf8ByteSize word =
        some (name ++ blanks ++ "(" ++ inside).utf8ByteSize) ∧
    ∀ name inside rest : String, Chars.Ungrouped name.toList →
      Chars.Uncut Nesting.closesGroup .top inside.toList → Nesting.top.run inside.toList = .top →
      findTop '(' (name ++ "(" ++ inside ++ ")" ++ rest) = some name.utf8ByteSize ∧
      closingOffset name.utf8ByteSize (name ++ "(" ++ inside ++ ")" ++ rest) =
        some (name ++ "(" ++ inside).utf8ByteSize ∧
      call (name ++ "(" ++ inside ++ ")" ++ rest) =
        (String.ofList (Chars.trimEnd name.toList), some inside) := by
  constructor
  · intro word name inside hcall
    obtain ⟨blanks, rest, rfl, hlast, hblanks, hfront, hclose⟩ :=
      exists_append_group_of_call hcall
    exact ⟨blanks, rest, rfl, hlast, hblanks, hfront, findTop_append_group hfront inside rest,
      closingOffset_append_group hclose (name ++ blanks)⟩
  · intro name inside rest hname hclosing hrun
    have hinside := Chars.balanced_iff_uncut_closesGroup.mpr ⟨hclosing, hrun⟩
    have hclose := Chars.closeGroup_append hinside rest.toList
    exact ⟨findTop_append_group hname inside rest, closingOffset_append_group hclose name,
      call_append_group hclose hname⟩

theorem call_sound_and_complete_quoted :
    Chars.Ungrouped "\"ß(\"\"\"\u3000".toList ∧
      Chars.Uncut Nesting.closesGroup .top "a[1], 'é)'''".toList ∧
      Nesting.top.run "a[1], 'é)'''".toList = .top ∧
      findTop '(' "\"ß(\"\"\"\u3000(a[1], 'é)''') -- x" = some 10 ∧
      closingOffset 10 "\"ß(\"\"\"\u3000(a[1], 'é)''') -- x" = some 24 ∧
      call "\"ß(\"\"\"\u3000(a[1], 'é)''') -- x" = ("\"ß(\"\"\"", some "a[1], 'é)'''") ∧
      ∃ blanks rest : String, "\"ß(\"\"\"\u3000(a[1], 'é)''') -- x" =
          "\"ß(\"\"\"" ++ blanks ++ "(" ++ "a[1], 'é)'''" ++ ")" ++ rest ∧
        ∀ c ∈ blanks.toList, isBlank c = true := by
  have hname : Chars.Ungrouped "\"ß(\"\"\"\u3000".toList := ⟨by decide, by decide⟩
  have hclosing : Chars.Uncut Nesting.closesGroup .top "a[1], 'é)'''".toList := by decide
  have hrun : Nesting.top.run "a[1], 'é)'''".toList = .top := by decide
  -- The name takes seven bytes, two of them for the ß, and the wide space behind it three.
  obtain ⟨hopening, hclose, hcall⟩ := call_sound_and_complete.2 "\"ß(\"\"\"\u3000" "a[1], 'é)'''"
    " -- x" hname hclosing hrun
  obtain ⟨blanks, rest, hword, -, hblanks, -⟩ := call_sound_and_complete.1 _ _ _ hcall
  exact ⟨hname, hclosing, hrun, hopening, hclose, hcall, blanks, rest, hword, hblanks⟩

end Text

end Schemata
