import Mathlib.Data.List.Forall2
import Schemata.Json.Scan

/-!
# Printed JSON is read in one way

A printed value can be told from its text, also when more text stands behind it.  Strings are read
back by the scanner of settings files (`Json.scanString?_quoted`).  A value is told from the start
of a text by its first character and then part by part (`Json.definite_render`), where only a number
depends on what follows: its digits end at the first character that is none (`Json.Stops`).

No parser of values is needed for this.  That a text can be printed from one value only is stated
of two values whose texts, with more behind each, are equal (`Json.Definite`): then the values are
equal, and so is what stands behind.  In this form the statement goes through lists, for what stands
behind an item is the next one, and through levels, for the indentation is the same on both sides.

* `Json.quoted_append_inj`: a printed string ends at its closing quote, whatever it holds.
* `Json.definite_enclosed`: the items of an array and the members of an object are told apart.
* `Json.pretty_inj`: different values are printed differently.
-/

namespace Schemata

namespace Json

/-! ## Strings -/

theorem hexValue?_hexDigit : ∀ value < 16, hexValue? (hexDigit value) = some value := by
  decide

/-- A character is printed as a backslash and a letter, by its number, or as it is. -/
theorem escape_cases (c : Char) :
    (∃ letter, letter ≠ 'u' ∧ escaped? letter = some c ∧ escape c = ['\\', letter]) ∨
    (c.toNat < 0x20 ∧ escape c =
      ['\\', 'u', '0', '0', hexDigit (c.toNat / 16), hexDigit (c.toNat % 16)]) ∨
    (c ≠ '\x22' ∧ c ≠ '\\' ∧ 0x20 ≤ c.toNat ∧ escape c = [c]) := by
  by_cases hnamed : c ∈ ['\x22', '\\', '\x08', '\x0c', '\n', '\r', '\t']
  · refine Or.inl ?_
    simp only [List.mem_cons, List.not_mem_nil, or_false] at hnamed
    rcases hnamed with rfl | rfl | rfl | rfl | rfl | rfl | rfl <;>
      exact ⟨_, by decide, by decide, rfl⟩
  · refine Or.inr ?_
    simp only [List.mem_cons, List.not_mem_nil, or_false, not_or] at hnamed
    by_cases hcontrol : c.toNat < 0x20
    · exact Or.inl ⟨hcontrol, by simp [escape, hnamed, hcontrol]⟩
    · exact Or.inr ⟨hnamed.1, hnamed.2.1, by omega, by simp [escape, hnamed, hcontrol]⟩

/-- The part of a string stands for the character, and is no half of a pair. -/
def StringPart.Spells (part : StringPart) (c : Char) : Prop :=
  match part with
  | .char d => d = c
  | .unit code => code = c.toNat ∧ code < 0xD800

theorem stringParts?_backslash {letter c : Char} (hletter : letter ≠ 'u')
    (hescaped : escaped? letter = some c) (rest : List Char) :
    stringParts? ('\\' :: letter :: rest) =
      (stringParts? rest).map fun (parts, behind) => (.char c :: parts, behind) := by
  rw [stringParts?]
  · rw [hescaped]
    cases stringParts? rest <;> rfl
  · rintro _ _ _ _ _ hunit
    simp_all

theorem stringParts?_unit {high low : Nat} (hhigh : high < 16) (hlow : low < 16)
    (rest : List Char) :
    stringParts? ('\\' :: 'u' :: '0' :: '0' :: hexDigit high :: hexDigit low :: rest) =
      (stringParts? rest).map fun (parts, behind) =>
        (.unit (high * 16 + low) :: parts, behind) := by
  have hzero : hexValue? '0' = some 0 := by decide
  rw [stringParts?, hzero, hexValue?_hexDigit high hhigh, hexValue?_hexDigit low hlow]
  cases stringParts? rest with
  | none => rfl
  | some found => simp

theorem stringParts?_cons {c : Char} (hquote : c ≠ '\x22') (hbackslash : c ≠ '\\')
    (hcontrol : 0x20 ≤ c.toNat) (rest : List Char) :
    stringParts? (c :: rest) =
      (stringParts? rest).map fun (parts, behind) => (.char c :: parts, behind) := by
  have hplain : (decide (c.toNat < 0x20) || c == '\\') = false := by
    simp [hbackslash, hcontrol]
  rw [stringParts?]
  · rw [if_neg (by simpa using hquote), hplain]
    cases stringParts? rest <;> rfl
  · simp_all
  · simp_all

/-- Each printed character is one part. -/
theorem exists_part (c : Char) : ∃ part : StringPart, part.Spells c ∧ ∀ rest,
    stringParts? (escape c ++ rest) =
      (stringParts? rest).map fun (parts, behind) => (part :: parts, behind) := by
  rcases escape_cases c with ⟨letter, hletter, hescaped, hprinted⟩ | ⟨hcontrol, hprinted⟩ |
    ⟨hquote, hbackslash, hcontrol, hprinted⟩
  · rw [hprinted]
    exact ⟨.char c, rfl, stringParts?_backslash hletter hescaped⟩
  · rw [hprinted]
    refine ⟨.unit (c.toNat / 16 * 16 + c.toNat % 16), ⟨by omega, by omega⟩, ?_⟩
    exact stringParts?_unit (by omega) (by omega)
  · rw [hprinted]
    exact ⟨.char c, rfl, stringParts?_cons hquote hbackslash hcontrol⟩

theorem exists_parts (text rest : List Char) : ∃ parts, List.Forall₂ StringPart.Spells parts text ∧
    stringParts? (text.flatMap escape ++ '\x22' :: rest) = some (parts, rest) := by
  induction text with
  | nil =>
      refine ⟨[], .nil, ?_⟩
      rw [List.flatMap_nil, List.nil_append, stringParts?]
      · rfl
      · rintro _ _ _ _ _ hunit
        cases hunit
      · rintro _ _ hletter
        cases hletter
  | cons c others ih =>
      obtain ⟨parts, hspells, hparts⟩ := ih
      obtain ⟨part, hpart, hfirst⟩ := exists_part c
      refine ⟨part :: parts, .cons hpart hspells, ?_⟩
      rw [List.flatMap_cons, List.append_assoc, hfirst, hparts]
      rfl

/-- Parts that stand for characters are joined to them. -/
theorem joinParts?_of_spells {parts : List StringPart} {text : List Char}
    (hspells : List.Forall₂ StringPart.Spells parts text) : joinParts? parts = some text := by
  induction hspells with
  | nil => rfl
  | @cons part c parts text hpart hrest ih =>
      cases part with
      | char d =>
          obtain rfl : d = c := hpart
          rw [joinParts?, ih]
          rfl
      | unit code =>
          obtain ⟨rfl, hcode⟩ := hpart
          have hhigh : isHighSurrogate c.toNat = false := by
            simp only [isHighSurrogate, Bool.and_eq_false_iff, decide_eq_false_iff_not]
            omega
          have hlow : isLowSurrogate c.toNat = false := by
            simp only [isLowSurrogate, Bool.and_eq_false_iff, decide_eq_false_iff_not]
            omega
          -- Whether another unit follows makes a difference for halves of a pair only.
          rcases parts with _ | ⟨_ | _, _⟩
          · cases hrest
            simp [joinParts?, hhigh, hlow, Char.ofNat_toNat]
          · rw [joinParts?] <;> simp [hhigh, hlow, ih]
          · rw [joinParts?]
            simp [hhigh, hlow, ih]

/-- A printed string is read back, whatever stands behind it. -/
theorem scanString?_quoted (text : String) (rest : List Char) :
    scanString? (quoted text ++ rest) = some (text, rest) := by
  obtain ⟨parts, hspells, hparts⟩ := exists_parts text.toList rest
  have hquote : expect? '\x22' (quoted text ++ rest) =
      some (text.toList.flatMap escape ++ '\x22' :: rest) := by
    simp [expect?, quoted, skipBlanks]
  rw [scanString?, hquote]
  simp only [Option.bind_eq_bind, Option.bind_some, hparts, joinParts?_of_spells hspells,
    String.ofList_toList]
  rfl

/-- A printed string ends at its closing quote, whatever it holds. -/
theorem quoted_append_inj {first second : String} {rest behind : List Char}
    (hsame : quoted first ++ rest = quoted second ++ behind) : first = second ∧ rest = behind := by
  have hread := scanString?_quoted first rest
  rw [hsame, scanString?_quoted] at hread
  cases hread
  exact ⟨rfl, rfl⟩

/-! ## Values told from the start of a text -/

/-- The text does not start with a digit, so that a number may stand in front of it. -/
def Stops (rest : List Char) : Prop :=
  ∀ c ∈ rest.head?, c.isDigit = false

variable {α : Type}

/-- Whatever stands behind it, the written value is told from its text, and so is its end. -/
def Definite (write : α → List Char) (value : α) : Prop :=
  ∀ ⦃other : α⦄ ⦃rest behind : List Char⦄, Stops rest → Stops behind →
    write value ++ rest = write other ++ behind → value = other ∧ rest = behind

theorem takeWhile_digits (value : Nat) {rest : List Char} (hrest : Stops rest) :
    (Nat.toDigits 10 value ++ rest).takeWhile Char.isDigit = Nat.toDigits 10 value := by
  have hdigits : ∀ c ∈ Nat.toDigits 10 value, c.isDigit = true := fun c hc =>
    Nat.isDigit_of_mem_toDigits (by decide) (by decide) hc
  rw [List.takeWhile_append_of_pos hdigits]
  cases rest with
  | nil => simp
  | cons c others => rw [List.takeWhile_cons_of_neg (by simp [hrest c rfl]), List.append_nil]

theorem definite_toDigits (value : Nat) : Definite (Nat.toDigits 10) value := by
  intro other rest behind hrest hbehind hsame
  have hdigits : Nat.toDigits 10 value = Nat.toDigits 10 other := by
    rw [← takeWhile_digits value hrest, hsame, takeWhile_digits other hbehind]
  refine ⟨?_, ?_⟩
  · rw [← Nat.ofDigitChars_ten_toDigits (n := value), hdigits, Nat.ofDigitChars_ten_toDigits]
  · rw [hdigits] at hsame
    exact List.append_cancel_left hsame

/-! ## Lists of values -/

/-- Items in front of a line break, each behind a comma, are told from their text. -/
theorem definite_flatMap {write : α → List Char} (front : List Char) (level : Nat)
    {items others : List α} {rest behind : List Char}
    (hitems : ∀ item ∈ items, Definite write item)
    (hsame : items.flatMap (fun item => ',' :: (front ++ write item)) ++ (newline level ++ rest) =
      others.flatMap (fun item => ',' :: (front ++ write item)) ++ (newline level ++ behind)) :
    items = others ∧ rest = behind := by
  -- Behind an item stands a comma or the line break.
  have hstops : ∀ (items : List α) (rest : List Char),
      Stops (items.flatMap (fun item => ',' :: (front ++ write item)) ++
        (newline level ++ rest)) := by
    intro items rest c hc
    cases items with
    | nil => cases hc; decide
    | cons item items => cases hc; decide
  induction items generalizing others with
  | nil =>
      cases others with
      | nil => exact ⟨rfl, List.append_cancel_left hsame⟩
      | cons other others => cases (List.cons.inj hsame).1
  | cons item items ih =>
      cases others with
      | nil => cases (List.cons.inj hsame).1
      | cons other others =>
          obtain ⟨hitem, hitems⟩ := List.forall_mem_cons.mp hitems
          simp only [List.flatMap_cons, List.cons_append, List.append_assoc] at hsame
          have hwritten := List.append_cancel_left (List.cons.inj hsame).2
          obtain ⟨rfl, hmore⟩ := hitem (hstops _ _) (hstops _ _) hwritten
          obtain ⟨rfl, hlast⟩ := ih hitems hmore
          exact ⟨rfl, hlast⟩

/-- The items of an array or an object up to its closing bracket, as printed at a level. -/
def enclosed (level : Nat) (closing : Char) (write : α → List Char) : List α → List Char
  | [] => [closing]
  | item :: items =>
      newline (level + 1) ++ write item ++
        items.flatMap (fun item => ',' :: (newline (level + 1) ++ write item)) ++ newline level ++
          [closing]

theorem renderItems_eq_flatMap (level : Nat) (items : List Json) :
    renderItems level items =
      items.flatMap fun item => ',' :: (newline level ++ render level item) := by
  induction items with
  | nil => rw [renderItems, List.flatMap_nil]
  | cons item items ih => rw [renderItems, ih, List.flatMap_cons, List.cons_append]

theorem renderMembers_eq_flatMap (level : Nat) (members : List (String × Json)) :
    renderMembers level members =
      members.flatMap fun member => ',' :: (newline level ++ renderMember level member) := by
  induction members with
  | nil => rw [renderMembers, List.flatMap_nil]
  | cons member members ih => rw [renderMembers, ih, List.flatMap_cons, List.cons_append]

theorem render_array (level : Nat) (items : List Json) :
    render level (array items) = '[' :: enclosed level ']' (render (level + 1)) items := by
  cases items with
  | nil => rw [render, enclosed]
  | cons item items => rw [render, enclosed, renderItems_eq_flatMap]

theorem render_object (level : Nat) (members : List (String × Json)) :
    render level (object members) =
      '\x7b' :: enclosed level '\x7d' (renderMember (level + 1)) members := by
  cases members with
  | nil => rw [render, enclosed]
  | cons member members => rw [render, enclosed, renderMembers_eq_flatMap]

theorem definite_enclosed {write : α → List Char} {level : Nat} {closing : Char}
    (hclosing : closing ≠ '\n') {items : List α} (hitems : ∀ item ∈ items, Definite write item) :
    Definite (enclosed level closing write) items := by
  intro others rest behind _ _ hsame
  cases items with
  | nil =>
      cases others with
      | nil => exact ⟨rfl, List.append_cancel_left hsame⟩
      | cons other others => exact absurd (List.cons.inj hsame).1 hclosing
  | cons item items =>
      cases others with
      | nil => exact absurd (List.cons.inj hsame).1.symm hclosing
      | cons other others =>
          simp only [enclosed, List.append_assoc] at hsame
          -- With a comma in front of the first items too, both sides are lists of items.
          have hlist : item :: items = other :: others ∧ closing :: rest = closing :: behind := by
            refine definite_flatMap (newline (level + 1)) level hitems ?_
            simpa only [List.flatMap_cons, List.append_assoc, List.cons_append, List.nil_append,
              List.cons.injEq, true_and] using hsame
          exact ⟨hlist.1, (List.cons.inj hlist.2).2⟩

/-! ## Values -/

theorem definite_renderMember {level : Nat} {member : String × Json}
    (hvalue : Definite (render level) member.2) : Definite (renderMember level) member := by
  intro other rest behind hrest hbehind hsame
  obtain ⟨name, value⟩ := member
  obtain ⟨otherName, otherValue⟩ := other
  simp only [renderMember, List.append_assoc] at hsame
  obtain ⟨rfl, hmore⟩ := quoted_append_inj hsame
  obtain ⟨rfl, hlast⟩ := hvalue hrest hbehind (List.append_cancel_left hmore)
  exact ⟨rfl, hlast⟩

/-- A number for the form of a value, which its first character shows. -/
def form : Json → Nat
  | null => 0
  | bool false => 1
  | bool true => 2
  | number _ => 3
  | string _ => 4
  | array _ => 5
  | object _ => 6

/-- The form of the values that are printed with a first character. -/
def formOf (c : Char) : Nat :=
  if c.isDigit then 3
  else if c == 'n' then 0
  else if c == 'f' then 1
  else if c == 't' then 2
  else if c == '\x22' then 4
  else if c == '[' then 5
  else 6

theorem exists_render_cons (level : Nat) (value : Json) :
    ∃ c others, render level value = c :: others ∧ formOf c = value.form := by
  match value with
  | null => exact ⟨'n', "ull".toList, by rw [render]; decide, rfl⟩
  | bool false => exact ⟨'f', "alse".toList, by rw [render]; decide, rfl⟩
  | bool true => exact ⟨'t', "rue".toList, by rw [render]; decide, rfl⟩
  | number value =>
      obtain ⟨c, others, hdigits⟩ :=
        List.exists_cons_of_ne_nil (Nat.toDigits_ne_nil (b := 10) (n := value))
      have hc : c.isDigit = true :=
        Nat.isDigit_of_mem_toDigits (by decide) (by decide) (hdigits ▸ List.mem_cons_self)
      exact ⟨c, others, by rw [render, hdigits], by rw [formOf, if_pos hc]; rfl⟩
  | string value => exact ⟨_, _, by rw [render, quoted], rfl⟩
  | array items => exact ⟨_, _, render_array level items, rfl⟩
  | object members => exact ⟨_, _, render_object level members, rfl⟩

theorem form_eq_of_render_append {first second : Json} {level : Nat} {rest behind : List Char}
    (hsame : render level first ++ rest = render level second ++ behind) :
    first.form = second.form := by
  obtain ⟨c, others, hfirst, hc⟩ := exists_render_cons level first
  obtain ⟨d, more, hsecond, hd⟩ := exists_render_cons level second
  rw [hfirst, hsecond] at hsame
  rw [← hc, ← hd, (List.cons.inj hsame).1]

/-- A printed value is told from the start of a text. -/
theorem definite_render (value : Json) (level : Nat) : Definite (render level) value := by
  intro other rest behind hrest hbehind hsame
  have hform := form_eq_of_render_append hsame
  -- by the form, which both values share; the parts of a list are smaller values, one level deeper
  match value, other, hform with
  | null, null, _ => exact ⟨rfl, List.append_cancel_left hsame⟩
  | bool false, bool false, _ => exact ⟨rfl, List.append_cancel_left hsame⟩
  | bool true, bool true, _ => exact ⟨rfl, List.append_cancel_left hsame⟩
  | number first, number second, _ =>
      rw [render, render] at hsame
      obtain ⟨rfl, hlast⟩ := definite_toDigits first hrest hbehind hsame
      exact ⟨rfl, hlast⟩
  | string first, string second, _ =>
      rw [render, render] at hsame
      obtain ⟨rfl, hlast⟩ := quoted_append_inj hsame
      exact ⟨rfl, hlast⟩
  | array items, array others, _ =>
      have hitems : ∀ item ∈ items, Definite (render (level + 1)) item :=
        fun item hitem => definite_render item (level + 1)
      rw [render_array, render_array] at hsame
      obtain ⟨rfl, hlast⟩ :=
        definite_enclosed (by decide) hitems hrest hbehind (List.cons.inj hsame).2
      exact ⟨rfl, hlast⟩
  | object members, object others, _ =>
      have hmembers : ∀ member ∈ members, Definite (renderMember (level + 1)) member :=
        fun member hmember => definite_renderMember (definite_render member.2 (level + 1))
      rw [render_object, render_object] at hsame
      obtain ⟨rfl, hlast⟩ :=
        definite_enclosed (by decide) hmembers hrest hbehind (List.cons.inj hsame).2
      exact ⟨rfl, hlast⟩
termination_by sizeOf value
decreasing_by
  · have hsize := List.sizeOf_lt_of_mem hitem
    simp only [array.sizeOf_spec]
    omega
  · have hsize := List.sizeOf_lt_of_mem hmember
    have hparts : sizeOf member = 1 + sizeOf member.1 + sizeOf member.2 := rfl
    simp only [object.sizeOf_spec]
    omega

/-- Different values are printed differently. -/
theorem pretty_inj {first second : Json} : first.pretty = second.pretty ↔ first = second := by
  refine ⟨fun hsame => ?_, congrArg pretty⟩
  have hchars : render 0 first = render 0 second := String.ofList_injective hsame
  have hnil : Stops [] := fun c hc => nomatch hc
  exact (definite_render first 0 hnil hnil (congrArg (· ++ []) hchars)).1

end Json

end Schemata
