import Schemata.Proofs.Statement.Body
import Schemata.Proofs.Text.Balance

/-!
# Texts with a known opening

Of a text that is typed by someone else only the opening may be known.  It survives what reading
does to the text, as long as a blank or nothing follows it (`Chars.Opens`): the words of the opening
are the first words, trimming and the loss of semicolons do not reach into it, and the first clause
opens like the text.

* `Chars.Opens.words_eq`: the words of the opening come first.
* `Chars.Opens.trim`, `Chars.Opens.body`: trimming and reading a statement keep the opening.
* `Chars.Opens.split`: the first clause has the opening of the text.
-/

namespace Schemata

namespace Chars

variable {cut : Char → Bool} {nesting : Nesting} {first opening text : List Char}

/-- The text is the opening, or the opening and more behind a blank. -/
def Opens (opening text : List Char) : Prop :=
  ∃ more, text = opening ++ more ∧ ∀ c ∈ more.head?, isBlank c = true

theorem opens_self (text : List Char) : Opens text text :=
  ⟨[], (List.append_nil text).symm, fun _ hc => nomatch hc⟩

theorem opens_append_blank (opening more : List Char) {c : Char} (hblank : isBlank c = true) :
    Opens opening (opening ++ c :: more) := by
  refine ⟨c :: more, rfl, fun d hd => ?_⟩
  cases hd
  exact hblank

/-- What stands in front of the opening stands in front of the text. -/
theorem opens_append_iff {front : List Char} :
    Opens (front ++ opening) text ↔ ∃ behind, text = front ++ behind ∧ Opens opening behind := by
  constructor
  · rintro ⟨more, rfl, hmore⟩
    exact ⟨opening ++ more, List.append_assoc _ _ _, more, rfl, hmore⟩
  · rintro ⟨_, rfl, more, rfl, hmore⟩
    exact ⟨more, (List.append_assoc _ _ _).symm, hmore⟩

/-! ## Words -/

theorem Opens.words_eq (hopens : Opens opening text) (hrun : Nesting.top.run opening = .top) :
    ∃ others, words text = words opening ++ others := by
  obtain ⟨more, rfl, hmore⟩ := hopens
  cases more with
  | nil => exact ⟨[], by simp⟩
  | cons c rest => exact ⟨words rest, words_append_of_run hrun (hmore c rfl) rest⟩

/-! ## Ends that are dropped -/

/-- The end of a text does not reach into an opening that ends in another character. -/
theorem Opens.of_append {kept dropped : List Char} (hopens : Opens opening (kept ++ dropped))
    {c : Char} (hlast : opening.getLast? = some c) (hc : c ∉ dropped) : Opens opening kept := by
  obtain ⟨more, happend, hmore⟩ := hopens
  rcases List.append_eq_append_iff.mp happend with ⟨cut, hcut, hdropped⟩ | ⟨rest, hkept, hrest⟩
  · have hnil : cut = [] := by
      by_contra hne
      have hmem : c ∈ cut := by
        rw [hcut, List.getLast?_append_of_ne_nil _ hne] at hlast
        exact List.mem_of_getLast? hlast
      exact hc (hdropped ▸ List.mem_append_left _ hmem)
    rw [hcut, hnil, List.append_nil]
    exact opens_self kept
  · refine ⟨rest, hkept, fun d hd => hmore d ?_⟩
    rw [hrest, List.head?_append, Option.mem_def.mp hd]
    rfl

/-- Blanks in front of a text are not part of it. -/
theorem Opens.trimStart (hopens : Opens opening text) (htrimmed : Trimmed opening)
    (hne : opening ≠ []) : Chars.trimStart text = text := by
  obtain ⟨more, rfl, -⟩ := hopens
  refine trimStart_eq_self fun c hc => htrimmed.head c ?_
  obtain ⟨d, rest, rfl⟩ := List.exists_cons_of_ne_nil hne
  exact hc

theorem Opens.trim (hopens : Opens opening text) (htrimmed : Trimmed opening)
    (hne : opening ≠ []) : Opens opening (Chars.trim text) := by
  obtain ⟨dropped, hdropped, hblank⟩ := exists_append_dropped isBlank text
  have hlast := List.getLast?_eq_some_getLast hne
  have hend : isBlank (opening.getLast hne) = false := htrimmed.last _ hlast
  rw [Chars.trim, hopens.trimStart htrimmed hne, trimEnd]
  rw [hdropped] at hopens
  refine hopens.of_append hlast fun hmem => ?_
  rw [hblank _ hmem] at hend
  cases hend

/-! ## Clauses -/

theorem pieces_append (huncut : Uncut cut nesting first) (rest : List Char) :
    pieces cut nesting (first ++ rest) =
      (pieces cut (nesting.run first) rest).modifyHead (first ++ ·) := by
  induction first generalizing nesting with
  | nil =>
      obtain ⟨piece, others, hpieces⟩ :=
        List.exists_cons_of_ne_nil (pieces_ne_nil cut nesting rest)
      rw [List.nil_append, Nesting.run_nil, hpieces]
      rfl
  | cons c others ih =>
      obtain ⟨hkeep, hothers⟩ := huncut
      rw [List.cons_append, pieces, hkeep, ih hothers, Nesting.run_cons]
      obtain ⟨piece, others, hpieces⟩ :=
        List.exists_cons_of_ne_nil (pieces_ne_nil cut ((nesting.step c).run others) rest)
      rw [hpieces]
      rfl

/-- The first clause of a text has its opening, if no comma stands at the top of that. -/
theorem Opens.split (hopens : Opens opening text) (hlisted : IsListed opening) :
    ∃ clause others, split ',' text = clause :: others ∧ Opens opening clause := by
  obtain ⟨more, rfl, hmore⟩ := hopens
  obtain ⟨piece, others, hpieces⟩ := List.exists_cons_of_ne_nil (pieces_ne_nil (· == ',') .top more)
  obtain ⟨behind, rfl⟩ := pieces_beginning hpieces
  have hclause : Opens opening (opening ++ piece) := by
    refine ⟨piece, rfl, fun c hc => hmore c ?_⟩
    rw [List.head?_append, Option.mem_def.mp hc]
    rfl
  have htrim := hclause.trim hlisted.toTrimmed hlisted.ne_nil
  have hne : Chars.trim (opening ++ piece) ≠ [] := by
    obtain ⟨rest, hrest, -⟩ := htrim
    rw [hrest]
    exact List.append_ne_nil_of_left_ne_nil hlisted.ne_nil rest
  refine ⟨_, (others.map Chars.trim).filter (! ·.isEmpty), ?_, htrim⟩
  rw [Chars.split, pieces_append hlisted.uncut, hlisted.run_top, hpieces, List.modifyHead_cons,
    List.map_cons, List.filter_cons_of_pos (by simpa using hne)]

end Chars

/-- What is read of a statement has its opening, if that does not end in a blank or a semicolon. -/
theorem Chars.Opens.body {opening : List Char} {text : String}
    (hopens : Chars.Opens opening text.toList) (htrimmed : Chars.Trimmed opening)
    (hne : opening ≠ []) (hend : opening.getLast? ≠ some ';') :
    Chars.Opens opening (Statement.body text).toList := by
  obtain ⟨dropped, hdropped, hchars⟩ := Statement.exists_body_append text
  have hlast := List.getLast?_eq_some_getLast hne
  rw [hopens.trimStart htrimmed hne] at hdropped
  rw [hdropped] at hopens
  refine hopens.of_append hlast fun hmem => ?_
  rcases hchars _ hmem with hblank | hsemicolon
  · rw [htrimmed.last _ hlast] at hblank
    cases hblank
  · exact hend (hsemicolon ▸ hlast)

end Schemata
