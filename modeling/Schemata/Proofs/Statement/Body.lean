import Schemata.Proofs.Text.Scanning
import Schemata.Statement.Reading

/-!
# What is read of a statement

Reading a statement drops blanks around its text and semicolons behind it, and nothing else.  What
is left is read by its kind (`Statement.read_eq_readKind`), and a text that has none of these is
read as it stands (`Statement.read_eq`).

The kind is decided by the first words, and the reader of the kind starts from the first word again.
So a fact about one kind of statement needs the kind and the words, and these lemmas are the only
place where the dispatch on the kind is opened; `Statement.read_alterTable` is the same for a text
of which just the first words are known.
-/

namespace Schemata

namespace Statement

/-- Reading a statement drops nothing but blanks and semicolons from the end of its text. -/
theorem exists_body_append (text : String) :
    ∃ dropped, Chars.trimStart text.toList = (body text).toList ++ dropped ∧
      ∀ c ∈ dropped, isBlank c = true ∨ c = ';' := by
  obtain ⟨outer, houter, houterBlank⟩ :=
    Chars.exists_append_dropped isBlank (Chars.trimStart text.toList)
  obtain ⟨semicolons, hends, hsemicolon⟩ :=
    Chars.exists_append_dropped (· == ';') (Chars.trim text.toList)
  obtain ⟨inner, hinner, hinnerBlank⟩ := Chars.exists_append_dropped isBlank
    ((Chars.trim text.toList).reverse.dropWhile (· == ';')).reverse
  refine ⟨inner ++ semicolons ++ outer, ?_, fun c hc => ?_⟩
  · calc Chars.trimStart text.toList = Chars.trim text.toList ++ outer := houter
      _ = (body text).toList ++ inner ++ semicolons ++ outer := by
        rw [body, String.toList_ofList, Chars.trimEnd, ← hinner, ← hends]
      _ = (body text).toList ++ (inner ++ semicolons ++ outer) := by
        simp only [List.append_assoc]
  · rcases List.mem_append.mp hc with hc | hc
    · rcases List.mem_append.mp hc with hc | hc
      · exact Or.inl (hinnerBlank c hc)
      · exact Or.inr (eq_of_beq (hsemicolon c hc))
    · exact Or.inl (houterBlank c hc)

/-- What is read of a statement is a beginning of its text. -/
theorem body_beginning (text : String) : (body text).toList <+: Chars.trim text.toList := by
  rw [body, String.toList_ofList]
  refine (Chars.trimEnd_beginning _).trans ?_
  rw [← List.reverse_suffix, List.reverse_reverse]
  exact List.dropWhile_suffix _

theorem body_eq_self {text : String} (htrimmed : Chars.Trimmed text.toList)
    (hend : text.toList.getLast? ≠ some ';') : body text = text := by
  rw [← List.head?_reverse] at hend
  have hkeep : text.toList.reverse.dropWhile (· == ';') = text.toList.reverse := by
    cases hreverse : text.toList.reverse with
    | nil => rfl
    | cons c rest =>
        rw [hreverse] at hend
        have hc : c ≠ ';' := fun hc => hend (hc ▸ rfl)
        rw [List.dropWhile_cons_of_neg (by simpa using hc)]
  rw [body, htrimmed.trim_eq, hkeep, List.reverse_reverse, Chars.trimEnd_eq_self htrimmed.last,
    String.ofList_toList]

variable {origin : Origin} {text : String}

/-- A statement of a known kind is what the reader of its kind makes of it. -/
theorem read_eq_readKind {kind : Kind} (hkind : Kind.ofWords? (Text.words (body text)) = some kind) :
    read origin text = readKind origin (body text) kind := by
  have hne : (body text).isEmpty = false := by
    refine beq_false_of_ne fun hsize => ?_
    rw [String.utf8ByteSize_eq_zero_iff.mp hsize] at hkind
    cases hkind
  unfold read
  simp only [hkind, hne]
  rfl

/-- A statement that starts with `ALTER TABLE` is one on a table, or it is refused. -/
theorem read_alterTable {words : List String}
    (hwords : Text.words (body text) = "ALTER" :: "TABLE" :: words) :
    read origin text = (AlterTable.read origin (body text)).map alterTable := by
  have hkind : Kind.ofWords? (Text.words (body text)) = some .alterTable := by
    rw [hwords]
    cases words <;> rfl
  rw [read_eq_readKind hkind, readKind]
  cases AlterTable.read origin (body text) <;> rfl

/-- A text without blanks around it and semicolons behind it is read as it stands. -/
theorem read_eq {kind : Kind} (htrimmed : Chars.Trimmed text.toList)
    (hend : text.toList.getLast? ≠ some ';')
    (hkind : Kind.ofWords? (Text.words text) = some kind) :
    read origin text = readKind origin text kind := by
  have hbody := body_eq_self htrimmed hend
  rw [read_eq_readKind (by rwa [hbody]), hbody]

end Statement

end Schemata
