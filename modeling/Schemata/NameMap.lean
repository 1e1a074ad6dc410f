/-!
# Maps from names

A `NameMap` holds one value for each of finitely many names, kept in the order of the names (by code
point), which is also the order in which it is listed.  The order is part of the type, so two maps
are equal exactly when they hold the same values under the same names (`NameMap.ext_find?`).

Each operation comes with one lemma that says what is found afterwards, such as
`NameMap.find?_insert`.  Two maps that were built in different ways are compared through these and
`NameMap.ext_find?`, so that the order in which names came in does not matter.
-/

namespace Schemata

/-- Entries in strictly increasing order of their names. -/
def Ordered {α : Type} (entries : List (String × α)) : Prop :=
  entries.Pairwise fun first second => first.1 < second.1

/-- The value of the first entry with a name. -/
def findEntry {α : Type} (name : String) : List (String × α) → Option α
  | [] => none
  | entry :: rest => if name = entry.1 then some entry.2 else findEntry name rest

/-- The entries with `value` under `name`, in place of an earlier value. -/
def insertEntry {α : Type} (name : String) (value : α) : List (String × α) → List (String × α)
  | [] => [(name, value)]
  | entry :: rest =>
      if name < entry.1 then (name, value) :: entry :: rest
      else if name = entry.1 then (name, value) :: rest
      else entry :: insertEntry name value rest

/-- An inserted entry is the new one or an old one. -/
theorem mem_insertEntry {α : Type} {name : String} {value : α} {entries : List (String × α)}
    {entry : String × α} (hmem : entry ∈ insertEntry name value entries) :
    entry = (name, value) ∨ entry ∈ entries := by
  induction entries with
  | nil => exact Or.inl (List.mem_singleton.mp hmem)
  | cons first rest ih =>
      rw [insertEntry] at hmem
      split at hmem
      · rcases List.mem_cons.mp hmem with rfl | hmem
        · exact Or.inl rfl
        · exact Or.inr hmem
      · split at hmem
        · rcases List.mem_cons.mp hmem with rfl | hmem
          · exact Or.inl rfl
          · exact Or.inr (List.mem_cons_of_mem _ hmem)
        · rcases List.mem_cons.mp hmem with rfl | hmem
          · exact Or.inr List.mem_cons_self
          · exact (ih hmem).imp id (List.mem_cons_of_mem _)

/-- Insertion keeps the order. -/
theorem ordered_insertEntry {α : Type} (name : String) (value : α) {entries : List (String × α)}
    (hordered : Ordered entries) : Ordered (insertEntry name value entries) := by
  induction entries with
  | nil => exact List.pairwise_singleton _ _
  | cons first rest ih =>
      obtain ⟨hfirst, hrest⟩ := List.pairwise_cons.mp hordered
      rw [insertEntry]
      split
      · rename_i hbefore
        refine List.pairwise_cons.mpr ⟨fun entry hentry => ?_, hordered⟩
        rcases List.mem_cons.mp hentry with rfl | hentry
        · exact hbefore
        · exact String.lt_trans hbefore (hfirst entry hentry)
      · split
        · rename_i hsame
          exact List.pairwise_cons.mpr ⟨fun entry hentry => hsame ▸ hfirst entry hentry, hrest⟩
        · rename_i hnotBefore hdifferent
          refine List.pairwise_cons.mpr ⟨fun entry hentry => ?_, ih hrest⟩
          rcases mem_insertEntry hentry with rfl | hentry
          · refine String.not_le.mp fun hle => hdifferent ?_
            exact String.le_antisymm hle (String.not_lt.mp hnotBefore)
          · exact hfirst entry hentry

/-- A finite map from names, listed in the order of the names. -/
structure NameMap (α : Type) where
  /-- The names with their values. -/
  entries : List (String × α)
  /-- The names are in strictly increasing order. -/
  ordered : Ordered entries
  deriving DecidableEq

namespace NameMap

variable {α β : Type}

/-- The map without names. -/
def empty : NameMap α := ⟨[], List.Pairwise.nil⟩

instance : Inhabited (NameMap α) := ⟨empty⟩

/-- The value under a name. -/
def find? (map : NameMap α) (name : String) : Option α :=
  findEntry name map.entries

/-- The map has the name. -/
def contains (map : NameMap α) (name : String) : Bool :=
  (map.find? name).isSome

/-- The names in order. -/
def names (map : NameMap α) : List String :=
  map.entries.map Prod.fst

/-- The values in the order of their names. -/
def values (map : NameMap α) : List α :=
  map.entries.map Prod.snd

/-- The map with `value` under `name`, in place of an earlier value. -/
def insert (map : NameMap α) (name : String) (value : α) : NameMap α :=
  ⟨insertEntry name value map.entries, ordered_insertEntry name value map.ordered⟩

/-- The map without a name. -/
def erase (map : NameMap α) (name : String) : NameMap α :=
  ⟨map.entries.filter (·.1 != name), map.ordered.filter _⟩

/-- The map with every value changed. -/
def map (names : NameMap α) (change : α → β) : NameMap β :=
  ⟨names.entries.map fun entry => (entry.1, change entry.2),
    List.pairwise_map.mpr (names.ordered.imp id)⟩

/-- The map with the value under one name changed, if there is one. -/
def modify (map : NameMap α) (name : String) (change : α → α) : NameMap α :=
  match map.find? name with
  | some value => map.insert name (change value)
  | none => map

/-- The map of a list of names with values; later values win. -/
def ofList (list : List (String × α)) : NameMap α :=
  list.foldl (fun map entry => map.insert entry.1 entry.2) empty

/-! ## Reading after writing -/

private theorem findEntry_eq_none {entries : List (String × α)} {name : String}
    (hlater : ∀ entry ∈ entries, name < entry.1) : findEntry name entries = none := by
  induction entries with
  | nil => rfl
  | cons entry rest ih =>
      have hne : name ≠ entry.1 := fun heq =>
        String.lt_irrefl name (heq ▸ hlater entry List.mem_cons_self)
      rw [findEntry, if_neg hne]
      exact ih fun other hother => hlater other (List.mem_cons_of_mem _ hother)

@[simp]
theorem find?_empty (name : String) : (empty : NameMap α).find? name = none := rfl

/-- An inserted value is found under its name and nothing else changes. -/
theorem find?_insert (map : NameMap α) (name : String) (value : α) (query : String) :
    (map.insert name value).find? query =
      if query = name then some value else map.find? query := by
  obtain ⟨entries, hordered⟩ := map
  simp only [insert, find?]
  clear hordered
  induction entries with
  | nil => rfl
  | cons entry rest ih =>
      rw [insertEntry]
      split
      · rfl
      · split
        · rename_i hsame
          by_cases hquery : query = name
          · simp [findEntry, hquery]
          · simp [findEntry, hquery, ← hsame]
        · rename_i hdifferent
          by_cases hquery : query = entry.1
          · simp [findEntry, hquery, Ne.symm hdifferent]
          · simp [findEntry, hquery, ih]

/-- An erased name is not found and nothing else changes. -/
theorem find?_erase (map : NameMap α) (name query : String) :
    (map.erase name).find? query = if query = name then none else map.find? query := by
  obtain ⟨entries, hordered⟩ := map
  simp only [erase, find?]
  clear hordered
  induction entries with
  | nil => simp [findEntry]
  | cons entry rest ih =>
      by_cases hentry : entry.1 = name
      · by_cases hquery : query = name
        · simpa [hentry, hquery] using ih
        · simp [hentry, hquery, findEntry, ih]
      · by_cases hquery : query = entry.1
        · simp [hentry, hquery, findEntry]
        · simp [hentry, hquery, findEntry, ih]

/-- A changed map holds the changed values. -/
theorem find?_map (map : NameMap α) (change : α → β) (query : String) :
    (map.map change).find? query = (map.find? query).map change := by
  obtain ⟨entries, hordered⟩ := map
  simp only [NameMap.map, find?]
  clear hordered
  induction entries with
  | nil => rfl
  | cons entry rest ih => by_cases hquery : query = entry.1 <;> simp [findEntry, hquery, ih]

/-- A list that answers like another one does not start behind it. -/
theorem first_le_of_findEntry {entry other : String × α} {rest others : List (String × α)}
    (hrest : ∀ later ∈ rest, entry.1 < later.1)
    (hsame : ∀ name, findEntry name (entry :: rest) = findEntry name (other :: others)) :
    entry.1 ≤ other.1 := by
  refine String.not_lt.mp fun hlt => ?_
  have hnone : findEntry other.1 (entry :: rest) = none :=
    findEntry_eq_none (List.forall_mem_cons.mpr
      ⟨hlt, fun later hlater => String.lt_trans hlt (hrest later hlater)⟩)
  rw [hsame] at hnone
  simp [findEntry] at hnone

/-- Two maps with the same values under the same names are equal. -/
theorem ext_find? {first second : NameMap α}
    (hsame : ∀ name, first.find? name = second.find? name) : first = second := by
  obtain ⟨firstEntries, hfirst⟩ := first
  obtain ⟨secondEntries, hsecond⟩ := second
  simp only [find?] at hsame
  suffices heq : firstEntries = secondEntries by subst heq; rfl
  -- on the entries of the first map: the first entries are equal, and behind them no query has the
  -- first name
  induction firstEntries generalizing secondEntries with
  | nil =>
      cases secondEntries with
      | nil => rfl
      | cons entry rest => simpa [findEntry] using hsame entry.1
  | cons entry rest ih =>
      cases secondEntries with
      | nil => simpa [findEntry] using hsame entry.1
      | cons other others =>
          obtain ⟨hentry, hrest⟩ := List.pairwise_cons.mp hfirst
          obtain ⟨hother, hothers⟩ := List.pairwise_cons.mp hsecond
          have hname : entry.1 = other.1 := String.le_antisymm
            (first_le_of_findEntry hentry hsame)
            (first_le_of_findEntry hother fun name => (hsame name).symm)
          have hvalue : entry.2 = other.2 := by
            simpa [findEntry, hname] using hsame entry.1
          obtain rfl : entry = other := Prod.ext hname hvalue
          congr 1
          refine ih hrest others hothers fun name => ?_
          by_cases hquery : name = entry.1
          · rw [hquery, findEntry_eq_none hentry, findEntry_eq_none hother]
          · simpa [findEntry, hquery] using hsame name

end NameMap

end Schemata
