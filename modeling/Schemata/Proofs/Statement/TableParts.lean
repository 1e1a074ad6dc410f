import Mathlib.Data.List.Induction
import Mathlib.Data.List.Perm.Basic
import Schemata.Proofs.PrimaryKeys

/-!
# The parts of a table

A clause of a table body is read as a column or as a constraint, whatever stands around it.  What
the clauses declare together is then a matter of their parts: a body is made of parts that have no
two columns of one name and one primary key at most, and it lists what they declare in the order
written.

The reader gathers the clauses from the left and asks of each one whether there is room for it.
`TableBody.ofParts` is what it has gathered, said of the parts alone, and `TablePart.Compatible` is
all that it has asked.  Neither depends on the order of the parts except through the order of what
is listed, which is how clauses can be moved.

* `TableBody.addPart_ofParts_iff`: one part more.
* `CreateTable.foldlM_readClause_ofParts_iff`: the clauses of a body, one after the other.
* `CreateTable.markColumns_of_perm`: the order of uniqueness constraints does not matter.
-/

namespace Schemata

/-- What a clause of a table body is read as. -/
inductive TablePart where
  | column (definition : ColumnDefinition)
  | constraint (constraint : TableConstraint)
  deriving DecidableEq, Repr, Inhabited

namespace TablePart

/-- The column that the part declares. -/
def column? : TablePart → Option Column
  | column definition => some definition.column
  | constraint _ => none

/-- The foreign key of the part. -/
def foreignKey? : TablePart → Option ForeignKeyConstraint
  | column definition => definition.foreignKey
  | constraint (.foreignKey key) => some key
  | constraint _ => none

/-- The columns of the part's table-level primary key. -/
def primaryKey? : TablePart → Option (List String)
  | constraint (.primaryKey _ columns) => some columns
  | _ => none

/-- The column that the part makes unique. -/
def unique? : TablePart → Option String
  | constraint (.unique _ [name]) => some name
  | _ => none

/-- The parts can stand in one table. -/
structure Compatible (parts : List TablePart) : Prop where
  /-- No two columns have one name. -/
  nodup : ((parts.filterMap column?).map Column.name).Nodup
  /-- There is one table-level primary key at most. -/
  single : (parts.filterMap primaryKey?).length ≤ 1
  /-- A primary key has columns. -/
  keyed : ∀ key ∈ parts.filterMap primaryKey?, key ≠ []

theorem compatible_nil : Compatible [] :=
  ⟨List.nodup_nil, Nat.zero_le 1, fun _ hkey => absurd hkey List.not_mem_nil⟩

variable {parts : List TablePart} {part : TablePart}

/-- What a list declares with one part more. -/
theorem filterMap_concat {β : Type} (declared : TablePart → Option β) (parts : List TablePart)
    (part : TablePart) : (parts ++ [part]).filterMap declared =
      parts.filterMap declared ++ (declared part).toList := by
  rw [List.filterMap_append]
  cases hpart : declared part <;> simp [hpart]

theorem Compatible.of_append {more : List TablePart} (hparts : Compatible (parts ++ more)) :
    Compatible parts := by
  obtain ⟨hnodup, hsingle, hkeyed⟩ := hparts
  rw [List.filterMap_append] at hnodup hsingle hkeyed
  rw [List.map_append] at hnodup
  rw [List.length_append] at hsingle
  exact ⟨hnodup.of_append_left, by omega, fun key hkey => hkeyed key (List.mem_append_left _ hkey)⟩

/-- One part more needs a new name for its column, and no other primary key beside its own. -/
theorem compatible_concat_iff (hparts : Compatible parts)
    (hkey : ∀ key ∈ part.primaryKey?, key ≠ []) : Compatible (parts ++ [part]) ↔
      (∀ column ∈ part.column?, column.name ∉ (parts.filterMap column?).map Column.name) ∧
        (part.primaryKey? ≠ none → parts.filterMap primaryKey? = []) := by
  have hnames : ((((parts ++ [part]).filterMap column?).map Column.name).Nodup ↔
      ∀ column ∈ part.column?, column.name ∉ (parts.filterMap column?).map Column.name) := by
    rw [filterMap_concat, List.map_append, List.nodup_append']
    cases part.column? <;> simp [hparts.nodup]
  have hsingle : ((parts ++ [part]).filterMap primaryKey?).length ≤ 1 ↔
      (part.primaryKey? ≠ none → parts.filterMap primaryKey? = []) := by
    rw [filterMap_concat, List.length_append]
    have hone := hparts.single
    cases part.primaryKey? <;> simp [hone]
  have hkeyed : ∀ key ∈ (parts ++ [part]).filterMap primaryKey?, key ≠ [] := by
    intro key hmem
    rw [filterMap_concat, List.mem_append, Option.mem_toList] at hmem
    exact hmem.elim (hparts.keyed key) (hkey key)
  exact ⟨fun hboth => ⟨hnames.mp hboth.nodup, hsingle.mp hboth.single⟩,
    fun hboth => ⟨hnames.mpr hboth.1, hsingle.mpr hboth.2, hkeyed⟩⟩

/-- The order of the parts does not matter. -/
theorem Compatible.of_perm {others : List TablePart} (hparts : Compatible parts)
    (hperm : parts.Perm others) : Compatible others := by
  have hcolumns := (hperm.filterMap column?).map Column.name
  have hkeys := hperm.filterMap primaryKey?
  exact ⟨hcolumns.nodup_iff.mp hparts.nodup, hkeys.length_eq ▸ hparts.single,
    fun key hkey => hparts.keyed key (hkeys.mem_iff.mpr hkey)⟩

/-- There is no order among primary keys, since there is one at most. -/
theorem Compatible.filterMap_primaryKey?_of_perm {others : List TablePart}
    (hparts : Compatible parts) (hperm : parts.Perm others) :
    parts.filterMap primaryKey? = others.filterMap primaryKey? := by
  have hkeys := hperm.filterMap primaryKey?
  have hsingle := hparts.single
  generalize parts.filterMap primaryKey? = keys at hkeys hsingle ⊢
  match keys with
  | [] => exact hkeys.nil_eq
  | [key] => exact hkeys.singleton_eq
  | _ :: _ :: _ => simp at hsingle

end TablePart

open TablePart (column? foreignKey? primaryKey? unique? Compatible compatible_nil filterMap_concat
  compatible_concat_iff)

namespace TableBody

/-- The body with one part more. -/
def addPart (body : TableBody) : TablePart → Except Fault TableBody
  | .column definition => body.addColumn definition
  | .constraint added => body.addConstraint added

/-- What the parts declare together. -/
def ofParts (parts : List TablePart) : TableBody where
  columns := parts.filterMap column?
  foreignKeys := parts.filterMap foreignKey?
  primaryKey := (parts.filterMap primaryKey?).flatten
  unique := parts.filterMap unique?

variable {parts : List TablePart} {part : TablePart} {body next : TableBody}

/-- A part that there is room for adds what it declares to the body. -/
theorem addPart_eq_ok_iff : body.addPart part = .ok next ↔
    (∀ column ∈ part.column?, column.name ∉ body.columns.map Column.name) ∧
      (part.primaryKey? ≠ none → body.primaryKey = []) ∧
        ⟨body.columns ++ part.column?.toList, body.foreignKeys ++ part.foreignKey?.toList,
          body.primaryKey ++ part.primaryKey?.getD [],
          body.unique ++ part.unique?.toList⟩ = next := by
  cases part with
  | column definition =>
      rw [addPart, addColumn_eq_ok_iff]
      simp [column?, foreignKey?, primaryKey?, unique?]
  | constraint added =>
      cases added with
      | primaryKey name columns =>
          rw [addPart, addConstraint]
          cases hkey : body.primaryKey <;> simp [column?, foreignKey?, primaryKey?, unique?]
      | unique name columns =>
          match columns with
          | [] | [_] | _ :: _ :: _ =>
              simp [addPart, addConstraint, column?, foreignKey?, primaryKey?, unique?]
      | _ => simp [addPart, addConstraint, column?, foreignKey?, primaryKey?, unique?]

/-- Parts of one table make the body that lists what they declare. -/
theorem addPart_ofParts_iff (hparts : Compatible parts)
    (hkey : ∀ key ∈ part.primaryKey?, key ≠ []) :
    (ofParts parts).addPart part = .ok next ↔
      Compatible (parts ++ [part]) ∧ ofParts (parts ++ [part]) = next := by
  have hfree : (ofParts parts).primaryKey = [] ↔ parts.filterMap primaryKey? = [] := by
    rw [ofParts, List.flatten_eq_nil_iff, List.eq_nil_iff_forall_not_mem]
    exact ⟨fun hnil key hmem => hparts.keyed key hmem (hnil key hmem),
      fun hnone key hmem => absurd hmem (hnone key)⟩
  have hbody : ofParts (parts ++ [part]) = ⟨(ofParts parts).columns ++ part.column?.toList,
      (ofParts parts).foreignKeys ++ part.foreignKey?.toList,
      (ofParts parts).primaryKey ++ part.primaryKey?.getD [],
      (ofParts parts).unique ++ part.unique?.toList⟩ := by
    simp only [ofParts, filterMap_concat, List.flatten_append]
    cases part.primaryKey? <;> simp
  rw [addPart_eq_ok_iff, compatible_concat_iff hparts hkey, hfree, hbody, and_assoc]
  rfl

end TableBody

/-! ## Reading parts -/

/-- The constraint is no primary key without columns. -/
def TableConstraint.HasKey : TableConstraint → Prop
  | primaryKey _ columns => columns ≠ []
  | _ => True

namespace TableConstraint

open Reading

theorem returns_readPrimaryKey (name : Option String) :
    Returns HasKey (readPrimaryKey name) := by
  refine returns_bind fun _ => returns_bind fun key => returns_bind fun inside => ?_
  split
  · exact returns_fail _
  · rename_i hne
    exact returns_pure hne

theorem returns_readForeignKey (name : Option String) :
    Returns HasKey (readForeignKey name) := by
  refine returns_bind fun _ => returns_bind fun key => returns_bind fun inside => ?_
  split
  · exact returns_fail _
  · refine returns_bind fun _ => returns_bind fun written => ?_
    dsimp only
    split
    all_goals
      split
      · exact returns_pure trivial
      · exact returns_fail _

/-- A primary key that is read has columns. -/
theorem returns_readWords? : Returns (fun result => ∀ constraint ∈ result, HasKey constraint)
    readWords? := by
  have hsome : ∀ {action : Reading TableConstraint}, Returns HasKey action →
      Returns (fun result => ∀ constraint ∈ result, HasKey constraint)
        (do return some (← action)) := fun haction =>
    haction.bind fun _ hkey => returns_pure fun _ hsome => Option.mem_some_iff.mp hsome ▸ hkey
  refine returns_bind fun name => returns_bind fun reader => ?_
  split
  · exact hsome (returns_readPrimaryKey name)
  split
  · exact hsome (returns_readForeignKey name)
  split
  · exact hsome (returns_bind fun _ => returns_bind fun _ => returns_pure trivial)
  split
  · exact hsome (returns_bind fun _ => returns_bind fun _ => returns_pure trivial)
  split
  · exact returns_pure fun _ hother => Option.mem_some_iff.mp hother ▸ trivial
  · exact returns_pure fun _ hnone => absurd hnone (Option.not_mem_none _)

end TableConstraint

namespace CreateTable

variable {origin : Origin} {table clause text : String} {body : TableBody} {part : TablePart}

/-- Reads one clause, as a constraint or as a column. -/
def readPart (origin : Origin) (table clause : String) : Except ParseError TablePart := do
  match ← TableConstraint.read? origin clause with
  | some constraint => return .constraint constraint
  | none => return .column (← ColumnDefinition.read origin table clause)

theorem readPart_keyed (hread : readPart origin table clause = .ok part) :
    ∀ key ∈ part.primaryKey?, key ≠ [] := by
  intro key hkey
  rw [readPart, except_bind_eq_ok] at hread
  obtain ⟨constraint?, hconstraint, hread⟩ := hread
  have hkeyed := TableConstraint.returns_readWords?.ofText hconstraint
  cases constraint? with
  | none =>
      simp only [except_bind_eq_ok, except_pure_eq_ok] at hread
      obtain ⟨definition, -, rfl⟩ := hread
      cases hkey
  | some constraint =>
      cases hread
      have hconstraint := hkeyed constraint rfl
      cases constraint with
      | primaryKey name columns =>
          cases hkey
          exact hconstraint
      | _ => cases hkey

/-- A clause is read as a part, and the part is added. -/
theorem readClause_eq_ok_iff {next : TableBody} :
    readClause origin text table body clause = .ok next ↔
      ∃ part, readPart origin table clause = .ok part ∧ body.addPart part = .ok next := by
  simp only [readClause, readPart, except_bind_eq_ok]
  constructor
  · rintro ⟨constraint?, hconstraint, hadd⟩
    cases constraint? with
    | some constraint =>
        exact ⟨.constraint constraint, ⟨_, hconstraint, rfl⟩, blame_eq_ok_iff.mp hadd⟩
    | none =>
        obtain ⟨definition, hdefinition, hadd⟩ := except_bind_eq_ok.mp hadd
        exact ⟨.column definition, ⟨_, hconstraint, except_bind_eq_ok.mpr ⟨_, hdefinition, rfl⟩⟩,
          blame_eq_ok_iff.mp hadd⟩
  · rintro ⟨part, ⟨constraint?, hconstraint, hpart⟩, hadd⟩
    refine ⟨constraint?, hconstraint, ?_⟩
    cases constraint? with
    | some constraint =>
        cases hpart
        exact blame_eq_ok_iff.mpr hadd
    | none =>
        obtain ⟨definition, hdefinition, hpart⟩ := except_bind_eq_ok.mp hpart
        cases hpart
        exact except_bind_eq_ok.mpr ⟨definition, hdefinition, blame_eq_ok_iff.mpr hadd⟩

/-- The parts that the clauses are read as. -/
def partsOf (origin : Origin) (table : String) (clauses : List String) : List TablePart :=
  clauses.filterMap fun clause => (readPart origin table clause).toOption

theorem partsOf_concat (hread : readPart origin table clause = .ok part) (clauses : List String) :
    partsOf origin table (clauses ++ [clause]) = partsOf origin table clauses ++ [part] := by
  rw [partsOf, List.filterMap_append, ← partsOf]
  simp [hread, Except.toOption]

/-- The clauses make a body if each of them is read and their parts can stand in one table; the body
lists what the parts declare. -/
theorem foldlM_readClause_ofParts_iff {clauses : List String} :
    clauses.foldlM (readClause origin text table) .empty = .ok body ↔
      (∀ clause ∈ clauses, ∃ part, readPart origin table clause = .ok part) ∧
        Compatible (partsOf origin table clauses) ∧
          TableBody.ofParts (partsOf origin table clauses) = body := by
  -- The parts of the clauses so far make the body that the last clause is added to.
  induction clauses using List.reverseRecOn generalizing body with
  | nil =>
      rw [List.foldlM_nil, except_pure_eq_ok]
      exact ⟨fun hbody => ⟨fun _ hclause => absurd hclause List.not_mem_nil, compatible_nil, hbody⟩,
        fun hbody => hbody.2.2⟩
  | append_singleton clauses clause ih =>
      rw [List.foldlM_append, except_bind_eq_ok]
      simp only [ih, List.foldlM_cons, List.foldlM_nil, bind_pure, readClause_eq_ok_iff,
        List.forall_mem_append, List.forall_mem_singleton]
      constructor
      · rintro ⟨middle, ⟨hclauses, hcompatible, rfl⟩, part, hpart, hadd⟩
        rw [partsOf_concat hpart]
        exact ⟨⟨hclauses, part, hpart⟩,
          (TableBody.addPart_ofParts_iff hcompatible (readPart_keyed hpart)).mp hadd⟩
      · rintro ⟨⟨hclauses, part, hpart⟩, hbody⟩
        rw [partsOf_concat hpart] at hbody
        have hcompatible := hbody.1.of_append
        exact ⟨_, ⟨hclauses, hcompatible, rfl⟩, part, hpart,
          (TableBody.addPart_ofParts_iff hcompatible (readPart_keyed hpart)).mpr hbody⟩

/-! ## The statement -/

/-- Whether a key column is found and allowed does not depend on the text. -/
theorem markKey_in_text {columns next : List Column} {key : String} (other : String)
    (hmark : markKey origin text table columns key = .ok next) :
    markKey origin other table columns key = .ok next := by
  unfold markKey at hmark ⊢
  split at hmark
  · cases hmark
  · exact hmark

/-- A change that keeps names may be made to the columns of two names in either order. -/
theorem mapColumn_comm {change : Column → Column}
    (hname : ∀ column, (change column).name = column.name) (first second : String)
    (columns : List Column) :
    mapColumn change second (mapColumn change first columns) =
      mapColumn change first (mapColumn change second columns) := by
  simp only [mapColumn, List.map_map]
  refine List.map_congr_left fun column _ => ?_
  have hkeep : ∀ name, (if column.name == name then change column else column).name =
      column.name := by
    intro name
    split
    · exact hname column
    · rfl
  simp only [Function.comp_apply, hkeep]
  split <;> split <;> rfl

/-- The flags of two bodies that differ in the order of uniqueness constraints are the same. -/
theorem markColumns_of_perm {other : TableBody} {columns : List Column}
    (hcolumns : body.columns = other.columns) (hkey : body.primaryKey = other.primaryKey)
    (hunique : body.unique.Perm other.unique) (again : String)
    (hmark : markColumns origin text table body = .ok columns) :
    markColumns origin again table other = .ok columns := by
  simp only [markColumns, except_bind_eq_ok, except_pure_eq_ok] at hmark ⊢
  obtain ⟨keyed, hkeyed, rfl⟩ := hmark
  rw [← hcolumns, ← hkey]
  refine ⟨keyed, foldlM_ok_mono (fun _ _ _ => markKey_in_text again) hkeyed, ?_⟩
  refine (hunique.foldl_eq' (fun first _ second _ columns => ?_) keyed).symm
  have hname : ∀ column : Column, ({ column with unique := true } : Column).name = column.name :=
    fun _ => rfl
  exact mapColumn_comm hname first second columns

/-- Reads the clauses of a table of the given name. -/
def readBody (origin : Origin) (text : String) (name : ObjectName) (ifNotExists : Bool)
    (clauses : List String) : Except ParseError CreateTable :=
  match clauses with
  | [] => blame origin text (.error .emptyColumnList)
  | clauses => do
      let body ← clauses.foldlM (readClause origin text name.base) .empty
      let columns ← markColumns origin text name.base body
      return {
        name := name
        ifNotExists := ifNotExists
        columns := columns
        foreignKeys := body.foreignKeys.flatMap (·.expand name.base origin.file)
        primaryKey := body.primaryKey }

theorem read_eq (origin : Origin) (text : String) : read origin text = (do
    let header ← readHeader.ofText origin.file text
    readBody origin text header.name header.ifNotExists (Text.clauses header.body)) := by
  unfold read readBody
  rfl

variable {name : ObjectName} {ifNotExists : Bool} {clauses : List String} {statement : CreateTable}

/-- There are clauses, they make a body, and the flags of its columns can be set. -/
theorem readBody_iff_foldlM : readBody origin text name ifNotExists clauses = .ok statement ↔
    clauses ≠ [] ∧ ∃ body,
      clauses.foldlM (readClause origin text name.base) .empty = .ok body ∧
        ∃ columns, markColumns origin text name.base body = .ok columns ∧ {
          name := name
          ifNotExists := ifNotExists
          columns := columns
          foreignKeys := body.foreignKeys.flatMap (·.expand name.base origin.file)
          primaryKey := body.primaryKey } = statement := by
  unfold readBody
  cases clauses with
  | nil => simp [blame]
  | cons clause others =>
      simp only [except_bind_eq_ok, except_pure_eq_ok, ne_eq, reduceCtorEq, not_false_eq_true,
        true_and]

/-- A table is what the parts of its clauses declare, with the flags of its columns set. -/
theorem readBody_eq_ok_iff : readBody origin text name ifNotExists clauses = .ok statement ↔
    clauses ≠ [] ∧ (∀ clause ∈ clauses, ∃ part, readPart origin name.base clause = .ok part) ∧
      Compatible (partsOf origin name.base clauses) ∧
        ∃ columns, markColumns origin text name.base
            (.ofParts (partsOf origin name.base clauses)) = .ok columns ∧ {
          name := name
          ifNotExists := ifNotExists
          columns := columns
          foreignKeys := ((partsOf origin name.base clauses).filterMap foreignKey?).flatMap
            (·.expand name.base origin.file)
          primaryKey := ((partsOf origin name.base clauses).filterMap primaryKey?).flatten } =
            statement := by
  simp only [readBody_iff_foldlM, foldlM_readClause_ofParts_iff]
  refine and_congr_right fun _ => ?_
  constructor
  · rintro ⟨body, ⟨hread, hcompatible, rfl⟩, columns, hmark, rfl⟩
    exact ⟨hread, hcompatible, columns, hmark, rfl⟩
  · rintro ⟨hread, hcompatible, columns, hmark, rfl⟩
    exact ⟨_, ⟨hread, hcompatible, rfl⟩, columns, hmark, rfl⟩

end CreateTable

end Schemata
