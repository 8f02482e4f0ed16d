/-
`WorkerDbPort.columnMetadata`: the NOT NULL, primary-key and auto-increment
attributes of a statement's result columns.

A result column that comes straight from a table's column has an origin and a
label: the alias, where there is one. The lookup takes the label for the name of
the column, and no database for that of the table, so that SQLite looks for the
table in all of them. It finds the first table of that name, and in it the column
that the label happens to name. The attributes are those of the origin exactly
when this column has the same (`columnMetadata_iff`): without an alias and in the
first database with such a table it is the origin itself (`names_origin`).
-/
import Mathlib.Data.List.Basic

namespace Sqlol

namespace ColumnMetadata

/-- SQLite compares names without regard to ASCII case. -/
def SameName (a b : String) : Prop := a.toLower = b.toLower

instance (a b : String) : Decidable (SameName a b) := inferInstanceAs (Decidable (a.toLower = b.toLower))

/-- The three flags of a column, as `columnMetadata` reports them. -/
structure Attributes where
  notNull : Bool
  primaryKey : Bool
  autoIncrement : Bool
  deriving DecidableEq

/-- `BooleanArray(3)`. -/
def Attributes.unset : Attributes := ⟨false, false, false⟩

/-- As the three integers that SQLite writes. -/
def Attributes.ints (m : Attributes) : Int × Int × Int :=
  (m.notNull.toInt, m.primaryKey.toInt, m.autoIncrement.toInt)

/-- A column as it is declared. -/
structure Column where
  name : String
  attributes : Attributes
  deriving DecidableEq

/-- A table or a view; no two columns have the same name. -/
structure Table where
  name : String
  view : Bool
  withoutRowid : Bool
  columns : List Column
  /-- The column declared as `INTEGER PRIMARY KEY`. -/
  integerKey : Option Column
  distinct : columns.Pairwise fun c c' => ¬ SameName c.name c'.name

/-- One database of a connection; no two tables have the same name. -/
structure Database where
  tables : List Table
  distinct : tables.Pairwise fun t t' => ¬ SameName t.name t'.name

/-- Where a result column comes from, in the databases of the connection. -/
structure Origin (dbs : List Database) where
  database : Database
  table : Table
  column : Column
  database_mem : database ∈ dbs
  table_mem : table ∈ database.tables
  column_mem : column ∈ table.columns
  -- A column of a view has its origin in a table below it.
  table_base : table.view = false

/-- A column of a statement's result. -/
structure ResultColumn (dbs : List Database) where
  /-- `sqlite3_column_name`; null when memory is short. -/
  label : Option String
  /-- None for an expression. -/
  origin : Option (Origin dbs)

/-- `sqlite3_column_table_name`. -/
def ResultColumn.tableName {dbs : List Database} (col : ResultColumn dbs) : Option String :=
  col.origin.map (·.table.name)

/-- The first column of a name. -/
def Table.column (t : Table) (name : String) : Option Column := t.columns.find? fun c => SameName c.name name

/-- The first table of a name. -/
def Database.table (db : Database) (name : String) : Option Table := db.tables.find? fun t => SameName t.name name

/-- The first table of a name, where `dbs` is in the order of the search: `temp`, `main`, and then as attached. -/
def findTable (dbs : List Database) (name : String) : Option Table := dbs.findSome? fun db => db.table name

/-- The names of the row id. -/
def IsRowid (name : String) : Prop := SameName name "rowid" ∨ SameName name "oid" ∨ SameName name "_rowid_"

instance (name : String) : Decidable (IsRowid name) :=
  inferInstanceAs (Decidable (SameName name "rowid" ∨ SameName name "oid" ∨ SameName name "_rowid_"))

/-- The attributes that are given for the row id of a table. -/
def Table.rowid (t : Table) : Attributes := match t.integerKey with
  | some c => c.attributes
  | none => ⟨false, true, false⟩

/-- `sqlite3_table_column_metadata` with a null database name: the three integers it
writes, and nothing when it fails. -/
def tableColumnMetadata (dbs : List Database) (table column : String) : Option (Int × Int × Int) :=
  (findTable dbs table).bind fun t =>
    if t.view then none
    else match t.column column with
      | some c => some c.attributes.ints
      | none => if IsRowid column ∧ t.withoutRowid = false then some t.rowid.ints else none

/-- One turn of the loop. -/
def metadataOf (dbs : List Database) (col : ResultColumn dbs) : Attributes :=
  match col.tableName, col.label with
  | some tbl, some name => match tableColumnMetadata dbs tbl name with
    | some (notNull, primaryKey, autoIncrement) => ⟨notNull ≠ 0, primaryKey ≠ 0, autoIncrement ≠ 0⟩
    | none => .unset
  | _, _ => .unset

/-- The attributes of every column of a statement. -/
def columnMetadata (dbs : List Database) (st : List (ResultColumn dbs)) : List Attributes := st.map (metadataOf dbs)

/-! ## What a label names -/

/-- The table is that of its name in the first database that has one. -/
def First (dbs : List Database) (name : String) (t : Table) : Prop :=
  ∃ before db rest, dbs = before ++ db :: rest ∧ t ∈ db.tables ∧ SameName t.name name ∧
    ∀ d ∈ before, ∀ t' ∈ d.tables, ¬ SameName t'.name name

/-- The label names a column with these attributes, or the row id, in the first table of the name. -/
def Names (dbs : List Database) (table label : String) (m : Attributes) : Prop :=
  ∃ t, First dbs table t ∧ t.view = false ∧
    ((∃ c ∈ t.columns, SameName c.name label ∧ c.attributes = m) ∨
      ((∀ c ∈ t.columns, ¬ SameName c.name label) ∧ IsRowid label ∧ t.withoutRowid = false ∧ t.rowid = m))

/-- What the label names has the attributes of the origin. If it names nothing, these are unset. -/
def NamesAlike {dbs : List Database} (o : Origin dbs) (label : Option String) : Prop :=
  (∃ name, label = some name ∧ Names dbs o.table.name name o.column.attributes) ∨
    ((∀ name m, label = some name → ¬ Names dbs o.table.name name m) ∧ o.column.attributes = .unset)

/-- In a list of distinct names the first of a name is the one of it. -/
theorem find?_sameName {α : Type} {name : α → String} {n : String} {a : α} : ∀ {l : List α},
    l.Pairwise (fun x y => ¬ SameName (name x) (name y)) →
      (l.find? (fun x => SameName (name x) n) = some a ↔ a ∈ l ∧ SameName (name a) n) := by
  intro l
  induction l with
  | nil => simp
  | cons x l ih =>
    intro hd
    obtain ⟨hx, hd⟩ := List.pairwise_cons.mp hd
    rw [List.find?_cons]
    by_cases hn : SameName (name x) n
    · simp only [hn, decide_true, Option.some.injEq, List.mem_cons]
      constructor
      · intro h
        subst h
        exact ⟨.inl rfl, hn⟩
      · rintro ⟨h | h, ha⟩
        · exact h.symm
        · exact absurd (hn.trans ha.symm) (hx a h)
    · simp only [hn, decide_false, List.mem_cons]
      rw [ih hd]
      constructor
      · exact fun ⟨h, ha⟩ => ⟨.inr h, ha⟩
      · rintro ⟨h | h, ha⟩
        · exact absurd (h ▸ ha) hn
        · exact ⟨h, ha⟩

theorem table_column_iff {t : Table} {name : String} {c : Column} :
    t.column name = some c ↔ c ∈ t.columns ∧ SameName c.name name := find?_sameName t.distinct

theorem database_table_iff {db : Database} {name : String} {t : Table} :
    db.table name = some t ↔ t ∈ db.tables ∧ SameName t.name name := find?_sameName db.distinct

theorem database_table_none {db : Database} {name : String} :
    db.table name = none ↔ ∀ t ∈ db.tables, ¬ SameName t.name name := by
  simp only [Database.table, List.find?_eq_none, decide_eq_true_eq]

theorem findTable_iff {dbs : List Database} {name : String} {t : Table} :
    findTable dbs name = some t ↔ First dbs name t := by
  unfold findTable First
  rw [List.findSome?_eq_some_iff]
  constructor
  · rintro ⟨before, db, rest, rfl, ht, hbefore⟩
    obtain ⟨hmem, hname⟩ := database_table_iff.mp ht
    exact ⟨before, db, rest, rfl, hmem, hname, fun d hd => database_table_none.mp (hbefore d hd)⟩
  · rintro ⟨before, db, rest, rfl, hmem, hname, hbefore⟩
    exact ⟨before, db, rest, rfl, database_table_iff.mpr ⟨hmem, hname⟩, fun d hd =>
      database_table_none.mpr (hbefore d hd)⟩

theorem Attributes.ints_inj {m m' : Attributes} (h : m.ints = m'.ints) : m = m' := by
  obtain ⟨a, b, c⟩ := m
  obtain ⟨a', b', c'⟩ := m'
  revert h
  cases a <;> cases b <;> cases c <;> cases a' <;> cases b' <;> cases c' <;> decide

/-- They are read back as what they were written for. -/
theorem Attributes.ints_ne (m : Attributes) :
    (⟨m.ints.1 ≠ 0, m.ints.2.1 ≠ 0, m.ints.2.2 ≠ 0⟩ : Attributes) = m := by
  obtain ⟨a, b, c⟩ := m
  cases a <;> cases b <;> cases c <;> rfl

/-- What SQLite's lookup answers is what the label names. -/
theorem tableColumnMetadata_iff {dbs : List Database} {table label : String} {m : Attributes} :
    tableColumnMetadata dbs table label = some m.ints ↔ Names dbs table label m := by
  unfold tableColumnMetadata Names
  rw [Option.bind_eq_some_iff]
  refine exists_congr fun t => and_congr findTable_iff ?_
  cases hview : t.view with
  | true => simp
  | false =>
    simp only [Bool.false_eq_true, if_false, true_and]
    cases hc : t.column label with
    | some c =>
      obtain ⟨hmem, hname⟩ := table_column_iff.mp hc
      constructor
      · intro h
        exact .inl ⟨c, hmem, hname, Attributes.ints_inj (Option.some.inj h)⟩
      · rintro (⟨c', hmem', hname', rfl⟩ | ⟨hnone, -⟩)
        · have hsame : some c = some c' := hc.symm.trans (table_column_iff.mpr ⟨hmem', hname'⟩)
          cases hsame
          rfl
        · exact absurd hname (hnone c hmem)
    | none =>
      have hnone : ∀ c ∈ t.columns, ¬ SameName c.name label := fun c hmem hname => by
        cases hc.symm.trans (table_column_iff.mpr ⟨hmem, hname⟩)
      constructor
      · intro h
        by_cases hrow : IsRowid label ∧ t.withoutRowid = false
        · have hints : some t.rowid.ints = some m.ints := (if_pos hrow).symm.trans h
          exact .inr ⟨hnone, hrow.1, hrow.2, Attributes.ints_inj (Option.some.inj hints)⟩
        · cases (if_neg hrow).symm.trans h
      · rintro (⟨c, hmem, hname, -⟩ | ⟨-, hrow, hrowid, rfl⟩)
        · exact absurd hname (hnone c hmem)
        · exact if_pos ⟨hrow, hrowid⟩

theorem tableColumnMetadata_ints {dbs : List Database} {table label : String} {r : Int × Int × Int}
    (h : tableColumnMetadata dbs table label = some r) : ∃ m : Attributes, r = m.ints := by
  unfold tableColumnMetadata at h
  obtain ⟨t, -, h⟩ := Option.bind_eq_some_iff.mp h
  split at h
  · cases h
  · split at h
    · next c _ => exact ⟨c.attributes, (Option.some.inj h).symm⟩
    · split at h
      · exact ⟨t.rowid, (Option.some.inj h).symm⟩
      · cases h

/-- A turn of the loop for a column that has an origin. -/
theorem metadataOf_iff {dbs : List Database} {col : ResultColumn dbs} {o : Origin dbs} (ho : col.origin = some o) :
    metadataOf dbs col = o.column.attributes ↔ NamesAlike o col.label := by
  have htable : col.tableName = some o.table.name := by rw [ResultColumn.tableName, ho]; rfl
  unfold NamesAlike
  cases hlabel : col.label with
  | none => simp [metadataOf, htable, hlabel, eq_comm]
  | some name =>
    cases hm : tableColumnMetadata dbs o.table.name name with
    | none =>
      have hunset : metadataOf dbs col = .unset := by simp only [metadataOf, htable, hlabel, hm]
      rw [hunset]
      have hnot : ∀ m, ¬ Names dbs o.table.name name m := fun m h => by
        cases hm.symm.trans (tableColumnMetadata_iff.mpr h)
      constructor
      · intro h
        exact .inr ⟨fun n m hn => by cases hn; exact hnot m, h.symm⟩
      · rintro (⟨n, hn, h⟩ | ⟨-, h⟩)
        · cases hn
          exact absurd h (hnot _)
        · exact h.symm
    | some r =>
      obtain ⟨m, rfl⟩ := tableColumnMetadata_ints hm
      have hnames : Names dbs o.table.name name m := tableColumnMetadata_iff.mp hm
      have hread : metadataOf dbs col = m := by
        simp only [metadataOf, htable, hlabel, hm]
        exact m.ints_ne
      rw [hread]
      constructor
      · intro h
        exact .inl ⟨name, rfl, h ▸ hnames⟩
      · rintro (⟨n, hn, h⟩ | ⟨h, -⟩)
        · cases hn
          exact Attributes.ints_inj (Option.some.inj (hm.symm.trans (tableColumnMetadata_iff.mpr h)))
        · exact absurd hnames (h name m rfl)

/-- **A column is reported with the attributes of its origin exactly when what its
label names, in the first table of the origin's name, has the same.** -/
theorem columnMetadata_iff (dbs : List Database) (st : List (ResultColumn dbs)) (i : Nat) (col : ResultColumn dbs)
    (o : Origin dbs) (hcol : st[i]? = some col) (ho : col.origin = some o) :
    (columnMetadata dbs st)[i]? = some o.column.attributes ↔ NamesAlike o col.label := by
  rw [columnMetadata, List.getElem?_map, hcol, Option.map_some, Option.some.injEq]
  exact metadataOf_iff ho

/-- Without an alias, and in the first database with a table of the name, the label names the origin itself. -/
theorem names_origin {dbs : List Database} (o : Origin dbs) {label : String} (hlabel : SameName o.column.name label)
    (hfirst : First dbs o.table.name o.table) : NamesAlike o (some label) :=
  .inl ⟨label, rfl, o.table, hfirst, o.table_base, .inl ⟨o.column, o.column_mem, hlabel, rfl⟩⟩

/-- `CREATE TABLE t(a INTEGER PRIMARY KEY, b NOT NULL)` in `main`. -/
def exampleTable : Table where
  name := "t"
  view := false
  withoutRowid := false
  columns := [⟨"a", ⟨false, true, false⟩⟩, ⟨"b", ⟨true, false, false⟩⟩]
  integerKey := some ⟨"a", ⟨false, true, false⟩⟩
  distinct := by decide +kernel

/-- `main`, with that table. -/
def exampleDb : Database where
  tables := [exampleTable]
  distinct := List.pairwise_singleton _ _

/-- The column `b` of it. -/
def exampleOrigin : Origin [exampleDb] where
  database := exampleDb
  table := exampleTable
  column := ⟨"b", ⟨true, false, false⟩⟩
  database_mem := List.mem_singleton_self _
  table_mem := List.mem_singleton_self _
  column_mem := by decide
  table_base := rfl

/-- `SELECT b FROM t`: the attributes of `b`. -/
theorem columnMetadata_plain : NamesAlike exampleOrigin (some "b") ∧
    (columnMetadata [exampleDb] [⟨some "b", some exampleOrigin⟩])[0]? = some ⟨true, false, false⟩ := by
  have hfirst : First [exampleDb] "t" exampleTable :=
    ⟨[], exampleDb, [], rfl, List.mem_singleton_self _, rfl, nofun⟩
  have hnames : NamesAlike exampleOrigin (some "b") := names_origin exampleOrigin rfl hfirst
  exact ⟨hnames, (columnMetadata_iff [exampleDb] [⟨some "b", some exampleOrigin⟩] 0 ⟨some "b", some exampleOrigin⟩
    exampleOrigin rfl rfl).mpr hnames⟩

/-- `SELECT b AS a FROM t`: the attributes reported are those of `a`. -/
theorem columnMetadata_alias :
    columnMetadata [exampleDb] [⟨some "a", some exampleOrigin⟩] = [⟨false, true, false⟩] ∧
      (columnMetadata [exampleDb] [⟨some "a", some exampleOrigin⟩])[0]? ≠ some exampleOrigin.column.attributes := by
  decide +kernel

end ColumnMetadata

end Sqlol
