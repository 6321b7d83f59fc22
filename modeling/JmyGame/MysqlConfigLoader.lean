import Mathlib.Logic.Function.Basic
import JmyGame.LibMachine
import JmyGame.LibLoop
import JmyGame.CommonMessages

/-! `MysqlConfigLoader`: the tables of a configuration are created in the database, column by column, and a run that
stops early is followed by others. A statement is in the model with what it says instead of its text; the server
answers it with its meaning in MySQL, or the statement fails and changes nothing. -/

namespace JmyGame

inductive MysqlTableFieldType where
  | none | tinyint | smallint | mediumint | int | bigint | float | double | date | datetime | timestamp | time | year
  | char | binary | varbinary | varchar | tinyblob | tinytext | blob | text | mediumblob | mediumtext | longblob
  | longtext | enum | set | max
  deriving DecidableEq, Repr

namespace MysqlTableFieldType

/-- The lengths of `mysql_field_default_length`, in the order of the array there. -/
def lengths : List ℤ :=
  [0, 4, 6, 8, 11, 20, 11, 20, 10, 19, 6, 8, 4, 255, 65530, 8000, 8000, 255, 255, 65535, 65535, 16777215, 16777215,
    4294967295, 4294967295]

/-- `mysql_field_default_length`, which finds a type at the place of its number. -/
def defaultLength (type : MysqlTableFieldType) : ℤ := lengths.getD type.ctorIdx (-1)

/-- `IS_MYSQL_INT_TYPE`. -/
def isInt : MysqlTableFieldType → Bool
  | .tinyint | .smallint | .mediumint | .int | .bigint => true
  | _ => false

/-- `IS_MYSQL_TEXT_TYPE`, `IS_MYSQL_BINARY_TYPE` or `IS_MYSQL_BLOB_TYPE`: an index is on the first bytes only. -/
def isTextual : MysqlTableFieldType → Bool
  | .char | .varchar | .text | .tinytext | .mediumtext | .longtext => true
  | .binary | .varbinary => true
  | .tinyblob | .mediumblob | .blob | .longblob => true
  | _ => false

end MysqlTableFieldType

inductive MysqlEngineType where
  | myisam
  | innodb
  deriving DecidableEq, Repr

structure MysqlTableFieldInfo where
  name : Str
  fieldType : MysqlTableFieldType
  typeLength : ℤ
  indexType : ℤ
  createFlags : ℤ
  deriving DecidableEq, Repr

structure MysqlTableInfo where
  name : Str
  primaryKeyIndex : ℤ
  primaryKey : Str
  fieldsInfo : List MysqlTableFieldInfo
  engineType : MysqlEngineType
  deriving DecidableEq, Repr

structure MysqlDatabaseConfig where
  dbname : Str
  tablesInfo : List MysqlTableInfo
  deriving DecidableEq, Repr

inductive IndexKind where
  | normal
  | unique
  deriving DecidableEq, Repr

namespace MysqlTableFieldInfo

/-- `get_field_index_type`. -/
def getFieldIndexType (field : MysqlTableFieldInfo) : Option IndexKind :=
  if field.indexType = 1 then some .normal else if field.indexType = 2 then some .unique else none

/-- The `int l` of `add_field`. -/
def indexLength (field : MysqlTableFieldInfo) : ℤ :=
  if field.typeLength = 0 then Int.bmod field.fieldType.defaultLength (2 ^ 32) else field.typeLength

end MysqlTableFieldInfo

/-- The flags in the table of `get_field_create_flags`. -/
inductive MysqlTableCreateFlag where
  | zerofill
  | unsigned
  | autoincrement
  | null
  | notNull
  | default
  deriving DecidableEq, Repr

namespace MysqlTableCreateFlag

def value : MysqlTableCreateFlag → ℤ
  | zerofill => 1
  | unsigned => 2
  | autoincrement => 4
  | null => 8
  | notNull => 16
  | default => 32

def text : MysqlTableCreateFlag → Str
  | zerofill => [90, 69, 82, 79, 70, 73, 76, 76]
  | unsigned => [85, 78, 83, 73, 71, 78, 69, 68]
  | autoincrement => [65, 85, 84, 79, 95, 73, 78, 67, 82, 69, 77, 69, 78, 84]
  | null => [78, 85, 76, 76]
  | notNull => [78, 79, 84, 32, 78, 85, 76, 76]
  | default => [68, 69, 70, 65, 85, 76, 84]

/-- `s_flags_info`. -/
def flagsInfo : List MysqlTableCreateFlag := [zerofill, unsigned, autoincrement, null, notNull, default]

end MysqlTableCreateFlag

/-- The two static buffers of `get_field_create_flags`, with `bi` and what `pbuf` points to. -/
structure CreateFlagsBufs where
  buf : ℤ → Str
  bi : ℤ
  pbuf : Str

namespace MysqlTableFieldInfo

/-- `create_flags & flag`, the bit of a flag in an `int`. -/
def hasFlag (field : MysqlTableFieldInfo) (flag : MysqlTableCreateFlag) : Bool :=
  decide (field.createFlags / flag.value % 2 = 1)

/-- What is printed behind a flag. The default of some types is not printed at all. -/
def flagValue (field : MysqlTableFieldInfo) : MysqlTableCreateFlag → Option Str
  | .default =>
    if field.fieldType.isInt then some [32, 48]
    else if field.fieldType.isTextual then some [32, 39, 39]
    else if field.fieldType = .timestamp then
      some [32, 67, 85, 82, 82, 69, 78, 84, 95, 84, 73, 77, 69, 83, 84, 65, 77, 80]
    else none
  | _ => some []

/-- One turn of the loop of `get_field_create_flags`. All texts together have less than the 128 bytes of a buffer. -/
def printFlag (field : MysqlTableFieldInfo) (b : CreateFlagsBufs) (flag : MysqlTableCreateFlag) : CreateFlagsBufs :=
  if field.hasFlag flag then
    let bi := if 2 ≤ b.bi + 1 then 0 else b.bi + 1
    let buf := match field.flagValue flag with
      | some value => Function.update b.buf bi (b.pbuf ++ [32] ++ flag.text ++ value)
      | none => b.buf
    ⟨buf, bi, buf bi⟩
  else b

/-- `get_field_create_flags`. Without a flag it returns `buf[-1]`. -/
def getFieldCreateFlags (field : MysqlTableFieldInfo) : Option Str :=
  let b := MysqlTableCreateFlag.flagsInfo.foldl field.printFlag ⟨fun _ => [], -1, []⟩
  if b.bi < 0 then none else some (b.buf b.bi)

/-- One of the flags in the table is set. -/
def HasCreateFlag (field : MysqlTableFieldInfo) : Prop :=
  ∃ flag ∈ MysqlTableCreateFlag.flagsInfo, field.hasFlag flag = true

theorem bi_printFlag (field : MysqlTableFieldInfo) (flags : List MysqlTableCreateFlag) (b : CreateFlagsBufs)
    (hb : -1 ≤ b.bi) :
    0 ≤ (flags.foldl field.printFlag b).bi ↔ 0 ≤ b.bi ∨ ∃ flag ∈ flags, field.hasFlag flag = true := by
  induction flags generalizing b with
  | nil => simp
  | cons flag flags ih =>
      have hnext : -1 ≤ (field.printFlag b flag).bi ∧
          (0 ≤ (field.printFlag b flag).bi ↔ 0 ≤ b.bi ∨ field.hasFlag flag = true) := by
        by_cases hflag : field.hasFlag flag = true
        · rw [printFlag, if_pos hflag]
          dsimp only
          split_ifs <;> grind
        · rw [printFlag, if_neg hflag]
          exact ⟨hb, (or_iff_left hflag).symm⟩
      rw [List.foldl_cons, ih _ hnext.1, hnext.2, List.exists_mem_cons_iff, ← or_assoc]

/-- The flags of a field are read from its buffers exactly when there is one. -/
theorem exists_createFlags_iff (field : MysqlTableFieldInfo) :
    (∃ flags, field.getFieldCreateFlags = some flags) ↔ field.HasCreateFlag := by
  have hflags := bi_printFlag field MysqlTableCreateFlag.flagsInfo ⟨fun _ => [], -1, []⟩ le_rfl
  rw [or_iff_right (show ¬(0 : ℤ) ≤ -1 by decide)] at hflags
  rw [HasCreateFlag, ← hflags, ← not_lt, getFieldCreateFlags]
  split_ifs with hneg
  · exact iff_of_false nofun (not_not.2 hneg)
  · exact iff_of_true ⟨_, rfl⟩ hneg

/-- The text of a column that counts up. -/
example : getFieldCreateFlags ⟨[105, 100], .int, 0, 0, 20⟩ =
    some [32, 65, 85, 84, 79, 95, 73, 78, 67, 82, 69, 77, 69, 78, 84, 32, 78, 79, 84, 32, 78, 85, 76, 76] := by decide

end MysqlTableFieldInfo

/-- The fields with their places, without the primary key. -/
def MysqlTableInfo.others (table : MysqlTableInfo) : List (MysqlTableFieldInfo × ℕ) :=
  table.fieldsInfo.zipIdx.filter fun field => decide ((field.2 : ℤ) ≠ table.primaryKeyIndex)

inductive SchemaStatement where
  | createDatabase (dbname : Str)
  | createTable (table primaryKey : Str) (primary : MysqlTableFieldInfo) (flags : Str) (engine : MysqlEngineType)
  | describe (table column : Str)
  | addColumn (table : Str) (field : MysqlTableFieldInfo) (flags : Str)
  | addIndex (table column : Str) (kind : IndexKind) (length : Option ℤ)
  deriving DecidableEq, Repr

structure SchemaIndex where
  column : Str
  kind : IndexKind
  length : Option ℤ
  deriving DecidableEq, Repr

structure SchemaTable where
  columns : List Str
  indexes : List SchemaIndex
  deriving DecidableEq, Repr

/-- The tables of the database. -/
abbrev Schema := Str → Option SchemaTable

/-- How the server compares names. It may fold the case of a name, and `DESCRIBE` takes a name as a pattern, in which
an underscore stands for any character; at least a column is shown under its own name, and two names of one column
show the same. -/
structure MysqlNames where
  tableKey : Str → Str
  columnKey : Str → Str
  shows : Str → Str → Bool
  shows_self : ∀ name, shows name (columnKey name) = true
  shows_congr : ∀ name name', columnKey name = columnKey name' → shows name = shows name'

namespace MysqlNames

variable (N : MysqlNames)

/-- A statement with its meaning: the tables behind it and the rows of its result. -/
def exec (schema : Schema) : SchemaStatement → Option (Schema × List Str)
  | .createDatabase _ => some (schema, [])
  | .createTable table primaryKey _ _ _ =>
    match schema (N.tableKey table) with
    | some _ => some (schema, [])
    | none => some (Function.update schema (N.tableKey table) (some ⟨[N.columnKey primaryKey], []⟩), [])
  | .describe table column =>
    (schema (N.tableKey table)).map fun t => (schema, t.columns.filter (N.shows column))
  | .addColumn table field _ =>
    match schema (N.tableKey table) with
    | none => none
    | some t =>
      if N.columnKey field.name ∈ t.columns then none
      else some (Function.update schema (N.tableKey table)
        (some { t with columns := t.columns ++ [N.columnKey field.name] }), [])
  | .addIndex table column kind length =>
    match schema (N.tableKey table) with
    | none => none
    | some t =>
      if N.columnKey column ∈ t.columns then
        some (Function.update schema (N.tableKey table)
          (some { t with indexes := t.indexes ++ [⟨N.columnKey column, kind, length⟩] }), [])
      else none

end MysqlNames

/-- The statements of a run, by the places of the table and of the field in the configuration. -/
inductive LoadPoint where
  | createDatabase
  | createTable (table : ℕ)
  | describe (table field : ℕ)
  | addColumn (table field : ℕ)
  | addIndex (table field : ℕ)
  deriving DecidableEq, Repr

namespace MysqlConfigLoader

variable (N : MysqlNames) (fails : LoadPoint → Bool)

/-- `real_query` and `real_read_query`. -/
def realQuery (point : LoadPoint) (statement : SchemaStatement) (schema : Schema) : Option (Schema × List Str) :=
  if fails point then none else N.exec schema statement

/-- The end of `add_field`, behind `create index`. -/
def createIndex (i j : ℕ) (tableName : Str) (field : MysqlTableFieldInfo) (schema : Schema) : Bool × Schema :=
  match field.getFieldIndexType with
  | none => (true, schema)
  | some kind =>
    if field.indexLength < 0 then (false, schema)
    else
      let length := if field.fieldType.isTextual then some field.indexLength else none
      match realQuery N fails (.addIndex i j) (.addIndex tableName field.name kind length) schema with
      | none => (false, schema)
      | some (schema₁, _) => (true, schema₁)

/-- `add_field`. Nothing is defined where `get_field_create_flags` returns no text. -/
def addField (i j : ℕ) (tableName : Str) (field : MysqlTableFieldInfo) (schema : Schema) : Option (Bool × Schema) :=
  match realQuery N fails (.describe i j) (.describe tableName field.name) schema with
  | none => some (false, schema)
  | some (schema₁, _ :: _) => some (true, schema₁)
  | some (schema₁, []) =>
    field.getFieldCreateFlags.map fun flags =>
      match realQuery N fails (.addColumn i j) (.addColumn tableName field flags) schema₁ with
      | none => (false, schema₁)
      | some (schema₂, _) => createIndex N fails i j tableName field schema₂

/-- `loadTable`. -/
def loadTable (i : ℕ) (table : MysqlTableInfo) (schema : Schema) : Option (Bool × Schema) :=
  if (table.fieldsInfo.length : ℤ) ≤ table.primaryKeyIndex ∨ table.primaryKeyIndex < 0 then some (false, schema)
  else match table.fieldsInfo[table.primaryKeyIndex.toNat]? with
  | none => some (false, schema)
  | some primary =>
    if primary.name ≠ table.primaryKey then some (false, schema)
    else
      primary.getFieldCreateFlags.bind fun flags =>
        let create := .createTable table.name table.primaryKey primary flags table.engineType
        match realQuery N fails (.createTable i) create schema with
        | none => some (false, schema)
        | some (schema₁, _) =>
          Loop.whileOk (fun field => addField N fails i field.2 table.name field.1) table.others schema₁

/-- `load`. -/
def load (config : MysqlDatabaseConfig) (schema : Schema) : Option (Bool × Schema) :=
  match realQuery N fails .createDatabase (.createDatabase config.dbname) schema with
  | none => some (false, schema)
  | some (schema₁, _) =>
    Loop.whileOk (fun table => loadTable N fails table.2 table.1) config.tablesInfo.zipIdx schema₁

end MysqlConfigLoader

namespace MysqlNames

variable (N : MysqlNames) (schema : Schema)

def HasColumn (table column : Str) : Prop :=
  ∃ t, schema (N.tableKey table) = some t ∧ N.columnKey column ∈ t.columns

def HasIndex (table column : Str) (kind : IndexKind) : Prop :=
  ∃ t, schema (N.tableKey table) = some t ∧ ∃ index ∈ t.indexes, index.column = N.columnKey column ∧ index.kind = kind

/-- `DESCRIBE` has a row. -/
def Shown (table column : Str) : Prop :=
  ∃ t, schema (N.tableKey table) = some t ∧ ∃ c ∈ t.columns, N.shows column c = true

/-- A field has its column and its index. -/
def Settled (table : Str) (field : MysqlTableFieldInfo) : Prop :=
  N.HasColumn schema table field.name ∧
    ∀ kind, field.getFieldIndexType = some kind → N.HasIndex schema table field.name kind

/-- A table has all its columns, and every column besides the primary key has its index. -/
def CompleteTable (table : MysqlTableInfo) : Prop :=
  (∀ field ∈ table.fieldsInfo, N.HasColumn schema table.name field.name) ∧
    ∀ field ∈ table.others, ∀ kind, field.1.getFieldIndexType = some kind →
      N.HasIndex schema table.name field.1.name kind

def Complete (config : MysqlDatabaseConfig) : Prop := ∀ table ∈ config.tablesInfo, N.CompleteTable schema table

end MysqlNames

/-- No table, column or index is lost. -/
def Extends (s s' : Schema) : Prop :=
  ∀ key t, s key = some t → ∃ t', s' key = some t' ∧ t.columns ⊆ t'.columns ∧ t.indexes ⊆ t'.indexes

theorem Extends.refl (s : Schema) : Extends s s := fun _ t h => ⟨t, h, List.Subset.refl _, List.Subset.refl _⟩

theorem Extends.trans {s s' s'' : Schema} (h : Extends s s') (h' : Extends s' s'') : Extends s s'' := by
  intro key t ht
  obtain ⟨t', ht', hcolumns, hindexes⟩ := h key t ht
  obtain ⟨t'', ht'', hcolumns', hindexes'⟩ := h' key t' ht'
  exact ⟨t'', ht'', List.Subset.trans hcolumns hcolumns', List.Subset.trans hindexes hindexes'⟩

/-- A table that grows. -/
theorem extends_update {s : Schema} {key : Str} {t t' : SchemaTable} (ht : s key = some t)
    (hcolumns : t.columns ⊆ t'.columns) (hindexes : t.indexes ⊆ t'.indexes) :
    Extends s (Function.update s key (some t')) := by
  intro key' u hu
  by_cases hkey : key' = key
  · rw [hkey, ht, Option.some.injEq] at hu
    rw [hkey, Function.update_self, ← hu]
    exact ⟨t', rfl, hcolumns, hindexes⟩
  · rw [Function.update_of_ne hkey]
    exact Extends.refl s key' u hu

/-- A new table. -/
theorem extends_create {s : Schema} {key : Str} (hnone : s key = none) (t : SchemaTable) :
    Extends s (Function.update s key (some t)) := by
  intro key' u hu
  have hkey : key' ≠ key := by
    rintro rfl
    exact nomatch hnone.symm.trans hu
  rw [Function.update_of_ne hkey]
  exact Extends.refl s key' u hu

namespace MysqlNames

variable {N : MysqlNames} {schema schema' : Schema} {table column : Str}

theorem HasColumn.mono (h : N.HasColumn schema table column) (hext : Extends schema schema') :
    N.HasColumn schema' table column := by
  obtain ⟨t, ht, hmem⟩ := h
  obtain ⟨t', ht', hcolumns, -⟩ := hext _ t ht
  exact ⟨t', ht', hcolumns hmem⟩

theorem HasIndex.mono {kind : IndexKind} (h : N.HasIndex schema table column kind) (hext : Extends schema schema') :
    N.HasIndex schema' table column kind := by
  obtain ⟨t, ht, index, hmem, hindex⟩ := h
  obtain ⟨t', ht', -, hindexes⟩ := hext _ t ht
  exact ⟨t', ht', index, hindexes hmem, hindex⟩

theorem Settled.mono {field : MysqlTableFieldInfo} (h : N.Settled schema table field) (hext : Extends schema schema') :
    N.Settled schema' table field :=
  ⟨h.1.mono hext, fun kind hkind => (h.2 kind hkind).mono hext⟩

theorem CompleteTable.mono {T : MysqlTableInfo} (h : N.CompleteTable schema T) (hext : Extends schema schema') :
    N.CompleteTable schema' T :=
  ⟨fun field hfield => (h.1 field hfield).mono hext,
    fun field hfield kind hkind => (h.2 field hfield kind hkind).mono hext⟩

/-- A column is shown under its own name. -/
theorem HasColumn.shown (h : N.HasColumn schema table column) : N.Shown schema table column := by
  obtain ⟨t, ht, hmem⟩ := h
  exact ⟨t, ht, N.columnKey column, hmem, N.shows_self column⟩

end MysqlNames

namespace MysqlConfigLoader

variable {N : MysqlNames} {fails : LoadPoint → Bool}

theorem realQuery_eq_some {point : LoadPoint} {statement : SchemaStatement} {schema : Schema}
    {r : Schema × List Str} : realQuery N fails point statement schema = some r ↔
      fails point = false ∧ N.exec schema statement = some r := by
  unfold realQuery
  split_ifs with hfails
  · exact iff_of_false nofun fun h => Bool.false_ne_true (h.1.symm.trans hfails)
  · exact ⟨fun h => ⟨Bool.not_eq_true _ ▸ hfails, h⟩, And.right⟩

/-- A table with one more column, and the indexes that were added with it. -/
def addedColumn (N : MysqlNames) (schema : Schema) (table column : Str) (t : SchemaTable)
    (indexes : List SchemaIndex) : Schema :=
  Function.update schema (N.tableKey table) (some ⟨t.columns ++ [N.columnKey column], t.indexes ++ indexes⟩)

/-- The indexes of a field that has all of them. -/
def IndexesOf (N : MysqlNames) (field : MysqlTableFieldInfo) (indexes : List SchemaIndex) : Prop :=
  indexes.map (fun index => (index.column, index.kind)) =
    field.getFieldIndexType.toList.map fun kind => (N.columnKey field.name, kind)

/-- `createIndex` adds the index of the field, or it fails because the index has no length or its statement fails. -/
theorem createIndex_cases (fails : LoadPoint → Bool) (i j : ℕ) {table : Str} {field : MysqlTableFieldInfo}
    {schema : Schema} {t : SchemaTable} (ht : schema (N.tableKey table) = some t)
    (hcolumn : N.columnKey field.name ∈ t.columns) :
    (∃ indexes, IndexesOf N field indexes ∧ (field.getFieldIndexType ≠ none → 0 ≤ field.indexLength) ∧
        createIndex N fails i j table field schema =
          (true, Function.update schema (N.tableKey table) (some { t with indexes := t.indexes ++ indexes }))) ∨
      (field.getFieldIndexType ≠ none ∧ (field.indexLength < 0 ∨ fails (.addIndex i j) = true) ∧
        createIndex N fails i j table field schema = (false, schema)) := by
  unfold createIndex
  cases hkind : field.getFieldIndexType with
  | none =>
      refine .inl ⟨[], by rw [IndexesOf, hkind]; rfl, nofun, congrArg (Prod.mk true) ?_⟩
      rw [List.append_nil, ← ht, Function.update_eq_self]
  | some kind =>
      dsimp only
      by_cases hlength : field.indexLength < 0
      · rw [if_pos hlength]
        exact .inr ⟨nofun, .inl hlength, rfl⟩
      · rw [if_neg hlength]
        generalize (if field.fieldType.isTextual then some field.indexLength else none) = length
        have hexec : N.exec schema (.addIndex table field.name kind length) =
            some (Function.update schema (N.tableKey table)
              (some { t with indexes := t.indexes ++ [⟨N.columnKey field.name, kind, length⟩] }), []) := by
          rw [MysqlNames.exec, ht]
          exact if_pos hcolumn
        unfold realQuery
        by_cases hfails : fails (.addIndex i j) = true
        · rw [if_pos hfails]
          exact .inr ⟨nofun, .inr hfails, rfl⟩
        · rw [if_neg hfails, hexec]
          exact .inl ⟨_, by rw [IndexesOf, hkind]; rfl, fun _ => not_lt.1 hlength, rfl⟩

/-- What `add_field` does: one of its statements fails and nothing changes; it finds a column that is shown; it has no
text of create flags to read; it adds the column with its index; or it stops between the column and the index. -/
inductive AddFieldCase (N : MysqlNames) (fails : LoadPoint → Bool) (i j : ℕ) (table : Str)
    (field : MysqlTableFieldInfo) (schema : Schema) : Option (Bool × Schema) → Prop
  | refused (h : fails (.describe i j) = true ∨ fails (.addColumn i j) = true ∨ schema (N.tableKey table) = none) :
      AddFieldCase N fails i j table field schema (some (false, schema))
  | found (h : N.Shown schema table field.name) : AddFieldCase N fails i j table field schema (some (true, schema))
  | unread (hhidden : ¬N.Shown schema table field.name) (hflag : ¬field.HasCreateFlag) :
      AddFieldCase N fails i j table field schema none
  | added {t : SchemaTable} {indexes : List SchemaIndex} (ht : schema (N.tableKey table) = some t)
      (hhidden : ¬N.Shown schema table field.name) (hflag : field.HasCreateFlag)
      (hindexes : IndexesOf N field indexes) (hlength : field.getFieldIndexType ≠ none → 0 ≤ field.indexLength) :
      AddFieldCase N fails i j table field schema (some (true, addedColumn N schema table field.name t indexes))
  | stopped {t : SchemaTable} (ht : schema (N.tableKey table) = some t)
      (hhidden : ¬N.Shown schema table field.name) (hflag : field.HasCreateFlag)
      (hadd : fails (.addColumn i j) = false) (hkind : field.getFieldIndexType ≠ none)
      (hindex : field.indexLength < 0 ∨ fails (.addIndex i j) = true) :
      AddFieldCase N fails i j table field schema (some (false, addedColumn N schema table field.name t []))

theorem addField_case (N : MysqlNames) (fails : LoadPoint → Bool) (i j : ℕ) (table : Str)
    (field : MysqlTableFieldInfo) (schema : Schema) :
    AddFieldCase N fails i j table field schema (addField N fails i j table field schema) := by
  unfold addField
  cases hdescribe : realQuery N fails (.describe i j) (.describe table field.name) schema with
  | none =>
      refine .refused ?_
      unfold realQuery at hdescribe
      split_ifs at hdescribe with hfails
      · exact .inl hfails
      · exact .inr (.inr (Option.map_eq_none_iff.1 hdescribe))
  | some r =>
      obtain ⟨-, hexec⟩ := realQuery_eq_some.1 hdescribe
      obtain ⟨t, ht, rfl⟩ := Option.map_eq_some_iff.1 hexec
      cases hrows : t.columns.filter (N.shows field.name) with
      | cons row rows =>
          refine .found ⟨t, ht, row, ?_⟩
          have hmem : row ∈ t.columns.filter (N.shows field.name) := by
            rw [hrows]
            exact List.mem_cons_self
          exact List.mem_filter.1 hmem
      | nil =>
          have hhidden : ¬N.Shown schema table field.name := by
            rintro ⟨t', ht', c, hc, hshows⟩
            obtain rfl := Option.some.inj (ht.symm.trans ht')
            have hmem := List.mem_filter.2 ⟨hc, hshows⟩
            rw [hrows] at hmem
            exact nomatch hmem
          dsimp only
          cases hflags : field.getFieldCreateFlags with
          | none =>
              refine .unread hhidden fun h => ?_
              obtain ⟨flags, hsome⟩ := field.exists_createFlags_iff.2 h
              exact nomatch hflags.symm.trans hsome
          | some flags =>
              have hflag := field.exists_createFlags_iff.1 ⟨flags, hflags⟩
              have hnew : N.columnKey field.name ∉ t.columns := fun hmem =>
                hhidden (MysqlNames.HasColumn.shown ⟨t, ht, hmem⟩)
              have hexec : N.exec schema (.addColumn table field flags) =
                  some (addedColumn N schema table field.name t [], []) := by
                rw [MysqlNames.exec, ht, addedColumn, List.append_nil]
                exact if_neg hnew
              rw [Option.map_some, realQuery]
              by_cases hadd : fails (.addColumn i j) = true
              · rw [if_pos hadd]
                exact .refused (.inr (.inl hadd))
              · rw [if_neg hadd, hexec]
                have hadded : addedColumn N schema table field.name t [] (N.tableKey table) =
                    some ⟨t.columns ++ [N.columnKey field.name], t.indexes ++ []⟩ := Function.update_self _ _ _
                dsimp only
                obtain ⟨indexes, hindexes, hlength, heq⟩ | ⟨hkind, hindex, heq⟩ := createIndex_cases fails i j
                  hadded (List.mem_append_right t.columns List.mem_cons_self)
                · rw [heq, addedColumn, Function.update_idem, List.append_nil]
                  exact .added ht hhidden hflag hindexes hlength
                · rw [heq]
                  exact .stopped ht hhidden hflag (Bool.not_eq_true _ ▸ hadd) hkind hindex

end MysqlConfigLoader

end JmyGame
