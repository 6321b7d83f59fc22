import JmyGame.GeneratorSelect

/-! What the generated code of `DBConfigParser` saves and what it loads. `insert_request` writes the fields whose type
has a C++ type, and the select functions read the fields whose type can be selected. -/

namespace JmyGame

namespace DBConfigParser

/-- What `generate_define_file` checks of a table. -/
def defineAccepts (table : Table) : Bool :=
  (table.fields.all fun f => (getFieldTypeDefineStr f.fieldType).isSome &&
    (getFieldIndexTypeDefineStr f.indexType).isSome && (getCreateFlagsDefineStr f.createFlags).isSome) &&
    (table.info.dbEngine = chars "myisam" || table.info.dbEngine = chars "innodb")

/-- What `generate_struct_file` checks of a table. -/
def structAccepts (table : Table) : Bool :=
  table.fields.all fun f => isFieldTimeType f.fieldType || (getFieldTypeStr f).isSome

/-- What `gen_db_tables_manager` checks of a table. A string cannot be made of the null pointer for a key that has no
type. -/
def managerAccepts (table : Table) : Bool :=
  let hasType := fun name => (getFieldTypeStrByName table.fields name).isSome
  match table.info.selectKeysInfo with
  | [k] =>
    if k.resultType = chars "single" ∨ k.resultType = [] then hasType k.key
    else if k.resultType = chars "multi" then hasType k.resultKey
    else false
  | [k, k2] =>
    k.resultType = chars "single" && k2.resultType = chars "single" && hasType k.key && hasType k2.key
  | _ => false

/-- What `generate_func_file` checks of a table. -/
def funcAccepts (table : Table) : Bool :=
  table.info.selectKeysInfo.all fun k =>
    (genSelectRecordFunc table k).isSome && (genGetResultOfSelectRecordFunc table k).isSome

/-- `generate`. -/
def generate (jsonpath : Str) (tables : List Table) : Bool :=
  decide (47 ∈ jsonpath) && tables.all defineAccepts && tables.all structAccepts && tables.all managerAccepts &&
    tables.all funcAccepts

/-- `gen_struct_insert_func`: the C++ types and the names of what `insert_request` gives to `insertRecord`. -/
def genStructInsertFunc (table : Table) : List (Str × Str) :=
  table.fields.zipIdx.filterMap fun r =>
    if (r.2 : ℤ) = table.info.primaryKeyIndex then none
    else (getFieldTypeStr r.1).map fun fieldTypeStr => (fieldTypeStr, r.1.name)

/-- A record: the texts of its fields in the columns of the table. -/
abbrev Record := Str → Str

/-- What the columns hold when a record is inserted; the server fills in the others. -/
def inserted (table : Table) (record other : Record) : Record := fun column =>
  if column ∈ (genStructInsertFunc table).map Prod.snd then record column else other column

/-- The row that a select function gets. -/
def SelectFunc.row (f : SelectFunc) (columns : Record) : List Str := f.selFields.map columns

/-- The record behind the reader; what is behind the end of the row is not defined. -/
def ResultFunc.read (r : ResultFunc) (row : List Str) (data : Record) : Option Record :=
  (setters none r.lines).bind fun l =>
    l.foldlM (fun data s => (row[s.row]?).map fun value => Function.update data s.field value) data

/-- What is saved is loaded: the fields that `insert_request` writes are selected, and a record that is read behind an
insert has the values in them that were inserted. -/
def LoadsSaved (table : Table) (keyInfo : SelKeyInfo) : Prop :=
  ∃ f r, genSelectRecordFunc table keyInfo = some f ∧ genGetResultOfSelectRecordFunc table keyInfo = some r ∧
    (∀ nv ∈ genStructInsertFunc table, nv.2 ∈ f.selFields) ∧
    ∀ record other data, ∃ data', r.read (f.row (inserted table record other)) data = some data' ∧
      ∀ nv ∈ genStructInsertFunc table, data' nv.2 = record nv.2

/-- `float`, `double`, or a user defined type behind `binary:` only. -/
def isLossyType (fieldType : Str) : Bool :=
  fieldType = chars "float" || fieldType = chars "double" ||
    contains fieldType (chars "binary:") && !contains fieldType (chars "blob:") && !contains fieldType (chars "text")

/-- No field but the primary one is of such a type, unless there is another field of its name that is selected. -/
def Loadable (table : Table) : Prop :=
  ∀ (i : ℕ) (f : FieldInfo), table.fields[i]? = some f → (i : ℤ) ≠ table.info.primaryKeyIndex →
    isLossyType f.fieldType = true → ∃ g ∈ table.fields, g.name = f.name ∧ canSelectFieldType g.fieldType = true

variable {table : Table} {keyInfo : SelKeyInfo} {f : FieldInfo}

/-- The types that are compared as a whole. -/
def wholeTypes : List Str :=
  [chars "int", chars "tinyint", chars "smallint", chars "mediumint", chars "bigint", chars "char", chars "varchar",
    chars "binary", chars "varbinary", chars "float", chars "double"]

theorem ne_of_binary {s : Str} (h : contains s (chars "binary:") = true) : ∀ t ∈ wholeTypes, s ≠ t := by
  have hnot : ∀ t ∈ wholeTypes, ¬contains t (chars "binary:") = true := by decide
  rintro t ht rfl
  exact hnot s ht h

theorem getBlobUserDefineData_isSome_iff {s : Str} :
    (getBlobUserDefineData s).isSome = true ↔
      contains s (chars "blob:") = true ∨ contains s (chars "binary:") = true := by
  unfold getBlobUserDefineData contains
  cases find (chars "blob:") s with
  | some idx => exact iff_of_true rfl (Or.inl rfl)
  | none =>
      rw [Option.isSome_map, or_iff_right (show ¬(none : Option ℕ).isSome = true by decide)]

/-- The types of fields that have a C++ type. -/
theorem type_of_written {typeStr : Str} (h : getFieldTypeStr f = some typeStr) :
    (contains f.fieldType (chars "blob:") = true ∨ contains f.fieldType (chars "binary:") = true) ∨
      isIntType f.fieldType = true ∨ f.fieldType = chars "bigint" ∨ f.fieldType = chars "float" ∨
      f.fieldType = chars "double" ∨ isTextType f.fieldType = true := by
  unfold getFieldTypeStr at h
  dsimp only at h
  split at h
  · rename_i typeStr' hblob
    refine Or.inl (getBlobUserDefineData_isSome_iff.1 ?_)
    rw [hblob]
    rfl
  · refine Or.inr ?_
    split at h
    · exact Or.inl ‹_›
    split at h
    · exact Or.inr (Or.inl ‹_›)
    split at h
    · exact Or.inr (Or.inr (Or.inl ‹_›))
    split at h
    · exact Or.inr (Or.inr (Or.inr (Or.inl ‹_›)))
    split at h
    · rename_i htext
      refine Or.inr (Or.inr (Or.inr (Or.inr ?_)))
      obtain htype | htype | htype | htype | htype | htype := htext
      all_goals
        rw [htype]
        decide
    · exact absurd h (Option.some_ne_none typeStr).symm

/-- Of the types that are written, those that cannot be selected are the lossy ones. -/
theorem canSelect_iff_of_written {typeStr : Str} (h : getFieldTypeStr f = some typeStr) :
    canSelectFieldType f.fieldType = true ↔ ¬isLossyType f.fieldType = true := by
  generalize hs : f.fieldType = s
  have htype := type_of_written h
  rw [hs] at htype
  obtain (hblob | hbinary) | hint | rfl | rfl | rfl | htext := htype
  · have hfloat : s ≠ chars "float" := by
      rintro rfl
      exact absurd hblob (by decide)
    have hdouble : s ≠ chars "double" := by
      rintro rfl
      exact absurd hblob (by decide)
    simp [canSelectFieldType, isLossyType, hblob, hfloat, hdouble]
  · have hne := ne_of_binary hbinary
    simp only [wholeTypes, List.forall_mem_cons] at hne
    cases hblob : contains s (chars "blob:") with
    | true => simp [canSelectFieldType, isLossyType, hblob, hne]
    | false =>
        cases htext : contains s (chars "text") with
        | true => simp [canSelectFieldType, isLossyType, htext, hne]
        | false => simp [canSelectFieldType, isLossyType, hbinary, hblob, htext, hne]
  · unfold isIntType at hint
    simp only [Bool.or_eq_true, decide_eq_true_eq] at hint
    obtain ((rfl | rfl) | rfl) | rfl := hint
    all_goals decide
  · decide
  · decide
  · decide
  · unfold isTextType at htext
    simp only [Bool.or_eq_true, decide_eq_true_eq] at htext
    obtain ((((rfl | rfl) | rfl) | rfl) | rfl) | rfl := htext
    all_goals decide

/-- A lossy type has a C++ type. -/
theorem written_of_lossy (h : isLossyType f.fieldType = true) : (getFieldTypeStr f).isSome = true := by
  unfold isLossyType at h
  simp only [Bool.or_eq_true, Bool.and_eq_true, decide_eq_true_eq] at h
  unfold getFieldTypeStr
  dsimp only
  obtain (htype | htype) | ⟨⟨hbinary, -⟩, -⟩ := h
  · rw [htype]
    rfl
  · rw [htype]
    rfl
  · have hblob := getBlobUserDefineData_isSome_iff.2 (Or.inr hbinary)
    obtain ⟨typeStr, htypeStr⟩ := Option.isSome_iff_exists.1 hblob
    rw [htypeStr]
    rfl

theorem mem_genStructInsertFunc {nv : Str × Str} : nv ∈ genStructInsertFunc table ↔
    ∃ (i : ℕ) (f : FieldInfo), table.fields[i]? = some f ∧ (i : ℤ) ≠ table.info.primaryKeyIndex ∧
      getFieldTypeStr f = some nv.1 ∧ f.name = nv.2 := by
  unfold genStructInsertFunc
  rw [List.mem_filterMap]
  constructor
  · rintro ⟨⟨f, i⟩, hmem, heq⟩
    dsimp only at heq
    split_ifs at heq with hprimary
    obtain ⟨typeStr, htype, rfl⟩ := Option.map_eq_some_iff.1 heq
    exact ⟨i, f, List.mk_mem_zipIdx_iff_getElem?.1 hmem, hprimary, htype, rfl⟩
  · rintro ⟨i, f, hfield, hprimary, htype, hname⟩
    refine ⟨(f, i), List.mk_mem_zipIdx_iff_getElem?.2 hfield, ?_⟩
    rw [if_neg hprimary, htype, Option.map_some, hname]

theorem mem_selFields {fields : List FieldInfo} {name : Str} :
    name ∈ selFields fields ↔ ∃ g ∈ fields, g.name = name ∧ canSelectFieldType g.fieldType = true := by
  unfold selFields
  rw [List.mem_map]
  constructor
  · rintro ⟨g, hg, hname⟩
    obtain ⟨hmem, hcan⟩ := List.mem_filter.1 hg
    exact ⟨g, hmem, hname, hcan⟩
  · rintro ⟨g, hmem, hname, hcan⟩
    exact ⟨g, List.mem_filter.2 ⟨hmem, hcan⟩, hname⟩

/-- The columns that are written are those that are selected, and those of the lossy fields. -/
theorem written_selected_iff :
    (∀ nv ∈ genStructInsertFunc table, nv.2 ∈ selFields table.fields) ↔ Loadable table := by
  constructor
  · intro h i f hfield hprimary hlossy
    obtain ⟨typeStr, htype⟩ := Option.isSome_iff_exists.1 (written_of_lossy hlossy)
    exact mem_selFields.1 (h (typeStr, f.name) (mem_genStructInsertFunc.2 ⟨i, f, hfield, hprimary, htype, rfl⟩))
  · intro h nv hnv
    obtain ⟨i, f, hfield, hprimary, htype, hname⟩ := mem_genStructInsertFunc.1 hnv
    rw [← hname, mem_selFields]
    by_cases hlossy : isLossyType f.fieldType = true
    · exact h i f hfield hprimary hlossy
    · exact ⟨f, List.mem_of_getElem? hfield, rfl, (canSelect_iff_of_written htype).2 hlossy⟩

/-- Setters that are given the values of their own columns. -/
theorem foldlM_setters {names : List Str} {l : List Setter} {m : ℕ} {row : List Str} {columns : Record}
    (hl : l.map (fun s => (s.field, s.row)) = names.zipIdx m) (hrow : row.drop m = names.map columns) (data : Record) :
    ∃ data', l.foldlM (fun data s => (row[s.row]?).map fun value => Function.update data s.field value) data =
      some data' ∧ ∀ name, data' name = if name ∈ names then columns name else data name := by
  induction names generalizing l m data with
  | nil =>
      obtain rfl := List.map_eq_nil_iff.1 hl
      exact ⟨data, rfl, fun name => (if_neg List.not_mem_nil).symm⟩
  | cons name names ih =>
      rw [List.zipIdx_cons] at hl
      obtain ⟨s, rest, rfl, hs, hrest⟩ := List.map_eq_cons_iff.1 hl
      obtain ⟨hfield, hindex⟩ := Prod.mk.inj hs
      rw [List.map_cons] at hrow
      have hvalue : row[m]? = some (columns name) := by
        rw [← List.head?_drop, hrow, List.head?_cons]
      have htail : row.drop (m + 1) = names.map columns := by
        rw [← List.tail_drop, hrow, List.tail_cons]
      obtain ⟨data', hfold, hdata'⟩ := ih hrest htail (Function.update data name (columns name))
      refine ⟨data', ?_, fun name' => (hdata' name').trans ?_⟩
      · rw [List.foldlM_cons, hindex, hvalue, hfield]
        exact hfold
      · by_cases hmem : name' ∈ names
        · rw [if_pos hmem, if_pos (List.mem_cons_of_mem _ hmem)]
        · rw [if_neg hmem]
          by_cases hsame : name' = name
          · rw [hsame, Function.update_self, if_pos List.mem_cons_self]
          · rw [Function.update_of_ne hsame, if_neg]
            exact fun h => (List.mem_cons.1 h).elim hsame hmem

/-- Behind the reader, the selected fields have the values of their columns. -/
theorem read_row {f : SelectFunc} {r : ResultFunc} (hselect : genSelectRecordFunc table keyInfo = some f)
    (hresult : genGetResultOfSelectRecordFunc table keyInfo = some r) (columns data : Record) :
    ∃ data', r.read (f.row columns) data = some data' ∧
      ∀ name, data' name = if name ∈ f.selFields then columns name else data name := by
  obtain ⟨⟨l, hl, hnames, -⟩, -⟩ := gen_readsSelected hselect hresult
  unfold ResultFunc.read
  rw [hl, Option.bind_some]
  exact foldlM_setters hnames List.drop_zero data

/-- In a configuration that is accepted, what is saved in a table is loaded exactly when no field that is written has a
lossy type. -/
theorem loadsSaved_iff {jsonpath : Str} {tables : List Table} (hgen : generate jsonpath tables = true)
    (htable : table ∈ tables) (hkey : keyInfo ∈ table.info.selectKeysInfo) :
    LoadsSaved table keyInfo ↔ Loadable table := by
  unfold generate at hgen
  rw [Bool.and_eq_true] at hgen
  have hfunc := List.all_eq_true.1 (List.all_eq_true.1 hgen.2 table htable) keyInfo hkey
  rw [Bool.and_eq_true] at hfunc
  obtain ⟨f, hselect⟩ := Option.isSome_iff_exists.1 hfunc.1
  obtain ⟨r, hresult⟩ := Option.isSome_iff_exists.1 hfunc.2
  have hnames := selFields_of_gen hselect
  constructor
  · rintro ⟨f', r', hselect', -, hcolumns, -⟩
    obtain rfl := Option.some.inj (hselect.symm.trans hselect')
    rw [hnames] at hcolumns
    exact written_selected_iff.1 hcolumns
  · intro hloadable
    have hcolumns := written_selected_iff.2 hloadable
    refine ⟨f, r, hselect, hresult, hnames ▸ hcolumns, fun record other data => ?_⟩
    obtain ⟨data', hread, hdata'⟩ := read_row hselect hresult (inserted table record other) data
    refine ⟨data', hread, fun nv hnv => ?_⟩
    rw [hdata', if_pos (hnames ▸ hcolumns nv hnv)]
    exact if_pos (List.mem_map_of_mem hnv)

theorem accountTable_loadsSaved : LoadsSaved accountTable ⟨chars "account", chars "single", []⟩ := by
  have hgen : generate (chars "./db_tables.json") [accountTable] = true := by decide
  have hnone : ∀ g ∈ accountTable.fields, ¬isLossyType g.fieldType = true := by decide
  refine (loadsSaved_iff hgen (List.mem_singleton.2 rfl) (List.mem_singleton.2 rfl)).2 fun i f hfield _ hlossy => ?_
  exact absurd hlossy (hnone f (List.mem_of_getElem? hfield))

/-- A table with a price. It is not selected. -/
def priceTable : Table :=
  ⟨⟨chars "t_price", 0, chars "innodb", [⟨chars "id", chars "single", []⟩]⟩,
    [⟨chars "id", chars "int", chars "none", chars "unsigned"⟩,
      ⟨chars "price", chars "float", chars "none", chars "not null"⟩]⟩

theorem price_not_loaded : generate (chars "./db_tables.json") [priceTable] = true ∧
    ¬LoadsSaved priceTable ⟨chars "id", chars "single", []⟩ := by
  refine ⟨by decide, ?_⟩
  rintro ⟨f, r, hselect, -, hcolumns, -⟩
  rw [selFields_of_gen hselect] at hcolumns
  exact absurd hcolumns (by decide)

end DBConfigParser

end JmyGame
