import Mathlib.Data.List.TakeWhile
import JmyGame.GeneratorFields
import JmyGame.MysqlLiterals

/-! The select functions of `DBConfigParser` and the readers of their results. Both walk the fields of a table; the
reader counts the columns that it reads. -/

namespace JmyGame

open CArith

namespace DBConfigParser

/-- `MYSQL_MAX_KEYS_COUNT`. -/
def mysqlMaxKeysCount : ℕ := 3

/-- `get_field_format_for_func`: the parameter for a key, in a buffer of 32 bytes that is there once. -/
def getFieldFormatForFunc (fieldVec : List FieldInfo) (fieldName : Str) : Option Str :=
  match fieldVec.find? fun f => f.name = fieldName with
  | none => none
  | some f =>
    if isIntType f.fieldType then
      some (snprintf 32 ((if isUnsigned f then chars "unsigned int " else chars "int ") ++ cstr fieldName))
    else if f.fieldType = chars "bigint" then
      some (snprintf 32 ((if isUnsigned f then chars "uint64_t " else chars "int64_t ") ++ cstr fieldName))
    else if contains f.fieldType (chars "text") || f.fieldType = chars "char" || f.fieldType = chars "varchar" then
      some (snprintf 32 (chars "const std::string& " ++ cstr fieldName))
    else none

/-- The loop over the keys: whether none of them is empty, and the text in the buffer behind it. -/
def formatKeys (fields : List FieldInfo) : Str → List Str → Option (Bool × Str)
  | buf, [] => some (true, buf)
  | buf, key :: keys =>
    if key = [] then some (false, buf)
    else (getFieldFormatForFunc fields key).bind fun buf => formatKeys fields buf keys

/-- An emitted `db_select` function: its name, its parameters before `get_result_func`, the names in `s_sel_fields` and
what is given to `selectRecord` for the keys, a name in quotes with a parameter. -/
structure SelectFunc where
  name : Str
  params : List Str
  selFields : List Str
  keyArgs : List (Str × Str)
  deriving DecidableEq

/-- `func_title`. -/
def SelectFunc.title (f : SelectFunc) : Str :=
  f.name ++ chars "(" ++ f.params.flatMap (· ++ chars ", ") ++
    chars "mysql_cmd_callback_func get_result_func/*, void* param, long param_l*/)"

/-- The names of the fields that are selected. -/
def selFields (fields : List FieldInfo) : List Str :=
  (fields.filter fun f => canSelectFieldType f.fieldType).map FieldInfo.name

/-- `gen_select_record_func`, or nothing where it returns false. All elements of `ff` are the same buffer. -/
def genSelectRecordFunc (table : Table) (keyInfo : SelKeyInfo) : Option SelectFunc :=
  let keys := keyInfo.key.splitOn 38
  if mysqlMaxKeysCount < keys.length then none
  else (formatKeys table.fields [] keys).map fun r =>
    let head := chars "bool db_select_" ++ table.info.name ++ chars "_fields"
    let names := selFields table.fields
    match if r.1 then keys else [] with
    | [key] => ⟨head ++ chars "_by_" ++ key, [r.2], names, [(key, key)]⟩
    | [key, key2] =>
      ⟨head ++ chars "_by_" ++ key ++ chars "_and_" ++ key2, [r.2], names, [(key, key), (key2, key2)]⟩
    | [key, key2, key3] =>
      ⟨head ++ chars "_by_" ++ key ++ chars "_and_" ++ key2 ++ chars "_and_", [r.2], names,
        [(key, key), (key2, key2), (key3, key3)]⟩
    | _ => ⟨head, [], names, []⟩

/-- What is made of the text of a column. -/
inductive Conversion where
  | strtoul
  | atoi
  | strtoull
  | strtoullSigned
  | text
  deriving DecidableEq

/-- A line of the reader, without its indentation. -/
inductive ReadLine where
  /-- `T d = conversion(row[m]);` -/
  | declare (conversion : Conversion) (row : ℕ)
  /-- `data->init_field(d);` -/
  | initDeclared (field : Str)
  /-- `data->init_field(conversion(row[m]));` -/
  | init (field : Str) (conversion : Conversion) (row : ℕ)
  /-- `const unsigned long* row_len = res.row_lengths();` -/
  | rowLengths
  /-- `if (!data->get_mutable_field().ParseFromArray(row[m], row_len[m]))`, with the error that names `userDefine`. -/
  | parseFromArray (field userDefine : Str) (row rowLen : ℕ)
  /-- `result_list.insert_new(d, data);` -/
  | insertNew
  deriving DecidableEq

/-- An emitted `db_get_result_of_select` function. -/
structure ResultFunc where
  title : Str
  multi : Bool
  lines : List ReadLine
  deriving DecidableEq

/-- The lines for a column that is converted. The result key is put into a variable. -/
def initLines (resultKey : Str) (field : Str) (conversion : Conversion) (m : ℕ) : List ReadLine :=
  if resultKey = field then [.declare conversion m, .initDeclared field] else [.init field conversion m]

/-- The lines for the column `m`, and whether `row_len` is declared behind them. -/
def fieldLines (resultKey : Str) (hasBlob : Bool) (m : ℕ) (f : FieldInfo) : Option (List ReadLine × Bool) :=
  if isIntType f.fieldType then
    some (initLines resultKey f.name (if isUnsigned f then .strtoul else .atoi) m, hasBlob)
  else if f.fieldType = chars "bigint" then
    some (initLines resultKey f.name (if isUnsigned f then .strtoull else .strtoullSigned) m, hasBlob)
  else if contains f.fieldType (chars "blob") || contains f.fieldType (chars "binary") then
    (getBlobUserDefineData f.fieldType).map fun userDefine =>
      ((if hasBlob then [] else [.rowLengths]) ++ [.parseFromArray f.name userDefine m m], true)
  else if contains f.fieldType (chars "text") || f.fieldType = chars "char" || f.fieldType = chars "varchar" then
    some (initLines resultKey f.name .text m, hasBlob)
  else none

/-- The loop over the fields, from the column `m` on. -/
def readLines (multi : Bool) (resultKey : Str) : Bool → ℕ → List FieldInfo → Option (List ReadLine)
  | _, _, [] => some []
  | hasBlob, m, f :: fields =>
    if canSelectFieldType f.fieldType then
      (fieldLines resultKey hasBlob m f).bind fun r =>
        (readLines multi resultKey r.2 (m + 1) fields).map fun lines =>
          r.1 ++ (if resultKey = f.name ∧ multi = true then [.insertNew] else []) ++ lines
    else readLines multi resultKey hasBlob m fields

/-- `gen_get_result_of_select_record_func`, or nothing where it returns false, or where the type of the result key is a
null pointer, which a string cannot be made of. -/
def genGetResultOfSelectRecordFunc (table : Table) (keyInfo : SelKeyInfo) : Option ResultFunc :=
  let name := table.info.name
  let single := keyInfo.resultType = [] ∨ keyInfo.resultType = chars "single"
  let title : Option Str :=
    if single then
      some (chars "int db_get_result_of_select_" ++ name ++ chars "_by_" ++ keyInfo.key ++
        chars "(MysqlConnector::Result& res, " ++ name ++ chars "* data)")
    else if keyInfo.resultType = chars "multi" then
      if keyInfo.resultKey = [] then none
      else (getFieldTypeStrByName table.fields keyInfo.resultKey).map fun typeStr =>
        chars "int db_get_result_of_select_" ++ name ++
          chars "(MysqlConnector::Result& res, mysql_records_manager<" ++ name ++ chars ", " ++ typeStr ++
          chars ">& result_list)"
    else none
  let multi := decide ¬single
  title.bind fun title =>
    (readLines multi keyInfo.resultKey false 0 table.fields).map fun lines => ⟨title, multi, lines⟩

/-- A setter that is called, with the column and the length that it is given. -/
structure Setter where
  field : Str
  row : ℕ
  rowLen : Option ℕ
  deriving DecidableEq

/-- The setters that the lines call, one after the other; `d` is the column in the variable. -/
def setters : Option ℕ → List ReadLine → Option (List Setter)
  | _, [] => some []
  | _, .declare _ row :: lines => setters (some row) lines
  | d, .initDeclared field :: lines => d.bind fun row => (setters d lines).map (⟨field, row, none⟩ :: ·)
  | d, .init field _ row :: lines => (setters d lines).map (⟨field, row, none⟩ :: ·)
  | d, .rowLengths :: lines => setters d lines
  | d, .parseFromArray field _ row rowLen :: lines => (setters d lines).map (⟨field, row, some rowLen⟩ :: ·)
  | d, .insertNew :: lines => setters d lines

/-- The columns in the text of the lines. -/
def rowIndices (lines : List ReadLine) : List ℕ :=
  lines.filterMap fun
    | .declare _ row => some row
    | .init _ _ row => some row
    | .parseFromArray _ _ row _ => some row
    | _ => none

/-- The reader is one for the select function: the column `m` is given to the setter of the `m`-th name, with its own
length, and there are no other columns in it. -/
structure ReadsSelected (f : SelectFunc) (r : ResultFunc) : Prop where
  setters : ∃ l, DBConfigParser.setters none r.lines = some l ∧
    l.map (fun s => (s.field, s.row)) = f.selFields.zipIdx ∧ ∀ s ∈ l, ∀ n ∈ s.rowLen, n = s.row
  indices : rowIndices r.lines = List.range f.selFields.length

variable {resultKey : Str} {hasBlob : Bool} {m : ℕ} {f : FieldInfo}

/-- Lines that read the column `m` into the setter of a field, and no other column. -/
def ReadOne (field : Str) (m : ℕ) (lines : List ReadLine) : Prop :=
  rowIndices lines = [m] ∧ ∃ rowLen : Option ℕ, (∀ n ∈ rowLen, n = m) ∧ ∀ d rest, ∃ d',
    setters d (lines ++ rest) = (setters d' rest).map (⟨field, m, rowLen⟩ :: ·)

theorem rowIndices_append (lines lines' : List ReadLine) :
    rowIndices (lines ++ lines') = rowIndices lines ++ rowIndices lines' := List.filterMap_append

theorem readOne_initLines (field : Str) (conversion : Conversion) :
    ReadOne field m (initLines resultKey field conversion m) := by
  unfold initLines
  split_ifs
  · exact ⟨rfl, none, nofun, fun _ _ => ⟨some m, rfl⟩⟩
  · exact ⟨rfl, none, nofun, fun d _ => ⟨d, rfl⟩⟩

theorem readOne_parseLines (field userDefine : Str) :
    ReadOne field m ((if hasBlob then [] else [.rowLengths]) ++ [.parseFromArray field userDefine m m]) := by
  cases hasBlob with
  | true => exact ⟨rfl, some m, fun _ hn => (Option.some.inj hn).symm, fun d _ => ⟨d, rfl⟩⟩
  | false => exact ⟨rfl, some m, fun _ hn => (Option.some.inj hn).symm, fun d _ => ⟨d, rfl⟩⟩

theorem fieldLines_readOne {r : List ReadLine × Bool} (h : fieldLines resultKey hasBlob m f = some r) :
    ReadOne f.name m r.1 := by
  unfold fieldLines at h
  split at h
  · obtain rfl := Option.some.inj h
    exact readOne_initLines _ _
  split at h
  · obtain rfl := Option.some.inj h
    exact readOne_initLines _ _
  split at h
  · obtain ⟨userDefine, -, rfl⟩ := Option.map_eq_some_iff.1 h
    exact readOne_parseLines _ _
  split at h
  · obtain rfl := Option.some.inj h
    exact readOne_initLines _ _
  · cases h

theorem selFields_cons_of_can {fields : List FieldInfo} (h : canSelectFieldType f.fieldType = true) :
    selFields (f :: fields) = f.name :: selFields fields := by
  unfold selFields
  rw [List.filter_cons_of_pos (by exact h), List.map_cons]

theorem selFields_cons_of_not {fields : List FieldInfo} (h : ¬canSelectFieldType f.fieldType = true) :
    selFields (f :: fields) = selFields fields := by
  unfold selFields
  rw [List.filter_cons_of_neg (by exact h)]

/-- The reader goes through the columns from `m` on in the order of the selected names. -/
theorem readLines_spec {multi : Bool} {fields : List FieldInfo} {lines : List ReadLine}
    (h : readLines multi resultKey hasBlob m fields = some lines) (d : Option ℕ) :
    rowIndices lines = List.range' m (selFields fields).length ∧ ∃ l, setters d lines = some l ∧
      l.map (fun s => (s.field, s.row)) = (selFields fields).zipIdx m ∧ ∀ s ∈ l, ∀ n ∈ s.rowLen, n = s.row := by
  induction fields generalizing hasBlob m lines d with
  | nil =>
      obtain rfl := Option.some.inj h
      exact ⟨rfl, [], rfl, rfl, fun _ hs => absurd hs List.not_mem_nil⟩
  | cons f fields ih =>
      rw [readLines] at h
      by_cases hcan : canSelectFieldType f.fieldType = true
      · rw [if_pos hcan] at h
        obtain ⟨r, hfield, hrest⟩ := Option.bind_eq_some_iff.1 h
        obtain ⟨rest, hlines, rfl⟩ := Option.map_eq_some_iff.1 hrest
        obtain ⟨hindices, rowLen, hrowLen, hset⟩ := fieldLines_readOne hfield
        generalize hnew : (if resultKey = f.name ∧ multi = true then [ReadLine.insertNew] else []) = new
        have hskip : ∀ d, setters d (new ++ rest) = setters d rest := by
          intro d
          rw [← hnew]
          split_ifs
          · rfl
          · rfl
        have hnone : rowIndices new = [] := by
          rw [← hnew]
          split_ifs
          · rfl
          · rfl
        obtain ⟨d', hd'⟩ := hset d (new ++ rest)
        obtain ⟨hrows, l, hl, hnames, hlens⟩ := ih hlines d'
        rw [selFields_cons_of_can hcan, List.append_assoc, rowIndices_append, rowIndices_append, hindices, hnone, hrows]
        refine ⟨rfl, ⟨f.name, m, rowLen⟩ :: l, ?_, ?_, List.forall_mem_cons.2 ⟨hrowLen, hlens⟩⟩
        · rw [hd', hskip, hl, Option.map_some]
        · rw [List.map_cons, hnames, List.zipIdx_cons]
      · rw [if_neg hcan] at h
        rw [selFields_cons_of_not hcan]
        exact ih h d

theorem selFields_of_gen {table : Table} {keyInfo : SelKeyInfo} {f : SelectFunc}
    (h : genSelectRecordFunc table keyInfo = some f) : f.selFields = selFields table.fields := by
  unfold genSelectRecordFunc at h
  dsimp only at h
  split_ifs at h
  obtain ⟨r, -, rfl⟩ := Option.map_eq_some_iff.1 h
  split
  · rfl
  · rfl
  · rfl
  · rfl

theorem lines_of_gen {table : Table} {keyInfo : SelKeyInfo} {r : ResultFunc}
    (h : genGetResultOfSelectRecordFunc table keyInfo = some r) :
    readLines r.multi keyInfo.resultKey false 0 table.fields = some r.lines := by
  obtain ⟨title, -, hrest⟩ := Option.bind_eq_some_iff.1 h
  obtain ⟨lines, hlines, rfl⟩ := Option.map_eq_some_iff.1 hrest
  exact hlines

/-- Where both functions are generated, the reader is one for the select function. -/
theorem gen_readsSelected {table : Table} {keyInfo : SelKeyInfo} {f : SelectFunc} {r : ResultFunc}
    (hselect : genSelectRecordFunc table keyInfo = some f)
    (hresult : genGetResultOfSelectRecordFunc table keyInfo = some r) : ReadsSelected f r := by
  obtain ⟨hindices, hsetters⟩ := readLines_spec (lines_of_gen hresult) none
  rw [← selFields_of_gen hselect] at hindices hsetters
  exact ⟨hsetters, hindices.trans List.range_eq_range'.symm⟩

/-- A table with a key, a text and a column that is not selected between them. -/
def accountTable : Table :=
  ⟨⟨chars "t_account", 0, chars "innodb", [⟨chars "account", chars "single", []⟩]⟩,
    [⟨chars "id", chars "int", chars "none", chars "unsigned"⟩,
      ⟨chars "create_time", chars "timestamp", chars "none", chars "null"⟩,
      ⟨chars "account", chars "varchar", chars "index", chars "not null"⟩]⟩

theorem accountTable_readsSelected : ∃ f r,
    genSelectRecordFunc accountTable ⟨chars "account", chars "single", []⟩ = some f ∧
      genGetResultOfSelectRecordFunc accountTable ⟨chars "account", chars "single", []⟩ = some r ∧
      f.selFields = [chars "id", chars "account"] ∧ ReadsSelected f r := by
  have hselect : (genSelectRecordFunc accountTable ⟨chars "account", chars "single", []⟩).isSome = true := by decide
  have hresult : (genGetResultOfSelectRecordFunc accountTable ⟨chars "account", chars "single", []⟩).isSome = true := by
    decide
  refine ⟨_, _, (Option.some_get hselect).symm, (Option.some_get hresult).symm, ?_,
    gen_readsSelected (Option.some_get hselect).symm (Option.some_get hresult).symm⟩
  rw [selFields_of_gen (Option.some_get hselect).symm]
  decide

def isTextType (fieldType : Str) : Bool :=
  fieldType = chars "char" || fieldType = chars "varchar" || fieldType = chars "tinytext" ||
    fieldType = chars "text" || fieldType = chars "mediumtext" || fieldType = chars "longtext"

/-- An integer or a text. -/
def isKeyType (fieldType : Str) : Bool :=
  isIntType fieldType || fieldType = chars "bigint" || isTextType fieldType

/-- The C++ type of a parameter for a field. -/
def paramType (f : FieldInfo) : Str :=
  if isTextType f.fieldType then chars "const std::string&" else (getFieldTypeStr f).getD []

/-- The parameter for a key. -/
def param (fields : List FieldInfo) (key : Str) : Str :=
  match fields.find? fun f => f.name = key with
  | none => []
  | some f => paramType f ++ chars " " ++ key

/-- The keys are names of integer or text fields, and there are three of them at most. -/
structure KeysExist (table : Table) (keyInfo : SelKeyInfo) : Prop where
  length : (keyInfo.key.splitOn 38).length ≤ mysqlMaxKeysCount
  exist : ∀ key ∈ keyInfo.key.splitOn 38, ∃ f, (table.fields.find? fun f => f.name = key) = some f ∧
    isKeyType f.fieldType = true

/-- The emitted function has a parameter for each key, and gives each to `selectRecord` with the name of its column. -/
def TakesKeys (table : Table) (keyInfo : SelKeyInfo) : Prop :=
  ∃ f, genSelectRecordFunc table keyInfo = some f ∧
    f.params = (keyInfo.key.splitOn 38).map (param table.fields) ∧
    f.keyArgs = (keyInfo.key.splitOn 38).map fun key => (key, key)

/-- There is one key, which is a text without a zero byte, and its parameter has 31 bytes at most. -/
def OneShortKey (table : Table) (keyInfo : SelKeyInfo) : Prop :=
  ∃ key, keyInfo.key.splitOn 38 = [key] ∧ key ≠ [] ∧ 0 ∉ key ∧ (param table.fields key).length ≤ 31

theorem of_isIntType {s : Str} (h : isIntType s = true) :
    getBlobUserDefineData s = none ∧ isTextType s = false := by
  unfold isIntType at h
  simp only [Bool.or_eq_true, decide_eq_true_eq] at h
  rcases h with ((rfl | rfl) | rfl) | rfl
  all_goals decide

theorem of_isTextType {s : Str} (h : isTextType s = true) :
    isIntType s = false ∧ s ≠ chars "bigint" ∧
      (contains s (chars "text") || s = chars "char" || s = chars "varchar") = true := by
  unfold isTextType at h
  simp only [Bool.or_eq_true, decide_eq_true_eq] at h
  rcases h with ((((rfl | rfl) | rfl) | rfl) | rfl) | rfl
  all_goals decide

/-- The text that is printed for a key, up to the end of the buffer. -/
theorem getFieldFormatForFunc_eq {fields : List FieldInfo} {key : Str}
    (hfind : (fields.find? fun f => f.name = key) = some f) (hkey : isKeyType f.fieldType = true) :
    getFieldFormatForFunc fields key = some (snprintf 32 (paramType f ++ chars " " ++ cstr key)) := by
  unfold getFieldFormatForFunc paramType
  rw [hfind]
  dsimp only
  by_cases htext : isTextType f.fieldType = true
  · obtain ⟨hint, hbig, hcontains⟩ := of_isTextType htext
    rw [hint, if_neg Bool.false_ne_true, if_neg hbig, if_pos hcontains, if_pos htext]
    rfl
  · rw [if_neg htext]
    by_cases hint : isIntType f.fieldType = true
    · rw [if_pos hint, getFieldTypeStr]
      rw [(of_isIntType hint).1, if_pos hint]
      cases isUnsigned f with
      | true => rfl
      | false => rfl
    · have hbig : f.fieldType = chars "bigint" := by
        unfold isKeyType at hkey
        simpa only [Bool.or_eq_true, hint, htext, decide_eq_true_eq, Bool.false_eq_true, false_or, or_false] using hkey
      have hblob : getBlobUserDefineData (chars "bigint") = none := by decide
      rw [if_neg hint, if_pos hbig, getFieldTypeStr]
      rw [hbig, hblob]
      cases isUnsigned f with
      | true => rfl
      | false => rfl

/-- A text comes out of the buffer as it is when it fits and has no zero byte. -/
theorem snprintf_cstr_eq_iff {n : ℕ} {head s : Str} :
    snprintf (n + 1) (head ++ cstr s) = head ++ s ↔ 0 ∉ s ∧ (head ++ s).length ≤ n := by
  constructor
  · intro h
    have hprefix : cstr s <+: s := List.takeWhile_prefix _
    have hlength := congrArg List.length h
    rw [snprintf, Nat.add_sub_cancel, List.length_take, List.length_append, List.length_append] at hlength
    have hsame : cstr s = s := by
      refine hprefix.eq_of_length_le ?_
      omega
    refine ⟨fun hzero => ?_, ?_⟩
    · rw [← hsame] at hzero
      have hmem : 0 ∈ s.takeWhile fun c => c ≠ 0 := hzero
      exact absurd (List.mem_takeWhile_imp hmem) (by decide)
    · rw [List.length_append]
      omega
  · rintro ⟨hzero, hlength⟩
    rw [cstr_of_noNul hzero]
    exact snprintf_of_length (Nat.lt_succ_of_le hlength)

/-- All parameters are in one buffer, and so there is one of them at most. -/
theorem length_params_of_gen {table : Table} {keyInfo : SelKeyInfo} {f : SelectFunc}
    (h : genSelectRecordFunc table keyInfo = some f) : f.params.length ≤ 1 := by
  unfold genSelectRecordFunc at h
  dsimp only at h
  split_ifs at h
  obtain ⟨r, -, rfl⟩ := Option.map_eq_some_iff.1 h
  split
  · exact le_rfl
  · exact le_rfl
  · exact le_rfl
  · exact Nat.zero_le 1

section

variable {table : Table} {keyInfo : SelKeyInfo} {key : Str}

theorem genSelectRecordFunc_emptyKey (hkey : keyInfo.key.splitOn 38 = [[]]) :
    ∃ f', genSelectRecordFunc table keyInfo = some f' ∧ f'.params = [] := by
  unfold genSelectRecordFunc
  rw [hkey]
  exact ⟨_, rfl, rfl⟩

theorem genSelectRecordFunc_oneKey (hkey : keyInfo.key.splitOn 38 = [key]) (hne : key ≠ [])
    (hfind : (table.fields.find? fun f => f.name = key) = some f) (htype : isKeyType f.fieldType = true) :
    ∃ f', genSelectRecordFunc table keyInfo = some f' ∧
      f'.params = [snprintf 32 (paramType f ++ chars " " ++ cstr key)] ∧ f'.keyArgs = [(key, key)] := by
  have hformat : formatKeys table.fields [] [key] =
      some (true, snprintf 32 (paramType f ++ chars " " ++ cstr key)) := by
    rw [formatKeys, if_neg hne, getFieldFormatForFunc_eq hfind htype, Option.bind_some, formatKeys]
  unfold genSelectRecordFunc
  rw [hkey]
  dsimp only
  rw [hformat]
  exact ⟨_, rfl, rfl, rfl⟩

/-- One key is taken exactly when its parameter comes out of the buffer as it is. -/
theorem takesKeys_oneKey_iff (hkey : keyInfo.key.splitOn 38 = [key])
    (hfind : (table.fields.find? fun f => f.name = key) = some f) (htype : isKeyType f.fieldType = true) :
    TakesKeys table keyInfo ↔ key ≠ [] ∧ 0 ∉ key ∧ (param table.fields key).length ≤ 31 := by
  have hparam : param table.fields key = paramType f ++ chars " " ++ key := by rw [param, hfind]
  have hbuffer : snprintf 32 (paramType f ++ chars " " ++ cstr key) = paramType f ++ chars " " ++ key ↔
      0 ∉ key ∧ (paramType f ++ chars " " ++ key).length ≤ 31 := snprintf_cstr_eq_iff
  unfold TakesKeys
  rw [hkey, List.map_singleton, List.map_singleton, hparam, ← hbuffer]
  by_cases hempty : key = []
  · obtain ⟨f', heq, hnone⟩ : ∃ f', genSelectRecordFunc table keyInfo = some f' ∧ f'.params = [] :=
      genSelectRecordFunc_emptyKey (hempty ▸ hkey)
    refine iff_of_false ?_ fun h => h.1 hempty
    rintro ⟨g, heq', hparams, -⟩
    obtain rfl := Option.some.inj (heq.symm.trans heq')
    cases hnone.symm.trans hparams
  · obtain ⟨f', heq, hparams, hargs⟩ := genSelectRecordFunc_oneKey hkey hempty hfind htype
    rw [and_iff_right hempty]
    constructor
    · rintro ⟨g, heq', hparams', -⟩
      obtain rfl := Option.some.inj (heq.symm.trans heq')
      exact List.singleton_inj.1 (hparams.symm.trans hparams')
    · intro htext
      exact ⟨f', heq, hparams.trans (congrArg (fun text => [text]) htext), hargs⟩

end

/-- A select function takes its keys exactly when there is one, and its parameter is not cut. -/
theorem takesKeys_iff {table : Table} {keyInfo : SelKeyInfo} (hkeys : KeysExist table keyInfo) :
    TakesKeys table keyInfo ↔ OneShortKey table keyInfo := by
  have hone {key : Str} (hkey : keyInfo.key.splitOn 38 = [key]) :
      TakesKeys table keyInfo ↔ key ≠ [] ∧ 0 ∉ key ∧ (param table.fields key).length ≤ 31 := by
    obtain ⟨f, hfind, htype⟩ := hkeys.exist key (hkey ▸ List.mem_cons_self)
    exact takesKeys_oneKey_iff hkey hfind htype
  constructor
  · rintro ⟨f, heq, hparams, hargs⟩
    have hlength : (keyInfo.key.splitOn 38).length = 1 := by
      have hle := length_params_of_gen heq
      rw [hparams, List.length_map] at hle
      exact hle.antisymm (List.length_pos_iff.2 (List.splitOn_ne_nil 38 keyInfo.key))
    obtain ⟨key, hkey⟩ := List.length_eq_one_iff.1 hlength
    exact ⟨key, hkey, (hone hkey).1 ⟨f, heq, hparams, hargs⟩⟩
  · rintro ⟨key, hkey, h⟩
    exact (hone hkey).2 h

theorem accountTable_keysExist : KeysExist accountTable ⟨chars "account", chars "single", []⟩ where
  length := by decide
  exist := by
    have hkeys : List.splitOn 38 (chars "account") = [chars "account"] := by decide
    intro key hkey
    rw [hkeys] at hkey
    obtain rfl := List.mem_singleton.1 hkey
    exact ⟨⟨chars "account", chars "varchar", chars "index", chars "not null"⟩, by decide, by decide⟩

theorem accountTable_takesKeys : TakesKeys accountTable ⟨chars "account", chars "single", []⟩ :=
  (takesKeys_iff accountTable_keysExist).2 ⟨chars "account", by decide, by decide, by decide, by decide⟩

/-- With two keys, there is no parameter for the first, and a long name is cut. -/
theorem keys_lost :
    ¬TakesKeys accountTable ⟨chars "account&id", chars "single", []⟩ ∧
      ¬TakesKeys ⟨⟨chars "t_long", 0, chars "innodb", []⟩,
          [⟨chars "last_logout_account", chars "text", chars "none", []⟩]⟩
        ⟨chars "last_logout_account", chars "single", []⟩ := by
  constructor
  · rintro ⟨f, heq, hparams, -⟩
    have hlength : f.params.length = 1 := by
      obtain rfl := Option.some.inj heq
      decide
    rw [hparams] at hlength
    exact absurd hlength (by decide)
  · rintro ⟨f, heq, hparams, -⟩
    obtain rfl := Option.some.inj heq
    exact absurd hparams (by decide)

end DBConfigParser

end JmyGame
