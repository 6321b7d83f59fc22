import JmyGame.GeneratorFields
import JmyGame.LibCExpr

/-! The C++ names and expressions that the generator writes for the types and the create flags of the fields. A type is
found by its parts, of which an earlier one can be part of a later one or of the name behind the colon; the flags are
joined by a bar at each comma, whether there is a flag on both sides or not. -/

namespace JmyGame

open CArith

namespace DBConfigParser

theorem contains_iff {s part : Str} : contains s part = true ↔ part <:+: s := by
  unfold contains
  induction s with
  | nil =>
      rw [find, List.infix_nil]
      split_ifs with h
      · exact iff_of_true rfl h
      · exact iff_of_false Bool.false_ne_true h
  | cons c s ih =>
      rw [find, List.infix_cons_iff]
      split_ifs with h
      · exact iff_of_true rfl (Or.inl h)
      · rw [Option.isSome_map, ih, or_iff_right h]

/-- A part without a separator is on one side of it. -/
theorem infix_append_cons_iff {α : Type} {part l₁ l₂ : List α} {a : α} (ha : a ∉ part) :
    part <:+: l₁ ++ a :: l₂ ↔ part <:+: l₁ ∨ part <:+: l₂ := by
  -- a beginning of what starts with the separator is empty
  have hprefix : ∀ l l', part = l ++ l' → l' <+: a :: l₂ → l' = [] := by
    intro l l' hpart hl'
    obtain rfl | ⟨t, rfl, -⟩ := List.prefix_cons_iff.1 hl'
    · rfl
    · exact absurd (hpart ▸ List.mem_append_right l List.mem_cons_self) ha
  constructor
  · intro h
    obtain h | h | ⟨l, l', hpart, hl, hl'⟩ := List.infix_append_iff.1 h
    · exact Or.inl h
    · obtain h | h := List.infix_cons_iff.1 h
      · obtain rfl := hprefix [] part rfl h
        exact Or.inr List.nil_infix
      · exact Or.inr h
    · rw [hpart, hprefix l l' hpart hl', List.append_nil]
      exact Or.inl hl.isInfix
  · rintro (h | h)
    · exact List.infix_append_of_infix_left h
    · exact List.infix_append_of_infix_right (List.infix_cons h)

/-- The types that have a define for binary data. -/
inductive BlobType where
  | binary
  | varbinary
  | tinyblob
  | blob
  | mediumblob
  | longblob
  deriving DecidableEq, Repr

namespace BlobType

def name : BlobType → Str
  | binary => chars "binary"
  | varbinary => chars "varbinary"
  | tinyblob => chars "tinyblob"
  | blob => chars "blob"
  | mediumblob => chars "mediumblob"
  | longblob => chars "longblob"

/-- The enumerator of the type in `MysqlTableFieldType`. -/
def define : BlobType → Str
  | binary => chars "MYSQL_FIELD_TYPE_BINARY"
  | varbinary => chars "MYSQL_FIELD_TYPE_VARBINARY"
  | tinyblob => chars "MYSQL_FIELD_TYPE_TINYBLOB"
  | blob => chars "MYSQL_FIELD_TYPE_BLOB"
  | mediumblob => chars "MYSQL_FIELD_TYPE_MEDIUMBLOB"
  | longblob => chars "MYSQL_FIELD_TYPE_LONGBLOB"

/-- The type as a field declares it, with the name of a user defined type or without. -/
def declared (type : BlobType) : Option Str → Str
  | none => type.name
  | some userType => type.name ++ 58 :: userType

/-- The types that no earlier test takes, and with which user defined types. -/
def Found (userType : Option Str) : BlobType → Prop
  | binary => True
  | tinyblob => ∀ n ∈ userType, contains n (chars "binary") = false
  | blob => ∀ n ∈ userType, contains n (chars "binary") = false ∧ contains n (chars "tinyblob") = false ∧
      contains n (chars "mediumblob") = false
  | varbinary | mediumblob | longblob => False

end BlobType

/-- The texts that are compared as a whole before the last search for a part. -/
def plainTypes : List Str :=
  [chars "tinyint", chars "smallint", chars "mediumint", chars "int", chars "bigint", chars "float", chars "double",
    chars "char", chars "varchar", chars "text", chars "tinytext", chars "longtext", chars "mediumtext"]

/-- What is left of the tests for a text with one of the parts. The tests for `varbinary` and `longblob` come too
late. -/
theorem getFieldTypeDefineStr_blob {s : Str}
    (h : contains s (chars "binary") = true ∨ contains s (chars "blob") = true) :
    getFieldTypeDefineStr s =
      if contains s (chars "binary") then some (chars "MYSQL_FIELD_TYPE_BINARY")
      else if contains s (chars "tinyblob") then some (chars "MYSQL_FIELD_TYPE_TINYBLOB")
      else if contains s (chars "mediumblob") then some (chars "MYSQL_FIELD_TYPE_MEDIUM_BLOB")
      else some (chars "MYSQL_FIELD_TYPE_BLOB") := by
  have hnot : ∀ t ∈ plainTypes, ¬(contains t (chars "binary") = true ∨ contains t (chars "blob") = true) := by decide
  have hne : ∀ t ∈ plainTypes, s ≠ t := by
    rintro t ht rfl
    exact hnot s ht h
  have hvarbinary : contains s (chars "varbinary") = true → contains s (chars "binary") = true := fun hvar =>
    contains_iff.2 ((List.infix_append (chars "var") (chars "binary") []).trans (contains_iff.1 hvar))
  simp only [plainTypes, List.forall_mem_cons] at hne
  obtain ⟨htinyint, hsmallint, hmediumint, hint, hbigint, hfloat, hdouble, hchar, hvarchar, htext, htinytext, hlongtext,
    hmediumtext, -⟩ := hne
  unfold getFieldTypeDefineStr
  rw [if_neg htinyint, if_neg hsmallint, if_neg hmediumint, if_neg hint, if_neg hbigint, if_neg hfloat,
    if_neg hdouble, if_neg hchar, if_neg hvarchar]
  by_cases hbinary : contains s (chars "binary") = true
  · rw [if_pos hbinary, if_pos hbinary]
  · rw [if_neg hbinary, if_neg hbinary, if_neg (mt hvarbinary hbinary), if_neg htext, if_neg htinytext,
      if_neg hlongtext, if_neg hmediumtext, if_pos (h.resolve_left hbinary)]

/-- The defines that are left for a text with one of the parts. There is no `MYSQL_FIELD_TYPE_MEDIUM_BLOB` in
`mysql_defines.h`. -/
def blobDefines : List Str :=
  [chars "MYSQL_FIELD_TYPE_BINARY", chars "MYSQL_FIELD_TYPE_TINYBLOB", chars "MYSQL_FIELD_TYPE_MEDIUM_BLOB",
    chars "MYSQL_FIELD_TYPE_BLOB"]

theorem mem_blobDefines {s define : Str} (h : contains s (chars "binary") = true ∨ contains s (chars "blob") = true)
    (hdefine : getFieldTypeDefineStr s = some define) : define ∈ blobDefines := by
  rw [getFieldTypeDefineStr_blob h] at hdefine
  split_ifs at hdefine
  all_goals
    obtain rfl := Option.some.inj hdefine
    decide

namespace BlobType

variable {type : BlobType} {userType : Option Str} {part : Str}

/-- A part without a colon is in the type or in the name of the user defined type. -/
theorem contains_declared (hpart : (58 : Byte) ∉ part) :
    contains (type.declared userType) part = (contains type.name part || userType.any (contains · part)) := by
  rw [Bool.eq_iff_iff, Bool.or_eq_true]
  cases userType with
  | none => exact (or_iff_left Bool.false_ne_true).symm
  | some n =>
      rw [declared, contains_iff, contains_iff, infix_append_cons_iff hpart, Option.any_some, contains_iff]

/-- A type has its own define exactly when the tests find it. -/
theorem getFieldTypeDefineStr_declared_iff (type : BlobType) (userType : Option Str) :
    getFieldTypeDefineStr (type.declared userType) = some type.define ↔ type.Found userType := by
  have hparts : contains type.name (chars "binary") = true ∨ contains type.name (chars "blob") = true := by
    cases type <;> decide
  have hblob : contains (type.declared userType) (chars "binary") = true ∨
      contains (type.declared userType) (chars "blob") = true := by
    rw [contains_declared (by decide), contains_declared (by decide), Bool.or_eq_true, Bool.or_eq_true]
    exact hparts.imp Or.inl Or.inl
  have hother : type.define ∉ blobDefines → getFieldTypeDefineStr (type.declared userType) ≠ some type.define :=
    fun hnot hdefine => hnot (mem_blobDefines hblob hdefine)
  have hfound := getFieldTypeDefineStr_blob hblob
  rw [contains_declared (by decide), contains_declared (by decide), contains_declared (by decide)] at hfound
  cases type with
  | binary =>
      have hname : contains binary.name (chars "binary") = true := by decide
      rw [hname, Bool.true_or, if_pos rfl] at hfound
      exact iff_of_true hfound trivial
  | tinyblob =>
      have hname : contains tinyblob.name (chars "binary") = false := by decide
      have hname' : contains tinyblob.name (chars "tinyblob") = true := by decide
      rw [hname, Bool.false_or, hname', Bool.true_or, if_pos rfl] at hfound
      rw [hfound]
      change _ ↔ ∀ n, userType = some n → contains n (chars "binary") = false
      rw [← userType.any_eq_false]
      split_ifs with hbinary
      · exact iff_of_false (by decide) (by rw [hbinary]; decide)
      · exact iff_of_true rfl (Bool.eq_false_of_not_eq_true hbinary)
  | blob =>
      have hname : contains blob.name (chars "binary") = false := by decide
      have hname' : contains blob.name (chars "tinyblob") = false := by decide
      have hname'' : contains blob.name (chars "mediumblob") = false := by decide
      rw [hname, Bool.false_or, hname', Bool.false_or, hname'', Bool.false_or] at hfound
      rw [hfound]
      change _ ↔ ∀ n, userType = some n → contains n (chars "binary") = false ∧
        contains n (chars "tinyblob") = false ∧ contains n (chars "mediumblob") = false
      simp only [imp_and, forall_and]
      rw [← userType.any_eq_false, ← userType.any_eq_false, ← userType.any_eq_false]
      split_ifs with hbinary htinyblob hmediumblob
      · exact iff_of_false (by decide) fun h => Bool.false_ne_true (h.1.symm.trans hbinary)
      · exact iff_of_false (by decide) fun h => Bool.false_ne_true (h.2.1.symm.trans htinyblob)
      · exact iff_of_false (by decide) fun h => Bool.false_ne_true (h.2.2.symm.trans hmediumblob)
      · exact iff_of_true rfl ⟨Bool.eq_false_of_not_eq_true hbinary, Bool.eq_false_of_not_eq_true htinyblob,
          Bool.eq_false_of_not_eq_true hmediumblob⟩
  | varbinary => exact iff_of_false (hother (by decide)) id
  | mediumblob => exact iff_of_false (hother (by decide)) id
  | longblob => exact iff_of_false (hother (by decide)) id

/-- Of the types that are found by their parts, `varbinary` and `longblob` are taken for another one. -/
theorem varbinary_longblob_taken :
    ¬(∀ type userType, getFieldTypeDefineStr (declared type userType) = some type.define) ∧
      getFieldTypeDefineStr (chars "varbinary") = some (chars "MYSQL_FIELD_TYPE_BINARY") ∧
      getFieldTypeDefineStr (chars "longblob:Items") = some (chars "MYSQL_FIELD_TYPE_BLOB") := by
  refine ⟨fun hall => ?_, by decide, by decide⟩
  exact absurd (hall varbinary none) (by decide)

end BlobType

/-- The flags in the order in which they are tested. -/
inductive CreateFlag where
  | autoIncrement
  | unsigned
  | null
  | notNull
  | currentTimestamp
  | currentTimestampOnUpdate
  | zerofill
  | default
  deriving DecidableEq, Repr

namespace CreateFlag

def text : CreateFlag → Str
  | autoIncrement => chars "auto_increment"
  | unsigned => chars "unsigned"
  | null => chars "null"
  | notNull => chars "not null"
  | currentTimestamp => chars "current_timestamp"
  | currentTimestampOnUpdate => chars "current_timestamp_on_update"
  | zerofill => chars "zerofill"
  | default => chars "default"

/-- The enumerator of the flag in `MysqlTableCreateFlag`. -/
def define : CreateFlag → Str
  | autoIncrement => chars "MYSQL_TABLE_CREATE_AUTOINCREMENT"
  | unsigned => chars "MYSQL_TABLE_CREATE_UNSIGNED"
  | null => chars "MYSQL_TABLE_CREATE_NULL"
  | notNull => chars "MYSQL_TABLE_CREATE_NOT_NULL"
  | currentTimestamp => chars "MYSQL_TABLE_CREATE_CURRENTTIMESTAMP"
  | currentTimestampOnUpdate => chars "MYSQL_TABLE_CREATE_CURRENTTIMESTAMP_ON_UPDATE"
  | zerofill => chars "MYSQL_TABLE_CREATE_ZEROFILL"
  | default => chars "MYSQL_TABLE_CREATE_DEFAULT"

/-- The value of the enumerator. -/
def value : CreateFlag → ℕ
  | autoIncrement => 4
  | unsigned => 2
  | null => 8
  | notNull => 16
  | currentTimestamp => 64
  | currentTimestampOnUpdate => 128
  | zerofill => 1
  | default => 32

def all : List CreateFlag :=
  [autoIncrement, unsigned, null, notNull, currentTimestamp, currentTimestampOnUpdate, zerofill, default]

/-- The flag that an element of the list stands for, if any. -/
def ofText (s : Str) : Option CreateFlag := all.find? fun f => s = f.text

/-- The values of the names that the flags are compiled to. -/
def env (s : Str) : Option ℕ := (all.find? fun f => s = f.define).map value

end CreateFlag

/-- A letter, a digit or an underscore. -/
def isIdent (c : Byte) : Bool :=
  48 ≤ c.toNat && c.toNat ≤ 57 || 65 ≤ c.toNat && c.toNat ≤ 90 || c = 95 || 97 ≤ c.toNat && c.toNat ≤ 122

/-- The elements of a list of flags, of which some may stand for none. -/
def listedFlags (createFlags : Str) : List (Option CreateFlag) := (createFlags.splitOn 44).map CreateFlag.ofText

/-- What the flags of a list mean. -/
def flagsValue (createFlags : Str) : ℕ := CExpr.orAll ((listedFlags createFlags).reduceOption.map CreateFlag.value)

/-- The value of the expression that is written for a list, in front of the brace that ends the initializer. -/
def compiledValue (text : Str) : Option ℕ := CExpr.clauseValue 124 isIdent CreateFlag.env text

/-- The list is one blank, or it has no blanks, or it has flags on both sides of every blank and they are all
`zerofill`, which is as true as it is one. -/
def Compiles (createFlags : Str) : Prop :=
  listedFlags createFlags = [none] ∨ none ∉ listedFlags createFlags ∨
    CExpr.Spaced (listedFlags createFlags) ∧ ∀ f, some f ∈ listedFlags createFlags → f = .zerofill

section flags

variable {s text createFlags : Str}

theorem createFlagDefineStr_eq (s : Str) : createFlagDefineStr s =
    match CreateFlag.ofText s with
    | some f => some f.define
    | none => if s.all isSpace then some [] else none := by
  unfold CreateFlag.ofText
  cases hfind : CreateFlag.all.find? fun f => s = f.text with
  | some f =>
      have htext : s = f.text := by simpa using List.find?_some hfind
      rw [htext]
      cases f <;> decide
  | none =>
      have hne : ∀ f : CreateFlag, s ≠ f.text := fun f heq => by
        have hmem : f ∈ CreateFlag.all := by cases f <;> decide
        exact List.find?_eq_none.1 hfind f hmem (decide_eq_true heq)
      have hauto : s ≠ chars "auto_increment" := hne .autoIncrement
      have hunsigned : s ≠ chars "unsigned" := hne .unsigned
      have hnull : s ≠ chars "null" := hne .null
      have hnotNull : s ≠ chars "not null" := hne .notNull
      have hcurrent : s ≠ chars "current_timestamp" := hne .currentTimestamp
      have honUpdate : s ≠ chars "current_timestamp_on_update" := hne .currentTimestampOnUpdate
      have hzerofill : s ≠ chars "zerofill" := hne .zerofill
      have hdefault : s ≠ chars "default" := hne .default
      unfold createFlagDefineStr
      rw [if_neg hauto, if_neg hunsigned, if_neg hnull, if_neg hnotNull, if_neg hcurrent, if_neg honUpdate,
        if_neg hzerofill, if_neg hdefault]

/-- What is written are the names of the flags, joined by bars, with nothing for what is blank. -/
theorem text_eq_joined (h : getCreateFlagsDefineStr createFlags = some text) :
    text = CExpr.joined 124 ((listedFlags createFlags).map (Option.map CreateFlag.define)) := by
  obtain ⟨pieces, hpieces, rfl⟩ := Option.map_eq_some_iff.1 h
  have hpiece : ∀ s ∈ createFlags.splitOn 44, ∀ piece, createFlagDefineStr s = some piece →
      piece = ((CreateFlag.ofText s).map CreateFlag.define).getD [] := by
    intro s _ piece hs
    rw [createFlagDefineStr_eq] at hs
    cases hflag : CreateFlag.ofText s with
    | some f =>
        rw [hflag] at hs
        exact (Option.some.inj hs).symm
    | none =>
        rw [hflag] at hs
        dsimp only at hs
        split_ifs at hs
        exact (Option.some.inj hs).symm
  rw [Loop.mapM_eq_some hpieces hpiece, CExpr.joined, listedFlags, List.map_map, List.map_map]
  rfl

theorem named_define (l : List (Option CreateFlag)) : CExpr.Named isIdent (l.map (Option.map CreateFlag.define)) := by
  have hdefine : ∀ f : CreateFlag, f.define ≠ [] ∧ ∀ c ∈ f.define, isIdent c = true := by
    intro f
    have hidents : f.define ≠ [] ∧ f.define.all isIdent = true := by cases f <;> decide
    exact ⟨hidents.1, List.all_eq_true.1 hidents.2⟩
  intro w hw
  obtain ⟨e, -, he⟩ := List.mem_map.1 hw
  obtain ⟨f, -, rfl⟩ := Option.map_eq_some_iff.1 he
  exact hdefine f

/-- For every list that is accepted, the expression has the value of the flags exactly when the list compiles. -/
theorem compiledValue_iff (h : getCreateFlagsDefineStr createFlags = some text) :
    compiledValue text = some (flagsValue createFlags) ↔ Compiles createFlags := by
  have henv : ∀ f : CreateFlag, CreateFlag.env f.define = some f.value := by
    intro f
    cases f <;> decide
  have hvalue : ∀ f : CreateFlag, f.value ≠ 0 ∧ (f.value = 1 ↔ f = .zerofill) := by
    intro f
    cases f <;> decide
  let v : Str → ℕ := fun s => (CreateFlag.env s).getD 0
  have hv : ∀ f : CreateFlag, v f.define = f.value := fun f => by
    change (CreateFlag.env f.define).getD 0 = f.value
    rw [henv, Option.getD_some]
  let l := listedFlags createFlags
  let es := l.map (Option.map CreateFlag.define)
  have hes : es ≠ [] := mt List.map_eq_nil_iff.1 (mt List.map_eq_nil_iff.1 (List.splitOn_ne_nil 44 createFlags))
  have hmem : ∀ s, some s ∈ es ↔ ∃ f, some f ∈ l ∧ f.define = s := fun s => by
    rw [List.mem_map]
    constructor
    · rintro ⟨e, he, hs⟩
      obtain ⟨f, rfl, rfl⟩ := Option.map_eq_some_iff.1 hs
      exact ⟨f, he, rfl⟩
    · rintro ⟨f, hf, rfl⟩
      exact ⟨some f, hf, rfl⟩
  have hflags : CExpr.orAll (es.reduceOption.map v) = flagsValue createFlags := by
    have hcomp : v ∘ CreateFlag.define = CreateFlag.value := funext hv
    rw [List.reduceOption_map, List.map_map, hcomp]
    rfl
  have hnames : ∀ s, some s ∈ es → CreateFlag.env s = some (v s) := fun s hs => by
    obtain ⟨f, -, rfl⟩ := (hmem s).1 hs
    rw [hv, henv]
  have hnonzero : ∀ s, some s ∈ es → v s ≠ 0 := fun s hs => by
    obtain ⟨f, -, rfl⟩ := (hmem s).1 hs
    rw [hv]
    exact (hvalue f).1
  have hiff := CExpr.clauseValue_joined_iff (by decide : isIdent 124 = false) (named_define l) hes hnames hnonzero
  rw [hflags, ← text_eq_joined h] at hiff
  refine hiff.trans (or_congr ?_ (or_congr (not_congr ?_) (and_congr CExpr.spaced_map ?_)))
  · rw [List.map_eq_singleton_iff]
    simp only [Option.map_eq_none_iff, exists_eq_right]
    rfl
  · rw [List.mem_map]
    simp only [Option.map_eq_none_iff, exists_eq_right]
    rfl
  · constructor
    · intro hone f hf
      have hf' := hone f.define ((hmem f.define).2 ⟨f, hf, rfl⟩)
      rw [hv] at hf'
      exact (hvalue f).2.1 hf'
    · intro hzerofill s hs
      obtain ⟨f, hf, rfl⟩ := (hmem s).1 hs
      rw [hv]
      exact (hvalue f).2.2 (hzerofill f hf)

theorem unsignedNotNull_compiledValue :
    ∃ text, getCreateFlagsDefineStr (chars "unsigned,not null") = some text ∧
      compiledValue text = some (flagsValue (chars "unsigned,not null")) :=
  ⟨chars "MYSQL_TABLE_CREATE_UNSIGNED|MYSQL_TABLE_CREATE_NOT_NULL", by decide,
    (compiledValue_iff (by decide)).2 (Or.inr (Or.inl (by decide)))⟩

/-- A list that ends with a comma is no expression, and a blank between two flags makes the one of `||`. -/
theorem blanks_compiledValue :
    ¬(∀ createFlags text, getCreateFlagsDefineStr createFlags = some text →
      compiledValue text = some (flagsValue createFlags)) ∧
    getCreateFlagsDefineStr (chars "unsigned,") = some (chars "MYSQL_TABLE_CREATE_UNSIGNED|") ∧
    compiledValue (chars "MYSQL_TABLE_CREATE_UNSIGNED|") = none ∧
    getCreateFlagsDefineStr (chars "unsigned,,null") =
      some (chars "MYSQL_TABLE_CREATE_UNSIGNED||MYSQL_TABLE_CREATE_NULL") ∧
    compiledValue (chars "MYSQL_TABLE_CREATE_UNSIGNED||MYSQL_TABLE_CREATE_NULL") = some 1 ∧
    flagsValue (chars "unsigned,,null") = 10 := by
  refine ⟨fun hall => ?_, by decide, by decide, by decide, by decide, by decide⟩
  exact absurd (hall (chars "unsigned,") (chars "MYSQL_TABLE_CREATE_UNSIGNED|") (by decide)) (by decide)

end flags

end DBConfigParser

end JmyGame
