import JmyGame.LibSql
import JmyGame.MysqlPool

/-! The statements of `MysqlDBManager`: values and keys are formatted into buffers, the buffers are joined, and the
statement is printed from them. A field type is of any type; `isText` says which are text or binary types. -/

namespace JmyGame

open CArith Sql

/-- The text that `snprintf` leaves in a buffer. -/
def snprintf (size : ℕ) (text : List Byte) : List Byte := text.take (size - 1)

/-- The text of a `char*`. -/
def cstr (s : List Byte) : List Byte := s.takeWhile fun c => c ≠ 0

/-- The size of `buf_`, `buf2_` and `tmp_buf_`. -/
def bufSize : ℕ := 1024 * 128

/-- The size of `big_buf_`. -/
def bigBufSize : ℕ := 1024 * 1024

/-- The size of the buffers for the keys of an update. -/
def updateKeySize : ℕ := 64

/-- A value: a string, or a value of another type with what it prints for a field type. -/
inductive SqlValue (φ : Type) where
  | string (s : List Byte)
  | other (print : φ → Option (List Byte))

/-- `MysqlTableInfo`, with the types of its fields. The names of the fields are names of columns, which are printed
without quotes: there is no equals sign in them, and they have 64 characters of four bytes at most. -/
structure MysqlTable (φ : Type) where
  name : List Byte
  fieldInfo : List Byte → Option φ
  isText : φ → Bool
  names : ∀ field ft, fieldInfo field = some ft → 61 ∉ field ∧ field.length ≤ 256

/-- A field of a call, with its value. -/
abbrev FieldArg (φ : Type) := List Byte × SqlValue φ

/-- What a call does: something that C does not define, to return false, or to push a statement. -/
inductive SqlOutcome where
  | undefined
  | refused
  | pushed (sql : List Byte)
  deriving DecidableEq

/-- What the command for a statement takes of it. -/
def cmdText (sql : List Byte) : List Byte := (MysqlDBManager.cmdInfo sql (none : Option Unit) true).sql

/-- `push_read_cmd` or `push_write_cmd` of a statement. -/
def SqlOutcome.push (sql : List Byte) : SqlOutcome := .pushed (cmdText sql)

/-- The length of a statement loses its bits above the sixteenth. -/
theorem cmdText_eq (sql : List Byte) : cmdText sql = sql.take (sql.length % 2 ^ 16) :=
  MysqlDBManager.cmdInfo_sql sql none true

/-- A statement is pushed as it is exactly when its length has at most sixteen bits. -/
theorem push_eq_iff {sql : List Byte} : SqlOutcome.push sql = .pushed sql ↔ sql.length < 2 ^ 16 := by
  rw [SqlOutcome.push, SqlOutcome.pushed.injEq, cmdText_eq]
  constructor
  · intro h
    have hlen := congrArg List.length h
    rw [List.length_take] at hlen
    omega
  · intro h
    rw [Nat.mod_eq_of_lt h, List.take_length]

section format

variable {φ : Type} (escape : List Byte → List Byte) (table : MysqlTable φ)

/-- `mysql_get_field_value_format`. A string is escaped if there is a scratch buffer, whose size is not checked;
what is written behind its end is not defined. The inner `none` is the result false. -/
def valueFormat (scratch : Option ℕ) (size : ℕ) (ft : φ) : SqlValue φ → Option (Option (List Byte))
  | .string s =>
    if table.isText ft then
      match scratch with
      | none => some (some (snprintf size (quote (cstr s))))
      | some scratchSize =>
        if (escape s).length < scratchSize then some (some (snprintf size (quote (cstr (escape s))))) else none
    else some none
  | .other print => some ((print ft).map (snprintf size))

/-- `get_field_type_format`, which gives no scratch buffer. -/
def getFieldTypeFormat (size : ℕ) (arg : FieldArg φ) : Option (Option (List Byte)) :=
  match table.fieldInfo arg.1 with
  | none => some none
  | some ft => valueFormat escape table none size ft arg.2

/-- A text behind a list that may be empty. -/
def listed : Option (List Byte) → List Byte → List Byte
  | none, text => text
  | some head, text => head ++ [44, 32] ++ text

/-- `format_insert_field_name_str`. -/
def formatInsertFieldNames : Option (List Byte) → List (FieldArg φ) → List Byte
  | head, [] => head.getD []
  | head, arg :: args => formatInsertFieldNames (some (snprintf bufSize (listed head arg.1))) args

/-- `format_insert_field_value_str` for one field. The head, the value and the list are in three buffers. -/
def formatInsertFieldValue (head : Option (List Byte)) (arg : FieldArg φ) : Option (Option (List Byte)) :=
  match table.fieldInfo arg.1 with
  | none => some none
  | some ft => (valueFormat escape table (some bufSize) bufSize ft arg.2).map fun r => r.map fun text =>
    match head with
    | none => text
    | some head => snprintf bufSize (listed (some head) text)

/-- `format_insert_field_value_str`. -/
def formatInsertFieldValues : Option (List Byte) → List (FieldArg φ) → Option (Option (List Byte))
  | head, [] => some head
  | head, arg :: args => (formatInsertFieldValue escape table head arg).bind fun r =>
    match r with
    | none => some none
    | some text => formatInsertFieldValues (some text) args

/-- `insertRecord`. A list of values that is null is printed, which is not defined. -/
def insertRecord (args : List (FieldArg φ)) : SqlOutcome :=
  match formatInsertFieldValues escape table none args with
  | some (some values) => .push (snprintf bigBufSize
      ([73, 78, 83, 69, 82, 84, 32, 73, 78, 84, 79, 32] ++ table.name ++ [32, 40] ++ formatInsertFieldNames none args ++
        [41, 32, 86, 65, 76, 85, 69, 83, 32, 40] ++ values ++ [41]))
  | _ => .undefined

instance neZero_three : NeZero 3 := inferInstance

/-- `buf_` and `index_`. -/
structure RingBufs where
  buf : Fin 3 → List Byte
  index : Fin 3

def RingBufs.write (b : RingBufs) (text : List Byte) : RingBufs := { b with buf := Function.update b.buf b.index text }

/-- `next_index`. -/
def RingBufs.next (b : RingBufs) : RingBufs := { b with index := b.index + 1 }

/-- A field of an update; a field that is not changed has no name. -/
abbrev UpdateArg (φ : Type) := Option (List Byte) × SqlValue φ

/-- `format_update_field_value_str` for one field. Where the list is printed into the buffer that holds its head,
the result is not defined. -/
def formatUpdateFieldValue (b : RingBufs) (head : Option (Fin 3)) (arg : UpdateArg φ) :
    Option (Option (Fin 3) × RingBufs) :=
  match arg.1 with
  | none => some (head, b)
  | some name =>
    match table.fieldInfo name with
    | none => some (none, b)
    | some ft =>
      match valueFormat escape table (some bufSize) bufSize ft arg.2 with
      | none => none
      | some none => some (none, b)
      | some (some tmp) =>
        let b₁ := b.write (snprintf bufSize (name ++ [61] ++ tmp))
        match head with
        | none => some (some b₁.index, b₁)
        | some h =>
          let b₂ := b₁.next
          if b₂.index = h then none
          else some (some b₂.index, b₂.write (snprintf bufSize (listed (some (b₁.buf h)) (b₁.buf b₁.index))))

/-- `format_update_field_value_str`. A null list before the last field is not noticed. -/
def formatUpdateFieldValues : RingBufs → Option (Fin 3) → List (UpdateArg φ) → Option (Option (Fin 3) × RingBufs)
  | b, head, [] => some (head, b)
  | b, head, [arg] => formatUpdateFieldValue escape table b head arg
  | b, head, arg :: args => (formatUpdateFieldValue escape table b head arg).bind fun r =>
    formatUpdateFieldValues r.2.next r.1 args

/-- A call for a table. The relation of the two keys of a select is OR or AND; without fields it selects all. -/
inductive SqlCall (φ : Type) where
  | insert (args : List (FieldArg φ))
  | update (key : FieldArg φ) (keys : List (FieldArg φ)) (args : List (UpdateArg φ))
  | delete (key : FieldArg φ)
  | select (fields : List (List Byte)) (key : FieldArg φ)
  | select2 (relation : Bool) (key key2 : FieldArg φ)

namespace SqlCall

/-- The keys of a call. -/
def keys : SqlCall φ → List (FieldArg φ)
  | insert _ => []
  | update key keys _ => key :: keys
  | delete key => [key]
  | select _ key => [key]
  | select2 _ key key2 => [key, key2]

/-- The size of the buffers for the keys. -/
def keySize : SqlCall φ → ℕ
  | update _ _ _ => updateKeySize
  | _ => bufSize

/-- What is printed between two keys. -/
def relation : SqlCall φ → List Byte
  | select2 true _ _ => [32, 79, 82, 32]
  | _ => [32, 65, 78, 68, 32]

/-- The names of the fields of a select. -/
def fieldNames : Option (List Byte) → List (List Byte) → List Byte
  | head, [] => head.getD [42]
  | head, name :: names => fieldNames (some (snprintf bufSize (listed head name))) names

/-- What a select or a delete prints before its keys. -/
def fromTable (table : MysqlTable φ) (start : List Byte) : List Byte :=
  start ++ [32, 70, 82, 79, 77, 32] ++ table.name ++ [32, 87, 72, 69, 82, 69, 32]

/-- What a call prints before its keys; the inner `none` is a call that returns false. -/
def lead (b : RingBufs) : SqlCall φ → Option (Option (List Byte))
  | insert _ => some none
  | update _ _ args => (formatUpdateFieldValues escape table b none args).map fun r => r.1.map fun h =>
      [85, 80, 68, 65, 84, 69, 32] ++ table.name ++ [32, 83, 69, 84, 32] ++ r.2.buf h ++ [32, 87, 72, 69, 82, 69, 32]
  | delete _ => some (some (fromTable table [68, 69, 76, 69, 84, 69]))
  | select fields _ => some (some (fromTable table ([83, 69, 76, 69, 67, 84, 32] ++ fieldNames none fields)))
  | select2 _ _ _ => some (some (fromTable table [83, 69, 76, 69, 67, 84, 32, 42]))

/-- The formats of the keys with their names, when there are all. A key is never out of its buffer. -/
def formatKeys (size : ℕ) (keys : List (FieldArg φ)) : Option (List (List Byte)) :=
  keys.mapM fun key => ((getFieldTypeFormat escape table size key).join).map fun text => key.1 ++ [61] ++ text

/-- `insertRecord`, `updateRecord`, `deleteRecord` and `selectRecord` with keys. -/
def outcome (b : RingBufs) (call : SqlCall φ) : SqlOutcome :=
  match call with
  | insert args => insertRecord escape table args
  | call =>
    match call.lead escape table b with
    | none => .undefined
    | some none => .refused
    | some (some lead) =>
      match formatKeys escape table call.keySize call.keys with
      | none => .refused
      | some texts => .push (snprintf bigBufSize (lead ++ call.relation.intercalate texts))

end SqlCall

end format

end JmyGame
