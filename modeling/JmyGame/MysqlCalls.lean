import Mathlib.Data.List.Nodup
import JmyGame.LibLoop
import JmyGame.MysqlLiterals

/-! The calls that make statements, seen as a list of values and keys behind it. The ring of buffers of an update
holds the list that `setList` describes, and a call is safe when every string in it is read where it stands. -/

namespace JmyGame

open CArith Sql

section calls

variable {φ : Type} (escape : List Byte → List Byte) (table : MysqlTable φ)

/-- The table has the field, and the type of the field takes the value. -/
def MysqlTable.Takes (name : List Byte) (value : SqlValue φ) : Prop :=
  ∃ ft, table.fieldInfo name = some ft ∧
    match value with
    | .string _ => table.isText ft = true
    | .other print => (print ft).isSome = true

/-- What a value that is no string prints for a field. -/
def MysqlTable.print (name : List Byte) (print : φ → Option (List Byte)) : List Byte :=
  ((table.fieldInfo name).bind print).getD []

/-- A value as a field of a list. -/
def SqlValue.field (name front : List Byte) : SqlValue φ → ListField
  | .string s => .string front s
  | .other print => .other front (table.print name print)

/-- The text of a key before it is put in a buffer: a string is not escaped. -/
def keyBody (name : List Byte) : SqlValue φ → List Byte
  | .string s => quote s
  | .other print => table.print name print

/-- The text of a key with its name. -/
def keyText (size : ℕ) (key : FieldArg φ) : List Byte := key.1 ++ [61] ++ snprintf size (keyBody table key.1 key.2)

/-- A field of an update as a field of a list. -/
def updateField (arg : UpdateArg φ) : ListField :=
  match arg.1 with
  | none => .unchanged
  | some name => arg.2.field table name (name ++ [61])

/-- The text of a list. -/
def ListState.text (st : ListState) : List Byte := (st.map Prod.fst).getD []

namespace SqlCall

/-- The fields that a call is to set, without a name where they are not changed. -/
def args : SqlCall φ → List (UpdateArg φ)
  | insert args => args.map fun arg => (some arg.1, arg.2)
  | update _ _ args => args
  | _ => []

/-- The names of the fields that a call sets. -/
def names (call : SqlCall φ) : List (List Byte) := call.args.filterMap Prod.fst

/-- A call that sets values. -/
def setsValues : SqlCall φ → Bool
  | insert _ => true
  | update _ _ _ => true
  | _ => false

/-- The fields of the list of a call. -/
def fields : SqlCall φ → List ListField
  | insert args => args.map fun arg => arg.2.field table arg.1 []
  | update _ _ args => args.map (updateField table)
  | _ => []

/-- What a call prints before its list. -/
def front : SqlCall φ → List Byte
  | insert args => [73, 78, 83, 69, 82, 84, 32, 73, 78, 84, 79, 32] ++ table.name ++ [32, 40] ++
      formatInsertFieldNames none args ++ [41, 32, 86, 65, 76, 85, 69, 83, 32, 40]
  | update _ _ _ => [85, 80, 68, 65, 84, 69, 32] ++ table.name ++ [32, 83, 69, 84, 32]
  | _ => []

/-- What a call prints between its list and its keys. -/
def middle : SqlCall φ → List Byte
  | insert _ => [41]
  | update _ _ _ => [32, 87, 72, 69, 82, 69, 32]
  | delete _ => fromTable table [68, 69, 76, 69, 84, 69]
  | select fields _ => fromTable table ([83, 69, 76, 69, 67, 84, 32] ++ fieldNames none fields)
  | select2 _ _ _ => fromTable table [83, 69, 76, 69, 67, 84, 32, 42]

/-- What a call prints before its keys. -/
def keyLead (call : SqlCall φ) (st : ListState) : List Byte := call.front table ++ st.text ++ call.middle table

/-- The statement that a call makes, before it is put in a command. -/
def statement (call : SqlCall φ) (st : ListState) : List Byte :=
  snprintf bigBufSize (call.keyLead table st ++ call.relation.intercalate (call.keys.map (keyText table call.keySize)))

/-- A call whose fields and keys are of the table and take their values, and that has something to set if it sets
values. -/
structure Formats (call : SqlCall φ) : Prop where
  values : ∀ arg ∈ call.args, ∀ name ∈ arg.1, table.Takes name arg.2
  keys : ∀ key ∈ call.keys, table.Takes key.1 key.2
  sets : call.setsValues = true → call.names ≠ []

end SqlCall

variable {escape table}

/-- What a value is formatted to. -/
def SqlValue.body (escape : List Byte → List Byte) (table : MysqlTable φ) (name : List Byte) :
    SqlValue φ → Option (List Byte)
  | .string s => if (escape s).length < bufSize then some (snprintf bufSize (quote (escape s))) else none
  | .other print => some (snprintf bufSize (table.print name print))

theorem SqlValue.text_field (name front : List Byte) (value : SqlValue φ) : (value.field table name front).text escape =
    some ((value.body escape table name).map fun text => snprintf bufSize (front ++ text)) := by
  cases value with
  | string s =>
      rw [field, ListField.text, body]
      split_ifs <;> rfl
  | other print => rfl

theorem MysqlTable.print_eq {name : List Byte} {ft : φ} {print : φ → Option (List Byte)}
    (hft : table.fieldInfo name = some ft) (hprint : (print ft).isSome = true) :
    print ft = some (table.print name print) := by
  obtain ⟨text, htext⟩ := Option.isSome_iff_exists.1 hprint
  rw [MysqlTable.print, hft, Option.bind_some, htext]
  rfl

theorem valueFormat_eq (hescape : Escapes escape) {name : List Byte} {value : SqlValue φ}
    (htakes : table.Takes name value) : ∃ ft, table.fieldInfo name = some ft ∧
      valueFormat escape table (some bufSize) bufSize ft value = (value.body escape table name).map some := by
  obtain ⟨ft, hft, hvalue⟩ := htakes
  refine ⟨ft, hft, ?_⟩
  cases value with
  | string s =>
      rw [valueFormat, if_pos hvalue, cstr_of_noNul (hescape.noNul s), SqlValue.body]
      split_ifs <;> rfl
  | other print =>
      rw [valueFormat, MysqlTable.print_eq hft hvalue]
      rfl

theorem formatKeys_eq {size : ℕ} {keys : List (FieldArg φ)} (hkeys : ∀ key ∈ keys, table.Takes key.1 key.2)
    (hnul : ∀ name s, (name, .string s) ∈ keys → (0 : Byte) ∉ s) :
    SqlCall.formatKeys escape table size keys = some (keys.map (keyText table size)) := by
  have hkey : ∀ key ∈ keys, ((getFieldTypeFormat escape table size key).join).map
      (fun text => key.1 ++ [61] ++ text) = some (keyText table size key) := by
    rintro ⟨name, value⟩ hmem
    obtain ⟨ft, hft, hvalue⟩ := hkeys _ hmem
    rw [getFieldTypeFormat, hft]
    cases value with
    | string s =>
        have hs : cstr s = s := cstr_of_noNul (hnul name s hmem)
        dsimp only [valueFormat]
        rw [if_pos hvalue, hs]
        rfl
    | other print =>
        dsimp only [valueFormat]
        rw [MysqlTable.print_eq hft hvalue]
        rfl
  exact Loop.mapM_eq_map hkey

theorem snprintf_snprintf (size : ℕ) (text : List Byte) : snprintf size (snprintf size text) = snprintf size text := by
  rw [snprintf, snprintf, List.take_take, min_self]

theorem SqlValue.snprintf_body {name text : List Byte} {value : SqlValue φ}
    (h : value.body escape table name = some text) : snprintf bufSize text = text := by
  cases value with
  | string s =>
      obtain ⟨-, heq⟩ := Option.ite_none_right_eq_some.1 h
      obtain rfl := Option.some.inj heq
      exact snprintf_snprintf bufSize _
  | other print =>
      obtain rfl := Option.some.inj h
      exact snprintf_snprintf bufSize _

/-- The values of an insert are its list. -/
theorem formatInsertFieldValues_eq (hescape : Escapes escape) {args : List (FieldArg φ)} {head : Option (List Byte)}
    (htakes : ∀ arg ∈ args, table.Takes arg.1 arg.2) : formatInsertFieldValues escape table head args =
      (setList escape (head.map fun text => (text, 0)) (args.map fun arg => arg.2.field table arg.1 [])).map
        fun st => st.map Prod.fst := by
  induction args generalizing head with
  | nil =>
      rw [formatInsertFieldValues, List.map_nil, setList, Option.map_some, Option.map_map]
      exact congrArg some (Option.map_id_apply.symm)
  | cons arg args ih =>
      obtain ⟨ft, hft, hformat⟩ := valueFormat_eq hescape (htakes arg List.mem_cons_self)
      have hrest : ∀ a ∈ args, table.Takes a.1 a.2 := fun a ha => htakes a (List.mem_cons_of_mem arg ha)
      rw [formatInsertFieldValues, formatInsertFieldValue, hft, List.map_cons]
      dsimp only
      rw [hformat, setList, SqlValue.text_field]
      cases hbody : arg.2.body escape table arg.1 with
      | none => rfl
      | some text =>
          have htext := SqlValue.snprintf_body hbody
          cases head with
          | none =>
              have hjoined : snprintf bufSize (listed none (snprintf bufSize ([] ++ text))) = text := by
                rw [listed, List.nil_append, htext, htext]
              simp only [Option.map_some, Option.bind_some, ih hrest]
              rw [Option.map_none, if_neg (show ¬Overlaps none from id), joinHead, hjoined]
          | some head =>
              have hfree : ¬Overlaps (some (head, 0)) := fun h => absurd (show 0 % 3 = 1 from h) (by decide)
              simp only [Option.map_some, Option.bind_some, ih hrest]
              rw [if_neg hfree, joinHead, if_pos rfl, List.nil_append, htext]

/-- The ring holds a list: the buffer that it is in comes before the index, as many buffers as there are unchanged
fields and one. -/
def RingBufs.Holds (b : RingBufs) (head : Option (Fin 3)) : ListState → Prop
  | none => head = none
  | some (text, gap) => ∃ h, head = some h ∧ b.buf h = text ∧ b.index.val = (h.val + gap + 1) % 3

theorem RingBufs.Holds.next_unchanged {b : RingBufs} {head : Option (Fin 3)} {st : ListState} (h : b.Holds head st) :
    b.next.Holds head (st.map fun p => (p.1, p.2 + 1)) := by
  cases st with
  | none => exact h
  | some p =>
      obtain ⟨h, rfl, hbuf, hindex⟩ := h
      refine ⟨h, rfl, hbuf, ?_⟩
      have hnext : b.next.index.val = (b.index.val + 1) % 3 := Fin.val_add b.index 1
      rw [hnext, hindex]
      omega

/-- A text that is written is held behind the next step of the ring. -/
theorem RingBufs.holds_write (b : RingBufs) (text : List Byte) :
    (b.write text).next.Holds (some b.index) (some (text, 0)) := by
  refine ⟨b.index, rfl, Function.update_self _ _ _, ?_⟩
  exact Fin.val_add b.index 1

/-- The head that is printed when a text has been written into the ring. -/
theorem RingBufs.joinHead_eq {b : RingBufs} {h : Fin 3} {gap : ℕ} (hindex : b.index.val = (h.val + gap + 1) % 3)
    (hgap : gap % 3 ≠ 1) (text : List Byte) :
    joinHead (some (b.buf h, gap)) text = some ((b.write text).buf h) := by
  have hval := h.isLt
  have hbuf : (b.write text).buf = Function.update b.buf b.index text := rfl
  rw [joinHead, hbuf]
  split_ifs with hzero
  · have hne : h ≠ b.index := by
      rw [Ne, Fin.ext_iff, hindex]
      omega
    rw [Function.update_of_ne hne]
  · have heq : h = b.index := by
      rw [Fin.ext_iff, hindex]
      omega
    rw [heq, Function.update_self]

/-- The list is printed into its own head behind one more than a multiple of three unchanged fields. -/
theorem RingBufs.next_index_eq_iff {b : RingBufs} {h : Fin 3} {gap : ℕ}
    (hindex : b.index.val = (h.val + gap + 1) % 3) : b.next.index = h ↔ gap % 3 = 1 := by
  have hval := h.isLt
  have hnext : b.next.index.val = (b.index.val + 1) % 3 := Fin.val_add b.index 1
  rw [Fin.ext_iff, hnext, hindex]
  omega

/-- One field of an update does to the ring what it does to the list. -/
theorem formatUpdateFieldValue_rel (hescape : Escapes escape) {b : RingBufs} {head : Option (Fin 3)} {st : ListState}
    (hholds : b.Holds head st) {arg : UpdateArg φ} (htakes : ∀ name ∈ arg.1, table.Takes name arg.2) :
    Option.Rel (fun r st' => r.2.next.Holds r.1 st') (formatUpdateFieldValue escape table b head arg)
      (setList escape st [updateField table arg]) := by
  obtain ⟨name, value⟩ := arg
  cases name with
  | none => exact .some hholds.next_unchanged
  | some name =>
      obtain ⟨ft, hft, hformat⟩ := valueFormat_eq hescape (htakes name rfl)
      rw [setList, updateField, SqlValue.text_field, formatUpdateFieldValue]
      dsimp only
      rw [hft]
      dsimp only
      rw [hformat]
      cases hbody : value.body escape table name with
      | none => exact .none
      | some body =>
          dsimp only [Option.map_some, Option.bind_some]
          generalize htext : snprintf bufSize (name ++ [61] ++ body) = text
          cases st with
          | none =>
              obtain rfl : head = none := hholds
              have hjoined : snprintf bufSize (listed none text) = text := by
                rw [listed, ← htext, snprintf_snprintf]
              rw [if_neg (show ¬Overlaps none from id), joinHead, hjoined]
              exact .some (b.holds_write text)
          | some p =>
              obtain ⟨h, rfl, hbuf, hindex⟩ := hholds
              have hnext : (b.write text).next.index = h ↔ p.2 % 3 = 1 := RingBufs.next_index_eq_iff hindex
              by_cases hgap : p.2 % 3 = 1
              · rw [if_pos (show Overlaps (some p) from hgap)]
                dsimp only
                rw [if_pos (hnext.2 hgap)]
                exact .none
              · have hself : (b.write text).buf (b.write text).index = text := Function.update_self _ _ _
                obtain ⟨list, gap⟩ := p
                obtain rfl : b.buf h = list := hbuf
                rw [if_neg (show ¬Overlaps (some (b.buf h, gap)) from hgap)]
                dsimp only
                rw [if_neg (mt hnext.1 hgap), hself, RingBufs.joinHead_eq hindex hgap]
                exact .some (RingBufs.holds_write _ _)

theorem rel_bind {α β γ δ : Type} {R : α → β → Prop} {S : γ → δ → Prop} {r : Option α} {s : Option β}
    {f : α → Option γ} {g : β → Option δ} (h : Option.Rel R r s) (hfg : ∀ a b, R a b → Option.Rel S (f a) (g b)) :
    Option.Rel S (r.bind f) (s.bind g) := by
  cases h with
  | some h => exact hfg _ _ h
  | none => exact .none

theorem rel_imp {α β : Type} {R S : α → β → Prop} {r : Option α} {s : Option β} (h : Option.Rel R r s)
    (hRS : ∀ a b, R a b → S a b) : Option.Rel S r s := by
  cases h with
  | some h => exact .some (hRS _ _ h)
  | none => exact .none

/-- The values of an update are its list. -/
theorem formatUpdateFieldValues_rel (hescape : Escapes escape) {args : List (UpdateArg φ)} {b : RingBufs}
    {head : Option (Fin 3)} {st : ListState} (hholds : b.Holds head st)
    (htakes : ∀ arg ∈ args, ∀ name ∈ arg.1, table.Takes name arg.2) :
    Option.Rel (fun r st' => r.1.map r.2.buf = st'.map Prod.fst) (formatUpdateFieldValues escape table b head args)
      (setList escape st (args.map (updateField table))) := by
  have hbuf : ∀ {b : RingBufs} {head : Option (Fin 3)} {st : ListState}, b.Holds head st →
      head.map b.buf = st.map Prod.fst := by
    intro b head st h
    cases st with
    | none =>
        obtain rfl : head = none := h
        rfl
    | some p =>
        obtain ⟨h, rfl, hbuf, -⟩ := h
        exact congrArg some hbuf
  induction args generalizing b head st with
  | nil => exact .some (hbuf hholds)
  | cons arg args ih =>
      have hstep := formatUpdateFieldValue_rel hescape hholds (htakes arg List.mem_cons_self)
      cases args with
      | nil =>
          rw [formatUpdateFieldValues, List.map_singleton]
          exact rel_imp hstep fun r st' h => hbuf (b := r.2.next) h
      | cons arg' args =>
          have hsplit : (arg :: arg' :: args).map (updateField table) =
              [updateField table arg] ++ (arg' :: args).map (updateField table) := rfl
          rw [formatUpdateFieldValues, hsplit, setList_append]
          · exact rel_bind hstep fun r st' h => ih h fun a ha => htakes a (List.mem_cons_of_mem arg ha)
          · exact List.cons_ne_nil arg' args

theorem SqlValue.changed_field (name front : List Byte) (value : SqlValue φ) :
    (value.field table name front).changed = true := by
  cases value with
  | string s => rfl
  | other print => rfl

/-- A call that sets values has a list. -/
theorem SqlCall.exists_list {call : SqlCall φ} (hformats : call.Formats table) (hsets : call.setsValues = true)
    {st : ListState} (hlist : setList escape none (call.fields table) = some st) : ∃ p, st = some p := by
  obtain ⟨name, hname⟩ := List.exists_mem_of_ne_nil _ (hformats.sets hsets)
  obtain ⟨arg, harg, hname'⟩ := List.mem_filterMap.1 hname
  cases call with
  | insert args =>
      obtain ⟨arg', harg', rfl⟩ := List.mem_map.1 harg
      exact setList_of_changed (List.mem_map_of_mem harg') (SqlValue.changed_field arg'.1 [] arg'.2) hlist
  | update key keys args =>
      refine setList_of_changed (List.mem_map_of_mem harg) ?_ hlist
      rw [updateField, hname']
      exact SqlValue.changed_field name _ arg.2
  | delete key => cases hsets
  | select fields key => cases hsets
  | select2 relation key key2 => cases hsets

/-- What a call pushes. -/
theorem SqlCall.outcome_eq (hescape : Escapes escape) {call : SqlCall φ} (hformats : call.Formats table)
    (hnul : ∀ name s, (name, .string s) ∈ call.keys → (0 : Byte) ∉ s) (b : RingBufs) :
    call.outcome escape table b =
      match setList escape none (call.fields table) with
      | none => .undefined
      | some st => .push (call.statement table st) := by
  have hkeys : formatKeys escape table call.keySize call.keys = some (call.keys.map (keyText table call.keySize)) :=
    formatKeys_eq hformats.keys hnul
  cases call with
  | insert args =>
      have hvalues : formatInsertFieldValues escape table none args =
          (setList escape none (fields table (insert args))).map fun st => st.map Prod.fst :=
        formatInsertFieldValues_eq hescape fun arg harg => hformats.values _ (List.mem_map_of_mem harg) _ rfl
      rw [outcome, insertRecord, hvalues]
      cases hlist : setList escape none (fields table (insert args)) with
      | none => rfl
      | some st =>
          obtain ⟨p, rfl⟩ := exists_list hformats rfl hlist
          refine congrArg (fun text => SqlOutcome.push (snprintf bigBufSize text)) ?_
          exact (List.append_nil _).symm
  | update key keys args =>
      have hvalues : Option.Rel (fun r st => r.1.map r.2.buf = st.map Prod.fst)
          (formatUpdateFieldValues escape table b none args)
          (setList escape none (fields table (update key keys args))) :=
        formatUpdateFieldValues_rel hescape rfl hformats.values
      have hlist : ∀ st, setList escape none (fields table (update key keys args)) = some st → ∃ p, st = some p :=
        fun st h => exists_list hformats rfl h
      rw [outcome, lead, hkeys]
      · generalize formatUpdateFieldValues escape table b none args = r at hvalues
        generalize setList escape none (fields table (update key keys args)) = s at hvalues hlist
        cases hvalues with
        | none => rfl
        | some h =>
            obtain ⟨p, rfl⟩ := hlist _ rfl
            obtain ⟨i, hi, hbuf⟩ := Option.map_eq_some_iff.1 h
            rw [Option.map_some, hi, Option.map_some, hbuf]
            rfl
      · exact fun _ h => nomatch h
  | delete key =>
      rw [outcome, lead, hkeys]
      · rfl
      · exact fun _ h => nomatch h
  | select fields key =>
      rw [outcome, lead, hkeys]
      · rfl
      · exact fun _ h => nomatch h
  | select2 relation key key2 =>
      rw [outcome, lead, hkeys]
      · rfl
      · exact fun _ h => nomatch h

/-- Where the literal of a key stands, behind what is printed before the keys. -/
def keyPlace (table : MysqlTable φ) (call : SqlCall φ) (lead : List Byte) (keys₁ : List (FieldArg φ))
    (name s : List Byte) : Place where
  before := lead ++ (keys₁.flatMap fun key => keyText table call.keySize key ++ call.relation) ++ (name ++ [61])
  string := s
  key := true
  fits := (quote s).length < call.keySize ∧
    (lead ++ (keys₁.flatMap fun key => keyText table call.keySize key ++ call.relation) ++ (name ++ [61]) ++
      quote s).length < bigBufSize

/-- The places of the strings of a call: its values, and its keys. -/
inductive SqlCall.IsPlace (escape : List Byte → List Byte) (table : MysqlTable φ) (call : SqlCall φ) : Place → Prop
  | value {fields₁ fields₂ : List ListField} {front s : List Byte} {st : ListState}
      (hfields : call.fields table = fields₁ ++ .string front s :: fields₂)
      (hst : setList escape none fields₁ = some st) : IsPlace escape table call
        (valuePlace escape (call.front table) st front s)
  | key {keys₁ keys₂ : List (FieldArg φ)} {name s : List Byte} {st : ListState}
      (hkeys : call.keys = keys₁ ++ (name, .string s) :: keys₂)
      (hst : setList escape none (call.fields table) = some st) : IsPlace escape table call
        (keyPlace table call (call.keyLead table st) keys₁ name s)

/-- A call is safe: it does nothing undefined, it returns false if one of its strings does not fit, and in the
statement that it pushes the database reads every string at its place. -/
def SqlCall.Safe (escape : List Byte → List Byte) (table : MysqlTable φ) (call : SqlCall φ) (b : RingBufs) : Prop :=
  call.outcome escape table b ≠ .undefined ∧ ∀ place, call.IsPlace escape table place →
    (¬place.fits → call.outcome escape table b = .refused) ∧
      ∀ sql, call.outcome escape table b = .pushed sql → place.Reads sql

/-- What a call needs to be safe: the strings fit, the command keeps the statement up to the end of every literal, the
strings of the keys stand for themselves, and the unchanged fields of an update keep the ring of buffers in step. -/
structure SqlCall.Fit (escape : List Byte → List Byte) (table : MysqlTable φ) (call : SqlCall φ) : Prop where
  fits : ∀ place, call.IsPlace escape table place → place.fits
  uncut : ∀ place st, call.IsPlace escape table place → setList escape none (call.fields table) = some st →
    (place.before ++ place.text escape).length ≤ (call.statement table st).length % 2 ^ 16
  plain : ∀ name s, (name, .string s) ∈ call.keys → Plain s
  noOverlap : NoOverlap none ((call.fields table).map ListField.changed)
  inStep : ∀ fields₁ front s fields₂, call.fields table = fields₁ ++ .string front s :: fields₂ →
    InStep 0 (fields₂.map ListField.changed)

theorem intercalate_append {sep : List Byte} (texts₁ : List (List Byte)) (text : List Byte)
    (texts₂ : List (List Byte)) : sep.intercalate (texts₁ ++ text :: texts₂) =
      (texts₁.flatMap fun t => t ++ sep) ++ text ++ texts₂.flatMap fun t => sep ++ t := by
  have htail : ∀ text, sep.intercalate (text :: texts₂) = text ++ texts₂.flatMap fun t => sep ++ t := by
    induction texts₂ with
    | nil =>
        intro text
        rw [List.intercalate_singleton, List.flatMap_nil, List.append_nil]
    | cons text' texts₂ ih =>
        intro text
        rw [List.intercalate_cons_cons, ih, List.flatMap_cons, List.append_assoc, List.append_assoc]
  induction texts₁ with
  | nil => exact htail text
  | cons text' texts₁ ih =>
      rw [List.cons_append, List.intercalate_cons_of_ne_nil (by simp), ih, List.flatMap_cons]
      simp only [List.append_assoc]

theorem SqlCall.ends_relation (call : SqlCall φ) (text : List Byte) : Ends (call.relation ++ text) := by
  cases call with
  | select2 relation key key2 =>
      cases relation with
      | false => exact ends_cons (by unfold Special; decide)
      | true => exact ends_cons (by unfold Special; decide)
  | insert args => exact ends_cons (by unfold Special; decide)
  | update key keys args => exact ends_cons (by unfold Special; decide)
  | delete key => exact ends_cons (by unfold Special; decide)
  | select fields key => exact ends_cons (by unfold Special; decide)

/-- The database reads a key that fits exactly when its bytes stand for themselves and it ends before the statement is
cut. -/
theorem reads_keyPlace_iff (hescape : Escapes escape) {call : SqlCall φ} {keys₁ keys₂ : List (FieldArg φ)}
    {name s : List Byte} {st : ListState} (hkeys : call.keys = keys₁ ++ (name, .string s) :: keys₂)
    (hfits : (keyPlace table call (call.keyLead table st) keys₁ name s).fits) (n : ℕ) :
    (keyPlace table call (call.keyLead table st) keys₁ name s).Reads ((call.statement table st).take n) ↔
      Plain s ∧ ((keyPlace table call (call.keyLead table st) keys₁ name s).before ++
        (keyPlace table call (call.keyLead table st) keys₁ name s).text escape).length ≤ n := by
  have htext : keyText table call.keySize (name, .string s) = name ++ [61] ++ quote s :=
    congrArg (fun text => name ++ [61] ++ text) (snprintf_of_length hfits.1)
  obtain ⟨post, hpost, hpre⟩ := snprintf_append hfits.2
    ((keys₂.map (keyText table call.keySize)).flatMap fun t => call.relation ++ t)
  have hends : Ends ((keys₂.map (keyText table call.keySize)).flatMap fun t => call.relation ++ t) := by
    cases keys₂ with
    | nil => exact ends_nil
    | cons key keys₂ =>
        rw [List.map_cons, List.flatMap_cons, List.append_assoc]
        exact call.ends_relation _
  refine (reads_take_iff hescape ?_ (Ends.of_isPrefix hends hpre) n).trans
    ⟨fun h => ⟨h.1 rfl, h.2⟩, fun h => ⟨fun _ => h.1, h.2⟩⟩
  rw [SqlCall.statement, hkeys, List.map_append, List.map_cons, intercalate_append, htext, List.flatMap_map]
  refine Eq.trans (congrArg _ ?_) hpost
  simp only [List.append_assoc]

/-- The fields that an insert sets are all changed. -/
theorem inStep_zero {changed : List Bool} (h : ∀ c ∈ changed, c = true) : InStep 0 changed := by
  induction changed with
  | nil => trivial
  | cons c changed ih =>
      obtain rfl := h c List.mem_cons_self
      exact ⟨rfl, ih fun c hc => h c (List.mem_cons_of_mem true hc)⟩

/-- A call with a value is an insert or an update. -/
theorem SqlCall.ends_middle {call : SqlCall φ} (hfields : call.fields table ≠ []) (text : List Byte) :
    Ends (call.middle table ++ text) := by
  cases call with
  | insert args => exact ends_cons (by unfold Special; decide)
  | update key keys args => exact ends_cons (by unfold Special; decide)
  | delete key => exact absurd rfl hfields
  | select fields key => exact absurd rfl hfields
  | select2 relation key key2 => exact absurd rfl hfields

/-- What a call with a list prints before its keys. -/
theorem keyLead_append (call : SqlCall φ) (p : List Byte × ℕ) (tail : List Byte) :
    call.keyLead table (some p) ++ tail = call.front table ++ p.1 ++ (call.middle table ++ tail) := by
  rw [SqlCall.keyLead, List.append_assoc]
  rfl

/-- The fronts of the fields of an update are its names. -/
theorem fronts_update (args : List (UpdateArg φ)) : fronts (args.map (updateField table)) =
    (args.filterMap Prod.fst).map fun name => name ++ [61] := by
  rw [fronts, List.filterMap_map, List.map_filterMap]
  refine congrArg (fun f => List.filterMap f args) (funext fun arg => ?_)
  obtain ⟨name, value⟩ := arg
  cases name with
  | none => rfl
  | some name =>
      cases value with
      | string s => rfl
      | other print => rfl

/-- What the fields of an update print before their values are names with an equals sign. -/
theorem isFront_update {args : List (UpdateArg φ)} (htakes : ∀ arg ∈ args, ∀ name ∈ arg.1, table.Takes name arg.2) :
    ∀ f ∈ fronts (args.map (updateField table)), IsFront f := by
  intro f hf
  rw [fronts_update] at hf
  obtain ⟨name, hname, rfl⟩ := List.mem_map.1 hf
  obtain ⟨arg, harg, hname'⟩ := List.mem_filterMap.1 hname
  obtain ⟨ft, hft, -⟩ := htakes arg harg name hname'
  exact ⟨name, rfl, table.names name ft hft⟩

theorem nodup_fronts_update {args : List (UpdateArg φ)} (hnames : (args.filterMap Prod.fst).Nodup) :
    (fronts (args.map (updateField table))).Nodup := by
  rw [fronts_update]
  exact List.Nodup.map (fun name name' h => List.append_cancel_right h) hnames

/-- A string that falls out of step is not read. -/
theorem SqlCall.inStep_of_reads {call : SqlCall φ} (hformats : call.Formats table) (hnames : call.names.Nodup)
    {fields₁ fields₂ : List ListField} {front s sql : List Byte} {st st' : ListState}
    (hfields : call.fields table = fields₁ ++ .string front s :: fields₂) (hst : setList escape none fields₁ = some st)
    (hlist : setList escape none (call.fields table) = some st')
    (hsql : sql <+: call.statement table st')
    (hreads : (valuePlace escape (call.front table) st front s).Reads sql) :
    InStep 0 (fields₂.map ListField.changed) := by
  by_contra hstep
  cases call with
  | insert args =>
      refine hstep (inStep_zero ?_)
      intro c hc
      obtain ⟨field, hfield, rfl⟩ := List.mem_map.1 hc
      have hmem : field ∈ fields table (insert args) := by
        rw [hfields]
        exact List.mem_append_right _ (List.mem_cons_of_mem _ hfield)
      obtain ⟨arg, -, rfl⟩ := List.mem_map.1 hmem
      exact SqlValue.changed_field arg.1 [] arg.2
  | update key keys args =>
      have hargs : args.map (updateField table) = fields₁ ++ .string front s :: fields₂ := hfields
      rw [hfields, setList_append, hst, Option.bind_some] at hlist
      obtain ⟨text, -, -, hrest⟩ := setList_changed rfl hlist
      obtain ⟨p, rfl⟩ := setList_some hrest
      have hwhole := hsql.trans (List.take_prefix _ _)
      rw [keyLead_append] at hwhole
      refine not_reads_valuePlace ?_ ?_ hst hlist hstep hwhole hreads
      · rw [← hargs]
        exact isFront_update hformats.values
      · rw [← hargs]
        exact nodup_fronts_update hnames
  | delete key => cases List.append_ne_nil_of_right_ne_nil _ (List.cons_ne_nil _ _) hfields.symm
  | select fields key => cases List.append_ne_nil_of_right_ne_nil _ (List.cons_ne_nil _ _) hfields.symm
  | select2 relation key key2 => cases List.append_ne_nil_of_right_ne_nil _ (List.cons_ne_nil _ _) hfields.symm

/-- The database reads a value exactly when it ends before the statement is cut. -/
theorem reads_value_iff (hescape : Escapes escape) {call : SqlCall φ} {fields₁ fields₂ : List ListField}
    {front s : List Byte} {st st' : ListState} (hfields : call.fields table = fields₁ ++ .string front s :: fields₂)
    (hst : setList escape none fields₁ = some st) (hlist : setList escape none (call.fields table) = some st')
    (hfits : (valuePlace escape (call.front table) st front s).fits)
    (hstep : InStep 0 (fields₂.map ListField.changed)) (n : ℕ) :
    (valuePlace escape (call.front table) st front s).Reads ((call.statement table st').take n) ↔
      ((valuePlace escape (call.front table) st front s).before ++
        (valuePlace escape (call.front table) st front s).text escape).length ≤ n := by
  have hsplit := hlist
  rw [hfields, setList_append, hst, Option.bind_some] at hsplit
  obtain ⟨text, -, -, hrest⟩ := setList_changed rfl hsplit
  obtain ⟨p, rfl⟩ := setList_some hrest
  refine reads_valuePlace_iff hescape hfits hstep hsplit (SqlCall.ends_middle ?_ _)
    (congrArg (snprintf bigBufSize) (keyLead_append call p _)) n
  rw [hfields]
  exact List.append_ne_nil_of_right_ne_nil _ (List.cons_ne_nil _ _)

/-- A call is safe if its strings fit and are not cut, its keys need no escaping and the ring is kept in step; and only
if, where no field is named twice. -/
theorem SqlCall.safe_iff (hescape : Escapes escape) {call : SqlCall φ} (hformats : call.Formats table)
    (hnul : ∀ name s, (name, .string s) ∈ call.keys → (0 : Byte) ∉ s) (b : RingBufs) :
    (call.Fit escape table → call.Safe escape table b) ∧
      (call.names.Nodup → call.Safe escape table b → call.Fit escape table) := by
  have houtcome := outcome_eq hescape hformats hnul b
  constructor
  · rintro ⟨hfits, huncut, hplain, hover, hstep⟩
    have hstrings : ∀ fields₁ front s fields₂ st₁, call.fields table = fields₁ ++ .string front s :: fields₂ →
        setList escape none fields₁ = some st₁ → (escape s).length < bufSize := by
      intro fields₁ front s fields₂ st₁ hfields hst₁
      have hlen := (hfits _ (.value hfields hst₁)).1
      rw [List.length_append, length_quote] at hlen
      omega
    obtain ⟨st', hlist⟩ : ∃ st', setList escape none (call.fields table) = some st' := exists_setList hover hstrings
    rw [hlist] at houtcome
    refine ⟨by rw [houtcome]; exact nofun, ?_⟩
    intro place hplace
    refine ⟨fun hnot => absurd (hfits place hplace) hnot, ?_⟩
    intro sql hsql
    rw [houtcome] at hsql
    obtain rfl := SqlOutcome.pushed.inj hsql
    rw [cmdText_eq]
    have hplace' := hplace
    cases hplace with
    | value hfields hst =>
        exact (reads_value_iff hescape hfields hst hlist (hfits _ hplace') (hstep _ _ _ _ hfields) _).2
          (huncut _ _ hplace' hlist)
    | @key keys₁ keys₂ name s st hkeys hst =>
        obtain rfl := Option.some.inj (hlist.symm.trans hst)
        have hmem : (name, .string s) ∈ call.keys := by
          rw [hkeys]
          exact List.mem_append_cons_self
        exact (reads_keyPlace_iff hescape hkeys (hfits _ hplace') _).2 ⟨hplain name s hmem, huncut _ _ hplace' hlist⟩
  · rintro hnames ⟨hdefined, hplaces⟩
    cases hlist : setList escape none (call.fields table) with
    | none =>
        rw [hlist] at houtcome
        exact absurd houtcome hdefined
    | some st' =>
        rw [hlist] at houtcome
        have hfits : ∀ place, call.IsPlace escape table place → place.fits := by
          intro place hplace
          by_contra hfits
          have hrefused := (hplaces place hplace).1 hfits
          rw [houtcome] at hrefused
          cases hrefused
        have hreads : ∀ place, call.IsPlace escape table place →
            place.Reads ((call.statement table st').take ((call.statement table st').length % 2 ^ 16)) := by
          intro place hplace
          rw [← cmdText_eq]
          exact (hplaces place hplace).2 _ houtcome
        have hstep : ∀ fields₁ front s fields₂, call.fields table = fields₁ ++ .string front s :: fields₂ →
            InStep 0 (fields₂.map ListField.changed) := by
          intro fields₁ front s fields₂ hfields
          have hsplit := hlist
          rw [hfields, setList_append] at hsplit
          obtain ⟨st, hst, -⟩ := Option.bind_eq_some_iff.1 hsplit
          exact inStep_of_reads hformats hnames hfields hst hlist (List.take_prefix _ _) (hreads _ (.value hfields hst))
        refine ⟨hfits, ?_, ?_, noOverlap_of_setList hlist, hstep⟩
        · intro place st hplace hst
          obtain rfl := Option.some.inj (hlist.symm.trans hst)
          have hread := hreads place hplace
          have hfit := hfits place hplace
          cases hplace with
          | value hfields hst =>
              exact (reads_value_iff hescape hfields hst hlist hfit (hstep _ _ _ _ hfields) _).1 hread
          | @key keys₁ keys₂ name s st hkeys hst =>
              obtain rfl := Option.some.inj (hlist.symm.trans hst)
              exact ((reads_keyPlace_iff hescape hkeys hfit _).1 hread).2
        · intro name s hmem
          obtain ⟨keys₁, keys₂, hkeys⟩ := List.mem_iff_append.1 hmem
          have hplace : call.IsPlace escape table (keyPlace table call (call.keyLead table st') keys₁ name s) :=
            .key hkeys hlist
          exact ((reads_keyPlace_iff hescape hkeys (hfits _ hplace) _).1 (hreads _ hplace)).1

end calls

/-- The text that `mysql_real_escape_string` has for a byte. -/
def escapeByte (c : Byte) : List Byte :=
  if c = 0 then [92, 48] else if c = 10 then [92, 110] else if c = 13 then [92, 114] else if c = 26 then [92, 90]
  else if c = 34 ∨ c = 39 ∨ c = 92 then [92, c] else [c]

/-- `mysql_real_escape_string`. -/
def realEscapeString (s : List Byte) : List Byte := s.flatMap escapeByte

theorem readBody_escapeByte (c : Byte) (bs : List Byte) :
    readBody (escapeByte c ++ bs) = (readBody bs).map fun r => (c :: r.1, r.2) := by
  unfold escapeByte
  split_ifs with h0 h10 h13 h26 hspecial
  · rw [h0]; rfl
  · rw [h10]; rfl
  · rw [h13]; rfl
  · rw [h26]; rfl
  · rcases hspecial with rfl | rfl | rfl <;> rfl
  · exact readBody_cons (fun h => hspecial (h.elim (fun h => Or.inr (Or.inl h)) fun h => Or.inr (Or.inr h))) bs

theorem escapes_realEscapeString : Escapes realEscapeString where
  noNul s := by
    intro h
    obtain ⟨c, -, hc⟩ := List.mem_flatMap.1 h
    unfold escapeByte at hc
    split_ifs at hc with h0 h10 h13 h26 hspecial
    · simp at hc
    · simp at hc
    · simp at hc
    · simp at hc
    · rcases hspecial with rfl | rfl | rfl <;> simp at hc
    · exact h0 (List.mem_singleton.1 hc).symm
  reads s post hpost := by
    induction s with
    | nil => exact readBody_quote hpost
    | cons c s ih =>
        rw [realEscapeString, List.flatMap_cons, List.append_assoc, readBody_escapeByte, ← realEscapeString, ih]
        rfl

namespace TwoTexts

/-- A table `t` with the text fields `k` and `v`. -/
def table : MysqlTable Unit where
  name := [116]
  fieldInfo field := if field = [107] ∨ field = [118] then some () else none
  isText _ := true
  names := by
    intro field ft h
    obtain ⟨hfield, -⟩ := Option.ite_none_right_eq_some.1 h
    rcases hfield with rfl | rfl <;> decide

def bufs : RingBufs where
  buf _ := []
  index := 0

/-- An update of `v` to a quote where `k` is `a`. -/
def quoteUpdate : SqlCall Unit := .update ([107], .string [97]) [] [(some [118], .string [39])]

theorem quoteUpdate_fit : quoteUpdate.Fit realEscapeString table where
  fits := by
    intro place hplace
    cases hplace with
    | @value fields₁ fields₂ front s st hfields hst =>
        cases fields₁ with
        | nil =>
            cases hfields
            cases hst
            exact ⟨by decide, by decide⟩
        | cons field fields₁ =>
            obtain ⟨-, hnil⟩ := List.cons.inj hfields
            exact absurd hnil.symm (List.append_ne_nil_of_right_ne_nil _ (List.cons_ne_nil _ _))
    | @key keys₁ keys₂ name s st hkeys hst =>
        cases keys₁ with
        | nil =>
            cases hkeys
            cases hst
            exact ⟨by decide, by decide⟩
        | cons key keys₁ =>
            obtain ⟨-, hnil⟩ := List.cons.inj hkeys
            exact absurd hnil.symm (List.append_ne_nil_of_right_ne_nil _ (List.cons_ne_nil _ _))
  uncut := by
    intro place st hplace hst
    cases hst
    cases hplace with
    | @value fields₁ fields₂ front s st hfields hst =>
        cases fields₁ with
        | nil =>
            cases hfields
            cases hst
            decide
        | cons field fields₁ =>
            obtain ⟨-, hnil⟩ := List.cons.inj hfields
            exact absurd hnil.symm (List.append_ne_nil_of_right_ne_nil _ (List.cons_ne_nil _ _))
    | @key keys₁ keys₂ name s st hkeys hst =>
        cases keys₁ with
        | nil =>
            cases hkeys
            cases hst
            decide
        | cons key keys₁ =>
            obtain ⟨-, hnil⟩ := List.cons.inj hkeys
            exact absurd hnil.symm (List.append_ne_nil_of_right_ne_nil _ (List.cons_ne_nil _ _))
  plain := by
    intro name s hmem
    obtain heq := List.mem_singleton.1 hmem
    cases heq
    exact ⟨by decide, by decide⟩
  noOverlap := ⟨nofun, trivial⟩
  inStep := by
    intro fields₁ front s fields₂ hfields
    cases fields₁ with
    | nil =>
        cases hfields
        trivial
    | cons field fields₁ =>
        obtain ⟨-, hnil⟩ := List.cons.inj hfields
        exact absurd hnil.symm (List.append_ne_nil_of_right_ne_nil _ (List.cons_ne_nil _ _))

/-- The update is safe. -/
theorem quoteUpdate_safe : quoteUpdate.Fit realEscapeString table ∧ quoteUpdate.Safe realEscapeString table bufs := by
  refine ⟨quoteUpdate_fit, (SqlCall.safe_iff escapes_realEscapeString ?_ ?_ bufs).1 quoteUpdate_fit⟩
  · refine ⟨?_, ?_, ?_⟩
    · intro arg harg name hname
      cases List.mem_singleton.1 harg
      cases hname
      exact ⟨(), rfl, rfl⟩
    · intro key hkey
      cases List.mem_singleton.1 hkey
      exact ⟨(), rfl, rfl⟩
    · exact fun _ => List.cons_ne_nil _ _
  · intro name s hmem
    cases List.mem_singleton.1 hmem
    decide

/-- The key `a' OR '1'='1`. -/
def injection : List Byte := [97, 39, 32, 79, 82, 32, 39, 49, 39, 61, 39, 49]

/-- A delete with this key deletes every row. -/
theorem delete_injected : (SqlCall.delete ([107], .string injection)).outcome realEscapeString table bufs =
      .pushed ([68, 69, 76, 69, 84, 69, 32, 70, 82, 79, 77, 32, 116, 32, 87, 72, 69, 82, 69, 32, 107, 61] ++
        quote injection) ∧
    ¬(SqlCall.delete ([107], .string injection)).Safe realEscapeString table bufs := by
  have hpushed : (SqlCall.delete ([107], .string injection)).outcome realEscapeString table bufs =
      .pushed ([68, 69, 76, 69, 84, 69, 32, 70, 82, 79, 77, 32, 116, 32, 87, 72, 69, 82, 69, 32, 107, 61] ++
        quote injection) := by decide
  refine ⟨hpushed, ?_⟩
  rintro ⟨-, hplaces⟩
  have hplace : (SqlCall.delete ([107], .string injection)).IsPlace realEscapeString table
      (keyPlace table (.delete ([107], .string injection)) (SqlCall.fromTable table [68, 69, 76, 69, 84, 69]) [] [107]
        injection) := @SqlCall.IsPlace.key _ _ _ _ [] [] _ _ none rfl rfl
  obtain ⟨rest, tail, heq, hread⟩ := (hplaces _ hplace).2 _ hpushed
  obtain rfl : quote injection = rest := List.append_cancel_left heq
  -- the literal ends behind its first byte
  have hvalue : (readLiteral (quote injection)).map Prod.fst = some [97] := by decide
  rw [hread] at hvalue
  exact absurd (Option.some.inj hvalue) (show injection ≠ [97] by decide)

end TwoTexts

end JmyGame
