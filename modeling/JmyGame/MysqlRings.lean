import JmyGame.MysqlCalls

/-! The rings of three buffers in which the lists of a statement are printed. An insert prints its names into one
ring and its values into another, two buffers for each value behind the first one, and never prints over a buffer
that it still has to read. An update passes a buffer for each field that is not changed, too, and keeps its list
only where the fields between two changed ones are a multiple of three. -/

namespace JmyGame

open CArith Sql

/-- Texts behind a list. -/
def joined (list : List Byte) (texts : List (List Byte)) : List Byte :=
  texts.foldl (fun list text => listed (some list) text) list

theorem joined_cons (list text : List Byte) (texts : List (List Byte)) :
    joined list (text :: texts) = joined (listed (some list) text) texts := rfl

theorem joined_append (front list : List Byte) (texts : List (List Byte)) :
    joined (front ++ list) texts = front ++ joined list texts := by
  induction texts generalizing list with
  | nil => rfl
  | cons text texts ih =>
      have hlisted : listed (some (front ++ list)) text = front ++ listed (some list) text := by
        simp only [listed, List.append_assoc]
      rw [joined_cons, joined_cons, hlisted, ih]

theorem joined_eq_intercalate (text : List Byte) (texts : List (List Byte)) :
    joined text texts = List.intercalate [44, 32] (text :: texts) := by
  induction texts generalizing text with
  | nil => exact List.intercalate_singleton.symm
  | cons text' texts ih =>
      rw [joined_cons, listed, joined_append, ih, List.intercalate_cons_cons]

theorem length_le_joined (list : List Byte) (texts : List (List Byte)) : list.length ≤ (joined list texts).length := by
  induction texts generalizing list with
  | nil => exact le_refl list.length
  | cons text texts ih =>
      refine le_trans ?_ (ih (listed (some list) text))
      rw [listed, List.append_assoc, List.length_append]
      omega

section rings

variable {φ : Type} (escape : List Byte → List Byte) (table : MysqlTable φ)

namespace RingBufs

/-- `format_insert_field_name_str` for one field. What is printed over its own head is not defined. -/
def formatInsertFieldName (b : RingBufs) (head : Option (Fin 3)) (arg : FieldArg φ) :
    Option (Option (Fin 3) × RingBufs) :=
  match head with
  | none => some (some b.index, b.write (snprintf bufSize arg.1))
  | some h =>
    if b.index = h then none
    else some (some b.index, b.write (snprintf bufSize (listed (some (b.buf h)) arg.1)))

/-- `format_insert_field_name_str`. -/
def formatInsertFieldNames : RingBufs → Option (Fin 3) → List (FieldArg φ) → Option (Option (Fin 3) × RingBufs)
  | b, head, [] => some (head, b)
  | b, head, [arg] => b.formatInsertFieldName head arg
  | b, head, arg :: args => (b.formatInsertFieldName head arg).bind fun r => formatInsertFieldNames r.2.next r.1 args

/-- `format_insert_field_value_str` for one field. The value is printed into one buffer; behind a head, the list is
printed into the next one from both. -/
def formatInsertFieldValue (b : RingBufs) (head : Option (Fin 3)) (arg : FieldArg φ) :
    Option (Option (Fin 3) × RingBufs) :=
  match table.fieldInfo arg.1 with
  | none => some (none, b)
  | some ft =>
    match valueFormat escape table (some bufSize) bufSize ft arg.2 with
    | none => none
    | some none => some (none, b)
    | some (some text) =>
      let b₁ := b.write text
      match head with
      | none => some (some b₁.index, b₁)
      | some h =>
        let b₂ := b₁.next
        if b₂.index = h ∨ b₂.index = b₁.index then none
        else some (some b₂.index, b₂.write (snprintf bufSize (listed (some (b₁.buf h)) (b₁.buf b₁.index))))

/-- `format_insert_field_value_str`. -/
def formatInsertFieldValues : RingBufs → Option (Fin 3) → List (FieldArg φ) → Option (Option (Fin 3) × RingBufs)
  | b, head, [] => some (head, b)
  | b, head, [arg] => b.formatInsertFieldValue escape table head arg
  | b, head, arg :: args => (b.formatInsertFieldValue escape table head arg).bind fun r =>
    match r.1 with
    | none => some (none, r.2)
    | some h => formatInsertFieldValues r.2.next (some h) args

/-- `insertRecord`, with the names in `buf_` and the values in `buf2_`. -/
def insertRecord (b b' : RingBufs) (args : List (FieldArg φ)) : SqlOutcome :=
  match b.formatInsertFieldNames none args, b'.formatInsertFieldValues escape table none args with
  | some (some h, c), some (some h', c') => .push (snprintf bigBufSize
      ([73, 78, 83, 69, 82, 84, 32, 73, 78, 84, 79, 32] ++ table.name ++ [32, 40] ++ c.buf h ++
        [41, 32, 86, 65, 76, 85, 69, 83, 32, 40] ++ c'.buf h' ++ [41]))
  | _, _ => .undefined

end RingBufs

variable {escape table}

/-- A name is printed behind the list that the ring holds. -/
theorem formatInsertFieldName_holds {b : RingBufs} {head : Option (Fin 3)} {list : Option (List Byte)}
    (hholds : b.Holds head (list.map fun text => (text, 0))) (arg : FieldArg φ) :
    ∃ r, b.formatInsertFieldName head arg = some r ∧
      r.2.next.Holds r.1 (some (snprintf bufSize (listed list arg.1), 0)) := by
  cases list with
  | none =>
      obtain rfl : head = none := hholds
      exact ⟨_, rfl, b.holds_write _⟩
  | some text =>
      obtain ⟨h, rfl, rfl, hindex⟩ := hholds
      have hne : b.index ≠ h := by
        have hval := h.isLt
        rw [Ne, Fin.ext_iff, hindex]
        omega
      exact ⟨_, if_neg hne, b.holds_write _⟩

/-- The list that the ring holds. -/
theorem RingBufs.Holds.buf {b : RingBufs} {head : Option (Fin 3)} {text : List Byte} {gap : ℕ}
    (h : b.next.Holds head (some (text, gap))) : ∃ i, head = some i ∧ b.buf i = text := by
  obtain ⟨i, hi, hbuf, -⟩ := h
  exact ⟨i, hi, hbuf⟩

theorem formatInsertFieldNames_holds {b : RingBufs} {head : Option (Fin 3)} {list : Option (List Byte)}
    (hholds : b.Holds head (list.map fun text => (text, 0))) {args : List (FieldArg φ)} (hargs : args ≠ []) :
    ∃ h c, b.formatInsertFieldNames head args = some (some h, c) ∧ c.buf h = formatInsertFieldNames list args := by
  induction args generalizing b head list with
  | nil => exact absurd rfl hargs
  | cons arg args ih =>
      obtain ⟨⟨head', c⟩, hone, hnext⟩ := formatInsertFieldName_holds hholds arg
      cases args with
      | nil =>
          obtain ⟨i, rfl, hbuf⟩ := hnext.buf
          exact ⟨i, c, hone, hbuf⟩
      | cons arg' args =>
          rw [RingBufs.formatInsertFieldNames, hone, formatInsertFieldNames]
          · exact ih (show c.next.Holds head' ((some _).map fun text => (text, 0)) from hnext)
              (List.cons_ne_nil arg' args)
          · exact List.cons_ne_nil arg' args

variable (escape table) in
/-- A value is printed behind the list that the ring holds: the head, the value and the new list are in three
buffers. -/
theorem formatInsertFieldValue_rel {b : RingBufs} {head : Option (Fin 3)} {list : Option (List Byte)}
    (hholds : b.Holds head (list.map fun text => (text, 0))) (arg : FieldArg φ) :
    Option.Rel (fun r text => r.2.next.Holds r.1 (text.map fun text => (text, 0)))
      (b.formatInsertFieldValue escape table head arg) (formatInsertFieldValue escape table list arg) := by
  unfold RingBufs.formatInsertFieldValue formatInsertFieldValue
  cases table.fieldInfo arg.1 with
  | none => exact .some rfl
  | some ft =>
      dsimp only
      rcases valueFormat escape table (some bufSize) bufSize ft arg.2 with _ | _ | text
      · exact .none
      · exact .some rfl
      · cases list with
        | none =>
            obtain rfl : head = none := hholds
            exact .some (b.holds_write text)
        | some list =>
            obtain ⟨h, rfl, rfl, hindex⟩ := hholds
            have hval := h.isLt
            have hnext : (b.write text).next.index.val = (b.index.val + 1) % 3 := Fin.val_add b.index 1
            have hhead : (b.write text).next.index ≠ h := by
              rw [Ne, Fin.ext_iff, hnext, hindex]
              omega
            have hvalue : (b.write text).next.index ≠ (b.write text).index := by
              have hself : (b.write text).index = b.index := rfl
              rw [Ne, Fin.ext_iff, hself, hnext, hindex]
              omega
            have hbuf : (b.write text).buf h = b.buf h := by
              refine Function.update_of_ne ?_ _ _
              rw [Ne, Fin.ext_iff, hindex]
              omega
            have hself : (b.write text).buf (b.write text).index = text := Function.update_self _ _ _
            dsimp only
            rw [if_neg (not_or.2 ⟨hhead, hvalue⟩), hbuf, hself]
            exact .some (RingBufs.holds_write _ _)

variable (escape table) in
theorem formatInsertFieldValues_rel {b : RingBufs} {head : Option (Fin 3)} {list : Option (List Byte)}
    (hholds : b.Holds head (list.map fun text => (text, 0))) {args : List (FieldArg φ)} (hargs : args ≠ []) :
    Option.Rel (fun r text => r.1.map r.2.buf = text)
      (b.formatInsertFieldValues escape table head args) (formatInsertFieldValues escape table list args) := by
  induction args generalizing b head list with
  | nil => exact absurd rfl hargs
  | cons arg args ih =>
      have hone := formatInsertFieldValue_rel escape table hholds arg
      have hlist : ∀ {r : Option (Fin 3) × RingBufs} {text : Option (List Byte)},
          r.2.next.Holds r.1 (text.map fun text => (text, 0)) → r.1.map r.2.buf = text := by
        intro r text h
        cases text with
        | none =>
            rw [show r.1 = none from h]
            rfl
        | some text =>
            obtain ⟨i, hi, hbuf⟩ := h.buf
            rw [hi, Option.map_some, hbuf]
      cases args with
      | nil =>
          rw [RingBufs.formatInsertFieldValues, formatInsertFieldValues]
          generalize b.formatInsertFieldValue escape table head arg = r at hone ⊢
          generalize formatInsertFieldValue escape table list arg = text at hone ⊢
          cases hone with
          | none => exact .none
          | @some r text h =>
              have hr := hlist h
              cases text with
              | none => exact .some hr
              | some text => exact .some hr
      | cons arg' args =>
          rw [RingBufs.formatInsertFieldValues, formatInsertFieldValues]
          · refine rel_bind hone fun r text h => ?_
            cases text with
            | none =>
                rw [show r.1 = none from h]
                exact .some rfl
            | some text =>
                obtain ⟨i, hi, -⟩ := h.buf
                rw [hi] at h ⊢
                exact ih (show r.2.next.Holds (some i) ((some text).map fun text => (text, 0)) from h)
                  (List.cons_ne_nil arg' args)
          · exact List.cons_ne_nil arg' args

/-- The rings of an insert give what three separate buffers would give. -/
theorem ring_insertRecord_eq (b b' : RingBufs) {args : List (FieldArg φ)} (hargs : args ≠ []) :
    RingBufs.insertRecord escape table b b' args = insertRecord escape table args := by
  obtain ⟨h, c, hnames, hbuf⟩ := formatInsertFieldNames_holds
    (show b.Holds none (none.map fun text => (text, 0)) from rfl) hargs
  have hvalues := formatInsertFieldValues_rel escape table
    (show b'.Holds none (none.map fun text => (text, 0)) from rfl) hargs
  unfold RingBufs.insertRecord insertRecord
  rw [hnames]
  generalize b'.formatInsertFieldValues escape table none args = r at hvalues ⊢
  generalize formatInsertFieldValues escape table none args = text at hvalues ⊢
  cases hvalues with
  | none => rfl
  | @some r text h' =>
      obtain ⟨head, c'⟩ := r
      cases head with
      | none =>
          obtain rfl : none = text := h'
          rfl
      | some i =>
          obtain rfl : some (c'.buf i) = text := h'
          dsimp only
          rw [hbuf]

/-- The text of a value. -/
def SqlValue.full (escape : List Byte → List Byte) (table : MysqlTable φ) (name : List Byte) : SqlValue φ → List Byte
  | .string s => quote (escape s)
  | .other print => table.print name print

/-- A value whose text fits a buffer is formatted to its text. -/
theorem SqlValue.body_of_fits {name : List Byte} {value : SqlValue φ}
    (hlen : (value.full escape table name).length < bufSize) :
    value.body escape table name = some (value.full escape table name) := by
  cases value with
  | string s =>
      have hquote := hlen
      rw [full, length_quote] at hquote
      rw [body, if_pos (by omega), snprintf_of_length (by rw [length_quote]; omega)]
      rfl
  | other print => exact congrArg some (snprintf_of_length hlen)

theorem formatInsertFieldNames_joined {list : List Byte} {args : List (FieldArg φ)}
    (hlen : (joined list (args.map Prod.fst)).length < bufSize) :
    formatInsertFieldNames (some list) args = joined list (args.map Prod.fst) := by
  induction args generalizing list with
  | nil => rfl
  | cons arg args ih =>
      rw [List.map_cons, joined_cons] at hlen ⊢
      have hlisted := (length_le_joined _ _).trans_lt hlen
      rw [formatInsertFieldNames, snprintf_of_length hlisted, ih hlen]

/-- The texts of the values of an insert. -/
def insertTexts (escape : List Byte → List Byte) (table : MysqlTable φ) (args : List (FieldArg φ)) :
    List (List Byte) :=
  args.map fun arg => arg.2.full escape table arg.1

/-- A value that fits is printed behind its head. -/
theorem formatInsertFieldValue_fits (hescape : Escapes escape) {arg : FieldArg φ} (htakes : table.Takes arg.1 arg.2)
    {head : Option (List Byte)} (hlen : (listed head (arg.2.full escape table arg.1)).length < bufSize) :
    formatInsertFieldValue escape table head arg = some (some (listed head (arg.2.full escape table arg.1))) := by
  obtain ⟨ft, hft, hformat⟩ := valueFormat_eq hescape htakes
  rw [formatInsertFieldValue, hft]
  dsimp only
  rw [hformat, SqlValue.body_of_fits ((length_le_listed head _).trans_lt hlen)]
  cases head with
  | none => rfl
  | some head => exact congrArg (fun text => some (some text)) (snprintf_of_length hlen)

theorem formatInsertFieldValues_joined (hescape : Escapes escape) {list : List Byte} {args : List (FieldArg φ)}
    (htakes : ∀ arg ∈ args, table.Takes arg.1 arg.2)
    (hlen : (joined list (insertTexts escape table args)).length < bufSize) :
    formatInsertFieldValues escape table (some list) args =
      some (some (joined list (insertTexts escape table args))) := by
  induction args generalizing list with
  | nil => rfl
  | cons arg args ih =>
      rw [insertTexts, List.map_cons, joined_cons] at hlen ⊢
      have hlisted := (length_le_joined _ _).trans_lt hlen
      rw [formatInsertFieldValues, formatInsertFieldValue_fits hescape (htakes arg List.mem_cons_self) hlisted]
      exact ih (fun a ha => htakes a (List.mem_cons_of_mem arg ha)) hlen

/-- `INSERT INTO t (f1, ..., fn) VALUES (v1, ..., vn)`. -/
def insertStatement (escape : List Byte → List Byte) (table : MysqlTable φ) (args : List (FieldArg φ)) : List Byte :=
  [73, 78, 83, 69, 82, 84, 32, 73, 78, 84, 79, 32] ++ table.name ++ [32, 40] ++
    List.intercalate [44, 32] (args.map Prod.fst) ++ [41, 32, 86, 65, 76, 85, 69, 83, 32, 40] ++
    List.intercalate [44, 32] (insertTexts escape table args) ++ [41]

/-- The lists of an insert and its statement fit their buffers. -/
structure InsertFits (escape : List Byte → List Byte) (table : MysqlTable φ) (args : List (FieldArg φ)) : Prop where
  names : (List.intercalate [44, 32] (args.map Prod.fst)).length < bufSize
  values : (List.intercalate [44, 32] (insertTexts escape table args)).length < bufSize
  statement : (insertStatement escape table args).length < bigBufSize

/-- An insert of known fields whose texts fit makes the statement with all names and values in order, wherever the
rings stand. -/
theorem insertRecord_push (hescape : Escapes escape) (b b' : RingBufs) {args : List (FieldArg φ)}
    (hargs : args ≠ []) (htakes : ∀ arg ∈ args, table.Takes arg.1 arg.2) (hfits : InsertFits escape table args) :
    RingBufs.insertRecord escape table b b' args = .push (insertStatement escape table args) := by
  rw [ring_insertRecord_eq b b' hargs]
  obtain ⟨arg, args, rfl⟩ := List.exists_cons_of_ne_nil hargs
  have hnames := hfits.names
  have hvalues := hfits.values
  rw [List.map_cons, ← joined_eq_intercalate] at hnames
  rw [insertTexts, List.map_cons, ← joined_eq_intercalate] at hvalues
  have hname := (length_le_joined _ _).trans_lt hnames
  have hvalue := (length_le_joined _ _).trans_lt hvalues
  have hall : formatInsertFieldNames none (arg :: args) = List.intercalate [44, 32] ((arg :: args).map Prod.fst) := by
    rw [formatInsertFieldNames, listed, snprintf_of_length hname, formatInsertFieldNames_joined hnames,
      joined_eq_intercalate, List.map_cons]
  have hallValues : formatInsertFieldValues escape table none (arg :: args) =
      some (some (List.intercalate [44, 32] (insertTexts escape table (arg :: args)))) := by
    have hone := formatInsertFieldValue_fits hescape (htakes arg List.mem_cons_self)
      (show (listed none _).length < bufSize from hvalue)
    have hrest := formatInsertFieldValues_joined hescape
      (fun a ha => htakes a (List.mem_cons_of_mem arg ha)) hvalues
    rw [formatInsertFieldValues, hone, Option.bind_some]
    refine hrest.trans ?_
    rw [joined_eq_intercalate]
    rfl
  rw [insertRecord, hall, hallValues]
  exact congrArg SqlOutcome.push (snprintf_of_length hfits.statement)

/-- The statement is pushed as it is exactly when its length has at most sixteen bits. -/
theorem insertRecord_pushes_iff (hescape : Escapes escape) (b b' : RingBufs) {args : List (FieldArg φ)}
    (hargs : args ≠ []) (htakes : ∀ arg ∈ args, table.Takes arg.1 arg.2) (hfits : InsertFits escape table args) :
    RingBufs.insertRecord escape table b b' args = .pushed (insertStatement escape table args) ↔
      (insertStatement escape table args).length < 2 ^ 16 := by
  rw [insertRecord_push hescape b b' hargs htakes hfits]
  exact push_eq_iff

/-- The text of a field with what is printed before it. -/
def ListField.full (escape : List Byte → List Byte) : ListField → Option (List Byte)
  | unchanged => none
  | string front s => some (front ++ quote (escape s))
  | other front text => some (front ++ text)

theorem ListField.full_eq_none {field : ListField} (h : field.full escape = none) : field = .unchanged := by
  cases field with
  | unchanged => rfl
  | string front s => cases h
  | other front text => cases h

theorem ListField.changed_of_full {field : ListField} {text : List Byte} (h : field.full escape = some text) :
    field.changed = true := by
  cases field with
  | unchanged => cases h
  | string front s => rfl
  | other front text => rfl

/-- A field that fits has its text. -/
theorem ListField.text_of_full {field : ListField} {text : List Byte} (h : field.full escape = some text)
    (hlen : text.length < bufSize) : field.text escape = some (some text) := by
  cases field with
  | unchanged => cases h
  | string front s =>
      obtain rfl := Option.some.inj h
      exact text_of_fits hlen
  | other front text' =>
      obtain rfl := Option.some.inj h
      have hlen' := hlen
      rw [List.length_append] at hlen'
      rw [ListField.text, snprintf_of_length (show text'.length < bufSize by omega), snprintf_of_length hlen]

/-- The text of a field starts with its front. -/
theorem ListField.front_of_full {field : ListField} {text : List Byte} (h : field.full escape = some text) :
    ∃ front, field.front = some front ∧ front <+: text := by
  cases field with
  | unchanged => cases h
  | string front s =>
      obtain rfl := Option.some.inj h
      exact ⟨front, rfl, List.prefix_append front _⟩
  | other front text' =>
      obtain rfl := Option.some.inj h
      exact ⟨front, rfl, List.prefix_append front _⟩

/-- A list that is kept in step and fits is joined in full. -/
theorem setList_joined_full {list : List Byte} {gap : ℕ} {fields : List ListField}
    (hstep : InStep gap (fields.map ListField.changed))
    (hlen : (joined list (fields.filterMap (ListField.full escape))).length < bufSize) :
    ∃ gap', setList escape (some (list, gap)) fields =
      some (some (joined list (fields.filterMap (ListField.full escape)), gap')) := by
  induction fields generalizing list gap with
  | nil => exact ⟨gap, rfl⟩
  | cons field fields ih =>
      cases hfull : field.full escape with
      | none =>
          obtain rfl := ListField.full_eq_none hfull
          exact ih hstep hlen
      | some text =>
          rw [List.filterMap_cons, hfull] at hlen ⊢
          dsimp only at hlen ⊢
          rw [joined_cons] at hlen ⊢
          rw [List.map_cons, ListField.changed_of_full hfull] at hstep
          obtain ⟨hgap, hstep⟩ := hstep
          have hlisted := (length_le_joined _ _).trans_lt hlen
          have htext := ListField.text_of_full hfull ((length_le_listed _ _).trans_lt hlisted)
          have hfree : ¬Overlaps (some (list, gap)) := fun h => absurd (show gap % 3 = 1 from h) (by omega)
          rw [setList_joined htext, if_neg hfree, joinHead, if_pos hgap, snprintf_of_length hlisted]
          exact ih hstep hlen

/-- Between two changed fields the unchanged ones are a multiple of three. -/
def Spaced : List Bool → Prop
  | [] => True
  | false :: changed => Spaced changed
  | true :: changed => InStep 0 changed

/-- The fields up to the first one that is changed. -/
theorem exists_first_changed {fields : List ListField} (h : ∃ field ∈ fields, field.changed = true) :
    ∃ fields₁ field fields₂ text, fields = fields₁ ++ field :: fields₂ ∧ (∀ f ∈ fields₁, f = .unchanged) ∧
      field.full escape = some text := by
  induction fields with
  | nil =>
      obtain ⟨field, hmem, -⟩ := h
      cases hmem
  | cons field fields ih =>
      cases hfull : field.full escape with
      | some text => exact ⟨[], field, fields, text, rfl, nofun, hfull⟩
      | none =>
          obtain rfl := ListField.full_eq_none hfull
          obtain ⟨field', hmem, hchanged⟩ := h
          have hrest : field' ∈ fields := by
            refine (List.mem_cons.1 hmem).resolve_left fun heq => ?_
            rw [heq] at hchanged
            cases hchanged
          obtain ⟨fields₁, first, fields₂, text, rfl, hunchanged, htext⟩ := ih ⟨field', hrest, hchanged⟩
          exact ⟨.unchanged :: fields₁, first, fields₂, text, rfl, List.forall_mem_cons.2 ⟨rfl, hunchanged⟩, htext⟩

section first

variable {fields₁ fields₂ : List ListField} {field : ListField} {text : List Byte}

/-- Unchanged fields leave no list. -/
theorem setList_of_unchanged (hunchanged : ∀ f ∈ fields₁, f = .unchanged) :
    setList escape none fields₁ = some none := by
  induction fields₁ with
  | nil => rfl
  | cons f fields ih =>
      obtain ⟨rfl, hrest⟩ := List.forall_mem_cons.1 hunchanged
      exact ih hrest

theorem spaced_iff (hunchanged : ∀ f ∈ fields₁, f = .unchanged) (hchanged : field.changed = true) :
    Spaced ((fields₁ ++ field :: fields₂).map ListField.changed) ↔ InStep 0 (fields₂.map ListField.changed) := by
  induction fields₁ with
  | nil =>
      rw [List.nil_append, List.map_cons, hchanged]
      rfl
  | cons f fields ih =>
      obtain ⟨rfl, hrest⟩ := List.forall_mem_cons.1 hunchanged
      exact ih hrest

theorem filterMap_full (hunchanged : ∀ f ∈ fields₁, f = .unchanged) (hfull : field.full escape = some text) :
    (fields₁ ++ field :: fields₂).filterMap (ListField.full escape) =
      text :: fields₂.filterMap (ListField.full escape) := by
  induction fields₁ with
  | nil => rw [List.nil_append, List.filterMap_cons, hfull]
  | cons f fields ih =>
      obtain ⟨rfl, hrest⟩ := List.forall_mem_cons.1 hunchanged
      exact ih hrest

/-- The first field that is changed starts the list. -/
theorem setList_first (hunchanged : ∀ f ∈ fields₁, f = .unchanged) (hfull : field.full escape = some text)
    (hlen : text.length < bufSize) :
    setList escape none (fields₁ ++ field :: fields₂) = setList escape (some (text, 0)) fields₂ := by
  rw [setList_append, setList_of_unchanged hunchanged, Option.bind_some,
    setList_joined (ListField.text_of_full hfull hlen), if_neg (show ¬Overlaps none from id), joinHead, listed,
    snprintf_of_length hlen]

end first

/-- The texts of the changed fields, joined. -/
def fullList (escape : List Byte → List Byte) (fields : List ListField) : List Byte :=
  List.intercalate [44, 32] (fields.filterMap (ListField.full escape))

/-- A list that is kept in step is the texts of the changed fields. -/
theorem setList_of_spaced {fields : List ListField} (hchanged : ∃ field ∈ fields, field.changed = true)
    (hlen : (fullList escape fields).length < bufSize) (hspaced : Spaced (fields.map ListField.changed)) :
    ∃ gap, setList escape none fields = some (some (fullList escape fields, gap)) := by
  obtain ⟨fields₁, field, fields₂, text, rfl, hunchanged, hfull⟩ := exists_first_changed hchanged
  rw [fullList, filterMap_full hunchanged hfull, ← joined_eq_intercalate] at hlen ⊢
  rw [setList_first hunchanged hfull ((length_le_joined _ _).trans_lt hlen)]
  exact setList_joined_full ((spaced_iff hunchanged (ListField.changed_of_full hfull)).1 hspaced) hlen

/-- A list that has fallen out of step starts with a later field. -/
theorem spaced_of_setList {fields : List ListField} {gap : ℕ} (hchanged : ∃ field ∈ fields, field.changed = true)
    (hlen : (fullList escape fields).length < bufSize) (hfronts : ∀ f ∈ fronts fields, IsFront f)
    (hnodup : (fronts fields).Nodup)
    (hlist : setList escape none fields = some (some (fullList escape fields, gap))) :
    Spaced (fields.map ListField.changed) := by
  obtain ⟨fields₁, field, fields₂, text, rfl, hunchanged, hfull⟩ := exists_first_changed hchanged
  have htexts : (fields₁ ++ field :: fields₂).filterMap (ListField.full escape) = _ :=
    filterMap_full hunchanged hfull
  rw [fullList, htexts, ← joined_eq_intercalate] at hlen hlist
  rw [setList_first hunchanged hfull ((length_le_joined _ _).trans_lt hlen)] at hlist
  rw [spaced_iff hunchanged (ListField.changed_of_full hfull)]
  by_contra hstep
  obtain ⟨front, hfront, htext⟩ := ListField.front_of_full hfull
  have hsplit : fronts (fields₁ ++ field :: fields₂) = fronts fields₁ ++ front :: fronts fields₂ := by
    rw [fronts, List.filterMap_append, List.filterMap_cons, hfront]
    rfl
  rw [hsplit] at hfronts hnodup
  have hlater : ∀ f ∈ fronts fields₂, IsFront f :=
    fun f hf => hfronts f (List.mem_append_right _ (List.mem_cons_of_mem front hf))
  obtain ⟨front', hfront', hpre'⟩ :=
    setList_lost (fun f hf => (hlater f hf).length_lt) hstep hlist _ rfl
  have hpre : front <+: joined text (fields₂.filterMap (ListField.full escape)) := by
    have hnil := joined_append text [] (fields₂.filterMap (ListField.full escape))
    rw [List.append_nil] at hnil
    rw [hnil]
    exact htext.trans (List.prefix_append text _)
  have hsame := (hfronts front List.mem_append_cons_self).eq_of_isPrefix (hlater front' hfront') hpre hpre'
  rw [← hsame] at hfront'
  exact (List.nodup_cons.1 (List.nodup_append.1 hnodup).2.1).1 hfront'

/-- The changed fields of an update as `name=value`, joined. -/
def updateList (escape : List Byte → List Byte) (table : MysqlTable φ) (args : List (UpdateArg φ)) : List Byte :=
  List.intercalate [44, 32]
    (args.filterMap fun arg => arg.1.map fun name => name ++ [61] ++ arg.2.full escape table name)

theorem updateList_eq (args : List (UpdateArg φ)) :
    updateList escape table args = fullList escape (args.map (updateField table)) := by
  rw [updateList, fullList, List.filterMap_map]
  refine congrArg (fun f => List.intercalate [44, 32] (List.filterMap f args)) (funext fun arg => ?_)
  obtain ⟨name, value⟩ := arg
  cases name with
  | none => rfl
  | some name =>
      cases value with
      | string s => rfl
      | other print => rfl

theorem changed_updateField (arg : UpdateArg φ) : (updateField table arg).changed = arg.1.isSome := by
  obtain ⟨name, value⟩ := arg
  cases name with
  | none => rfl
  | some name => exact SqlValue.changed_field name _ value

/-- The list of an update is the changed fields with their values. -/
def UpdateExact (escape : List Byte → List Byte) (table : MysqlTable φ) (b : RingBufs) (args : List (UpdateArg φ)) :
    Prop :=
  ∃ h c, formatUpdateFieldValues escape table b none args = some (some h, c) ∧
    c.buf h = updateList escape table args

/-- What the ring holds in the end is the list. -/
theorem updateExact_iff_setList (hescape : Escapes escape) {b : RingBufs} {args : List (UpdateArg φ)}
    (htakes : ∀ arg ∈ args, ∀ name ∈ arg.1, table.Takes name arg.2) :
    UpdateExact escape table b args ↔ ∃ gap, setList escape none (args.map (updateField table)) =
      some (some (updateList escape table args, gap)) := by
  have hrel := formatUpdateFieldValues_rel hescape (show b.Holds none none from rfl) htakes
  unfold UpdateExact
  generalize formatUpdateFieldValues escape table b none args = r at hrel ⊢
  generalize setList escape none (args.map (updateField table)) = st at hrel ⊢
  cases hrel with
  | none => exact iff_of_false (fun ⟨_, _, h, _⟩ => nomatch h) (fun ⟨_, h⟩ => nomatch h)
  | @some r st h =>
      obtain ⟨head, c⟩ := r
      constructor
      · rintro ⟨i, c', heq, hbuf⟩
        obtain ⟨rfl, rfl⟩ := Prod.mk.inj (Option.some.inj heq)
        obtain ⟨⟨list, gap⟩, rfl, rfl⟩ := Option.map_eq_some_iff.1 h.symm
        exact ⟨gap, by rw [← hbuf]⟩
      · rintro ⟨gap, heq⟩
        obtain rfl := Option.some.inj heq
        obtain ⟨i, rfl, hbuf⟩ := Option.map_eq_some_iff.1 h
        exact ⟨i, c, rfl, hbuf⟩

/-- The list of an update is its changed fields with their values, wherever the ring stands, if the unchanged
fields between two changed ones are a multiple of three; and only if, where no field is named twice. -/
theorem updateExact_spaced (hescape : Escapes escape) (b : RingBufs) {args : List (UpdateArg φ)}
    (htakes : ∀ arg ∈ args, ∀ name ∈ arg.1, table.Takes name arg.2) (hchanged : ∃ arg ∈ args, arg.1 ≠ none)
    (hfits : (updateList escape table args).length < bufSize) :
    (Spaced (args.map fun arg => arg.1.isSome) → UpdateExact escape table b args) ∧
      ((args.filterMap Prod.fst).Nodup → UpdateExact escape table b args →
        Spaced (args.map fun arg => arg.1.isSome)) := by
  have hflags : (args.map fun arg => arg.1.isSome) = (args.map (updateField table)).map ListField.changed := by
    rw [List.map_map]
    exact List.map_congr_left fun arg _ => (changed_updateField arg).symm
  have hsome : ∃ field ∈ args.map (updateField table), field.changed = true := by
    obtain ⟨arg, harg, hname⟩ := hchanged
    refine ⟨_, List.mem_map_of_mem harg, ?_⟩
    rw [changed_updateField]
    exact Option.isSome_iff_ne_none.2 hname
  rw [updateExact_iff_setList hescape htakes, hflags]
  rw [updateList_eq] at hfits ⊢
  refine ⟨setList_of_spaced hsome hfits, fun hnames => ?_⟩
  rintro ⟨gap, hlist⟩
  exact spaced_of_setList hsome hfits (isFront_update htakes) (nodup_fronts_update hnames) hlist

end rings

namespace TwoTexts

/-- An insert of `k` and `v`. -/
def bothFields : List (FieldArg Unit) := [([107], .string [97]), ([118], .string [39])]

theorem bothFields_pushed :
    RingBufs.insertRecord realEscapeString table bufs bufs bothFields =
      .pushed (insertStatement realEscapeString table bothFields) := by
  refine (insertRecord_pushes_iff escapes_realEscapeString bufs bufs (List.cons_ne_nil _ _) ?_ ⟨?_, ?_, ?_⟩).2 ?_
  · intro arg harg
    rcases List.mem_pair.1 harg with rfl | rfl <;> exact ⟨(), rfl, rfl⟩
  · decide
  · decide
  · decide
  · decide

/-- An insert of `k` with 70000 bytes. -/
def longField : List (FieldArg Unit) := [([107], .string (List.replicate 70000 97))]

theorem realEscapeString_replicate (n : ℕ) :
    realEscapeString (List.replicate n 97) = List.replicate n 97 := by
  rw [realEscapeString, List.flatMap_replicate, show escapeByte 97 = [97] by decide, List.flatten_replicate_singleton]

/-- The statement of an insert of `k` with `n` bytes. -/
theorem oneText_length (n : ℕ) :
    insertTexts realEscapeString table [([107], .string (List.replicate n 97))] = [quote (List.replicate n 97)] ∧
      (insertStatement realEscapeString table [([107], .string (List.replicate n 97))]).length = n + 29 := by
  have htexts : insertTexts realEscapeString table [([107], .string (List.replicate n 97))] =
      [quote (realEscapeString (List.replicate n 97))] := rfl
  rw [realEscapeString_replicate] at htexts
  refine ⟨htexts, ?_⟩
  have hname : table.name = [116] := rfl
  rw [insertStatement, htexts, hname]
  simp only [List.map_cons, List.map_nil, List.intercalate_singleton, List.length_append, length_quote,
    List.length_replicate, List.length_cons, List.length_nil]
  omega

theorem longField_texts : insertTexts realEscapeString table longField = [quote (List.replicate 70000 97)] :=
  (oneText_length 70000).1

theorem longField_length : (insertStatement realEscapeString table longField).length = 70029 :=
  (oneText_length 70000).2

/-- Every text of this insert fits its buffer, and the command keeps the first 4493 bytes of its statement. -/
theorem longField_cut : InsertFits realEscapeString table longField ∧
    RingBufs.insertRecord realEscapeString table bufs bufs longField =
      .pushed ((insertStatement realEscapeString table longField).take 4493) ∧
    RingBufs.insertRecord realEscapeString table bufs bufs longField ≠
      .pushed (insertStatement realEscapeString table longField) := by
  have hfits : InsertFits realEscapeString table longField := by
    refine ⟨by decide, ?_, ?_⟩
    · rw [longField_texts, List.intercalate_singleton, length_quote, List.length_replicate]
      decide
    · rw [longField_length]
      decide
  have htakes : ∀ arg ∈ longField, table.Takes arg.1 arg.2 := by
    intro arg harg
    obtain rfl := List.mem_singleton.1 harg
    exact ⟨(), rfl, rfl⟩
  have hsome : longField ≠ [] := List.cons_ne_nil _ _
  have hpush := insertRecord_push escapes_realEscapeString bufs bufs hsome htakes hfits
  refine ⟨hfits, ?_, ?_⟩
  · rw [hpush, SqlOutcome.push, cmdText_eq, longField_length, show 70029 % 2 ^ 16 = 4493 from rfl]
  · rw [hpush, Ne, push_eq_iff, longField_length]
    decide

/-- An update of `k` and `v` with `n` fields between them that are not changed. -/
def apart (n : ℕ) : List (UpdateArg Unit) :=
  (some [107], .string [97]) :: List.replicate n (none, .string []) ++ [(some [118], .string [98])]

theorem apart_takes (n : ℕ) : ∀ arg ∈ apart n, ∀ name ∈ arg.1, table.Takes name arg.2 := by
  intro arg harg name hname
  rcases List.mem_append.1 harg with hmem | hmem
  · rcases List.mem_cons.1 hmem with rfl | hmem
    · obtain rfl := Option.mem_some_iff.1 hname
      exact ⟨(), rfl, rfl⟩
    · rw [List.eq_of_mem_replicate hmem] at hname
      cases hname
  · obtain rfl := List.mem_singleton.1 hmem
    obtain rfl := Option.mem_some_iff.1 hname
    exact ⟨(), rfl, rfl⟩

/-- Three fields between them do no harm. -/
theorem apart_three_exact : UpdateExact realEscapeString table bufs (apart 3) :=
  (updateExact_spaced escapes_realEscapeString bufs (apart_takes 3) ⟨_, List.mem_cons_self, Option.some_ne_none _⟩
    (by decide)).1 ⟨rfl, trivial⟩

/-- Behind two fields the second text is printed over the list: `v='b', v='b'` in place of `k='a', v='b'`. -/
theorem apart_two_lost :
    (∃ h c, formatUpdateFieldValues realEscapeString table bufs none (apart 2) = some (some h, c) ∧
      c.buf h = [118, 61, 39, 98, 39, 44, 32, 118, 61, 39, 98, 39]) ∧
    updateList realEscapeString table (apart 2) = [107, 61, 39, 97, 39, 44, 32, 118, 61, 39, 98, 39] ∧
    ¬UpdateExact realEscapeString table bufs (apart 2) := by
  have hring : (formatUpdateFieldValues realEscapeString table bufs none (apart 2)).map (fun r => r.1.map r.2.buf) =
      some (some [118, 61, 39, 98, 39, 44, 32, 118, 61, 39, 98, 39]) := by decide
  have hlist : updateList realEscapeString table (apart 2) = [107, 61, 39, 97, 39, 44, 32, 118, 61, 39, 98, 39] := by
    decide
  refine ⟨?_, hlist, ?_⟩
  · obtain ⟨⟨head, c⟩, hsome, hhead⟩ := Option.map_eq_some_iff.1 hring
    obtain ⟨h, rfl, hbuf⟩ := Option.map_eq_some_iff.1 hhead
    exact ⟨h, c, hsome, hbuf⟩
  · rintro ⟨h, c, hsome, hbuf⟩
    rw [hsome, Option.map_some, Option.map_some, hbuf, hlist] at hring
    exact absurd hring (by decide)

end TwoTexts

end JmyGame
