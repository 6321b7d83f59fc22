import JmyGame.MysqlRings

/-! The fields of a call that are not formatted, and the names of the fields of a select. An insert with such a field
prints a null list. An update drops what it has listed so far and goes on, and returns false only if no field is
listed behind the last one that fails. A select without a key prints every name behind the first one. -/

namespace JmyGame

open CArith Sql

section fields

variable {φ : Type} (escape : List Byte → List Byte) (table : MysqlTable φ)

/-- The changed fields of an update. -/
def changedFields (args : List (UpdateArg φ)) : List (FieldArg φ) :=
  args.filterMap fun arg => arg.1.map fun name => (name, arg.2)

/-- A field of a call is not formatted: the table does not have it, or its type does not take the value. -/
def SqlCall.Fails (call : SqlCall φ) : Prop := ∃ arg ∈ changedFields call.args, ¬table.Takes arg.1 arg.2

/-- The escaped text of a string fits its buffer. -/
def SqlValue.Fits : SqlValue φ → Prop
  | .string s => (escape s).length < bufSize
  | .other _ => True

/-- Behind a list with `gap` unchanged fields, no field of an update is printed out of its buffer or over the list
that it is joined to. A field that fails leaves no list. -/
def Printable : Option ℕ → List (UpdateArg φ) → Prop
  | _, [] => True
  | gap, (none, _) :: args => Printable (gap.map (· + 1)) args
  | gap, (some name, value) :: args =>
    (table.Takes name value → value.Fits escape ∧ (∀ n ∈ gap, n % 3 ≠ 1) ∧ Printable (some 0) args) ∧
      (¬table.Takes name value → Printable none args)

/-- The list of an update is null: the last changed field fails, or there is none behind no list. -/
def LeavesNull (gap : Option ℕ) (args : List (UpdateArg φ)) : Prop :=
  match (changedFields args).getLast? with
  | none => gap = none
  | some arg => ¬table.Takes arg.1 arg.2

variable {escape table}

theorem valueFormat_of_not_takes {name : List Byte} {value : SqlValue φ} {ft : φ} (scratch : Option ℕ) (size : ℕ)
    (hft : table.fieldInfo name = some ft) (htakes : ¬table.Takes name value) :
    valueFormat escape table scratch size ft value = some none := by
  cases value with
  | string s =>
      have htext : ¬table.isText ft = true := fun h => htakes ⟨ft, hft, h⟩
      unfold valueFormat
      exact if_neg htext
  | other print =>
      have hprint : print ft = none := by
        by_contra h
        exact htakes ⟨ft, hft, Option.isSome_iff_ne_none.2 h⟩
      rw [valueFormat, hprint]
      rfl

/-- A field that fails leaves no list. -/
theorem formatUpdateFieldValue_of_not_takes (b : RingBufs) (head : Option (Fin 3)) {name : List Byte}
    {value : SqlValue φ} (htakes : ¬table.Takes name value) :
    formatUpdateFieldValue escape table b head (some name, value) = some (none, b) := by
  unfold formatUpdateFieldValue
  dsimp only
  cases hft : table.fieldInfo name with
  | none => rfl
  | some ft =>
      dsimp only
      rw [valueFormat_of_not_takes (some bufSize) bufSize hft htakes]

theorem SqlValue.body_eq_none_iff (name : List Byte) (value : SqlValue φ) :
    value.body escape table name = none ↔ ¬value.Fits escape := by
  cases value with
  | string s =>
      rw [body, Fits]
      split_ifs with h <;> simp [h]
  | other print => simp [body, Fits]

/-- What a field that is formatted needs to be joined. -/
def Joins (escape : List Byte → List Byte) (st : ListState) (value : SqlValue φ) : Prop :=
  value.Fits escape ∧ ¬Overlaps st

/-- A field that is formatted is joined to the list, if it fits its buffer and the list is not in its way. -/
theorem formatUpdateFieldValue_of_takes (hescape : Escapes escape) {b : RingBufs} {head : Option (Fin 3)}
    {st : ListState} (hholds : b.Holds head st) {name : List Byte} {value : SqlValue φ}
    (htakes : table.Takes name value) :
    (Joins escape st value ∧ ∃ r text, formatUpdateFieldValue escape table b head (some name, value) = some r ∧
      r.2.next.Holds r.1 (some (text, 0))) ∨
    (¬Joins escape st value ∧ formatUpdateFieldValue escape table b head (some name, value) = none) := by
  have harg : ∀ n ∈ (some name, value).1, table.Takes n (some name, value).2 := by
    intro n hn
    obtain rfl := Option.mem_some_iff.1 hn
    exact htakes
  have hrel := formatUpdateFieldValue_rel hescape hholds harg
  have hbody : value.body escape table name = none ↔ ¬value.Fits escape := value.body_eq_none_iff name
  generalize formatUpdateFieldValue escape table b head (some name, value) = r at hrel ⊢
  rw [setList, updateField, SqlValue.text_field] at hrel
  cases htext : value.body escape table name with
  | none =>
      rw [htext] at hrel
      cases hrel
      exact .inr ⟨fun h => hbody.1 htext h.1, rfl⟩
  | some text =>
      have hfits : value.Fits escape := by
        by_contra h
        rw [hbody.2 h] at htext
        cases htext
      rw [htext] at hrel
      dsimp only [Option.map_some, Option.bind_some] at hrel
      by_cases hover : Overlaps st
      · rw [if_pos hover] at hrel
        cases hrel
        exact .inr ⟨fun h => h.2 hover, rfl⟩
      · rw [if_neg hover] at hrel
        cases hrel with
        | some h => exact .inl ⟨⟨hfits, hover⟩, _, _, rfl, h⟩

/-- Where the list of an update is, field by field. -/
theorem formatUpdateFieldValues_cons (b : RingBufs) (head : Option (Fin 3)) (arg : UpdateArg φ)
    (args : List (UpdateArg φ)) :
    (formatUpdateFieldValues escape table b head (arg :: args)).map Prod.fst =
      (formatUpdateFieldValue escape table b head arg).bind fun r =>
        (formatUpdateFieldValues escape table r.2.next r.1 args).map Prod.fst := by
  cases args with
  | nil =>
      rw [formatUpdateFieldValues]
      cases formatUpdateFieldValue escape table b head arg <;> rfl
  | cons arg' args =>
      rw [formatUpdateFieldValues]
      · exact Option.map_bind
      · exact List.cons_ne_nil arg' args

theorem overlaps_iff (st : ListState) : ¬Overlaps st ↔ ∀ n ∈ st.map Prod.snd, n % 3 ≠ 1 := by
  cases st with
  | none => exact iff_of_true id nofun
  | some p => exact ⟨fun h n hn => Option.mem_some_iff.1 hn ▸ h, fun h => h p.2 rfl⟩

theorem leavesNull_unchanged (gap : Option ℕ) (value : SqlValue φ) (args : List (UpdateArg φ)) :
    LeavesNull table gap ((none, value) :: args) ↔ LeavesNull table (gap.map (· + 1)) args := by
  have hfields : changedFields ((none, value) :: args) = changedFields args := rfl
  rw [LeavesNull, LeavesNull, hfields]
  cases (changedFields args).getLast? with
  | none => exact Option.map_eq_none_iff.symm
  | some arg => exact Iff.rfl

/-- Behind a changed field there is a list unless it fails. -/
theorem leavesNull_changed {gap gap' : Option ℕ} {name : List Byte} {value : SqlValue φ}
    (hgap : gap' = none ↔ ¬table.Takes name value) (args : List (UpdateArg φ)) :
    LeavesNull table gap ((some name, value) :: args) ↔ LeavesNull table gap' args := by
  have hfields : changedFields ((some name, value) :: args) = (name, value) :: changedFields args := rfl
  rw [LeavesNull, LeavesNull, hfields, List.getLast?_cons]
  cases (changedFields args).getLast? with
  | none => exact hgap.symm
  | some arg => exact Iff.rfl

/-- What is left of the list of an update: nothing that is defined, a null pointer or a list. -/
def Leaves (escape : List Byte → List Byte) (table : MysqlTable φ) (gap : Option ℕ) (args : List (UpdateArg φ))
    (r : Option (Option (Fin 3))) : Prop :=
  (¬Printable escape table gap args ∧ r = none) ∨
    (Printable escape table gap args ∧ ∃ head, r = some head ∧ (head = none ↔ LeavesNull table gap args))

theorem Leaves.congr {gap gap' : Option ℕ} {args args' : List (UpdateArg φ)} {r : Option (Option (Fin 3))}
    (h : Leaves escape table gap args r) (hprint : Printable escape table gap args ↔ Printable escape table gap' args')
    (hnull : LeavesNull table gap args ↔ LeavesNull table gap' args') : Leaves escape table gap' args' r := by
  unfold Leaves at h ⊢
  rwa [hprint, hnull] at h

variable (table) in
/-- Where the list of an update is in the end. -/
theorem formatUpdateFieldValues_leaves (hescape : Escapes escape) {b : RingBufs} {head : Option (Fin 3)}
    {st : ListState} (hholds : b.Holds head st) (args : List (UpdateArg φ)) :
    Leaves escape table (st.map Prod.snd) args ((formatUpdateFieldValues escape table b head args).map Prod.fst) := by
  induction args generalizing b head st with
  | nil =>
      refine .inr ⟨trivial, head, rfl, ?_⟩
      cases st with
      | none => exact iff_of_true hholds rfl
      | some p =>
          obtain ⟨h, rfl, -⟩ := hholds
          exact iff_of_false (Option.some_ne_none h) (Option.some_ne_none p.2)
  | cons arg args ih =>
      obtain ⟨name, value⟩ := arg
      rw [formatUpdateFieldValues_cons]
      cases name with
      | none =>
          have hrest := ih (hholds.next_unchanged)
          rw [Option.map_map] at hrest
          have hgap : (st.map Prod.snd).map (· + 1) = st.map (Prod.snd ∘ fun p => (p.1, p.2 + 1)) :=
            Option.map_map _ _ _
          refine hrest.congr ?_ ?_
          · rw [Printable, hgap]
          · rw [leavesNull_unchanged, hgap]
      | some name =>
          by_cases htakes : table.Takes name value
          · have hnull : some 0 = none ↔ ¬table.Takes name value :=
              iff_of_false (Option.some_ne_none 0) (not_not.2 htakes)
            rcases formatUpdateFieldValue_of_takes hescape hholds htakes with
              ⟨⟨hfits, hover⟩, r, text, hone, hnext⟩ | ⟨hjoins, hone⟩
            · rw [hone]
              refine (ih hnext).congr ?_ (leavesNull_changed hnull args).symm
              exact ⟨fun h => ⟨fun _ => ⟨hfits, (overlaps_iff st).1 hover, h⟩, fun h => absurd htakes h⟩,
                fun h => (h.1 htakes).2.2⟩
            · rw [hone]
              refine .inl ⟨fun h => hjoins ?_, rfl⟩
              exact ⟨(h.1 htakes).1, (overlaps_iff st).2 (h.1 htakes).2.1⟩
          · rw [formatUpdateFieldValue_of_not_takes b head htakes]
            refine (ih (show b.next.Holds none none from rfl)).congr ?_ ?_
            · exact ⟨fun h => ⟨fun h => absurd h htakes, fun _ => h⟩, fun h => h.2 htakes⟩
            · exact (leavesNull_changed (iff_of_true rfl htakes) args).symm

variable (escape) in
/-- The values of an insert with a field that fails are null, or not defined. -/
theorem formatInsertFieldValues_of_not_takes {args : List (FieldArg φ)} {arg : FieldArg φ} (hmem : arg ∈ args)
    (htakes : ¬table.Takes arg.1 arg.2) (head : Option (List Byte)) (values : List Byte) :
    formatInsertFieldValues escape table head args ≠ some (some values) := by
  induction args generalizing head with
  | nil => cases hmem
  | cons first args ih =>
      rw [formatInsertFieldValues]
      intro h
      obtain ⟨r, hone, hrest⟩ := Option.bind_eq_some_iff.1 h
      cases r with
      | none => cases hrest
      | some text =>
          rcases List.mem_cons.1 hmem with rfl | hmem
          · unfold formatInsertFieldValue at hone
            cases hft : table.fieldInfo arg.1 with
            | none =>
                rw [hft] at hone
                cases hone
            | some ft =>
                rw [hft] at hone
                dsimp only at hone
                rw [valueFormat_of_not_takes (some bufSize) bufSize hft htakes] at hone
                cases hone
          · exact ih hmem (some text) hrest

/-- A key is formatted if the table has it and its type takes the value. -/
theorem getFieldTypeFormat_eq_none_iff (size : ℕ) (key : FieldArg φ) :
    (getFieldTypeFormat escape table size key).join = none ↔ ¬table.Takes key.1 key.2 := by
  obtain ⟨name, value⟩ := key
  unfold getFieldTypeFormat
  dsimp only
  cases hft : table.fieldInfo name with
  | none => exact iff_of_true rfl fun ⟨ft, h, _⟩ => by rw [hft] at h; cases h
  | some ft =>
      dsimp only
      by_cases htakes : table.Takes name value
      · refine iff_of_false ?_ (not_not.2 htakes)
        obtain ⟨ft', hft', hvalue⟩ := htakes
        obtain rfl := Option.some.inj (hft.symm.trans hft')
        cases value with
        | string s =>
            dsimp only [valueFormat]
            rw [if_pos hvalue]
            exact Option.some_ne_none _
        | other print =>
            dsimp only [valueFormat]
            rw [MysqlTable.print_eq hft hvalue]
            exact Option.some_ne_none _
      · rw [valueFormat_of_not_takes none size hft htakes]
        exact iff_of_true rfl htakes

variable (escape table) in
theorem formatKeys_eq_none_iff (size : ℕ) (keys : List (FieldArg φ)) :
    SqlCall.formatKeys escape table size keys = none ↔ ∃ key ∈ keys, ¬table.Takes key.1 key.2 := by
  unfold SqlCall.formatKeys
  rw [Loop.mapM_eq_none_iff]
  refine exists_congr fun key => and_congr_right fun _ => ?_
  rw [Option.map_eq_none_iff]
  exact getFieldTypeFormat_eq_none_iff size key

theorem mem_changedFields_insert {args : List (FieldArg φ)} {arg : FieldArg φ} :
    arg ∈ changedFields (SqlCall.insert args).args ↔ arg ∈ args := by
  have hfields : changedFields (SqlCall.insert args).args = args := by
    rw [changedFields, SqlCall.args, List.filterMap_map]
    exact List.filterMap_some
  rw [hfields]

theorem insert_undefined_of_fails (b : RingBufs) {args : List (FieldArg φ)}
    (hfails : (SqlCall.insert args).Fails table) : (SqlCall.insert args).outcome escape table b = .undefined := by
  obtain ⟨arg, hmem, htakes⟩ := hfails
  have hvalues := formatInsertFieldValues_of_not_takes escape (mem_changedFields_insert.1 hmem) htakes none
  rw [SqlCall.outcome, insertRecord]
  split
  · next values heq => exact absurd heq (hvalues values)
  · rfl

/-- An update returns false if its printing is defined and leaves no list, or if a key is not formatted. -/
theorem update_refused_iff (hescape : Escapes escape) (b : RingBufs) (key : FieldArg φ) (keys : List (FieldArg φ))
    (args : List (UpdateArg φ)) : (SqlCall.update key keys args).outcome escape table b = .refused ↔
      Printable escape table none args ∧ (LeavesNull table none args ∨ ∃ k ∈ key :: keys, ¬table.Takes k.1 k.2) := by
  have hleaves : Leaves escape table none args ((formatUpdateFieldValues escape table b none args).map Prod.fst) :=
    formatUpdateFieldValues_leaves table hescape (show b.Holds none none from rfl) args
  have hkeys := formatKeys_eq_none_iff escape table updateKeySize (key :: keys)
  rw [SqlCall.outcome, SqlCall.lead, SqlCall.keys, SqlCall.keySize, ← hkeys]
  · rcases hleaves with ⟨hprint, hnone⟩ | ⟨hprint, head, hsome, hnull⟩
    · rw [Option.map_eq_none_iff.1 hnone]
      exact iff_of_false (by rintro ⟨⟩) fun h => hprint h.1
    · obtain ⟨r, hr, rfl⟩ := Option.map_eq_some_iff.1 hsome
      rw [hr, Option.map_some, ← hnull]
      cases r.1 with
      | none => exact iff_of_true rfl ⟨hprint, .inl rfl⟩
      | some h =>
          dsimp only [Option.map_some]
          cases SqlCall.formatKeys escape table updateKeySize (key :: keys) with
          | none => exact iff_of_true rfl ⟨hprint, .inr rfl⟩
          | some texts =>
              refine iff_of_false (by rintro ⟨⟩) ?_
              rintro ⟨-, hhead | htexts⟩
              · cases hhead
              · cases htexts
  · rintro _ ⟨⟩

/-- A call that sets nothing has no field that fails. -/
theorem SqlCall.not_fails_of_args {call : SqlCall φ} (h : call.args = []) : ¬call.Fails table := by
  rintro ⟨arg, hmem, -⟩
  rw [h] at hmem
  cases hmem

/-- Behind a changed field the list is null if the last one fails. -/
theorem leavesNull_iff {args : List (UpdateArg φ)} (hchanged : changedFields args ≠ []) (gap : Option ℕ) :
    LeavesNull table gap args ↔ ∃ arg ∈ (changedFields args).getLast?, ¬table.Takes arg.1 arg.2 := by
  rw [LeavesNull, List.getLast?_eq_some_getLast hchanged]
  exact ⟨fun h => ⟨_, rfl, h⟩, fun ⟨arg, harg, h⟩ => Option.mem_some_iff.1 harg ▸ h⟩

/-- A call returns false without a push whenever one of its fields fails, if no field does, or if it is an update
whose printing is defined and whose last changed field fails or one of whose keys does; and only then. -/
theorem fails_refused_iff (hescape : Escapes escape) (b : RingBufs) (call : SqlCall φ) :
    (call.Fails table → call.outcome escape table b = .refused) ↔
      ¬call.Fails table ∨ ∃ key keys args, call = .update key keys args ∧ Printable escape table none args ∧
        ((∃ arg ∈ (changedFields args).getLast?, ¬table.Takes arg.1 arg.2) ∨
          ∃ k ∈ key :: keys, ¬table.Takes k.1 k.2) := by
  by_cases hfails : call.Fails table
  · rw [imp_iff_right hfails, or_iff_right (not_not.2 hfails)]
    cases call with
    | insert args =>
        rw [insert_undefined_of_fails b hfails]
        exact iff_of_false nofun fun ⟨_, _, _, h, _⟩ => nomatch h
    | update key keys args =>
        have hchanged : changedFields args ≠ [] := by
          obtain ⟨arg, hmem, -⟩ := hfails
          exact List.ne_nil_of_mem hmem
        rw [update_refused_iff hescape, leavesNull_iff hchanged]
        constructor
        · exact fun h => ⟨key, keys, args, rfl, h⟩
        · rintro ⟨key', keys', args', heq, h⟩
          cases heq
          exact h
    | delete key => exact absurd hfails (SqlCall.not_fails_of_args rfl)
    | select fields key => exact absurd hfails (SqlCall.not_fails_of_args rfl)
    | select2 relation key key2 => exact absurd hfails (SqlCall.not_fails_of_args rfl)
  · exact iff_of_true (fun h => absurd h hfails) (.inl hfails)

namespace RingBufs

/-- The rest of the names of a select without a key. Each is printed behind the first one, which is in `first`. -/
def selectRest (first : Fin 3) : RingBufs → List (List Byte) → Option RingBufs
  | b, [] => some b
  | b, name :: names =>
    let b₁ := b.next
    if b₁.index = first then none
    else selectRest first (b₁.write (snprintf bufSize (listed (some (b₁.buf first)) name))) names

/-- The loop of `selectRecord` without a key. The list is what the buffer at the index holds in the end. -/
def selectNames (b : RingBufs) : List (List Byte) → Option RingBufs
  | [] => some b
  | name :: names => selectRest b.index (b.write (snprintf bufSize name)) names

/-- The loop of `selectRecord` with a key. -/
def selectKeyNames : RingBufs → Option (Fin 3) → List (List Byte) → Option (Option (Fin 3) × RingBufs)
  | b, prev, [] => some (prev, b)
  | b, none, name :: names => selectKeyNames (b.write (snprintf bufSize name)).next (some b.index) names
  | b, some prev, name :: names =>
    if b.index = prev then none
    else selectKeyNames (b.write (snprintf bufSize (listed (some (b.buf prev)) name))).next (some b.index) names

end RingBufs

/-- The overloads of `selectRecord` that take the names of fields. -/
inductive SelectBy (φ : Type) where
  | byList
  | byArray
  | byKey (key : FieldArg φ)

/-- `SELECT %s FROM %s`, with what stands behind it. -/
def selectText (table : MysqlTable φ) (names post : List Byte) : List Byte :=
  [83, 69, 76, 69, 67, 84, 32] ++ names ++ [32, 70, 82, 79, 77, 32] ++ table.name ++ post

/-- `WHERE %s=%s`. -/
def whereText (name value : List Byte) : List Byte := [32, 87, 72, 69, 82, 69, 32] ++ name ++ [61] ++ value

/-- `selectRecord` without a key; the list and the array are walked in the same way. -/
def selectUnkeyed (table : MysqlTable φ) (b : RingBufs) (names : List (List Byte)) : SqlOutcome :=
  match b.selectNames names with
  | none => .undefined
  | some c => .push (snprintf bigBufSize (selectText table (c.buf c.index) []))

/-- `selectRecord` with a key, which is printed into the other ring. -/
def selectKeyed (escape : List Byte → List Byte) (table : MysqlTable φ) (b : RingBufs) (key : FieldArg φ)
    (names : List (List Byte)) : SqlOutcome :=
  match (getFieldTypeFormat escape table bufSize key).join with
  | none => .refused
  | some value =>
    match b.selectKeyNames none names with
    | some (some h, c) => .push (snprintf bigBufSize (selectText table (c.buf h) (whereText key.1 value)))
    | _ => .undefined

/-- `selectRecord` with names, with `buf_` and `buf2_`. -/
def selectRecord (escape : List Byte → List Byte) (table : MysqlTable φ) (b b' : RingBufs)
    (names : List (List Byte)) : SelectBy φ → SqlOutcome
  | .byList => selectUnkeyed table b names
  | .byArray => selectUnkeyed table b names
  | .byKey key => selectKeyed escape table b' key names

/-- What stands behind the table, when the key is formatted. -/
def SelectBy.post (escape : List Byte → List Byte) (table : MysqlTable φ) : SelectBy φ → Option (List Byte)
  | .byList => some []
  | .byArray => some []
  | .byKey key => ((getFieldTypeFormat escape table bufSize key).join).map (whereText key.1)

/-- What a select is to do: its columns are the names in their order. -/
def selectOutcome (escape : List Byte → List Byte) (table : MysqlTable φ) (names : List (List Byte))
    (overload : SelectBy φ) : SqlOutcome :=
  match overload.post escape table with
  | none => .refused
  | some post => .pushed (selectText table (List.intercalate [44, 32] names) post)

/-- The names and the statement fit their buffers. -/
structure SelectFits (escape : List Byte → List Byte) (table : MysqlTable φ) (names : List (List Byte))
    (overload : SelectBy φ) : Prop where
  namesFit : (List.intercalate [44, 32] names).length < bufSize
  statementFits : ∀ post ∈ overload.post escape table,
    (selectText table (List.intercalate [44, 32] names) post).length < bigBufSize

/-- The length of the statement has at most sixteen bits. -/
def SelectShort (escape : List Byte → List Byte) (table : MysqlTable φ) (names : List (List Byte))
    (overload : SelectBy φ) : Prop :=
  ∀ post ∈ overload.post escape table, (selectText table (List.intercalate [44, 32] names) post).length < 2 ^ 16

theorem selectShort_iff {names : List (List Byte)} {overload : SelectBy φ} {post : List Byte}
    (hpost : overload.post escape table = some post) : SelectShort escape table names overload ↔
      (selectText table (List.intercalate [44, 32] names) post).length < 2 ^ 16 := by
  rw [SelectShort, hpost]
  simp only [Option.mem_some_iff, forall_eq']

theorem selectKeyNames_cons {b : RingBufs} {head : Option (Fin 3)} {list : Option (List Byte)}
    (hholds : b.Holds head (list.map fun text => (text, 0))) (name : List Byte) (names : List (List Byte)) :
    ∃ c head', b.selectKeyNames head (name :: names) = RingBufs.selectKeyNames c head' names ∧
      c.Holds head' (some (snprintf bufSize (listed list name), 0)) := by
  cases list with
  | none =>
      obtain rfl : head = none := hholds
      exact ⟨_, _, rfl, b.holds_write _⟩
  | some text =>
      obtain ⟨h, rfl, rfl, hindex⟩ := hholds
      have hne : b.index ≠ h := by
        have hval := h.isLt
        rw [Ne, Fin.ext_iff, hindex]
        omega
      exact ⟨_, _, if_neg hne, b.holds_write _⟩

/-- The names of a select with a key are joined, each to the ones before it. -/
theorem selectKeyNames_joined {b : RingBufs} {head : Option (Fin 3)} {text : List Byte}
    (hholds : b.Holds head (some (text, 0))) {names : List (List Byte)} (hlen : (joined text names).length < bufSize) :
    ∃ h c, b.selectKeyNames head names = some (some h, c) ∧ c.buf h = joined text names := by
  induction names generalizing b head text with
  | nil =>
      obtain ⟨h, rfl, hbuf, -⟩ := hholds
      exact ⟨h, b, rfl, hbuf⟩
  | cons name names ih =>
      rw [joined_cons] at hlen ⊢
      obtain ⟨c, head', heq, hnext⟩ := selectKeyNames_cons
        (show b.Holds head ((some text).map fun text => (text, 0)) from hholds) name names
      rw [snprintf_of_length ((length_le_joined _ _).trans_lt hlen)] at hnext
      rw [heq]
      exact ih hnext hlen

/-- A select with a key has all its columns, and is pushed as it is exactly when its length has at most sixteen
bits. -/
theorem selectKeyed_exact_iff (b : RingBufs) (key : FieldArg φ) {names : List (List Byte)} (hnames : names ≠ [])
    (hfits : SelectFits escape table names (.byKey key)) :
    selectKeyed escape table b key names = selectOutcome escape table names (.byKey key) ↔
      SelectShort escape table names (.byKey key) := by
  obtain ⟨hlen, hstatement⟩ := hfits
  rw [SelectBy.post] at hstatement
  rw [selectKeyed, selectOutcome, SelectShort, SelectBy.post]
  cases hkey : (getFieldTypeFormat escape table bufSize key).join with
  | none => exact iff_of_true rfl nofun
  | some value =>
      obtain ⟨name, names, rfl⟩ := List.exists_cons_of_ne_nil hnames
      rw [← joined_eq_intercalate] at hlen hstatement ⊢
      obtain ⟨c, head, heq, hnext⟩ := selectKeyNames_cons
        (show b.Holds none (none.map fun text => (text, 0)) from rfl) name names
      rw [listed, snprintf_of_length ((length_le_joined _ _).trans_lt hlen)] at hnext
      obtain ⟨h, c', hrest, hbuf⟩ := selectKeyNames_joined hnext hlen
      dsimp only [Option.map_some]
      rw [heq, hrest]
      dsimp only
      rw [hbuf, snprintf_of_length (hstatement _ (by rw [hkey]; rfl)), push_eq_iff]
      simp only [Option.mem_some_iff, forall_eq']

/-- A name is printed behind the first one, unless the ring has come back to it. -/
theorem selectRest_cons {b : RingBufs} {first : Fin 3} (hne : b.index + 1 ≠ first) (name : List Byte)
    (names : List (List Byte)) : ∃ c : RingBufs, b.selectRest first (name :: names) = c.selectRest first names ∧
      c.index = b.index + 1 ∧ c.buf first = b.buf first ∧
      c.buf c.index = snprintf bufSize (listed (some (b.buf first)) name) := by
  refine ⟨_, if_neg hne, rfl, ?_, Function.update_self _ _ _⟩
  exact Function.update_of_ne hne.symm _ _

/-- What a select without a key prints: the last name behind the first one, as long as the ring has not come back to
it. -/
theorem selectNames_cases (b : RingBufs) (name : List Byte) (names : List (List Byte)) :
    (b.selectNames (name :: names)).map (fun c => c.buf c.index) =
      match names with
      | [] => some (snprintf bufSize name)
      | [second] => some (snprintf bufSize (listed (some (snprintf bufSize name)) second))
      | [_, third] => some (snprintf bufSize (listed (some (snprintf bufSize name)) third))
      | _ => none := by
  have hturn : b.index + 1 ≠ b.index ∧ b.index + 1 + 1 ≠ b.index ∧ b.index + 1 + 1 + 1 = b.index := by
    generalize b.index = i
    revert i
    decide
  obtain ⟨hone, htwo, hthree⟩ := hturn
  have hfirst : (b.write (snprintf bufSize name)).buf b.index = snprintf bufSize name := Function.update_self _ _ _
  rw [RingBufs.selectNames]
  cases names with
  | nil => exact congrArg some hfirst
  | cons second names =>
      obtain ⟨c, hc, hindex, hbuf, htext⟩ :=
        selectRest_cons (show (b.write (snprintf bufSize name)).index + 1 ≠ b.index from hone) second names
      rw [hfirst] at hbuf htext
      rw [hc]
      cases names with
      | nil => exact congrArg some htext
      | cons third names =>
          have hnext : c.index + 1 ≠ b.index := by
            rw [hindex]
            exact htwo
          obtain ⟨d, hd, hindex', -, htext'⟩ := selectRest_cons hnext third names
          rw [hbuf] at htext'
          rw [hd]
          cases names with
          | nil => exact congrArg some htext'
          | cons fourth names =>
              have hback : d.index + 1 = b.index := by
                rw [hindex', hindex]
                exact hthree
              rw [RingBufs.selectRest, if_pos (show d.next.index = b.index from hback)]
              rfl

/-- The columns of a select without a key are its names if they are two at most and the statement is short enough. -/
theorem selectUnkeyed_exact_iff (b : RingBufs) {names : List (List Byte)} (hnames : names ≠ [])
    (hlen : (List.intercalate [44, 32] names).length < bufSize)
    (hstatement : (selectText table (List.intercalate [44, 32] names) []).length < bigBufSize) :
    selectUnkeyed table b names = .pushed (selectText table (List.intercalate [44, 32] names) []) ↔
      names.length ≤ 2 ∧ (selectText table (List.intercalate [44, 32] names) []).length < 2 ^ 16 := by
  obtain ⟨name, names, rfl⟩ := List.exists_cons_of_ne_nil hnames
  rw [← joined_eq_intercalate] at hlen hstatement ⊢
  have hcases := selectNames_cases b name names
  rw [snprintf_of_length ((length_le_joined _ _).trans_lt hlen)] at hcases
  have hprints : ∀ text, (b.selectNames (name :: names)).map (fun c => c.buf c.index) = some text →
      selectUnkeyed table b (name :: names) = .push (snprintf bigBufSize (selectText table text [])) := by
    intro text h
    obtain ⟨c, hc, rfl⟩ := Option.map_eq_some_iff.1 h
    rw [selectUnkeyed, hc]
  rcases names with _ | ⟨second, _ | ⟨third, _ | ⟨fourth, names⟩⟩⟩
  · rw [hprints _ hcases]
    exact (congrArg (· = _) (congrArg _ (snprintf_of_length hstatement))).to_iff.trans
      (push_eq_iff.trans (and_iff_right (by simp)).symm)
  · have hjoined : listed (some name) second = joined name [second] := rfl
    rw [hprints _ hcases, hjoined, snprintf_of_length hlen, snprintf_of_length hstatement]
    exact push_eq_iff.trans (and_iff_right (by simp)).symm
  · rw [hprints _ hcases]
    refine iff_of_false (fun h => ?_) (by simp)
    -- the second name is lost, so the statement is shorter
    have hshort := congrArg List.length (SqlOutcome.pushed.inj h)
    simp only [cmdText_eq, snprintf, selectText, joined, listed, List.foldl_cons, List.foldl_nil, List.length_append,
      List.length_take, List.length_cons, List.length_nil] at hshort
    omega
  · rw [selectUnkeyed, Option.map_eq_none_iff.1 hcases]
    exact iff_of_false (by rintro ⟨⟩) (by simp)

/-- The columns of a select are the names in their order if it has a key or two names at most and the statement is short
enough for a command, and only then. -/
theorem selectRecord_exact_iff (b b' : RingBufs) {names : List (List Byte)} {overload : SelectBy φ}
    (hnames : names ≠ []) (hfits : SelectFits escape table names overload) :
    selectRecord escape table b b' names overload = selectOutcome escape table names overload ↔
      ((∃ key, overload = .byKey key) ∨ names.length ≤ 2) ∧ SelectShort escape table names overload := by
  cases overload with
  | byKey key =>
      rw [and_iff_right (.inl ⟨key, rfl⟩)]
      exact selectKeyed_exact_iff b' key hnames hfits
  | byList =>
      rw [or_iff_right (fun ⟨_, h⟩ => nomatch h), selectShort_iff rfl]
      exact selectUnkeyed_exact_iff b hnames hfits.namesFit (hfits.statementFits [] rfl)
  | byArray =>
      rw [or_iff_right (fun ⟨_, h⟩ => nomatch h), selectShort_iff rfl]
      exact selectUnkeyed_exact_iff b hnames hfits.namesFit (hfits.statementFits [] rfl)

end fields

namespace TwoTexts

/-- An update of `z`, which is no field of the table, and of `v` where `k` is `a`. -/
def unknownUpdate : SqlCall Unit :=
  .update ([107], .string [97]) [] [(some [122], .string [97]), (some [118], .string [98])]

/-- An insert of `z`. -/
def unknownInsert : SqlCall Unit := .insert [([122], .string [97])]

theorem not_takes_z (value : SqlValue Unit) : ¬table.Takes [122] value := by
  rintro ⟨ft, hft, -⟩
  cases hft

theorem unknownUpdate_last_fails :
    (SqlCall.update ([107], .string [97]) [] [(some [118], .string [98]), (some [122], .string [97])]).outcome
      realEscapeString table bufs = .refused := by
  refine (fails_refused_iff escapes_realEscapeString bufs _).2 (.inr ⟨_, _, _, rfl, ?_, .inl ⟨_, rfl, not_takes_z _⟩⟩)
    ⟨_, List.mem_cons_of_mem _ List.mem_cons_self, not_takes_z _⟩
  refine ⟨fun _ => ⟨?_, nofun, fun h => absurd h (not_takes_z _), fun _ => trivial⟩, fun h => absurd ⟨(), rfl, rfl⟩ h⟩
  show (realEscapeString [98]).length < bufSize
  decide

/-- The update is pushed without `z`, and the insert prints a null list. -/
theorem unknownUpdate_pushed :
    unknownUpdate.Fails table ∧ unknownUpdate.outcome realEscapeString table bufs = .pushed
      [85, 80, 68, 65, 84, 69, 32, 116, 32, 83, 69, 84, 32, 118, 61, 39, 98, 39, 32, 87, 72, 69, 82, 69, 32,
        107, 61, 39, 97, 39] ∧
    unknownInsert.Fails table ∧ unknownInsert.outcome realEscapeString table bufs = .undefined := by
  refine ⟨⟨_, List.mem_cons_self, not_takes_z _⟩, ?_, ⟨_, List.mem_cons_self, not_takes_z _⟩, ?_⟩
  · decide
  · decide

/-- A select of `k` and `v` without a key. -/
theorem select_two_exact :
    selectRecord realEscapeString table bufs bufs [[107], [118]] .byList =
      selectOutcome realEscapeString table [[107], [118]] .byList := by
  refine (selectRecord_exact_iff bufs bufs (List.cons_ne_nil _ _) ⟨by decide, ?_⟩).2 ⟨.inr (by decide), ?_⟩
  · intro post hpost
    obtain rfl := Option.mem_some_iff.1 hpost
    decide
  · intro post hpost
    obtain rfl := Option.mem_some_iff.1 hpost
    decide

/-- A select of `k`, `v` and `k` asks for `k` and `k`. -/
theorem select_three_lost :
    selectRecord realEscapeString table bufs bufs [[107], [118], [107]] .byArray = .pushed
      [83, 69, 76, 69, 67, 84, 32, 107, 44, 32, 107, 32, 70, 82, 79, 77, 32, 116] ∧
    selectOutcome realEscapeString table [[107], [118], [107]] .byArray = .pushed
      [83, 69, 76, 69, 67, 84, 32, 107, 44, 32, 118, 44, 32, 107, 32, 70, 82, 79, 77, 32, 116] ∧
    selectRecord realEscapeString table bufs bufs [[107], [118], [107]] .byArray ≠
      selectOutcome realEscapeString table [[107], [118], [107]] .byArray := by
  decide

end TwoTexts

end JmyGame
