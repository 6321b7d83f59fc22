import JmyGame.MysqlRecords

/-! What is to be done for a record is one of four states, whatever was committed for it. A flush of that state
is compared with the committed requests executed one after the other: the histories for which the row
and the map of the records come out the same are characterised. -/

namespace JmyGame

variable {κ ι ν : Type}

/-- What is done with one record between two flushes. -/
inductive RecordOp (ι ν : Type) where
  | set (field : ι) (data : ν)
  | commit (c : Commit)
  deriving DecidableEq, Repr

/-- The commits are legal, one after the other, for a row that is there or not. -/
def Legal : Bool → List (RecordOp ι ν) → Prop
  | _, [] => True
  | present, .set _ _ :: ops => Legal present ops
  | present, .commit c :: ops => c.allowed present = true ∧ Legal c.present ops

section execute

variable [DecidableEq ι]

/-- The record and its row after one more operation, when commits are executed at once. -/
def executeOne (state : TableRecord κ ι ν × Option (Row ι ν)) :
    RecordOp ι ν → TableRecord κ ι ν × Option (Row ι ν)
  | .set field data => (state.1.set field data, state.2)
  | .commit c => c.request state.1 state.2

/-- The committed operations executed one after the other. -/
def execute (t : TableRecord κ ι ν) (row : Option (Row ι ν)) (ops : List (RecordOp ι ν)) :
    TableRecord κ ι ν × Option (Row ι ν) := ops.foldl executeOne (t, row)

/-- The fields of a record, those at its last commit, and that commit. -/
structure Progress (ι ν : Type) where
  value : Row ι ν
  committed : Row ι ν
  last : Option Commit

def Progress.after (g : Progress ι ν) : RecordOp ι ν → Progress ι ν
  | .set field data => { g with value := Function.update g.value field data }
  | .commit c => { g with committed := g.value, last := some c }

def progress (value : Row ι ν) (ops : List (RecordOp ι ν)) : Progress ι ν :=
  ops.foldl Progress.after ⟨value, value, none⟩

end execute

/-- The histories that a flush does justice to. After no commit or a delete the row has to have been there
at the start; an insert of a row that was there has to put back what it was; and after other inserts
and updates the fields have to stay as they were committed. -/
def Collapses (row : Option (Row ι ν)) (g : Progress ι ν) : Prop :=
  match g.last with
  | none | some .delete => row ≠ none
  | some .insert => match row with
    | none => g.value = g.committed
    | some r => r = g.committed
  | some .update => g.value = g.committed

/-- The state of a record after a commit. -/
def Commit.next : Commit → Option MysqlTableRecordState → MysqlTableRecordState
  | .insert, pending => (pending.map RecordStates.afterInsert).getD .insert
  | .delete, pending => (pending.map RecordStates.afterDelete).getD .delete
  | .update, pending => (pending.map RecordStates.afterUpdate).getD .update

theorem Commit.find_states {c : Commit} {states : RecordStates} {p q : ℕ} :
    UnorderedMap.find (c.states states p) q =
      if q = p then some (c.next (states.find p)) else states.find q := by
  cases c <;> exact RecordStates.find_commit

/-- The state of a record is that of the row at the start and of the last commit. -/
def summary (existed : Bool) : Option Commit → Option MysqlTableRecordState
  | none => none
  | some .insert => some (if existed then .none else .insert)
  | some .update => some (if existed then .update else .insert)
  | some .delete => some (if existed then .delete else .none)

/-- A record without a state has had no commit. -/
theorem summary_eq_none {existed : Bool} {last : Option Commit} (h : summary existed last = none) : last = none := by
  rcases last with _ | ⟨_ | _ | _⟩
  · rfl
  all_goals cases h

/-- The row that the last commit leaves. -/
def presentAfter (existed : Bool) : Option Commit → Bool
  | none => existed
  | some c => c.present

/-- The four states are enough for legal histories. -/
theorem summary_next {existed : Bool} {last : Option Commit} {c : Commit}
    (h : c.allowed (presentAfter existed last) = true) :
    some (c.next (summary existed last)) = summary existed (some c) := by
  revert h
  rcases last with _ | ⟨_ | _ | _⟩ <;> rcases c with _ | _ | _ <;> cases existed <;>
    simp [Commit.allowed, presentAfter, Commit.present, Commit.next, summary, RecordStates.afterInsert,
      RecordStates.afterDelete, RecordStates.afterUpdate]

namespace TableRecord

variable {t : TableRecord κ ι ν} {row : Option (Row ι ν)}

theorem synced_none : t.Synced none := fun _ h => by cases h

theorem synced_of_value {r : Row ι ν} (h : t.value = r) : t.Synced (some r) := by
  intro r' hr' i _
  obtain rfl := Option.some.inj hr'
  rw [h]

/-- A field that is set counts as changed. -/
theorem Synced.set [DecidableEq ι] (h : t.Synced row) (field : ι) (data : ν) : (t.set field data).Synced row := by
  intro r hr i hi
  unfold TableRecord.set at hi ⊢
  dsimp only at hi ⊢
  by_cases hfield : i = field
  · rw [hfield, Function.update_self] at hi
    exact absurd rfl hi
  · rw [Function.update_of_ne hfield] at hi ⊢
    exact h r hr i hi

/-- The update of a row with the fields that are changed makes it the record. -/
theorem Synced.updateRequest_row (h : t.Synced row) (hrow : row ≠ none) :
    (t.updateRequest row).2 = some t.value := by
  obtain ⟨r, rfl⟩ := Option.ne_none_iff_exists'.1 hrow
  unfold updateRequest
  rw [Option.map_some, Option.some.injEq]
  funext i
  split_ifs with hi
  · rfl
  · exact (h r rfl i hi).symm

end TableRecord

/-- The row after the flush of one record. -/
def flushRow (t : TableRecord κ ι ν) (row : Option (Row ι ν)) : Option MysqlTableRecordState → Option (Row ι ν)
  | some .insert => (t.insertRequest row).2
  | some .delete => (t.deleteRequest row).2
  | some .update => (t.updateRequest row).2
  | _ => row

/-- The record after its flush. -/
def flushRecord (t : TableRecord κ ι ν) (row : Option (Row ι ν)) : Option MysqlTableRecordState → TableRecord κ ι ν
  | some .insert => (t.insertRequest row).1
  | some .delete => (t.deleteRequest row).1
  | some .update => (t.updateRequest row).1
  | _ => t

theorem flushRecord_key (t : TableRecord κ ι ν) (row : Option (Row ι ν)) (pending : Option MysqlTableRecordState) :
    (flushRecord t row pending).key = t.key := by
  rcases pending with _ | ⟨_ | _ | _ | _⟩ <;> rfl

/-- After the flush of a summary the row is there if the commits say so, and the record agrees with it. -/
theorem flush_summary {t : TableRecord κ ι ν} {row : Option (Row ι ν)} (h : t.Synced row) (last : Option Commit) :
    (flushRow t row (summary row.isSome last)).isSome = presentAfter row.isSome last ∧
    (summary row.isSome last ≠ some .delete → (flushRecord t row (summary row.isSome last)).Synced
      (flushRow t row (summary row.isSome last))) := by
  cases last with
  | none => exact ⟨rfl, fun _ => h⟩
  | some c =>
      cases row with
      | none =>
          cases c with
          | insert => exact ⟨rfl, fun _ => TableRecord.synced_of_value rfl⟩
          | delete => exact ⟨rfl, fun _ => h⟩
          | update => exact ⟨rfl, fun _ => TableRecord.synced_of_value rfl⟩
      | some r =>
          cases c with
          | insert => exact ⟨rfl, fun _ => h⟩
          | delete => exact ⟨rfl, fun hne => absurd rfl hne⟩
          | update =>
              have hrow : flushRow t (some r) (some .update) = some t.value := h.updateRequest_row nofun
              refine ⟨rfl, fun _ => ?_⟩
              change (t.updateRequest (some r)).1.Synced (flushRow t (some r) (some .update))
              rw [hrow]
              exact TableRecord.synced_of_value rfl

/-- The record that the manager keeps, its state, and the record and row of the execution, at a point
of a legal history. -/
structure Tracks (row : Option (Row ι ν)) (g : Progress ι ν)
    (kept : TableRecord κ ι ν × Option MysqlTableRecordState)
    (executed : TableRecord κ ι ν × Option (Row ι ν)) : Prop where
  value : kept.1.value = g.value
  synced : kept.1.Synced row
  pending : kept.2 = summary row.isSome g.last
  executedValue : executed.1.value = g.value
  executedSynced : executed.1.Synced executed.2
  executedRow : executed.2 = match g.last with
    | none => row
    | some .delete => none
    | some _ => some g.committed

theorem Commit.request_value (c : Commit) (t : TableRecord κ ι ν) (row : Option (Row ι ν)) :
    (c.request t row).1.value = t.value := by
  cases c <;> rfl

namespace Tracks

variable {row : Option (Row ι ν)} {g : Progress ι ν}
  {kept : TableRecord κ ι ν × Option MysqlTableRecordState}
  {executed : TableRecord κ ι ν × Option (Row ι ν)}

theorem present (h : Tracks row g kept executed) :
    executed.2.isSome = presentAfter row.isSome g.last := by
  rw [h.executedRow]
  rcases g.last with _ | ⟨_ | _ | _⟩ <;> rfl

/-- The request of an allowed commit makes the row the record, or deletes it. -/
theorem request (h : Tracks row g kept executed) {c : Commit} (hallowed : c.allowed executed.2.isSome = true) :
    (c.request executed.1 executed.2).2 = if c = .delete then none else some g.value := by
  cases c with
  | insert =>
      have hnone : executed.2 = none := by simpa [Commit.allowed] using hallowed
      rw [if_neg (by decide), ← h.executedValue]
      change executed.2.or _ = _
      rw [hnone, Option.none_or]
  | delete => rfl
  | update =>
      have hsome : executed.2 ≠ none := Option.isSome_iff_ne_none.1 hallowed
      rw [if_neg (by decide), ← h.executedValue]
      exact h.executedSynced.updateRequest_row hsome

/-- The flush of the summary of a history and the execution of the history agree, on the row and on whether
the record is left, exactly for the histories that collapse. -/
theorem flush_iff (h : Tracks row g kept executed) :
    flushRow kept.1 row kept.2 = executed.2 ∧ (kept.2 ≠ some .delete ↔ executed.2.isSome = true) ↔
      Collapses row g := by
  rw [h.pending, h.executedRow]
  unfold Collapses
  cases hlast : g.last with
  | none => cases row <;> simp [summary, flushRow]
  | some c =>
      cases c with
      | insert =>
          cases hrow : row with
          | none => simp [summary, flushRow, TableRecord.insertRequest, h.value]
          | some r => simp [summary, flushRow]
      | delete => cases row <;> simp [summary, flushRow, TableRecord.deleteRequest]
      | update =>
          cases hrow : row with
          | none => simp [summary, flushRow, TableRecord.insertRequest, h.value]
          | some r =>
              have hupdate : (kept.1.updateRequest (some r)).2 = some kept.1.value :=
                (hrow ▸ h.synced).updateRequest_row nofun
              simp [summary, flushRow, hupdate, h.value]

end Tracks

section history

variable [DecidableEq ι]

/-- A record and what is to be done for it after one more operation. -/
def keepOne (state : TableRecord κ ι ν × Option MysqlTableRecordState) :
    RecordOp ι ν → TableRecord κ ι ν × Option MysqlTableRecordState
  | .set field data => (state.1.set field data, state.2)
  | .commit c => (state.1, some (c.next state.2))

/-- What the manager keeps of a history. -/
def keep (t : TableRecord κ ι ν) (ops : List (RecordOp ι ν)) :
    TableRecord κ ι ν × Option MysqlTableRecordState := ops.foldl keepOne (t, none)

namespace Tracks

variable {row : Option (Row ι ν)} {g : Progress ι ν}
  {kept : TableRecord κ ι ν × Option MysqlTableRecordState}
  {executed : TableRecord κ ι ν × Option (Row ι ν)}

theorem set (h : Tracks row g kept executed) (field : ι) (data : ν) :
    Tracks row (g.after (.set field data)) (keepOne kept (.set field data))
      (executeOne executed (.set field data)) where
  value := by
    change Function.update kept.1.value field data = Function.update g.value field data
    rw [h.value]
  synced := h.synced.set field data
  pending := h.pending
  executedValue := by
    change Function.update executed.1.value field data = Function.update g.value field data
    rw [h.executedValue]
  executedSynced := h.executedSynced.set field data
  executedRow := h.executedRow

theorem commit (h : Tracks row g kept executed) {c : Commit} (hallowed : c.allowed executed.2.isSome = true) :
    Tracks row (g.after (.commit c)) (keepOne kept (.commit c)) (executeOne executed (.commit c)) where
  value := h.value
  synced := h.synced
  pending := by
    have hnext := summary_next (h.present ▸ hallowed)
    change some (c.next kept.2) = summary row.isSome (some c)
    rw [h.pending, hnext]
  executedValue := (c.request_value executed.1 executed.2).trans h.executedValue
  executedSynced := by
    have hvalue := (c.request_value executed.1 executed.2).trans h.executedValue
    change (c.request executed.1 executed.2).1.Synced (c.request executed.1 executed.2).2
    rw [h.request hallowed]
    split_ifs
    · exact TableRecord.synced_none
    · exact TableRecord.synced_of_value hvalue
  executedRow := by
    change (c.request executed.1 executed.2).2 = _
    rw [h.request hallowed]
    cases c <;> rfl

/-- Every point of a legal history is tracked. -/
theorem foldl (h : Tracks row g kept executed) {ops : List (RecordOp ι ν)}
    (hlegal : Legal executed.2.isSome ops) :
    Tracks row (ops.foldl Progress.after g) (ops.foldl keepOne kept) (ops.foldl executeOne executed) := by
  induction ops generalizing g kept executed with
  | nil => exact h
  | cons op ops ih =>
      cases op with
      | set field data => exact ih (h.set field data) hlegal
      | commit c =>
          obtain ⟨hallowed, hrest⟩ := hlegal
          refine ih (h.commit hallowed) ?_
          rw [(h.commit hallowed).present]
          exact hrest

end Tracks

/-- A record that agrees with its row, and for which nothing is to be done, is tracked along its history. -/
theorem tracks_keep {t : TableRecord κ ι ν} {row : Option (Row ι ν)} (hsynced : t.Synced row)
    {ops : List (RecordOp ι ν)} (hlegal : Legal row.isSome ops) :
    Tracks row (progress t.value ops) (keep t ops) (execute t row ops) :=
  Tracks.foldl ⟨rfl, hsynced, rfl, rfl, hsynced, rfl⟩ hlegal

end history

end JmyGame
