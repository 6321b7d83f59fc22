import JmyGame.MysqlFlush

/-! The flush of a record compared with the execution of what was committed for it, in every run: whatever
happens to other records in between, and in whatever order the records are flushed. -/

namespace JmyGame

variable {κ ι ν : Type} [DecidableEq κ]

/-- What an event does with the record of a key. -/
def RecordEvent.opOn (record : ℕ) (key : κ) : RecordEvent κ ι ν → Option (RecordOp ι ν)
  | .set record' field data => if record' = record then some (.set field data) else none
  | .commit c record' => if record' = record then some (.commit c) else none
  | .commitKey c key' => if key' = key then some (.commit c) else none
  | _ => none

/-- The history of a record. -/
def history (record : ℕ) (key : κ) (es : List (RecordEvent κ ι ν)) : List (RecordOp ι ν) :=
  es.flatMap fun e => (e.opOn record key).toList

namespace RecordsStore

/-- The record of a key and what is to be done for it. -/
structure View (s : RecordsStore κ ι ν) (record : ℕ) (key : κ)
    (kept : TableRecord κ ι ν × Option MysqlTableRecordState) : Prop where
  get : s.get key = some record
  heap : s.heap record = some kept.1
  pending : s.states.find record = kept.2

variable {s s' : RecordsStore κ ι ν} {record record' : ℕ} {key key' : κ}
  {kept : TableRecord κ ι ν × Option MysqlTableRecordState} {c : Commit}

/-- Another record is added. -/
theorem View.add (h : View s record key kept) (hs : s.Coherent) (hget : s.get key' = none)
    {t : TableRecord κ ι ν} : View (s.add key' t).2 record key kept where
  get := by
    have hne : key ≠ key' := fun heq => by
      rw [← heq, h.get] at hget
      cases hget
    rw [hs.get_add hget, if_neg hne]
    exact h.get
  heap := by
    have hne : record ≠ s.next := fun heq => by
      have hheap := h.heap
      rw [heq, hs.fresh s.next le_rfl] at hheap
      cases hheap
    exact (Function.update_of_ne hne _ _).trans h.heap
  pending := h.pending

/-- A commit for the record. -/
theorem View.commit (h : View s record key kept) :
    View ((s.commitRequest c record).mark key c) record key (kept.1, some (c.next kept.2)) where
  get := h.get
  heap := h.heap
  pending := by
    change UnorderedMap.find (c.states s.states record) record = _
    rw [Commit.find_states, if_pos rfl, h.pending]

/-- A commit for another record. -/
theorem View.commit_of_ne (h : View s record key kept) (hne : record ≠ record') :
    View ((s.commitRequest c record').mark key' c) record key kept where
  get := h.get
  heap := h.heap
  pending := by
    change UnorderedMap.find (c.states s.states record') record = _
    rw [Commit.find_states, if_neg hne]
    exact h.pending

omit [DecidableEq κ] in
/-- A record and its key determine each other. -/
theorem View.record_eq_iff (h : View s record key kept) (hget : s.get key' = some record') :
    record' = record ↔ key' = key := by
  constructor
  · rintro rfl
    have hkey' := (s.keyRecordMap.inverse _ _).1 hget
    have hkey := (s.keyRecordMap.inverse _ _).1 h.get
    exact Option.some.inj (hkey'.symm.trans hkey)
  · rintro rfl
    exact Option.some.inj (hget.symm.trans h.get)

section steps

variable [DecidableEq ι] [Inhabited ν]

omit [Inhabited ν] in
/-- A legal commit is an operation on its record alone. -/
theorem View.commit_step (h : View s record key kept) (hget : s.get key' = some record')
    (hallowed : c.allowed (s.present key') = true) :
    View ((s.commitRequest c record').mark key' c) record key
      ((if key' = key then some (RecordOp.commit c) else none).toList.foldl keepOne kept) ∧
    ∀ ops : List (RecordOp ι ν), Legal (((s.commitRequest c record').mark key' c).present key) ops →
      Legal (s.present key) ((if key' = key then some (RecordOp.commit c) else none).toList ++ ops) := by
  by_cases hkey : key' = key
  · obtain rfl := (h.record_eq_iff hget).2 hkey
    subst hkey
    rw [if_pos rfl]
    refine ⟨h.commit, fun ops hlegal => ⟨hallowed, ?_⟩⟩
    unfold mark at hlegal
    dsimp only at hlegal
    rw [Function.update_self] at hlegal
    exact hlegal
  · have hne : record ≠ record' := fun heq => hkey ((h.record_eq_iff hget).1 heq.symm)
    rw [if_neg hkey]
    refine ⟨h.commit_of_ne hne, fun ops hlegal => ?_⟩
    unfold mark at hlegal
    dsimp only at hlegal
    rw [Function.update_of_ne (Ne.symm hkey)] at hlegal
    exact hlegal

/-- What a step other than a flush does with a record: the operations of the event on the record, which are
legal, and nothing to the rows. -/
theorem View.step (h : View s record key kept) (hs : s.Coherent) {e : RecordEvent κ ι ν}
    (hflush : ∀ order, e ≠ .update order) (hstep : s.step e = some s') :
    s'.rows = s.rows ∧ View s' record key ((e.opOn record key).toList.foldl keepOne kept) ∧
      ∀ ops, Legal (s'.present key) ops → Legal (s.present key) ((e.opOn record key).toList ++ ops) := by
  cases e with
  | load key' =>
      unfold RecordsStore.step at hstep
      dsimp only at hstep
      split at hstep
      · rename_i row hget hrow
        obtain rfl := Option.some.inj hstep
        exact ⟨rfl, h.add hs hget, fun _ hlegal => hlegal⟩
      · cases hstep
  | getNew key' =>
      obtain ⟨⟨hget, -⟩, heq⟩ := Option.ite_none_right_eq_some.1 hstep
      obtain rfl := Option.some.inj heq
      exact ⟨rfl, h.add hs hget, fun _ hlegal => hlegal⟩
  | set record' field data =>
      obtain ⟨t, hheap, rfl⟩ := Option.map_eq_some_iff.1 hstep
      unfold RecordEvent.opOn
      by_cases heq : record' = record
      · subst heq
        obtain rfl := Option.some.inj (h.heap.symm.trans hheap)
        dsimp only
        rw [if_pos rfl]
        exact ⟨rfl, ⟨h.get, Function.update_self _ _ _, h.pending⟩, fun _ hlegal => hlegal⟩
      · dsimp only
        rw [if_neg heq]
        refine ⟨rfl, ⟨h.get, ?_, h.pending⟩, fun _ hlegal => hlegal⟩
        exact (Function.update_of_ne (Ne.symm heq) _ _).trans h.heap
  | commit c record' =>
      obtain ⟨key', hfind, hstep⟩ := Option.bind_eq_some_iff.1 hstep
      obtain ⟨hallowed, heq⟩ := Option.ite_none_right_eq_some.1 hstep
      obtain rfl := Option.some.inj heq
      have hget := (s.keyRecordMap.inverse _ _).2 hfind
      unfold RecordEvent.opOn
      simp only [h.record_eq_iff hget]
      exact ⟨rfl, h.commit_step hget hallowed⟩
  | commitKey c key' =>
      obtain ⟨hallowed, heq⟩ := Option.ite_none_right_eq_some.1 hstep
      obtain rfl := Option.some.inj heq
      unfold RecordEvent.opOn
      dsimp only
      cases hget : s.get key' with
      | some record' =>
          rw [commitKey_of_some hget]
          exact ⟨rfl, h.commit_step hget hallowed⟩
      | none =>
          have hne : key' ≠ key := fun heq => by
            rw [heq, h.get] at hget
            cases hget
          rw [commitKey_of_none hget, if_neg hne]
          split_ifs
          · refine ⟨rfl, (h.add hs hget).commit_of_ne ?_, fun ops hlegal => ?_⟩
            · intro heq
              have hheap := h.heap
              rw [heq, hs.fresh s.next le_rfl] at hheap
              cases hheap
            · unfold mark at hlegal
              dsimp only at hlegal
              rw [Function.update_of_ne (Ne.symm hne)] at hlegal
              exact hlegal
          · exact ⟨rfl, h, fun _ hlegal => hlegal⟩
  | update order => exact absurd rfl (hflush order)

/-- What a run without a flush does with a record: its history, which is legal, and nothing to the rows. -/
theorem View.run {es : List (RecordEvent κ ι ν)} (h : View s record key kept) (hs : s.Coherent)
    (hflush : ∀ order, .update order ∉ es) (hrun : (recordsMachine κ ι ν).run s es = some s') :
    s'.Coherent ∧ s'.rows = s.rows ∧ View s' record key ((history record key es).foldl keepOne kept) ∧
      Legal (s.present key) (history record key es) := by
  induction es generalizing s kept with
  | nil =>
      obtain rfl := Option.some.inj hrun
      exact ⟨hs, rfl, h, trivial⟩
  | cons e es ih =>
      obtain ⟨s₁, hstep, hrest⟩ := (recordsMachine κ ι ν).run_cons_eq_some.1 hrun
      have he : ∀ order, e ≠ .update order := fun order heq => hflush order (heq ▸ List.mem_cons_self)
      obtain ⟨hrows₁, hview₁, hlegal₁⟩ := h.step hs he hstep
      obtain ⟨hs', hrows, hview, hlegal⟩ := ih hview₁ (hs.step hstep)
        (fun order hmem => hflush order (List.mem_cons_of_mem e hmem)) hrest
      refine ⟨hs', hrows.trans hrows₁, ?_, hlegal₁ _ hlegal⟩
      rw [history, List.flatMap_cons, List.foldl_append]
      exact hview

/-- A flush of all records does what the commits say to the row of a record, and to the record in the map, if and
only if the history of the record since the last flush collapses. -/
theorem flush_eq_execute_iff (rows : κ → Option (Row ι ν)) {es₀ es : List (RecordEvent κ ι ν)}
    {s s' : RecordsStore κ ι ν} {record : ℕ} {key : κ} {t : TableRecord κ ι ν}
    (hreach : (recordsMachine κ ι ν).run (start rows) es₀ = some s) (hget : s.get key = some record)
    (hheap : s.heap record = some t) (hidle : s.states.find record = none)
    (hrun : (recordsMachine κ ι ν).run s es = some s') (hflush : ∀ order, .update order ∉ es)
    {order : List ℕ} (hnodup : order.Nodup) (hcover : order.toFinset = s'.states.keys) :
    ∃ u, s'.step (.update order) = some u ∧
      (u.rows key = (execute t (s.rows key) (history record key es)).2 ∧
        (u.get key = some record ↔ (execute t (s.rows key) (history record key es)).2.isSome = true) ↔
      Collapses (s.rows key) (progress t.value (history record key es))) := by
  have hstep : ∀ s e s', Coherent s → (recordsMachine κ ι ν).step s e = some s' → Coherent s' :=
    fun _ _ _ hs hs' => Coherent.step hs hs'
  have hs : s.Coherent := Machine.invariant_run hstep (coherent_start rows) hreach
  have hview : View s record key (t, none) := ⟨hget, hheap, hidle⟩
  obtain ⟨hs', hrows, hview', hlegal⟩ := hview.run hs hflush hrun
  -- with nothing to be done the row is there if the commits say so
  have hpresent : s.present key = (s.rows key).isSome := by
    obtain ⟨last, hsummary, hlast⟩ := hs.commits key record hget
    rw [hidle] at hsummary
    rw [hlast, summary_eq_none hsummary.symm]
    rfl
  obtain ⟨t₀, hheap₀, -, hsynced⟩ := hs.keys key record hget
  obtain rfl := Option.some.inj (hheap.symm.trans hheap₀)
  have htracks := tracks_keep hsynced (hpresent ▸ hlegal)
  obtain ⟨u, hu, hflushed⟩ := hs'.update_flushed hnodup hcover
  refine ⟨u, (if_pos ⟨hnodup, hcover⟩).trans hu, ?_⟩
  rw [hflushed.get, hflushed.row key record _ hview'.get hview'.heap, hview'.pending, hrows, ← htracks.flush_iff]
  simp only [hview'.get, true_and]
  rfl

/-- A record is made for key 1, set, inserted and updated. -/
def insertUpdate : List (RecordEvent ℕ Unit ℤ) := [.set 0 () 7, .commit .insert 0, .set 0 () 8, .commit .update 0]

theorem flush_insertUpdate : ∃ s s' u : RecordsStore ℕ Unit ℤ,
    (recordsMachine ℕ Unit ℤ).run (start fun _ => none) [.getNew 1] = some s ∧
    (recordsMachine ℕ Unit ℤ).run s insertUpdate = some s' ∧ s'.step (.update [0]) = some u ∧
    u.rows 1 = some (fun _ => 8) ∧ u.get 1 = some 0 := by
  have hflush : ∀ order, .update order ∉ insertUpdate := by
    intro order hmem
    simp [insertUpdate] at hmem
  obtain ⟨s, s', hreach, hget, hheap, hidle, hrow, hrun, hcover⟩ : ∃ s s' : RecordsStore ℕ Unit ℤ,
      (recordsMachine ℕ Unit ℤ).run (start fun _ => none) [.getNew 1] = some s ∧ s.get 1 = some 0 ∧
      s.heap 0 = some (.make 1) ∧ s.states.find 0 = none ∧ s.rows 1 = none ∧
      (recordsMachine ℕ Unit ℤ).run s insertUpdate = some s' ∧ [0].toFinset = s'.states.keys :=
    ⟨_, _, rfl, rfl, rfl, rfl, rfl, rfl, by decide⟩
  obtain ⟨u, hu, hiff⟩ := flush_eq_execute_iff _ hreach hget hheap hidle hrun hflush (by decide) hcover
  rw [hrow] at hiff
  obtain ⟨hflushed, hmap⟩ := hiff.2 rfl
  exact ⟨s, s', u, hreach, hrun, hu, hflushed, hmap.2 rfl⟩

/-- The row of key 1 is deleted and inserted with another value. -/
def deleteInsert : List (RecordEvent ℕ Unit ℤ) := [.commit .delete 0, .set 0 () 7, .commit .insert 0]

/-- The row keeps the value that it had before. -/
theorem delete_insert_loses_value : ∃ s s' u : RecordsStore ℕ Unit ℤ,
    (recordsMachine ℕ Unit ℤ).run (start fun _ => some fun _ => 5) [.load 1] = some s ∧
    (recordsMachine ℕ Unit ℤ).run s deleteInsert = some s' ∧ s'.step (.update [0]) = some u ∧
    u.rows 1 ≠ (execute (.ofRow 1 fun _ => 5) (s.rows 1) (history 0 1 deleteInsert)).2 := by
  refine ⟨_, _, _, rfl, rfl, rfl, fun heq => ?_⟩
  have hvalue := congrArg (Option.map fun row => row ()) heq
  revert hvalue
  decide

end steps

end RecordsStore

end JmyGame
