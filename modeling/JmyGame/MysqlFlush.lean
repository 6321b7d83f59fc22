import JmyGame.MysqlCollapse

/-! The store of a table over its runs: records, their states and the rows stay coherent, whatever legal
commits come and in whatever order `update` takes the records. A flush does to each record what is to
be done for it. -/

namespace JmyGame

namespace RecordsStore

variable {κ ι ν : Type}

/-- Records are found under their keys and agree with their rows where they are not changed; records with a
state are found; and the states are those of the legal commits since the last flush. -/
structure Coherent (s : RecordsStore κ ι ν) : Prop where
  keys : ∀ key record, s.get key = some record →
    ∃ t, s.heap record = some t ∧ t.key = key ∧ t.Synced (s.rows key)
  fresh : ∀ record, s.next ≤ record → s.heap record = none
  owned : ∀ record, s.states.find record ≠ none → ∃ key, s.get key = some record
  unloaded : ∀ key, s.get key = none → s.present key = (s.rows key).isSome
  commits : ∀ key record, s.get key = some record → ∃ last,
    s.states.find record = summary (s.rows key).isSome last ∧
      s.present key = presentAfter (s.rows key).isSome last

theorem coherent_start (rows : κ → Option (Row ι ν)) : (start rows).Coherent where
  keys _ _ h := by cases h
  fresh _ _ := rfl
  owned _ h := absurd UnorderedMap.find_empty h
  unloaded _ _ := rfl
  commits _ _ h := by cases h

variable [DecidableEq κ]

/-- A record is flushed: its row is written, and it is removed when it is deleted. -/
def flushOne (s : RecordsStore κ ι ν) (record : ℕ) (t : TableRecord κ ι ν) : RecordsStore κ ι ν :=
  { s with
    rows := Function.update s.rows t.key (flushRow t (s.rows t.key) (s.states.find record))
    heap := Function.update s.heap record (if s.states.find record = some .delete then none
      else some (flushRecord t (s.rows t.key) (s.states.find record)))
    keyRecordMap := if s.states.find record = some .delete then (s.keyRecordMap.remove2 record).2
      else s.keyRecordMap }

variable {s : RecordsStore κ ι ν} {record : ℕ} {t : TableRecord κ ι ν}

/-- A record for which nothing is to be done stays as it is. -/
theorem flushOne_of_idle (hheap : s.heap record = some t)
    (hstate : s.states.find record = none ∨ s.states.find record = some .none) : s.flushOne record t = s := by
  have hrow : flushRow t (s.rows t.key) (s.states.find record) = s.rows t.key := by
    rcases hstate with h | h <;> rw [h] <;> rfl
  have hrecord : flushRecord t (s.rows t.key) (s.states.find record) = t := by
    rcases hstate with h | h <;> rw [h] <;> rfl
  have hne : s.states.find record ≠ some .delete := by
    rcases hstate with h | h <;> rw [h] <;> nofun
  unfold flushOne
  rw [hrow, hrecord, if_neg hne, if_neg hne, Function.update_eq_self, ← hheap, Function.update_eq_self]

/-- `update` flushes one record after the other. -/
theorem updateLoop_cons (hget : s.get t.key = some record) (hheap : s.heap record = some t) (order : List ℕ) :
    updateLoop (fun _ => true) (record :: order) s = updateLoop (fun _ => true) order (s.flushOne record t) := by
  have hfind2 : s.keyRecordMap.find2 record = some t.key := (s.keyRecordMap.inverse _ _).1 hget
  rw [updateLoop]
  unfold updateOneRecord
  cases hstate : s.states.find record with
  | none =>
      rw [flushOne_of_idle hheap (Or.inl hstate)]
      rfl
  | some state =>
      cases state with
      | none =>
          rw [flushOne_of_idle hheap (Or.inr hstate)]
          rfl
      | insert =>
          unfold request flushOne
          rw [hheap, hstate]
          rfl
      | delete =>
          unfold request flushOne
          rw [hheap, hstate]
          change updateLoop _ order (remove { s with
            heap := Function.update s.heap record (some t)
            rows := Function.update s.rows t.key none } record).2 = _
          unfold remove
          rw [hfind2]
          dsimp only
          rw [Function.update_idem]
          rfl
      | update =>
          unfold request flushOne
          rw [hheap, hstate]
          rfl

theorem get_flushOne {key : κ} {record' : ℕ} : (s.flushOne record t).get key = some record' ↔
    s.get key = some record' ∧ (record' = record → s.states.find record ≠ some .delete) := by
  unfold flushOne get
  dsimp only
  by_cases hdelete : s.states.find record = some .delete
  · rw [if_pos hdelete, BiMap.remove2_find1]
    exact and_congr_right fun _ => ⟨fun hne heq => absurd heq hne, fun himp heq => himp heq hdelete⟩
  · rw [if_neg hdelete]
    exact ⟨fun h => ⟨h, fun _ => hdelete⟩, And.left⟩

theorem rows_flushOne_of_ne {key : κ} (h : key ≠ t.key) : (s.flushOne record t).rows key = s.rows key :=
  Function.update_of_ne h _ _

theorem heap_flushOne_of_ne {record' : ℕ} (h : record' ≠ record) :
    (s.flushOne record t).heap record' = s.heap record' :=
  Function.update_of_ne h _ _

/-- Records are found under their keys. -/
def Keyed (s : RecordsStore κ ι ν) : Prop :=
  ∀ key record, s.get key = some record → ∃ t, s.heap record = some t ∧ t.key = key

omit [DecidableEq κ] in
theorem Coherent.keyed (h : s.Coherent) : s.Keyed := by
  intro key record hget
  obtain ⟨t, hheap, hkey, -⟩ := h.keys key record hget
  exact ⟨t, hheap, hkey⟩

/-- A record that is flushed and not deleted. -/
theorem heap_flushOne_self (hstate : s.states.find record ≠ some .delete) :
    (s.flushOne record t).heap record = some (flushRecord t (s.rows t.key) (s.states.find record)) := by
  unfold flushOne
  dsimp only
  rw [Function.update_self, if_neg hstate]

/-- A record stays under its key when it is flushed. -/
theorem Keyed.flushOne (h : s.Keyed) (hheap : s.heap record = some t) : (s.flushOne record t).Keyed := by
  intro key record' hget
  obtain ⟨hget', hstate⟩ := get_flushOne.1 hget
  obtain ⟨t', hheap', hkey⟩ := h key record' hget'
  by_cases heq : record' = record
  · subst heq
    obtain rfl := Option.some.inj (hheap.symm.trans hheap')
    exact ⟨_, heap_flushOne_self (hstate rfl), (flushRecord_key _ _ _).trans hkey⟩
  · exact ⟨t', (heap_flushOne_of_ne heq).trans hheap', hkey⟩

/-- What is to be done for each record is done. -/
structure Flushed (s : RecordsStore κ ι ν) (pending : ℕ → Option MysqlTableRecordState)
    (u : RecordsStore κ ι ν) : Prop where
  states : u.states = ∅
  next : u.next = s.next
  present : u.present = s.present
  get : ∀ key record, u.get key = some record ↔ s.get key = some record ∧ pending record ≠ some .delete
  row : ∀ key record t, s.get key = some record → s.heap record = some t →
    u.rows key = flushRow t (s.rows key) (pending record)
  record : ∀ key record t, s.get key = some record → s.heap record = some t → pending record ≠ some .delete →
    u.heap record = some (flushRecord t (s.rows key) (pending record))
  other : ∀ key, s.get key = none → u.rows key = s.rows key
  freed : ∀ record, s.heap record = none → u.heap record = none

omit [DecidableEq κ] in
/-- Nothing is to be done. -/
theorem flushed_nil (s : RecordsStore κ ι ν) : Flushed s (fun _ => none) { s with states := ∅ } where
  states := rfl
  next := rfl
  present := rfl
  get _ _ := ⟨fun h => ⟨h, nofun⟩, And.left⟩
  row _ _ _ _ _ := rfl
  record _ _ _ _ hheap _ := hheap
  other _ _ := rfl
  freed _ h := h

/-- The flush of one record, and then of others. -/
theorem Flushed.cons {u : RecordsStore κ ι ν} {pending : ℕ → Option MysqlTableRecordState} (hkeyed : s.Keyed)
    (hget : s.get t.key = some record) (hheap : s.heap record = some t) (hdone : pending record = none)
    (h : Flushed (s.flushOne record t) pending u) :
    Flushed s (Function.update pending record (s.states.find record)) u := by
  have hself : ∀ key, s.get key = some record → key = t.key := by
    intro key hkey
    obtain ⟨t', hheap', hkey'⟩ := hkeyed key record hkey
    obtain rfl := Option.some.inj (hheap.symm.trans hheap')
    exact hkey'.symm
  have hother : ∀ key record', s.get key = some record' → record' ≠ record → key ≠ t.key := by
    intro key record' hkey hne heq
    rw [heq, hget] at hkey
    exact hne (Option.some.inj hkey).symm
  -- the row of the record is not touched any more
  have hrow : u.rows t.key = (s.flushOne record t).rows t.key := by
    by_cases hdelete : s.states.find record = some .delete
    · apply h.other
      rw [Option.eq_none_iff_forall_ne_some]
      intro record' hget'
      obtain ⟨hget', hstate⟩ := get_flushOne.1 hget'
      exact hstate (Option.some.inj (hget'.symm.trans hget)) hdelete
    · rw [h.row t.key record _ (get_flushOne.2 ⟨hget, fun _ => hdelete⟩) (heap_flushOne_self hdelete), hdone]
      rfl
  constructor
  · exact h.states
  · exact h.next
  · exact h.present
  · intro key record'
    rw [h.get, get_flushOne]
    by_cases heq : record' = record
    · rw [heq, hdone, Function.update_self]
      exact ⟨fun h' => ⟨h'.1.1, h'.1.2 rfl⟩, fun h' => ⟨⟨h'.1, fun _ => h'.2⟩, nofun⟩⟩
    · rw [Function.update_of_ne heq]
      exact ⟨fun h' => ⟨h'.1.1, h'.2⟩, fun h' => ⟨⟨h'.1, fun heq' => absurd heq' heq⟩, h'.2⟩⟩
  · intro key record' t' hget' hheap'
    by_cases heq : record' = record
    · subst heq
      obtain rfl := Option.some.inj (hheap.symm.trans hheap')
      obtain rfl := hself key hget'
      rw [hrow, Function.update_self]
      exact Function.update_self _ _ _
    · have hkey := hother key record' hget' heq
      rw [h.row key record' t' (get_flushOne.2 ⟨hget', fun heq' => absurd heq' heq⟩)
        ((heap_flushOne_of_ne heq).trans hheap'), rows_flushOne_of_ne hkey, Function.update_of_ne heq]
  · intro key record' t' hget' hheap' hstate
    by_cases heq : record' = record
    · subst heq
      obtain rfl := Option.some.inj (hheap.symm.trans hheap')
      obtain rfl := hself key hget'
      rw [Function.update_self] at hstate ⊢
      have hnone : pending record' ≠ some .delete := by rw [hdone]; nofun
      rw [h.record _ record' _ (get_flushOne.2 ⟨hget, fun _ => hstate⟩) (heap_flushOne_self hstate) hnone, hdone]
      rfl
    · have hkey := hother key record' hget' heq
      rw [Function.update_of_ne heq] at hstate ⊢
      rw [h.record key record' t' (get_flushOne.2 ⟨hget', fun heq' => absurd heq' heq⟩)
        ((heap_flushOne_of_ne heq).trans hheap') hstate, rows_flushOne_of_ne hkey]
  · intro key hnone
    have hkey : key ≠ t.key := fun heq => by rw [heq, hget] at hnone; cases hnone
    rw [h.other key, rows_flushOne_of_ne hkey]
    rw [Option.eq_none_iff_forall_ne_some]
    intro record' hget'
    exact absurd ((get_flushOne.1 hget').1.symm.trans hnone) nofun
  · intro record' hnone
    have hne : record' ≠ record := fun heq => by rw [heq, hheap] at hnone; cases hnone
    exact h.freed record' ((heap_flushOne_of_ne hne).trans hnone)

/-- `update` comes to an end, and does for each record of its order what is to be done for it. -/
theorem updateLoop_flushed {order : List ℕ} (hnodup : order.Nodup) (hkeyed : s.Keyed)
    (howned : ∀ record ∈ order, ∃ key, s.get key = some record) :
    ∃ u, updateLoop (fun _ => true) order s = some u ∧
      Flushed s (fun record => if record ∈ order then s.states.find record else none) u := by
  induction order generalizing s with
  | nil => exact ⟨_, rfl, flushed_nil s⟩
  | cons record order ih =>
      obtain ⟨hnotin, hnodup⟩ := List.nodup_cons.1 hnodup
      obtain ⟨key, hget⟩ := howned record List.mem_cons_self
      obtain ⟨t, hheap, rfl⟩ := hkeyed key record hget
      have howned' : ∀ record' ∈ order, ∃ key, (s.flushOne record t).get key = some record' := by
        intro record' hmem
        obtain ⟨key', hget'⟩ := howned record' (List.mem_cons_of_mem record hmem)
        exact ⟨key', get_flushOne.2 ⟨hget', fun heq => absurd (heq ▸ hmem) hnotin⟩⟩
      obtain ⟨u, hu, hflushed⟩ := ih hnodup (hkeyed.flushOne hheap) howned'
      refine ⟨u, (updateLoop_cons hget hheap order).trans hu, ?_⟩
      have hcons := Flushed.cons hkeyed hget hheap (if_neg hnotin) hflushed
      convert hcons using 1
      funext record'
      by_cases heq : record' = record
      · rw [heq, Function.update_self, if_pos List.mem_cons_self]
      · rw [Function.update_of_ne heq]
        simp only [List.mem_cons, heq, false_or]
        rfl

/-- In whatever order `update` takes the records with states, it does what is to be done for each. -/
theorem Coherent.update_flushed (h : s.Coherent) {order : List ℕ} (hnodup : order.Nodup)
    (hcover : order.toFinset = s.states.keys) :
    ∃ u, s.update (fun _ => true) order = some u ∧ Flushed s s.states.find u := by
  have hmem : ∀ record, record ∈ order ↔ s.states.find record ≠ none := by
    intro record
    rw [← List.mem_toFinset, hcover, UnorderedMap.mem_keys]
  obtain ⟨u, hu, hflushed⟩ := updateLoop_flushed hnodup h.keyed fun record hrecord =>
    h.owned record ((hmem record).1 hrecord)
  refine ⟨u, hu, ?_⟩
  convert hflushed using 1
  funext record
  split_ifs with hrecord
  · rfl
  · exact not_not.1 ((hmem record).not.1 hrecord)

omit [DecidableEq κ] in
/-- A record that is not in the heap has no state. -/
theorem Coherent.find_next (h : s.Coherent) : s.states.find s.next = none := by
  by_contra hne
  obtain ⟨key, hget⟩ := h.owned s.next hne
  obtain ⟨t, hheap, -⟩ := h.keys key s.next hget
  rw [h.fresh s.next le_rfl] at hheap
  cases hheap

omit [DecidableEq κ] in
/-- The record that comes next is under no key. -/
theorem Coherent.find2_next (h : s.Coherent) : s.keyRecordMap.find2 s.next = none := by
  by_contra hne
  obtain ⟨key, hfind⟩ := Option.ne_none_iff_exists'.1 hne
  obtain ⟨t, hheap, -⟩ := h.keys key s.next ((s.keyRecordMap.inverse _ _).2 hfind)
  rw [h.fresh s.next le_rfl] at hheap
  cases hheap

theorem Coherent.get_add (h : s.Coherent) {key key' : κ} (hget : s.get key = none) :
    (s.add key t).2.get key' = if key' = key then some s.next else s.get key' :=
  (BiMap.insert_of_absent hget h.find2_next).2 key'

/-- A new record that agrees with its row. -/
theorem Coherent.add (h : s.Coherent) (hget : s.get t.key = none) (hsynced : t.Synced (s.rows t.key)) :
    (s.add t.key t).2.Coherent where
  keys key record hkey := by
    rw [h.get_add hget] at hkey
    split_ifs at hkey with heq
    · obtain rfl := Option.some.inj hkey
      exact ⟨t, Function.update_self _ _ _, heq.symm, heq ▸ hsynced⟩
    · obtain ⟨t', hheap, hrest⟩ := h.keys key record hkey
      refine ⟨t', ?_, hrest⟩
      have hne : record ≠ s.next := fun heq' => by rw [heq', h.fresh _ le_rfl] at hheap; cases hheap
      exact (Function.update_of_ne hne _ _).trans hheap
  fresh record hrecord := by
    change s.next + 1 ≤ record at hrecord
    have hne : record ≠ s.next := by omega
    exact (Function.update_of_ne hne _ _).trans (h.fresh record (by omega))
  owned record hstate := by
    obtain ⟨key, hkey⟩ := h.owned record hstate
    refine ⟨key, ?_⟩
    have hne : key ≠ t.key := fun heq => by rw [heq, hget] at hkey; cases hkey
    rw [h.get_add hget, if_neg hne]
    exact hkey
  unloaded key hnone := by
    rw [h.get_add hget] at hnone
    split_ifs at hnone
    exact h.unloaded key hnone
  commits key record hkey := by
    rw [h.get_add hget] at hkey
    split_ifs at hkey with heq
    · obtain rfl := Option.some.inj hkey
      refine ⟨none, h.find_next, ?_⟩
      exact h.unloaded key (heq ▸ hget)
    · exact h.commits key record hkey

omit [DecidableEq κ] in
/-- A field is set. -/
theorem Coherent.set [DecidableEq ι] (h : s.Coherent) (hheap : s.heap record = some t) (field : ι) (data : ν) :
    Coherent { s with heap := Function.update s.heap record (some (t.set field data)) } where
  keys key record' hkey := by
    obtain ⟨t', hheap', hkey', hsynced⟩ := h.keys key record' hkey
    by_cases heq : record' = record
    · subst heq
      obtain rfl := Option.some.inj (hheap.symm.trans hheap')
      exact ⟨_, Function.update_self _ _ _, hkey', hsynced.set field data⟩
    · exact ⟨t', (Function.update_of_ne heq _ _).trans hheap', hkey', hsynced⟩
  fresh record' hrecord := by
    have hne : record' ≠ record := fun heq => by
      rw [← heq, h.fresh record' hrecord] at hheap
      cases hheap
    exact (Function.update_of_ne hne _ _).trans (h.fresh record' hrecord)
  owned := h.owned
  unloaded := h.unloaded
  commits := h.commits

/-- A legal commit for a record. -/
theorem Coherent.commit (h : s.Coherent) {key : κ} {c : Commit} (hget : s.get key = some record)
    (hallowed : c.allowed (s.present key) = true) : ((s.commitRequest c record).mark key c).Coherent where
  keys := h.keys
  fresh := h.fresh
  owned record' hstate := by
    change UnorderedMap.find (c.states s.states record) record' ≠ none at hstate
    rw [Commit.find_states] at hstate
    split_ifs at hstate with heq
    · exact ⟨key, heq ▸ hget⟩
    · exact h.owned record' hstate
  unloaded key' hnone := by
    have hne : key' ≠ key := fun heq => by rw [heq] at hnone; cases hget.symm.trans hnone
    exact (Function.update_of_ne hne _ _).trans (h.unloaded key' hnone)
  commits key' record' hkey := by
    obtain ⟨last, hstate, hpresent⟩ := h.commits key' record' hkey
    change ∃ last, UnorderedMap.find (c.states s.states record) record' = _ ∧
      Function.update s.present key c.present key' = _
    rw [Commit.find_states]
    by_cases heq : record' = record
    · subst heq
      obtain rfl : key' = key := by
        have h1 := (s.keyRecordMap.inverse _ _).1 hkey
        have h2 := (s.keyRecordMap.inverse _ _).1 hget
        exact Option.some.inj (h1.symm.trans h2)
      refine ⟨some c, ?_, Function.update_self _ _ _⟩
      rw [if_pos rfl, hstate]
      exact summary_next (hpresent ▸ hallowed)
    · have hne : key' ≠ key := fun heq' => by
        rw [heq'] at hkey
        exact heq (Option.some.inj (hkey.symm.trans hget))
      rw [if_neg heq, Function.update_of_ne hne]
      exact ⟨last, hstate, hpresent⟩

omit [DecidableEq κ] in
/-- After a flush the rows are there that the commits say. -/
theorem Coherent.present_flushed (h : s.Coherent) {u : RecordsStore κ ι ν} (hu : Flushed s s.states.find u) {key : κ}
    (hget : s.get key = some record) : u.present key = (u.rows key).isSome := by
  obtain ⟨t, hheap, -, hsynced⟩ := h.keys key record hget
  obtain ⟨last, hsummary, hpresent⟩ := h.commits key record hget
  rw [hu.present, hu.row key record t hget hheap, hsummary, hpresent]
  exact (flush_summary hsynced last).1.symm

omit [DecidableEq κ] in
/-- A flush leaves the store coherent. -/
theorem Coherent.flushed (h : s.Coherent) {u : RecordsStore κ ι ν} (hu : Flushed s s.states.find u) :
    u.Coherent where
  keys key record hget := by
    obtain ⟨hget, hstate⟩ := (hu.get key record).1 hget
    obtain ⟨t, hheap, hkey, hsynced⟩ := h.keys key record hget
    obtain ⟨last, hsummary, -⟩ := h.commits key record hget
    refine ⟨_, hu.record key record t hget hheap hstate, (flushRecord_key _ _ _).trans hkey, ?_⟩
    rw [hu.row key record t hget hheap]
    rw [hsummary] at hstate ⊢
    exact (flush_summary hsynced last).2 hstate
  fresh record hrecord := hu.freed record (h.fresh record (hu.next ▸ hrecord))
  owned record hstate := by
    rw [hu.states] at hstate
    exact absurd UnorderedMap.find_empty hstate
  unloaded key hnone := by
    cases hget : s.get key with
    | none => rw [hu.present, hu.other key hget, h.unloaded key hget]
    | some record => exact h.present_flushed hu hget
  commits key record hget := by
    refine ⟨none, ?_, h.present_flushed hu ((hu.get key record).1 hget).1⟩
    rw [hu.states]
    exact UnorderedMap.find_empty

section steps

variable [DecidableEq ι] [Inhabited ν] {s' : RecordsStore κ ι ν}

omit [DecidableEq ι] in
/-- A new record for a key without a row. -/
theorem Coherent.getNew (h : s.Coherent) {key : κ} (hget : s.get key = none) (hpresent : s.present key = false) :
    (s.getNew key).2.Coherent := by
  have hrow : s.rows key = none := by
    rw [h.unloaded key hget] at hpresent
    simpa using hpresent
  refine Coherent.add (t := .make key) h hget ?_
  change TableRecord.Synced _ (s.rows key)
  rw [hrow]
  exact TableRecord.synced_none

omit [DecidableEq ι] in
theorem commitKey_of_some {key : κ} {c : Commit} (hget : s.get key = some record) :
    s.commitKey c key = (s.commitRequest c record).mark key c := by
  cases c <;> simp only [RecordsStore.commitKey, commitInsertRequest, commitKeyRequest, hget]

omit [DecidableEq ι] in
theorem commitKey_of_none {key : κ} {c : Commit} (hget : s.get key = none) :
    s.commitKey c key =
      if c = .insert then ((s.getNew key).2.commitRequest c s.next).mark key c else s := by
  cases c <;> simp only [RecordsStore.commitKey, commitInsertRequest, commitKeyRequest, hget] <;> rfl

omit [DecidableEq ι] in
/-- A legal commit for a key. -/
theorem Coherent.commitKey (h : s.Coherent) {key : κ} {c : Commit} (hallowed : c.allowed (s.present key) = true) :
    (s.commitKey c key).Coherent := by
  cases hget : s.get key with
  | some record =>
      rw [commitKey_of_some hget]
      exact h.commit hget hallowed
  | none =>
      rw [commitKey_of_none hget]
      split_ifs with hinsert
      · subst hinsert
        have hnew := h.getNew hget (by simpa [Commit.allowed] using hallowed)
        have hfound : (s.getNew key).2.get key = some s.next := by
          rw [RecordsStore.getNew, h.get_add hget, if_pos rfl]
        exact hnew.commit hfound hallowed
      · exact h

/-- Every step keeps the store coherent. -/
theorem Coherent.step (h : s.Coherent) {e : RecordEvent κ ι ν} (hstep : s.step e = some s') : s'.Coherent := by
  cases e with
  | load key =>
      unfold RecordsStore.step at hstep
      dsimp only at hstep
      split at hstep
      · rename_i row hget hrow
        obtain rfl := Option.some.inj hstep
        refine Coherent.add (t := .ofRow key row) h hget ?_
        change TableRecord.Synced _ (s.rows key)
        rw [hrow]
        exact TableRecord.synced_of_value rfl
      · cases hstep
  | getNew key =>
      obtain ⟨⟨hget, hpresent⟩, heq⟩ := Option.ite_none_right_eq_some.1 hstep
      obtain rfl := Option.some.inj heq
      exact h.getNew hget hpresent
  | set record field data =>
      obtain ⟨t, hheap, rfl⟩ := Option.map_eq_some_iff.1 hstep
      exact h.set hheap field data
  | commit c record =>
      obtain ⟨key, hfind, hstep⟩ := Option.bind_eq_some_iff.1 hstep
      obtain ⟨hallowed, heq⟩ := Option.ite_none_right_eq_some.1 hstep
      obtain rfl := Option.some.inj heq
      exact h.commit ((s.keyRecordMap.inverse _ _).2 hfind) hallowed
  | commitKey c key =>
      obtain ⟨hallowed, heq⟩ := Option.ite_none_right_eq_some.1 hstep
      obtain rfl := Option.some.inj heq
      exact h.commitKey hallowed
  | update order =>
      obtain ⟨⟨hnodup, hcover⟩, hupdate⟩ := Option.ite_none_right_eq_some.1 hstep
      obtain ⟨u, hu, hflushed⟩ := h.update_flushed hnodup hcover
      obtain rfl := Option.some.inj (hu.symm.trans hupdate)
      exact h.flushed hflushed

end steps

end RecordsStore

end JmyGame
