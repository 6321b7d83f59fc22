import JmyGame.MysqlCollapse
import JmyGame.MysqlRecords2

/-! The two keys of a record over the runs of `mysql_records_manager2`. The maps and the states stay in step with
the records exactly as long as no key is given to a second record, no record is freed that has a state, and
`remove_record` finds no first key. -/

namespace JmyGame

namespace RecordsStore2

variable {κ κ₂ τ : Type}

/-- Records that are found by a key or that have a state are not freed; a record that is not removed is found by the
keys that it was made with; and a removal that returned false has not changed the maps. -/
structure Consistent (s : RecordsStore2 κ κ₂ τ) : Prop where
  live : ∀ key record, s.getByKey key = some record → s.heap record ≠ none
  live2 : ∀ key2 record, s.getByKey2 key2 = some record → s.heap record ≠ none
  pending : ∀ record, s.states.find record ≠ none → s.heap record ≠ none
  made : ∀ record keys, s.made record = some keys →
    (∀ key ∈ keys.1, s.getByKey key = some record) ∧ ∀ key2 ∈ keys.2, s.getByKey2 key2 = some record
  refused : ∀ r ∈ s.refused, r.1 = r.2

theorem consistent_start : (start : RecordsStore2 κ κ₂ τ).Consistent where
  live _ _ h := by cases h
  live2 _ _ h := by cases h
  pending _ h := absurd UnorderedMap.find_empty h
  made _ _ h := by cases h
  refused _ h := by cases h

variable {s s' : RecordsStore2 κ κ₂ τ} {record : ℕ}

/-- An address that is free is in no map and has no state. -/
theorem Consistent.of_free (h : s.Consistent) (hfree : s.heap record = none) :
    s.keyRecordMap.find2 record = none ∧ s.key2RecordMap.find2 record = none ∧ s.states.find record = none := by
  refine ⟨?_, ?_, not_not.1 fun hne => h.pending record hne hfree⟩
  · rw [Option.eq_none_iff_forall_ne_some]
    exact fun key hkey => h.live key record ((s.keyRecordMap.inverse key record).2 hkey) hfree
  · rw [Option.eq_none_iff_forall_ne_some]
    exact fun key2 hkey => h.live2 key2 record ((s.key2RecordMap.inverse key2 record).2 hkey) hfree

variable [DecidableEq κ] [DecidableEq κ₂]

/-- The entry of a new record, when it has a key. -/
theorem find1_elim_insert {m : BiMap κ ℕ} (key : Option κ) (hrecord : m.find2 record = none) :
    (∀ k r, (key.elim m fun k => (m.insert k record).2).find1 k = some r → m.find1 k = some r ∨ r = record) ∧
      (∀ k r, m.find1 k = some r → (key.elim m fun k => (m.insert k record).2).find1 k = some r) ∧
      ((∀ k ∈ key, (key.elim m fun k => (m.insert k record).2).find1 k = some record) ↔
        ∀ k ∈ key, m.find1 k = none) := by
  cases key with
  | none => exact ⟨fun _ _ h => Or.inl h, fun _ _ h => h, iff_of_true nofun nofun⟩
  | some key =>
      refine ⟨fun k r h => ?_, fun k r h => BiMap.find1_insert_of_some h, ?_⟩
      · rcases BiMap.insert_find1 h with hold | ⟨-, -, hr⟩
        · exact Or.inl hold
        · exact Or.inr hr
      · simp only [Option.mem_some_iff, forall_eq', Option.elim_some]
        constructor
        · intro hfind
          by_contra hne
          rw [BiMap.insert_of_present (Or.inl hne)] at hfind
          rw [BiMap.find1, m.inverse, ← BiMap.find2, hrecord] at hfind
          cases hfind
        · intro hnone
          rw [(BiMap.insert_of_absent hnone hrecord).2, if_pos rfl]

/-- A new record is found by its keys exactly when they were free. -/
theorem Consistent.getNew_iff [Inhabited τ] (h : s.Consistent) {key : Option κ} {key2 : Option κ₂}
    (hnew : s.getNew key key2 record = some s') :
    s'.Consistent ↔ (∀ k ∈ key, s.getByKey k = none) ∧ ∀ k ∈ key2, s.getByKey2 k = none := by
  obtain ⟨s₁, hmalloc, rfl⟩ := Option.map_eq_some_iff.1 hnew
  obtain ⟨hfree, heq⟩ := Option.ite_none_right_eq_some.1 hmalloc
  obtain rfl := Option.some.inj heq
  obtain ⟨hkey, hkey2, -⟩ := h.of_free hfree
  obtain ⟨hold, hkeep, hmade⟩ := find1_elim_insert key hkey
  obtain ⟨hold2, hkeep2, hmade2⟩ := find1_elim_insert key2 hkey2
  have hlive : ∀ r, s.heap r ≠ none ∨ r = record → Function.update s.heap record (some default) r ≠ none := by
    intro r hr
    by_cases heq : r = record
    · rw [heq, Function.update_self]
      exact Option.some_ne_none _
    · rw [Function.update_of_ne heq]
      exact hr.resolve_right heq
  constructor
  · intro h'
    obtain ⟨hfirst, hsecond⟩ := h'.made record (key, key2) (Function.update_self _ _ _)
    exact ⟨hmade.1 hfirst, hmade2.1 hsecond⟩
  · rintro ⟨hfirst, hsecond⟩
    refine ⟨?_, ?_, ?_, ?_, h.refused⟩
    · exact fun k r hr => hlive r ((hold k r hr).imp_left (h.live k r))
    · exact fun k r hr => hlive r ((hold2 k r hr).imp_left (h.live2 k r))
    · exact fun r hr => hlive r (Or.inl (h.pending r hr))
    · intro r keys hr
      change Function.update s.made record (some (key, key2)) r = some keys at hr
      by_cases heq : r = record
      · rw [heq, Function.update_self] at hr
        obtain rfl := Option.some.inj hr
        rw [heq]
        exact ⟨hmade.2 hfirst, hmade2.2 hsecond⟩
      · rw [Function.update_of_ne heq] at hr
        obtain ⟨hk, hk2⟩ := h.made r keys hr
        exact ⟨fun k hmem => hkeep k r (hk k hmem), fun k hmem => hkeep2 k r (hk2 k hmem)⟩

omit [DecidableEq κ₂] in
theorem Consistent.insertKeyRecord (h : s.Consistent) (hlive : s.heap record ≠ none) (key : κ) :
    (s.insertKeyRecord key record).2.Consistent := by
  unfold RecordsStore2.insertKeyRecord
  split_ifs
  · exact h
  · refine ⟨fun k r hr => ?_, h.live2, h.pending, fun r keys hr => ⟨fun k hk => ?_, (h.made r keys hr).2⟩, h.refused⟩
    · rcases BiMap.insert_find1 hr with hold | ⟨-, -, rfl⟩
      · exact h.live k r hold
      · exact hlive
    · exact BiMap.find1_insert_of_some ((h.made r keys hr).1 k hk)
  · exact h

omit [DecidableEq κ] in
theorem Consistent.insertKey2Record (h : s.Consistent) (hlive : s.heap record ≠ none) (key2 : κ₂) :
    (s.insertKey2Record key2 record).2.Consistent := by
  unfold RecordsStore2.insertKey2Record
  split_ifs
  · exact h
  · refine ⟨h.live, fun k r hr => ?_, h.pending, fun r keys hr => ⟨(h.made r keys hr).1, fun k hk => ?_⟩, h.refused⟩
    · rcases BiMap.insert_find1 hr with hold | ⟨-, -, rfl⟩
      · exact h.live2 k r hold
      · exact hlive
    · exact BiMap.find1_insert_of_some ((h.made r keys hr).2 k hk)
  · exact h

omit [DecidableEq κ] [DecidableEq κ₂] in
/-- The record of a removal that returned false and changed nothing. -/
theorem Consistent.refuse (h : s.Consistent) :
    { s with refused := s.refused ++ [(s.toKeyMaps, s.toKeyMaps)] }.Consistent where
  live := h.live
  live2 := h.live2
  pending := h.pending
  made := h.made
  refused r hr := by
    rcases List.mem_append.1 hr with hr | hr
    · exact h.refused r hr
    · rw [List.mem_singleton.1 hr]

omit [DecidableEq κ] [DecidableEq κ₂] in
/-- A record that is freed and in no map any more: it must not have a state. -/
theorem Consistent.free_iff (h : s.Consistent) (hlive : s.heap record ≠ none) {maps : KeyMaps κ κ₂}
    (hkey : ∀ k r, maps.keyRecordMap.find1 k = some r ↔ s.getByKey k = some r ∧ r ≠ record)
    (hkey2 : ∀ k r, maps.key2RecordMap.find1 k = some r ↔ s.getByKey2 k = some r ∧ r ≠ record) :
    ({ s with toKeyMaps := maps }.free record).Consistent ↔ s.states.find record = none := by
  constructor
  · intro h'
    by_contra hne
    exact h'.pending record hne (Function.update_self _ _ _)
  · intro hidle
    have hheap : ∀ r, r ≠ record → Function.update s.heap record none r = s.heap r :=
      fun r hr => Function.update_of_ne hr _ _
    refine ⟨?_, ?_, ?_, ?_, h.refused⟩
    · intro k r hr
      obtain ⟨hr, hne⟩ := (hkey k r).1 hr
      exact fun hnone => h.live k r hr ((hheap r hne).symm.trans hnone)
    · intro k r hr
      obtain ⟨hr, hne⟩ := (hkey2 k r).1 hr
      exact fun hnone => h.live2 k r hr ((hheap r hne).symm.trans hnone)
    · intro r hr hnone
      have hne : r ≠ record := fun heq => hr (heq ▸ hidle)
      exact h.pending r hr ((hheap r hne).symm.trans hnone)
    · intro r keys hr
      change Function.update s.made record none r = some keys at hr
      have hne : r ≠ record := by
        rintro rfl
        rw [Function.update_self] at hr
        cases hr
      rw [Function.update_of_ne hne] at hr
      obtain ⟨hk, hk2⟩ := h.made r keys hr
      exact ⟨fun k hmem => (hkey k r).2 ⟨hk k hmem, hne⟩, fun k hmem => (hkey2 k r).2 ⟨hk2 k hmem, hne⟩⟩

omit [DecidableEq κ₂] in
/-- To remove the entry of a key is to remove that of its record. -/
theorem find1_remove1 {m : BiMap κ ℕ} {key : κ} (hfind : m.find1 key = some record) (k : κ) (r : ℕ) :
    (m.remove1 key).2.find1 k = some r ↔ m.find1 k = some r ∧ r ≠ record := by
  rw [BiMap.remove1_find1]
  refine and_congr_right fun hk => not_congr ⟨?_, ?_⟩
  · rintro rfl
    exact Option.some.inj (hk.symm.trans hfind)
  · rintro rfl
    exact BiMap.find1_inj hk hfind

/-- The record that `remove_by_key` frees must not have a state. -/
theorem Consistent.removeByKey_iff (h : s.Consistent) (key : κ) : (s.removeByKey key).2.Consistent ↔
    ∀ record, s.getByKey key = some record → s.key2RecordMap.find2 record ≠ none →
      s.states.find record = none := by
  unfold RecordsStore2.removeByKey getByKey
  cases hfind : s.keyRecordMap.find1 key with
  | none => exact iff_of_true h.refuse (by rintro record ⟨⟩)
  | some record =>
      simp only [Option.some.injEq, forall_eq']
      cases hfind2 : s.key2RecordMap.find2 record with
      | none =>
          rw [BiMap.remove2_of_absent hfind2]
          exact iff_of_true h.refuse fun hne => absurd rfl hne
      | some key2 =>
          have htrue := (BiMap.remove2_of_present hfind2).1
          rw [if_neg (by rw [htrue]; decide)]
          refine Iff.trans ?_ (forall_prop_of_true (Option.some_ne_none key2)).symm
          exact h.free_iff (h.live key record hfind) (find1_remove1 hfind) fun k r => BiMap.remove2_find1

/-- The record that `remove_by_key2` frees must not have a state. -/
theorem Consistent.removeByKey2_iff (h : s.Consistent) (key2 : κ₂) : (s.removeByKey2 key2).2.Consistent ↔
    ∀ record, s.getByKey2 key2 = some record → s.keyRecordMap.find2 record ≠ none →
      s.states.find record = none := by
  unfold RecordsStore2.removeByKey2 getByKey2
  cases hfind2 : s.key2RecordMap.find1 key2 with
  | none => exact iff_of_true h.refuse (by rintro record ⟨⟩)
  | some record =>
      simp only [Option.some.injEq, forall_eq']
      cases hfind : s.keyRecordMap.find2 record with
      | none =>
          rw [BiMap.remove2_of_absent hfind]
          exact iff_of_true h.refuse fun hne => absurd rfl hne
      | some key =>
          have htrue := (BiMap.remove2_of_present hfind).1
          rw [if_neg (by rw [htrue]; decide)]
          refine Iff.trans ?_ (forall_prop_of_true (Option.some_ne_none key)).symm
          exact h.free_iff (h.live2 key2 record hfind2) (fun k r => BiMap.remove2_find1) (find1_remove1 hfind2)

/-- What does not go away any more: a second key of a record that is freed, or a removal that returned false and
changed a map. -/
def Spoiled (s : RecordsStore2 κ κ₂ τ) : Prop :=
  (∃ key2 record, s.getByKey2 key2 = some record ∧ s.heap record = none) ∨ ∃ r ∈ s.refused, r.1 ≠ r.2

omit [DecidableEq κ] [DecidableEq κ₂] in
theorem Spoiled.not_consistent (h : s.Spoiled) : ¬s.Consistent := by
  intro h'
  rcases h with ⟨key2, record, hfind, hfree⟩ | ⟨r, hr, hne⟩
  · exact h'.live2 key2 record hfind hfree
  · exact hne (h'.refused r hr)

omit [DecidableEq κ₂] in
/-- `remove_record` finds no first key, and changes nothing. -/
theorem removeRecord_of_absent (hfind : s.keyRecordMap.find2 record = none) :
    (s.removeRecord record).2 = { s with refused := s.refused ++ [(s.toKeyMaps, s.toKeyMaps)] } := by
  unfold RecordsStore2.removeRecord
  rw [if_pos hfind]
  rfl

omit [DecidableEq κ₂] in
/-- `remove_record` finds a first key, and leaves the second one or returns false. -/
theorem removeRecord_spoiled (hfind : s.keyRecordMap.find2 record ≠ none) : (s.removeRecord record).2.Spoiled := by
  unfold RecordsStore2.removeRecord
  rw [if_neg hfind]
  dsimp only
  cases hfind2 : s.key2RecordMap.find2 record with
  | none =>
      rw [if_pos rfl]
      refine Or.inr ⟨(s.toKeyMaps, _), List.mem_append_right _ List.mem_cons_self, fun heq => ?_⟩
      obtain ⟨key, hkey⟩ := Option.ne_none_iff_exists'.1 hfind
      have hkept : (s.keyRecordMap.remove2 record).2.find1 key = some record := by
        change s.toKeyMaps = _ at heq
        have hmap := congrArg KeyMaps.keyRecordMap heq
        dsimp only at hmap
        rw [← hmap]
        exact (s.keyRecordMap.inverse key record).2 hkey
      exact (BiMap.remove2_find1.1 hkept).2 rfl
  | some key2 =>
      rw [if_neg (Option.some_ne_none key2)]
      exact Or.inl ⟨key2, record, (s.key2RecordMap.inverse key2 record).2 hfind2, Function.update_self _ _ _⟩

omit [DecidableEq κ₂] in
theorem Consistent.removeRecord_iff (h : s.Consistent) :
    (s.removeRecord record).2.Consistent ↔ s.keyRecordMap.find2 record = none := by
  constructor
  · intro h'
    by_contra hfind
    exact (removeRecord_spoiled hfind).not_consistent h'
  · intro hfind
    rw [removeRecord_of_absent hfind]
    exact h.refuse

omit [DecidableEq κ] [DecidableEq κ₂] in
theorem Consistent.commit (h : s.Consistent) (hlive : s.heap record ≠ none) (c : Commit) :
    (s.commitRequest c record).Consistent where
  live := h.live
  live2 := h.live2
  pending r hr := by
    change UnorderedMap.find (c.states s.states record) r ≠ none at hr
    rw [Commit.find_states] at hr
    split_ifs at hr with heq
    · exact heq ▸ hlive
    · exact h.pending r hr
  made := h.made
  refused := h.refused

omit [DecidableEq κ] [DecidableEq κ₂] in
theorem Consistent.commitFound (h : s.Consistent) (c : Commit) {found : Option ℕ}
    (hlive : ∀ record ∈ found, s.heap record ≠ none) : (s.commitFound c found).2.Consistent := by
  cases found with
  | none => exact h
  | some record => exact h.commit (hlive record rfl) c

/-- A record that was made for a commit has its key exactly when the key was free. -/
theorem Consistent.commitNew_iff [Inhabited τ] (h : s.Consistent) {key2 : κ₂} {s₁ : RecordsStore2 κ κ₂ τ}
    (hnew : s.getNewByKey2 key2 record = some s₁) :
    (s₁.commitRequest .insert record).Consistent ↔ s.getByKey2 key2 = none := by
  have hiff := h.getNew_iff hnew
  simp only [Option.mem_some_iff, forall_eq'] at hiff
  have hlive : s₁.heap record ≠ none := by
    obtain ⟨s₀, hmalloc, rfl⟩ := Option.map_eq_some_iff.1 hnew
    obtain ⟨-, heq⟩ := Option.ite_none_right_eq_some.1 hmalloc
    obtain rfl := Option.some.inj heq
    change Function.update s.heap record (some default) record ≠ none
    rw [Function.update_self]
    exact Option.some_ne_none _
  constructor
  · intro h'
    refine (hiff.1 ⟨h'.live, h'.live2, fun r hr => h'.pending r ?_, h'.made, h'.refused⟩).2
    change UnorderedMap.find (Commit.insert.states s₁.states record) r ≠ none
    rw [Commit.find_states]
    split_ifs
    · exact Option.some_ne_none _
    · exact hr
  · intro hnone
    exact Consistent.commit (hiff.2 ⟨by rintro _ ⟨⟩, hnone⟩) hlive .insert

/-- Only what records hold has changed, and the requests that were made. -/
def Kept (s s' : RecordsStore2 κ κ₂ τ) : Prop :=
  ∃ heap requests, s' = { s with heap := heap, requests := requests } ∧ ∀ p, heap p = none ↔ s.heap p = none

omit [DecidableEq κ] [DecidableEq κ₂] in
theorem Kept.refl (s : RecordsStore2 κ κ₂ τ) : s.Kept s := ⟨s.heap, s.requests, rfl, fun _ => Iff.rfl⟩

omit [DecidableEq κ] [DecidableEq κ₂] in
/-- A request that is made or fails. -/
theorem attempt_spec {after : Commit → τ → τ} {c : Commit} {res : ℤ} {succeeds : Bool}
    {r : ℤ × RecordsStore2 κ κ₂ τ}
    (hone : (if succeeds then (s.request after c record).map fun s₁ => (res, s₁) else some (0, s)) = some r) :
    s.Kept r.2 ∧ r.1 = if succeeds then res else 0 := by
  split_ifs at hone ⊢
  · obtain ⟨s₁, hs₁, rfl⟩ := Option.map_eq_some_iff.1 hone
    obtain ⟨t, ht, rfl⟩ := Option.map_eq_some_iff.1 hs₁
    refine ⟨⟨_, _, rfl, fun p => ?_⟩, rfl⟩
    by_cases hp : p = record
    · rw [hp, Function.update_self, ht]
      exact iff_of_false (Option.some_ne_none _) (Option.some_ne_none _)
    · rw [Function.update_of_ne hp]
  · obtain rfl := Option.some.inj hone
    exact ⟨.refl s, rfl⟩

omit [DecidableEq κ] [DecidableEq κ₂] in
/-- `update_one_record` changes only what the record holds, and is 2 for a record that it deletes. -/
theorem updateOneRecord_spec {after : Commit → τ → τ} {succeeds : Bool} {r : ℤ × RecordsStore2 κ κ₂ τ}
    (hone : s.updateOneRecord after succeeds record = some r) :
    s.Kept r.2 ∧ 0 ≤ r.1 ∧ (r.1 = 2 ↔ s.states.find record = some .delete ∧ succeeds = true) := by
  unfold RecordsStore2.updateOneRecord at hone
  split at hone
  · rename_i hstate
    obtain ⟨hkept, hres⟩ := attempt_spec hone
    refine ⟨hkept, ?_⟩
    rw [hres, hstate]
    cases succeeds <;> simp
  · rename_i hstate
    obtain ⟨hkept, hres⟩ := attempt_spec hone
    refine ⟨hkept, ?_⟩
    rw [hres, hstate]
    cases succeeds <;> simp
  · rename_i hstate
    obtain ⟨hkept, hres⟩ := attempt_spec hone
    refine ⟨hkept, ?_⟩
    rw [hres, hstate]
    cases succeeds <;> simp
  · rename_i _ hdelete _
    obtain rfl := Option.some.inj hone
    refine ⟨.refl s, zero_le_one, iff_of_false ?_ fun h => hdelete h.1⟩
    change ¬(1 : ℤ) = 2
    decide

omit [DecidableEq κ] [DecidableEq κ₂] in
theorem Consistent.kept (h : s.Consistent) (hkept : s.Kept s') : s'.Consistent := by
  obtain ⟨heap, requests, rfl, hlive⟩ := hkept
  exact ⟨fun k r hr hnone => h.live k r hr ((hlive r).1 hnone),
    fun k r hr hnone => h.live2 k r hr ((hlive r).1 hnone),
    fun r hr hnone => h.pending r hr ((hlive r).1 hnone), h.made, h.refused⟩

omit [DecidableEq κ] [DecidableEq κ₂] in
theorem Spoiled.kept (h : s.Spoiled) (hkept : s.Kept s') : s'.Spoiled := by
  obtain ⟨heap, requests, rfl, hlive⟩ := hkept
  exact h.imp_left fun ⟨key2, record, hfind, hfree⟩ => ⟨key2, record, hfind, (hlive record).2 hfree⟩

omit [DecidableEq κ₂] in
/-- `remove_record` does not repair anything. -/
theorem Spoiled.removeRecord (h : s.Spoiled) : (s.removeRecord record).2.Spoiled := by
  by_cases hfind : s.keyRecordMap.find2 record = none
  · rw [removeRecord_of_absent hfind]
    exact h.imp_right fun ⟨r, hr, hne⟩ => ⟨r, List.mem_append_left _ hr, hne⟩
  · exact removeRecord_spoiled hfind

section flush

variable {after : Commit → τ → τ} {succeeds : ℕ → Bool} {order : List ℕ} {u : RecordsStore2 κ κ₂ τ}

omit [DecidableEq κ₂] in
/-- One round of the loop: the record is requested, and removed when it is deleted. -/
theorem updateLoop_cons (hloop : updateLoop after succeeds (record :: order) s = some u) :
    ∃ s₁, s.Kept s₁ ∧
      (s.states.find record = some .delete ∧ succeeds record = true ∧
          updateLoop after succeeds order (s₁.removeRecord record).2 = some u ∨
        ¬(s.states.find record = some .delete ∧ succeeds record = true) ∧
          updateLoop after succeeds order s₁ = some u) := by
  obtain ⟨r, hone, hrest⟩ := Option.bind_eq_some_iff.1 hloop
  obtain ⟨hkept, hnonneg, hdelete⟩ := updateOneRecord_spec hone
  rw [if_neg (not_lt.2 hnonneg)] at hrest
  refine ⟨r.2, hkept, ?_⟩
  by_cases hres : r.1 = 2
  · rw [if_pos hres] at hrest
    exact Or.inl ⟨(hdelete.1 hres).1, (hdelete.1 hres).2, hrest⟩
  · rw [if_neg hres] at hrest
    exact Or.inr ⟨fun h => hres (hdelete.2 h), hrest⟩

omit [DecidableEq κ₂] in
theorem Spoiled.updateLoop (h : s.Spoiled) (hloop : updateLoop after succeeds order s = some u) : u.Spoiled := by
  induction order generalizing s with
  | nil =>
      obtain rfl := Option.some.inj hloop
      exact h
  | cons record order ih =>
      obtain ⟨s₁, hkept, ⟨-, -, hrest⟩ | ⟨-, hrest⟩⟩ := updateLoop_cons hloop
      · exact ih (h.kept hkept).removeRecord hrest
      · exact ih (h.kept hkept) hrest

/-- A flush must not delete a record that has its first key. -/
def DeletesUnkeyed (s : RecordsStore2 κ κ₂ τ) (succeeds : ℕ → Bool) (order : List ℕ) : Prop :=
  ∀ record ∈ order, s.states.find record = some .delete → succeeds record = true →
    s.keyRecordMap.find2 record = none

omit [DecidableEq κ] [DecidableEq κ₂] in
theorem deletesUnkeyed_cons : s.DeletesUnkeyed succeeds (record :: order) ↔
    (s.states.find record = some .delete → succeeds record = true → s.keyRecordMap.find2 record = none) ∧
      s.DeletesUnkeyed succeeds order := List.forall_mem_cons

omit [DecidableEq κ₂] in
theorem Consistent.updateLoop_iff (h : s.Consistent) (hloop : updateLoop after succeeds order s = some u) :
    u.Consistent ↔ s.DeletesUnkeyed succeeds order := by
  induction order generalizing s with
  | nil =>
      obtain rfl := Option.some.inj hloop
      refine iff_of_true ⟨h.live, h.live2, fun r hr => ?_, h.made, h.refused⟩ nofun
      exact absurd UnorderedMap.find_empty hr
  | cons record order ih =>
      obtain ⟨s₁, hkept, hround⟩ := updateLoop_cons hloop
      have h₁ := h.kept hkept
      have hrest : ∀ v : RecordsStore2 κ κ₂ τ, v.states = s.states → v.keyRecordMap = s.keyRecordMap →
          (v.DeletesUnkeyed succeeds order ↔ s.DeletesUnkeyed succeeds order) := by
        intro v hstates hmap
        unfold DeletesUnkeyed
        rw [hstates, hmap]
      obtain ⟨heap, requests, heq, -⟩ := hkept
      have hmap : s₁.keyRecordMap = s.keyRecordMap := by rw [heq]
      have hstates : s₁.states = s.states := by rw [heq]
      rw [deletesUnkeyed_cons]
      rcases hround with ⟨hstate, hsucc, hloop₁⟩ | ⟨hidle, hloop₁⟩
      · by_cases hfind : s₁.keyRecordMap.find2 record = none
        · rw [removeRecord_of_absent hfind] at hloop₁
          refine (ih h₁.refuse hloop₁).trans ((hrest _ hstates hmap).trans ?_)
          exact (and_iff_right fun _ _ => hmap ▸ hfind).symm
        · refine iff_of_false ((removeRecord_spoiled hfind).updateLoop hloop₁).not_consistent fun hall => hfind ?_
          rw [hmap]
          exact hall.1 hstate hsucc
      · rw [ih h₁ hloop₁, hrest s₁ hstates hmap]
        exact (and_iff_right fun hstate hsucc => absurd ⟨hstate, hsucc⟩ hidle).symm

omit [DecidableEq κ₂] in
theorem Consistent.update_iff (h : s.Consistent) (hcover : order.toFinset = s.states.keys)
    (hupdate : s.update after succeeds order = some u) : u.Consistent ↔ s.DeletesUnkeyed succeeds order := by
  unfold RecordsStore2.update at hupdate
  split_ifs at hupdate with hsize
  · obtain rfl := Option.some.inj hupdate
    refine iff_of_true h fun record hmem => ?_
    rw [← List.mem_toFinset, hcover, Finset.card_eq_zero.1 hsize] at hmem
    exact absurd hmem (Finset.notMem_empty record)
  · exact h.updateLoop_iff hupdate

end flush

variable [Inhabited τ] {conv : κ → κ₂} {after : Commit → τ → τ}

/-- New records have keys that are free; no record is freed that has a state; and `remove_record` is called, by
`update` too, for records without a first key only. -/
def Careful (conv : κ → κ₂) (s : RecordsStore2 κ κ₂ τ) : RecordEvent2 κ κ₂ → Prop
  | .getNewByKey key _ => s.getByKey key = none
  | .getNewByKey2 key2 _ => s.getByKey2 key2 = none
  | .getNewByKeyAndKey2 key key2 _ => s.getByKey key = none ∧ s.getByKey2 key2 = none
  | .removeByKey key => ∀ record, s.getByKey key = some record → s.key2RecordMap.find2 record ≠ none →
      s.states.find record = none
  | .removeByKey2 key2 => ∀ record, s.getByKey2 key2 = some record → s.keyRecordMap.find2 record ≠ none →
      s.states.find record = none
  | .removeRecord record => s.keyRecordMap.find2 record = none
  | .commitByKey .insert key _ => s.getByKey key = none → s.getByKey2 (conv key) = none
  | .update succeeds order => s.DeletesUnkeyed succeeds order
  | _ => True

theorem Consistent.commitByKey_iff (h : s.Consistent) {c : Commit} {key : κ}
    (hstep : s.commitByKey conv record c key = some s') :
    s'.Consistent ↔ s.Careful conv (.commitByKey c key record) := by
  cases c with
  | insert =>
      change s.commitInsertRequestByKey conv key record = some s' at hstep
      unfold RecordsStore2.commitInsertRequestByKey at hstep
      change _ ↔ (s.getByKey key = none → s.getByKey2 (conv key) = none)
      cases hfind : s.getByKey key with
      | some found =>
          rw [hfind] at hstep
          obtain rfl := Option.some.inj hstep
          exact iff_of_true (h.commit (h.live key found hfind) .insert) nofun
      | none =>
          rw [hfind] at hstep
          obtain ⟨s₁, hnew, rfl⟩ := Option.map_eq_some_iff.1 hstep
          rw [h.commitNew_iff hnew]
          exact ⟨fun hnone _ => hnone, fun hnone => hnone rfl⟩
  | _ =>
      obtain rfl := Option.some.inj hstep
      exact iff_of_true (h.commitFound _ fun r hr => h.live key r hr) trivial

theorem Consistent.commitByKey2 (h : s.Consistent) {c : Commit} {key2 : κ₂}
    (hstep : s.commitByKey2 record c key2 = some s') : s'.Consistent := by
  cases c with
  | insert =>
      change s.commitInsertRequestByKey2 key2 record = some s' at hstep
      unfold RecordsStore2.commitInsertRequestByKey2 at hstep
      cases hfind : s.getByKey2 key2 with
      | some found =>
          rw [hfind] at hstep
          obtain rfl := Option.some.inj hstep
          exact h.commit (h.live2 key2 found hfind) .insert
      | none =>
          rw [hfind] at hstep
          obtain ⟨s₁, hnew, rfl⟩ := Option.map_eq_some_iff.1 hstep
          exact (h.commitNew_iff hnew).2 hfind
  | _ =>
      obtain rfl := Option.some.inj hstep
      exact h.commitFound _ fun r hr => h.live2 key2 r hr

/-- A call keeps the store consistent exactly when it is careful. -/
theorem Consistent.step_iff (h : s.Consistent) {e : RecordEvent2 κ κ₂} (hstep : s.step conv after e = some s') :
    s'.Consistent ↔ s.Careful conv e := by
  cases e with
  | getNewByKey key record =>
      rw [h.getNew_iff hstep]
      simp [Careful]
  | getNewByKey2 key2 record =>
      rw [h.getNew_iff hstep]
      simp [Careful]
  | getNewByKeyAndKey2 key key2 record =>
      rw [h.getNew_iff hstep]
      simp [Careful]
  | insertKeyRecord key record =>
      obtain ⟨t, ht, rfl⟩ := Option.map_eq_some_iff.1 hstep
      exact iff_of_true (h.insertKeyRecord (ht ▸ Option.some_ne_none t) key) trivial
  | insertKey2Record key2 record =>
      obtain ⟨t, ht, rfl⟩ := Option.map_eq_some_iff.1 hstep
      exact iff_of_true (h.insertKey2Record (ht ▸ Option.some_ne_none t) key2) trivial
  | removeByKey key =>
      obtain rfl := Option.some.inj hstep
      exact h.removeByKey_iff key
  | removeByKey2 key2 =>
      obtain rfl := Option.some.inj hstep
      exact h.removeByKey2_iff key2
  | removeRecord record =>
      obtain ⟨t, -, rfl⟩ := Option.map_eq_some_iff.1 hstep
      exact h.removeRecord_iff
  | commit c record =>
      obtain ⟨t, ht, rfl⟩ := Option.map_eq_some_iff.1 hstep
      exact iff_of_true (h.commit (ht ▸ Option.some_ne_none t) c) trivial
  | commitByKey c key record => exact h.commitByKey_iff hstep
  | commitByKey2 c key2 record => exact iff_of_true (h.commitByKey2 hstep) (by cases c <;> trivial)
  | update succeeds order =>
      obtain ⟨⟨-, hcover⟩, hupdate⟩ := Option.ite_none_right_eq_some.1 hstep
      exact h.update_iff hcover hupdate

/-- The store is consistent in every state that a run reaches exactly when every call of the run is careful. -/
theorem consistent_iff (conv : κ → κ₂) (after : Commit → τ → τ) (es : List (RecordEvent2 κ κ₂)) :
    (records2Machine conv after).Along (fun s e => s.step conv after e ≠ none → s.Careful conv e) .start es ↔
      ∀ es₁ es₂ s, es = es₁ ++ es₂ → (records2Machine conv after).run .start es₁ = some s → s.Consistent := by
  refine Machine.along_iff_reached (I := Consistent) ?_ (fun _ h => h) ?_ consistent_start es
  · intro s e s' h hcareful hstep
    refine (h.step_iff hstep).2 (hcareful ?_)
    change s.step conv after e = some s' at hstep
    rw [hstep]
    exact Option.some_ne_none s'
  · intro s e h hconsistent hsome
    obtain ⟨s', hstep⟩ := Option.ne_none_iff_exists'.1 hsome
    exact (h.step_iff hstep).1 (hconsistent s' hstep)

/-- A record with two keys is removed by `remove_record`. -/
def removeKeyed : List (RecordEvent2 ℕ ℕ) := [.getNewByKeyAndKey2 1 2 0, .removeRecord 0]

/-- The record is freed, and its second key still finds it. -/
theorem removeRecord_dangles : ∃ s : RecordsStore2 ℕ ℕ Unit,
    (records2Machine id fun _ => id).run .start removeKeyed = some s ∧ ¬s.Consistent := by
  refine ⟨_, rfl, fun h => ?_⟩
  exact h.live2 2 0 rfl rfl

end RecordsStore2

end JmyGame
