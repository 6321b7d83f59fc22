import JmyGame.MysqlRecords2

/-! What is left to do after `update`. Both managers clear the states of all records behind their loop, so a request
that fails is not made again. -/

namespace JmyGame

namespace RecordStates

/-- The records with something to do, each with what is to be done. -/
def Pending (states : RecordStates) (record : ℕ) (state : MysqlTableRecordState) : Prop :=
  states.find record = some state ∧ state ≠ .none

/-- `update` returns with the states `after`: a record whose request failed has still the same thing to do, and one
whose request succeeded has nothing to do. -/
def Retried (states : RecordStates) (succeeds : ℕ → Bool) (after : Option RecordStates) : Prop :=
  ∃ left, after = some left ∧ ∀ record state, states.Pending record state →
    (succeeds record = false → left.Pending record state) ∧
      (succeeds record = true → ∀ state', ¬left.Pending record state')

/-- Where all states are cleared, no request may fail. -/
theorem retried_empty_iff {states : RecordStates} {succeeds : ℕ → Bool} : states.Retried succeeds (some ∅) ↔
    ∀ record state, states.Pending record state → succeeds record = true := by
  constructor
  · rintro ⟨left, heq, hleft⟩ record state hpending
    obtain rfl := Option.some.inj heq
    by_contra hfails
    have hstill := ((hleft record state hpending).1 (Bool.eq_false_iff.2 hfails)).1
    rw [UnorderedMap.find_empty] at hstill
    cases hstill
  · intro hall
    refine ⟨∅, rfl, fun record state hpending => ⟨fun hfails => ?_, fun _ state' hstill => ?_⟩⟩
    · rw [hall record state hpending] at hfails
      cases hfails
    · rw [Pending, UnorderedMap.find_empty] at hstill
      cases hstill.1

end RecordStates

section loop

variable {σ : Type} (one : σ → ℕ → Option (ℤ × σ)) (remove : σ → ℕ → σ) (clear : σ → σ)

/-- The loop that both managers have: one record after the other, those with the result 2 are removed, and at the end
the states are cleared. -/
def flushLoop : List ℕ → σ → Option σ
  | [], s => some (clear s)
  | record :: order, s => (one s record).bind fun r =>
      if r.1 < 0 then some r.2
      else if r.1 = 2 then flushLoop order (remove r.2 record)
      else flushLoop order r.2

variable {one remove clear} {τ : Type} (heap : σ → ℕ → Option τ)

/-- The loop ends with the clearing of the states, where no record returns an error or frees another one. -/
theorem flushLoop_ends
    (hone : ∀ s record, heap s record ≠ none →
      ∃ r, one s record = some r ∧ 0 ≤ r.1 ∧ ∀ p, heap s p ≠ none → heap r.2 p ≠ none)
    (hremove : ∀ s record p, p ≠ record → heap (remove s record) p = heap s p) {order : List ℕ}
    (hnodup : order.Nodup) {s : σ} (hlive : ∀ record ∈ order, heap s record ≠ none) :
    ∃ u, flushLoop one remove clear order s = some (clear u) := by
  induction order generalizing s with
  | nil => exact ⟨s, rfl⟩
  | cons record order ih =>
      obtain ⟨hnotin, hnodup⟩ := List.nodup_cons.1 hnodup
      obtain ⟨r, hr, hres, hkept⟩ := hone s record (hlive record List.mem_cons_self)
      have hlive' : ∀ p ∈ order, heap r.2 p ≠ none :=
        fun p hp => hkept p (hlive p (List.mem_cons_of_mem record hp))
      rw [flushLoop, hr, Option.bind_some, if_neg (not_lt.2 hres)]
      split_ifs
      · apply ih hnodup
        intro p hp
        rw [hremove r.2 record p (ne_of_mem_of_not_mem hp hnotin)]
        exact hlive' p hp
      · exact ih hnodup hlive'

/-- A request that may fail returns, and never with an error. -/
theorem attempt_returns {s : σ} {request : Option σ} {res : ℤ} (succeeds : Bool) (hres : 0 ≤ res)
    (hrequest : ∃ s₁, request = some s₁ ∧ ∀ p, heap s p ≠ none → heap s₁ p ≠ none) :
    ∃ r, (if succeeds then request.map fun s₁ => (res, s₁) else some (0, s)) = some r ∧
      0 ≤ r.1 ∧ ∀ p, heap s p ≠ none → heap r.2 p ≠ none := by
  obtain ⟨s₁, rfl, hkept⟩ := hrequest
  cases succeeds with
  | true => exact ⟨(res, s₁), rfl, hres, hkept⟩
  | false => exact ⟨(0, s), rfl, le_rfl, fun _ hp => hp⟩

end loop

/-- A record of the heap is changed in place. -/
theorem update_ne_none {τ : Type} {heap : ℕ → Option τ} {record p : ℕ} {t : τ} (hp : heap p ≠ none) :
    Function.update heap record (some t) p ≠ none := by
  by_cases heq : p = record
  · rw [heq, Function.update_self]
    exact Option.some_ne_none t
  · rw [Function.update_of_ne heq]
    exact hp

/-- The records with states are those that the loop takes. -/
theorem live_of_cover {states : RecordStates} {order : List ℕ} {Live : ℕ → Prop}
    (hcover : order.toFinset = states.keys) (hlive : ∀ record, states.find record ≠ none → Live record) :
    ∀ record ∈ order, Live record := by
  intro record hmem
  rw [← List.mem_toFinset, hcover, UnorderedMap.mem_keys] at hmem
  exact hlive record hmem

namespace RecordsStore

variable {κ ι ν : Type} [DecidableEq κ] {s : RecordsStore κ ι ν} {succeeds : ℕ → Bool} {order : List ℕ}

theorem updateLoop_eq (s : RecordsStore κ ι ν) : updateLoop succeeds order s =
    flushLoop (fun s record => s.updateOneRecord (succeeds record) record) (fun s record => (s.remove record).2)
      (fun s => { s with states := ∅ }) order s := by
  induction order generalizing s with
  | nil => rfl
  | cons record order ih =>
      rw [updateLoop, flushLoop]
      simp only [ih]

theorem request_live {record : ℕ} (hlive : s.heap record ≠ none) (c : Commit) :
    ∃ s₁, s.request c record = some s₁ ∧ ∀ p, s.heap p ≠ none → s₁.heap p ≠ none := by
  obtain ⟨t, ht⟩ := Option.ne_none_iff_exists'.1 hlive
  exact ⟨_, by rw [request, ht]; rfl, fun p hp => update_ne_none hp⟩

theorem updateOneRecord_live {record : ℕ} (hlive : s.heap record ≠ none) (succeeds : Bool) :
    ∃ r, s.updateOneRecord succeeds record = some r ∧ 0 ≤ r.1 ∧ ∀ p, s.heap p ≠ none → r.2.heap p ≠ none := by
  unfold updateOneRecord
  split
  · exact attempt_returns RecordsStore.heap succeeds zero_le_one (request_live hlive .insert)
  · exact attempt_returns RecordsStore.heap succeeds (by decide) (request_live hlive .delete)
  · exact attempt_returns RecordsStore.heap succeeds zero_le_one (request_live hlive .update)
  · exact ⟨(1, s), rfl, zero_le_one, fun _ hp => hp⟩

/-- `remove` frees only its record. -/
theorem remove_heap {record p : ℕ} (hne : p ≠ record) : (s.remove record).2.heap p = s.heap p := by
  unfold remove
  split
  · rfl
  · exact Function.update_of_ne hne _ _

/-- `update` comes to its end and clears the states, whatever the requests return. -/
theorem update_clears (hnodup : order.Nodup) (hcover : order.toFinset = s.states.keys)
    (hlive : ∀ record, s.states.find record ≠ none → s.heap record ≠ none) :
    (s.update succeeds order).map RecordsStore.states = some ∅ := by
  rw [update, updateLoop_eq]
  obtain ⟨u, hu⟩ := flushLoop_ends RecordsStore.heap
    (fun _ record hrecord => updateOneRecord_live hrecord (succeeds record)) (fun _ _ _ hne => remove_heap hne)
    hnodup (live_of_cover hcover hlive)
  rw [hu, Option.map_some]

end RecordsStore

namespace RecordsStore2

variable {κ κ₂ τ : Type} [DecidableEq κ] {s : RecordsStore2 κ κ₂ τ} {after : Commit → τ → τ}
variable {succeeds : ℕ → Bool} {order : List ℕ}

theorem updateLoop_eq (s : RecordsStore2 κ κ₂ τ) : updateLoop after succeeds order s =
    flushLoop (fun s record => s.updateOneRecord after (succeeds record) record)
      (fun s record => (s.removeRecord record).2) (fun s => { s with states := ∅ }) order s := by
  induction order generalizing s with
  | nil => rfl
  | cons record order ih =>
      rw [updateLoop, flushLoop]
      simp only [ih]

omit [DecidableEq κ] in
theorem request_live {record : ℕ} (hlive : s.heap record ≠ none) (c : Commit) :
    ∃ s₁, s.request after c record = some s₁ ∧ ∀ p, s.heap p ≠ none → s₁.heap p ≠ none := by
  obtain ⟨t, ht⟩ := Option.ne_none_iff_exists'.1 hlive
  exact ⟨_, by rw [request, ht]; rfl, fun p hp => update_ne_none hp⟩

omit [DecidableEq κ] in
theorem updateOneRecord_live {record : ℕ} (hlive : s.heap record ≠ none) (succeeds : Bool) :
    ∃ r, s.updateOneRecord after succeeds record = some r ∧ 0 ≤ r.1 ∧
      ∀ p, s.heap p ≠ none → r.2.heap p ≠ none := by
  unfold updateOneRecord
  split
  · exact attempt_returns RecordsStore2.heap succeeds zero_le_one (request_live hlive .insert)
  · exact attempt_returns RecordsStore2.heap succeeds (by decide) (request_live hlive .delete)
  · exact attempt_returns RecordsStore2.heap succeeds zero_le_one (request_live hlive .update)
  · exact ⟨(1, s), rfl, zero_le_one, fun _ hp => hp⟩

/-- `remove_record` frees only its record. -/
theorem removeRecord_heap {record p : ℕ} (hne : p ≠ record) : (s.removeRecord record).2.heap p = s.heap p := by
  unfold removeRecord
  dsimp only
  split_ifs
  · rfl
  · rfl
  · exact Function.update_of_ne hne _ _

/-- `update` comes to its end and clears the states, whatever the requests return. -/
theorem update_clears (hnodup : order.Nodup) (hcover : order.toFinset = s.states.keys)
    (hlive : ∀ record, s.states.find record ≠ none → s.heap record ≠ none) :
    (s.update after succeeds order).map RecordsStore2.states = some ∅ := by
  unfold update
  split_ifs with hsize
  · rw [Option.map_some, UnorderedMap.eq_empty_of_size hsize]
  · rw [updateLoop_eq]
    obtain ⟨u, hu⟩ := flushLoop_ends RecordsStore2.heap
      (fun _ record hrecord => updateOneRecord_live hrecord (succeeds record))
      (fun _ _ _ hne => removeRecord_heap hne) hnodup (live_of_cover hcover hlive)
    rw [hu, Option.map_some]

end RecordsStore2

/-- A flush is retried exactly when there is nothing to retry: no request may fail, in either manager. -/
theorem flushes_retried_iff {κ ι ν κ₁ κ₂ τ : Type} [DecidableEq κ] [DecidableEq κ₁] (s : RecordsStore κ ι ν)
    (s₂ : RecordsStore2 κ₁ κ₂ τ) (after : Commit → τ → τ) (succeeds : ℕ → Bool) {order order₂ : List ℕ}
    (hnodup : order.Nodup) (hcover : order.toFinset = s.states.keys)
    (hlive : ∀ record, s.states.find record ≠ none → s.heap record ≠ none)
    (hnodup₂ : order₂.Nodup) (hcover₂ : order₂.toFinset = s₂.states.keys)
    (hlive₂ : ∀ record, s₂.states.find record ≠ none → s₂.heap record ≠ none) :
    (s.states.Retried succeeds ((s.update succeeds order).map RecordsStore.states) ↔
      ∀ record state, s.states.Pending record state → succeeds record = true) ∧
    (s₂.states.Retried succeeds ((s₂.update after succeeds order₂).map RecordsStore2.states) ↔
      ∀ record state, s₂.states.Pending record state → succeeds record = true) := by
  constructor
  · rw [RecordsStore.update_clears hnodup hcover hlive]
    exact RecordStates.retried_empty_iff
  · rw [RecordsStore2.update_clears hnodup₂ hcover₂ hlive₂]
    exact RecordStates.retried_empty_iff

/-- A record that is to be inserted. -/
def oneInsert : RecordsStore ℕ Unit ℤ := (RecordsStore.start fun _ => none).commitInsertRequest 1

/-- A record with two keys that is to be inserted. -/
def oneInsert2 : RecordsStore2 ℕ ℕ Unit :=
  ((RecordsStore2.start.getNewByKeyAndKey2 1 2 0).getD .start).commitRequest .insert 0

theorem oneInsert_retried :
    oneInsert.states.Retried (fun _ => true) ((oneInsert.update (fun _ => true) [0]).map RecordsStore.states) ∧
      oneInsert2.states.Retried (fun _ => true)
        ((oneInsert2.update (fun _ => id) (fun _ => true) [0]).map RecordsStore2.states) := by
  have hlive : ∀ record, oneInsert.states.find record ≠ none → oneInsert.heap record ≠ none := by
    intro record hrecord
    rw [← UnorderedMap.mem_keys, show oneInsert.states.keys = {0} from rfl, Finset.mem_singleton] at hrecord
    subst hrecord
    nofun
  have hlive₂ : ∀ record, oneInsert2.states.find record ≠ none → oneInsert2.heap record ≠ none := by
    intro record hrecord
    rw [← UnorderedMap.mem_keys, show oneInsert2.states.keys = {0} from rfl, Finset.mem_singleton] at hrecord
    subst hrecord
    nofun
  have h := flushes_retried_iff oneInsert oneInsert2 (fun _ => id) (fun _ => true) (List.nodup_singleton 0) rfl hlive
    (List.nodup_singleton 0) rfl hlive₂
  exact ⟨h.1.2 fun _ _ _ => rfl, h.2.2 fun _ _ _ => rfl⟩

/-- An insert that fails is forgotten by both managers. -/
theorem failed_insert_forgotten :
    ¬oneInsert.states.Retried (fun _ => false) ((oneInsert.update (fun _ => false) [0]).map RecordsStore.states) ∧
      ¬oneInsert2.states.Retried (fun _ => false)
        ((oneInsert2.update (fun _ => id) (fun _ => false) [0]).map RecordsStore2.states) := by
  constructor
  · intro h
    cases RecordStates.retried_empty_iff.1 h 0 .insert ⟨rfl, nofun⟩
  · intro h
    cases RecordStates.retried_empty_iff.1 h 0 .insert ⟨rfl, nofun⟩

end JmyGame
