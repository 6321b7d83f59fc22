import Mathlib.Data.Finmap

/-! Finite maps with the operations of a hash map: to look a key up, to insert a value unless the key is
there, to change the value of a key in place and to erase a key. -/

/-- A map from keys to values. -/
abbrev UnorderedMap (α β : Type) := Finmap fun _ : α => β

namespace UnorderedMap

variable {α β : Type} [DecidableEq α]

def find (m : UnorderedMap α β) (k : α) : Option β := m.lookup k

/-- `insert` of a pair. The value of a key that is there already stays. -/
def emplace (m : UnorderedMap α β) (k : α) (v : β) : UnorderedMap α β :=
  match m.find k with
  | none => m.insert k v
  | some _ => m

/-- The value of a key is changed in place. -/
def modify (m : UnorderedMap α β) (k : α) (f : β → β) : UnorderedMap α β :=
  match m.find k with
  | none => m
  | some v => m.insert k (f v)

def remove (m : UnorderedMap α β) (k : α) : UnorderedMap α β := Finmap.erase k m

def size (m : UnorderedMap α β) : ℕ := m.keys.card

/-- The values, each as often as it has keys. -/
def values (m : UnorderedMap α β) : Multiset β := m.entries.map Sigma.snd

variable {m : UnorderedMap α β} {k k' : α}

@[simp] theorem find_empty : find (∅ : UnorderedMap α β) k = none := Finmap.lookup_empty k

theorem mem_keys : k ∈ m.keys ↔ m.find k ≠ none := by
  rw [Finmap.mem_keys, ← Finmap.lookup_isSome, Option.isSome_iff_ne_none]
  rfl

theorem eq_empty_of_size (h : m.size = 0) : m = ∅ := by
  refine Finmap.ext_lookup fun k => ?_
  have hkey : k ∉ m.keys := by
    rw [Finset.card_eq_zero.1 h]
    exact Finset.notMem_empty k
  rw [mem_keys, not_not] at hkey
  exact hkey.trans find_empty.symm

@[simp] theorem find_remove_self : (m.remove k).find k = none := Finmap.lookup_erase k m

theorem find_remove_of_ne (h : k' ≠ k) : (m.remove k).find k' = m.find k' := Finmap.lookup_erase_ne h

theorem find_remove : (m.remove k).find k' = if k' = k then none else m.find k' := by
  split_ifs with h
  · rw [h, find_remove_self]
  · exact find_remove_of_ne h

theorem find_remove_eq : (m.remove k).find = Function.update m.find k none := by
  funext k'
  rw [find_remove, Function.update_apply]

theorem find_emplace_of_ne {v : β} (h : k' ≠ k) : (m.emplace k v).find k' = m.find k' := by
  unfold emplace
  cases m.find k with
  | none => exact Finmap.lookup_insert_of_ne m h
  | some w => rfl

/-- A key that is there keeps its value. -/
theorem emplace_of_some {v w : β} (h : m.find k = some w) : m.emplace k v = m := by
  unfold emplace
  rw [h]

theorem find_emplace_self {v : β} (h : m.find k = none) : (m.emplace k v).find k = some v := by
  unfold emplace
  rw [h]
  exact Finmap.lookup_insert m

/-- Where the key was not there, the map has the new value and else what it had. -/
theorem find_emplace {v : β} (h : m.find k = none) :
    (m.emplace k v).find k' = if k' = k then some v else m.find k' := by
  split_ifs with heq
  · rw [heq, find_emplace_self h]
  · exact find_emplace_of_ne heq

theorem find_emplace_eq {v : β} (h : m.find k = none) :
    (m.emplace k v).find = Function.update m.find k (some v) := by
  funext k'
  rw [find_emplace h, Function.update_apply]

/-- A key that was not there leaves nothing behind. -/
theorem remove_emplace {v : β} (h : m.find k = none) : (m.emplace k v).remove k = m := by
  refine Finmap.ext_lookup fun k' => ?_
  have hremove : ((m.emplace k v).remove k).find k' = if k' = k then none else (m.emplace k v).find k' := find_remove
  refine hremove.trans ?_
  split_ifs with heq
  · rw [heq]
    exact h.symm
  · exact find_emplace_of_ne heq

theorem keys_emplace {v : β} (h : m.find k = none) : (m.emplace k v).keys = insert k m.keys := by
  ext k'
  rw [mem_keys, find_emplace h, Finset.mem_insert, mem_keys]
  split_ifs with heq
  · exact iff_of_true (Option.some_ne_none v) (Or.inl heq)
  · exact ⟨Or.inr, fun h' => h'.resolve_left heq⟩

theorem size_emplace {v : β} (h : m.find k = none) : (m.emplace k v).size = m.size + 1 := by
  unfold size
  rw [keys_emplace h]
  exact Finset.card_insert_of_notMem fun hk => mem_keys.1 hk h

theorem size_remove {v : β} (h : m.find k = some v) : (m.remove k).size + 1 = m.size := by
  unfold size remove
  rw [Finmap.keys_erase]
  refine Finset.card_erase_add_one (mem_keys.2 ?_)
  rw [h]
  exact Option.some_ne_none v

theorem find_modify {f : β → β} :
    (m.modify k f).find k' = if k' = k then (m.find k).map f else m.find k' := by
  unfold modify
  cases hfind : m.find k with
  | none =>
      split_ifs with heq
      · rw [heq, hfind, Option.map_none]
      · rfl
  | some v =>
      split_ifs with heq
      · rw [heq]
        exact Finmap.lookup_insert m
      · exact Finmap.lookup_insert_of_ne m heq

theorem size_modify {f : β → β} : (m.modify k f).size = m.size := by
  refine congrArg Finset.card (Finset.ext fun k' => ?_)
  rw [mem_keys, mem_keys, find_modify]
  split_ifs with heq
  · rw [heq, Ne, Option.map_eq_none_iff]
  · rfl

theorem values_emplace {v : β} (h : m.find k = none) : (m.emplace k v).values = v ::ₘ m.values := by
  unfold emplace values
  rw [h]
  exact (congrArg _ (Finmap.entries_insert_of_notMem (Finmap.lookup_eq_none.1 h))).trans (Multiset.map_cons _ _ _)

/-- A key that is there can be put back. -/
theorem emplace_remove {v : β} (h : m.find k = some v) : (m.remove k).emplace k v = m := by
  refine Finmap.ext_lookup fun k' => (find_emplace find_remove_self).trans ?_
  split_ifs with heq
  · rw [heq]
    exact h.symm
  · exact find_remove_of_ne heq

theorem values_remove {v : β} (h : m.find k = some v) : m.values = v ::ₘ (m.remove k).values := by
  rw [← values_emplace find_remove_self, emplace_remove h]

theorem mem_values {v : β} : v ∈ m.values ↔ ∃ k, m.find k = some v := by
  unfold values
  rw [Multiset.mem_map]
  constructor
  · rintro ⟨⟨k, w⟩, hmem, rfl⟩
    exact ⟨k, Finmap.lookup_eq_some_iff.2 hmem⟩
  · rintro ⟨k, hk⟩
    exact ⟨⟨k, v⟩, Finmap.lookup_eq_some_iff.1 hk, rfl⟩

end UnorderedMap
