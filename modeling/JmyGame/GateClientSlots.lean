import JmyGame.GateTables
import JmyGame.LibLoop

/-! `ClientArray` as it is stored: an array of `ClientInfo`s that is indexed by the distance of an id from the first
one. An index outside of the array is not defined, and neither is an `int` that overflows. Where the ids and the sum
that `get` compares with fit an `int`, every slot is handed out once. -/

namespace JmyGame

namespace Indexed

/-- The sum of two `int`s. -/
def addInt (x y : ℤ) : Option ℤ := if -2 ^ 31 ≤ x + y ∧ x + y < 2 ^ 31 then some (x + y) else none

/-- `ClientArray`. A pointer to a `ClientInfo` is the index of its slot, and `info_array_` is null as long as it is
empty. -/
structure ClientArray where
  infoArray : List ClientInfo
  startId : ℤ
  infoSize : ℤ
  freeIds : List ℤ
  usedIds : Finset ℤ
  inited : Bool
  deriving DecidableEq

namespace ClientArray

def new : ClientArray := ⟨[], 0, 0, [], ∅, false⟩

variable (a : ClientArray)

def init (arraySize startId : ℤ) : Option (Bool × ClientArray) :=
  if arraySize ≤ 0 ∨ startId ≤ 0 then some (false, a)
  else if a.infoArray ≠ [] then some (true, a)
  else if a.inited then some (true, a)
  else ((List.range arraySize.toNat).mapM fun i : ℕ => addInt startId i).map fun ids =>
    (true, ⟨ids.map ClientInfo.new, startId, arraySize, a.freeIds ++ ids, a.usedIds, true⟩)

/-- `info_array_[id-start_id_]`. -/
def slot (id : ℤ) : Option ℕ :=
  if 0 ≤ id - a.startId ∧ id - a.startId < a.infoArray.length then some (id - a.startId).toNat else none

def getFree : Option (Option ℕ × ClientArray) :=
  if !a.inited then some (none, a)
  else match a.freeIds with
  | [] => some (none, a)
  | id :: rest => (a.slot id).map fun k => (some k, { a with
      infoArray := a.infoArray.modify k fun info => { info with id := id, used := true }
      freeIds := rest
      usedIds := insert id a.usedIds })

def get (id : ℤ) : Option (Option ℕ) :=
  if !a.inited then some none
  else if id < a.startId then some none
  else (addInt a.startId a.infoSize).bind fun last =>
    if last < id then some none
    else if id ∉ a.usedIds then some none
    else (a.slot id).map some

/-- `free(ClientInfo*)`. -/
def free (k : ℕ) : Option (Bool × ClientArray) :=
  if !a.inited then some (false, a)
  else a.infoArray[k]?.map fun info =>
    if !info.used then (false, a)
    else (true, { a with
      freeIds := info.id :: a.freeIds
      usedIds := a.usedIds.erase info.id
      infoArray := a.infoArray.modify k fun info => { info with used := false } })

/-- `free(int)`. -/
def freeId (id : ℤ) : Option (Bool × ClientArray) :=
  (a.get id).bind fun ci => ci.elim (some (false, a)) a.free

end ClientArray

inductive ArrayCall where
  | getFree
  | get (id : ℤ)
  | free (k : ℕ)
  | freeId (id : ℤ)
  deriving DecidableEq, Repr

/-- Only a slot of the array is given to `free`. -/
def ArrayCall.OfSlot (n : ℤ) : ArrayCall → Prop
  | .free k => k < n
  | _ => True

def arrayMachine : Machine ClientArray ArrayCall where
  step a
    | .getFree => a.getFree.map Prod.snd
    | .get id => (a.get id).map fun _ => a
    | .free k => (a.free k).map Prod.snd
    | .freeId id => (a.freeId id).map Prod.snd

/-- The ids from `start` on are free, each once, or used; a slot has its id and is in use under a used id; what `get`
finds is used, and what `getFree` gives was free. -/
structure ClientArray.HandsOutOnce (n start : ℤ) (a : ClientArray) : Prop where
  size : a.infoArray.length = n
  nodup : a.freeIds.Nodup
  disjoint : ∀ id ∈ a.freeIds, id ∉ a.usedIds
  ids : ∀ id, id ∈ a.freeIds ∨ id ∈ a.usedIds ↔ start ≤ id ∧ id < start + n
  slots : ∀ (k : ℕ) info, a.infoArray[k]? = some info → info.id = start + k ∧ (info.used = true ↔ info.id ∈ a.usedIds)
  get : ∀ id, ∃ ci, a.get id = some ci ∧ (ci ≠ none ↔ id ∈ a.usedIds) ∧
    ∀ k ∈ ci, ∃ info, a.infoArray[k]? = some info ∧ info.id = id
  getFree : ∃ ci a', a.getFree = some (ci, a') ∧ ∀ k ∈ ci, start + k ∈ a.freeIds

/-- The array of `n` slots stores what the table of the slots by their ids says. -/
structure Stores (n start : ℤ) (a : ClientArray) (v : JmyGame.ClientArray) : Prop where
  inited : a.inited = true
  size : a.infoArray.length = n
  infos : ∀ k : ℕ, k < n → a.infoArray[k]? = some (v.infoArray (start + k))
  startId : a.startId = start ∧ v.startId = start
  infoSize : a.infoSize = n ∧ v.infoSize = n
  freeIds : a.freeIds = v.freeIds
  usedIds : a.usedIds = v.usedIds

namespace Stores

variable {n start : ℤ} {a : ClientArray} {v : JmyGame.ClientArray} {k : ℕ}

theorem not_inited (h : Stores n start a v) : ¬(!a.inited) = true := by
  rw [h.inited]
  exact Bool.false_ne_true

theorem ids (h : Stores n start a v) (htidy : SlotsTidy v) (id : ℤ) :
    id ∈ v.freeIds ∨ id ∈ v.usedIds ↔ start ≤ id ∧ id < start + n := by
  rw [htidy.ids id, h.startId.2, h.infoSize.2]

/-- An id of the array has a slot. -/
theorem slot (h : Stores n start a v) {id : ℤ} (hid : start ≤ id ∧ id < start + n) :
    ∃ k : ℕ, a.slot id = some k ∧ start + k = id ∧ k < n := by
  have hrange : 0 ≤ id - a.startId ∧ id - a.startId < a.infoArray.length := by
    rw [h.startId.1, h.size]
    omega
  have hstart := h.startId.1
  exact ⟨(id - a.startId).toNat, if_pos hrange, by omega, by omega⟩

/-- A slot that is changed. -/
theorem modify (h : Stores n start a v) {f : ClientInfo → ClientInfo} {info : ClientInfo}
    (hinfo : info = f (v.infoArray (start + k))) {free : List ℤ} {used : Finset ℤ} :
    Stores n start { a with infoArray := a.infoArray.modify k f, freeIds := free, usedIds := used }
      { v with infoArray := Function.update v.infoArray (start + k) info, freeIds := free, usedIds := used } where
  inited := h.inited
  size := by rw [List.length_modify, h.size]
  infos := fun j hj => by
    rw [List.getElem?_modify, h.infos j hj, Option.map_eq_map, Option.map_some]
    refine congrArg some ?_
    by_cases hjk : k = j
    · rw [if_pos hjk, ← hjk]
      dsimp only
      rw [Function.update_self, hinfo]
    · rw [if_neg hjk]
      exact (Function.update_of_ne (by omega) _ _).symm
  startId := h.startId
  infoSize := h.infoSize
  freeIds := rfl
  usedIds := rfl

/-- `getFree` gives the slot of the first free id, if there is one. -/
theorem getFree (h : Stores n start a v) (htidy : SlotsTidy v) :
    (v.getFree = none ∧ a.getFree = some (none, a)) ∨
      ∃ (k : ℕ) (a' : ClientArray) (v' : JmyGame.ClientArray), v.getFree = some (start + k, v') ∧
        a.getFree = some (some k, a') ∧ start + k ∈ v.freeIds ∧ Stores n start a' v' ∧ SlotsTidy v' := by
  unfold ClientArray.getFree JmyGame.ClientArray.getFree
  rw [if_neg h.not_inited, h.freeIds, h.usedIds]
  cases hfree : v.freeIds with
  | nil => exact Or.inl ⟨rfl, rfl⟩
  | cons id rest =>
      obtain ⟨k, hslot, rfl, hk⟩ := h.slot ((h.ids htidy id).1 (Or.inl (hfree ▸ List.mem_cons_self)))
      have htaken : SlotsTidy { v with
          freeIds := rest
          usedIds := insert (start + k) v.usedIds
          infoArray := Function.update v.infoArray (start + k)
            { v.infoArray (start + k) with id := start + k, used := true } } := by
        refine htidy.taken hfree rfl rfl rfl rfl ?_ fun q hq => Function.update_of_ne hq _ _
        dsimp only
        rw [Function.update_self]
        exact ⟨rfl, rfl⟩
      have hstores : Stores n start
          { a with
            infoArray := a.infoArray.modify k fun info => { info with id := start + k, used := true }
            freeIds := rest
            usedIds := insert (start + k) v.usedIds }
          { v with
            freeIds := rest
            usedIds := insert (start + k) v.usedIds
            infoArray := Function.update v.infoArray (start + k)
              { v.infoArray (start + k) with id := start + k, used := true } } := h.modify rfl
      refine Or.inr ⟨k, _, _, rfl, ?_, List.mem_cons_self, hstores, htaken⟩
      dsimp only
      rw [hslot, Option.map_some]

/-- A slot in use is freed, and the others are refused. -/
theorem free (h : Stores n start a v) (htidy : SlotsTidy v) (hk : k < n) :
    ∃ a', a.free k = some ((v.free (start + k)).1, a') ∧ Stores n start a' (v.free (start + k)).2 ∧
      SlotsTidy (v.free (start + k)).2 := by
  unfold ClientArray.free
  rw [if_neg h.not_inited, h.infos k hk, Option.map_some]
  cases hused : (v.infoArray (start + k)).used with
  | false =>
      have hfree : v.free (start + k) = (false, v) := if_pos hused
      rw [hfree]
      exact ⟨a, rfl, h, htidy⟩
  | true =>
      have hfree : v.free (start + k) = (true, v.freed (start + k)) := if_neg (by rw [hused]; decide)
      rw [hfree, h.freeIds, h.usedIds]
      exact ⟨_, rfl, h.modify rfl, htidy.freed ((htidy.flags _).1 hused)⟩

/-- `get` finds the slots of the used ids, whatever it is asked for. -/
theorem get (h : Stores n start a v) (htidy : SlotsTidy v) (hn : 0 < n) (hstart : 0 < start) (hlt : start + n < 2 ^ 31)
    (id : ℤ) : (id ∉ v.usedIds ∧ a.get id = some none ∧ v.get id = none) ∨
      ∃ k : ℕ, id = start + k ∧ k < n ∧ id ∈ v.usedIds ∧ a.get id = some (some k) ∧ v.get id = some id := by
  have hlast : addInt a.startId a.infoSize = some (start + n) := by
    rw [h.startId.1, h.infoSize.1]
    exact if_pos (by omega)
  have hids := h.ids htidy id
  unfold ClientArray.get JmyGame.ClientArray.get
  rw [if_neg h.not_inited, hlast, h.startId.1, h.usedIds, h.startId.2, h.infoSize.2, Option.bind_some]
  by_cases hused : id ∈ v.usedIds
  · obtain ⟨hlow, hhigh⟩ := hids.1 (Or.inr hused)
    obtain ⟨k, hslot, rfl, hk⟩ := h.slot ⟨hlow, hhigh⟩
    refine Or.inr ⟨k, rfl, hk, hused, ?_, ?_⟩
    · rw [if_neg (by omega), if_neg (by omega), if_neg (not_not.2 hused), hslot, Option.map_some]
    · rw [if_neg (by omega), if_neg (not_not.2 hused)]
  · refine Or.inl ⟨hused, ?_, ?_⟩
    · rw [if_pos hused]
      split_ifs <;> rfl
    · rw [if_pos hused]
      split_ifs <;> rfl

/-- `free(int)` frees the slot that `get` finds. -/
theorem freeId (h : Stores n start a v) (htidy : SlotsTidy v) (hn : 0 < n) (hstart : 0 < start)
    (hlt : start + n < 2 ^ 31) (id : ℤ) :
    ∃ a', a.freeId id = some ((v.freeId id).1, a') ∧ Stores n start a' (v.freeId id).2 ∧ SlotsTidy (v.freeId id).2 := by
  unfold ClientArray.freeId JmyGame.ClientArray.freeId
  obtain ⟨-, hget, hget'⟩ | ⟨k, rfl, hk, -, hget, hget'⟩ := h.get htidy hn hstart hlt id
  · rw [hget, hget']
    exact ⟨a, rfl, h, htidy⟩
  · rw [hget, hget']
    exact h.free htidy hk

theorem handsOutOnce (h : Stores n start a v) (htidy : SlotsTidy v) (hn : 0 < n) (hstart : 0 < start)
    (hlt : start + n < 2 ^ 31) : a.HandsOutOnce n start where
  size := h.size
  nodup := h.freeIds ▸ htidy.nodup
  disjoint := by
    rw [h.freeIds, h.usedIds]
    exact htidy.disjoint
  ids := by
    rw [h.freeIds, h.usedIds]
    exact h.ids htidy
  slots := fun k info hinfo => by
    have hk : (k : ℤ) < n := by
      rw [← h.size]
      exact_mod_cast (List.getElem?_eq_some_iff.1 hinfo).1
    obtain rfl := Option.some.inj (hinfo.symm.trans (h.infos k hk))
    refine ⟨htidy.own _, ?_⟩
    rw [htidy.own, h.usedIds]
    exact htidy.flags _
  get := fun id => by
    rw [h.usedIds]
    obtain ⟨hunused, hget, -⟩ | ⟨k, rfl, hk, hused, hget, -⟩ := h.get htidy hn hstart hlt id
    · exact ⟨none, hget, iff_of_false (not_not.2 rfl) hunused, fun _ => nofun⟩
    · refine ⟨some k, hget, iff_of_true (Option.some_ne_none k) hused, ?_⟩
      rintro _ ⟨⟩
      exact ⟨_, h.infos k hk, htidy.own _⟩
  getFree := by
    rw [h.freeIds]
    obtain ⟨-, hget⟩ | ⟨k, a', -, -, hget, hfree, -⟩ := h.getFree htidy
    · exact ⟨none, a, hget, fun _ => nofun⟩
    · refine ⟨some k, a', hget, ?_⟩
      rintro _ ⟨⟩
      exact hfree

/-- Every call is defined and leaves an array of the same slots. -/
theorem step (h : Stores n start a v) (htidy : SlotsTidy v) (hn : 0 < n) (hstart : 0 < start)
    (hlt : start + n < 2 ^ 31) {e : ArrayCall} (he : e.OfSlot n) :
    ∃ a', arrayMachine.step a e = some a' ∧ ∃ v', Stores n start a' v' ∧ SlotsTidy v' := by
  cases e with
  | getFree =>
      obtain ⟨-, hget⟩ | ⟨k, a', v', -, hget, -, hstores, htidy'⟩ := h.getFree htidy
      · exact ⟨a, congrArg (Option.map Prod.snd) hget, v, h, htidy⟩
      · exact ⟨a', congrArg (Option.map Prod.snd) hget, v', hstores, htidy'⟩
  | get id =>
      obtain ⟨-, hget, -⟩ | ⟨k, -, -, -, hget, -⟩ := h.get htidy hn hstart hlt id
      · exact ⟨a, congrArg (Option.map fun _ => a) hget, v, h, htidy⟩
      · exact ⟨a, congrArg (Option.map fun _ => a) hget, v, h, htidy⟩
  | free k =>
      obtain ⟨a', hfree, hstores⟩ := h.free htidy he
      exact ⟨a', congrArg (Option.map Prod.snd) hfree, _, hstores⟩
  | freeId id =>
      obtain ⟨a', hfree, hstores⟩ := h.freeId htidy hn hstart hlt id
      exact ⟨a', congrArg (Option.map Prod.snd) hfree, _, hstores⟩

end Stores

namespace ClientArray

variable {n start : ℤ}

theorem init_new (hn : 0 < n) (hstart : 0 < start) : new.init n start =
    ((List.range n.toNat).mapM fun i : ℕ => addInt start i).map fun ids =>
      (true, ⟨ids.map .new, start, n, ids, ∅, true⟩) := by
  unfold init
  rw [if_neg (by omega)]
  rfl

/-- Where the ids fit an `int`, the array is filled. -/
theorem init_stores (hn : 0 < n) (hstart : 0 < start) (hle : start + n ≤ 2 ^ 31) :
    ∃ a, new.init n start = some (true, a) ∧ Stores n start a (.init n.toNat start) := by
  have hids : (List.range n.toNat).mapM (fun i : ℕ => addInt start i) =
      some ((List.range n.toNat).map fun i : ℕ => start + i) := by
    refine Loop.mapM_eq_map fun i hi => if_pos ?_
    rw [List.mem_range] at hi
    omega
  rw [init_new hn hstart, hids, Option.map_some]
  refine ⟨_, rfl, rfl, ?_, fun k hk => ?_, ⟨rfl, rfl⟩, ⟨rfl, Int.toNat_of_nonneg hn.le⟩, rfl, rfl⟩
  · rw [List.length_map, List.length_map, List.length_range, Int.toNat_of_nonneg hn.le]
  · have hlt : k < n.toNat := by omega
    rw [List.getElem?_map, List.getElem?_map, List.getElem?_range hlt]
    rfl

/-- Where the last id does not fit, `init` overflows. -/
theorem init_undefined (hn : 0 < n) (hstart : 0 < start) (hlt : 2 ^ 31 < start + n) : new.init n start = none := by
  have hlast : n.toNat - 1 ∈ List.range n.toNat := List.mem_range.2 (by omega)
  have hover : addInt start (n.toNat - 1 : ℕ) = none := if_neg (by omega)
  rw [init_new hn hstart, Loop.mapM_eq_none_iff.2 ⟨_, hlast, hover⟩, Option.map_none]

/-- An array whose slots end with the last `int` cannot look up the first one. -/
theorem not_handsOutOnce {a : ClientArray} {v : JmyGame.ClientArray} (h : Stores n start a v)
    (heq : start + n = 2 ^ 31) : ¬a.HandsOutOnce n start := by
  intro hout
  obtain ⟨ci, hget, -⟩ := hout.get start
  have hover : addInt a.startId a.infoSize = none := by
    rw [h.startId.1, h.infoSize.1]
    exact if_neg (by omega)
  unfold ClientArray.get at hget
  rw [if_neg h.not_inited, h.startId.1, if_neg (lt_irrefl start), ← h.startId.1, hover] at hget
  cases hget

/-- Every slot is handed out once, whatever calls are made, exactly when the id behind the last one is an `int`. -/
theorem handsOutOnce_iff (hn : 0 < n) (hstart : 0 < start) :
    (∃ a, new.init n start = some (true, a) ∧ ∀ es : List ArrayCall, (∀ e ∈ es, e.OfSlot n) →
      ∃ t, arrayMachine.run a es = some t ∧ t.HandsOutOnce n start) ↔ start + n < 2 ^ 31 := by
  constructor
  · rintro ⟨a, hinit, hruns⟩
    by_contra hlt
    rcases lt_or_eq_of_le (not_lt.1 hlt) with hover | hlast
    · rw [init_undefined hn hstart hover] at hinit
      cases hinit
    · obtain ⟨a', hinit', hstores⟩ := init_stores hn hstart hlast.ge
      rw [hinit] at hinit'
      cases hinit'
      obtain ⟨t, hrun, hout⟩ := hruns [] fun _ => nofun
      obtain rfl := Option.some.inj hrun
      exact not_handsOutOnce hstores hlast.symm hout
  · intro hlt
    obtain ⟨a, hinit, hstores⟩ := init_stores hn hstart hlt.le
    have hstep : ∀ a e, ArrayCall.OfSlot n e → (∃ v, Stores n start a v ∧ SlotsTidy v) →
        ∃ a', arrayMachine.step a e = some a' ∧ ∃ v', Stores n start a' v' ∧ SlotsTidy v' :=
      fun a e he ⟨v, hv, htidy⟩ => hv.step htidy hn hstart hlt he
    refine ⟨a, hinit, fun es hes => ?_⟩
    obtain ⟨t, hrun, v, hv, htidy⟩ := Machine.exists_run hstep ⟨_, hstores, SlotsTidy.init _ _⟩ hes
    exact ⟨t, hrun, hv.handsOutOnce htidy hn hstart hlt⟩

theorem tenClients_handsOutOnce :
    ∃ a, new.init 10 100000 = some (true, a) ∧ ∀ es : List ArrayCall, (∀ e ∈ es, e.OfSlot 10) →
      ∃ t, arrayMachine.run a es = some t ∧ t.HandsOutOnce 10 100000 :=
  (handsOutOnce_iff (by decide) (by decide)).2 (by decide)

/-- Two slots, of which the second has the last `int` as its id. The first one is given out, and to look it up is not
defined. -/
theorem lastIds_overflow :
    ¬(∃ a, new.init 2 (2 ^ 31 - 2) = some (true, a) ∧ ∀ es : List ArrayCall, (∀ e ∈ es, e.OfSlot 2) →
      ∃ t, arrayMachine.run a es = some t ∧ t.HandsOutOnce 2 (2 ^ 31 - 2)) ∧
    ∃ a, new.init 2 (2 ^ 31 - 2) = some (true, a) ∧ (arrayMachine.run a [.getFree]).isSome = true ∧
      arrayMachine.run a [.getFree, .get (2 ^ 31 - 2)] = none := by
  have hinit : new.init 2 (2 ^ 31 - 2) = some (true,
      ⟨[.new (2 ^ 31 - 2), .new (2 ^ 31 - 1)], 2 ^ 31 - 2, 2, [2 ^ 31 - 2, 2 ^ 31 - 1], ∅, true⟩) := by decide
  have hundefined : arrayMachine.run
      ⟨[.new (2 ^ 31 - 2), .new (2 ^ 31 - 1)], 2 ^ 31 - 2, 2, [2 ^ 31 - 2, 2 ^ 31 - 1], ∅, true⟩
      [.getFree, .get (2 ^ 31 - 2)] = none := by decide
  refine ⟨?_, _, hinit, by decide, hundefined⟩
  rintro ⟨a, ha, hruns⟩
  obtain rfl := (Prod.mk.inj (Option.some.inj (ha.symm.trans hinit))).2
  obtain ⟨t, hrun, -⟩ := hruns [.getFree, .get (2 ^ 31 - 2)] (by simp [ArrayCall.OfSlot])
  exact nomatch hundefined.symm.trans hrun

end ClientArray

end Indexed

end JmyGame
