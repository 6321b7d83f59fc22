import Mathlib.Data.Finset.Card
import JmyGame.CommonBiMap
import JmyGame.CommonMessages

/-! `PlayerPool` and `PlayerManager`: the players of the game server, the table that gives the role of a
user id and the table that gives the player of a role. A player is named by the number of its object. -/

namespace JmyGame

/-- `ItemMgr`: the number of items of each type. -/
structure ItemMgr where
  items : BitVec 32 → Option (BitVec 32)

namespace ItemMgr

def empty : ItemMgr := ⟨fun _ => none⟩

variable (m : ItemMgr)

/-- The number of items of a type. -/
def count (typeId : BitVec 32) : BitVec 32 := (m.items typeId).getD 0

def set (typeId num : BitVec 32) : ItemMgr := ⟨Function.update m.items typeId (some num)⟩

/-- `add_item`; `itemTable` is the table of items with their `max_count`. -/
def addItem (itemTable : BitVec 32 → Option ℤ) (typeId itemNum : BitVec 32) : Option ItemMgr :=
  (itemTable typeId).map fun maxCount =>
    match m.items typeId with
    | none => m.set typeId (if maxCount < itemNum.toInt then BitVec.ofInt 32 maxCount else itemNum)
    | some num => m.set typeId
      (if maxCount < (num + itemNum).toInt then BitVec.ofInt 32 maxCount else num + itemNum)

/-- `rm_item`. -/
def rmItem (typeId itemNum : BitVec 32) : Option ItemMgr :=
  match m.items typeId with
  | none => none
  | some num => if num.toNat < itemNum.toNat then none else some (m.set typeId (num - itemNum))

end ItemMgr

structure Player where
  userId : ℤ
  roleId : BitVec 64
  level : ℤ
  items : ItemMgr

/-- A new object. -/
def Player.new : Player := ⟨0, 0, 0, .empty⟩

/-- `PlayerPool`; the objects from `next` on are not allocated. -/
structure PlayerPool where
  freeList : List ℕ
  usedSet : Finset ℕ
  next : ℕ

namespace PlayerPool

def empty : PlayerPool := ⟨[], ∅, 0⟩

/-- `ONCE_MALLOC_PLAYER_OBJ_COUNT`. -/
def onceMallocPlayerObjCount : ℕ := 1000

variable (p : PlayerPool)

def grow : PlayerPool :=
  { p with freeList := p.freeList ++ List.range' p.next onceMallocPlayerObjCount
           next := p.next + onceMallocPlayerObjCount }

def growIfLow : PlayerPool := if p.freeList.length < 100 then p.grow else p

/-- `malloc`: the front of the list, which is not empty when it has grown. -/
def malloc : ℕ × PlayerPool :=
  let front := p.growIfLow.freeList.headD 0
  (front, { p.growIfLow with
    freeList := p.growIfLow.freeList.tail
    usedSet := insert front p.growIfLow.usedSet })

def free (obj : ℕ) : Option PlayerPool :=
  if obj ∈ p.usedSet then
    some { p with freeList := obj :: p.freeList, usedSet := p.usedSet.erase obj }
  else none

end PlayerPool

structure PlayerManager where
  startPlayerId : ℤ
  maxPlayerSize : ℤ
  onlineRoleIds : Option (ℤ → BitVec 64)
  account2roleId : BiMap Str (BitVec 64)
  allPlayers : BitVec 64 → Option ℕ
  pool : PlayerPool
  objs : ℕ → Player

namespace PlayerManager

def empty : PlayerManager := ⟨0, 0, none, .empty, fun _ => none, .empty, fun _ => .new⟩

variable (m : PlayerManager)

/-- The place of a user id in `online_role_ids_`, when it has one. -/
def index (userId : ℤ) : Option ℤ :=
  if userId - m.startPlayerId < 0 ∨ m.maxPlayerSize ≤ userId - m.startPlayerId then none
  else some (userId - m.startPlayerId)

/-- `init`, which makes the table once. -/
def init (startId maxSize : ℤ) : Bool × PlayerManager :=
  if startId ≤ 0 ∨ maxSize ≤ 0 then (false, m)
  else if m.onlineRoleIds = none then
    (true, { m with onlineRoleIds := some fun _ => 0, startPlayerId := startId, maxPlayerSize := maxSize })
  else (true, m)

/-- `malloc(user_id, role_id)`. The player of a role that has one already is not replaced. -/
def malloc (userId : ℤ) (roleId : BitVec 64) : PlayerManager :=
  match m.onlineRoleIds, m.index userId with
  | some ids, some i =>
    let obj := m.pool.malloc
    { m with
      onlineRoleIds := some (Function.update ids i roleId)
      pool := obj.2
      objs := Function.update m.objs obj.1 { m.objs obj.1 with userId := userId, roleId := roleId }
      allPlayers := if m.allPlayers roleId = none then
        Function.update m.allPlayers roleId (some obj.1) else m.allPlayers }
  | _, _ => m

def getByRoleId (roleId : BitVec 64) : Option ℕ := m.allPlayers roleId

/-- `get`. -/
def get (userId : ℤ) : Option ℕ :=
  match m.index userId, m.onlineRoleIds with
  | some i, some ids => m.getByRoleId (ids i)
  | _, _ => none

/-- `getRoleIdByUserId`. The table is there when a user id has a place in it. -/
def getRoleIdByUserId (userId : ℤ) : BitVec 64 :=
  match m.index userId, m.onlineRoleIds with
  | some i, some ids => ids i
  | _, _ => 0

/-- `free(int)`, by user id. -/
def free (userId : ℤ) : Bool × PlayerManager :=
  match m.index userId, m.onlineRoleIds with
  | some i, some ids =>
    match m.allPlayers (ids i) with
    | none => (false, m)
    | some obj =>
      match m.pool.free obj with
      | none => (false, m)
      | some pool => (true, { m with
          pool := pool
          account2roleId := (m.account2roleId.remove2 (ids i)).2
          onlineRoleIds := some (Function.update ids i 0)
          allPlayers := Function.update m.allPlayers (ids i) none })
  | _, _ => (false, m)

/-- A change of a player. -/
def modify (obj : ℕ) (f : Player → Player) : PlayerManager :=
  { m with objs := Function.update m.objs obj (f (m.objs obj)) }

end PlayerManager

/-- An object of the pool is free or in use. -/
structure PoolFits (p : PlayerPool) : Prop where
  nodup : p.freeList.Nodup
  free : ∀ obj ∈ p.freeList, obj ∉ p.usedSet
  bound : ∀ obj, obj ∈ p.freeList ∨ obj ∈ p.usedSet → obj < p.next

namespace PoolFits

variable {p p' : PlayerPool}

theorem empty : PoolFits .empty :=
  ⟨List.nodup_nil, fun _ h => absurd h List.not_mem_nil, fun _ h => by
    rcases h with h | h
    · exact absurd h List.not_mem_nil
    · exact absurd h (Finset.notMem_empty _)⟩

theorem growIfLow (h : PoolFits p) : PoolFits p.growIfLow := by
  unfold PlayerPool.growIfLow
  split_ifs
  · refine ⟨?_, ?_, ?_⟩
    · refine List.nodup_append'.2 ⟨h.nodup, List.nodup_range', ?_⟩
      intro obj hobj hnew
      have hlt := h.bound obj (Or.inl hobj)
      exact absurd (List.mem_range'_1.1 hnew).1 (not_le.2 hlt)
    · intro obj hobj hused
      rcases List.mem_append.1 hobj with hobj | hnew
      · exact h.free obj hobj hused
      · have hlt := h.bound obj (Or.inr hused)
        exact absurd (List.mem_range'_1.1 hnew).1 (not_le.2 hlt)
    · intro obj hobj
      rcases hobj with hobj | hused
      · rcases List.mem_append.1 hobj with hobj | hnew
        · exact Nat.lt_add_right _ (h.bound obj (Or.inl hobj))
        · exact (List.mem_range'_1.1 hnew).2
      · exact Nat.lt_add_right _ (h.bound obj (Or.inr hused))
  · exact h

theorem growIfLow_ne_nil (p : PlayerPool) : p.growIfLow.freeList ≠ [] := by
  unfold PlayerPool.growIfLow
  split_ifs with hlow
  · exact List.append_ne_nil_of_right_ne_nil _ (List.cons_ne_nil _ _)
  · intro hnil
    rw [hnil] at hlow
    exact hlow (Nat.zero_lt_succ _)

/-- The object that is given out was not in use. -/
theorem malloc (h : PoolFits p) : p.malloc.1 ∉ p.usedSet ∧ PoolFits p.malloc.2 ∧
    p.malloc.2.usedSet = insert p.malloc.1 p.usedSet := by
  have hgrow := h.growIfLow
  have hused : p.growIfLow.usedSet = p.usedSet := by
    unfold PlayerPool.growIfLow
    split_ifs <;> rfl
  obtain ⟨front, rest, hfree⟩ := List.exists_cons_of_ne_nil (growIfLow_ne_nil p)
  have hnodup := List.nodup_cons.1 (hfree ▸ hgrow.nodup)
  have hfront : p.malloc.1 = front := by rw [PlayerPool.malloc, hfree]; rfl
  have hrest : p.malloc.2.freeList = rest := by rw [PlayerPool.malloc, hfree]; rfl
  have hnew : p.malloc.2.usedSet = insert front p.usedSet := by
    rw [PlayerPool.malloc, hfree, hused]
    rfl
  refine ⟨?_, ⟨hrest ▸ hnodup.2, ?_, ?_⟩, hfront ▸ hnew⟩
  · rw [hfront, ← hused]
    exact hgrow.free front (hfree ▸ List.mem_cons_self)
  · intro obj hobj hmem
    rw [hrest] at hobj
    rw [hnew] at hmem
    rcases Finset.mem_insert.1 hmem with rfl | hmem
    · exact hnodup.1 hobj
    · exact hgrow.free obj (hfree ▸ List.mem_cons_of_mem front hobj) (hused ▸ hmem)
  · intro obj hobj
    rw [hrest, hnew] at hobj
    apply hgrow.bound obj
    rw [hfree, hused]
    rcases hobj with hobj | hobj
    · exact Or.inl (List.mem_cons_of_mem front hobj)
    · rcases Finset.mem_insert.1 hobj with rfl | hobj
      · exact Or.inl List.mem_cons_self
      · exact Or.inr hobj

theorem of_free (h : PoolFits p) {obj : ℕ} (hfree : p.free obj = some p') :
    PoolFits p' ∧ p'.usedSet = p.usedSet.erase obj := by
  obtain ⟨hused, heq⟩ := Option.ite_none_right_eq_some.1 hfree
  cases heq
  refine ⟨⟨?_, ?_, ?_⟩, rfl⟩
  · exact List.nodup_cons.2 ⟨fun hmem => h.free obj hmem hused, h.nodup⟩
  · intro obj' hobj' hmem
    obtain ⟨hne, hmem⟩ := Finset.mem_erase.1 hmem
    rcases List.mem_cons.1 hobj' with rfl | hobj'
    · exact hne rfl
    · exact h.free obj' hobj' hmem
  · intro obj' hobj'
    apply h.bound obj'
    rcases hobj' with hobj' | hobj'
    · rcases List.mem_cons.1 hobj' with rfl | hobj'
      · exact Or.inr hused
      · exact Or.inl hobj'
    · exact Or.inr (Finset.mem_of_mem_erase hobj')

end PoolFits

/-- The player of a role is an object in use with this role. -/
structure PlayersFit (m : PlayerManager) : Prop where
  pool : PoolFits m.pool
  role : ∀ roleId obj, m.allPlayers roleId = some obj →
    (m.objs obj).roleId = roleId ∧ obj ∈ m.pool.usedSet

/-- The user id leads to a player with the role. -/
def Plays (m : PlayerManager) (userId : ℤ) (roleId : BitVec 64) : Prop :=
  (∃ obj, m.get userId = some obj ∧ (m.objs obj).roleId = roleId) ∧ m.getRoleIdByUserId userId = roleId

/-- The players and their roles are the same. -/
structure SamePlayers (m m' : PlayerManager) : Prop where
  start : m'.startPlayerId = m.startPlayerId
  size : m'.maxPlayerSize = m.maxPlayerSize
  online : m'.onlineRoleIds = m.onlineRoleIds
  all : m'.allPlayers = m.allPlayers
  pool : m'.pool = m.pool
  role : ∀ obj, (m'.objs obj).roleId = (m.objs obj).roleId

namespace SamePlayers

variable {m m' m'' : PlayerManager}

theorem refl (m : PlayerManager) : SamePlayers m m := ⟨rfl, rfl, rfl, rfl, rfl, fun _ => rfl⟩

theorem modify (m : PlayerManager) (obj : ℕ) {f : Player → Player}
    (hrole : (f (m.objs obj)).roleId = (m.objs obj).roleId) : SamePlayers m (m.modify obj f) := by
  refine ⟨rfl, rfl, rfl, rfl, rfl, fun obj' => ?_⟩
  by_cases h : obj' = obj
  · simp only [h, PlayerManager.modify, Function.update_self, hrole]
  · simp only [PlayerManager.modify, Function.update_of_ne h]

theorem fits (h : SamePlayers m m') (hm : PlayersFit m) : PlayersFit m' := by
  refine ⟨h.pool ▸ hm.pool, fun roleId obj hobj => ?_⟩
  rw [h.all] at hobj
  rw [h.role, h.pool]
  exact hm.role roleId obj hobj

theorem plays (h : SamePlayers m m') (userId : ℤ) (roleId : BitVec 64) :
    Plays m' userId roleId ↔ Plays m userId roleId := by
  have hindex : m'.index userId = m.index userId := by
    rw [PlayerManager.index, PlayerManager.index, h.start, h.size]
  simp only [Plays, PlayerManager.get, PlayerManager.getRoleIdByUserId, PlayerManager.getByRoleId,
    hindex, h.online, h.all, h.role]

end SamePlayers

/-- `free` refuses, or it takes the player of the user id out of the tables. -/
theorem free_cases (m : PlayerManager) (userId : ℤ) :
    m.free userId = (false, m) ∨ ∃ i ids obj pool, m.index userId = some i ∧ m.onlineRoleIds = some ids ∧
      m.allPlayers (ids i) = some obj ∧ m.pool.free obj = some pool ∧ m.free userId = (true, { m with
        pool := pool
        account2roleId := (m.account2roleId.remove2 (ids i)).2
        onlineRoleIds := some (Function.update ids i 0)
        allPlayers := Function.update m.allPlayers (ids i) none }) := by
  unfold PlayerManager.free
  split
  · rename_i i ids hi hids
    cases hobj : m.allPlayers (ids i) with
    | none => exact Or.inl rfl
    | some obj =>
        dsimp only
        cases hfree : m.pool.free obj with
        | none => exact Or.inl rfl
        | some pool => exact Or.inr ⟨i, ids, obj, pool, hi, hids, hobj, hfree, rfl⟩
  · exact Or.inl rfl

namespace PlayersFit

variable {m : PlayerManager}

theorem empty : PlayersFit .empty := ⟨PoolFits.empty, fun _ _ h => by cases h⟩

theorem init (h : PlayersFit m) (startId maxSize : ℤ) : PlayersFit (m.init startId maxSize).2 := by
  unfold PlayerManager.init
  split_ifs
  · exact h
  · exact ⟨h.pool, h.role⟩
  · exact h

/-- The role of a player that is added has a player then, and the players of other roles stay. -/
theorem malloc_all (m : PlayerManager) (roleId roleId' : BitVec 64) :
    (if m.allPlayers roleId = none then Function.update m.allPlayers roleId (some m.pool.malloc.1)
      else m.allPlayers) roleId' =
      if roleId' = roleId then some ((m.allPlayers roleId).getD m.pool.malloc.1)
      else m.allPlayers roleId' := by
  cases hold : m.allPlayers roleId with
  | none =>
      simp only [if_true, Function.update_apply, Option.getD_none]
  | some obj =>
      simp only [reduceCtorEq, if_false, Option.getD_some]
      split_ifs with heq
      · rw [heq, hold]
      · rfl

theorem malloc (h : PlayersFit m) (userId : ℤ) (roleId : BitVec 64) : PlayersFit (m.malloc userId roleId) := by
  unfold PlayerManager.malloc
  split
  · rename_i ids i hids hi
    obtain ⟨hfresh, hpool, hused⟩ := h.pool.malloc
    refine ⟨hpool, fun roleId' obj hobj => ?_⟩
    dsimp only at hobj ⊢
    rw [malloc_all] at hobj
    rw [hused]
    have hold : ∀ roleId' obj, m.allPlayers roleId' = some obj →
        (Function.update m.objs m.pool.malloc.1 { m.objs m.pool.malloc.1 with
          userId := userId, roleId := roleId } obj).roleId = roleId' ∧
        obj ∈ insert m.pool.malloc.1 m.pool.usedSet := by
      intro roleId' obj hobj
      obtain ⟨hrole, hmem⟩ := h.role roleId' obj hobj
      have hne : obj ≠ m.pool.malloc.1 := fun heq => hfresh (heq ▸ hmem)
      rw [Function.update_of_ne hne]
      exact ⟨hrole, Finset.mem_insert_of_mem hmem⟩
    split_ifs at hobj with heq
    · subst heq
      cases hrole : m.allPlayers roleId' with
      | none =>
          rw [hrole, Option.getD_none, Option.some.injEq] at hobj
          rw [← hobj, Function.update_self]
          exact ⟨rfl, Finset.mem_insert_self _ _⟩
      | some obj' =>
          rw [hrole, Option.getD_some] at hobj
          exact hold roleId' obj (hrole.trans hobj)
    · exact hold roleId' obj hobj
  · exact h

/-- A role loses its player, and the object is free again. -/
theorem remove {m' : PlayerManager} {roleId : BitVec 64} {obj : ℕ} (h : PlayersFit m)
    (hobj : m.allPlayers roleId = some obj) (hfree : m.pool.free obj = some m'.pool) (hobjs : m'.objs = m.objs)
    (hall : m'.allPlayers = Function.update m.allPlayers roleId none) : PlayersFit m' := by
  obtain ⟨hpool, hused⟩ := h.pool.of_free hfree
  refine ⟨hpool, fun roleId' obj' hobj' => ?_⟩
  rw [hall, Function.update_apply] at hobj'
  split_ifs at hobj' with heq
  obtain ⟨hrole, hmem⟩ := h.role roleId' obj' hobj'
  rw [hobjs, hused]
  refine ⟨hrole, Finset.mem_erase.2 ⟨fun hsame => heq ?_, hmem⟩⟩
  rw [← hrole, hsame, (h.role _ obj hobj).1]

theorem free (h : PlayersFit m) (userId : ℤ) : PlayersFit (m.free userId).2 := by
  obtain heq | ⟨i, ids, obj, pool, -, -, hobj, hfree, heq⟩ := free_cases m userId
  · rw [heq]
    exact h
  · rw [heq]
    exact h.remove hobj hfree rfl rfl

end PlayersFit

theorem index_inj {m : PlayerManager} {u v i : ℤ} (hu : m.index u = some i) (hv : m.index v = some i) :
    u = v := by
  unfold PlayerManager.index at hu hv
  split_ifs at hu hv
  simp only [Option.some.injEq] at hu hv
  omega

/-- `malloc` for a user id with a place in the table. -/
theorem malloc_eq {m : PlayerManager} {userId i : ℤ} {ids : ℤ → BitVec 64} (roleId : BitVec 64)
    (hids : m.onlineRoleIds = some ids) (hi : m.index userId = some i) :
    m.malloc userId roleId = { m with
      onlineRoleIds := some (Function.update ids i roleId)
      pool := m.pool.malloc.2
      objs := Function.update m.objs m.pool.malloc.1
        { m.objs m.pool.malloc.1 with userId := userId, roleId := roleId }
      allPlayers := if m.allPlayers roleId = none then
        Function.update m.allPlayers roleId (some m.pool.malloc.1) else m.allPlayers } := by
  rw [PlayerManager.malloc, hids, hi]

/-- A user id that gets a player plays its role. -/
theorem plays_malloc {m : PlayerManager} {userId i : ℤ} {ids : ℤ → BitVec 64} {roleId : BitVec 64}
    (h : PlayersFit m) (hids : m.onlineRoleIds = some ids) (hi : m.index userId = some i) :
    Plays (m.malloc userId roleId) userId roleId := by
  have hfits := h.malloc userId roleId
  have hindex : (m.malloc userId roleId).index userId = some i := by rw [malloc_eq roleId hids hi]; exact hi
  have honline : (m.malloc userId roleId).onlineRoleIds = some (Function.update ids i roleId) := by
    rw [malloc_eq roleId hids hi]
  obtain ⟨obj, hobj⟩ : ∃ obj, (m.malloc userId roleId).allPlayers roleId = some obj := by
    rw [malloc_eq roleId hids hi]
    refine ⟨_, (PlayersFit.malloc_all m roleId roleId).trans (if_pos rfl)⟩
  refine ⟨⟨obj, ?_, (hfits.role roleId obj hobj).1⟩, ?_⟩
  · simp only [PlayerManager.get, PlayerManager.getByRoleId, hindex, honline, Function.update_self, hobj]
  · simp only [PlayerManager.getRoleIdByUserId, hindex, honline, Function.update_self]

/-- A player for another user id changes nothing for this one. -/
theorem plays_malloc_of_ne {m : PlayerManager} {userId userId' : ℤ} {roleId roleId' : BitVec 64}
    (h : PlayersFit m) (hne : userId ≠ userId') (hplays : Plays m userId roleId) :
    Plays (m.malloc userId' roleId') userId roleId := by
  cases hids : m.onlineRoleIds with
  | none =>
      rw [PlayerManager.malloc, hids]
      exact hplays
  | some ids =>
      cases hi : m.index userId' with
      | none =>
          rw [PlayerManager.malloc, hids, hi]
          exact hplays
      | some i =>
          obtain ⟨⟨obj, hget, hrole⟩, hrid⟩ := hplays
          rw [PlayerManager.get] at hget
          rw [PlayerManager.getRoleIdByUserId] at hrid
          split at hget
          · rename_i i' ids' hi' hids'
            obtain rfl : ids = ids' := by simpa [hids] using hids'
            simp only [hi', hids] at hrid
            have hplace : i' ≠ i := fun heq => hne (index_inj (heq ▸ hi') hi)
            have hindex : (m.malloc userId' roleId').index userId = some i' := by
              rw [malloc_eq roleId' hids hi]
              exact hi'
            have honline : (m.malloc userId' roleId').onlineRoleIds =
                some (Function.update ids i roleId') := by rw [malloc_eq roleId' hids hi]
            have hall : (m.malloc userId' roleId').allPlayers (ids i') = some obj := by
              rw [malloc_eq roleId' hids hi]
              refine (PlayersFit.malloc_all m roleId' (ids i')).trans ?_
              split_ifs with heq
              · rw [← heq, show m.allPlayers (ids i') = some obj from hget, Option.getD_some]
              · exact hget
            refine ⟨⟨obj, ?_, ?_⟩, ?_⟩
            · simp only [PlayerManager.get, PlayerManager.getByRoleId, hindex, honline,
                Function.update_of_ne hplace, hall]
            · rw [((h.malloc userId' roleId').role _ obj hall).1, hrid]
            · simp only [PlayerManager.getRoleIdByUserId, hindex, honline,
                Function.update_of_ne hplace, hrid]
          · cases hget

/-- `free` of an id without a place in the table frees nothing. -/
theorem free_of_index {m : PlayerManager} {userId : ℤ} (h : m.index userId = none) :
    m.free userId = (false, m) := by
  rw [PlayerManager.free, h]

theorem malloc_table (m : PlayerManager) (userId : ℤ) (roleId : BitVec 64) :
    (m.malloc userId roleId).startPlayerId = m.startPlayerId ∧
      (m.malloc userId roleId).maxPlayerSize = m.maxPlayerSize ∧
      ((m.malloc userId roleId).onlineRoleIds = none → m.onlineRoleIds = none) := by
  unfold PlayerManager.malloc
  split
  · exact ⟨rfl, rfl, fun h => by cases h⟩
  · exact ⟨rfl, rfl, id⟩

/-- `init` makes the table when there is none. -/
theorem init_table {m : PlayerManager} {startId maxSize : ℤ} (h : (m.init startId maxSize).1 = true) :
    (m.init startId maxSize).2.onlineRoleIds ≠ none ∧
      (m.onlineRoleIds = none ∧ (m.init startId maxSize).2.startPlayerId = startId ∧
          (m.init startId maxSize).2.maxPlayerSize = maxSize ∨
        m.onlineRoleIds ≠ none ∧ (m.init startId maxSize).2 = m) := by
  unfold PlayerManager.init at h ⊢
  split_ifs at h ⊢ with hbad hnone
  · exact ⟨Option.some_ne_none _, Or.inl ⟨hnone, rfl, rfl⟩⟩
  · exact ⟨hnone, Or.inr ⟨hnone, rfl⟩⟩

end JmyGame
