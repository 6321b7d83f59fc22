import JmyGame.GamePlayerTables

/-! What a player finds in the object that it gets. `PlayerPool` gives out the object that was freed last, and neither
`free` nor `malloc` touches its level and its items. -/

namespace JmyGame

inductive PlayerChange where
  | addItem (typeId itemNum : BitVec 32)
  | rmItem (typeId itemNum : BitVec 32)
  | setLevel (level : ℤ)
  deriving DecidableEq

/-- The player after a change; `gm_levelup` sets the level. -/
def PlayerChange.apply (itemTable : BitVec 32 → Option ℤ) : PlayerChange → Player → Player
  | .addItem typeId itemNum, p => { p with items := (p.items.addItem itemTable typeId itemNum).getD p.items }
  | .rmItem typeId itemNum, p => { p with items := (p.items.rmItem typeId itemNum).getD p.items }
  | .setLevel level, p => { p with level := level }

inductive PlayerEvent where
  | call (c : PlayerCall)
  | change (obj : ℕ) (c : PlayerChange)
  deriving DecidableEq

/-- Only players in use change. -/
def playerEvents (itemTable : BitVec 32 → Option ℤ) : Machine PlayerManager PlayerEvent where
  step m
    | .call c => m.call c
    | .change obj c => if obj ∈ m.pool.usedSet then some (m.modify obj (c.apply itemTable)) else none

/-- The calls of a history. -/
def playerCalls (es : List PlayerEvent) : List PlayerCall :=
  es.filterMap fun
    | .call c => some c
    | .change _ _ => none

/-- The player is freed by one of the calls. -/
def freedIn (obj : ℕ) : PlayerManager → List PlayerCall → Bool
  | _, [] => false
  | m, c :: cs => (m.call c).any fun m' => decide (obj ∉ m'.pool.usedSet) || freedIn obj m' cs

/-- A history without what the players did that are freed in it. The tables do not depend on what players do. -/
def lastingEvents : PlayerManager → List PlayerEvent → List PlayerEvent
  | _, [] => []
  | m, .call c :: es => .call c :: lastingEvents ((m.call c).getD m) es
  | m, .change obj c :: es =>
    if freedIn obj m (playerCalls es) then lastingEvents m es else .change obj c :: lastingEvents m es

/-- The player that `malloc` returns. -/
def PlayerManager.allocated (m : PlayerManager) (userId : ℤ) (roleId : BitVec 64) : Option Player :=
  match m.onlineRoleIds, m.index userId with
  | some _, some _ => some ((m.malloc userId roleId).objs m.pool.malloc.1)
  | _, _ => none

/-- What is seen of a player. -/
structure PlayerView where
  level : ℤ
  count : BitVec 32 → BitVec 32
  userId : ℤ
  roleId : BitVec 64

def Player.observed (p : Player) : PlayerView := ⟨p.level, p.items.count, p.userId, p.roleId⟩

/-- Behind the history `es`, which leads to `t`, `malloc` returns a player that does not show what freed players did,
and that has no items. -/
def FreshPlayer (itemTable : BitVec 32 → Option ℤ) (start : PlayerManager) (es : List PlayerEvent) (t : PlayerManager)
    (userId : ℤ) (roleId : BitVec 64) : Prop :=
  (∀ es' t', (playerEvents itemTable).run start es' = some t' → lastingEvents start es' = lastingEvents start es →
    (t'.allocated userId roleId).map Player.observed = (t.allocated userId roleId).map Player.observed) ∧
    ∀ p ∈ t.allocated userId roleId, ∀ typeId, p.items.count typeId = 0

/-- A change of the objects that leaves their ids alone, and whose outcome does not depend on them. -/
structure KeepsIds (g : ℕ → Player → Player) : Prop where
  userId : ∀ obj p, (g obj p).userId = p.userId
  roleId : ∀ obj p, (g obj p).roleId = p.roleId
  ids : ∀ obj p userId roleId, g obj { p with userId := userId, roleId := roleId } =
    { g obj p with userId := userId, roleId := roleId }

namespace PlayerManager

def mapObjs (g : ℕ → Player → Player) (m : PlayerManager) : PlayerManager :=
  { m with objs := fun obj => g obj (m.objs obj) }

section

variable (g : ℕ → Player → Player) (m : PlayerManager)

@[simp] theorem mapObjs_index (userId : ℤ) : (m.mapObjs g).index userId = m.index userId := rfl

@[simp] theorem mapObjs_onlineRoleIds : (m.mapObjs g).onlineRoleIds = m.onlineRoleIds := rfl

@[simp] theorem mapObjs_allPlayers : (m.mapObjs g).allPlayers = m.allPlayers := rfl

@[simp] theorem mapObjs_pool : (m.mapObjs g).pool = m.pool := rfl

end

variable {g : ℕ → Player → Player} (hg : KeepsIds g) (m : PlayerManager)

include hg

theorem malloc_mapObjs (userId : ℤ) (roleId : BitVec 64) :
    (m.mapObjs g).malloc userId roleId = (m.malloc userId roleId).mapObjs g := by
  have hobjs : Function.update (fun obj => g obj (m.objs obj)) m.pool.malloc.1
      { g m.pool.malloc.1 (m.objs m.pool.malloc.1) with userId := userId, roleId := roleId } =
      fun obj => g obj (Function.update m.objs m.pool.malloc.1
        { m.objs m.pool.malloc.1 with userId := userId, roleId := roleId } obj) := by
    funext obj
    by_cases hobj : obj = m.pool.malloc.1
    · rw [hobj, Function.update_self, Function.update_self]
      exact (hg.ids _ _ _ _).symm
    · rw [Function.update_of_ne hobj, Function.update_of_ne hobj]
  cases hids : m.onlineRoleIds with
  | none => rw [malloc, mapObjs_onlineRoleIds, malloc, hids]
  | some ids =>
      cases hi : m.index userId with
      | none => rw [malloc, mapObjs_onlineRoleIds, mapObjs_index, malloc, hids, hi]
      | some i =>
          rw [malloc_eq (m := m.mapObjs g) roleId hids hi, malloc_eq roleId hids hi]
          exact congrArg (fun objs => { m with
            onlineRoleIds := some (Function.update ids i roleId)
            pool := m.pool.malloc.2
            objs := objs
            allPlayers := if m.allPlayers roleId = none then
              Function.update m.allPlayers roleId (some m.pool.malloc.1) else m.allPlayers }) hobjs

omit hg in
theorem free_mapObjs (userId : ℤ) :
    (m.mapObjs g).free userId = ((m.free userId).1, (m.free userId).2.mapObjs g) := by
  unfold free
  rw [mapObjs_index, mapObjs_onlineRoleIds, mapObjs_allPlayers, mapObjs_pool]
  cases m.index userId with
  | none => rfl
  | some i =>
      cases m.onlineRoleIds with
      | none => rfl
      | some ids =>
          dsimp only
          cases m.allPlayers (ids i) with
          | none => rfl
          | some obj =>
              dsimp only
              cases m.pool.free obj with
              | none => rfl
              | some pool => rfl

theorem freePlayer_mapObjs (obj : ℕ) :
    (m.mapObjs g).freePlayer obj = ((m.freePlayer obj).1, (m.freePlayer obj).2.mapObjs g) := by
  have huser : ((m.mapObjs g).objs obj).userId = (m.objs obj).userId := hg.userId obj _
  have hrole : ((m.mapObjs g).objs obj).roleId = (m.objs obj).roleId := hg.roleId obj _
  unfold freePlayer
  rw [huser, hrole, mapObjs_index, mapObjs_onlineRoleIds, mapObjs_allPlayers, mapObjs_pool]
  cases m.index (m.objs obj).userId with
  | none => rfl
  | some i =>
      cases m.onlineRoleIds with
      | none => rfl
      | some ids =>
          dsimp only
          cases m.pool.free obj with
          | none => rfl
          | some pool => rfl

theorem call_mapObjs (c : PlayerCall) : (m.mapObjs g).call c = (m.call c).map (mapObjs g) := by
  cases c with
  | malloc userId roleId => exact congrArg some (malloc_mapObjs hg m userId roleId)
  | free userId => exact congrArg (fun r : Bool × PlayerManager => some r.2) (free_mapObjs m userId)
  | freePlayer obj =>
      rw [call, call, freePlayer_mapObjs hg]
      change (if obj < m.pool.next then _ else _) = _
      split_ifs
      · rfl
      · rfl

end PlayerManager

/-- What the calls look at. -/
def PlayerManager.tables : PlayerManager → PlayerManager :=
  mapObjs fun _ p => { p with level := 0, items := .empty }

/-- The level of one object is another one. -/
def relevel (obj : ℕ) (level : ℤ) : ℕ → Player → Player :=
  fun obj' p => if obj' = obj then { p with level := level } else p

theorem keepsIds_relevel (obj : ℕ) (level : ℤ) : KeepsIds (relevel obj level) := by
  unfold relevel
  refine ⟨fun obj' p => ?_, fun obj' p => ?_, fun obj' p userId roleId => ?_⟩
  all_goals
    split_ifs
    · rfl
    · rfl

section tables

variable {itemTable : BitVec 32 → Option ℤ} {m m' t : PlayerManager} {c : PlayerCall} {es : List PlayerEvent}

theorem apply_ids (c : PlayerChange) (p : Player) :
    (c.apply itemTable p).userId = p.userId ∧ (c.apply itemTable p).roleId = p.roleId := by
  cases c with
  | addItem typeId itemNum => exact ⟨rfl, rfl⟩
  | rmItem typeId itemNum => exact ⟨rfl, rfl⟩
  | setLevel level => exact ⟨rfl, rfl⟩

theorem tables_modify (obj : ℕ) (c : PlayerChange) : (m.modify obj (c.apply itemTable)).tables = m.tables := by
  refine congrArg (fun objs => { m with objs := objs }) (funext fun obj' => ?_)
  by_cases hobj : obj' = obj
  · simp only [hobj, PlayerManager.modify, Function.update_self, apply_ids]
  · simp only [PlayerManager.modify, Function.update_of_ne hobj]

theorem eq_of_tables (h : m'.tables = m.tables) :
    m'.pool = m.pool ∧ m'.onlineRoleIds = m.onlineRoleIds ∧ m'.index = m.index ∧
      ∀ obj, (m'.objs obj).userId = (m.objs obj).userId := by
  have hindex : m'.tables.index = m.tables.index := by rw [h]
  have hpool : m'.tables.pool = m.tables.pool := by rw [h]
  have honline : m'.tables.onlineRoleIds = m.tables.onlineRoleIds := by rw [h]
  refine ⟨hpool, honline, hindex, fun obj => ?_⟩
  have huser : (m'.tables.objs obj).userId = (m.tables.objs obj).userId := by rw [h]
  exact huser

/-- Managers with the same tables take the same calls. -/
theorem call_of_tables (htables : m'.tables = m.tables) (hcall : m.call c = some t) :
    ∃ t', m'.call c = some t' ∧ t'.tables = t.tables := by
  have hblank : KeepsIds fun _ p => { p with level := 0, items := .empty } :=
    ⟨fun _ _ => rfl, fun _ _ => rfl, fun _ _ _ _ => rfl⟩
  have hcall' : (m'.call c).map PlayerManager.tables = some t.tables := by
    calc (m'.call c).map PlayerManager.tables
      _ = m'.tables.call c := (PlayerManager.call_mapObjs hblank m' c).symm
      _ = m.tables.call c := by rw [htables]
      _ = (m.call c).map PlayerManager.tables := PlayerManager.call_mapObjs hblank m c
      _ = some t.tables := by rw [hcall, Option.map_some]
  exact Option.map_eq_some_iff.1 hcall'

/-- The manager behind some calls. -/
def afterPlayerCalls (m : PlayerManager) (cs : List PlayerCall) : PlayerManager :=
  cs.foldl (fun m c => (m.call c).getD m) m

/-- The tables depend on the calls only. -/
theorem tables_run (htables : m'.tables = m.tables) (hrun : (playerEvents itemTable).run m es = some t) :
    (afterPlayerCalls m' (playerCalls es)).tables = t.tables := by
  induction es generalizing m m' with
  | nil =>
      obtain rfl := Option.some.inj hrun
      exact htables
  | cons e es ih =>
      obtain ⟨m₁, hstep, hrest⟩ := (Machine.run_cons_eq_some _).1 hrun
      cases e with
      | call c =>
          obtain ⟨m₁', hcall, htables'⟩ := call_of_tables htables hstep
          change (afterPlayerCalls ((m'.call c).getD m') (playerCalls es)).tables = t.tables
          rw [hcall]
          exact ih htables' hrest
      | change obj c =>
          obtain ⟨-, hmodify⟩ := Option.ite_none_right_eq_some.1 hstep
          obtain rfl := Option.some.inj hmodify
          exact ih (htables.trans (tables_modify obj c).symm) hrest

end tables

section lasting

variable {obj : ℕ} {m : PlayerManager} {c : PlayerChange} {es fs : List PlayerEvent} {cs ds : List PlayerCall}

theorem playerCalls_append : playerCalls (es ++ fs) = playerCalls es ++ playerCalls fs := List.filterMap_append

theorem playerCalls_lasting : playerCalls (lastingEvents m es) = playerCalls es := by
  induction es generalizing m with
  | nil => rfl
  | cons e es ih =>
      cases e with
      | call c => exact congrArg (List.cons c) ih
      | change obj c =>
          rw [lastingEvents]
          split
          · exact ih
          · exact ih

theorem freedIn_append (h : freedIn obj m cs = true) : freedIn obj m (cs ++ ds) = true := by
  induction cs generalizing m with
  | nil => cases h
  | cons c cs ih =>
      rw [freedIn, Option.any_eq_true] at h
      obtain ⟨m', hcall, hor⟩ := h
      rw [List.cons_append, freedIn, Option.any_eq_true]
      refine ⟨m', hcall, ?_⟩
      rw [Bool.or_eq_true] at hor ⊢
      exact hor.imp_right ih

/-- What lasts of a longer history is found in what lasts of its first part. -/
theorem lasting_append : lastingEvents m (es ++ fs) = lastingEvents m (lastingEvents m es ++ fs) := by
  induction es generalizing m with
  | nil => rfl
  | cons e es ih =>
      cases e with
      | call c => exact congrArg (List.cons _) ih
      | change obj c =>
          have hcalls : playerCalls (lastingEvents m es ++ fs) = playerCalls (es ++ fs) := by
            rw [playerCalls_append, playerCalls_append, playerCalls_lasting]
          rw [List.cons_append, lastingEvents, lastingEvents]
          by_cases hfreed : freedIn obj m (playerCalls es) = true
          · rw [if_pos hfreed, if_pos (playerCalls_append ▸ freedIn_append hfreed), ih]
          · rw [if_neg hfreed, List.cons_append, lastingEvents, hcalls, ih]

/-- A change of a player that is freed later does not last. -/
theorem lasting_insert (hfreed : freedIn obj (afterPlayerCalls m (playerCalls es)) (playerCalls fs) = true) :
    lastingEvents m (es ++ .change obj c :: fs) = lastingEvents m (es ++ fs) := by
  induction es generalizing m with
  | nil => exact if_pos hfreed
  | cons e es ih =>
      cases e with
      | call c => exact congrArg (List.cons _) (ih hfreed)
      | change obj' c' =>
          have hcalls : playerCalls (es ++ .change obj c :: fs) = playerCalls (es ++ fs) := by
            rw [playerCalls_append, playerCalls_append]
            rfl
          rw [List.cons_append, List.cons_append, lastingEvents, lastingEvents, hcalls, ih hfreed]

end lasting

/-- `m'` is `m` with other objects in use, of which none is new. -/
structure Releases (m m' : PlayerManager) : Prop where
  start : m'.startPlayerId = m.startPlayerId
  table : m.onlineRoleIds ≠ none → m'.onlineRoleIds ≠ none
  next : m'.pool.next = m.pool.next
  pool : PoolFits m.pool → PoolFits m'.pool
  used : m'.pool.usedSet ⊆ m.pool.usedSet
  objs : m'.objs = m.objs

/-- The object that is given out is the first of the list, or the first new one. -/
theorem malloc_fst (p : PlayerPool) : p.malloc.1 = p.freeList.head?.getD p.next := by
  unfold PlayerPool.malloc PlayerPool.growIfLow PlayerPool.grow
  split_ifs with hlow
  · dsimp only
    cases p.freeList with
    | nil => rfl
    | cons front rest => rfl
  · dsimp only
    cases hlist : p.freeList with
    | nil =>
        rw [hlist] at hlow
        exact absurd (Nat.zero_lt_succ 99) hlow
    | cons front rest => rfl

section objects

variable {itemTable : BitVec 32 → Option ℤ} {levels : ℕ → ℤ} {m m' t : PlayerManager} {c : PlayerCall}
  {e : PlayerEvent} {obj : ℕ}

theorem releases_of_free (hfree : m.pool.free obj = some m'.pool) (hstart : m'.startPlayerId = m.startPlayerId)
    (htable : m'.onlineRoleIds ≠ none) (hobjs : m'.objs = m.objs) : Releases m m' := by
  obtain ⟨-, heq⟩ := Option.ite_none_right_eq_some.1 hfree
  refine ⟨hstart, fun _ => htable, ?_, fun hpool => (hpool.of_free hfree).1, ?_, hobjs⟩
  · rw [← Option.some.inj heq]
  · rw [← Option.some.inj heq]
    exact Finset.erase_subset _ _

/-- A call gives out an object, or it does not touch any. -/
theorem call_cases (htable : m.onlineRoleIds ≠ none) (hcall : m.call c = some m') :
    (∃ userId roleId ids i, m.onlineRoleIds = some ids ∧ m.index userId = some i ∧ m' = m.malloc userId roleId) ∨
      Releases m m' := by
  have hrefl : Releases m m := ⟨rfl, id, rfl, id, Finset.Subset.refl _, rfl⟩
  cases c with
  | malloc userId roleId =>
      obtain rfl := Option.some.inj hcall
      obtain ⟨ids, hids⟩ := Option.ne_none_iff_exists'.1 htable
      cases hi : m.index userId with
      | none =>
          rw [PlayerManager.malloc, hids, hi]
          exact Or.inr hrefl
      | some i => exact Or.inl ⟨userId, roleId, ids, i, hids, hi, rfl⟩
  | free userId =>
      obtain rfl := Option.some.inj hcall
      obtain heq | ⟨i, ids, obj, pool, -, -, -, hfree, heq⟩ := free_cases m userId
      · rw [heq]
        exact Or.inr hrefl
      · rw [heq]
        exact Or.inr (releases_of_free hfree rfl (Option.some_ne_none _) rfl)
  | freePlayer obj =>
      obtain ⟨-, hsome⟩ := Option.ite_none_right_eq_some.1 hcall
      obtain rfl := Option.some.inj hsome
      obtain heq | ⟨i, ids, pool, -, -, hfree, heq⟩ := freePlayer_cases m obj
      · rw [heq]
        exact Or.inr hrefl
      · rw [heq]
        exact Or.inr (releases_of_free hfree rfl (Option.some_ne_none _) rfl)

/-- An object without a user id was never given out, and is as the constructor made it. -/
structure ObjsInv (levels : ℕ → ℤ) (m : PlayerManager) : Prop where
  pool : PoolFits m.pool
  table : m.onlineRoleIds ≠ none
  start : 0 < m.startPlayerId
  used : ∀ obj ∈ m.pool.usedSet, (m.objs obj).userId ≠ 0
  unallocated : ∀ obj, m.pool.next ≤ obj → (m.objs obj).userId = 0
  untouched : ∀ obj, (m.objs obj).userId = 0 → m.objs obj = { Player.new with level := levels obj }

theorem objsInv_start {startId maxSize : ℤ} (hstart : 0 < startId) (hsize : 0 < maxSize) (levels : ℕ → ℤ) :
    ObjsInv levels (.start startId maxSize levels) := by
  rw [start_eq hstart hsize]
  exact ⟨PoolFits.empty, nofun, hstart, fun obj hused => absurd hused (Finset.notMem_empty obj), fun _ _ => rfl,
    fun _ _ => rfl⟩

theorem ObjsInv.malloc (h : ObjsInv levels m) {userId : ℤ} {roleId : BitVec 64} {ids : ℤ → BitVec 64} {i : ℤ}
    (hids : m.onlineRoleIds = some ids) (hi : m.index userId = some i) : ObjsInv levels (m.malloc userId roleId) := by
  have huser : userId ≠ 0 := by
    have hstart := h.start
    unfold PlayerManager.index at hi
    split at hi
    · cases hi
    · omega
  obtain ⟨-, hpool, hused⟩ := h.pool.malloc
  have hnext : m.pool.next ≤ m.pool.malloc.2.next := by
    unfold PlayerPool.malloc PlayerPool.growIfLow PlayerPool.grow
    split_ifs
    · exact Nat.le_add_right _ _
    · exact le_rfl
  rw [malloc_eq roleId hids hi]
  refine ⟨hpool, nofun, h.start, ?_, ?_, ?_⟩
  · intro obj hobj
    dsimp only at hobj ⊢
    rw [hused] at hobj
    rw [Function.update_apply]
    split_ifs with heq
    · exact huser
    · exact h.used obj (Finset.mem_of_mem_insert_of_ne hobj heq)
  · intro obj hobj
    dsimp only at hobj ⊢
    have hne : obj ≠ m.pool.malloc.1 := by
      rintro rfl
      exact absurd (hpool.bound _ (Or.inr (hused ▸ Finset.mem_insert_self _ _))) (not_lt.2 hobj)
    rw [Function.update_of_ne hne]
    exact h.unallocated obj (hnext.trans hobj)
  · intro obj hobj
    dsimp only at hobj ⊢
    rw [Function.update_apply] at hobj ⊢
    split_ifs at hobj ⊢
    · exact absurd hobj huser
    · exact h.untouched obj hobj

theorem ObjsInv.step (h : ObjsInv levels m) (hstep : (playerEvents itemTable).step m e = some m') :
    ObjsInv levels m' := by
  cases e with
  | call c =>
      obtain ⟨userId, roleId, ids, i, hids, hi, rfl⟩ | hreleases := call_cases h.table hstep
      · exact h.malloc hids hi
      · refine ⟨hreleases.pool h.pool, hreleases.table h.table, hreleases.start.symm ▸ h.start, ?_, ?_, ?_⟩
        · intro obj hobj
          rw [hreleases.objs]
          exact h.used obj (hreleases.used hobj)
        · rw [hreleases.objs, hreleases.next]
          exact h.unallocated
        · rw [hreleases.objs]
          exact h.untouched
  | change obj c =>
      obtain ⟨hused, hmodify⟩ := Option.ite_none_right_eq_some.1 hstep
      obtain rfl := Option.some.inj hmodify
      have hids : ∀ obj', ((m.modify obj (c.apply itemTable)).objs obj').userId = (m.objs obj').userId := by
        intro obj'
        unfold PlayerManager.modify
        dsimp only
        rw [Function.update_apply]
        split_ifs with heq
        · rw [heq, (apply_ids c _).1]
        · rfl
      refine ⟨h.pool, h.table, h.start, ?_, ?_, ?_⟩
      · intro obj' hobj'
        rw [hids]
        exact h.used obj' hobj'
      · intro obj' hobj'
        rw [hids]
        exact h.unallocated obj' hobj'
      · intro obj' hobj'
        rw [hids] at hobj'
        have hne : obj' ≠ obj := fun heq => h.used obj hused (heq ▸ hobj')
        exact (Function.update_of_ne hne _ _).trans (h.untouched obj' hobj')

theorem ObjsInv.run (h : ObjsInv levels m) {es : List PlayerEvent}
    (hrun : (playerEvents itemTable).run m es = some t) : ObjsInv levels t :=
  Machine.invariant_run (fun _ _ _ hs hstep => hs.step hstep) h hrun

/-- A new object comes behind the freed ones. -/
theorem ObjsInv.front_new_iff (h : ObjsInv levels m) :
    (m.objs m.pool.malloc.1).userId = 0 ↔ ∀ obj ∈ m.pool.freeList.head?, (m.objs obj).userId = 0 := by
  rw [malloc_fst]
  cases m.pool.freeList.head? with
  | none => exact iff_of_true (h.unallocated _ le_rfl) nofun
  | some front =>
      constructor
      · intro hfront obj hobj
        rw [← Option.some.inj hobj]
        exact hfront
      · intro hall
        exact hall front rfl

end objects

section recycled

variable {itemTable : BitVec 32 → Option ℤ} {levels : ℕ → ℤ} {m m' t : PlayerManager} {c : PlayerCall}
  {e : PlayerEvent} {obj : ℕ} {es : List PlayerEvent}

theorem modify_setLevel (level : ℤ) :
    m.modify obj ((PlayerChange.setLevel level).apply itemTable) = m.mapObjs (relevel obj level) := by
  refine congrArg (fun objs => { m with objs := objs }) (funext fun obj' => ?_)
  rw [Function.update_apply, relevel]
  split_ifs with heq
  · rw [heq]
    rfl
  · rfl

theorem modify_mapObjs {obj' : ℕ} (hne : obj' ≠ obj) (level : ℤ) (f : Player → Player) :
    (m.mapObjs (relevel obj level)).modify obj' f = (m.modify obj' f).mapObjs (relevel obj level) := by
  refine congrArg (fun objs => { m with objs := objs }) (funext fun o => ?_)
  simp only [PlayerManager.mapObjs, PlayerManager.modify, relevel]
  by_cases ho : o = obj'
  · simp only [ho, Function.update_self, if_neg hne]
  · simp only [Function.update_of_ne ho]

/-- The level of an object that is not in use has no influence on a step that does not give it out. -/
theorem step_relevel (hnot : obj ∉ m.pool.usedSet) (level : ℤ) (hstep : (playerEvents itemTable).step m e = some m') :
    (playerEvents itemTable).step (m.mapObjs (relevel obj level)) e = some (m'.mapObjs (relevel obj level)) := by
  cases e with
  | call c =>
      refine (PlayerManager.call_mapObjs (keepsIds_relevel obj level) m c).trans ?_
      exact congrArg (Option.map _) hstep
  | change obj' c =>
      obtain ⟨hused, hmodify⟩ := Option.ite_none_right_eq_some.1 hstep
      obtain rfl := Option.some.inj hmodify
      have hne : obj' ≠ obj := fun heq => hnot (heq ▸ hused)
      exact (if_pos hused).trans (congrArg some (modify_mapObjs hne level _))

/-- An object keeps its ids while it is not in use. -/
theorem userId_of_step (h : ObjsInv levels m) (hnot : obj ∉ m.pool.usedSet) (hnot' : obj ∉ m'.pool.usedSet)
    (hstep : (playerEvents itemTable).step m e = some m') : (m'.objs obj).userId = (m.objs obj).userId := by
  cases e with
  | call c =>
      obtain ⟨userId, roleId, ids, i, hids, hi, rfl⟩ | hreleases := call_cases h.table hstep
      · obtain ⟨-, -, hused⟩ := h.pool.malloc
        rw [malloc_eq roleId hids hi] at hnot' ⊢
        dsimp only at hnot' ⊢
        rw [hused] at hnot'
        have hne : obj ≠ m.pool.malloc.1 := by
          rintro rfl
          exact hnot' (Finset.mem_insert_self _ _)
        rw [Function.update_of_ne hne]
      · rw [hreleases.objs]
  | change obj' c =>
      obtain ⟨hused, hmodify⟩ := Option.ite_none_right_eq_some.1 hstep
      obtain rfl := Option.some.inj hmodify
      have hne : obj ≠ obj' := fun heq => hnot (heq ▸ hused)
      exact congrArg Player.userId (Function.update_of_ne hne _ _)

/-- The object of a freed player can have any level behind a history in which the same things last. -/
theorem exists_relevelled (h : ObjsInv levels m) (hnew : (m.objs obj).userId = 0)
    (hrun : (playerEvents itemTable).run m es = some t) (hnot : obj ∉ t.pool.usedSet)
    (hold : (t.objs obj).userId ≠ 0) (level : ℤ) :
    ∃ es', lastingEvents m es' = lastingEvents m es ∧
      (playerEvents itemTable).run m es' = some (t.mapObjs (relevel obj level)) := by
  -- Back from the end of the history to the call that frees the object.
  induction es using List.reverseRecOn generalizing t with
  | nil =>
      obtain rfl := Option.some.inj hrun
      exact absurd hnew hold
  | append_singleton es e ih =>
      obtain ⟨t₀, hrun₀, hstep⟩ := (Machine.run_concat_eq_some _).1 hrun
      by_cases hused : obj ∈ t₀.pool.usedSet
      · cases e with
        | call c =>
            refine ⟨es ++ [.change obj (.setLevel level), .call c], lasting_insert ?_, ?_⟩
            · obtain ⟨t', hcall, htables⟩ := call_of_tables (tables_run rfl hrun₀) hstep
              obtain ⟨hpool, -⟩ := eq_of_tables htables
              change freedIn obj _ [c] = true
              rw [freedIn, hcall, Option.any_some, hpool, decide_eq_true hnot, Bool.true_or]
            · have hchange : (playerEvents itemTable).step t₀ (.change obj (.setLevel level)) =
                  some (t₀.mapObjs (relevel obj level)) := (if_pos hused).trans (congrArg some (modify_setLevel level))
              have hcall : (playerEvents itemTable).step (t₀.mapObjs (relevel obj level)) (.call c) =
                  some (t.mapObjs (relevel obj level)) :=
                (PlayerManager.call_mapObjs (keepsIds_relevel obj level) t₀ c).trans (congrArg (Option.map _) hstep)
              rw [Machine.run_append, hrun₀, Option.bind_some, Machine.run, hchange, Option.bind_some, Machine.run,
                hcall]
              rfl
        | change obj' c =>
            obtain ⟨-, hmodify⟩ := Option.ite_none_right_eq_some.1 hstep
            obtain rfl := Option.some.inj hmodify
            exact absurd hused hnot
      · have hold₀ := hold
        rw [userId_of_step (h.run hrun₀) hused hnot hstep] at hold₀
        obtain ⟨es', hlasting, hrun'⟩ := ih hrun₀ hused hold₀
        refine ⟨es' ++ [e], ?_, (Machine.run_concat_eq_some _).2 ⟨_, hrun', step_relevel hused level hstep⟩⟩
        rw [lasting_append, hlasting, ← lasting_append]

/-- The player that is returned is the object with new ids. -/
theorem allocated_eq {userId i : ℤ} {ids : ℤ → BitVec 64} (roleId : BitVec 64) (hids : m.onlineRoleIds = some ids)
    (hi : m.index userId = some i) :
    m.allocated userId roleId = some { m.objs m.pool.malloc.1 with userId := userId, roleId := roleId } := by
  rw [PlayerManager.allocated, hids, hi]
  dsimp only
  rw [malloc_eq roleId hids hi]
  exact congrArg some (Function.update_self _ _ _)

theorem allocated_of_index {userId : ℤ} (roleId : BitVec 64) (hi : m.index userId = none) :
    m.allocated userId roleId = none := by
  rw [PlayerManager.allocated, hi]
  split
  · rename_i heq
    cases heq
  · rfl

/-- Histories in which the same things last lead to the same tables. -/
theorem tables_of_lasting {es' : List PlayerEvent} {t' : PlayerManager}
    (hrun : (playerEvents itemTable).run m es = some t) (hrun' : (playerEvents itemTable).run m es' = some t')
    (hlasting : lastingEvents m es' = lastingEvents m es) : t'.tables = t.tables := by
  have hcalls : playerCalls es' = playerCalls es := by
    rw [← playerCalls_lasting (m := m), hlasting, playerCalls_lasting]
  rw [← tables_run rfl hrun, ← tables_run rfl hrun', hcalls]

variable {userId : ℤ} {roleId : BitVec 64}

/-- A user id without a place in the table gets no player. -/
theorem freshPlayer_of_index (hrun : (playerEvents itemTable).run m es = some t) (hi : t.index userId = none) :
    FreshPlayer itemTable m es t userId roleId := by
  constructor
  · intro es' t' hrun' hlasting
    obtain ⟨-, -, hindex, -⟩ := eq_of_tables (tables_of_lasting hrun hrun' hlasting)
    rw [allocated_of_index roleId hi, allocated_of_index roleId (hindex ▸ hi)]
  · intro p hp
    rw [allocated_of_index roleId hi] at hp
    cases hp

/-- An object that was never given out is as the constructor made it in every such history. -/
theorem freshPlayer_of_new {ids : ℤ → BitVec 64} {i : ℤ} (h : ObjsInv levels m)
    (hrun : (playerEvents itemTable).run m es = some t) (hids : t.onlineRoleIds = some ids)
    (hi : t.index userId = some i) (hzero : (t.objs t.pool.malloc.1).userId = 0) :
    FreshPlayer itemTable m es t userId roleId := by
  have ht := h.run hrun
  constructor
  · intro es' t' hrun' hlasting
    obtain ⟨hpool, honline, hindex, huser⟩ := eq_of_tables (tables_of_lasting hrun hrun' hlasting)
    have hobj : t'.objs t.pool.malloc.1 = t.objs t.pool.malloc.1 := by
      rw [ht.untouched _ hzero, (h.run hrun').untouched _ ((huser _).trans hzero)]
    rw [allocated_eq roleId hids hi, allocated_eq roleId (honline.trans hids) (hindex ▸ hi), hpool, hobj]
  · intro p hp typeId
    rw [allocated_eq roleId hids hi, ht.untouched _ hzero] at hp
    obtain rfl := Option.some.inj hp
    rfl

/-- The level of an earlier player shows. -/
theorem new_of_freshPlayer {ids : ℤ → BitVec 64} {i : ℤ} (h : ObjsInv levels m)
    (hnew : ∀ obj, (m.objs obj).userId = 0) (hrun : (playerEvents itemTable).run m es = some t)
    (hids : t.onlineRoleIds = some ids) (hi : t.index userId = some i)
    (hfresh : FreshPlayer itemTable m es t userId roleId) : (t.objs t.pool.malloc.1).userId = 0 := by
  by_contra hold
  -- One of two levels is not the one that the object has.
  obtain ⟨level, hlevel⟩ : ∃ level, level ≠ (t.objs t.pool.malloc.1).level :=
    ⟨if (t.objs t.pool.malloc.1).level = 0 then 1 else 0, by split_ifs <;> omega⟩
  have hnot : t.pool.malloc.1 ∉ t.pool.usedSet := (h.run hrun).pool.malloc.1
  obtain ⟨es', hlasting, hrun'⟩ := exists_relevelled h (hnew _) hrun hnot hold level
  have hviews := hfresh.1 es' _ hrun' hlasting
  rw [allocated_eq roleId hids hi, allocated_eq (m := t.mapObjs _) roleId hids hi] at hviews
  have hlevels : (relevel t.pool.malloc.1 level t.pool.malloc.1 (t.objs t.pool.malloc.1)).level =
      (t.objs t.pool.malloc.1).level := congrArg PlayerView.level (Option.some.inj hviews)
  rw [relevel, if_pos rfl] at hlevels
  exact hlevel hlevels

end recycled

/-- Items of type 1, of which a player has at most 99. -/
def onlyItem (typeId : BitVec 32) : Option ℤ := if typeId = 1 then some 99 else none

end JmyGame
