import JmyGame.GamePlayers
import JmyGame.LibMachine

/-! The tables of `PlayerManager` over runs of `malloc`, `free(int)` and `free(Player*)`. `malloc` does not look at what
`insert` returns: a player for a role that has one already is in no table. -/

namespace JmyGame

namespace PlayerManager

variable (m : PlayerManager)

/-- `free(Player*)`, by the ids of the player. -/
def freePlayer (obj : ℕ) : Bool × PlayerManager :=
  match m.index (m.objs obj).userId, m.onlineRoleIds with
  | some i, some ids =>
    match m.pool.free obj with
    | none => (false, m)
    | some pool => (true, { m with
        pool := pool
        account2roleId := (m.account2roleId.remove2 (m.objs obj).roleId).2
        onlineRoleIds := some (Function.update ids i 0)
        allPlayers := Function.update m.allPlayers (m.objs obj).roleId none })
  | _, _ => (false, m)

/-- The manager behind `init`. The constructor of a player leaves its level as the memory has it. -/
def start (startId maxSize : ℤ) (levels : ℕ → ℤ) : PlayerManager :=
  { (empty.init startId maxSize).2 with objs := fun obj => { Player.new with level := levels obj } }

end PlayerManager

inductive PlayerCall where
  | malloc (userId : ℤ) (roleId : BitVec 64)
  | free (userId : ℤ)
  | freePlayer (obj : ℕ)
  deriving DecidableEq

/-- One call; `free(Player*)` takes a pointer to an object of the pool. -/
def PlayerManager.call (m : PlayerManager) : PlayerCall → Option PlayerManager
  | .malloc userId roleId => some (m.malloc userId roleId)
  | .free userId => some (m.free userId).2
  | .freePlayer obj => if obj < m.pool.next then some (m.freePlayer obj).2 else none

def playerMachine : Machine PlayerManager PlayerCall := ⟨PlayerManager.call⟩

theorem start_eq {startId maxSize : ℤ} (hstart : 0 < startId) (hsize : 0 < maxSize) (levels : ℕ → ℤ) :
    PlayerManager.start startId maxSize levels = { PlayerManager.empty with
      onlineRoleIds := some fun _ => 0
      startPlayerId := startId
      maxPlayerSize := maxSize
      objs := fun obj => { Player.new with level := levels obj } } := by
  have hnew : ¬(startId ≤ 0 ∨ maxSize ≤ 0) := by omega
  rw [PlayerManager.start, PlayerManager.init, if_neg hnew]
  rfl

/-- A user id leads to its own player with its role, no two of them to the same one, and the objects in use are those of
`all_players_`. -/
structure TablesAgree (m : PlayerManager) : Prop where
  get : ∀ userId obj, m.get userId = some obj →
    (m.objs obj).userId = userId ∧ (m.objs obj).roleId = m.getRoleIdByUserId userId
  inj : ∀ userId userId' obj, m.get userId = some obj → m.get userId' = some obj → userId = userId'
  used : ∀ obj, obj ∈ m.pool.usedSet ↔ ∃ roleId, m.allPlayers roleId = some obj
  free : ∀ roleId obj, m.allPlayers roleId = some obj → obj ∉ m.pool.freeList

/-- Role ids are not 0. -/
def PlayerCall.HasRole : PlayerCall → Prop
  | .malloc _ roleId => roleId ≠ 0
  | _ => True

/-- A player that is allocated is one for a role without a player. -/
def PlayerCall.NewRole (m : PlayerManager) : PlayerCall → Prop
  | .malloc userId roleId => m.index userId = none ∨ m.allPlayers roleId = none
  | _ => True

instance : DecidablePred PlayerCall.HasRole
  | .malloc _ _ => inferInstanceAs (Decidable (_ ≠ _))
  | .free _ => inferInstanceAs (Decidable True)
  | .freePlayer _ => inferInstanceAs (Decidable True)

instance (m : PlayerManager) : DecidablePred (PlayerCall.NewRole m)
  | .malloc _ _ => inferInstanceAs (Decidable (_ ∨ _))
  | .free _ => inferInstanceAs (Decidable True)
  | .freePlayer _ => inferInstanceAs (Decidable True)

/-- `free(Player*)` refuses, or it takes the player out of all tables. -/
theorem freePlayer_cases (m : PlayerManager) (obj : ℕ) :
    m.freePlayer obj = (false, m) ∨ ∃ i ids pool, m.index (m.objs obj).userId = some i ∧ m.onlineRoleIds = some ids ∧
      m.pool.free obj = some pool ∧ m.freePlayer obj = (true, { m with
        pool := pool
        account2roleId := (m.account2roleId.remove2 (m.objs obj).roleId).2
        onlineRoleIds := some (Function.update ids i 0)
        allPlayers := Function.update m.allPlayers (m.objs obj).roleId none }) := by
  unfold PlayerManager.freePlayer
  split
  · rename_i i ids hi hids
    cases hfree : m.pool.free obj with
    | none => exact Or.inl rfl
    | some pool => exact Or.inr ⟨i, ids, pool, hi, hids, rfl, rfl⟩
  · exact Or.inl rfl

/-- Every object in use is the player of its role, and the role of a user id has a player with this user id. -/
structure TablesInv (m : PlayerManager) : Prop where
  fits : PlayersFit m
  table : m.onlineRoleIds ≠ none
  owned : ∀ obj ∈ m.pool.usedSet, m.allPlayers (m.objs obj).roleId = some obj
  zero : m.allPlayers 0 = none
  online : ∀ userId, m.getRoleIdByUserId userId ≠ 0 →
    ∃ obj, m.allPlayers (m.getRoleIdByUserId userId) = some obj ∧ (m.objs obj).userId = userId

namespace TablesInv

variable {m : PlayerManager} {userId : ℤ} {roleId : BitVec 64} {obj : ℕ}

theorem get_eq (hzero : m.allPlayers 0 = none) (userId : ℤ) :
    m.get userId = m.allPlayers (m.getRoleIdByUserId userId) := by
  unfold PlayerManager.get PlayerManager.getRoleIdByUserId
  split
  · rfl
  · exact hzero.symm

/-- The player of a user id. -/
theorem of_get (h : TablesInv m) (hget : m.get userId = some obj) :
    m.allPlayers (m.getRoleIdByUserId userId) = some obj ∧ (m.objs obj).userId = userId := by
  rw [get_eq h.zero] at hget
  have hne : m.getRoleIdByUserId userId ≠ 0 := by
    intro hzero
    rw [hzero, h.zero] at hget
    cases hget
  obtain ⟨obj', hobj', huser⟩ := h.online userId hne
  obtain rfl := Option.some.inj (hobj'.symm.trans hget)
  exact ⟨hobj', huser⟩

theorem agree (h : TablesInv m) : TablesAgree m where
  get userId obj hget := by
    obtain ⟨hobj, huser⟩ := h.of_get hget
    exact ⟨huser, (h.fits.role _ obj hobj).1⟩
  inj userId userId' obj hget hget' := (h.of_get hget).2.symm.trans (h.of_get hget').2
  used obj := by
    constructor
    · intro hused
      exact ⟨_, h.owned obj hused⟩
    · rintro ⟨roleId, hobj⟩
      exact (h.fits.role roleId obj hobj).2
  free roleId obj hobj hfree := h.fits.pool.free obj hfree (h.fits.role roleId obj hobj).2

theorem start {startId maxSize : ℤ} (hstart : 0 < startId) (hsize : 0 < maxSize) (levels : ℕ → ℤ) :
    TablesInv (.start startId maxSize levels) := by
  rw [start_eq hstart hsize]
  refine ⟨⟨PoolFits.empty, nofun⟩, nofun, fun obj hused => absurd hused (Finset.notMem_empty obj), rfl, ?_⟩
  intro userId hne
  refine absurd ?_ hne
  unfold PlayerManager.getRoleIdByUserId
  split
  · rename_i ids _ hids
    obtain rfl := Option.some.inj hids
    rfl
  · rfl

/-- The roles of the user ids when one of them changes. -/
theorem getRoleIdByUserId_update {m' : PlayerManager} {ids : ℤ → BitVec 64} {i : ℤ} (hids : m.onlineRoleIds = some ids)
    (hi : m.index userId = some i) (hids' : m'.onlineRoleIds = some (Function.update ids i roleId))
    (hindex : m'.index = m.index) (v : ℤ) :
    m'.getRoleIdByUserId v = if v = userId then roleId else m.getRoleIdByUserId v := by
  unfold PlayerManager.getRoleIdByUserId
  rw [hindex, hids, hids']
  by_cases hv : v = userId
  · rw [if_pos hv, hv, hi]
    exact Function.update_self i _ _
  · rw [if_neg hv]
    cases hplace : m.index v with
    | none => rfl
    | some j =>
        have hne : j ≠ i := fun heq => hv (index_inj (heq ▸ hplace) hi)
        exact Function.update_of_ne hne _ _

theorem malloc (h : TablesInv m) (hrole : roleId ≠ 0) (hnew : m.index userId = none ∨ m.allPlayers roleId = none) :
    TablesInv (m.malloc userId roleId) := by
  obtain ⟨ids, hids⟩ := Option.ne_none_iff_exists'.1 h.table
  cases hi : m.index userId with
  | none =>
      rw [PlayerManager.malloc, hids, hi]
      exact h
  | some i =>
      have hnone := hnew.resolve_left (hi ▸ Option.some_ne_none i)
      have hrid : ∀ v, (m.malloc userId roleId).getRoleIdByUserId v =
          if v = userId then roleId else m.getRoleIdByUserId v := by
        rw [malloc_eq roleId hids hi]
        exact getRoleIdByUserId_update hids hi rfl rfl
      have hfits := h.fits.malloc userId roleId
      obtain ⟨hfresh, -, hused⟩ := h.fits.pool.malloc
      rw [malloc_eq roleId hids hi, if_pos hnone] at hfits hrid ⊢
      -- The player of another role stays what it is.
      have hother : ∀ roleId' obj, m.allPlayers roleId' = some obj → roleId' ≠ roleId ∧ obj ≠ m.pool.malloc.1 := by
        intro roleId' obj hobj
        refine ⟨fun heq => ?_, fun heq => hfresh (heq ▸ (h.fits.role roleId' obj hobj).2)⟩
        rw [heq, hnone] at hobj
        cases hobj
      refine ⟨hfits, Option.some_ne_none _, ?_, ?_, ?_⟩
      · intro obj hobj
        dsimp only at hobj ⊢
        rw [hused] at hobj
        obtain rfl | hobj := Finset.mem_insert.1 hobj
        · rw [Function.update_self, Function.update_self]
        · have howned := h.owned obj hobj
          rw [Function.update_of_ne (hother _ _ howned).2, Function.update_of_ne (hother _ _ howned).1]
          exact howned
      · exact (Function.update_of_ne hrole.symm _ _).trans h.zero
      · intro v hv
        rw [hrid] at hv ⊢
        dsimp only
        split_ifs at hv ⊢ with heq
        · refine ⟨m.pool.malloc.1, Function.update_self _ _ _, ?_⟩
          rw [Function.update_self, heq]
        · obtain ⟨obj, hobj, huser⟩ := h.online v hv
          refine ⟨obj, (Function.update_of_ne (hother _ _ hobj).1 _ _).trans hobj, ?_⟩
          rw [Function.update_of_ne (hother _ _ hobj).2]
          exact huser

theorem freePlayer (h : TablesInv m) (obj : ℕ) : TablesInv (m.freePlayer obj).2 := by
  obtain heq | ⟨i, ids, pool, hi, hids, hfree, heq⟩ := freePlayer_cases m obj
  · rw [heq]
    exact h
  · obtain ⟨hpool, hused⟩ := h.fits.pool.of_free hfree
    have hmem : obj ∈ m.pool.usedSet := (Option.ite_none_right_eq_some.1 hfree).1
    have howned := h.owned obj hmem
    have hrid : ∀ v, (m.freePlayer obj).2.getRoleIdByUserId v =
        if v = (m.objs obj).userId then 0 else m.getRoleIdByUserId v := by
      rw [heq]
      exact getRoleIdByUserId_update hids hi rfl rfl
    rw [heq] at hrid ⊢
    -- Only the role of this player loses its player.
    have hother : ∀ roleId obj', m.allPlayers roleId = some obj' → obj' ≠ obj → roleId ≠ (m.objs obj).roleId := by
      intro roleId obj' hobj' hne heq
      rw [heq, howned] at hobj'
      exact hne (Option.some.inj hobj').symm
    refine ⟨h.fits.remove howned hfree rfl rfl, nofun, ?_, ?_, ?_⟩
    · intro obj' hobj'
      dsimp only at hobj' ⊢
      rw [hused] at hobj'
      obtain ⟨hne, hmem'⟩ := Finset.mem_erase.1 hobj'
      have howned' := h.owned obj' hmem'
      rw [Function.update_of_ne (hother _ _ howned' hne)]
      exact howned'
    · dsimp only
      rw [Function.update_apply]
      split_ifs
      · rfl
      · exact h.zero
    · intro v hv
      rw [hrid] at hv ⊢
      split_ifs at hv ⊢ with heq'
      · exact absurd rfl hv
      · obtain ⟨obj', hobj', huser⟩ := h.online v hv
        have hne : obj' ≠ obj := fun hsame => heq' (hsame ▸ huser.symm)
        exact ⟨obj', (Function.update_of_ne (hother _ _ hobj' hne) _ _).trans hobj', huser⟩

/-- A player is freed by its user id as it is by a pointer to it. -/
theorem free_eq (h : TablesInv m) (hget : m.get userId = some obj) : m.free userId = m.freePlayer obj := by
  obtain ⟨hobj, huser⟩ := h.of_get hget
  have hrole := (h.fits.role _ obj hobj).1
  obtain ⟨ids, hids⟩ := Option.ne_none_iff_exists'.1 h.table
  cases hi : m.index userId with
  | none =>
      rw [PlayerManager.get, hi] at hget
      cases hget
  | some i =>
      have hrid : m.getRoleIdByUserId userId = ids i := by rw [PlayerManager.getRoleIdByUserId, hi, hids]
      rw [hrid] at hobj hrole
      unfold PlayerManager.free PlayerManager.freePlayer
      rw [huser, hrole, hi, hids]
      cases hfree : m.pool.free obj with
      | none => simp only [hobj, hfree]
      | some pool => simp only [hobj, hfree]

theorem free (h : TablesInv m) (userId : ℤ) : TablesInv (m.free userId).2 := by
  obtain heq | ⟨i, ids, obj, pool, hi, hids, hobj, -, -⟩ := free_cases m userId
  · rw [heq]
    exact h
  · have hget : m.get userId = some obj := by
      rw [PlayerManager.get, hi, hids]
      exact hobj
    rw [h.free_eq hget]
    exact h.freePlayer obj

theorem step {c : PlayerCall} {m' : PlayerManager} (hc : c.HasRole) (h : TablesInv m) (hnew : c.NewRole m)
    (hstep : playerMachine.step m c = some m') : TablesInv m' := by
  cases c with
  | malloc userId roleId =>
      obtain rfl := Option.some.inj hstep
      exact h.malloc hc hnew
  | free userId =>
      obtain rfl := Option.some.inj hstep
      exact h.free userId
  | freePlayer obj =>
      obtain ⟨-, heq⟩ := Option.ite_none_right_eq_some.1 hstep
      obtain rfl := Option.some.inj heq
      exact h.freePlayer obj

/-- A player for a role that has one is in use and in no table. -/
theorem newRole {c : PlayerCall} (h : TablesInv m)
    (hafter : ∀ m', playerMachine.step m c = some m' → TablesAgree m') : c.NewRole m := by
  cases c with
  | malloc userId roleId =>
      by_contra hnot
      obtain ⟨hplace, hsome⟩ := not_or.1 hnot
      obtain ⟨ids, hids⟩ := Option.ne_none_iff_exists'.1 h.table
      obtain ⟨i, hi⟩ := Option.ne_none_iff_exists'.1 hplace
      have hagree := hafter _ rfl
      rw [malloc_eq roleId hids hi, if_neg hsome] at hagree
      obtain ⟨hfresh, -, hused⟩ := h.fits.pool.malloc
      obtain ⟨roleId', hobj⟩ := (hagree.used m.pool.malloc.1).1 (hused ▸ Finset.mem_insert_self _ _)
      exact hfresh (h.fits.role roleId' _ hobj).2
  | free userId => trivial
  | freePlayer obj => trivial

end TablesInv

/-- The tables agree in every state of a run exactly when no player is allocated for a role that has one. -/
theorem tablesAgree_iff {startId maxSize : ℤ} (hstart : 0 < startId) (hsize : 0 < maxSize) (levels : ℕ → ℤ)
    {cs : List PlayerCall} (hcs : ∀ c ∈ cs, c.HasRole) :
    (∀ cs₁ cs₂ t, cs = cs₁ ++ cs₂ → playerMachine.run (.start startId maxSize levels) cs₁ = some t → TablesAgree t) ↔
      playerMachine.Along (fun m c => c.NewRole m) (.start startId maxSize levels) cs :=
  (Machine.along_iff_reached_of (fun _ _ _ hc h hnew hstep => h.step hc hnew hstep) (fun _ => TablesInv.agree)
    (fun _ _ _ h hafter => h.newRole hafter) (TablesInv.start hstart hsize levels) hcs).symm

/-- A role leaves with one user id and comes back with another one. -/
def roleReturns : List PlayerCall := [.malloc 1 7, .free 1, .malloc 2 7]

theorem roleReturns_agree : ∃ t, playerMachine.run (.start 1 2 fun _ => 0) roleReturns = some t ∧ TablesAgree t := by
  have hnew : playerMachine.Along (fun m c => c.NewRole m) (.start 1 2 fun _ => 0) roleReturns := by decide
  have hroles : ∀ c ∈ roleReturns, c.HasRole := by decide
  obtain ⟨t, ht⟩ : ∃ t, playerMachine.run (.start 1 2 fun _ => 0) roleReturns = some t := ⟨_, rfl⟩
  exact ⟨t, ht, (tablesAgree_iff (by decide) (by decide) _ hroles).2 hnew roleReturns [] t (List.append_nil _).symm ht⟩

/-- The same role comes with two user ids. -/
theorem roleTwice_disagrees : ∃ t, playerMachine.run (.start 1 2 fun _ => 0) [.malloc 1 7, .malloc 2 7] = some t ∧
    ¬TablesAgree t := by
  refine ⟨_, rfl, fun hagree => ?_⟩
  have hinv : TablesInv ((PlayerManager.start 1 2 fun _ => 0).malloc 1 7) :=
    (TablesInv.start (by decide) (by decide) _).malloc (by decide) (Or.inr rfl)
  have hnew : (PlayerCall.malloc 2 7).NewRole ((PlayerManager.start 1 2 fun _ => 0).malloc 1 7) :=
    hinv.newRole fun m' hm' => Option.some.inj hm' ▸ hagree
  obtain hnone | hnone := hnew
  · cases hnone
  · cases hnone

end JmyGame
