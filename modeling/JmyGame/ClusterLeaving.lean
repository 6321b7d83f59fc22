import JmyGame.ClusterPlayers
import JmyGame.GamePlayerTables

/-! A user that leaves the game. The request of the gate names no role, and the game server hands its role id to
`free(int)`, which takes a user id: the player stays where it is. -/

namespace JmyGame

open CArith

namespace PlayerManager

variable (m : PlayerManager)

/-- `malloc(role_id)`, a player without a user id. -/
def mallocRole (roleId : BitVec 64) : PlayerManager :=
  let obj := m.pool.malloc
  { m with
    pool := obj.2
    objs := Function.update m.objs obj.1 { m.objs obj.1 with roleId := roleId }
    allPlayers := if m.allPlayers roleId = none then
      Function.update m.allPlayers roleId (some obj.1) else m.allPlayers }

/-- `bind_account_role_id`. -/
def bindAccountRoleId (account : Str) (roleId : BitVec 64) : Bool × PlayerManager :=
  if m.allPlayers roleId = none then (false, m)
  else (true, { m with account2roleId := (m.account2roleId.insert account roleId).2 })

end PlayerManager

/-- What the game server does with its players; `change` stands for the commands that change one. -/
inductive ManagerCall where
  | init (startId maxSize : ℤ)
  | player (e : PlayerCall)
  | mallocRole (roleId : BitVec 64)
  | bindAccountRoleId (account : Str) (roleId : BitVec 64)
  | change (obj : ℕ) (f : Player → Player)

def managerMachine : Machine PlayerManager ManagerCall where
  step m
    | .init startId maxSize => some (m.init startId maxSize).2
    | .player e => m.call e
    | .mallocRole roleId => some (m.mallocRole roleId)
    | .bindAccountRoleId account roleId => some (m.bindAccountRoleId account roleId).2
    | .change obj f => some (m.modify obj f)

/-- The user has no player any more, and the players, the roles and the accounts of all others are as before. -/
structure LeavesGame (m m' : PlayerManager) (userId : ℤ) : Prop where
  gone : m'.get userId = none
  players : ∀ userId', userId' ≠ userId → m'.get userId' = m.get userId' ∧
    ∀ obj, m.get userId' = some obj → m'.objs obj = m.objs obj
  roles : ∀ userId', userId' ≠ userId → m'.getRoleIdByUserId userId' = m.getRoleIdByUserId userId'
  accounts : ∀ account roleId, roleId ≠ m.getRoleIdByUserId userId →
    (m'.account2roleId.find1 account = some roleId ↔ m.account2roleId.find1 account = some roleId)

/-- The request that the gate sends for a user. -/
def leavePacket (P : Protocol) (userId : BitVec 32) : Packet :=
  ⟨some userId, MsgId.gt2gsLeaveGameRequest, short (P.leaveGameRequest.serialize 0)⟩

/-- What `processLeaveGameRequest` of the gate puts on the link is such a request. -/
theorem leavePacket_sent (P : Protocol) (g : Gate) (info : JmyMsgInfo) :
    ∃ new, (ClientHandler.processLeaveGameRequest P g info).2.toGame = g.toGame ++ new ∧
      ∀ packet ∈ new, ∃ userId, packet = leavePacket P userId := by
  have hcalm : Calm (fun packet => ∃ userId, packet = leavePacket P userId) g
      (ClientHandler.processLeaveGameRequest P g info).2 := .processLeaveGameRequest fun userId => ⟨userId, rfl⟩
  obtain ⟨new, hnew, hall, -⟩ := hcalm.queue
  exact ⟨new, hnew, hall⟩

/-- The ids of the users begin above 0, or there are none. -/
def Ranged (m : PlayerManager) : Prop := 0 < m.startPlayerId ∨ m.maxPlayerSize ≤ 0

namespace Ranged

variable {m m' : PlayerManager}

theorem congr (h : Ranged m) (hstart : m'.startPlayerId = m.startPlayerId)
    (hsize : m'.maxPlayerSize = m.maxPlayerSize) : Ranged m' := by
  unfold Ranged
  rw [hstart, hsize]
  exact h

theorem init (h : Ranged m) (startId maxSize : ℤ) : Ranged (m.init startId maxSize).2 := by
  unfold PlayerManager.init
  split_ifs with hbad
  · exact h
  · exact Or.inl (by dsimp only; omega)
  · exact h

theorem call (h : Ranged m) {e : PlayerCall} (hstep : m.call e = some m') : Ranged m' := by
  cases e with
  | malloc userId roleId =>
      cases hstep
      obtain ⟨hstart, hsize, -⟩ := malloc_table m userId roleId
      exact h.congr hstart hsize
  | free userId =>
      cases hstep
      rcases free_cases m userId with hfree | ⟨i, ids, obj, pool, -, -, -, -, hfree⟩
      · rw [hfree]
        exact h
      · rw [hfree]
        exact h.congr rfl rfl
  | freePlayer obj =>
      obtain ⟨-, hstep⟩ := Option.ite_none_right_eq_some.1 hstep
      cases hstep
      rcases freePlayer_cases m obj with hfree | ⟨i, ids, pool, -, -, -, hfree⟩
      · rw [hfree]
        exact h
      · rw [hfree]
        exact h.congr rfl rfl

theorem step (h : Ranged m) {e : ManagerCall} (hstep : managerMachine.step m e = some m') : Ranged m' := by
  cases e with
  | init startId maxSize =>
      cases hstep
      exact h.init startId maxSize
  | player e => exact h.call hstep
  | mallocRole roleId =>
      cases hstep
      exact h.congr rfl rfl
  | bindAccountRoleId account roleId =>
      cases hstep
      unfold PlayerManager.bindAccountRoleId
      split_ifs
      · exact h
      · exact h.congr rfl rfl
  | change obj f =>
      cases hstep
      exact h.congr rfl rfl

theorem free_zero (h : Ranged m) : m.free 0 = (false, m) := by
  apply free_of_index
  unfold PlayerManager.index
  rw [if_pos]
  rcases h with hstart | hsize
  · exact Or.inl (by omega)
  · by_cases hneg : 0 - m.startPlayerId < 0
    · exact Or.inl hneg
    · exact Or.inr (by omega)

end Ranged

/-- The request of the gate changes no player. -/
theorem leaveGame_mgr {P : Protocol} (hleave : P.leaveGameRequest.Faithful 0) {s : Game} (h : Ranged s.mgr)
    (userId stale : BitVec 32) (connId : ℤ) :
    (ConnGateHandler.processLeaveGame P s ((leavePacket P userId).info stale connId)).2.mgr = s.mgr := by
  rcases processLeaveGame_mgr P s ((leavePacket P userId).info stale connId) with hsame | ⟨roleId, hparse, hfree⟩
  · exact hsame
  · have hzero : P.leaveGameRequest.parse ((leavePacket P userId).info stale connId).data = some 0 := hleave.short
    cases hzero.symm.trans hparse
    rw [hfree]
    have hnothing : s.mgr.free ((0 : BitVec 64).truncate 32 : BitVec 32).toInt = (false, s.mgr) := h.free_zero
    rw [hnothing]

theorem LeavesGame.same {m : PlayerManager} {userId : ℤ} (h : m.get userId = none) : LeavesGame m m userId :=
  ⟨h, fun _ _ => ⟨rfl, fun _ _ => rfl⟩, fun _ _ => rfl, fun _ _ _ => Iff.rfl⟩

/-- Leaving the game removes the user exactly when the user has no player. -/
theorem leaveGame_leaves_iff {P : Protocol} (hleave : P.leaveGameRequest.Faithful 0) {calls : List ManagerCall}
    {s : Game} (hrun : managerMachine.run .empty calls = some s.mgr) (userId stale : BitVec 32) (connId : ℤ) :
    LeavesGame s.mgr (ConnGateHandler.processLeaveGame P s ((leavePacket P userId).info stale connId)).2.mgr
        userId.toInt ↔
      s.mgr.get userId.toInt = none := by
  have hranged : Ranged s.mgr :=
    Machine.invariant_run (I := Ranged) (fun _ _ _ h hstep => h.step hstep) (Or.inr le_rfl) hrun
  rw [leaveGame_mgr hleave hranged]
  exact ⟨fun h => h.gone, LeavesGame.same⟩

/-- A user that never entered the game. -/
theorem stranger_leaves : LeavesGame ((PlayerManager.empty.init 100000 10).2.malloc 100005 7)
    (ConnGateHandler.processLeaveGame wire (Game.start.setMgr ((PlayerManager.empty.init 100000 10).2.malloc 100005 7))
      ((leavePacket wire 100006).info 0 0)).2.mgr 100006 := by
  have hrun : managerMachine.run .empty [.init 100000 10, .player (.malloc 100005 7)] =
      some (Game.start.setMgr ((PlayerManager.empty.init 100000 10).2.malloc 100005 7)).mgr := rfl
  exact (leaveGame_leaves_iff ⟨by decide, by decide⟩ hrun 100006 0 0).2 (by decide)

/-- A user that entered the game still has its player. -/
theorem player_stays : ¬LeavesGame ((PlayerManager.empty.init 100000 10).2.malloc 100005 7)
    (ConnGateHandler.processLeaveGame wire (Game.start.setMgr ((PlayerManager.empty.init 100000 10).2.malloc 100005 7))
      ((leavePacket wire 100005).info 0 0)).2.mgr 100005 := by
  intro h
  exact absurd h.gone (by decide +kernel)

end JmyGame
