import JmyGame.ClusterRun
import JmyGame.CommonSends

/-! The items of a role on both sides of the link between the game server and the db server. The game server adds
and removes items and sends what it did; the db server adds them to its record. -/

namespace JmyGame

open CArith GmManager

/-- A message of the items of a role can be sent. -/
theorem sendTakes_item (msgId : MsgId) (m : MsgItem) : sendTakes msgId (Wire.item.serialize m) = true := by
  have hlen := Wire.length_item_le m
  rw [sendTakes_iff (by omega)]
  omega

theorem short_item (m : MsgItem) : short (Wire.item.serialize m) = Wire.item.serialize m := by
  have hlen := Wire.length_item_le m
  exact short_of_lt (by omega)

/-- The number of items of a type in a record. -/
def TPlayer.count (t : TPlayer) (typeId : BitVec 32) : BitVec 32 := (t.items typeId).getD 0

/-- The commands that change items, with their words. -/
inductive ItemCommand where
  | addItem (params : List Str)
  | rmItem (params : List Str)

namespace ItemCommand

def params : ItemCommand → List Str
  | addItem params => params
  | rmItem params => params

def msgId : ItemCommand → MsgId
  | addItem _ => MsgId.gs2dsAddItemRequest
  | rmItem _ => MsgId.gs2dsRmItemRequest

/-- The type and the number of the items. -/
def words (c : ItemCommand) : Option (BitVec 32 × BitVec 32) :=
  match c.params[2]?, c.params[3]? with
  | some p₂, some p₃ => some ((strtoul p₂).truncate 32, (strtoul p₃).truncate 32)
  | _, _ => none

/-- What the command does to the items. -/
def change (config : GameConfig) (items : ItemMgr) (w : BitVec 32 × BitVec 32) : ItemCommand → Option ItemMgr
  | addItem _ => items.addItem config.itemTable w.1 w.2
  | rmItem _ => items.rmItem w.1 w.2

end ItemCommand

/-- A command for a role at the game server. -/
def Game.itemCommand (config : GameConfig) (roleId : BitVec 64) (s : Game) : ItemCommand → Option Game
  | .addItem params => (gmAddItem wire config s roleId params).map Prod.snd
  | .rmItem params => (gmRmItem wire s roleId params).map Prod.snd

def itemMachine (config : GameConfig) (roleId : BitVec 64) : Machine Game ItemCommand :=
  ⟨Game.itemCommand config roleId⟩

/-- The db server takes packets from the link one after the other. -/
def DB.receive (selected : Bool) (time : ℕ) (stale : BitVec 32) (d : DB) (packets : List Packet) : DB :=
  packets.foldl (fun d packet => DB.closeGameOnError
    (DbGameHandler.handle wire selected time d (packet.info stale d.connId))) d

/-- The game server plays the role, the db server has its record, and the link between them is up. -/
structure ItemLink (roleId : BitVec 64) (s : Game) (d : DB) : Prop where
  player : s.mgr.getByRoleId roleId ≠ none
  dbConn : s.dbConn = true
  dbUp : s.dbUp = true
  record : d.table.getByKey roleId ≠ none
  gameUp : d.gameUp = true

/-- Both sides have the same number of items of every type. -/
def ItemsAgree (roleId : BitVec 64) (s : Game) (d : DB) : Prop :=
  ∀ obj p, s.mgr.getByRoleId roleId = some obj → d.table.getByKey roleId = some p →
    ∀ typeId, (s.mgr.objs obj).items.count typeId = (d.table.recs p).count typeId

/-- The items that are added are not more than the game server takes, and no items are removed. -/
def ItemCommand.Keeps (config : GameConfig) (items : ItemMgr) (w : BitVec 32 × BitVec 32) : ItemCommand → Prop
  | addItem _ => ∀ maxCount, config.itemTable w.1 = some maxCount → (items.count w.1 + w.2).toInt ≤ maxCount
  | rmItem _ => w.2.toNat ≤ (items.count w.1).toNat → w.2 = 0

/-- The command keeps the number of items that the db server will have. -/
def KeepsCount (config : GameConfig) (roleId : BitVec 64) (s : Game) (c : ItemCommand) : Prop :=
  ∀ w obj, c.words = some w → s.mgr.getByRoleId roleId = some obj → c.Keeps config (s.mgr.objs obj).items w

variable {config : GameConfig} {roleId : BitVec 64} {s s' : Game} {d : DB} {c : ItemCommand}

/-- The two commands as one. -/
theorem itemCommand_eq : s.itemCommand config roleId c = c.words.map fun w =>
    match s.mgr.getByRoleId roleId with
    | none => s
    | some obj => (sendItem s obj c.msgId Wire.item ⟨roleId, w.1, w.2⟩
        (c.change config (s.mgr.objs obj).items w)).2 := by
  cases c with
  | addItem params =>
      unfold Game.itemCommand gmAddItem ItemCommand.words ItemCommand.params
      dsimp only
      generalize params[2]? = p₂, params[3]? = p₃
      cases p₂ <;> cases p₃ <;> cases s.mgr.getByRoleId roleId <;> rfl
  | rmItem params =>
      unfold Game.itemCommand gmRmItem ItemCommand.words ItemCommand.params
      dsimp only
      generalize params[2]? = p₂, params[3]? = p₃
      cases p₂ <;> cases p₃ <;> cases s.mgr.getByRoleId roleId <;> rfl

theorem sendItem_up (hconn : s.dbConn = true) (hup : s.dbUp = true) (obj : ℕ) (c : ItemCommand) (item : MsgItem)
    (items : ItemMgr) : sendItem s obj c.msgId Wire.item item (some items) =
      (0, { s with
        mgr := s.mgr.modify obj fun p => { p with items := items }
        toDB := s.toDB ++ [⟨none, c.msgId, Wire.item.serialize item⟩] }) := by
  have htakes : sendTakes c.msgId (Wire.item.serialize item) = true := sendTakes_item c.msgId item
  have hlen := Wire.length_item_le item
  unfold sendItem
  dsimp only
  rw [Codec.serializeToArray, if_pos (by omega)]
  simp only [Game.sendDB, Game.dbConnSend, Game.setMgr, hconn, hup, htakes, short_item, if_true, and_self]
  rw [if_neg (by omega)]

/-- A command that is refused changes nothing; another one leaves its items and sends one message. -/
theorem itemCommand_cases (hlink : ItemLink roleId s d) (hstep : s.itemCommand config roleId c = some s') :
    ∃ w obj, c.words = some w ∧ s.mgr.getByRoleId roleId = some obj ∧
      (c.change config (s.mgr.objs obj).items w = none ∧ s' = s ∨
        ∃ items, c.change config (s.mgr.objs obj).items w = some items ∧
          s' = { s with
            mgr := s.mgr.modify obj fun p => { p with items := items }
            toDB := s.toDB ++ [⟨none, c.msgId, Wire.item.serialize ⟨roleId, w.1, w.2⟩⟩] }) := by
  rw [itemCommand_eq] at hstep
  obtain ⟨w, hw, rfl⟩ := Option.map_eq_some_iff.1 hstep
  obtain ⟨obj, hobj⟩ := Option.ne_none_iff_exists'.1 hlink.player
  refine ⟨w, obj, hw, hobj, ?_⟩
  rw [hobj]
  dsimp only
  cases hchange : c.change config (s.mgr.objs obj).items w with
  | none => exact Or.inl ⟨rfl, rfl⟩
  | some items => exact Or.inr ⟨items, rfl, by rw [sendItem_up hlink.dbConn hlink.dbUp]⟩

variable {selected : Bool} {time : ℕ} {stale : BitVec 32}

theorem DB.receive_append (d : DB) (packets : List Packet) (packet : Packet) :
    d.receive selected time stale (packets ++ [packet]) =
      (d.receive selected time stale packets).receive selected time stale [packet] :=
  List.foldl_append

/-- The db server does nothing for items that are removed. -/
theorem DB.receive_rmItem (d : DB) (m : MsgItem) :
    d.receive selected time stale [⟨none, MsgId.gs2dsRmItemRequest, Wire.item.serialize m⟩] = d := by
  rfl

theorem commitUpdateRequest_kept (t : PlayerTable) (r : ℕ) :
    (t.commitUpdateRequest r).2.keyRecordMap = t.keyRecordMap ∧ (t.commitUpdateRequest r).2.recs = t.recs := by
  unfold PlayerTable.commitUpdateRequest
  split <;> exact ⟨rfl, rfl⟩

/-- The table behind `processAddItem`. -/
def PlayerTable.addItem (t : PlayerTable) (p : ℕ) (m : MsgItem) : PlayerTable :=
  ((t.modify p fun user => { user with
    items := Function.update user.items m.typeId (some (user.count m.typeId + m.itemNum)) }).commitUpdateRequest p).2

theorem processAddItem_eq {p : ℕ} {m : MsgItem} {info : JmyMsgInfo} (hdata : info.data = Wire.item.serialize m)
    (hup : d.gameUp = true) (hrecord : d.table.getByKey m.roleId = some p) :
    DbGameHandler.processAddItem wire d info = ((info.len : ℤ), { d with
      table := d.table.addItem p m
      toGame := d.toGame ++ [⟨none, MsgId.ds2gsAddItemResponse, Wire.item.serialize m⟩] }) := by
  have htakes : sendTakes MsgId.ds2gsAddItemResponse (Wire.item.serialize m) = true :=
    sendTakes_item _ m
  have hfits : wire.addItemResponse.serializeToArray maxMsgSize m = some (Wire.item.serialize m) :=
    if_pos ((Wire.length_item_le m).trans (by decide))
  have hparse : wire.addItemRequest.parse info.data = some m := by
    rw [hdata]
    exact Wire.item_round_trip m
  unfold DbGameHandler.processAddItem
  simp only [hup, hparse, hrecord, hfits, DB.gameConnSend, DB.setTable, htakes, short_item, Bool.true_eq_false,
    if_false, and_self, if_true]
  rw [if_neg (by omega)]
  rfl

/-- The db server adds items to the record of their role. -/
theorem DB.receive_addItem {p : ℕ} {m : MsgItem} (hup : d.gameUp = true)
    (hrecord : d.table.getByKey m.roleId = some p) :
    d.receive selected time stale [⟨none, MsgId.gs2dsAddItemRequest, Wire.item.serialize m⟩] = { d with
      table := d.table.addItem p m
      toGame := d.toGame ++ [⟨none, MsgId.ds2gsAddItemResponse, Wire.item.serialize m⟩] } := by
  change DB.closeGameOnError (DbGameHandler.processAddItem wire d (Packet.info
    ⟨none, MsgId.gs2dsAddItemRequest, Wire.item.serialize m⟩ stale d.connId)) = _
  rw [processAddItem_eq rfl hup hrecord, DB.closeGameOnError, if_neg]
  exact not_lt.2 (Int.natCast_nonneg _)

theorem count_set (items : ItemMgr) (typeId num typeId' : BitVec 32) :
    (items.set typeId num).count typeId' = if typeId' = typeId then num else items.count typeId' := by
  unfold ItemMgr.count ItemMgr.set
  dsimp only
  rw [Function.update_apply]
  split_ifs <;> rfl

/-- `add_item` adds the items, or leaves `max_count` of them. -/
theorem count_addItem {table : BitVec 32 → Option ℤ} {items items' : ItemMgr} {typeId itemNum : BitVec 32}
    (h : items.addItem table typeId itemNum = some items') : ∃ maxCount, table typeId = some maxCount ∧
      items' = items.set typeId (if maxCount < (items.count typeId + itemNum).toInt then BitVec.ofInt 32 maxCount
        else items.count typeId + itemNum) := by
  obtain ⟨maxCount, htable, rfl⟩ := Option.map_eq_some_iff.1 h
  refine ⟨maxCount, htable, ?_⟩
  unfold ItemMgr.count
  cases items.items typeId with
  | none => simp only [Option.getD_none, BitVec.ofNat_eq_ofNat, BitVec.zero_add]
  | some num => rfl

theorem count_rmItem {items items' : ItemMgr} {typeId itemNum : BitVec 32}
    (h : items.rmItem typeId itemNum = some items') : itemNum.toNat ≤ (items.count typeId).toNat ∧
      items' = items.set typeId (items.count typeId - itemNum) := by
  unfold ItemMgr.rmItem at h
  unfold ItemMgr.count
  cases hfind : items.items typeId with
  | none =>
      rw [hfind] at h
      cases h
  | some num =>
      rw [hfind] at h
      obtain ⟨hnum, heq⟩ := Option.ite_none_left_eq_some.1 h
      obtain rfl := Option.some.inj heq
      exact ⟨not_lt.1 hnum, rfl⟩

theorem count_addItem_table (t : PlayerTable) (p : ℕ) (m : MsgItem) (typeId : BitVec 32) :
    ((t.addItem p m).recs p).count typeId =
      if typeId = m.typeId then (t.recs p).count m.typeId + m.itemNum else (t.recs p).count typeId := by
  unfold PlayerTable.addItem
  rw [(commitUpdateRequest_kept _ p).2, PlayerTable.modify]
  dsimp only
  rw [Function.update_self, TPlayer.count]
  dsimp only
  rw [Function.update_apply]
  split_ifs <;> rfl

/-- What a command sends, the db server adds to its record, unless items are removed. -/
def ItemCommand.stored (c : ItemCommand) (count itemNum : BitVec 32) : BitVec 32 :=
  match c with
  | .addItem _ => count + itemNum
  | .rmItem _ => count

/-- The db server takes the message of a command. -/
theorem receive_command {p : ℕ} (hup : d.gameUp = true) (hrecord : d.table.getByKey roleId = some p)
    (c : ItemCommand) (w : BitVec 32 × BitVec 32) :
    ∃ d', d.receive selected time stale [⟨none, c.msgId, Wire.item.serialize ⟨roleId, w.1, w.2⟩⟩] = d' ∧
      d'.gameUp = true ∧ d'.table.getByKey roleId = some p ∧
      ∀ typeId, (d'.table.recs p).count typeId =
        if typeId = w.1 then c.stored ((d.table.recs p).count w.1) w.2 else (d.table.recs p).count typeId := by
  cases c with
  | addItem params =>
      refine ⟨_, DB.receive_addItem hup hrecord, hup, ?_, count_addItem_table d.table p ⟨roleId, w.1, w.2⟩⟩
      change (d.table.addItem p _).keyRecordMap.find1 roleId = some p
      rw [PlayerTable.addItem, (commitUpdateRequest_kept _ p).1]
      exact hrecord
  | rmItem params =>
      refine ⟨d, DB.receive_rmItem d _, hup, hrecord, fun typeId => ?_⟩
      split_ifs with heq
      · rw [heq]
        rfl
      · rfl

/-- The counts that `max_count` can be. -/
def GameConfig.IntCounts (config : GameConfig) : Prop :=
  ∀ typeId maxCount, config.itemTable typeId = some maxCount → -2 ^ 31 ≤ maxCount ∧ maxCount < 2 ^ 31

/-- A command leaves what the db server stores exactly when it keeps the count. -/
theorem change_count_iff (hints : config.IntCounts) {items items' : ItemMgr} {w : BitVec 32 × BitVec 32}
    (hchange : c.change config items w = some items') :
    items'.count w.1 = c.stored (items.count w.1) w.2 ↔ c.Keeps config items w := by
  cases c with
  | addItem params =>
      obtain ⟨maxCount, htable, rfl⟩ := count_addItem hchange
      rw [count_set, if_pos rfl]
      change _ = items.count w.1 + w.2 ↔ ∀ maxCount, config.itemTable w.1 = some maxCount → _
      rw [htable]
      simp only [Option.some.injEq, forall_eq']
      obtain ⟨hlow, hhigh⟩ := hints w.1 maxCount htable
      split_ifs with hclamp
      · refine iff_of_false (fun heq => ?_) (not_le.2 hclamp)
        rw [← heq, BitVec.toInt_ofInt, Int.bmod_eq_of_le (by omega) (by omega)] at hclamp
        exact lt_irrefl _ hclamp
      · exact iff_of_true rfl (not_lt.1 hclamp)
  | rmItem params =>
      obtain ⟨hnum, rfl⟩ := count_rmItem hchange
      rw [count_set, if_pos rfl]
      change items.count w.1 - w.2 = items.count w.1 ↔ (_ → _)
      constructor
      · intro heq _
        bv_omega
      · intro hzero
        rw [hzero hnum]
        exact BitVec.sub_zero _

/-- A command that is refused keeps the count. -/
theorem keeps_of_refused {items : ItemMgr} {w : BitVec 32 × BitVec 32}
    (hchange : c.change config items w = none) : c.Keeps config items w := by
  cases c with
  | addItem params =>
      intro maxCount htable
      rw [Option.map_eq_none_iff.1 hchange] at htable
      cases htable
  | rmItem params =>
      intro hnum
      change items.rmItem w.1 w.2 = none at hchange
      unfold ItemMgr.rmItem at hchange
      unfold ItemMgr.count at hnum
      cases hfind : items.items w.1 with
      | none =>
          rw [hfind] at hnum
          exact BitVec.eq_of_toNat_eq (Nat.le_zero.1 hnum)
      | some num =>
          rw [hfind] at hchange
          rw [hfind, Option.getD_some] at hnum
          dsimp only at hchange
          rw [if_neg (not_lt.2 hnum)] at hchange
          cases hchange

/-- The two sides behind a run, with the messages from the place `start` on received. -/
structure ItemsLinked (roleId : BitVec 64) (start : ℕ) (receive : List Packet → DB) (s : Game) : Prop where
  sent : start ≤ s.toDB.length
  link : ItemLink roleId s (receive (s.toDB.drop start))

/-- Both sides have the same items behind a command, exactly when it keeps the count. -/
theorem itemsAgree_modify {d' : DB} {obj p : ℕ} {items : ItemMgr} {w : BitVec 32 × BitVec 32} {packets : List Packet}
    (hagree : ItemsAgree roleId s d) (hobj : s.mgr.getByRoleId roleId = some obj)
    (hrecord : d.table.getByKey roleId = some p) (hrecord' : d'.table.getByKey roleId = some p)
    (hitems : ∀ typeId, typeId ≠ w.1 → items.count typeId = (s.mgr.objs obj).items.count typeId)
    (hcount : ∀ typeId, (d'.table.recs p).count typeId =
      if typeId = w.1 then c.stored ((d.table.recs p).count w.1) w.2 else (d.table.recs p).count typeId) :
    ItemsAgree roleId { s with mgr := s.mgr.modify obj fun p => { p with items := items }, toDB := packets } d' ↔
      items.count w.1 = c.stored ((s.mgr.objs obj).items.count w.1) w.2 := by
  have hsame := hagree obj p hobj hrecord
  have hobjs : ((s.mgr.modify obj fun p => { p with items := items }).objs obj).items = items := by
    rw [PlayerManager.modify]
    dsimp only
    rw [Function.update_self]
  constructor
  · intro h
    have hone := h obj p hobj hrecord' w.1
    rw [hcount, if_pos rfl, ← hsame] at hone
    exact hobjs ▸ hone
  · intro h obj' p' hobj' hp' typeId
    obtain rfl := Option.some.inj (hobj.symm.trans hobj')
    obtain rfl := Option.some.inj (hrecord'.symm.trans hp')
    change ItemMgr.count ((s.mgr.modify obj fun p => { p with items := items }).objs obj).items typeId = _
    rw [hobjs, hcount]
    split_ifs with heq
    · rw [heq, h, hsame]
    · rw [hitems typeId heq, hsame]

/-- A change concerns one type of items. -/
theorem change_other {items items' : ItemMgr} {w : BitVec 32 × BitVec 32} {typeId : BitVec 32}
    (hchange : c.change config items w = some items') (hne : typeId ≠ w.1) :
    items'.count typeId = items.count typeId := by
  cases c with
  | addItem params =>
      obtain ⟨maxCount, -, rfl⟩ := count_addItem hchange
      rw [count_set, if_neg hne]
  | rmItem params =>
      obtain ⟨-, rfl⟩ := count_rmItem hchange
      rw [count_set, if_neg hne]

/-- A command keeps the link, and both sides the same exactly when it keeps the count. -/
theorem itemCommand_agree {start : ℕ} (hints : config.IntCounts)
    (h : ItemsLinked roleId start (d.receive selected time stale) s)
    (hagree : ItemsAgree roleId s (d.receive selected time stale (s.toDB.drop start)))
    (hstep : s.itemCommand config roleId c = some s') :
    ItemsLinked roleId start (d.receive selected time stale) s' ∧
      (ItemsAgree roleId s' (d.receive selected time stale (s'.toDB.drop start)) ↔
        KeepsCount config roleId s c) := by
  obtain ⟨w, obj, hw, hobj, hcases⟩ := itemCommand_cases h.link hstep
  have hkeeps : KeepsCount config roleId s c ↔ c.Keeps config (s.mgr.objs obj).items w := by
    constructor
    · exact fun hall => hall w obj hw hobj
    · intro hone w' obj' hw' hobj'
      obtain rfl := Option.some.inj (hobj.symm.trans hobj')
      obtain rfl := Option.some.inj (hw.symm.trans hw')
      exact hone
  rcases hcases with ⟨hrefused, rfl⟩ | ⟨items, hchange, heq⟩
  · exact ⟨h, iff_of_true hagree (hkeeps.2 (keeps_of_refused hrefused))⟩
  · obtain ⟨p, hrecord⟩ := Option.ne_none_iff_exists'.1 h.link.record
    obtain ⟨d', hd', hup', hrecord', hcount⟩ := receive_command h.link.gameUp hrecord c w
    have hreceived : d.receive selected time stale (s'.toDB.drop start) = d' := by
      rw [heq]
      dsimp only
      rw [List.drop_append_of_le_length h.sent, DB.receive_append]
      exact hd'
    constructor
    · constructor
      · rw [heq]
        dsimp only
        rw [List.length_append]
        exact Nat.le_add_right_of_le h.sent
      · rw [hreceived, heq]
        exact ⟨h.link.player, h.link.dbConn, h.link.dbUp, hrecord'.symm ▸ Option.some_ne_none p, hup'⟩
    · rw [hreceived, hkeeps, ← change_count_iff hints hchange, heq]
      exact itemsAgree_modify hagree hobj hrecord hrecord' (fun _ hne => change_other hchange hne) hcount

/-- Both sides have the same items behind every part of a sequence of commands, exactly when every command keeps
the count. -/
theorem itemsAgree_iff (hints : config.IntCounts) (hlink : ItemLink roleId s d) (hagree : ItemsAgree roleId s d)
    (selected : Bool) (time : ℕ) (stale : BitVec 32) (cmds : List ItemCommand) :
    (itemMachine config roleId).Along (fun s c => s.itemCommand config roleId c ≠ none → KeepsCount config roleId s c)
        s cmds ↔
      ∀ cmds₁ cmds₂ s', cmds = cmds₁ ++ cmds₂ → (itemMachine config roleId).run s cmds₁ = some s' →
        ItemsAgree roleId s' (d.receive selected time stale (s'.toDB.drop s.toDB.length)) := by
  have hstart : d.receive selected time stale (s.toDB.drop s.toDB.length) = d := by
    rw [List.drop_length]
    rfl
  refine Machine.along_iff_reached
    (I := fun s' => ItemsLinked roleId s.toDB.length (d.receive selected time stale) s' ∧
      ItemsAgree roleId s' (d.receive selected time stale (s'.toDB.drop s.toDB.length))) ?_ (fun _ h => h.2) ?_
    ⟨⟨le_rfl, hstart.symm ▸ hlink⟩, hstart.symm ▸ hagree⟩ cmds
  · intro s₁ c s₂ h hkeeps hstep
    obtain ⟨hlinked, hiff⟩ := itemCommand_agree hints h.1 h.2 hstep
    change s₁.itemCommand config roleId c = some s₂ at hstep
    exact ⟨hlinked, hiff.2 (hkeeps (hstep ▸ Option.some_ne_none s₂))⟩
  · intro s₁ c h hreached hsome
    obtain ⟨s₂, hstep⟩ := Option.ne_none_iff_exists'.1 hsome
    exact (itemCommand_agree hints h.1 h.2 hstep).2.1 (hreached s₂ hstep)

/-- A game server that takes ten items of the type 1. -/
def tenItems : GameConfig := ⟨1, fun typeId => if typeId = 1 then some 10 else none⟩

/-- A game server that plays the role 7 and is linked to the db server. -/
def itemsGame : Game :=
  { Game.start with mgr := (PlayerManager.empty.init 1 10).2.malloc 1 7, dbUp := true, dbConn := true }

/-- A db server with the record of the role 7. -/
def itemsDB : DB := { DB.start with table := (PlayerTable.empty.getNewByKeyAndKey2 7 [97]).2, gameUp := true }

/-- `/gm additem 1 5`. -/
def addFive : ItemCommand := .addItem [gm, [97, 100, 100, 105, 116, 101, 109], [49], [53]]

/-- `/gm rmitem 1 2`. -/
def rmTwo : ItemCommand := .rmItem [gm, [114, 109, 105, 116, 101, 109], [49], [50]]

theorem itemsGame_linked : ItemLink 7 itemsGame itemsDB := ⟨nofun, rfl, rfl, nofun, rfl⟩

theorem itemsGame_agree : ItemsAgree 7 itemsGame itemsDB := by
  intro obj p hobj hp typeId
  obtain rfl : 0 = obj := Option.some.inj hobj
  obtain rfl : 0 = p := Option.some.inj hp
  rfl

theorem addFive_agree : ∃ s', (itemMachine tenItems 7).run itemsGame [addFive] = some s' ∧
    ItemsAgree 7 s' (itemsDB.receive true 0 0 (s'.toDB.drop itemsGame.toDB.length)) := by
  have hints : tenItems.IntCounts := by
    intro typeId maxCount h
    obtain ⟨-, heq⟩ := Option.ite_none_right_eq_some.1 h
    obtain rfl := Option.some.inj heq
    decide
  have halong : (itemMachine tenItems 7).Along
      (fun s c => s.itemCommand tenItems 7 c ≠ none → KeepsCount tenItems 7 s c) itemsGame [addFive] := by
    refine ⟨fun _ w obj hw hobj maxCount htable => ?_, fun _ _ => trivial⟩
    obtain rfl : (1, 5) = w := Option.some.inj hw
    obtain rfl : 0 = obj := Option.some.inj hobj
    obtain rfl : 10 = maxCount := Option.some.inj htable
    decide
  refine ⟨_, rfl, ?_⟩
  exact (itemsAgree_iff hints itemsGame_linked itemsGame_agree true 0 0 [addFive]).1 halong [addFive] [] _ rfl rfl

/-- Five items are added and two are removed: the game server has three and the db server five. -/
theorem rmTwo_disagree : ∃ s', (itemMachine tenItems 7).run itemsGame [addFive, rmTwo] = some s' ∧
    ¬ItemsAgree 7 s' (itemsDB.receive true 0 0 (s'.toDB.drop itemsGame.toDB.length)) := by
  refine ⟨_, rfl, fun h => ?_⟩
  have hcount := h 0 0 rfl rfl 1
  revert hcount
  decide

end JmyGame
