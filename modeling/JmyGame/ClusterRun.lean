import JmyGame.GameHandlers
import JmyGame.DbHandlers

/-! The gate, the game server and the db server together. The two links are pairs of queues that deliver
in order. An end of a link is closed when one of its handlers has a negative result and when it sees that
the other end is gone; the game server then connects anew. -/

namespace JmyGame

/-- The message that a handler gets for a packet. The data handler keeps the user id of an earlier
packet, and a plain packet does not set it. -/
def Packet.info (packet : Packet) (stale : BitVec 32) (connId : ℤ) : JmyMsgInfo :=
  ⟨packet.userId.getD stale, packet.msgId, packet.data, packet.data.length, connId⟩

structure Cluster where
  gate : Gate
  game : Game
  db : DB

/-- What happens in the cluster: something at the gate, the two links are made and lost, a packet is
handled at the end of a link, the database answers a select, and the records are written. -/
inductive ClusterEvent where
  | gate (e : GateEvent)
  | linkGate
  | loseGate
  | loseGame
  | linkDB
  | loseDB
  | loseDBGame
  | gateToGame (stale : BitVec 32)
  | gameToGate (session : Str) (stale : BitVec 32)
  | gameToDB (selected : Bool) (time : ℕ) (stale : BitVec 32)
  | dbToGame (stale : BitVec 32)
  | select (i : ℕ) (result : SelectResult)
  | update

namespace Cluster

def start (maxConn : ℕ) : Cluster := ⟨{ Gate.start maxConn with gameUp := false }, .start, .start⟩

variable (P : Protocol) (config : GameConfig) (c : Cluster)

/-- The cluster with what the gate reads of erased nodes. -/
def reading (reads : ℕ → FreedReads) : Cluster := { c with gate := c.gate.reading reads }

/-- The handler of the gate for a packet of the game server. -/
def atGate (session : Str) (stale : BitVec 32) (packet : Packet) : ℤ × Gate :=
  GateGameHandler.handle P session c.gate (packet.info stale 0)

/-- The handler of the game server for a packet of the gate. -/
def atGame (stale : BitVec 32) (packet : Packet) : Option (ℤ × Game) :=
  ConnGateHandler.handle P config c.game (packet.info stale 0)

/-- The handler of the db server for a packet of the game server. -/
def atDB (selected : Bool) (time : ℕ) (stale : BitVec 32) (packet : Packet) : ℤ × DB :=
  DbGameHandler.handle P selected time c.db (packet.info stale c.db.connId)

/-- Both ends of the link between the game server and the gate are new. -/
def linkGate : Cluster :=
  { c with
    gate := { c.gate with gameUp := true, gameAgent := none, toGame := [] }
    game := (ConnGateHandler.onConnect P config { c.game with gateUp := true, toGate := [] }).2 }

/-- Both ends of the link between the game server and the db server are new. -/
def linkDB : Cluster :=
  { c with
    game := (ConnDBHandler.onConnect P config { c.game with dbUp := true, toDB := [] }).2
    db := { c.db with gameUp := true, connId := c.db.connId + 1, agent := none, toGame := [] } }

def step : ClusterEvent → Option Cluster
  | .gate (.game _ _ _ _) => none
  | .gate e => (c.gate.step P e).map fun g => { c with gate := g }
  | .linkGate => if c.gate.gameUp = false ∧ c.game.gateUp = false then some (c.linkGate P config) else none
  | .loseGate => some { c with game := c.game.closeGate }
  | .loseGame => some { c with gate := c.gate.closeGame }
  | .linkDB => if c.game.dbUp = false ∧ c.db.gameUp = false then some (c.linkDB P config) else none
  | .loseDB => some { c with game := c.game.closeDB }
  | .loseDBGame => some { c with db := c.db.closeGame }
  | .gateToGame stale =>
    match c.gate.toGame with
    | [] => none
    | packet :: rest =>
      if c.game.gateUp = false then none
      else (c.atGame P config stale packet).map fun r =>
        { c with gate := { c.gate with toGame := rest }, game := Game.closeGateOnError r }
  | .gameToGate session stale =>
    match c.game.toGate with
    | [] => none
    | packet :: rest =>
      if c.gate.gameUp = false then none
      else some { c with
        gate := Gate.closeGameOnError (c.atGate P session stale packet)
        game := { c.game with toGate := rest } }
  | .gameToDB selected time stale =>
    match c.game.toDB with
    | [] => none
    | packet :: rest =>
      if c.db.gameUp = false then none
      else some { c with
        game := { c.game with toDB := rest }
        db := DB.closeGameOnError (c.atDB P selected time stale packet) }
  | .dbToGame stale =>
    match c.db.toGame with
    | [] => none
    | packet :: rest =>
      if c.game.dbUp = false then none
      else some { c with
        game := Game.closeDBOnError (ConnDBHandler.handle P c.game (packet.info stale 0))
        db := { c.db with toGame := rest } }
  | .select i result =>
    match c.db.selecting[i]? with
    | none => none
    | some (account, connId) => some { c with
        db := (DBResCBFuncs.onSelect P { c.db with selecting := c.db.selecting.eraseIdx i }
          account connId result).2 }
  | .update => some { c with db := c.db.setTable c.db.table.update }

end Cluster

def clusterMachine (P : Protocol) (config : GameConfig) : Machine Cluster ClusterEvent :=
  ⟨Cluster.step P config⟩

end JmyGame
