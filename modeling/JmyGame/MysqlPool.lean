import JmyGame.LibMachine
import JmyGame.LibCArith

/-! `MysqlConnectorPool`: connectors for reading and for writing, each with a queue of commands, a thread that
executes them and a queue of results, which the main thread gives to the callbacks. `MysqlDBManager` pushes its
statements here. -/

namespace JmyGame

open CArith

/-- `CmdInfo`, with callbacks of a type. -/
structure CmdInfo (γ : Type) where
  sql : List Byte
  sqlLen : BitVec 16
  callbackFunc : Option γ
  writeCmd : Bool
  deriving DecidableEq

/-- `CmdInfo(s, l)`. The length is an `unsigned short`. -/
def CmdInfo.make {γ : Type} (s : List Byte) (l : BitVec 16) : CmdInfo γ := ⟨s.take l.toNat, l, none, false⟩

/-- `ResultInfo`; without a result set `res` is null. -/
structure ResultInfo (γ ρ : Type) where
  res : Option ρ
  cbFunc : Option γ

/-- What the database says to a query: an error, no result set, or a result set. -/
inductive QueryResult (ρ : Type) where
  | failed
  | noResult
  | stored (res : ρ)

/-- `ConnectorInfo` with its thread. `ci` is the command that the thread has popped and not done. The fields
below are a record of what has happened: the texts and commands that were pushed, the commands that are done,
the queries with their lengths, the results that were pushed and popped, and the callbacks that were called. -/
structure ConnectorInfo (γ ρ : Type) where
  res : Option ρ
  cmdList : List (CmdInfo γ)
  resList : List (ResultInfo γ ρ)
  ci : Option (CmdInfo γ)
  texts : List (List Byte)
  pushed : List (CmdInfo γ)
  done : List (CmdInfo γ)
  queries : List (List Byte × ℕ)
  entries : List (ResultInfo γ ρ)
  delivered : List (ResultInfo γ ρ)
  invoked : List γ

namespace ConnectorInfo

variable {γ ρ : Type}

def empty : ConnectorInfo γ ρ := ⟨none, [], [], none, [], [], [], [], [], [], []⟩

variable (c : ConnectorInfo γ ρ)

/-- `push` of a command that was made for a text. -/
def push (text : List Byte) (info : CmdInfo γ) : ConnectorInfo γ ρ :=
  { c with cmdList := c.cmdList ++ [info], texts := c.texts ++ [text], pushed := c.pushed ++ [info] }

/-- `pop` by a thread that has nothing to do. -/
def pop : Option (ConnectorInfo γ ρ) :=
  match c.ci, c.cmdList with
  | none, info :: rest => some { c with ci := some info, cmdList := rest }
  | _, _ => none

/-- `real_query`. An error clears the result. -/
def realQuery (info : CmdInfo γ) (out : QueryResult ρ) : ConnectorInfo γ ρ :=
  { c with
    res := match out with
      | .failed => none
      | _ => c.res
    queries := c.queries ++ [(info.sql, info.sqlLen.toNat)] }

/-- `real_read_query`. A query without a result set leaves the result as it is. -/
def realReadQuery (info : CmdInfo γ) (out : QueryResult ρ) : ConnectorInfo γ ρ :=
  { c.realQuery info out with
    res := match out with
      | .failed => none
      | .noResult => c.res
      | .stored res => some res }

/-- `push_res` of the result, which is moved, with the callback of the command. -/
def pushRes (info : CmdInfo γ) : ConnectorInfo γ ρ :=
  { c with
    res := none
    resList := c.resList ++ [⟨c.res, info.callbackFunc⟩]
    entries := c.entries ++ [⟨c.res, info.callbackFunc⟩] }

/-- The thread goes on with the next command. -/
def finish (info : CmdInfo γ) : ConnectorInfo γ ρ := { c with ci := none, done := c.done ++ [info] }

/-- The loop body of `connector_read_func` behind `pop`. An empty result is not pushed. -/
def connectorRead (info : CmdInfo γ) (out : QueryResult ρ) : ConnectorInfo γ ρ :=
  let c₁ := c.realReadQuery info out
  if info.writeCmd then { c₁ with res := none }.finish info
  else if c₁.res.isNone then { c₁ with res := none }.finish info
  else (c₁.pushRes info).finish info

/-- The loop body of `connector_write_func` behind `pop`. An empty result is pushed, too. -/
def connectorWrite (info : CmdInfo γ) (out : QueryResult ρ) : ConnectorInfo γ ρ :=
  if info.writeCmd = false then ((c.realReadQuery info out).pushRes info).finish info
  else (c.realQuery info out).finish info

/-- `pop_res` in `run`, and the call of the callback. -/
def deliver : ConnectorInfo γ ρ :=
  match c.resList with
  | [] => c
  | ri :: rest => { c with
      resList := rest
      delivered := c.delivered ++ [ri]
      invoked := c.invoked ++ ri.cbFunc.toList }

end ConnectorInfo

/-- `read_connectors_` or `write_connectors_`. -/
inductive PoolSide where
  | read
  | write
  deriving DecidableEq, Repr

/-- `MysqlConnectorPool`; the connectors of a side are those below `size`. -/
structure MysqlConnectorPool (γ ρ : Type) where
  size : PoolSide → ℕ
  conns : PoolSide → ℕ → ConnectorInfo γ ρ
  currReadIndex : ℤ
  currWriteIndex : ℤ

namespace MysqlConnectorPool

variable {γ ρ : Type}

/-- A pool behind `init`. -/
def start (size : PoolSide → ℕ) : MysqlConnectorPool γ ρ := ⟨size, fun _ _ => .empty, 0, 0⟩

variable (p : MysqlConnectorPool γ ρ)

def modify (side : PoolSide) (i : ℕ) (f : ConnectorInfo γ ρ → ConnectorInfo γ ρ) : MysqlConnectorPool γ ρ :=
  { p with conns := Function.update p.conns side (Function.update (p.conns side) i (f (p.conns side i))) }

/-- `connectors[index]->push(info)`, which is undefined without such a connector. -/
def pushAt (side : PoolSide) (index : ℤ) (text : List Byte) (info : CmdInfo γ) :
    Option (MysqlConnectorPool γ ρ) :=
  if 0 ≤ index ∧ index < p.size side then some (p.modify side index.toNat fun c => c.push text info) else none

/-- The index behind `index` among connectors in a circle. -/
def nextIndex (index : ℤ) (size : ℕ) : ℤ := if (size : ℤ) - 1 ≤ index then 0 else index + 1

/-- `push_read_cmd`. -/
def pushReadCmd (text : List Byte) (info : CmdInfo γ) : Option (MysqlConnectorPool γ ρ) :=
  let p₁ := { p with currReadIndex := nextIndex p.currReadIndex (p.size .read) }
  p₁.pushAt .read p₁.currReadIndex text info

/-- `push_write_cmd`. It moves the index of the reading connectors. -/
def pushWriteCmd (text : List Byte) (info : CmdInfo γ) : Option (MysqlConnectorPool γ ρ) :=
  let p₁ := { p with currReadIndex :=
    if (p.size .write : ℤ) - 1 ≤ p.currWriteIndex then 0 else p.currReadIndex + 1 }
  p₁.pushAt .write p₁.currWriteIndex text info

/-- The loop of `run` over the connectors of a side. -/
def runSide (side : PoolSide) : ℕ → MysqlConnectorPool γ ρ
  | 0 => p
  | i + 1 => (runSide side i).modify side i ConnectorInfo.deliver

/-- `run`. -/
def run : MysqlConnectorPool γ ρ :=
  let p₁ := p.runSide .read (p.size .read)
  p₁.runSide .write (p₁.size .write)

end MysqlConnectorPool

namespace MysqlDBManager

open MysqlConnectorPool

variable {γ ρ : Type} (p : MysqlConnectorPool γ ρ)

/-- The command for a statement; its length is an `unsigned int` before it is an `unsigned short`. -/
def cmdInfo (sql : List Byte) (callback : Option γ) (writeCmd : Bool) : CmdInfo γ :=
  let cmd : CmdInfo γ := .make sql ((BitVec.ofNat 32 sql.length).setWidth 16)
  { cmd with callbackFunc := callback, writeCmd := writeCmd }

theorem cmdInfo_sqlLen (sql : List Byte) (callback : Option γ) (writeCmd : Bool) :
    (cmdInfo sql callback writeCmd).sqlLen.toNat = sql.length % 2 ^ 16 := by
  change ((BitVec.ofNat 32 sql.length).setWidth 16).toNat = _
  rw [BitVec.toNat_setWidth, BitVec.toNat_ofNat]
  omega

/-- The length of a statement loses its bits above the sixteenth, and the statement what is behind. -/
theorem cmdInfo_sql (sql : List Byte) (callback : Option γ) (writeCmd : Bool) :
    (cmdInfo sql callback writeCmd).sql = sql.take (sql.length % 2 ^ 16) :=
  congrArg (fun n => sql.take n) (cmdInfo_sqlLen sql callback writeCmd)

/-- `push_read_cmd`. -/
def pushReadCmd (sql : List Byte) (getResultFunc : Option γ) : Option (MysqlConnectorPool γ ρ) :=
  p.pushReadCmd sql (cmdInfo sql getResultFunc false)

/-- `push_write_cmd`. -/
def pushWriteCmd (sql : List Byte) : Option (MysqlConnectorPool γ ρ) :=
  p.pushWriteCmd sql (cmdInfo sql none true)

/-- `SELECT LAST_INSERT_ID()`. -/
def lastInsertIdSql : List Byte :=
  [83, 69, 76, 69, 67, 84, 32, 76, 65, 83, 84, 95, 73, 78, 83, 69, 82, 84, 95, 73, 68, 40, 41]

/-- `push_get_last_insert_id_cmd`. The command takes the text as it is. -/
def pushGetLastInsertIdCmd (getLastInsertIdFunc : Option γ) : Option (MysqlConnectorPool γ ρ) :=
  p.pushWriteCmd lastInsertIdSql
    ⟨lastInsertIdSql, BitVec.ofNat 16 lastInsertIdSql.length, getLastInsertIdFunc, false⟩

end MysqlDBManager

/-- What happens in the pool: the main thread pushes a statement or runs; the thread of a connector pops a
command or executes it. -/
inductive PoolEvent (γ ρ : Type) where
  | pushRead (sql : List Byte) (getResultFunc : Option γ)
  | pushWrite (sql : List Byte)
  | pushGetLastInsertId (getLastInsertIdFunc : Option γ)
  | pop (side : PoolSide) (i : ℕ)
  | execute (side : PoolSide) (i : ℕ) (out : QueryResult ρ)
  | run

namespace MysqlConnectorPool

variable {γ ρ : Type}

/-- The thread function of a side. -/
def threadFunc : PoolSide → ConnectorInfo γ ρ → CmdInfo γ → QueryResult ρ → ConnectorInfo γ ρ
  | .read => ConnectorInfo.connectorRead
  | .write => ConnectorInfo.connectorWrite

def step (p : MysqlConnectorPool γ ρ) : PoolEvent γ ρ → Option (MysqlConnectorPool γ ρ)
  | .pushRead sql getResultFunc => MysqlDBManager.pushReadCmd p sql getResultFunc
  | .pushWrite sql => MysqlDBManager.pushWriteCmd p sql
  | .pushGetLastInsertId getLastInsertIdFunc => MysqlDBManager.pushGetLastInsertIdCmd p getLastInsertIdFunc
  | .pop side i => if i < p.size side then
      (p.conns side i).pop.map fun c => p.modify side i fun _ => c else none
  | .execute side i out => if i < p.size side then
      (p.conns side i).ci.map fun info => p.modify side i fun c => threadFunc side c info out else none
  | .run => some p.run

end MysqlConnectorPool

def poolMachine (γ ρ : Type) : Machine (MysqlConnectorPool γ ρ) (PoolEvent γ ρ) :=
  ⟨MysqlConnectorPool.step⟩

end JmyGame
