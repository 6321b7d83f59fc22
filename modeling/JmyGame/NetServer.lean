import JmyGame.NetConnectionSteps

/-! `JmyTcpServer`: connection objects and their buffers come from pools, are handed out by
`accept_new` and given back by `run_conns`. An object is named by its place in the pool, a buffer by
its place in `conn_buff_vec_`; the id of an object changes with every use. -/

namespace JmyGame

open CArith

/-- `JmyIdGenerator<int>`. -/
structure JmyIdGenerator where
  currId : ℤ
  minId : ℤ
  maxId : ℤ
  freeList : List ℤ
  usedSet : List ℤ
  deriving DecidableEq, Repr

namespace JmyIdGenerator

/-- The generator with the default template arguments. -/
def new : JmyIdGenerator := ⟨0, 1, 0, [], []⟩

/-- The next value of `curr_id_`; undefined where the increment overflows an `int`. -/
def next (g : JmyIdGenerator) : Option ℤ :=
  if 0 < g.maxId ∧ g.maxId ≤ g.currId then some g.minId
  else if g.currId = 2 ^ 31 - 1 then none
  else some (if g.currId + 1 ≤ 0 then g.minId else g.currId + 1)

/-- `get`, with 0 for no id. -/
def get (g : JmyIdGenerator) : Option (ℤ × JmyIdGenerator) :=
  match g.freeList with
  | id :: rest => some (id, { g with freeList := rest, usedSet := id :: g.usedSet })
  | [] => g.next.map fun id => (if id ∈ g.usedSet then 0 else id, { g with currId := id })

end JmyIdGenerator

inductive JmyConnectionBufferState where
  | idle
  | using
  | suspend
  deriving DecidableEq, Repr

/-- An entry of `conn_buff_vec_`. -/
structure BufferSlot where
  id : ℤ
  state : JmyConnectionBufferState
  buffer : JmyConnectionBuffer

/-- `JmyConnectionBufferMgr`; `freeQueue` holds places in `conn_buff_vec_`. -/
structure JmyConnectionBufferMgr where
  maxSize : ℤ
  connBuffVec : ℕ → BufferSlot
  freeQueue : List ℕ

namespace JmyConnectionBufferMgr

/-- A buffer as it is constructed. -/
def fresh : JmyConnectionBuffer := ⟨.empty, .init 0 0, .init 0 0, false⟩

def init (maxSize : ℕ) : JmyConnectionBufferMgr :=
  ⟨maxSize, fun i => ⟨i + 1, .idle, fresh⟩, List.range maxSize⟩

def setBuffer (m : JmyConnectionBufferMgr) (b : ℕ) (buffer : JmyConnectionBuffer) :
    JmyConnectionBufferMgr :=
  { m with connBuffVec := Function.update m.connBuffVec b { m.connBuffVec b with buffer := buffer } }

def getOneBuffer (m : JmyConnectionBufferMgr) : Option (ℕ × JmyConnectionBufferMgr) :=
  match m.freeQueue with
  | [] => none
  | b :: rest => some (b, { m with
      connBuffVec := Function.update m.connBuffVec b { m.connBuffVec b with state := .using }
      freeQueue := rest })

/-- `freeBuffer`, which leaves the state of the buffer as it is. -/
def freeBuffer (m : JmyConnectionBufferMgr) (id : ℤ) : Bool × JmyConnectionBufferMgr :=
  if id < 1 ∨ m.maxSize < id then (false, m)
  else if (m.connBuffVec (id - 1).toNat).state = .idle then (false, m)
  else (true, { m with freeQueue := (id - 1).toNat :: m.freeQueue })

end JmyConnectionBufferMgr

/-- `JmyConnectionBuffer::init`. The lists keep what they hold; the pair of blocks becomes one with a
block of the pool. -/
def JmyConnectionBuffer.init (b : JmyConnectionBuffer) (useSendBuffList : Bool)
    (block : JmyDoubleSessionBuffer) : JmyConnectionBuffer :=
  if useSendBuffList then
    { b with
      useSendList := true
      sendBuffList := { b.sendBuffList with maxBytes := 0, maxCount := 0 } }
  else { b with useSendList := false, sendBuff := block }

/-- `JmyTcpServer` with its connection manager. `bufId` is the buffer that an object points to, and
`data` the unpack data of the data handler, which all connections share. -/
structure JmyTcpServer where
  maxConn : ℕ
  useSendBuffList : Bool
  idGene : JmyIdGenerator
  usedMap : ℤ → Option ℕ
  freeList : List ℕ
  objs : ℕ → JmyTcpConnection
  bufId : ℕ → Option ℕ
  bufferMgr : JmyConnectionBufferMgr
  conns : List ℕ
  accepting : Bool
  data : JmyPacketUnpackData2

namespace JmyTcpServer

/-- The server behind `loadConfig` and `start`. -/
def start (maxConn : ℕ) (useSendBuffList : Bool) : JmyTcpServer where
  maxConn := maxConn
  useSendBuffList := useSendBuffList
  idGene := .new
  usedMap := fun _ => none
  freeList := List.range maxConn
  objs := fun _ => ⟨0, .passive, .notUse, false, 0, 0, false, false, JmyConnectionBufferMgr.fresh,
    false, [], []⟩
  bufId := fun _ => none
  bufferMgr := .init (2 * maxConn)
  conns := []
  accepting := true
  data := .init

variable (s : JmyTcpServer)

/-- An object together with the buffer it points to. -/
def view (p : ℕ) : JmyTcpConnection :=
  match s.bufId p with
  | none => { s.objs p with hasBuffer := false }
  | some b => { s.objs p with hasBuffer := true, buffer := (s.bufferMgr.connBuffVec b).buffer }

/-- A method called on an object, which may change the buffer it points to. -/
def modify (p : ℕ) (f : JmyTcpConnection → JmyTcpConnection) : JmyTcpServer :=
  { s with
    objs := Function.update s.objs p (f (s.view p))
    bufferMgr := match s.bufId p with
      | none => s.bufferMgr
      | some b => s.bufferMgr.setBuffer b (f (s.view p)).buffer }

/-- `JmyTcpConnectionMgr::getFree`: nothing for a null pointer. -/
def getFree (id : ℤ) : Option (ℕ × JmyTcpServer) :=
  if (s.usedMap id).isSome then none
  else match s.freeList with
  | [] => none
  | p :: rest => some (p, { s with
      objs := Function.update s.objs p { s.objs p with id := id }
      freeList := rest
      usedMap := Function.update s.usedMap id (some p) })

/-- `JmyTcpConnectionMgr::free` and `reset`. -/
def free (p : ℕ) : Bool × JmyTcpServer :=
  if (s.usedMap (s.objs p).id).isNone then (false, s)
  else (true, { s with
    usedMap := Function.update s.usedMap (s.objs p).id none
    freeList := p :: s.freeList
    objs := Function.update s.objs p { s.objs p with state := .notConnect } })

/-- A call on a connection that is looked up by its id. -/
def call (id : ℤ) (k : ConnCall) : Option JmyTcpServer :=
  match s.usedMap id with
  | none => some s
  | some p => ((s.view p).call k).map fun c => s.modify p fun _ => c

def calls (ks : List (ℤ × ConnCall)) : Option JmyTcpServer :=
  ks.foldlM (fun s k => s.call k.1 k.2) s

/-- The socket, the data handler and the event handler that `accept_new` gives to an object. -/
def setSock (p : ℕ) : JmyTcpServer :=
  { s with objs := Function.update s.objs p { s.objs p with sockOpen := true, hasHandler := true } }

/-- The buffer that `accept_new` gives to an object. `block` is what the pool gives for sending. -/
def setBuffer (p b : ℕ) (block : JmyDoubleSessionBuffer) : JmyTcpServer :=
  { s with
    bufferMgr := s.bufferMgr.setBuffer b
      ((s.bufferMgr.connBuffVec b).buffer.init s.useSendBuffList block)
    bufId := Function.update s.bufId p (some b) }

/-- `accept_new`: the id of the new connection or -1. `onConnect` are the calls of the connect
handler. -/
def acceptNew (block : JmyDoubleSessionBuffer) (onConnect : List (ℤ × ConnCall)) :
    Option (ℤ × JmyTcpServer) :=
  s.idGene.get.bind fun (id, g) =>
    if id = 0 then some (-1, { s with idGene := g })
    else (getFree { s with idGene := g } id).bind fun (p, s₁) =>
      match (s₁.setSock p).bufferMgr.getOneBuffer with
      | none => some (-1, s₁.setSock p)
      | some (b, m) =>
        let s₂ := ({ s₁.setSock p with bufferMgr := m }.setBuffer p b block).modify p
          JmyTcpConnection.startRecv
        (calls { s₂ with conns := s₂.conns ++ [p] } onConnect).map fun s₃ => (id, s₃)

/-- The completion handler of `async_accept`. A negative id ends the accepting. -/
def onAccept (block : JmyDoubleSessionBuffer) (onConnect : List (ℤ × ConnCall)) :
    Option JmyTcpServer :=
  if s.maxConn ≤ s.conns.length then some s
  else (s.acceptNew block onConnect).map fun r =>
    if r.1 < 0 then { r.2 with accepting := false } else r.2

/-- What `run_conns` does with a connection that is disconnected. -/
def release (p : ℕ) : Option JmyTcpServer :=
  (s.bufId p).map fun b =>
    let s₁ := (s.free p).2
    let m := s₁.bufferMgr.setBuffer b (s₁.bufferMgr.connBuffVec b).buffer.clear
    { s₁ with
      bufferMgr := (m.freeBuffer (m.connBuffVec b).id).2
      conns := s₁.conns.erase p }

end JmyTcpServer

/-- The handlers of a program that works on the connections of one server: what they answer and the
calls they make on connections. -/
structure ServerHandlers where
  msgHandlerMap : BitVec 32 → Option (JmyMsgInfo → JmyTcpServer → ℤ × List (ℤ × ConnCall))
  defaultMsgHandler : Option (JmyMsgInfo → JmyTcpServer → ℤ × List (ℤ × ConnCall))
  tickHandler : Option (ℤ → JmyTcpServer → List (ℤ × ConnCall))

namespace ServerHandlers

def msgHandler (f : JmyMsgInfo → JmyTcpServer → ℤ × List (ℤ × ConnCall)) :
    JmyMsgHandler JmyTcpServer := fun info s =>
  (s.calls (f info s).2).map fun s' => ((f info s).1, s')

def dataHandler (h : ServerHandlers) : JmyDataHandler2 JmyTcpServer :=
  ⟨fun id => (h.msgHandlerMap id).map msgHandler, h.defaultMsgHandler.map msgHandler⟩

def tick (h : ServerHandlers) (p : ℕ) (s : JmyTcpServer) : Option JmyTcpServer :=
  match h.tickHandler with
  | none => some s
  | some f =>
    let s₁ := s.modify p (JmyTcpConnection.observe · (.tick (s.objs p).id))
    s₁.calls (f (s.objs p).id s₁)

end ServerHandlers

/-- What happens to a server. -/
inductive ServerEvent where
  | accept (block : JmyDoubleSessionBuffer) (onConnect : List (ℤ × ConnCall))
  | acceptError (again : Bool)
  | complete (p i : ℕ) (result : Completion)
  | call (id : ℤ) (k : ConnCall)
  | runConns (handlers : ServerHandlers) (now : ℤ) (past : ℕ → Byte)

namespace JmyTcpServer

/-- One turn of the loop of `run_conns`. -/
def runOne (h : ServerHandlers) (now : ℤ) (past : ℕ → Byte) (s : JmyTcpServer) (p : ℕ) :
    Option JmyTcpServer :=
  if (s.view p).state = .disconnected then s.release p
  else (runConn (view · p) (fun f s => modify s p f) h.dataHandler past now (h.tick p) s.data s).map
    fun r => { r.2.2 with data := r.2.1 }

/-- `run_conns`. No handler changes `conns_` during the loop. -/
def runConns (s : JmyTcpServer) (h : ServerHandlers) (now : ℤ) (past : ℕ → Byte) :
    Option JmyTcpServer := s.conns.foldlM (runOne h now past) s

/-- The handler of the `i`-th pending operation of an object runs, whoever uses the object now. -/
def complete (s : JmyTcpServer) (p i : ℕ) (r : Completion) : Option JmyTcpServer :=
  ((s.view p).complete i r).map fun c => s.modify p fun _ => c

def step (s : JmyTcpServer) : ServerEvent → Option JmyTcpServer
  | .accept block onConnect => if s.accepting then s.onAccept block onConnect else none
  | .acceptError again => if s.accepting then some { s with accepting := again } else none
  | .complete p i r => s.complete p i r
  | .call id k => s.call id k
  | .runConns h now past => s.runConns h now past

end JmyTcpServer

def serverMachine : Machine JmyTcpServer ServerEvent := ⟨JmyTcpServer.step⟩

end JmyGame
