import JmyGame.GateLogins
import JmyGame.LoginOrigins

/-! The login server and its gates together. A client logs in, selects a gate and gets from it, through the login
server, the session code that it enters the game with. A gate connects to the login server as often as it likes; a
link delivers in order what its two ends send, until one of them sees that the other is gone. -/

namespace JmyGame

open CArith

/-- A connection of a gate to the login server: the gate and its id for the connection, whether the end of the gate
is connected, how many of the messages of the login server the gate has handled, and what is on its way to the login
server. -/
structure LoginLink (ι : Type) where
  gate : ι
  connId : ℤ
  up : Bool
  taken : ℕ
  toLogin : List Packet

/-- The gates are known by names; a link is known by the id that the login server has for the connection. -/
structure LoginCluster (ι : Type) where
  login : LoginServer
  gates : ι → GateProcess
  links : ℤ → Option (LoginLink ι)

/-- What happens: something at the login server or at a gate, a gate connects or sees that its connection is gone, a
message of the login server is handled at the gate with the time and the session code that its handler gets, and a
message of a gate is handled at the login server. -/
inductive LoginClusterEvent (ι : Type) where
  | login (e : LoginEvent)
  | gate (i : ι) (e : GateEvent)
  | link (i : ι) (connId : ℤ)
  | lose (link : ℤ)
  | notify (link time : ℤ) (session : Str)
  | answer (link : ℤ)

/-- The messages of the login server on a connection of a gate, as the trace has them. -/
def sentToGate (trace : List LoginObs) (link : ℤ) : List Packet :=
  trace.filterMap fun o => match o with
    | .toGate connId msgId data => if connId = link then some ⟨none, msgId, data⟩ else none
    | _ => none

namespace LoginCluster

variable {ι : Type} [DecidableEq ι]

def start (serverId maxConn : ℤ) (config : ι → MsgConnectLoginRequest) (maxClients : ι → ℕ) : LoginCluster ι :=
  ⟨.start serverId maxConn, fun i => .start (config i) (maxClients i), fun _ => none⟩

variable (P : LoginProtocol) (Q : Protocol) (c : LoginCluster ι)

def setGate (i : ι) (g : GateProcess) : LoginCluster ι := { c with gates := Function.update c.gates i g }

def setLink (link : ℤ) (l : LoginLink ι) : LoginCluster ι :=
  { c with links := Function.update c.links link (some l) }

/-- The gate at the other end of a link. -/
def gateOf (link : ℤ) : Option ι := (c.links link).map (·.gate)

/-- A gate connects to the login server. -/
def connect (i : ι) (connId : ℤ) : LoginCluster ι :=
  { c with login := c.login.acceptGate }.setLink (c.login.gateConns.last + 1)
    ⟨i, connId, true, 0, (ConnLoginHandler.onConnect P (c.gates i)).toList⟩

/-- The end of the gate is closed. -/
def close (link : ℤ) (l : LoginLink ι) : LoginCluster ι :=
  (c.setGate l.gate (ConnLoginHandler.onDisconnect (c.gates l.gate) l.connId)).setLink link { l with up := false }

/-- The gate has handled the next message of the login server. `run` closes the connection after a handler with a
negative result. -/
def handled (link : ℤ) (l : LoginLink ι) (r : ConnLoginHandler.Result) : LoginCluster ι :=
  let l' := { l with taken := l.taken + 1, toLogin := l.toLogin ++ r.2.2.toList }
  let c' := (c.setGate l.gate r.2.1).setLink link l'
  if r.1 < 0 then c'.close link l' else c'

def step : LoginClusterEvent ι → Option (LoginCluster ι)
  | .login .gateConnect => none
  | .login (.gate _ _ _) => none
  | .login e => (c.login.step P e).map fun s => { c with login := s }
  | .gate _ (.session _ _ _) => none
  | .gate i e => ((c.gates i).gate.step Q e).map fun g => c.setGate i { c.gates i with gate := g }
  | .link i connId => some (c.connect P i connId)
  | .lose link =>
    match c.links link with
    | none => none
    | some l => if l.up then some (c.close link l) else none
  | .notify link time session =>
    match c.links link with
    | none => none
    | some l =>
      if l.up = false then none
      else match (sentToGate c.login.trace link)[l.taken]? with
      | none => none
      | some packet => some (c.handled link l (ConnLoginHandler.handle P time session l.up (c.gates l.gate)
          ⟨0, packet.msgId, packet.data, packet.data.length, l.connId⟩))
  | .answer link =>
    match c.links link with
    | none => none
    | some l =>
      match l.toLogin with
      | [] => none
      | packet :: rest => (c.login.step P (.gate link packet.msgId packet.data)).map fun s =>
          { c with login := s }.setLink link { l with toLogin := rest }

end LoginCluster

def loginClusterMachine {ι : Type} [DecidableEq ι] (P : LoginProtocol) (Q : Protocol) :
    Machine (LoginCluster ι) (LoginClusterEvent ι) := ⟨LoginCluster.step P Q⟩

section history

variable {ι : Type} (P : LoginProtocol) (Q : Protocol)

/-- A client sent a login request for the account on the connection. -/
def Asked (es : List (LoginClusterEvent ι)) (connId : ℤ) (account : Str) : Prop :=
  ∃ data request, LoginClusterEvent.login (.client connId MsgId.c2sLoginRequest data) ∈ es ∧
    P.loginRequest.parse data = some request ∧ request.account = account

/-- A client selected the gate on a connection that it had asked to log in on with the account. -/
def Selected (es : List (LoginClusterEvent ι)) (account : Str) (gateId : ℤ) : Prop :=
  ∃ es₁ connId data es₂, es = es₁ ++ .login (.client connId MsgId.c2sSelectServerRequest data) :: es₂ ∧
    P.selectServerRequest.parse data = some gateId ∧ Asked P es₁ connId account

variable [DecidableEq ι] (c₀ : LoginCluster ι)

/-- The message that the gate handles next on the link says that a client with the account has selected it. -/
def LoginCluster.TellsOf (c : LoginCluster ι) (link : ℤ) (account : Str) : Prop :=
  ∃ l packet, c.links link = some l ∧ (sentToGate c.login.trace link)[l.taken]? = some packet ∧
    packet.msgId = MsgId.ls2gtSelectedServerNotify ∧ P.selectedServerNotify.parse packet.data = some account

/-- The gate made the session for the account at the time: the message that it handled then is about this account, the
session is stored under the account behind it, and a client with the account had selected the gate before. -/
def GrantedBy (es : List (LoginClusterEvent ι)) (i : ι) (account session : Str) (time : ℤ) : Prop :=
  ∃ es₁ link es₂ c c', es = es₁ ++ .notify link time session :: es₂ ∧
    (loginClusterMachine P Q).run c₀ es₁ = some c ∧ c.step P Q (.notify link time session) = some c' ∧
    c.gateOf link = some i ∧ c.TellsOf P link account ∧
    (c'.gates i).gate.mgr.accountSessionMap account = some ⟨session, time⟩ ∧
    Selected P es₁ account (c₀.gates i).config.gateServerId

/-- A client of the gate presented a session of the account, which the gate had granted to it not long before, in the
request that the packet forwards. -/
def Entered (es : List (LoginClusterEvent ι)) (i : ι) (packet : Packet) : Prop :=
  ∃ es₁ time code connId data es₂ request granted,
    es = es₁ ++ .gate i (.client time code connId MsgId.c2sGetRoleRequest data) :: es₂ ∧
    packet.data = short data ∧ Q.c2sGetRoleRequest.parse data = some request ∧
    GrantedBy P Q c₀ es₁ i request.account request.enterSession granted ∧ time - granted ≤ 100

variable {P Q c₀} {es : List (LoginClusterEvent ι)} {account session : Str} {i : ι}

omit [DecidableEq ι] in
theorem Asked.append {connId : ℤ} (h : Asked P es connId account) (fs : List (LoginClusterEvent ι)) :
    Asked P (es ++ fs) connId account := by
  obtain ⟨data, request, hmem, hparse⟩ := h
  exact ⟨data, request, List.mem_append_left fs hmem, hparse⟩

omit [DecidableEq ι] in
theorem Selected.append {gateId : ℤ} (h : Selected P es account gateId) (fs : List (LoginClusterEvent ι)) :
    Selected P (es ++ fs) account gateId := by
  obtain ⟨es₁, connId, data, es₂, rfl, hrest⟩ := h
  exact ⟨es₁, connId, data, es₂ ++ fs, by rw [List.append_assoc, List.cons_append], hrest⟩

theorem GrantedBy.append {time : ℤ} (h : GrantedBy P Q c₀ es i account session time)
    (fs : List (LoginClusterEvent ι)) : GrantedBy P Q c₀ (es ++ fs) i account session time := by
  obtain ⟨es₁, link, es₂, c, c', rfl, hrest⟩ := h
  exact ⟨es₁, link, es₂ ++ fs, c, c', by rw [List.append_assoc, List.cons_append], hrest⟩

theorem Entered.append {packet : Packet} (h : Entered P Q c₀ es i packet) (fs : List (LoginClusterEvent ι)) :
    Entered P Q c₀ (es ++ fs) i packet := by
  obtain ⟨es₁, time, code, connId, data, es₂, request, granted, rfl, hrest⟩ := h
  exact ⟨es₁, time, code, connId, data, es₂ ++ fs, request, granted,
    by rw [List.append_assoc, List.cons_append], hrest⟩

end history

/-- What the messages between the gates and the login server say is what was put in them. -/
structure LoginProtocol.Faithful {ι : Type} (P : LoginProtocol) (config : ι → MsgConnectLoginRequest) : Prop where
  connect : ∀ i tmp request, P.connectLoginRequest.serializeToArray maxMsgSize (config i) = some tmp →
    P.connectLoginRequest.parse tmp = some request → request.gateServerId = (config i).gateServerId
  notify : ∀ account tmp account', P.selectedServerNotify.serializeToArray maxMsgSize account = some tmp →
    P.selectedServerNotify.parse tmp = some account' → account' = account
  response : ∀ res tmp res', P.selectedServerResponse.serializeToArray maxMsgSize res = some tmp →
    P.selectedServerResponse.parse tmp = some res' → res' = res

section invariant

variable {ι : Type} [DecidableEq ι] (P : LoginProtocol) (Q : Protocol) (c₀ : LoginCluster ι)

/-- The message of a link carries a session code of an account whose connection it is for. -/
def Handed (es : List (LoginClusterEvent ι)) (connId : ℤ) (data : List Byte) : Prop :=
  ∃ account session ip port i time,
    P.selectServerResponse.serializeToArray maxMsgSize ⟨session, ip, port⟩ = some data ∧
    Asked P es connId account ∧ GrantedBy P Q c₀ es i account session time

/-- What a gate sends to the login server: its connect request, and the sessions that it has granted. -/
def SentByGate (es : List (LoginClusterEvent ι)) (i : ι) (packet : Packet) : Prop :=
  packet.msgId = MsgId.gt2lsConnectLoginRequest ∧
      P.connectLoginRequest.serializeToArray maxMsgSize (c₀.gates i).config = some packet.data ∨
    packet.msgId = MsgId.gt2lsSelectedServerResponse ∧ ∃ account session time,
      P.selectedServerResponse.serializeToArray maxMsgSize ⟨account, session⟩ = some packet.data ∧
      GrantedBy P Q c₀ es i account session time

/-- Everything that the login server and the gates have of accounts and sessions has its origin in the history. -/
structure Traced (es : List (LoginClusterEvent ι)) (c : LoginCluster ι) : Prop where
  config : ∀ i, (c.gates i).config = (c₀.gates i).config
  fresh : ∀ link, c.login.gateConns.last < link → c.gateOf link = none
  agents : ∀ account connId, c.login.clients.connOf account = some connId → Asked P es connId account
  keys : ∀ connId account, c.login.clients.getKeyByConnId connId = some account → Asked P es connId account
  gates : ∀ gateId link, c.login.gates.connOf gateId = some link →
    ∃ i, c.gateOf link = some i ∧ (c₀.gates i).config.gateServerId = gateId
  notified : ∀ link data, .toGate link MsgId.ls2gtSelectedServerNotify data ∈ c.login.trace →
    ∃ i account, c.gateOf link = some i ∧
      P.selectedServerNotify.serializeToArray maxMsgSize account = some data ∧
      Selected P es account (c₀.gates i).config.gateServerId
  handed : ∀ connId data, .toClient connId MsgId.s2cSelectServerResponse data ∈ c.login.trace →
    Handed P Q c₀ es connId data
  packets : ∀ link l, c.links link = some l → ∀ packet ∈ l.toLogin, SentByGate P Q c₀ es l.gate packet
  sessions : ∀ i account si, (c.gates i).gate.mgr.accountSessionMap account = some si →
    GrantedBy P Q c₀ es i account si.session si.getSessionTime
  entered : ∀ i, ∀ packet ∈ (c.gates i).gate.toGame, packet.userId = none →
    packet.msgId = MsgId.gt2gsGetRoleRequest → Entered P Q c₀ es i packet

variable {P Q c₀} {es : List (LoginClusterEvent ι)} {c : LoginCluster ι}

theorem Handed.append {connId : ℤ} {data : List Byte} (h : Handed P Q c₀ es connId data)
    (fs : List (LoginClusterEvent ι)) : Handed P Q c₀ (es ++ fs) connId data := by
  obtain ⟨account, session, ip, port, i, time, hdata, hasked, hgranted⟩ := h
  exact ⟨account, session, ip, port, i, time, hdata, hasked.append fs, hgranted.append fs⟩

theorem SentByGate.append {i : ι} {packet : Packet} (h : SentByGate P Q c₀ es i packet)
    (fs : List (LoginClusterEvent ι)) : SentByGate P Q c₀ (es ++ fs) i packet := by
  refine h.imp id ?_
  rintro ⟨hmsg, account, session, time, hdata, hgranted⟩
  exact ⟨hmsg, account, session, time, hdata, hgranted.append fs⟩

/-- A longer history tells as much. -/
theorem Traced.append (h : Traced P Q c₀ es c) (fs : List (LoginClusterEvent ι)) : Traced P Q c₀ (es ++ fs) c where
  config := h.config
  fresh := h.fresh
  agents account connId hconn := (h.agents account connId hconn).append fs
  keys connId account hkey := (h.keys connId account hkey).append fs
  gates := h.gates
  notified link data hmem := by
    obtain ⟨i, account, hgate, hdata, hselected⟩ := h.notified link data hmem
    exact ⟨i, account, hgate, hdata, hselected.append fs⟩
  handed connId data hmem := (h.handed connId data hmem).append fs
  packets link l hl packet hmem := (h.packets link l hl packet hmem).append fs
  sessions i account si hsi := (h.sessions i account si hsi).append fs
  entered i packet hmem hnone hmsg := (h.entered i packet hmem hnone hmsg).append fs

theorem traced_start (serverId maxConn : ℤ) (config : ι → MsgConnectLoginRequest) (maxClients : ι → ℕ) :
    Traced P Q (.start serverId maxConn config maxClients) [] (.start serverId maxConn config maxClients) where
  config _ := rfl
  fresh _ _ := rfl
  agents account connId hconn := by cases hconn
  keys connId account hkey := by cases hkey
  gates gateId link hconn := by
    have hnone : ∀ gateId, (LoginServer.start serverId maxConn).gates.connOf gateId = none := by
      intro gateId
      unfold AgentManagerPerf.connOf AgentManagerPerf.getAgent
      split_ifs <;> rfl
    change (LoginServer.start serverId maxConn).gates.connOf gateId = some link at hconn
    rw [hnone] at hconn
    cases hconn
  notified link data hmem := absurd hmem List.not_mem_nil
  handed connId data hmem := absurd hmem List.not_mem_nil
  packets link l hl := by cases hl
  sessions i account si hsi := by cases hsi
  entered i packet hmem := absurd hmem List.not_mem_nil

/-- What is sent has its origin in the history. -/
def Explained (P : LoginProtocol) (Q : Protocol) (c₀ : LoginCluster ι) (es : List (LoginClusterEvent ι))
    (c : LoginCluster ι) (o : LoginObs) : Prop :=
  (∀ link data, o = .toGate link MsgId.ls2gtSelectedServerNotify data → ∃ i account, c.gateOf link = some i ∧
    P.selectedServerNotify.serializeToArray maxMsgSize account = some data ∧
    Selected P es account (c₀.gates i).config.gateServerId) ∧
  ∀ connId data, o = .toClient connId MsgId.s2cSelectServerResponse data → Handed P Q c₀ es connId data

theorem Traced.loginGains {login : ℤ → Str → Prop} {gate : ℤ → ℤ → Prop} {sends : LoginObs → Prop} {s : LoginServer}
    (h : Traced P Q c₀ es c) (hgains : LoginGains login gate sends c.login s)
    (hlogin : ∀ connId account, login connId account → Asked P es connId account)
    (hgate : ∀ link gateId, gate link gateId →
      ∃ i, c.gateOf link = some i ∧ (c₀.gates i).config.gateServerId = gateId)
    (hsends : ∀ o, sends o → Explained P Q c₀ es c o) : Traced P Q c₀ es { c with login := s } where
  config := h.config
  fresh link hlink := h.fresh link (lt_of_le_of_lt hgains.lastGate hlink)
  agents account connId hconn := by
    exact (hgains.agents account connId hconn).elim (h.agents account connId) (hlogin connId account)
  keys connId account hkey := by
    exact (hgains.keys connId account hkey).elim (h.keys connId account) (hlogin connId account)
  gates gateId link hconn := by
    exact (hgains.gates gateId link hconn).elim (h.gates gateId link) (hgate link gateId)
  notified link data hmem := by
    obtain ⟨new, hnew, hall⟩ := hgains.trace
    rcases List.mem_append.1 (hnew ▸ hmem) with hmem | hmem
    · exact h.notified link data hmem
    · exact (hsends _ (hall _ hmem)).1 link data rfl
  handed connId data hmem := by
    obtain ⟨new, hnew, hall⟩ := hgains.trace
    rcases List.mem_append.1 (hnew ▸ hmem) with hmem | hmem
    · exact h.handed connId data hmem
    · exact (hsends _ (hall _ hmem)).2 connId data rfl
  packets := h.packets
  sessions := h.sessions
  entered := h.entered

theorem Traced.setGate {i : ι} {g : GateProcess} (h : Traced P Q c₀ es c)
    (hconfig : g.config = (c.gates i).config)
    (hsessions : ∀ account si, g.gate.mgr.accountSessionMap account = some si →
      GrantedBy P Q c₀ es i account si.session si.getSessionTime)
    (hentered : ∀ packet ∈ g.gate.toGame, packet.userId = none → packet.msgId = MsgId.gt2gsGetRoleRequest →
      Entered P Q c₀ es i packet) : Traced P Q c₀ es (c.setGate i g) where
  config j := by
    change (Function.update c.gates i g j).config = _
    by_cases hj : j = i
    · rw [hj, Function.update_self, hconfig, h.config]
    · rw [Function.update_of_ne hj, h.config]
  fresh := h.fresh
  agents := h.agents
  keys := h.keys
  gates := h.gates
  notified := h.notified
  handed := h.handed
  packets := h.packets
  sessions j account si hsi := by
    change (Function.update c.gates i g j).gate.mgr.accountSessionMap account = some si at hsi
    by_cases hj : j = i
    · rw [hj, Function.update_self] at hsi
      exact hj ▸ hsessions account si hsi
    · rw [Function.update_of_ne hj] at hsi
      exact h.sessions j account si hsi
  entered j packet hmem := by
    change packet ∈ (Function.update c.gates i g j).gate.toGame at hmem
    by_cases hj : j = i
    · rw [hj, Function.update_self] at hmem
      exact hj ▸ hentered packet hmem
    · rw [Function.update_of_ne hj] at hmem
      exact h.entered j packet hmem

omit [DecidableEq ι] in
/-- A link keeps its gate. -/
theorem gateOf_setLink {link link' : ℤ} {l : LoginLink ι} {i : ι} (hgate : ∀ i, c.gateOf link = some i → l.gate = i)
    (h : c.gateOf link' = some i) : (c.setLink link l).gateOf link' = some i := by
  change (Function.update c.links link (some l) link').map _ = some i
  by_cases hlink : link' = link
  · subst hlink
    rw [Function.update_self, Option.map_some, hgate i h]
  · rw [Function.update_of_ne hlink]
    exact h

theorem Traced.setLink {link : ℤ} {l : LoginLink ι} (h : Traced P Q c₀ es c)
    (hlast : link ≤ c.login.gateConns.last) (hgate : ∀ i, c.gateOf link = some i → l.gate = i)
    (hpackets : ∀ packet ∈ l.toLogin, SentByGate P Q c₀ es l.gate packet) :
    Traced P Q c₀ es (c.setLink link l) where
  config := h.config
  fresh link' hlink' := by
    have hne : link' ≠ link := (lt_of_le_of_lt hlast hlink').ne'
    change (Function.update c.links link (some l) link').map _ = none
    rw [Function.update_of_ne hne]
    exact h.fresh link' hlink'
  agents := h.agents
  keys := h.keys
  gates gateId link' hconn := by
    obtain ⟨i, hi, hid⟩ := h.gates gateId link' hconn
    exact ⟨i, gateOf_setLink hgate hi, hid⟩
  notified link' data hmem := by
    obtain ⟨i, account, hi, hdata⟩ := h.notified link' data hmem
    exact ⟨i, account, gateOf_setLink hgate hi, hdata⟩
  handed := h.handed
  packets link' l' hl' := by
    change Function.update c.links link (some l) link' = some l' at hl'
    by_cases hlink : link' = link
    · rw [hlink, Function.update_self] at hl'
      obtain rfl := Option.some.inj hl'
      exact hpackets
    · rw [Function.update_of_ne hlink] at hl'
      exact h.packets link' l' hl'
  sessions := h.sessions
  entered := h.entered

/-- A link that is there has an id that the login server has given out. -/
theorem Traced.le_last {link : ℤ} {l : LoginLink ι} (h : Traced P Q c₀ es c) (hl : c.links link = some l) :
    link ≤ c.login.gateConns.last := by
  by_contra hlt
  have hnone := h.fresh link (not_le.1 hlt)
  rw [LoginCluster.gateOf, hl] at hnone
  cases hnone

/-- A link that is there is set to one with the same gate. -/
theorem Traced.updateLink {link : ℤ} {l : LoginLink ι} (h : Traced P Q c₀ es c) (hl : c.links link = some l)
    (l' : LoginLink ι) (hgate : l'.gate = l.gate)
    (hpackets : ∀ packet ∈ l'.toLogin, SentByGate P Q c₀ es l.gate packet) :
    Traced P Q c₀ es (c.setLink link l') := by
  refine h.setLink (h.le_last hl) (fun i hi => ?_) (by rwa [hgate])
  rw [LoginCluster.gateOf, hl, Option.map_some, Option.some.injEq] at hi
  rw [hgate, hi]

theorem Traced.close {link : ℤ} {l : LoginLink ι} (h : Traced P Q c₀ es c) (hl : c.links link = some l) :
    Traced P Q c₀ es (c.close link l) := by
  obtain ⟨hconfig, hgate⟩ := ConnLoginHandler.onDisconnect_frame (c.gates l.gate) l.connId
  have hset := h.setGate (i := l.gate) hconfig (by rw [hgate]; exact h.sessions l.gate)
    (by rw [hgate]; exact h.entered l.gate)
  exact hset.updateLink hl { l with up := false } rfl (h.packets link l hl)

/-- An event at the login server alone. -/
theorem Traced.loginStep {e : LoginEvent} {s : LoginServer} (h : Traced P Q c₀ es c)
    (hgate : ∀ link msgId data, e ≠ .gate link msgId data) (hstep : c.login.step P e = some s) :
    Traced P Q c₀ (es ++ [.login e]) { c with login := s } := by
  refine (h.append [.login e]).loginGains (LoginGains.step hstep) ?_ ?_ ?_
  · rintro connId account ⟨data, request, rfl, hparse, haccount⟩
    exact ⟨data, request, by simp, hparse, haccount⟩
  · rintro link gateId ⟨data, request, rfl, -⟩
    exact absurd rfl (hgate _ _ _)
  · rintro o (ho | ⟨link, data, rfl, hnotify⟩ | ⟨connId, data, rfl, hhand⟩)
    · exact ⟨fun link data heq => absurd heq (ho.1 link data), fun connId data heq => absurd heq (ho.2 connId data)⟩
    · refine ⟨?_, by rintro connId data' ⟨⟩⟩
      rintro _ _ ⟨⟩
      obtain ⟨client, request, gateId, account, rfl, hparse, hkey, hconn, hdata⟩ := hnotify
      obtain ⟨i, hi, hid⟩ := h.gates gateId link hconn
      refine ⟨i, account, hi, hdata, es, client, request, [], rfl, ?_, h.keys client account hkey⟩
      rw [hparse, hid]
    · obtain ⟨link, response, res, ip, port, rfl, -⟩ := hhand
      exact absurd rfl (hgate _ _ _)

/-- A message of a gate at the login server. -/
theorem Traced.answerStep {link : ℤ} {i : ι} {packet : Packet} {s : LoginServer} (h : Traced P Q c₀ es c)
    (hP : P.Faithful fun i => (c₀.gates i).config) (hi : c.gateOf link = some i)
    (hpacket : SentByGate P Q c₀ es i packet)
    (hstep : c.login.step P (.gate link packet.msgId packet.data) = some s) :
    Traced P Q c₀ (es ++ [.answer link]) { c with login := s } := by
  refine (h.append [.answer link]).loginGains (LoginGains.step hstep) ?_ ?_ ?_
  · rintro connId account ⟨data, request, heq, -⟩
    cases heq
  · rintro link' gateId ⟨data, request, heq, hparse, hid⟩
    obtain ⟨rfl, hconnect, rfl⟩ := LoginEvent.gate.inj heq
    rcases hpacket with ⟨-, htmp⟩ | ⟨hmsg, -⟩
    · exact ⟨i, hi, (hP.connect i _ _ htmp hparse).symm.trans hid⟩
    · exact absurd (hconnect.symm.trans hmsg) (by decide)
  · rintro o (ho | ⟨link', data, rfl, hnotify⟩ | ⟨connId, data, rfl, hhand⟩)
    · exact ⟨fun link data heq => absurd heq (ho.1 link data), fun connId data heq => absurd heq (ho.2 connId data)⟩
    · obtain ⟨client, request, gateId, account, heq, -⟩ := hnotify
      cases heq
    · refine ⟨(by rintro _ _ ⟨⟩), ?_⟩
      rintro _ _ ⟨⟩
      obtain ⟨link', response, res, ip, port, heq, hparse, hconn, hdata⟩ := hhand
      obtain ⟨rfl, hresponse, rfl⟩ := LoginEvent.gate.inj heq
      rcases hpacket with ⟨hmsg, -⟩ | ⟨-, account, session, time, htmp, hgranted⟩
      · exact absurd (hresponse.symm.trans hmsg) (by decide)
      · obtain rfl := hP.response _ _ _ htmp hparse
        exact ⟨account, session, ip, port, i, time, hdata, (h.agents account connId hconn).append _,
          hgranted.append _⟩

/-- An event at a gate alone. -/
theorem Traced.gateStep {i : ι} {e : GateEvent} {g : Gate} (h : Traced P Q c₀ es c) (hnot : ¬e.IsGrant)
    (hstep : (c.gates i).gate.step Q e = some g) :
    Traced P Q c₀ (es ++ [.gate i e]) (c.setGate i { c.gates i with gate := g }) := by
  have hless := Grantless.step hnot hstep
  refine (h.append [.gate i e]).setGate rfl (fun account si hsi => ?_) fun packet hmem hnone hmsg => ?_
  · exact (h.sessions i account si (hless.sessions account si hsi)).append _
  · obtain ⟨new, hnew, hadmits⟩ := hless.queue
    rcases List.mem_append.1 (hnew ▸ hmem) with hmem | hmem
    · exact (h.entered i packet hmem hnone hmsg).append _
    · obtain ⟨time, code, connId, data, request, granted, rfl, hdata, hparse, hsession, hage⟩ :=
        hadmits packet hmem hnone hmsg
      exact ⟨es, time, code, connId, data, [], request, granted, rfl, hdata, hparse,
        h.sessions i _ _ hsession, hage⟩

/-- A gate connects to the login server. -/
theorem Traced.connect {i : ι} {connId : ℤ} (h : Traced P Q c₀ es c) :
    Traced P Q c₀ es (c.connect P i connId) := by
  have haccept : LoginGains (fun _ _ => False) (fun _ _ => False) (fun _ => False) c.login c.login.acceptGate :=
    { LoginGains.refl _ with lastGate := (lt_add_one _).le }
  have hnew := h.fresh (c.login.gateConns.last + 1) (lt_add_one _)
  have hlogin := h.loginGains haccept (fun _ _ => False.elim) (fun _ _ => False.elim) fun _ => False.elim
  refine hlogin.setLink (le_refl _) (fun j hj => ?_) fun packet hmem => ?_
  · exact absurd (hnew.symm.trans hj) (Option.some_ne_none j).symm
  · obtain ⟨tmp, htmp, hsend⟩ := Option.bind_eq_some_iff.1 (Option.mem_toList.1 hmem)
    unfold ConnLoginHandler.connSend at hsend
    split_ifs at hsend
    obtain rfl := Option.some.inj hsend
    rw [h.config] at htmp
    exact Or.inl ⟨rfl, htmp⟩

/-- A link that is closed behind a handler takes nothing from what the handler left of the gate. -/
theorem gate_handled (c : LoginCluster ι) (link : ℤ) (l : LoginLink ι) (r : ConnLoginHandler.Result) :
    ((c.handled link l r).gates l.gate).gate = r.2.1.gate := by
  have hset : (c.setGate l.gate r.2.1).gates l.gate = r.2.1 := Function.update_self _ _ _
  unfold LoginCluster.handled
  dsimp only
  split_ifs
  · change (Function.update (c.setGate l.gate r.2.1).gates l.gate
      (ConnLoginHandler.onDisconnect ((c.setGate l.gate r.2.1).gates l.gate) l.connId) l.gate).gate = _
    rw [Function.update_self, (ConnLoginHandler.onDisconnect_frame _ _).2, hset]
  · exact congrArg GateProcess.gate hset

/-- A gate handles a message of the login server. -/
theorem Traced.notifyStep {link time : ℤ} {session : Str} {l : LoginLink ι} {packet : Packet}
    (h : Traced P Q c₀ es c) (hP : P.Faithful fun i => (c₀.gates i).config)
    (hrun : (loginClusterMachine P Q).run c₀ es = some c) (hl : c.links link = some l)
    (hpacket : (sentToGate c.login.trace link)[l.taken]? = some packet)
    (hstep : c.step P Q (.notify link time session) = some (c.handled link l
      (ConnLoginHandler.handle P time session l.up (c.gates l.gate)
        ⟨0, packet.msgId, packet.data, packet.data.length, l.connId⟩))) :
    Traced P Q c₀ (es ++ [.notify link time session]) (c.handled link l
      (ConnLoginHandler.handle P time session l.up (c.gates l.gate)
        ⟨0, packet.msgId, packet.data, packet.data.length, l.connId⟩)) := by
  have hgate : c.gateOf link = some l.gate := by rw [LoginCluster.gateOf, hl, Option.map_some]
  have hsent : LoginObs.toGate link packet.msgId packet.data ∈ c.login.trace := by
    obtain ⟨o, hmem, ho⟩ := List.mem_filterMap.1 (List.mem_of_getElem? hpacket)
    split at ho
    · split_ifs at ho with hlink
      obtain rfl := Option.some.inj ho
      exact hlink ▸ hmem
    · cases ho
  obtain ⟨hconfig, hcases⟩ := ConnLoginHandler.handle_cases P time session l.up (c.gates l.gate)
    ⟨0, packet.msgId, packet.data, packet.data.length, l.connId⟩
  generalize ConnLoginHandler.handle P time session l.up (c.gates l.gate)
    ⟨0, packet.msgId, packet.data, packet.data.length, l.connId⟩ = r at hconfig hcases hstep ⊢
  have hthen := h.append [.notify link time session]
  have hboth : Traced P Q c₀ (es ++ [.notify link time session]) ((c.setGate l.gate r.2.1).setLink link
      { l with taken := l.taken + 1, toLogin := l.toLogin ++ r.2.2.toList }) := by
    rcases hcases with ⟨hsame, hnone⟩ | ⟨account, hmsg, hparse, hgranted, hresponse⟩
    · have hset := hthen.setGate (i := l.gate) hconfig (by rw [hsame]; exact hthen.sessions l.gate)
        (by rw [hsame]; exact hthen.entered l.gate)
      refine hset.updateLink hl _ rfl ?_
      rw [hnone, Option.toList_none, List.append_nil]
      exact hthen.packets link l hl
    · obtain ⟨i, account', hi, hdata, hselected⟩ := h.notified link packet.data (hmsg ▸ hsent)
      obtain rfl := Option.some.inj (hi.symm.trans hgate)
      obtain rfl := hP.notify _ _ _ hdata hparse
      have hnew : GrantedBy P Q c₀ (es ++ [.notify link time session]) l.gate account session time :=
        ⟨es, link, [], c, _, rfl, hrun, hstep, hi, ⟨l, packet, hl, hpacket, hmsg, hparse⟩,
          by rw [gate_handled, hgranted]; exact Function.update_self _ _ _, hselected⟩
      have hsessions : ∀ account' si, r.2.1.gate.mgr.accountSessionMap account' = some si →
          GrantedBy P Q c₀ (es ++ [.notify link time session]) l.gate account' si.session si.getSessionTime := by
        intro account' si hsi
        rw [hgranted] at hsi
        rcases session_of_grant hsi with hsi | ⟨rfl, rfl⟩
        · exact hthen.sessions l.gate account' si hsi
        · exact hnew
      have hset := hthen.setGate hconfig hsessions (by rw [hgranted]; exact hthen.entered l.gate)
      refine hset.updateLink hl _ rfl fun packet' hmem => ?_
      rcases List.mem_append.1 hmem with hmem | hmem
      · exact hthen.packets link l hl packet' hmem
      · obtain ⟨tmp, htmp, rfl⟩ := hresponse packet' (Option.mem_toList.1 hmem)
        exact Or.inr ⟨rfl, account, session, time, htmp, hnew⟩
  unfold LoginCluster.handled
  dsimp only
  split_ifs
  · exact hboth.close (Function.update_self _ _ _)
  · exact hboth

theorem Traced.step {e : LoginClusterEvent ι} {c' : LoginCluster ι} (hP : P.Faithful fun i => (c₀.gates i).config)
    (hrun : (loginClusterMachine P Q).run c₀ es = some c) (h : Traced P Q c₀ es c)
    (hstep : c.step P Q e = some c') : Traced P Q c₀ (es ++ [e]) c' := by
  cases e with
  | login e =>
      cases e with
      | gateConnect => cases hstep
      | gate _ _ _ => cases hstep
      | _ =>
          simp only [LoginCluster.step, Option.map_eq_some_iff] at hstep
          obtain ⟨s, hs, rfl⟩ := hstep
          exact h.loginStep (by rintro _ _ _ ⟨⟩) hs
  | gate i e =>
      cases e with
      | session _ _ _ => cases hstep
      | _ =>
          simp only [LoginCluster.step, Option.map_eq_some_iff] at hstep
          obtain ⟨g, hg, rfl⟩ := hstep
          exact h.gateStep id hg
  | link i connId =>
      obtain rfl := Option.some.inj hstep
      exact (h.append _).connect
  | lose link =>
      simp only [LoginCluster.step] at hstep
      cases hl : c.links link with
      | none =>
          rw [hl] at hstep
          cases hstep
      | some l =>
          rw [hl] at hstep
          simp only [Option.ite_none_right_eq_some, Option.some.injEq] at hstep
          obtain ⟨-, rfl⟩ := hstep
          exact (h.append _).close hl
  | notify link time session =>
      have hstep' := hstep
      simp only [LoginCluster.step] at hstep
      cases hl : c.links link with
      | none =>
          rw [hl] at hstep
          cases hstep
      | some l =>
          rw [hl] at hstep
          simp only [Option.ite_none_left_eq_some] at hstep
          obtain ⟨-, hstep⟩ := hstep
          split at hstep
          · cases hstep
          · rename_i packet hpacket
            obtain rfl := Option.some.inj hstep
            exact h.notifyStep hP hrun hl hpacket hstep'
  | answer link =>
      simp only [LoginCluster.step] at hstep
      cases hl : c.links link with
      | none =>
          rw [hl] at hstep
          cases hstep
      | some l =>
          rw [hl] at hstep
          dsimp only at hstep
          split at hstep
          · cases hstep
          · rename_i packet rest hqueue
            obtain ⟨s, hs, rfl⟩ := Option.map_eq_some_iff.1 hstep
            have hpackets := h.packets link l hl
            rw [hqueue] at hpackets
            have hgate : c.gateOf link = some l.gate := by rw [LoginCluster.gateOf, hl, Option.map_some]
            have hanswer := h.answerStep hP hgate (hpackets packet List.mem_cons_self) hs
            refine hanswer.updateLink hl { l with toLogin := rest } rfl fun packet' hmem => ?_
            exact (hpackets packet' (List.mem_cons_of_mem packet hmem)).append _

end invariant

section runs

variable {ι : Type} [DecidableEq ι] {P : LoginProtocol} {Q : Protocol} {serverId maxConn : ℤ}
  {config : ι → MsgConnectLoginRequest} {maxClients : ι → ℕ} {es : List (LoginClusterEvent ι)} {c : LoginCluster ι}

theorem traced_run (hP : P.Faithful config)
    (hrun : (loginClusterMachine P Q).run (.start serverId maxConn config maxClients) es = some c) :
    Traced P Q (.start serverId maxConn config maxClients) es c :=
  Machine.invariant_history (I := Traced P Q (.start serverId maxConn config maxClients))
    (traced_start serverId maxConn config maxClients)
    (fun _ _ _ _ hrun h hstep => Traced.step hP hrun h hstep) hrun

end runs

end JmyGame
