import JmyGame.ClusterLogin
import JmyGame.CommonWire

/-! The messages between the gates and the login server come back from the wire as they were, or are not read: an
account that is no UTF-8 is written and cannot be read. A hand-over from a login to the game server follows. -/

namespace JmyGame

open CArith Protobuf

namespace Wire

theorem account_faithful {account account' : Str} {tmp : List Byte}
    (htmp : Wire.account.serializeToArray maxMsgSize account = some tmp)
    (hparse : Wire.account.parse tmp = some account') : account' = account := by
  have hdecode := decode_tmp [.bytes 1 account] (by simp [Wire.account, Part.encode]) htmp
    (by simp [Part.number]) (by simp)
  have hbytes := bytesOf_part (by simp) (by simp : Part.bytes 1 account ∈ [.bytes 1 account])
  simp only [Wire.account, hdecode, Option.bind_some, hbytes] at hparse
  exact string_eq_some hparse

theorem selectedServerResponse_faithful {res res' : MsgSelectedServerResponse} {tmp : List Byte}
    (htmp : Wire.selectedServerResponse.serializeToArray maxMsgSize res = some tmp)
    (hparse : Wire.selectedServerResponse.parse tmp = some res') : res' = res := by
  let parts : List Part := [.bytes 1 res.account, .bytes 2 res.sessionCode]
  have hdecode := decode_tmp parts (by simp [parts, Wire.selectedServerResponse, Part.encode]) htmp
    (by simp [parts, Part.number]) (by simp [parts])
  have hnodup : (parts.map Part.number).Nodup := by simp [parts, Part.number]
  have haccount := bytesOf_part hnodup (by simp [parts] : Part.bytes 1 res.account ∈ parts)
  have hcode := bytesOf_part hnodup (by simp [parts] : Part.bytes 2 res.sessionCode ∈ parts)
  simp only [Wire.selectedServerResponse, hdecode, Option.bind_some, haccount, hcode,
    Option.bind_eq_some_iff, Option.map_eq_some_iff] at hparse
  obtain ⟨account, haccount', code, hcode', rfl⟩ := hparse
  rw [string_eq_some haccount', string_eq_some hcode']

theorem connectLoginRequest_faithful {request request' : MsgConnectLoginRequest} {tmp : List Byte}
    (hid : -2 ^ 31 ≤ request.gateServerId ∧ request.gateServerId < 2 ^ 31)
    (htmp : Wire.connectLoginRequest.serializeToArray maxMsgSize request = some tmp)
    (hparse : Wire.connectLoginRequest.parse tmp = some request') :
    request'.gateServerId = request.gateServerId := by
  let parts : List Part := [.uint 1 (BitVec.ofInt 64 request.gateServerId).toNat, .bytes 2 request.gateServerIp,
    .uint 3 (BitVec.ofInt 64 request.gateServerPort).toNat]
  have huint : ∀ n v, .uint n v ∈ parts → v < 2 ^ 64 := by
    intro n v hmem
    simp only [parts, List.mem_cons, Part.uint.injEq, List.not_mem_nil, or_false, reduceCtorEq, false_or] at hmem
    rcases hmem with ⟨-, rfl⟩ | ⟨-, rfl⟩
    · exact BitVec.isLt _
    · exact BitVec.isLt _
  have hdecode := decode_tmp parts
    (by simp [parts, Wire.connectLoginRequest, Part.encode, encodeInt32]) htmp (by simp [parts, Part.number]) huint
  have hnodup : (parts.map Part.number).Nodup := by simp [parts, Part.number]
  have hvalue := uintOf_part hnodup
    (by simp [parts] : Part.uint 1 (BitVec.ofInt 64 request.gateServerId).toNat ∈ parts)
  simp only [Wire.connectLoginRequest, hdecode, Option.bind_some, Option.map_eq_some_iff, int32Of, hvalue] at hparse
  obtain ⟨ip, -, rfl⟩ := hparse
  exact toInt_ofNat_ofInt hid.1 hid.2

end Wire

/-- The messages of the `.proto` files say what was put in them, for gates whose id is an `int`. -/
theorem loginWire_faithful {ι : Type} {config : ι → MsgConnectLoginRequest}
    (hid : ∀ i, -2 ^ 31 ≤ (config i).gateServerId ∧ (config i).gateServerId < 2 ^ 31) :
    loginWire.Faithful config where
  connect i _ _ := Wire.connectLoginRequest_faithful (hid i)
  notify _ _ _ := Wire.account_faithful
  response _ _ _ := Wire.selectedServerResponse_faithful

section runs

variable {ι : Type} [DecidableEq ι] {P : LoginProtocol} {Q : Protocol} {serverId maxConn : ℤ}
  {config : ι → MsgConnectLoginRequest} {maxClients : ι → ℕ} {es : List (LoginClusterEvent ι)} {c : LoginCluster ι}

/-- In every run a connection of a client is told no session code but one that a gate made for an account that was
asked to log in on this connection, after a client with the account had selected this gate. -/
theorem code_for_own_account (hP : P.Faithful config)
    (hrun : (loginClusterMachine P Q).run (.start serverId maxConn config maxClients) es = some c) {connId : ℤ}
    {data : List Byte} (hsent : .toClient connId MsgId.s2cSelectServerResponse data ∈ c.login.trace) :
    Handed P Q (.start serverId maxConn config maxClients) es connId data :=
  (traced_run hP hrun).handed connId data hsent

end runs

def handOverGates (second : Bool) : MsgConnectLoginRequest :=
  if second then ⟨20002, [50], 7002⟩ else ⟨20001, [49], 7001⟩

/-- Gate 20001 registers; a client logs in, selects it, gets the session code `[1]` and enters with it. -/
def handOver : List (LoginClusterEvent Bool) := [
  .link false 5, .answer 1, .notify 1 0 [],
  .login (.config (loginWire.connectConfigResponse.serialize [⟨[], 20001, [49], 7001, [], [], false, false⟩])),
  .login .connect,
  .login (.client 1 MsgId.c2sLoginRequest (loginWire.loginRequest.serialize ⟨[97], []⟩)),
  .login (.client 1 MsgId.c2sSelectServerRequest (loginWire.selectServerRequest.serialize 20001)),
  .notify 1 7 [1], .answer 1, .gate false .connect,
  .gate false (.game [] 0 MsgId.gs2gtConnectGateRequest (wire.connectGateRequest.serialize 40001)),
  .gate false (.client 8 [] 1 MsgId.c2sGetRoleRequest (wire.c2sGetRoleRequest.serialize ⟨[97], [1]⟩))]

theorem handOverGates_faithful : loginWire.Faithful handOverGates :=
  loginWire_faithful (by decide)

theorem handOver_run : ∃ c,
    (loginClusterMachine loginWire wire).run (.start 10001 1024 handOverGates fun _ => 10) handOver = some c ∧
    .toClient 1 MsgId.s2cSelectServerResponse (loginWire.selectServerResponse.serialize ⟨[1], [49], 7001⟩) ∈
      c.login.trace ∧
    ⟨none, MsgId.gt2gsGetRoleRequest, wire.c2sGetRoleRequest.serialize ⟨[97], [1]⟩⟩ ∈
      (c.gates false).gate.toGame := by
  have hrun : ((loginClusterMachine loginWire wire).run (.start 10001 1024 handOverGates fun _ => 10) handOver).map
      (fun c => (decide (.toClient 1 MsgId.s2cSelectServerResponse
          (loginWire.selectServerResponse.serialize ⟨[1], [49], 7001⟩) ∈ c.login.trace),
        decide ((⟨none, MsgId.gt2gsGetRoleRequest, wire.c2sGetRoleRequest.serialize ⟨[97], [1]⟩⟩ : Packet) ∈
          (c.gates false).gate.toGame))) = some (true, true) := by
    decide +kernel
  obtain ⟨c, hc, heq⟩ := Option.map_eq_some_iff.1 hrun
  obtain ⟨htold, hasked⟩ := Prod.mk.inj heq
  exact ⟨c, hc, of_decide_eq_true htold, of_decide_eq_true hasked⟩

theorem handOver_code : Handed loginWire wire (.start 10001 1024 handOverGates fun _ => 10) handOver 1
    (loginWire.selectServerResponse.serialize ⟨[1], [49], 7001⟩) := by
  obtain ⟨c, hrun, htold, -⟩ := handOver_run
  exact code_for_own_account handOverGates_faithful hrun htold

end JmyGame
