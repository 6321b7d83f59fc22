import JmyGame.LibMachine
import JmyGame.LibUnorderedMap

/-! `HttpRequestMgr` with its pool, its queue and the requests of its `HttpRequestProcessor`. A request whose `init`
fails, or which libcurl does not take, is in none of them, and one that libcurl does not give back goes to the pool
while the processor still has it. -/

namespace JmyGame

open UnorderedMap

/-- The address of a request or of a handle of libcurl. -/
abbrev Ptr := ℕ

/-- What libcurl has: the easy handles, and those that a transfer was started for and that it has not reported. -/
structure Curl where
  easy : Finset Ptr
  running : Finset Ptr

/-- `curl_easy_cleanup`. -/
def Curl.easyCleanup (c : Curl) (handle : Ptr) : Curl := ⟨c.easy.erase handle, c.running.erase handle⟩

/-- The manager and its processor. `eh` has the handles of the requests. -/
structure HttpRequestMgr where
  requests : List Ptr
  eh : Ptr → Option Ptr
  pool : List Ptr
  list : List Ptr
  reqsMap : UnorderedMap Ptr Ptr
  currNprocess : ℕ
  maxNprocess : ℕ
  curl : Curl

/-- A message of `curl_multi_info_read` and whether `curl_multi_remove_handle` takes its handle out. -/
structure CurlMessage where
  easyHandle : Ptr
  done : Bool
  result : ℕ
  removed : Bool

namespace HttpRequestMgr

def defaultMaxRequestCount : ℕ := 5000
def defaultMaxProcessCount : ℕ := 2000

/-- `init` with the requests that are allocated. -/
def init (maxNreq : ℤ) (requests : List Ptr) : Option HttpRequestMgr :=
  let maxNreq := if maxNreq ≤ 0 then defaultMaxRequestCount else maxNreq.toNat
  if requests.length = maxNreq ∧ requests.Nodup then
    some ⟨requests, fun _ => none, requests, [], ∅, 0, defaultMaxProcessCount, ⟨∅, ∅⟩⟩
  else none

variable (m : HttpRequestMgr)

/-- `newReq`, with the answer of `curl_easy_init`, which is not the address of anything else. -/
def newReq (handle : Option Ptr) : Option (Option Ptr × HttpRequestMgr) :=
  match m.pool with
  | [] => some (none, m)
  | req :: pool =>
    let m := { m with pool := pool, eh := Function.update m.eh req handle }
    match handle with
    | none => some (none, m)
    | some handle =>
      if handle ∈ m.curl.easy ∨ handle ∈ m.requests then none
      else some (some req, { m with curl := { m.curl with easy := insert handle m.curl.easy } })

/-- `addReq`, with the answer of the queue. -/
def addReq (req : Ptr) (pushed : Bool) : Bool × HttpRequestMgr :=
  if pushed then (true, { m with list := m.list ++ [req] }) else (false, m)

/-- `freeReq`. The handle that is cleaned up stays in the request. -/
def freeReq (req : Ptr) : HttpRequestMgr :=
  match m.eh req with
  | none => { m with pool := m.pool ++ [req] }
  | some handle => { m with pool := m.pool ++ [req], curl := m.curl.easyCleanup handle }

/-- A request for a page, in the same way for `get` and for `post`. -/
def request (handle : Option Ptr) (pushed : Bool) : Option (ℤ × HttpRequestMgr) :=
  (m.newReq handle).map fun r =>
    match r.1 with
    | none => (0, r.2)
    | some req =>
      let a := r.2.addReq req pushed
      if a.1 then (1, a.2) else (-1, a.2.freeReq req)

def get (handle : Option Ptr) (pushed : Bool) : Option (ℤ × HttpRequestMgr) := m.request handle pushed

def post (handle : Option Ptr) (pushed : Bool) : Option (ℤ × HttpRequestMgr) := m.request handle pushed

def checkMaxProcess : Bool := decide (m.maxNprocess ≤ m.currNprocess)

/-- `HttpRequestProcessor::addReq`, with the answer of `curl_multi_add_handle`. The map is searched for the request
and not for its handle. -/
def processorAddReq (req : Ptr) (added : Bool) : Bool × HttpRequestMgr :=
  if (m.reqsMap.find req).isSome then (false, m)
  else if m.checkMaxProcess then (false, m)
  else match m.eh req with
    | none => (false, m)
    | some handle =>
      if added then (true, { m with
        reqsMap := m.reqsMap.emplace handle req
        currNprocess := m.currNprocess + 1
        curl := { m.curl with running := insert handle m.curl.running } })
      else (false, m)

/-- `removeReq`, with the answer of `curl_multi_remove_handle`. -/
def removeReq (handle : Ptr) (removed : Bool) : Bool × HttpRequestMgr :=
  match m.reqsMap.find handle with
  | none => (false, m)
  | some _ =>
    if removed then (true, { m with reqsMap := m.reqsMap.remove handle, currNprocess := m.currNprocess - 1 })
    else (false, m)

/-- libcurl has reported the handle. -/
def reported (handle : Ptr) : HttpRequestMgr :=
  { m with curl := { m.curl with running := m.curl.running.erase handle } }

/-- One message and whether it counts; undefined when its handle is not in the map. libcurl reports a handle once. -/
def readMessage (msg : CurlMessage) : Option (Bool × HttpRequestMgr) :=
  if msg.easyHandle ∈ m.curl.running then
    match m.reqsMap.find msg.easyHandle with
    | none => none
    | some req =>
      some (msg.done && msg.result == 0,
        (((m.reported msg.easyHandle).removeReq msg.easyHandle msg.removed).2).freeReq req)
  else none

def readMessages : ℤ → List CurlMessage → HttpRequestMgr → Option (ℤ × HttpRequestMgr)
  | n, [], m => some (n, m)
  | n, msg :: msgs, m => (m.readMessage msg).bind fun r => readMessages (if r.1 then n + 1 else n) msgs r.2

/-- `waitResponse`. There are no messages when `curl_multi_wait` fails, and none are read when nothing has happened. -/
def waitResponse (msgs : Option (List CurlMessage)) : Option (ℤ × HttpRequestMgr) :=
  match msgs with
  | none => some (-1, m)
  | some msgs => readMessages 0 msgs m

/-- The requests of the queue are given to libcurl, up to the first that is not taken. `adds n` is the answer to the
`n`-th of them. -/
def addLoop (adds : ℕ → Bool) : ℕ → List Ptr → HttpRequestMgr → HttpRequestMgr
  | _, [], m => m
  | n, req :: list, m =>
    if m.checkMaxProcess then m
    else
      let r := { m with list := list }.processorAddReq req (adds n)
      if r.1 then addLoop adds (n + 1) list r.2 else r.2

/-- `one_loop`. -/
def oneLoop (adds : ℕ → Bool) (msgs : Option (List CurlMessage)) : Option (ℤ × HttpRequestMgr) :=
  ((addLoop adds 0 m.list m).waitResponse msgs).map fun r => (if r.1 < 0 then -1 else 0, r.2)

end HttpRequestMgr

/-- A call and what is answered to it. -/
inductive HttpEvent where
  | get (handle : Option Ptr) (pushed : Bool)
  | post (handle : Option Ptr) (pushed : Bool)
  | oneLoop (adds : ℕ → Bool) (msgs : Option (List CurlMessage))

namespace HttpRequestMgr

def call (m : HttpRequestMgr) : HttpEvent → Option (ℤ × HttpRequestMgr)
  | .get handle pushed => m.get handle pushed
  | .post handle pushed => m.post handle pushed
  | .oneLoop adds msgs => m.oneLoop adds msgs

def machine : Machine HttpRequestMgr HttpEvent := ⟨fun m e => (m.call e).map Prod.snd⟩

/-- Every request is in one of the pool, the queue and the map of the processor, and there once, and the count of the
processor is that of its map. -/
structure Conserved (m : HttpRequestMgr) : Prop where
  once : ∀ req ∈ m.requests, m.pool.count req + m.list.count req + m.reqsMap.values.count req = 1
  count : m.currNprocess = m.reqsMap.size

/-- A request that is taken from the pool can be initialised, and libcurl takes every handle that it is given and gives
back every handle that it reports. -/
def Succeeds (m : HttpRequestMgr) : HttpEvent → Prop
  | .get handle _ | .post handle _ => m.pool = [] ∨ handle ≠ none
  | .oneLoop adds msgs =>
    (∀ n < min m.list.length (m.maxNprocess - m.currNprocess), adds n = true) ∧
      ∀ l, msgs = some l → ∀ msg ∈ l, msg.removed = true

variable {m : HttpRequestMgr} {hand : Multiset Ptr} {req handle : Ptr}

/-- The requests outside of the pool. Those of `hand` are on their way between two of their places. -/
def out (m : HttpRequestMgr) (hand : Multiset Ptr) : Multiset Ptr := ↑m.list + hand + m.reqsMap.values

/-- Every request is in one place or on its way. One that is not in the pool has a handle of its own, which is its key
in the map. -/
structure Inv (hand : Multiset Ptr) (m : HttpRequestMgr) : Prop where
  nodup : m.requests.Nodup
  whole : ↑m.pool + m.out hand = (m.requests : Multiset Ptr)
  count : m.currNprocess = m.reqsMap.size
  held : ∀ req ∈ m.out hand, ∃ handle ∈ m.curl.easy, m.eh req = some handle
  inj : ∀ req ∈ m.out hand, ∀ req' ∈ m.out hand, m.eh req = m.eh req' → req = req'
  mapped : ∀ handle req, m.reqsMap.find handle = some req → m.eh req = some handle
  fresh : ∀ handle ∈ m.curl.easy, handle ∉ m.requests
  running : ∀ handle ∈ m.curl.running, m.reqsMap.find handle ≠ none

/-- A request is nowhere, or it is in the pool and in the map, under a handle of which libcurl reports nothing more. -/
def Spoiled (m : HttpRequestMgr) : Prop :=
  ∃ req ∈ m.requests, (req ∉ m.pool ∧ req ∉ m.list ∧ req ∉ m.reqsMap.values) ∨
    req ∈ m.pool ∧ ∃ handle ∉ m.curl.running, m.reqsMap.find handle = some req

theorem out_cons_hand : m.out (req ::ₘ hand) = req ::ₘ m.out hand := by
  rw [out, out, Multiset.add_cons, Multiset.cons_add]

theorem mem_out_of_find (h : m.reqsMap.find handle = some req) : req ∈ m.out hand :=
  Multiset.mem_add.2 (Or.inr (mem_values.2 ⟨handle, h⟩))

theorem Inv.conserved (h : Inv 0 m) : m.Conserved where
  once req hreq := by
    have hcount := congrArg (Multiset.count req) h.whole
    rw [out, add_zero, Multiset.count_add, Multiset.count_add, Multiset.coe_count, Multiset.coe_count,
      Multiset.coe_count, List.count_eq_one_of_mem h.nodup hreq, ← Nat.add_assoc] at hcount
    exact hcount
  count := h.count

theorem Inv.nodup_out (h : Inv hand m) : (m.out hand).Nodup := by
  have hall : (↑m.pool + m.out hand).Nodup := by
    rw [h.whole]
    exact Multiset.coe_nodup.2 h.nodup
  exact (Multiset.nodup_add.1 hall).2.1

theorem Spoiled.not_conserved (h : m.Spoiled) : ¬m.Conserved := by
  rintro ⟨honce, -⟩
  obtain ⟨req, hreq, ⟨hpool, hlist, hvalues⟩ | ⟨hpool, handle, -, hfind⟩⟩ := h
  · have hcount := honce req hreq
    rw [List.count_eq_zero.2 hpool, List.count_eq_zero.2 hlist, Multiset.count_eq_zero.2 hvalues] at hcount
    exact absurd hcount (by decide)
  · have hcount := honce req hreq
    have hone := List.one_le_count_iff.2 hpool
    have hother := Multiset.one_le_count_iff_mem.2 (mem_values.2 ⟨handle, hfind⟩)
    omega

/-- A request that is still on its way at the end of a call is lost. -/
theorem spoiled_of_whole (hnodup : m.requests.Nodup)
    (hwhole : ↑m.pool + m.out (req ::ₘ hand) = (m.requests : Multiset Ptr)) : m.Spoiled := by
  have hall : (↑m.pool + m.out (req ::ₘ hand)).Nodup := by
    rw [hwhole]
    exact Multiset.coe_nodup.2 hnodup
  rw [out_cons_hand, Multiset.add_cons] at hall hwhole
  have hnot := (Multiset.nodup_cons.1 hall).1
  rw [out, Multiset.mem_add, Multiset.mem_add, Multiset.mem_add, not_or, not_or, not_or] at hnot
  refine ⟨req, Multiset.mem_coe.1 (hwhole ▸ Multiset.mem_cons_self _ _), Or.inl ⟨hnot.1, hnot.2.1.1, hnot.2.2⟩⟩

/-- A request that moves from one place outside of the pool to another. -/
theorem Inv.moved {hand' : Multiset Ptr} {list : List Ptr} {reqsMap : UnorderedMap Ptr Ptr} {n : ℕ}
    {running : Finset Ptr} (h : Inv hand m)
    (hout : (list : Multiset Ptr) + hand' + reqsMap.values = m.out hand) (hcount : n = reqsMap.size)
    (hmapped : ∀ handle req, reqsMap.find handle = some req → m.eh req = some handle)
    (hrunning : ∀ handle ∈ running, reqsMap.find handle ≠ none) :
    Inv hand' { m with list := list, reqsMap := reqsMap, currNprocess := n, curl := ⟨m.curl.easy, running⟩ } where
  nodup := h.nodup
  whole := (congrArg _ hout).trans h.whole
  count := hcount
  held req hreq := h.held req (hout ▸ hreq)
  inj req hreq req' hreq' := h.inj req (hout ▸ hreq) req' (hout ▸ hreq')
  mapped := hmapped
  fresh := h.fresh
  running := hrunning

theorem Inv.pop {list : List Ptr} (h : Inv hand m) (hlist : m.list = req :: list) :
    Inv (req ::ₘ hand) { m with list := list } := by
  refine h.moved ?_ h.count h.mapped h.running
  rw [out, hlist, Multiset.add_cons, ← Multiset.cons_add, ← Multiset.cons_coe, Multiset.cons_add]

theorem coe_append (l : List Ptr) (req : Ptr) : ((l ++ [req] : List Ptr) : Multiset Ptr) = req ::ₘ ↑l := by
  rw [← Multiset.coe_add, Multiset.coe_singleton, add_comm, Multiset.singleton_add]

theorem Inv.push (h : Inv (req ::ₘ hand) m) : Inv hand { m with list := m.list ++ [req] } := by
  refine h.moved ?_ h.count h.mapped h.running
  rw [out, coe_append, Multiset.add_cons, Multiset.cons_add]

/-- What libcurl has taken is in the map. -/
theorem Inv.add (h : Inv (req ::ₘ hand) m) (hhandle : m.eh req = some handle) :
    Inv hand { m with
      reqsMap := m.reqsMap.emplace handle req
      currNprocess := m.currNprocess + 1
      curl := ⟨m.curl.easy, insert handle m.curl.running⟩ } := by
  have hnodup := h.nodup_out
  have hnone : m.reqsMap.find handle = none := by
    by_contra hsome
    obtain ⟨req', hreq'⟩ := Option.ne_none_iff_exists'.1 hsome
    have hmem : req' ∈ m.out hand := mem_out_of_find hreq'
    rw [out_cons_hand, Multiset.nodup_cons] at hnodup
    have hsame := h.inj req' (out_cons_hand ▸ Multiset.mem_cons_of_mem hmem) req
      (out_cons_hand ▸ Multiset.mem_cons_self _ _) ((h.mapped handle req' hreq').trans hhandle.symm)
    exact hnodup.1 (hsame ▸ hmem)
  refine h.moved ?_ ?_ ?_ ?_
  · rw [values_emplace hnone, out, Multiset.add_cons, Multiset.add_cons, Multiset.cons_add]
  · rw [size_emplace hnone, h.count]
  · intro handle' req' hfind
    rw [find_emplace hnone] at hfind
    split_ifs at hfind with heq
    · obtain rfl := Option.some.inj hfind
      exact heq ▸ hhandle
    · exact h.mapped handle' req' hfind
  · intro handle' hrunning
    rw [find_emplace hnone]
    split_ifs with heq
    · exact Option.some_ne_none req
    · exact h.running handle' (Finset.mem_of_mem_insert_of_ne hrunning heq)

/-- What libcurl has given back is no longer in the map. -/
theorem Inv.remove (h : Inv hand m) (hfind : m.reqsMap.find handle = some req) :
    Inv (req ::ₘ hand) { m with
      reqsMap := m.reqsMap.remove handle
      currNprocess := m.currNprocess - 1
      curl := ⟨m.curl.easy, m.curl.running.erase handle⟩ } := by
  refine h.moved ?_ ?_ ?_ ?_
  · rw [out, values_remove hfind, Multiset.add_cons, Multiset.add_cons, Multiset.cons_add]
  · have hsize := size_remove hfind
    rw [h.count]
    omega
  · intro handle' req' hfind'
    rw [find_remove] at hfind'
    split_ifs at hfind'
    exact h.mapped handle' req' hfind'
  · intro handle' hrunning
    obtain ⟨hne, hmem⟩ := Finset.mem_erase.1 hrunning
    rw [find_remove_of_ne hne]
    exact h.running handle' hmem

/-- What goes back to the pool. -/
theorem Inv.freeReq (h : Inv (req ::ₘ hand) m) : Inv hand (m.freeReq req) := by
  have hnodup := h.nodup_out
  have hself : req ∈ m.out (req ::ₘ hand) := out_cons_hand ▸ Multiset.mem_cons_self _ _
  have hmem : ∀ req' ∈ m.out hand, req' ∈ m.out (req ::ₘ hand) ∧ req' ≠ req := by
    intro req' hreq'
    rw [out_cons_hand, Multiset.nodup_cons] at hnodup
    exact ⟨out_cons_hand ▸ Multiset.mem_cons_of_mem hreq', fun heq => hnodup.1 (heq ▸ hreq')⟩
  obtain ⟨handle, -, hhandle⟩ := h.held req hself
  unfold HttpRequestMgr.freeReq
  rw [hhandle]
  exact
    { nodup := h.nodup
      whole := by
        have hwhole := h.whole
        rw [out_cons_hand, Multiset.add_cons] at hwhole
        rw [coe_append, Multiset.cons_add]
        exact hwhole
      count := h.count
      held := by
        intro req' hreq'
        obtain ⟨hold, hne⟩ := hmem req' hreq'
        obtain ⟨handle', heasy, hhandle'⟩ := h.held req' hold
        refine ⟨handle', Finset.mem_erase.2 ⟨?_, heasy⟩, hhandle'⟩
        rintro rfl
        exact hne (h.inj req' hold req hself (hhandle'.trans hhandle.symm))
      inj := fun req' hreq' req'' hreq'' => h.inj req' (hmem req' hreq').1 req'' (hmem req'' hreq'').1
      mapped := h.mapped
      fresh := fun handle' hmem' => h.fresh handle' (Finset.mem_of_mem_erase hmem')
      running := fun handle' hmem' => h.running handle' (Finset.mem_of_mem_erase hmem') }

/-- The request at the front of the pool is not outside of it. -/
theorem Inv.nodup_pool {pool : List Ptr} (h : Inv 0 m) (hpool : m.pool = req :: pool) :
    ↑pool + m.out {req} = (m.requests : Multiset Ptr) ∧ ∀ req' ∈ m.out 0, req' ≠ req := by
  have hwhole : ↑pool + m.out {req} = (m.requests : Multiset Ptr) := by
    rw [← h.whole, hpool, ← Multiset.cons_zero, out_cons_hand, Multiset.add_cons, ← Multiset.cons_coe,
      Multiset.cons_add]
  have hall : (↑pool + m.out {req}).Nodup := by
    rw [hwhole]
    exact Multiset.coe_nodup.2 h.nodup
  have hout := (Multiset.nodup_add.1 hall).2.1
  rw [← Multiset.cons_zero, out_cons_hand, Multiset.nodup_cons] at hout
  exact ⟨hwhole, fun req' hreq' heq => hout.1 (heq ▸ hreq')⟩

/-- A request of the pool with a handle that no other has. -/
theorem Inv.take {pool : List Ptr} (h : Inv 0 m) (hpool : m.pool = req :: pool) (heasy : handle ∉ m.curl.easy)
    (hrequests : handle ∉ m.requests) :
    Inv {req} { m with
      pool := pool
      eh := Function.update m.eh req (some handle)
      curl := { m.curl with easy := insert handle m.curl.easy } } := by
  obtain ⟨hwhole, hne⟩ := h.nodup_pool hpool
  have hold : ∀ req' ∈ m.out 0, Function.update m.eh req (some handle) req' = m.eh req' := fun req' hreq' =>
    Function.update_of_ne (hne req' hreq') _ _
  have hnew : ∀ req' ∈ m.out 0, m.eh req' ≠ some handle := by
    intro req' hreq' heq
    obtain ⟨handle', hmem, hhandle'⟩ := h.held req' hreq'
    exact heasy (Option.some.inj (hhandle'.symm.trans heq) ▸ hmem)
  have hout : ∀ req' ∈ m.out {req}, req' = req ∨ req' ∈ m.out 0 := by
    intro req' hreq'
    rw [← Multiset.cons_zero, out_cons_hand, Multiset.mem_cons] at hreq'
    exact hreq'
  exact
    { nodup := h.nodup
      whole := hwhole
      count := h.count
      held := by
        intro req' hreq'
        obtain rfl | hmem := hout req' hreq'
        · exact ⟨handle, Finset.mem_insert_self _ _, Function.update_self _ _ _⟩
        · obtain ⟨handle', hmem', hhandle'⟩ := h.held req' hmem
          exact ⟨handle', Finset.mem_insert_of_mem hmem', (hold req' hmem).trans hhandle'⟩
      inj := by
        intro req₁ hreq₁ req₂ hreq₂ heq
        dsimp only at heq
        obtain rfl | hmem₁ := hout req₁ hreq₁
        · obtain rfl | hmem₂ := hout req₂ hreq₂
          · rfl
          · rw [Function.update_self, hold req₂ hmem₂] at heq
            exact absurd heq.symm (hnew req₂ hmem₂)
        · obtain rfl | hmem₂ := hout req₂ hreq₂
          · rw [Function.update_self, hold req₁ hmem₁] at heq
            exact absurd heq (hnew req₁ hmem₁)
          · rw [hold req₁ hmem₁, hold req₂ hmem₂] at heq
            exact h.inj req₁ hmem₁ req₂ hmem₂ heq
      mapped := fun handle' req' hfind => (hold req' (mem_out_of_find hfind)).trans (h.mapped handle' req' hfind)
      fresh := by
        intro handle' hmem
        obtain rfl | hmem' := Finset.mem_insert.1 hmem
        · exact hrequests
        · exact h.fresh handle' hmem'
      running := h.running }

/-- A request taken from the pool is lost, or it has a new handle. -/
theorem Inv.newReq_cases (h : Inv 0 m) {handle : Option Ptr} {r : Option Ptr × HttpRequestMgr}
    (hr : m.newReq handle = some r) :
    (m.pool = [] ∧ r = (none, m)) ∨
      m.pool ≠ [] ∧ (handle = none ∧ r.1 = none ∧ r.2.Spoiled ∨
        handle ≠ none ∧ ∃ req, r.1 = some req ∧ Inv {req} r.2) := by
  unfold newReq at hr
  cases hpool : m.pool with
  | nil =>
      rw [hpool] at hr
      exact Or.inl ⟨rfl, (Option.some.inj hr).symm⟩
  | cons req pool =>
      rw [hpool] at hr
      refine Or.inr ⟨List.cons_ne_nil _ _, ?_⟩
      cases handle with
      | none =>
          obtain rfl := Option.some.inj hr
          exact Or.inl ⟨rfl, rfl, spoiled_of_whole h.nodup (h.nodup_pool hpool).1⟩
      | some handle =>
          dsimp only at hr
          split_ifs at hr with hused
          obtain rfl := Option.some.inj hr
          obtain ⟨heasy, hrequests⟩ := not_or.1 hused
          exact Or.inr ⟨nofun, req, rfl, h.take hpool heasy hrequests⟩

theorem Inv.request (h : Inv 0 m) {handle : Option Ptr} {pushed : Bool} {r : ℤ × HttpRequestMgr}
    (hr : m.request handle pushed = some r) :
    (m.pool = [] ∨ handle ≠ none) ∧ Inv 0 r.2 ∨ ¬(m.pool = [] ∨ handle ≠ none) ∧ r.2.Spoiled := by
  obtain ⟨n, hnew, rfl⟩ := Option.map_eq_some_iff.1 hr
  obtain ⟨hpool, rfl⟩ | ⟨hpool, ⟨hnone, hreq, hspoiled⟩ | ⟨hsome, req, hreq, hinv⟩⟩ := h.newReq_cases hnew
  · exact Or.inl ⟨Or.inl hpool, h⟩
  · refine Or.inr ⟨not_or.2 ⟨hpool, not_not.2 hnone⟩, ?_⟩
    rw [hreq]
    exact hspoiled
  · refine Or.inl ⟨Or.inr hsome, ?_⟩
    rw [hreq]
    cases pushed with
    | true => exact hinv.push
    | false => exact hinv.freeReq

/-- A request of the queue that there is room for goes to the map, or it is lost. -/
theorem Inv.processorAddReq {list : List Ptr} (h : Inv 0 m) (hlist : m.list = req :: list)
    (hroom : ¬m.checkMaxProcess = true) (added : Bool) :
    added = true ∧ (∃ m', HttpRequestMgr.processorAddReq { m with list := list } req added = (true, m') ∧ Inv 0 m' ∧
        m'.list = list ∧ m'.currNprocess = m.currNprocess + 1 ∧ m'.maxNprocess = m.maxNprocess) ∨
      added = false ∧ ∃ m', HttpRequestMgr.processorAddReq { m with list := list } req added = (false, m') ∧
        m'.Spoiled := by
  have hpop := h.pop hlist
  rw [Multiset.cons_zero] at hpop
  obtain ⟨handle, heasy, hhandle⟩ := hpop.held req (out_cons_hand ▸ Multiset.mem_cons_self _ _)
  have hreq : req ∈ m.requests := by
    have hmem : req ∈ ↑m.pool + m.out 0 := by
      rw [out, hlist, ← Multiset.cons_coe]
      exact Multiset.mem_add.2 (Or.inr (Multiset.mem_add.2 (Or.inl (Multiset.mem_add.2 (Or.inl
        (Multiset.mem_cons_self _ _))))))
    rw [h.whole] at hmem
    exact Multiset.mem_coe.1 hmem
  have hnone : m.reqsMap.find req = none := by
    by_contra hsome
    obtain ⟨req', hreq'⟩ := Option.ne_none_iff_exists'.1 hsome
    obtain ⟨handle', heasy', hhandle'⟩ := h.held req' (mem_out_of_find hreq')
    exact h.fresh handle' heasy' (Option.some.inj (hhandle'.symm.trans (h.mapped req req' hreq')) ▸ hreq)
  have heq : HttpRequestMgr.processorAddReq { m with list := list } req added =
      if added then (true, { m with
        list := list
        reqsMap := m.reqsMap.emplace handle req
        currNprocess := m.currNprocess + 1
        curl := { m.curl with running := insert handle m.curl.running } })
      else (false, { m with list := list }) := by
    have hroom' : ¬HttpRequestMgr.checkMaxProcess { m with list := list } = true := hroom
    rw [HttpRequestMgr.processorAddReq, hnone, if_neg (by simp), if_neg hroom']
    dsimp only at hhandle ⊢
    rw [hhandle]
  cases added with
  | true => exact Or.inl ⟨rfl, _, heq, hpop.add hhandle, rfl, rfl, rfl⟩
  | false => exact Or.inr ⟨rfl, _, heq, spoiled_of_whole hpop.nodup hpop.whole⟩

/-- The queue is given to libcurl. -/
theorem Inv.addLoop (h : Inv 0 m) (adds : ℕ → Bool) (n : ℕ) :
    (∀ k < min m.list.length (m.maxNprocess - m.currNprocess), adds (n + k) = true) ∧ Inv 0 (addLoop adds n m.list m) ∨
      ¬(∀ k < min m.list.length (m.maxNprocess - m.currNprocess), adds (n + k) = true) ∧
        (HttpRequestMgr.addLoop adds n m.list m).Spoiled := by
  generalize hlist : m.list = list
  induction list generalizing n m with
  | nil =>
      refine Or.inl ⟨fun k hk => ?_, h⟩
      rw [List.length_nil, Nat.zero_min] at hk
      exact absurd hk (Nat.not_lt_zero k)
  | cons req list ih =>
      rw [HttpRequestMgr.addLoop]
      by_cases hfull : m.checkMaxProcess = true
      · rw [if_pos hfull]
        have hzero : m.maxNprocess - m.currNprocess = 0 := Nat.sub_eq_zero_of_le (of_decide_eq_true hfull)
        refine Or.inl ⟨fun k hk => ?_, h⟩
        rw [hzero, Nat.min_zero] at hk
        exact absurd hk (Nat.not_lt_zero k)
      · rw [if_neg hfull]
        have hlt : m.currNprocess < m.maxNprocess := by
          rw [checkMaxProcess, decide_eq_true_iff] at hfull
          omega
        obtain ⟨hadded, m', heq, hinv, hlist', hcount, hmax⟩ | ⟨hadded, m', heq, hspoiled⟩ :=
          h.processorAddReq hlist hfull (adds n)
        · have hcalls : (∀ k < min (req :: list).length (m.maxNprocess - m.currNprocess), adds (n + k) = true) ↔
              ∀ k < min list.length (m'.maxNprocess - m'.currNprocess), adds (n + 1 + k) = true := by
            rw [List.length_cons, hcount, hmax]
            constructor
            · intro hall k hk
              rw [Nat.add_assoc, Nat.add_comm 1 k]
              exact hall (k + 1) (by omega)
            · intro hall k hk
              cases k with
              | zero => exact hadded
              | succ k =>
                  rw [Nat.add_comm k 1, ← Nat.add_assoc]
                  exact hall k (by omega)
          rw [heq, hcalls]
          exact ih hinv (n + 1) hlist'
        · rw [heq]
          refine Or.inr ⟨fun hall => ?_, hspoiled⟩
          have htrue := hall 0 (by rw [List.length_cons]; omega)
          exact Bool.false_ne_true (hadded.symm.trans htrue)

theorem freeReq_fields (m : HttpRequestMgr) (req : Ptr) :
    (m.freeReq req).requests = m.requests ∧ (m.freeReq req).pool = m.pool ++ [req] ∧ (m.freeReq req).list = m.list ∧
      (m.freeReq req).reqsMap = m.reqsMap ∧ (m.freeReq req).curl.running ⊆ m.curl.running := by
  unfold HttpRequestMgr.freeReq
  cases m.eh req with
  | none => exact ⟨rfl, rfl, rfl, rfl, Finset.Subset.refl _⟩
  | some handle => exact ⟨rfl, rfl, rfl, rfl, Finset.erase_subset _ _⟩

/-- What a message does: its request goes to the pool, and out of the map if libcurl gives it back. -/
theorem readMessage_cases {msg : CurlMessage} {r : Bool × HttpRequestMgr} (hr : m.readMessage msg = some r) :
    msg.easyHandle ∈ m.curl.running ∧ ∃ req, m.reqsMap.find msg.easyHandle = some req ∧
      r.2 = HttpRequestMgr.freeReq { m with
        reqsMap := if msg.removed then m.reqsMap.remove msg.easyHandle else m.reqsMap
        currNprocess := if msg.removed then m.currNprocess - 1 else m.currNprocess
        curl := ⟨m.curl.easy, m.curl.running.erase msg.easyHandle⟩ } req := by
  unfold readMessage at hr
  split_ifs at hr with hrunning
  refine ⟨hrunning, ?_⟩
  cases hfind : m.reqsMap.find msg.easyHandle with
  | none =>
      rw [hfind] at hr
      cases hr
  | some req =>
      have hfind' : (m.reported msg.easyHandle).reqsMap.find msg.easyHandle = some req := hfind
      rw [hfind] at hr
      obtain rfl := Option.some.inj hr
      refine ⟨req, rfl, ?_⟩
      dsimp only
      rw [removeReq, hfind']
      dsimp only
      cases msg.removed with
      | true => rfl
      | false => rfl

theorem Spoiled.readMessage {msg : CurlMessage} {r : Bool × HttpRequestMgr} (h : m.Spoiled)
    (hr : m.readMessage msg = some r) : r.2.Spoiled := by
  obtain ⟨hrunning, req', hfind, heq⟩ := readMessage_cases hr
  obtain ⟨hrequests, hpool, hlist, hmap, hsub⟩ := freeReq_fields { m with
    reqsMap := if msg.removed then m.reqsMap.remove msg.easyHandle else m.reqsMap
    currNprocess := if msg.removed then m.currNprocess - 1 else m.currNprocess
    curl := ⟨m.curl.easy, m.curl.running.erase msg.easyHandle⟩ } req'
  rw [← heq] at hrequests hpool hlist hmap hsub
  obtain ⟨req, hreq, ⟨hnot, hnotList, hvalues⟩ | ⟨hmem, handle, hidle, hhandle⟩⟩ := h
  · have hne : req ≠ req' := fun hsame => hvalues (mem_values.2 ⟨_, hsame ▸ hfind⟩)
    refine ⟨req, hrequests ▸ hreq, Or.inl ⟨?_, hlist ▸ hnotList, ?_⟩⟩
    · rw [hpool, List.mem_append, List.mem_singleton, not_or]
      exact ⟨hnot, hne⟩
    · rw [hmap]
      split_ifs
      · intro hstill
        exact hvalues (values_remove hfind ▸ Multiset.mem_cons_of_mem hstill)
      · exact hvalues
  · have hne : handle ≠ msg.easyHandle := fun hsame => hidle (hsame ▸ hrunning)
    refine ⟨req, hrequests ▸ hreq, Or.inr ⟨hpool ▸ List.mem_append_left _ hmem, handle, ?_, ?_⟩⟩
    · exact fun hstill => hidle (Finset.mem_of_mem_erase (hsub hstill))
    · rw [hmap]
      split_ifs
      · rw [find_remove_of_ne hne]
        exact hhandle
      · exact hhandle

theorem Inv.readMessage {msg : CurlMessage} {r : Bool × HttpRequestMgr} (h : Inv 0 m)
    (hr : m.readMessage msg = some r) : msg.removed = true ∧ Inv 0 r.2 ∨ msg.removed = false ∧ r.2.Spoiled := by
  obtain ⟨-, req, hfind, heq⟩ := readMessage_cases hr
  rw [heq]
  cases hremoved : msg.removed with
  | true => exact Or.inl ⟨rfl, (h.remove hfind).freeReq⟩
  | false =>
      obtain ⟨hrequests, hpool, -, hmap, hsub⟩ := freeReq_fields { m with
        reqsMap := if false = true then m.reqsMap.remove msg.easyHandle else m.reqsMap
        currNprocess := if false = true then m.currNprocess - 1 else m.currNprocess
        curl := ⟨m.curl.easy, m.curl.running.erase msg.easyHandle⟩ } req
      have hreq : req ∈ m.requests := by
        have hmem : req ∈ ↑m.pool + m.out 0 := Multiset.mem_add.2 (Or.inr (mem_out_of_find hfind))
        rw [h.whole] at hmem
        exact Multiset.mem_coe.1 hmem
      refine Or.inr ⟨rfl, req, hrequests.symm ▸ hreq, Or.inr ⟨?_, msg.easyHandle, ?_, ?_⟩⟩
      · rw [hpool]
        exact List.mem_append_right _ List.mem_cons_self
      · exact fun hstill => Finset.notMem_erase _ _ (hsub hstill)
      · rw [hmap]
        exact hfind

theorem Spoiled.readMessages {msgs : List CurlMessage} {n : ℤ} {r : ℤ × HttpRequestMgr} (h : m.Spoiled)
    (hr : readMessages n msgs m = some r) : r.2.Spoiled := by
  induction msgs generalizing n m with
  | nil =>
      obtain rfl := Option.some.inj hr
      exact h
  | cons msg msgs ih =>
      obtain ⟨r', hmsg, hrest⟩ := Option.bind_eq_some_iff.1 hr
      exact ih (h.readMessage hmsg) hrest

theorem Inv.readMessages {msgs : List CurlMessage} {n : ℤ} {r : ℤ × HttpRequestMgr} (h : Inv 0 m)
    (hr : readMessages n msgs m = some r) :
    (∀ msg ∈ msgs, msg.removed = true) ∧ Inv 0 r.2 ∨ ¬(∀ msg ∈ msgs, msg.removed = true) ∧ r.2.Spoiled := by
  induction msgs generalizing n m with
  | nil =>
      obtain rfl := Option.some.inj hr
      exact Or.inl ⟨fun _ hmsg => absurd hmsg List.not_mem_nil, h⟩
  | cons msg msgs ih =>
      obtain ⟨r', hmsg, hrest⟩ := Option.bind_eq_some_iff.1 hr
      rw [List.forall_mem_cons]
      obtain ⟨hremoved, hinv⟩ | ⟨hremoved, hspoiled⟩ := h.readMessage hmsg
      · rw [and_iff_right hremoved]
        exact ih hinv hrest
      · refine Or.inr ⟨fun hall => ?_, hspoiled.readMessages hrest⟩
        exact Bool.false_ne_true (hremoved.symm.trans hall.1)

theorem Spoiled.waitResponse {msgs : Option (List CurlMessage)} {r : ℤ × HttpRequestMgr} (h : m.Spoiled)
    (hr : m.waitResponse msgs = some r) : r.2.Spoiled := by
  cases msgs with
  | none =>
      obtain rfl := Option.some.inj hr
      exact h
  | some msgs => exact h.readMessages hr

theorem Inv.waitResponse {msgs : Option (List CurlMessage)} {r : ℤ × HttpRequestMgr} (h : Inv 0 m)
    (hr : m.waitResponse msgs = some r) :
    (∀ l, msgs = some l → ∀ msg ∈ l, msg.removed = true) ∧ Inv 0 r.2 ∨
      ¬(∀ l, msgs = some l → ∀ msg ∈ l, msg.removed = true) ∧ r.2.Spoiled := by
  cases msgs with
  | none =>
      obtain rfl := Option.some.inj hr
      exact Or.inl ⟨nofun, h⟩
  | some msgs =>
      have hall : (∀ l, some msgs = some l → ∀ msg ∈ l, msg.removed = true) ↔ ∀ msg ∈ msgs, msg.removed = true :=
        ⟨fun h' => h' msgs rfl, fun h' l hl => Option.some.inj hl ▸ h'⟩
      rw [hall]
      exact h.readMessages hr

theorem Inv.oneLoop {adds : ℕ → Bool} {msgs : Option (List CurlMessage)} {r : ℤ × HttpRequestMgr} (h : Inv 0 m)
    (hr : m.oneLoop adds msgs = some r) :
    m.Succeeds (.oneLoop adds msgs) ∧ Inv 0 r.2 ∨ ¬m.Succeeds (.oneLoop adds msgs) ∧ r.2.Spoiled := by
  obtain ⟨r', hwait, rfl⟩ := Option.map_eq_some_iff.1 hr
  have hcalls : (∀ k < min m.list.length (m.maxNprocess - m.currNprocess), adds (0 + k) = true) ↔
      ∀ k < min m.list.length (m.maxNprocess - m.currNprocess), adds k = true := by
    simp only [Nat.zero_add]
  rw [Succeeds, ← hcalls]
  dsimp only
  obtain ⟨hadds, hinv⟩ | ⟨hadds, hspoiled⟩ := h.addLoop adds 0
  · rw [and_iff_right hadds]
    exact hinv.waitResponse hwait
  · exact Or.inr ⟨fun hboth => hadds hboth.1, hspoiled.waitResponse hwait⟩

/-- A call whose answers are good conserves the requests, and another one loses one or gives it back too early. -/
theorem Inv.call {e : HttpEvent} {r : ℤ × HttpRequestMgr} (h : Inv 0 m) (hr : m.call e = some r) :
    m.Succeeds e ∧ Inv 0 r.2 ∨ ¬m.Succeeds e ∧ r.2.Spoiled := by
  cases e with
  | get handle pushed => exact h.request hr
  | post handle pushed => exact h.request hr
  | oneLoop adds msgs => exact h.oneLoop hr

theorem inv_init {maxNreq : ℤ} {requests : List Ptr} (hinit : init maxNreq requests = some m) : Inv 0 m := by
  unfold init at hinit
  dsimp only at hinit
  generalize (if maxNreq ≤ 0 then defaultMaxRequestCount else maxNreq.toNat) = n at hinit
  split_ifs at hinit with hnodup
  obtain rfl := Option.some.inj hinit
  have hout : out ⟨requests, fun _ => none, requests, [], ∅, 0, defaultMaxProcessCount, ⟨∅, ∅⟩⟩ 0 = 0 := rfl
  exact
    { nodup := hnodup.2
      whole := by rw [hout, add_zero]
      count := rfl
      held := fun req hreq => absurd (hout ▸ hreq) (Multiset.notMem_zero req)
      inj := fun req hreq => absurd (hout ▸ hreq) (Multiset.notMem_zero req)
      mapped := fun handle req hfind => nomatch find_empty.symm.trans hfind
      fresh := fun handle hmem => absurd hmem (Finset.notMem_empty handle)
      running := fun handle hmem => absurd hmem (Finset.notMem_empty handle) }

/-- In every run behind `init`, all requests are conserved in every state exactly when the answers of libcurl are good
in every step. -/
theorem conserved_iff {maxNreq : ℤ} {requests : List Ptr} {s u : HttpRequestMgr}
    (hinit : init maxNreq requests = some s) {es : List HttpEvent} (hrun : machine.run s es = some u) :
    machine.Along Succeeds s es ↔ ∀ es₁ es₂ t, es = es₁ ++ es₂ → machine.run s es₁ = some t → t.Conserved := by
  refine Machine.along_iff_reached_run (I := Inv 0) ?_ (fun _ h => h.conserved) ?_ (inv_init hinit) hrun
  · intro m e m' h hsucceeds hstep
    obtain ⟨r, hr, rfl⟩ := Option.map_eq_some_iff.1 hstep
    exact (h.call hr).elim And.right fun hnot => absurd hsucceeds hnot.1
  · intro m e m' h hstep hconserved
    obtain ⟨r, hr, rfl⟩ := Option.map_eq_some_iff.1 hstep
    exact (h.call hr).elim And.left fun hnot => absurd hconserved hnot.2.not_conserved

/-- A request that goes through all of its places, with the answer to `curl_multi_remove_handle` at its end. -/
def oneRequest (removed : Bool) : List HttpEvent :=
  [.get (some 8) true, .oneLoop (fun _ => true) (some []), .oneLoop (fun _ => true) (some [⟨8, true, 0, removed⟩])]

theorem oneRequest_conserved : ∃ s, init 1 [7] = some s ∧ ∃ u, machine.run s (oneRequest true) = some u ∧
    u.Conserved := by
  have hinit : (init 1 [7]).isSome = true := rfl
  have hrun : (machine.run ((init 1 [7]).get hinit) (oneRequest true)).isSome = true := rfl
  have halong : machine.Along Succeeds ((init 1 [7]).get hinit) (oneRequest true) := by
    refine ⟨Or.inr nofun, fun _ _ => ⟨⟨fun _ _ => rfl, ?_⟩, fun _ _ => ⟨⟨fun _ _ => rfl, ?_⟩, fun _ _ => trivial⟩⟩⟩
    · rintro l hl msg hmsg
      obtain rfl := Option.some.inj hl
      exact absurd hmsg List.not_mem_nil
    · rintro l hl msg hmsg
      obtain rfl := Option.some.inj hl
      obtain rfl := List.mem_singleton.1 hmsg
      rfl
  refine ⟨_, (Option.some_get hinit).symm, _, (Option.some_get hrun).symm, ?_⟩
  exact (conserved_iff (Option.some_get hinit).symm (Option.some_get hrun).symm).1 halong _ [] _
    (List.append_nil _).symm (Option.some_get hrun).symm

/-- The only request is lost where its `init` fails and where libcurl does not take it, and it is in the pool and in the
map where libcurl does not give it back. -/
theorem requests_lost : ∃ s, init 1 [7] = some s ∧
    (∃ t, machine.run s [.get none true] = some t ∧ ¬t.Conserved) ∧
    (∃ t, machine.run s [.get (some 8) true, .oneLoop (fun _ => false) (some [])] = some t ∧ ¬t.Conserved) ∧
    ∃ t, machine.run s (oneRequest false) = some t ∧ ¬t.Conserved := by
  refine ⟨_, rfl, ⟨_, rfl, fun h => ?_⟩, ⟨_, rfl, fun h => ?_⟩, ⟨_, rfl, fun h => ?_⟩⟩
  · exact absurd (h.once 7 (List.mem_singleton.2 rfl)) (by decide)
  · exact absurd (h.once 7 (List.mem_singleton.2 rfl)) (by decide)
  · exact absurd (h.once 7 (List.mem_singleton.2 rfl)) (by decide)

end HttpRequestMgr

end JmyGame
