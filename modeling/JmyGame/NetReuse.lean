import Mathlib.Data.List.Nodup
import JmyGame.NetServer
import JmyGame.NetLifeCycle

/-! Reuse of pooled connection objects. A completion handler captures only the object, so an operation
that was started for one connection id may be completed when the object serves another one. The
operations of an object in use all belong to its own id as long as `accept_new` hands out only objects
whose operations are all completed. -/

namespace JmyGame

open CArith

/-- The id stays, and every new operation belongs to it. -/
def Owned (c c' : JmyTcpConnection) : Prop :=
  c'.id = c.id ∧ ∀ q ∈ c'.pending, q ∈ c.pending ∨ q.owner = c.id

namespace Owned

variable {c c' c'' : JmyTcpConnection}

theorem of_pending (hid : c'.id = c.id) (hpending : c'.pending = c.pending) : Owned c c' :=
  ⟨hid, fun _ hq => Or.inl (hpending ▸ hq)⟩

theorem refl (c : JmyTcpConnection) : Owned c c := of_pending rfl rfl

theorem trans (h : Owned c c') (h' : Owned c' c'') : Owned c c'' := by
  refine ⟨h'.1.trans h.1, fun q hq => ?_⟩
  rcases h'.2 q hq with hq | hq
  · exact h.2 q hq
  · exact Or.inr (hq.trans h.1)

theorem startOp (c : JmyTcpConnection) (op : AsyncOp) : Owned c (c.startOp op) := by
  refine ⟨rfl, fun q hq => ?_⟩
  rcases List.mem_append.1 hq with hq | hq
  · exact Or.inl hq
  · rw [List.mem_singleton.1 hq]
    exact Or.inr rfl

theorem startRecv (c : JmyTcpConnection) : Owned c c.startRecv := by
  by_cases hrec : c.Receptive
  · rw [startRecv_receptive hrec]
    exact (startOp c .readHead).trans (of_pending rfl rfl)
  · rcases startRecv_not_receptive hrec with h | h
    · rw [h]
      exact refl c
    · rw [h]
      exact startOp c .readHead

theorem popped (c : JmyTcpConnection) (i : ℕ) : Owned c (c.popped i) :=
  ⟨rfl, fun _ hq => Or.inl (List.mem_of_mem_eraseIdx hq)⟩

end Owned

theorem Quiet.owned {c c' : JmyTcpConnection} (h : Quiet c c') : Owned c c' := by
  induction h with
  | minor hm =>
      obtain ⟨new, hnew, hall⟩ := hm.pending
      refine ⟨hm.id, fun q hq => ?_⟩
      rw [hnew] at hq
      rcases List.mem_append.1 hq with hq | hq
      · exact Or.inl hq
      · exact Or.inr (hall q hq).1
  | forceClose c =>
      rw [JmyTcpConnection.forceClose]
      split_ifs
      · exact Owned.refl c
      · exact Owned.of_pending rfl rfl
  | closing => exact Owned.of_pending rfl rfl
  | trans _ _ ih ih' => exact ih.trans ih'

theorem Owned.complete {c c' : JmyTcpConnection} {i : ℕ} {r : Completion}
    (h : c.complete i r = some c') : Owned c c' := by
  obtain ⟨p, -, -, rfl⟩ := complete_eq_some h
  apply (Owned.popped c i).trans
  rcases onComplete_cases (c.popped i) p.op r with ⟨-, hq⟩ | ⟨_, type, len, -, -, -, -, -, heq⟩ | ⟨-, heq⟩
  · exact hq.owned
  · rw [heq]
    exact Owned.startOp _ _
  · rw [heq]
    exact (Quiet.beforeRecv _ p.op r).owned.trans (Owned.startRecv _)

/-- The tables of the server stay as they are, and new operations belong to the ids of their
objects. -/
structure SameTables (s s' : JmyTcpServer) : Prop where
  idGene : s'.idGene = s.idGene
  usedMap : s'.usedMap = s.usedMap
  freeList : s'.freeList = s.freeList
  conns : s'.conns = s.conns
  objs : ∀ p, Owned (s.objs p) (s'.objs p)

namespace SameTables

variable {s s' s'' : JmyTcpServer}

theorem refl (s : JmyTcpServer) : SameTables s s := ⟨rfl, rfl, rfl, rfl, fun _ => Owned.refl _⟩

theorem trans (h : SameTables s s') (h' : SameTables s' s'') : SameTables s s'' :=
  ⟨h'.idGene.trans h.idGene, h'.usedMap.trans h.usedMap, h'.freeList.trans h.freeList,
    h'.conns.trans h.conns, fun p => (h.objs p).trans (h'.objs p)⟩

theorem view (s : JmyTcpServer) (p : ℕ) : Owned (s.objs p) (s.view p) := by
  rw [JmyTcpServer.view]
  split
  · exact Owned.of_pending rfl rfl
  · exact Owned.of_pending rfl rfl

/-- A change of one object. -/
theorem of_update {p : ℕ} {c : JmyTcpConnection} (hgene : s'.idGene = s.idGene)
    (hused : s'.usedMap = s.usedMap) (hfree : s'.freeList = s.freeList) (hconns : s'.conns = s.conns)
    (hobjs : s'.objs = Function.update s.objs p c) (h : Owned (s.objs p) c) : SameTables s s' := by
  refine ⟨hgene, hused, hfree, hconns, fun p' => ?_⟩
  rw [hobjs]
  by_cases hp : p' = p
  · subst hp
    rw [Function.update_self]
    exact h
  · rw [Function.update_of_ne hp]
    exact Owned.refl _

theorem modify (s : JmyTcpServer) (p : ℕ) {f : JmyTcpConnection → JmyTcpConnection}
    (h : Owned (s.view p) (f (s.view p))) : SameTables s (s.modify p f) :=
  of_update rfl rfl rfl rfl rfl ((view s p).trans h)

theorem call {id : ℤ} {k : ConnCall} (h : s.call id k = some s') : SameTables s s' := by
  rw [JmyTcpServer.call] at h
  split at h
  · cases h
    exact refl s
  · obtain ⟨c, hc, rfl⟩ := Option.map_eq_some_iff.1 h
    exact modify s _ (Quiet.call hc).owned

theorem calls {ks : List (ℤ × ConnCall)} (h : s.calls ks = some s') : SameTables s s' := by
  induction ks generalizing s with
  | nil =>
      cases h
      exact refl _
  | cons k ks ih =>
      obtain ⟨s₁, hcall, hrest⟩ := Option.bind_eq_some_iff.1 h
      exact (call hcall).trans (ih hrest)

theorem complete {p i : ℕ} {r : Completion} (h : s.complete p i r = some s') : SameTables s s' := by
  obtain ⟨c, hc, rfl⟩ := Option.map_eq_some_iff.1 h
  exact modify s p (Owned.complete hc)

theorem msgHandler {f : JmyMsgInfo → JmyTcpServer → ℤ × List (ℤ × ConnCall)} {info : JmyMsgInfo}
    {r : ℤ × JmyTcpServer} (h : ServerHandlers.msgHandler f info s = some r) : SameTables s r.2 := by
  obtain ⟨s', hcalls, rfl⟩ := Option.map_eq_some_iff.1 h
  exact calls hcalls

theorem tick {h : ServerHandlers} {p : ℕ} (hs : h.tick p s = some s') : SameTables s s' := by
  rw [ServerHandlers.tick] at hs
  split at hs
  · cases hs
    exact refl s
  · exact (modify s p (Quiet.minor (Minor.observe _ _ rfl)).owned).trans (calls hs)

theorem runConn {h : ServerHandlers} {now : ℤ} {past : ℕ → Byte} {p : ℕ} {data : JmyPacketUnpackData2}
    {r : ℤ × JmyPacketUnpackData2 × JmyTcpServer}
    (hr : runConn (JmyTcpServer.view · p) (fun f s => JmyTcpServer.modify s p f) h.dataHandler past now
      (h.tick p) data s = some r) : SameTables s r.2.2 := by
  refine runConn_within refl (fun _ _ _ => trans) ?_ (fun _ _ => tick) ?_ ?_ hr
  · intro f s hf
    exact modify s p (hf _).owned
  · intro id f info s r hf
    obtain ⟨g, -, rfl⟩ := Option.map_eq_some_iff.1 hf
    exact msgHandler
  · intro f info s r hf
    obtain ⟨g, -, rfl⟩ := Option.map_eq_some_iff.1 hf
    exact msgHandler

end SameTables

/-- Every object is free or used under its own id, and the operations of a used object belong to that
id. -/
structure Pool (s : JmyTcpServer) : Prop where
  used : ∀ id p, s.usedMap id = some p →
    (s.objs p).id = id ∧ p ∉ s.freeList ∧ ∀ q ∈ (s.objs p).pending, q.owner = id
  freeList : s.freeList.Nodup
  nodup : s.conns.Nodup
  conns : ∀ p ∈ s.conns, s.usedMap (s.objs p).id = some p

namespace Pool

variable {s s' : JmyTcpServer}

theorem start (maxConn : ℕ) (useSendBuffList : Bool) : Pool (.start maxConn useSendBuffList) := by
  refine ⟨?_, List.nodup_range, List.nodup_nil, ?_⟩
  · intro id p h
    cases h
  · intro p h
    cases h

theorem sameTables (hs : Pool s) (h : SameTables s s') : Pool s' := by
  refine ⟨?_, h.freeList ▸ hs.freeList, h.conns ▸ hs.nodup, ?_⟩
  · intro id p hp
    rw [h.usedMap] at hp
    obtain ⟨hid, hfree, howner⟩ := hs.used id p hp
    refine ⟨(h.objs p).1.trans hid, h.freeList ▸ hfree, fun q hq => ?_⟩
    rcases (h.objs p).2 q hq with hq | hq
    · exact howner q hq
    · exact hq.trans hid
  · intro p hp
    rw [h.conns] at hp
    rw [h.usedMap, (h.objs p).1]
    exact hs.conns p hp

/-- Only `free` and the list `conns_` matter for what `release` does to the pool. -/
theorem release {p : ℕ} (hs : Pool s) (hp : p ∈ s.conns) (h : s.release p = some s') :
    Pool s' ∧ s'.conns = s.conns.erase p := by
  obtain ⟨b, -, rfl⟩ := Option.map_eq_some_iff.1 h
  have hused := hs.conns p hp
  obtain ⟨-, hfree, -⟩ := hs.used _ p hused
  have hfreed : (s.free p).2 = { s with
      usedMap := Function.update s.usedMap (s.objs p).id none
      freeList := p :: s.freeList
      objs := Function.update s.objs p { s.objs p with state := .notConnect } } := by
    rw [JmyTcpServer.free, hused]
    rfl
  simp only [hfreed]
  -- another object in use has another id
  have hother : ∀ id p', Function.update s.usedMap (s.objs p).id none id = some p' →
      p' ≠ p ∧ s.usedMap id = some p' := by
    intro id p' h'
    by_cases hid : id = (s.objs p).id
    · rw [hid, Function.update_self] at h'
      cases h'
    · rw [Function.update_of_ne hid] at h'
      refine ⟨fun heq => hid ?_, h'⟩
      rw [← (hs.used id p' h').1, heq]
  refine ⟨⟨?_, ?_, hs.nodup.erase p, ?_⟩, trivial⟩
  · intro id p' h'
    obtain ⟨hne, h''⟩ := hother id p' h'
    obtain ⟨hid, hfree', howner⟩ := hs.used id p' h''
    simp only [Function.update_of_ne hne]
    exact ⟨hid, List.not_mem_cons_of_ne_of_not_mem hne hfree', howner⟩
  · exact List.nodup_cons.2 ⟨hfree, hs.freeList⟩
  · intro p' hp'
    obtain ⟨hne, hmem⟩ := (hs.nodup.mem_erase_iff).1 hp'
    have hused' := hs.conns p' hmem
    simp only [Function.update_of_ne hne]
    rw [Function.update_of_ne, hused']
    intro heq
    rw [heq, hused, Option.some.injEq] at hused'
    exact hne hused'.symm

theorem runOne {h : ServerHandlers} {now : ℤ} {past : ℕ → Byte} {p : ℕ} (hs : Pool s)
    (hp : p ∈ s.conns) (hrun : s.runOne h now past p = some s') :
    Pool s' ∧ ∀ p' ≠ p, p' ∈ s.conns → p' ∈ s'.conns := by
  rw [JmyTcpServer.runOne] at hrun
  split_ifs at hrun
  · obtain ⟨hpool, hconns⟩ := hs.release hp hrun
    exact ⟨hpool, fun p' hne hp' => hconns ▸ (List.mem_erase_of_ne hne).2 hp'⟩
  · obtain ⟨r, hr, rfl⟩ := Option.map_eq_some_iff.1 hrun
    have htables := SameTables.runConn hr
    have htables' : SameTables s { r.2.2 with data := r.2.1 } :=
      ⟨htables.idGene, htables.usedMap, htables.freeList, htables.conns, htables.objs⟩
    exact ⟨hs.sameTables htables', fun p' _ hp' => htables.conns ▸ hp'⟩

theorem runConns {h : ServerHandlers} {now : ℤ} {past : ℕ → Byte} (hs : Pool s)
    (hrun : s.runConns h now past = some s') : Pool s' := by
  have hsweep : ∀ ps : List ℕ, ps.Nodup → ∀ s, Pool s → (∀ p ∈ ps, p ∈ s.conns) →
      ps.foldlM (JmyTcpServer.runOne h now past) s = some s' → Pool s' := by
    intro ps
    induction ps with
    | nil =>
        intro _ s hs _ hfold
        cases hfold
        exact hs
    | cons p ps ih =>
        intro hnodup s hs hmem hfold
        obtain ⟨s₁, hone, hrest⟩ := Option.bind_eq_some_iff.1 hfold
        obtain ⟨hp, hps⟩ := List.nodup_cons.1 hnodup
        obtain ⟨hpool, hkeep⟩ := hs.runOne (hmem p List.mem_cons_self) hone
        refine ih hps s₁ hpool (fun p' hp' => ?_) hrest
        exact hkeep p' (fun heq => hp (heq ▸ hp')) (hmem p' (List.mem_cons_of_mem p hp'))
  exact hsweep s.conns hs.nodup s hs (fun _ => id) hrun

end Pool

theorem getFree_eq_some {s s₁ : JmyTcpServer} {id : ℤ} {p : ℕ} (h : s.getFree id = some (p, s₁)) :
    s.usedMap id = none ∧ s.freeList = p :: s₁.freeList ∧ s₁.idGene = s.idGene ∧
      s₁.conns = s.conns ∧ s₁.usedMap = Function.update s.usedMap id (some p) ∧
      s₁.objs = Function.update s.objs p { s.objs p with id := id } := by
  rw [JmyTcpServer.getFree] at h
  split_ifs at h with hused
  split at h
  · cases h
  · rename_i p' rest hfree
    cases h
    exact ⟨Option.not_isSome_iff_eq_none.1 hused, hfree, rfl, rfl, rfl, rfl⟩

namespace Pool

variable {s s' : JmyTcpServer}

theorem setIdGene (hs : Pool s) (g : JmyIdGenerator) : Pool { s with idGene := g } :=
  ⟨hs.used, hs.freeList, hs.nodup, hs.conns⟩

/-- A free object without operations is handed out. -/
theorem getFree {id : ℤ} {p : ℕ} (hs : Pool s) (h : s.getFree id = some (p, s'))
    (hidle : (s.objs p).pending = []) :
    Pool s' ∧ p ∉ s'.conns ∧ s'.usedMap (s'.objs p).id = some p := by
  obtain ⟨hunused, hfree, -, hconns, hmap, hobjs⟩ := getFree_eq_some h
  have hrest : p ∉ s'.freeList ∧ s'.freeList.Nodup := List.nodup_cons.1 (hfree ▸ hs.freeList)
  have hself : s'.objs p = { s.objs p with id := id } := by rw [hobjs, Function.update_self]
  have hne : ∀ id' p', s.usedMap id' = some p' → p' ≠ p := by
    intro id' p' h' heq
    apply (hs.used id' p' h').2.1
    rw [hfree, heq]
    exact List.mem_cons_self
  have hother : ∀ p' ≠ p, s'.objs p' = s.objs p' := by
    intro p' hp'
    rw [hobjs, Function.update_of_ne hp']
  have hconns' : ∀ p' ∈ s'.conns, p' ≠ p ∧ s.usedMap (s.objs p').id = some p' := by
    intro p' hp'
    rw [hconns] at hp'
    exact ⟨hne _ p' (hs.conns p' hp'), hs.conns p' hp'⟩
  refine ⟨⟨?_, hrest.2, hconns ▸ hs.nodup, ?_⟩, fun hp => (hconns' p hp).1 rfl, ?_⟩
  · intro id' p' h'
    rw [hmap] at h'
    by_cases hid : id' = id
    · rw [hid, Function.update_self, Option.some.injEq] at h'
      subst h'
      rw [hself, hid]
      refine ⟨rfl, hrest.1, fun q hq => ?_⟩
      rw [hidle] at hq
      cases hq
    · rw [Function.update_of_ne hid] at h'
      obtain ⟨hid', hfree', howner⟩ := hs.used id' p' h'
      rw [hother p' (hne id' p' h')]
      rw [hfree] at hfree'
      exact ⟨hid', fun hmem => hfree' (List.mem_cons_of_mem p hmem), howner⟩
  · intro p' hp'
    obtain ⟨hp'', hused⟩ := hconns' p' hp'
    rw [hother p' hp'', hmap, Function.update_of_ne, hused]
    intro heq
    rw [heq, hunused] at hused
    cases hused
  · rw [hself, hmap, Function.update_self]

theorem push {p : ℕ} (hs : Pool s) (hnot : p ∉ s.conns) (hused : s.usedMap (s.objs p).id = some p) :
    Pool { s with conns := s.conns ++ [p] } := by
  refine ⟨hs.used, hs.freeList, ?_, ?_⟩
  · exact List.Nodup.append hs.nodup (List.nodup_singleton p) (List.disjoint_singleton.2 hnot)
  · intro p' hp'
    rcases List.mem_append.1 hp' with hp' | hp'
    · exact hs.conns p' hp'
    · rw [List.mem_singleton.1 hp']
      exact hused

end Pool

theorem SameTables.setSock (s : JmyTcpServer) (p : ℕ) : SameTables s (s.setSock p) :=
  of_update rfl rfl rfl rfl rfl (Owned.of_pending rfl rfl)

theorem SameTables.setBufferMgr (s : JmyTcpServer) (m : JmyConnectionBufferMgr) :
    SameTables s { s with bufferMgr := m } := ⟨rfl, rfl, rfl, rfl, fun _ => Owned.refl _⟩

theorem SameTables.setBuffer (s : JmyTcpServer) (p b : ℕ) (block : JmyDoubleSessionBuffer) :
    SameTables s (s.setBuffer p b block) := ⟨rfl, rfl, rfl, rfl, fun _ => Owned.refl _⟩

/-- The object with its buffer, at the point where `accept_new` starts it. -/
def JmyTcpServer.equipped (s : JmyTcpServer) (p b : ℕ) (m : JmyConnectionBufferMgr)
    (block : JmyDoubleSessionBuffer) : JmyTcpServer :=
  { s.setSock p with bufferMgr := m }.setBuffer p b block

/-- What `accept_new` does: there is no id, there is no buffer, or a free object is handed out and its
first read started. -/
theorem acceptNew_cases {s : JmyTcpServer} {block : JmyDoubleSessionBuffer}
    {onConnect : List (ℤ × ConnCall)} {r : ℤ × JmyTcpServer}
    (h : s.acceptNew block onConnect = some r) :
    ∃ id g, s.idGene.get = some (id, g) ∧ ((id = 0 ∧ r = (-1, { s with idGene := g })) ∨
      ∃ p s₁, JmyTcpServer.getFree { s with idGene := g } id = some (p, s₁) ∧
        (r = (-1, s₁.setSock p) ∨ ∃ b m s₂,
          s₂ = (s₁.equipped p b m block).modify p JmyTcpConnection.startRecv ∧
          JmyTcpServer.calls { s₂ with conns := s₂.conns ++ [p] } onConnect = some r.2 ∧
            r.1 = id)) := by
  obtain ⟨⟨id, g⟩, hget, h⟩ := Option.bind_eq_some_iff.1 h
  refine ⟨id, g, hget, ?_⟩
  dsimp only at h
  split_ifs at h with hzero
  · cases h
    exact Or.inl ⟨hzero, rfl⟩
  · obtain ⟨⟨p, s₁⟩, hfree, h⟩ := Option.bind_eq_some_iff.1 h
    refine Or.inr ⟨p, s₁, hfree, ?_⟩
    dsimp only at h
    split at h
    · cases h
      exact Or.inl rfl
    · rename_i b m hbuf
      obtain ⟨s₃, hcalls, rfl⟩ := Option.map_eq_some_iff.1 h
      exact Or.inr ⟨b, m, _, rfl, hcalls, rfl⟩

theorem SameTables.equipped (s : JmyTcpServer) (p b : ℕ) (m : JmyConnectionBufferMgr)
    (block : JmyDoubleSessionBuffer) : SameTables s (s.equipped p b m block) :=
  ((setSock s p).trans (setBufferMgr _ m)).trans (setBuffer _ p b block)

theorem Pool.acceptNew {s : JmyTcpServer} {block : JmyDoubleSessionBuffer}
    {onConnect : List (ℤ × ConnCall)} {r : ℤ × JmyTcpServer} (hs : Pool s)
    (hidle : ∀ p rest, s.freeList = p :: rest → (s.objs p).pending = [])
    (h : s.acceptNew block onConnect = some r) : Pool r.2 := by
  obtain ⟨id, g, -, ⟨-, rfl⟩ | ⟨p, s₁, hfree, hr⟩⟩ := acceptNew_cases h
  · exact hs.setIdGene g
  obtain ⟨-, hfront, -⟩ := getFree_eq_some hfree
  obtain ⟨hpool, hnot, hused⟩ := (hs.setIdGene g).getFree hfree (hidle p _ hfront)
  rcases hr with rfl | ⟨b, m, s₂, rfl, hcalls, -⟩
  · exact hpool.sameTables (SameTables.setSock s₁ p)
  · have htables := (SameTables.equipped s₁ p b m block).trans
      (SameTables.modify _ p (Owned.startRecv _))
    refine Pool.sameTables (Pool.push (hpool.sameTables htables) ?_ ?_) (SameTables.calls hcalls)
    · rw [htables.conns]
      exact hnot
    · rw [htables.usedMap, (htables.objs p).1]
      exact hused

/-- The step accepts a connection on an object whose earlier operations are not all completed. -/
def Reuses (s : JmyTcpServer) (e : ServerEvent) : Prop :=
  ∃ block onConnect p rest, e = .accept block onConnect ∧ s.conns.length < s.maxConn ∧
    s.freeList = p :: rest ∧ (s.objs p).pending ≠ []

theorem Pool.step {s s' : JmyTcpServer} {e : ServerEvent} (hs : Pool s) (hnot : ¬Reuses s e)
    (h : s.step e = some s') : Pool s' := by
  cases e with
  | accept block onConnect =>
      simp only [JmyTcpServer.step, JmyTcpServer.onAccept] at h
      split_ifs at h with hon hfull
      · cases h
        exact hs
      · obtain ⟨r, hr, rfl⟩ := Option.map_eq_some_iff.1 h
        have hpool : Pool r.2 := by
          apply hs.acceptNew _ hr
          intro p rest hfree
          by_contra hpending
          exact hnot ⟨block, onConnect, p, rest, rfl, not_le.1 hfull, hfree, hpending⟩
        split_ifs
        · exact ⟨hpool.used, hpool.freeList, hpool.nodup, hpool.conns⟩
        · exact hpool
  | acceptError again =>
      simp only [JmyTcpServer.step] at h
      split_ifs at h
      cases h
      exact ⟨hs.used, hs.freeList, hs.nodup, hs.conns⟩
  | complete p i r => exact hs.sameTables (SameTables.complete h)
  | call id k => exact hs.sameTables (SameTables.call h)
  | runConns handlers now past => exact hs.runConns h

/-- What other connections and the program can see of a connection. -/
def SameFace (c c' : JmyTcpConnection) : Prop :=
  c'.state = c.state ∧ c'.buffer = c.buffer ∧ c'.sendingData = c.sendingData ∧
    c'.sockOpen = c.sockOpen ∧ c'.trace = c.trace

/-- The completion of an operation that was started under another id changes nothing of an object that
is in use. -/
def NoCrossTalk (s : JmyTcpServer) : Prop :=
  ∀ p i r q s', s.usedMap (s.objs p).id = some p → (s.objs p).pending[i]? = some q →
    q.owner ≠ (s.objs p).id → s.step (.complete p i r) = some s' → SameFace (s.view p) (s'.view p)

/-- In every run in which `accept_new` hands out only objects whose operations are all completed, there
is no cross-talk between successive uses of an object. -/
theorem no_crossTalk {maxConn : ℕ} {useSendBuffList : Bool} {es : List ServerEvent} {t : JmyTcpServer}
    (halong : serverMachine.Along (fun s e => ¬Reuses s e) (.start maxConn useSendBuffList) es)
    (hrun : serverMachine.run (.start maxConn useSendBuffList) es = some t) : NoCrossTalk t := by
  have hpool : Pool t := Machine.invariant_along (I := Pool) (fun s e s' hs hnot => hs.step hnot)
    (Pool.start maxConn useSendBuffList) halong hrun
  intro p i r q s' hused hq howner
  exact absurd ((hpool.used _ p hused).2.2 q (List.mem_of_getElem? hq)) howner

/-- Handlers that do nothing. -/
def ServerHandlers.none : ServerHandlers := ⟨fun _ => .none, .none, .none⟩

/-- A connection fails, its object is freed and serves the next connection. -/
theorem no_crossTalk_run : ∃ t, serverMachine.run (.start 1 true)
    [.accept .empty [], .complete 0 0 .failed, .runConns .none 0 (fun _ => 0), .accept .empty []] = some t ∧
      NoCrossTalk t := by
  have hdefined : (serverMachine.run (.start 1 true) [.accept .empty [], .complete 0 0 .failed,
      .runConns .none 0 (fun _ => 0), .accept .empty []]).isSome = true := rfl
  have hfreed : (serverMachine.run (.start 1 true) [.accept .empty [], .complete 0 0 .failed,
      .runConns .none 0 (fun _ => 0)]).map (fun s => (s.freeList, (s.objs 0).pending)) =
        some ([0], []) := rfl
  obtain ⟨t, ht⟩ := Option.isSome_iff_exists.1 hdefined
  refine ⟨t, ht, @no_crossTalk 1 true _ t ?_ ht⟩
  refine ⟨?_, fun s₁ h₁ => ⟨?_, fun s₂ h₂ => ⟨?_, fun s₃ h₃ => ⟨?_, fun _ _ => trivial⟩⟩⟩⟩
  · rintro ⟨block, onConnect, p, rest, -, -, hfree, hpending⟩
    cases hfree
    exact hpending rfl
  · rintro ⟨block, onConnect, p, rest, h, -⟩
    cases h
  · rintro ⟨block, onConnect, p, rest, h, -⟩
    cases h
  · rintro ⟨block, onConnect, p, rest, -, -, hfree, hpending⟩
    have hrun : serverMachine.run (.start 1 true) [.accept .empty [], .complete 0 0 .failed,
        .runConns .none 0 (fun _ => 0)] = some s₃ := by
      simp only [Machine.run, h₁, h₂, h₃, Option.bind_some]
    rw [hrun, Option.map_some, Option.some.injEq, Prod.mk.injEq] at hfreed
    rw [hfreed.1] at hfree
    cases hfree
    exact hpending hfreed.2

theorem view_state (s : JmyTcpServer) (p : ℕ) : (s.view p).state = (s.objs p).state := by
  rw [JmyTcpServer.view]
  split <;> rfl

theorem view_pending (s : JmyTcpServer) (p : ℕ) : (s.view p).pending = (s.objs p).pending := by
  rw [JmyTcpServer.view]
  split <;> rfl

theorem modify_objs (s : JmyTcpServer) (p : ℕ) (f : JmyTcpConnection → JmyTcpConnection) :
    (s.modify p f).objs p = f (s.view p) := Function.update_self _ _ _

/-- An object is ready to receive when `accept_new` starts it. -/
theorem equipped_receptive {s : JmyTcpServer} {p : ℕ} (b : ℕ) (m : JmyConnectionBufferMgr)
    (block : JmyDoubleSessionBuffer) (htype : (s.objs p).connType = .passive) :
    ((s.equipped p b m block).view p).Receptive := by
  have hobj : (s.equipped p b m block).objs p =
      { s.objs p with sockOpen := true, hasHandler := true } := Function.update_self _ _ _
  have hbuf : (s.equipped p b m block).bufId p = some b := Function.update_self _ _ _
  simp only [JmyTcpConnection.Receptive, JmyTcpServer.view, hbuf, hobj]
  exact ⟨htype, trivial, trivial⟩

/-- An object that is handed out with an operation of an earlier connection: when that operation fails,
the new connection is closed. -/
theorem reused_crossTalk {s s' : JmyTcpServer} {block : JmyDoubleSessionBuffer} {id : ℤ} {p : ℕ}
    {rest : List ℕ} {q : Pending} (h : s.acceptNew block [] = some (id, s')) (hid : 0 ≤ id)
    (hfree : s.freeList = p :: rest) (htype : (s.objs p).connType = .passive)
    (hq : q ∈ (s.objs p).pending) (howner : q.owner ≠ id) : ¬NoCrossTalk s' := by
  obtain ⟨id', g, -, ⟨-, hr⟩ | ⟨p', s₁, hget, hr | ⟨b, m, s₂, hs₂, hcalls, hid'⟩⟩⟩ := acceptNew_cases h
  · simp only [Prod.mk.injEq] at hr
    omega
  · simp only [Prod.mk.injEq] at hr
    omega
  obtain ⟨-, hfront, -, -, hmap, hobjs⟩ := getFree_eq_some hget
  obtain rfl : p = p' := by
    rw [hfree] at hfront
    exact (List.cons.inj hfront).1
  obtain rfl : id = id' := hid'
  have hs' : s' = { s₂ with conns := s₂.conns ++ [p] } := (Option.some.inj hcalls).symm
  have hself : s₁.objs p = { s.objs p with id := id } := by rw [hobjs, Function.update_self]
  -- the object after its start: connected, under the new id, with the old operation still pending
  have hpassive : (s₁.objs p).connType = .passive := by
    rw [hself]
    exact htype
  have hrec := equipped_receptive b m block hpassive
  have htables := SameTables.equipped s₁ p b m block
  have hobj : s'.objs p =
      { ((s₁.equipped p b m block).view p).startOp .readHead with state := .connected } := by
    rw [hs', hs₂]
    exact (modify_objs _ p _).trans (startRecv_receptive hrec)
  have hobjId : (s'.objs p).id = id := by
    rw [hobj]
    exact ((SameTables.view _ p).1.trans (htables.objs p).1).trans (congrArg JmyTcpConnection.id hself)
  have hpending : q ∈ (s'.objs p).pending := by
    have hsock : (s₁.equipped p b m block).objs p =
        { s₁.objs p with sockOpen := true, hasHandler := true } := Function.update_self _ _ _
    rw [hobj]
    apply List.mem_append_left
    rw [view_pending, hsock, hself]
    exact hq
  obtain ⟨i, hi⟩ := List.mem_iff_getElem?.1 hpending
  have hused : s'.usedMap (s'.objs p).id = some p := by
    rw [hobjId, hs', hs₂]
    exact (congrFun hmap id).trans (Function.update_self _ _ _)
  have hstep : s'.step (.complete p i .failed) =
      some (s'.modify p fun _ => ((s'.view p).popped i).forceClose) := by
    have hview : (s'.view p).pending[i]? = some q := by
      rw [view_pending]
      exact hi
    have hcomplete := complete_of_possible (r := .failed) hview rfl
    simp only [JmyTcpConnection.step] at hcomplete
    simp only [JmyTcpServer.step, JmyTcpServer.complete, hcomplete, Option.map_some,
      JmyTcpConnection.onComplete]
  intro hno
  have hsame := (hno p i .failed q _ hused hi (hobjId ▸ howner) hstep).1
  rw [view_state, view_state, modify_objs, forceClose_state, hobj] at hsame
  cases hsame

/-- The read of connection 1 is cancelled by `force_close`, but its handler runs only after the object
was freed and handed out for connection 2, which it closes. -/
theorem stale_read_closes : ∃ t, serverMachine.run (.start 1 true)
    [.accept .empty [], .call 1 .forceClose, .runConns .none 0 (fun _ => 0), .accept .empty []] = some t ∧
      ¬NoCrossTalk t := by
  have hdefined : (serverMachine.run (.start 1 true) [.accept .empty [], .call 1 .forceClose,
      .runConns .none 0 (fun _ => 0), .accept .empty []]).map (fun s => (s.usedMap (s.objs 0).id,
        (s.objs 0).pending[0]?, (s.objs 0).id, (s.view 0).state, (s.step (.complete 0 0 .failed)).map
          fun s' => (s'.view 0).state)) =
      some (some 0, some ⟨.readHead, 1, true⟩, 2, .connected, some .disconnected) := rfl
  obtain ⟨t, ht, hsees⟩ := Option.map_eq_some_iff.1 hdefined
  simp only [Prod.mk.injEq] at hsees
  obtain ⟨hused, hpending, hid, hopen, hclose⟩ := hsees
  obtain ⟨s', hstep, hclosed⟩ := Option.map_eq_some_iff.1 hclose
  refine ⟨t, ht, fun hno => ?_⟩
  have howner : (1 : ℤ) ≠ (t.objs 0).id := by
    rw [hid]
    decide
  have hsame := (hno 0 0 .failed _ s' hused hpending howner hstep).1
  rw [hopen, hclosed] at hsame
  cases hsame

end JmyGame
