import JmyGame.MysqlPool

/-! Commands on their way through the pool. A connector executes the commands that were pushed to it in their
order; a statement arrives with the length that sixteen bits leave of its own. Every read command gives a
result with its callback, unless a reading connector gets no result set for it. -/

namespace JmyGame

open CArith

namespace ConnectorInfo

variable {γ ρ : Type} {c : ConnectorInfo γ ρ}

/-- The query of a command: its bytes and their number. -/
def query (info : CmdInfo γ) : List Byte × ℕ := (info.sql, info.sqlLen.toNat)

/-- The query that is made of a text. -/
def cutQuery (text : List Byte) : List Byte × ℕ := (text.take (text.length % 2 ^ 16), text.length % 2 ^ 16)

/-- The record of a connector agrees with its queues. -/
structure Tracked (c : ConnectorInfo γ ρ) : Prop where
  pushed : c.pushed = c.done ++ c.ci.toList ++ c.cmdList
  texts : c.pushed.map query = c.texts.map cutQuery
  queries : c.queries = c.done.map query
  entries : c.entries = c.delivered ++ c.resList
  invoked : c.invoked = c.delivered.filterMap ResultInfo.cbFunc

theorem tracked_empty : (empty : ConnectorInfo γ ρ).Tracked := ⟨rfl, rfl, rfl, rfl, rfl⟩

/-- A command is popped from the front of the queue by a connector that has none. -/
theorem pop_eq {c' : ConnectorInfo γ ρ} (h : c.pop = some c') :
    ∃ info rest, c.ci = none ∧ c.cmdList = info :: rest ∧ c' = { c with ci := some info, cmdList := rest } := by
  unfold ConnectorInfo.pop at h
  split at h
  · rename_i info rest hci hlist
    exact ⟨info, rest, hci, hlist, (Option.some.inj h).symm⟩
  · cases h

namespace Tracked

theorem push {text : List Byte} {info : CmdInfo γ} (h : c.Tracked) (hinfo : query info = cutQuery text) :
    (c.push text info).Tracked where
  pushed := by
    change c.pushed ++ [info] = _ ++ (c.cmdList ++ [info])
    rw [h.pushed, List.append_assoc _ c.cmdList]
    rfl
  texts := by
    change (c.pushed ++ [info]).map query = (c.texts ++ [text]).map cutQuery
    rw [List.map_append, List.map_append, h.texts, List.map_singleton, List.map_singleton, hinfo]
  queries := h.queries
  entries := h.entries
  invoked := h.invoked

theorem pop {c' : ConnectorInfo γ ρ} (h : c.Tracked) (hpop : c.pop = some c') : c'.Tracked := by
  obtain ⟨info, rest, hci, hlist, rfl⟩ := pop_eq hpop
  refine ⟨?_, h.texts, h.queries, h.entries, h.invoked⟩
  rw [h.pushed, hci, hlist]
  simp

theorem deliver (h : c.Tracked) : c.deliver.Tracked := by
  unfold ConnectorInfo.deliver
  split
  · exact h
  · rename_i ri rest hlist
    refine ⟨h.pushed, h.texts, h.queries, ?_, ?_⟩
    · rw [h.entries, hlist]
      simp
    · rw [h.invoked, List.filterMap_append]
      cases hcb : ri.cbFunc <;> simp [hcb]

/-- A command is done: it has been queried, and its result may have been pushed. -/
theorem execute {c' : ConnectorInfo γ ρ} {info : CmdInfo γ} {news : List (ResultInfo γ ρ)} {res : Option ρ}
    (h : c.Tracked) (hci : c.ci = some info)
    (hc' : c' = { c with
      res := res
      ci := none
      done := c.done ++ [info]
      queries := c.queries ++ [query info]
      resList := c.resList ++ news
      entries := c.entries ++ news }) : c'.Tracked := by
  subst hc'
  refine ⟨?_, h.texts, ?_, ?_, h.invoked⟩
  · rw [h.pushed, hci]
    simp
  · rw [h.queries, List.map_append, List.map_singleton]
  · rw [h.entries, List.append_assoc]

end Tracked

/-- What the thread function of a side does with a command: it pushes one result with the callback of the command,
or none for a write command and, at a reading connector, for a result that is empty. -/
theorem threadFunc_eq (side : PoolSide) (c : ConnectorInfo γ ρ) (info : CmdInfo γ) (out : QueryResult ρ) :
    ∃ res news, MysqlConnectorPool.threadFunc side c info out = { c with
      res := res
      ci := none
      done := c.done ++ [info]
      queries := c.queries ++ [query info]
      resList := c.resList ++ news
      entries := c.entries ++ news } ∧
      (news = [] ∧ (info.writeCmd = true ∨ side = .read ∧ (c.realReadQuery info out).res = none) ∨
        (∃ r, news = [⟨r, info.callbackFunc⟩]) ∧ info.writeCmd = false ∧
          (side = .read → (c.realReadQuery info out).res ≠ none)) ∧
      (side = .read → res = none) := by
  cases side with
  | read =>
      unfold MysqlConnectorPool.threadFunc connectorRead
      dsimp only
      split_ifs with hwrite hempty
      · exact ⟨none, [], by simp [realReadQuery, realQuery, finish, query], Or.inl ⟨rfl, Or.inl hwrite⟩,
          fun _ => rfl⟩
      · exact ⟨none, [], by simp [realReadQuery, realQuery, finish, query],
          Or.inl ⟨rfl, Or.inr ⟨rfl, Option.isNone_iff_eq_none.1 hempty⟩⟩, fun _ => rfl⟩
      · refine ⟨none, _, rfl, Or.inr ⟨⟨_, rfl⟩, by simpa using hwrite, fun _ hnone => hempty ?_⟩, fun _ => rfl⟩
        exact Option.isNone_iff_eq_none.2 hnone
  | write =>
      unfold MysqlConnectorPool.threadFunc connectorWrite
      dsimp only
      split_ifs with hread
      · exact ⟨none, _, rfl, Or.inr ⟨⟨_, rfl⟩, hread, fun h => nomatch h⟩, fun _ => rfl⟩
      · exact ⟨_, [], by simp only [realQuery, finish, query, List.append_nil]; rfl,
          Or.inl ⟨rfl, Or.inl (by simpa using hread)⟩, fun h => nomatch h⟩

end ConnectorInfo

namespace MysqlConnectorPool

open ConnectorInfo

variable {γ ρ : Type} {p p' : MysqlConnectorPool γ ρ}

theorem modify_conns (p : MysqlConnectorPool γ ρ) (side : PoolSide) (i : ℕ)
    (f : ConnectorInfo γ ρ → ConnectorInfo γ ρ) (side' : PoolSide) (i' : ℕ) :
    (p.modify side i f).conns side' i' =
      if side' = side ∧ i' = i then f (p.conns side' i') else p.conns side' i' := by
  unfold modify
  dsimp only
  by_cases hside : side' = side
  · subst hside
    rw [Function.update_self]
    by_cases hi : i' = i
    · subst hi
      rw [Function.update_self, if_pos ⟨rfl, rfl⟩]
    · rw [Function.update_of_ne hi, if_neg fun h => hi h.2]
  · rw [Function.update_of_ne hside, if_neg fun h => hside h.1]

theorem runSide_size (p : MysqlConnectorPool γ ρ) (side : PoolSide) (n : ℕ) :
    (p.runSide side n).size = p.size := by
  induction n with
  | zero => rfl
  | succ n ih => exact ih

theorem runSide_conns (p : MysqlConnectorPool γ ρ) (side : PoolSide) (n : ℕ) (side' : PoolSide) (i : ℕ) :
    (p.runSide side n).conns side' i =
      if side' = side ∧ i < n then (p.conns side' i).deliver else p.conns side' i := by
  induction n with
  | zero => rw [if_neg fun h => absurd h.2 (Nat.not_lt_zero i), runSide]
  | succ n ih =>
      rw [runSide, modify_conns, ih]
      by_cases hside : side' = side
      · by_cases hi : i = n
        · rw [if_pos ⟨hside, hi⟩, if_neg fun h => absurd h.2 (by omega), if_pos ⟨hside, by omega⟩]
        · rw [if_neg fun h => hi h.2]
          exact if_congr (and_congr_right fun _ => by omega) rfl rfl
      · rw [if_neg fun h => hside h.1, if_neg fun h => hside h.1, if_neg fun h => hside h.1]

/-- `run` takes a result from every connector that has one. -/
theorem run_conns (p : MysqlConnectorPool γ ρ) (side : PoolSide) (i : ℕ) :
    p.run.conns side i = if i < p.size side then (p.conns side i).deliver else p.conns side i := by
  unfold run
  dsimp only
  rw [runSide_conns, runSide_conns, runSide_size]
  cases side with
  | read => rw [if_neg fun h => nomatch h.1]; exact if_congr (and_iff_right rfl) rfl rfl
  | write =>
      rw [if_neg (c := _ ∧ i < p.size .read) fun h => nomatch h.1]
      exact if_congr (and_iff_right rfl) rfl rfl

theorem query_cmdInfo (sql : List Byte) (callback : Option γ) (writeCmd : Bool) :
    query (MysqlDBManager.cmdInfo sql callback writeCmd) = cutQuery sql := by
  rw [query, cutQuery, MysqlDBManager.cmdInfo_sql, MysqlDBManager.cmdInfo_sqlLen]

/-- What a step does to a connector. -/
inductive ConnMove (side : PoolSide) (i : ℕ) (e : PoolEvent γ ρ) (c c' : ConnectorInfo γ ρ) : Prop where
  | same (h : c' = c)
  | push (text : List Byte) (info : CmdInfo γ) (hinfo : query info = cutQuery text) (h : c' = c.push text info)
  | pop (h : c.pop = some c')
  | execute (info : CmdInfo γ) (out : QueryResult ρ) (he : e = .execute side i out) (hci : c.ci = some info)
      (h : c' = threadFunc side c info out)
  | deliver (h : c' = c.deliver)

theorem pushAt_move {side : PoolSide} {index : ℤ} {text : List Byte} {info : CmdInfo γ} {e : PoolEvent γ ρ}
    (hinfo : query info = cutQuery text) (h : p.pushAt side index text info = some p') (side' : PoolSide)
    (i : ℕ) : ConnMove side' i e (p.conns side' i) (p'.conns side' i) := by
  obtain ⟨-, heq⟩ := Option.ite_none_right_eq_some.1 h
  cases heq
  rw [modify_conns]
  split_ifs
  · exact .push text info hinfo rfl
  · exact .same rfl

/-- A step leaves a connector as it is, pushes to it, pops from it, executes its command or delivers its result. -/
theorem step_move {e : PoolEvent γ ρ} (h : p.step e = some p') (side : PoolSide) (i : ℕ) :
    ConnMove side i e (p.conns side i) (p'.conns side i) := by
  cases e with
  | pushRead sql getResultFunc => exact pushAt_move (query_cmdInfo sql _ _) h side i
  | pushWrite sql => exact pushAt_move (query_cmdInfo sql _ _) h side i
  | pushGetLastInsertId getLastInsertIdFunc => exact pushAt_move (by rfl) h side i
  | pop side' i' =>
      obtain ⟨-, heq⟩ := Option.ite_none_right_eq_some.1 h
      obtain ⟨c', hpop, rfl⟩ := Option.map_eq_some_iff.1 heq
      rw [modify_conns]
      split_ifs with hsame
      · obtain ⟨rfl, rfl⟩ := hsame
        exact .pop hpop
      · exact .same rfl
  | execute side' i' out =>
      obtain ⟨-, heq⟩ := Option.ite_none_right_eq_some.1 h
      obtain ⟨info, hci, rfl⟩ := Option.map_eq_some_iff.1 heq
      rw [modify_conns]
      split_ifs with hsame
      · obtain ⟨rfl, rfl⟩ := hsame
        exact .execute info out rfl hci rfl
      · exact .same rfl
  | run =>
      cases h
      rw [run_conns]
      split_ifs
      · exact .deliver rfl
      · exact .same rfl

theorem tracked_step {e : PoolEvent γ ρ} (h : ∀ side i, (p.conns side i).Tracked) (hstep : p.step e = some p')
    (side : PoolSide) (i : ℕ) : (p'.conns side i).Tracked := by
  cases step_move hstep side i with
  | same heq => exact heq ▸ h side i
  | push text info hinfo heq => exact heq ▸ (h side i).push hinfo
  | pop hpop => exact (h side i).pop hpop
  | execute info out he hci heq =>
      obtain ⟨res, news, hfunc, -⟩ := threadFunc_eq side (p.conns side i) info out
      exact (h side i).execute hci (heq.trans hfunc)
  | deliver heq => exact heq ▸ (h side i).deliver

/-- The record of every connector agrees with its queues in every run. -/
theorem tracked_run {size : PoolSide → ℕ} {es : List (PoolEvent γ ρ)}
    (hrun : (poolMachine γ ρ).run (.start size) es = some p) (side : PoolSide) (i : ℕ) :
    (p.conns side i).Tracked :=
  Machine.invariant_run (m := poolMachine γ ρ) (I := fun p => ∀ side i, (p.conns side i).Tracked)
    (fun _ _ _ h hstep => tracked_step h hstep) (fun _ _ => tracked_empty) hrun side i

end MysqlConnectorPool

/-- Whatever is done with the pool: where a statement was pushed to a connector and its turn has come, the query has
the bytes of the statement and their number. -/
def ExecutedInFull (γ ρ : Type) (s : List Byte) : Prop :=
  ∀ size es p side i (k : ℕ) q, (poolMachine γ ρ).run (.start size) es = some p →
    (p.conns side i).texts[k]? = some s → (p.conns side i).queries[k]? = some q → q = (s, s.length)

/-- The query of a statement is what sixteen bits leave of it. -/
theorem query_of_text {γ ρ : Type} {c : ConnectorInfo γ ρ} {k : ℕ} {s : List Byte} {q : List Byte × ℕ}
    (h : c.Tracked) (htext : c.texts[k]? = some s) (hquery : c.queries[k]? = some q) :
    q = ConnectorInfo.cutQuery s := by
  have hall : (c.queries ++ (c.ci.toList ++ c.cmdList).map ConnectorInfo.query)[k]? =
      some (ConnectorInfo.cutQuery s) := by
    rw [h.queries, ← List.map_append, ← List.append_assoc, ← h.pushed, h.texts, List.getElem?_map, htext]
    rfl
  rw [List.getElem?_append_left (List.getElem?_eq_some_iff.1 hquery).1, hquery, Option.some.injEq] at hall
  exact hall

/-- A statement that is pushed first, popped and executed by a writing connector. -/
def writeRun (γ ρ : Type) (s : List Byte) : List (PoolEvent γ ρ) :=
  [.pushWrite s, .pop .write 0, .execute .write 0 .noResult]

theorem writeRun_queries (γ ρ : Type) (s : List Byte) :
    ∃ p, (poolMachine γ ρ).run (.start fun _ => 1) (writeRun γ ρ s) = some p ∧
      (p.conns .write 0).texts[0]? = some s ∧
      (p.conns .write 0).queries[0]? = some (ConnectorInfo.cutQuery s) := by
  refine ⟨_, rfl, rfl, ?_⟩
  rw [← MysqlConnectorPool.query_cmdInfo (γ := γ) s none true]
  rfl

theorem cutQuery_eq_iff (s : List Byte) : ConnectorInfo.cutQuery s = (s, s.length) ↔ s.length < 2 ^ 16 := by
  constructor
  · intro h
    have hlen : s.length % 2 ^ 16 = s.length := congrArg Prod.snd h
    omega
  · intro h
    unfold ConnectorInfo.cutQuery
    rw [Nat.mod_eq_of_lt h, List.take_length]

/-- A statement that is executed in full is not cut where it is pushed first. -/
theorem length_lt_of_executedInFull {γ ρ : Type} {s : List Byte} (h : ExecutedInFull γ ρ s) : s.length < 2 ^ 16 := by
  obtain ⟨p, hrun, htext, hquery⟩ := writeRun_queries γ ρ s
  exact (cutQuery_eq_iff s).1 (h _ _ p .write 0 0 _ hrun htext hquery)

/-- A statement is executed in full exactly when its length has at most sixteen bits. -/
theorem executedInFull_iff (γ ρ : Type) (s : List Byte) : ExecutedInFull γ ρ s ↔ s.length < 2 ^ 16 := by
  constructor
  · exact length_lt_of_executedInFull
  · rw [← cutQuery_eq_iff]
    intro h size es p side i k q hrun htext hquery
    rw [query_of_text (MysqlConnectorPool.tracked_run hrun side i) htext hquery, h]

/-- A statement of 65536 bytes is executed without a byte. -/
theorem long_statement_cut : ¬ExecutedInFull Unit Unit (List.replicate 65536 65) := by
  intro h
  have hlen := length_lt_of_executedInFull h
  rw [List.length_replicate] at hlen
  omega

namespace ConnectorInfo

variable {γ ρ : Type} {c : ConnectorInfo γ ρ}

/-- The read commands among commands. -/
def readCmds (cmds : List (CmdInfo γ)) : List (CmdInfo γ) := cmds.filter fun info => !info.writeCmd

/-- Read commands and callbacks are one-to-one: every read command that is done has given one result with its
callback, in the order of the commands; the results are delivered in this order; and when the queues are empty,
the callbacks of the read commands that were pushed have all been called, each once. -/
structure OneToOne (c : ConnectorInfo γ ρ) : Prop where
  entries : c.entries.map ResultInfo.cbFunc = (readCmds c.done).map CmdInfo.callbackFunc
  delivered : c.delivered.map ResultInfo.cbFunc <+: (readCmds c.pushed).map CmdInfo.callbackFunc
  invoked : c.cmdList = [] → c.ci = none → c.resList = [] →
    c.invoked = (readCmds c.pushed).filterMap CmdInfo.callbackFunc

theorem readCmds_append (cmds cmds' : List (CmdInfo γ)) :
    readCmds (cmds ++ cmds') = readCmds cmds ++ readCmds cmds' := List.filter_append _ _

/-- It is enough that the results are those of the commands that are done. -/
theorem oneToOne_of_entries (h : c.Tracked)
    (hentries : c.entries.map ResultInfo.cbFunc = (readCmds c.done).map CmdInfo.callbackFunc) : c.OneToOne where
  entries := hentries
  delivered := by
    have hpushed : (readCmds c.pushed).map CmdInfo.callbackFunc =
        c.delivered.map ResultInfo.cbFunc ++ (c.resList.map ResultInfo.cbFunc ++
          (readCmds (c.ci.toList ++ c.cmdList)).map CmdInfo.callbackFunc) := by
      rw [h.pushed, List.append_assoc, readCmds_append, List.map_append, ← hentries, h.entries,
        List.map_append, List.append_assoc]
    rw [hpushed]
    exact List.prefix_append _ _
  invoked := by
    intro hlist hci hres
    have hentries' := congrArg (List.filterMap id) hentries
    rw [h.entries, hres, List.append_nil, List.filterMap_map, List.filterMap_map] at hentries'
    rw [h.invoked, h.pushed, hlist, hci, Option.toList_none, List.append_nil, List.append_nil]
    exact hentries'

/-- A command is done with the results that it gives. -/
theorem entries_done {info : CmdInfo γ} {news : List (ResultInfo γ ρ)}
    (h : c.entries.map ResultInfo.cbFunc = (readCmds c.done).map CmdInfo.callbackFunc) :
    (c.entries ++ news).map ResultInfo.cbFunc = (readCmds (c.done ++ [info])).map CmdInfo.callbackFunc ↔
      news.map ResultInfo.cbFunc = (readCmds [info]).map CmdInfo.callbackFunc := by
  rw [List.map_append, readCmds_append, List.map_append, h, List.append_cancel_left_eq]

end ConnectorInfo

namespace MysqlConnectorPool

open ConnectorInfo

variable {γ ρ : Type} {p p' : MysqlConnectorPool γ ρ}

/-- The database gives a result set for the read command that a reading connector executes. -/
def GivesResult (p : MysqlConnectorPool γ ρ) : PoolEvent γ ρ → Prop
  | .execute .read i out => i < p.size .read → ∀ info, (p.conns .read i).ci = some info →
      info.writeCmd = false → ∃ res, out = .stored res
  | _ => True

/-- What a run keeps: the records, the results of the commands that are done, and that reading connectors hold
no result between commands. -/
structure Answering (p : MysqlConnectorPool γ ρ) : Prop where
  tracked : ∀ side i, (p.conns side i).Tracked
  entries : ∀ side i, (p.conns side i).entries.map ResultInfo.cbFunc =
    (readCmds (p.conns side i).done).map CmdInfo.callbackFunc
  res : ∀ i, (p.conns .read i).res = none

theorem Answering.oneToOne (h : p.Answering) (side : PoolSide) (i : ℕ) : (p.conns side i).OneToOne :=
  oneToOne_of_entries (h.tracked side i) (h.entries side i)

theorem realReadQuery_res {c : ConnectorInfo γ ρ} (h : c.res = none) (info : CmdInfo γ) (out : QueryResult ρ) :
    (c.realReadQuery info out).res ≠ none ↔ ∃ res, out = .stored res := by
  cases out with
  | failed => exact iff_of_false (not_not.2 rfl) fun ⟨_, h'⟩ => nomatch h'
  | noResult => exact iff_of_false (not_not.2 h) fun ⟨_, h'⟩ => nomatch h'
  | stored res => exact iff_of_true (Option.some_ne_none res) ⟨res, rfl⟩

/-- A connector that executes a command pushes what it should exactly when it is no reading connector without a
result set for a read command. -/
theorem execute_entries {c : ConnectorInfo γ ρ} {side : PoolSide} {info : CmdInfo γ} {out : QueryResult ρ}
    (h : c.entries.map ResultInfo.cbFunc = (readCmds c.done).map CmdInfo.callbackFunc)
    (hres : side = .read → c.res = none) :
    (threadFunc side c info out).entries.map ResultInfo.cbFunc =
        (readCmds (threadFunc side c info out).done).map CmdInfo.callbackFunc ↔
      (side = .read → info.writeCmd = false → ∃ res, out = .stored res) := by
  obtain ⟨res, news, heq, hnews, -⟩ := threadFunc_eq side c info out
  rw [heq]
  refine (entries_done h).trans ?_
  rcases hnews with ⟨rfl, hwrite | ⟨rfl, hempty⟩⟩ | ⟨⟨r, rfl⟩, hread, hsome⟩
  · have hnone : readCmds [info] = [] := by simp [readCmds, hwrite]
    rw [hnone]
    exact iff_of_true rfl fun _ hread => absurd hwrite (by rw [hread]; decide)
  · cases hwrite : info.writeCmd with
    | true => simp [readCmds, hwrite]
    | false =>
        refine iff_of_false (by simp [readCmds, hwrite]) fun hgives => ?_
        exact (realReadQuery_res (hres rfl) info out).2 (hgives rfl rfl) hempty
  · have hone : readCmds [info] = [info] := by simp [readCmds, hread]
    rw [hone]
    exact iff_of_true rfl fun hside _ => (realReadQuery_res (hres hside) info out).1 (hsome hside)

theorem Answering.step {e : PoolEvent γ ρ} (h : p.Answering) (hgives : p.GivesResult e)
    (hstep : p.step e = some p') : p'.Answering := by
  refine ⟨fun side i => tracked_step h.tracked hstep side i, ?_, ?_⟩
  · intro side i
    cases step_move hstep side i with
    | same heq => exact heq ▸ h.entries side i
    | push text info hinfo heq => exact heq ▸ h.entries side i
    | pop hpop =>
        obtain ⟨info, rest, -, -, heq⟩ := pop_eq hpop
        exact heq ▸ h.entries side i
    | execute info out he hci heq =>
        subst he
        rw [heq]
        have hres : side = .read → (p.conns side i).res = none := fun hside => hside ▸ h.res i
        refine (execute_entries (h.entries side i) hres).2 ?_
        rintro rfl hread
        exact hgives (Option.ite_none_right_eq_some.1 hstep).1 info hci hread
    | deliver heq =>
        rw [heq]
        unfold ConnectorInfo.deliver
        split <;> exact h.entries side i
  · intro i
    cases step_move hstep .read i with
    | same heq => exact heq ▸ h.res i
    | push text info hinfo heq => exact heq ▸ h.res i
    | pop hpop =>
        obtain ⟨info, rest, -, -, heq⟩ := pop_eq hpop
        exact heq ▸ h.res i
    | execute info out he hci heq =>
        obtain ⟨res, news, hfunc, -, hnone⟩ := threadFunc_eq .read (p.conns .read i) info out
        rw [heq, hfunc]
        exact hnone rfl
    | deliver heq =>
        rw [heq]
        unfold ConnectorInfo.deliver
        split <;> exact h.res i

/-- Where a step leaves read commands and callbacks one-to-one, the database has given the result set. -/
theorem Answering.givesResult {e : PoolEvent γ ρ} (h : p.Answering)
    (hone : ∀ p', p.step e = some p' → ∀ side i, (p'.conns side i).OneToOne) : p.GivesResult e := by
  cases e with
  | execute side i out =>
      cases side with
      | write => trivial
      | read =>
          intro hi info hci hread
          have hstep : p.step (.execute .read i out) =
              some (p.modify .read i fun c => threadFunc .read c info out) := by
            rw [MysqlConnectorPool.step, if_pos hi, hci, Option.map_some]
          have hentries := (hone _ hstep .read i).entries
          rw [modify_conns, if_pos ⟨rfl, rfl⟩] at hentries
          exact (execute_entries (h.entries .read i) fun _ => h.res i).1 hentries rfl hread
  | _ => trivial

theorem answering_start (size : PoolSide → ℕ) : (start size : MysqlConnectorPool γ ρ).Answering :=
  ⟨fun _ _ => tracked_empty, fun _ _ => rfl, fun _ => rfl⟩

/-- Read commands and callbacks are one-to-one in every state that a run reaches exactly when the database gives a
result set for every read command that a reading connector executes. -/
theorem callbacks_oneToOne_iff (size : PoolSide → ℕ) (es : List (PoolEvent γ ρ)) :
    (poolMachine γ ρ).Along GivesResult (.start size) es ↔
      ∀ es₁ es₂ p, es = es₁ ++ es₂ → (poolMachine γ ρ).run (.start size) es₁ = some p →
        ∀ side i, (p.conns side i).OneToOne :=
  Machine.along_iff_reached (I := Answering) (fun _ _ _ h hgives hstep => h.step hgives hstep)
    (fun _ h => h.oneToOne) (fun _ _ h hone => h.givesResult hone) (answering_start size) es

/-- A select that fails. -/
def failingRead : List (PoolEvent Unit Unit) := [.pushRead [65] (some ()), .pop .read 0, .execute .read 0 .failed]

/-- The callback of a select that fails is never called. -/
theorem failed_read_dropped : ∃ p, (poolMachine Unit Unit).run (.start fun _ => 1) failingRead = some p ∧
    ¬(p.conns .read 0).OneToOne := by
  refine ⟨_, rfl, fun h => ?_⟩
  have hinvoked := h.invoked rfl rfl rfl
  cases hinvoked

end MysqlConnectorPool

end JmyGame
