import Mathlib.Data.List.TakeWhile
import JmyGame.ConfigServer

/-! `ConfGateList`: the rows of the JSON file become messages in an array and in a map by their ids. The variables of
`platform` and `channel_code` keep the texts of earlier rows, a port goes through a `short`, and `reset` leaves the
messages where a later load writes over them. -/

namespace JmyGame

open CArith

/-- A value of the parsed document. -/
inductive JsonValue where
  | string (s : Str)
  | int (n : ℤ)
  | other
  deriving DecidableEq, Repr

/-- The members of a row that are read; one that has to be there and is not reads as `other`. -/
structure JsonRow where
  serverName : JsonValue
  serverId : JsonValue
  serverIp : JsonValue
  serverPort : JsonValue
  platform : Option JsonValue
  channelCode : Option JsonValue
  deriving DecidableEq, Repr

namespace JsonValue

/-- `GetString`, copied from a `char*` up to its zero byte, when the value is a string. -/
def getString : JsonValue → Option Str
  | .string s => some (s.takeWhile (· ≠ 0))
  | _ => none

def getInt : JsonValue → Option ℤ
  | .int n => some n
  | _ => none

/-- A member that may be missing leaves its variable as it is then. -/
def getOptional (old : Str) : Option JsonValue → Option Str
  | none => some old
  | some v => v.getString

end JsonValue

/-- A new message. -/
def MsgGateConfData.new : MsgGateConfData := ⟨[], 0, [], 0, [], [], false, false⟩

/-- The message of a row, behind the rows that left `platform` and `channelCode` in their variables. -/
def JsonRow.read (row : JsonRow) (platform channelCode : Str) : Option MsgGateConfData :=
  row.serverName.getString.bind fun name =>
    row.serverId.getInt.bind fun id =>
      row.serverIp.getString.bind fun ip =>
        row.serverPort.getInt.bind fun port =>
          (JsonValue.getOptional platform row.platform).bind fun platform =>
            (JsonValue.getOptional channelCode row.channelCode).map fun channelCode =>
              { MsgGateConfData.new with
                name := name, id := id, ip := ip, port := toShort port
                platform := platform, channelCode := channelCode }

/-- `MAX_GATE_SERVER_COUNT`. -/
def maxGateServerCount : ℕ := 99

/-- `ConfGateList`. A message is named by its number among those allocated, and `objs` has their contents. The
constructor does not set the pointers of `gate_array_`: `wild` are the places where the memory has another one than
the null pointer. -/
structure GateArray where
  wild : ℕ → Bool
  gateArray : ℕ → Option ℕ
  gateCount : ℕ
  id2gateMap : ℤ → Option ℕ
  objs : ℕ → MsgGateConfData
  next : ℕ

namespace GateArray

/-- A list behind its constructor. -/
def fresh (wild : ℕ → Bool) : GateArray := ⟨wild, fun _ => none, 0, fun _ => none, fun _ => .new, 0⟩

variable (s : GateArray)

def getSize : ℕ := s.gateCount

/-- The message that a row goes to: the one that `gate_array_` has behind the last, else a new one. -/
def alloc : ℕ × GateArray :=
  match s.gateArray s.gateCount with
  | some obj => (obj, s)
  | none => (s.next, { s with
      gateArray := Function.update s.gateArray s.gateCount (some s.next)
      gateCount := s.gateCount + 1
      next := s.next + 1 })

/-- The fields of a message are set, and `insert` puts it into the map unless its id is there. -/
def store (obj : ℕ) (d : MsgGateConfData) : GateArray :=
  { s with
    objs := Function.update s.objs obj
      { d with isBusy := (s.objs obj).isBusy, isMaintenance := (s.objs obj).isMaintenance }
    id2gateMap := if s.id2gateMap d.id = none then Function.update s.id2gateMap d.id (some obj) else s.id2gateMap }

def put (d : MsgGateConfData) : GateArray := s.alloc.2.store s.alloc.1 d

/-- The loop over the rows; undefined where the array is read behind its end, or a row is written through a pointer that
was never set. -/
def loadRows (platform channelCode : Str) (s : GateArray) : List JsonRow → Option (Bool × GateArray)
  | [] => some (true, s)
  | row :: rows =>
    match row.read platform channelCode with
    | none => some (false, s)
    | some d =>
      if s.gateCount < maxGateServerCount ∧ s.wild s.gateCount = false then
        loadRows d.platform d.channelCode (s.put d) rows
      else none

/-- `loadJson`, when the file is an array of rows. -/
def loadJson (doc : Option (List JsonRow)) : Option (Bool × GateArray) :=
  match doc with
  | none => some (false, s)
  | some rows => loadRows [] [] s rows

def reset : GateArray := { s with gateCount := 0 }

/-- `get`, of an index from 0 on. -/
def get (index : ℕ) : Option MsgGateConfData :=
  if s.gateCount ≤ index then none else (s.gateArray index).map s.objs

def getById (id : ℤ) : Option MsgGateConfData := (s.id2gateMap id).map s.objs

/-- What the message handlers see of the list. -/
def conf : ConfGateList := ⟨(List.range s.getSize).filterMap s.get, s.getById⟩

end GateArray

/-- A row with all members of the right types. -/
structure GateRow where
  name : Str
  id : ℤ
  ip : Str
  port : ℤ
  platform : Option Str
  channelCode : Option Str
  deriving DecidableEq, Repr

namespace GateRow

variable (r : GateRow)

def json : JsonRow :=
  ⟨.string r.name, .int r.id, .string r.ip, .int r.port, r.platform.map .string, r.channelCode.map .string⟩

/-- The values of the row itself. -/
def own : MsgGateConfData :=
  { MsgGateConfData.new with
    name := r.name, id := r.id, ip := r.ip, port := r.port
    platform := r.platform.getD [], channelCode := r.channelCode.getD [] }

/-- The values that are loaded for the row. -/
def loaded (platform channelCode : Str) : MsgGateConfData :=
  { MsgGateConfData.new with
    name := r.name.takeWhile (· ≠ 0), id := r.id, ip := r.ip.takeWhile (· ≠ 0), port := toShort r.port
    platform := (r.platform.map fun t => t.takeWhile (· ≠ 0)).getD platform
    channelCode := (r.channelCode.map fun t => t.takeWhile (· ≠ 0)).getD channelCode }

theorem read_json (platform channelCode : Str) :
    r.json.read platform channelCode = some (r.loaded platform channelCode) := by
  obtain ⟨name, id, ip, port, p, c⟩ := r
  cases p <;> cases c <;> rfl

end GateRow

/-- The values that are loaded for the rows, behind the texts of earlier rows. -/
def loadedRows (platform channelCode : Str) : List GateRow → List MsgGateConfData
  | [] => []
  | r :: rs =>
    let d := r.loaded platform channelCode
    d :: loadedRows d.platform d.channelCode rs

theorem length_loadedRows (platform channelCode : Str) (rs : List GateRow) :
    (loadedRows platform channelCode rs).length = rs.length := by
  induction rs generalizing platform channelCode with
  | nil => rfl
  | cons r rs ih => exact congrArg (· + 1) (ih _ _)

namespace GateArray

/-- The list has these messages, one behind the other, and none through a pointer that was never set; the map has the
first of each id. -/
structure Has (s : GateArray) (ds : List MsgGateConfData) : Prop where
  tame : ∀ i < ds.length, s.wild i = false
  count : s.gateCount = ds.length
  array : ∀ i, s.gateArray i = if i < ds.length then some i else none
  next : s.next = ds.length
  objs : ∀ i d, ds[i]? = some d → s.objs i = d
  new : ∀ i, ds.length ≤ i → s.objs i = .new
  byId : ∀ id, s.id2gateMap id = ds.findIdx? (·.id = id)

variable {s : GateArray} {ds : List MsgGateConfData}

/-- The first message with an id stays under it. -/
theorem id2gateMap_store (s : GateArray) (obj : ℕ) (d : MsgGateConfData) (id : ℤ) :
    (s.store obj d).id2gateMap id = (s.id2gateMap id).or (if id = d.id then some obj else none) := by
  unfold store
  dsimp only
  by_cases heq : id = d.id
  · rw [heq, if_pos rfl]
    cases hfound : s.id2gateMap d.id with
    | none => rw [if_pos rfl, Function.update_self, Option.none_or]
    | some obj' => rw [if_neg (Option.some_ne_none obj'), hfound, Option.some_or]
  · rw [if_neg heq, Option.or_none]
    split_ifs
    · exact Function.update_of_ne heq _ _
    · rfl

/-- One row of the loop, when there is room for it. -/
theorem loadRows_cons (hroom : s.gateCount < maxGateServerCount ∧ s.wild s.gateCount = false)
    (platform channelCode : Str) (r : GateRow) (rs : List GateRow) :
    loadRows platform channelCode s ((r :: rs).map GateRow.json) =
      loadRows (r.loaded platform channelCode).platform (r.loaded platform channelCode).channelCode
        (s.put (r.loaded platform channelCode)) (rs.map GateRow.json) := by
  rw [List.map_cons, loadRows, r.read_json]
  dsimp only
  rw [if_pos hroom]

theorem has_fresh (wild : ℕ → Bool) : (fresh wild).Has [] :=
  ⟨fun _ h => absurd h (Nat.not_lt_zero _), rfl, fun _ => rfl, rfl, fun _ _ h => (nomatch h), fun _ _ => rfl,
    fun _ => rfl⟩

/-- The message of a row is a new one, behind the others. -/
theorem Has.alloc_eq (h : s.Has ds) : s.alloc = (ds.length, { s with
    gateArray := Function.update s.gateArray ds.length (some ds.length)
    gateCount := ds.length + 1
    next := ds.length + 1 }) := by
  have hnone : s.gateArray s.gateCount = none := by rw [h.array, h.count, if_neg (lt_irrefl _)]
  unfold alloc
  rw [hnone, h.next, h.count]

theorem Has.put_wild (h : s.Has ds) (d : MsgGateConfData) : (s.put d).wild = s.wild := by
  unfold GateArray.put
  rw [h.alloc_eq]
  rfl

/-- A message is added at the end. -/
theorem Has.put (h : s.Has ds) (hwild : s.wild ds.length = false) {d : MsgGateConfData} (hbusy : d.isBusy = false)
    (hmaintenance : d.isMaintenance = false) : (s.put d).Has (ds ++ [d]) := by
  have hnew : s.objs ds.length = .new := h.new _ le_rfl
  have hobj : ({ d with isBusy := (s.objs ds.length).isBusy, isMaintenance := (s.objs ds.length).isMaintenance } :
      MsgGateConfData) = d := by
    rw [hnew]
    cases d
    cases hbusy
    cases hmaintenance
    rfl
  have hlength : (ds ++ [d]).length = ds.length + 1 := List.length_append
  have htame : ∀ i < (ds ++ [d]).length, (s.put d).wild i = false := by
    intro i hi
    rw [h.put_wild]
    rw [hlength] at hi
    rcases Nat.lt_succ_iff_lt_or_eq.1 hi with hlt | rfl
    · exact h.tame i hlt
    · exact hwild
  unfold GateArray.put at htame ⊢
  rw [h.alloc_eq] at htame ⊢
  refine ⟨htame, hlength.symm, fun i => ?_, hlength.symm, fun i d' hd' => ?_, fun i hi => ?_, fun id => ?_⟩
  · change Function.update s.gateArray ds.length (some ds.length) i = _
    rw [hlength, Function.update_apply, h.array]
    by_cases heq : i = ds.length
    · rw [if_pos heq, if_pos (by omega), heq]
    · have hlt : i < ds.length + 1 ↔ i < ds.length := by omega
      simp only [if_neg heq, hlt]
  · change Function.update s.objs ds.length _ i = _
    rw [hobj]
    by_cases hlt : i < ds.length
    · rw [List.getElem?_append_left hlt] at hd'
      rw [Function.update_of_ne (by omega)]
      exact h.objs i d' hd'
    · have hbound := (List.getElem?_eq_some_iff.1 hd').1
      obtain rfl : i = ds.length := by omega
      rw [List.getElem?_concat_length] at hd'
      rw [Function.update_self]
      exact Option.some.inj hd'
  · change Function.update s.objs ds.length _ i = _
    rw [hlength] at hi
    rw [Function.update_of_ne (by omega)]
    exact h.new i (by omega)
  · rw [id2gateMap_store, List.findIdx?_append, ← h.byId, List.findIdx?_singleton]
    have hid : decide (d.id = id) = decide (id = d.id) := decide_eq_decide.2 eq_comm
    simp only [hid, decide_eq_true_eq]
    by_cases heq : id = d.id
    · rw [if_pos heq, if_pos heq]
      exact congrArg _ (congrArg some (Nat.zero_add _).symm)
    · rw [if_neg heq, if_neg heq]
      rfl

theorem Has.get_eq (h : s.Has ds) (i : ℕ) : s.get i = ds[i]? := by
  unfold GateArray.get
  rw [h.count, h.array]
  by_cases hlt : i < ds.length
  · have hd := List.getElem?_eq_getElem hlt
    rw [if_neg (not_le.2 hlt), if_pos hlt, Option.map_some, hd, h.objs i _ hd]
  · rw [if_pos (not_lt.1 hlt), List.getElem?_eq_none (not_lt.1 hlt)]

/-- The handlers go through these messages in this order. -/
theorem Has.conf_gates (h : s.Has ds) : s.conf.gates = ds := by
  have hget : s.get = fun i => ds[i]? := funext h.get_eq
  have hsize : s.getSize = ds.length := h.count
  unfold conf
  dsimp only
  rw [hget, hsize]
  clear h hget hsize
  induction ds using List.reverseRecOn with
  | nil => rfl
  | append_singleton ds d ih =>
      have hold : (List.range ds.length).filterMap (fun i => (ds ++ [d])[i]?) = ds := by
        refine (List.filterMap_congr fun i hi => ?_).trans ih
        exact List.getElem?_append_left (List.mem_range.1 hi)
      rw [List.length_append, List.length_singleton, List.range_succ, List.filterMap_append, hold]
      simp

/-- A message is found by its id when no other one has it. -/
theorem Has.getById_eq (h : s.Has ds) (hnodup : (ds.map MsgGateConfData.id).Nodup) {i : ℕ} {d : MsgGateConfData}
    (hd : ds[i]? = some d) : s.getById d.id = some d := by
  obtain ⟨hlt, hget⟩ := List.getElem?_eq_some_iff.1 hd
  have hfirst : ds.findIdx? (·.id = d.id) = some i := by
    refine List.findIdx?_eq_some_iff_getElem.2 ⟨hlt, by simp [hget], fun j hji hj => ?_⟩
    have hid : (ds.map MsgGateConfData.id)[j]? = (ds.map MsgGateConfData.id)[i]? := by
      rw [List.getElem?_map, List.getElem?_map, List.getElem?_eq_getElem (hji.trans hlt), hd]
      exact congrArg some (of_decide_eq_true hj)
    have hbound : j < (ds.map MsgGateConfData.id).length := by
      rw [List.length_map]
      exact hji.trans hlt
    exact absurd ((List.getElem?_inj hbound hnodup).1 hid) (Nat.ne_of_lt hji)
  rw [GateArray.getById, h.byId, hfirst, Option.map_some, h.objs i d hd]

/-- Rows with the right types are loaded one behind the other, when there are null pointers for them. -/
theorem Has.loadRows (h : s.Has ds) (platform channelCode : Str) (rs : List GateRow)
    (hlength : ds.length + rs.length ≤ maxGateServerCount) (hwild : ∀ i < ds.length + rs.length, s.wild i = false) :
    ∃ s', GateArray.loadRows platform channelCode s (rs.map GateRow.json) = some (true, s') ∧
      s'.Has (ds ++ loadedRows platform channelCode rs) := by
  induction rs generalizing s ds platform channelCode with
  | nil => exact ⟨s, rfl, by rw [loadedRows, List.append_nil]; exact h⟩
  | cons r rs ih =>
      rw [List.length_cons] at hlength hwild
      have hnext := hwild ds.length (by omega)
      have hroom : s.gateCount < maxGateServerCount ∧ s.wild s.gateCount = false := by
        rw [h.count]
        exact ⟨by omega, hnext⟩
      have hput := h.put hnext (d := r.loaded platform channelCode) rfl rfl
      obtain ⟨s', hs', hhas⟩ := ih hput (r.loaded platform channelCode).platform
        (r.loaded platform channelCode).channelCode (by rw [List.length_append, List.length_singleton]; omega)
        (fun i hi => by
          rw [h.put_wild]
          rw [List.length_append, List.length_singleton] at hi
          exact hwild i (by omega))
      refine ⟨s', (loadRows_cons hroom platform channelCode r rs).trans hs', ?_⟩
      rw [List.append_assoc] at hhas
      exact hhas

/-- Where the load of the rows is defined, the pointers of their places are null. -/
theorem Has.tame_of_loadRows (h : s.Has ds) {platform channelCode : Str} {rs : List GateRow}
    (hload : GateArray.loadRows platform channelCode s (rs.map GateRow.json) ≠ none) :
    ∀ i < ds.length + rs.length, s.wild i = false := by
  induction rs generalizing s ds platform channelCode with
  | nil => exact h.tame
  | cons r rs ih =>
      by_cases hroom : s.gateCount < maxGateServerCount ∧ s.wild s.gateCount = false
      · rw [loadRows_cons hroom] at hload
        have hnext : s.wild ds.length = false := h.count ▸ hroom.2
        have hrest := ih (h.put hnext (d := r.loaded platform channelCode) rfl rfl) hload
        intro i hi
        rw [List.length_cons] at hi
        rw [← h.put_wild (r.loaded platform channelCode)]
        exact hrest i (by rw [List.length_append, List.length_singleton]; omega)
      · rw [List.map_cons, GateArray.loadRows, r.read_json] at hload
        exact absurd (if_neg hroom) hload

theorem load_fresh {wild : ℕ → Bool} {rs : List GateRow} (hlength : rs.length ≤ maxGateServerCount)
    (hwild : ∀ i < rs.length, wild i = false) :
    ∃ s, (fresh wild).loadJson (some (rs.map GateRow.json)) = some (true, s) ∧ s.Has (loadedRows [] [] rs) :=
  (has_fresh wild).loadRows [] [] rs (by rw [List.length_nil, Nat.zero_add]; exact hlength)
    (by rw [List.length_nil, Nat.zero_add]; exact hwild)

theorem tame_of_load {wild : ℕ → Bool} {rs : List GateRow} {r : Bool × GateArray}
    (hload : (fresh wild).loadJson (some (rs.map GateRow.json)) = some r) : ∀ i < rs.length, wild i = false := by
  have htame := (has_fresh wild).tame_of_loadRows (hload.trans_ne (Option.some_ne_none r))
  rw [List.length_nil, Nat.zero_add] at htame
  exact htame

end GateArray

/-- Every row has its own values in the list. -/
structure RowLocal (rs : List GateRow) (s : GateArray) : Prop where
  size : s.getSize = rs.length
  rows : ∀ i r, rs[i]? = some r → s.get i = some r.own ∧ s.getById r.id = some r.own

/-- The port fits a `short`, and the texts have no zero byte. -/
structure GateRow.Plain (r : GateRow) : Prop where
  port : r.port ≤ 32767
  name : 0 ∉ r.name
  ip : 0 ∉ r.ip
  platform : ∀ t, r.platform = some t → 0 ∉ t
  channelCode : ∀ t, r.channelCode = some t → 0 ∉ t

/-- Where a row leaves a member out, the last text that an earlier row gave for it, or else the old one, is empty. -/
def LeavesEmpty (member : GateRow → Option Str) (old : Str) (rs : List GateRow) : Prop :=
  ∀ before r after, rs = before ++ r :: after → member r = none →
    (before.filterMap member).getLast?.getD old = []

theorem leavesEmpty_cons {member : GateRow → Option Str} {old : Str} {r : GateRow} {rs : List GateRow} :
    LeavesEmpty member old (r :: rs) ↔
      (member r = none → old = []) ∧ LeavesEmpty member ((member r).getD old) rs := by
  have hlast : ∀ before, ((r :: before).filterMap member).getLast?.getD old =
      (before.filterMap member).getLast?.getD ((member r).getD old) := by
    intro before
    rw [List.filterMap_cons]
    cases member r with
    | none => rfl
    | some t =>
        dsimp only
        rw [List.getLast?_cons, Option.getD_some, Option.getD_some]
  constructor
  · intro h
    refine ⟨fun hnone => h [] r rs rfl hnone, fun before r' after heq hnone => ?_⟩
    rw [← hlast]
    exact h (r :: before) r' after (by rw [heq]; rfl) hnone
  · rintro ⟨hhead, hrest⟩ before r' after heq hnone
    cases before with
    | nil =>
        cases heq
        exact hhead hnone
    | cons r'' before =>
        obtain ⟨rfl, htail⟩ := List.cons.inj heq
        rw [hlast]
        exact hrest before r' after htail hnone

theorem takeWhile_eq_self_iff {t : Str} : t.takeWhile (· ≠ 0) = t ↔ 0 ∉ t := by
  rw [List.takeWhile_eq_self_iff]
  constructor
  · intro h hmem
    exact absurd rfl (of_decide_eq_true (h 0 hmem))
  · intro h x hx
    exact decide_eq_true fun heq => h (heq ▸ hx)

theorem optional_eq_iff {member : Option Str} {old : Str} :
    (member.map fun t => t.takeWhile (· ≠ 0)).getD old = member.getD [] ↔
      (∀ t, member = some t → 0 ∉ t) ∧ (member = none → old = []) := by
  cases member with
  | none => exact ⟨fun h => ⟨fun _ h => (nomatch h), fun _ => h⟩, fun h => h.2 rfl⟩
  | some t =>
      rw [Option.map_some, Option.getD_some, Option.getD_some, takeWhile_eq_self_iff]
      constructor
      · intro h
        refine ⟨fun t' heq => ?_, fun hnone => nomatch hnone⟩
        cases heq
        exact h
      · intro h
        exact h.1 t rfl

theorem toShort_eq_iff {port : ℤ} (h : 0 ≤ port ∧ port ≤ 65535) : toShort port = port ↔ port ≤ 32767 := by
  unfold toShort
  rw [Int.bmod_def]
  omega

theorem GateRow.loaded_eq_own_iff {r : GateRow} (hport : 0 ≤ r.port ∧ r.port ≤ 65535) {platform channelCode : Str} :
    r.loaded platform channelCode = r.own ↔
      r.Plain ∧ (r.platform = none → platform = []) ∧ (r.channelCode = none → channelCode = []) := by
  unfold GateRow.loaded GateRow.own
  rw [MsgGateConfData.mk.injEq]
  simp only [takeWhile_eq_self_iff, optional_eq_iff, toShort_eq_iff hport, true_and, and_true]
  constructor
  · rintro ⟨hname, hip, hshort, ⟨hplatform, hp⟩, hchannel, hc⟩
    exact ⟨⟨hshort, hname, hip, hplatform, hchannel⟩, hp, hc⟩
  · rintro ⟨hplain, hp, hc⟩
    exact ⟨hplain.name, hplain.ip, hplain.port, ⟨hplain.platform, hp⟩, hplain.channelCode, hc⟩

/-- The rows are loaded as they are when they are plain and nothing is carried from one to the next. -/
theorem loadedRows_eq_own_iff {rs : List GateRow} (hports : ∀ r ∈ rs, 0 ≤ r.port ∧ r.port ≤ 65535)
    (platform channelCode : Str) :
    loadedRows platform channelCode rs = rs.map GateRow.own ↔ (∀ r ∈ rs, r.Plain) ∧
      LeavesEmpty GateRow.platform platform rs ∧ LeavesEmpty GateRow.channelCode channelCode rs := by
  induction rs generalizing platform channelCode with
  | nil =>
      refine iff_of_true rfl ⟨fun _ h => absurd h List.not_mem_nil, ?_, ?_⟩ <;>
        exact fun before r after heq => absurd heq.symm (List.append_ne_nil_of_right_ne_nil _ (List.cons_ne_nil _ _))
  | cons r rs ih =>
      obtain ⟨hport, hrest⟩ := List.forall_mem_cons.1 hports
      have hpart : r.loaded platform channelCode = r.own →
          (r.loaded platform channelCode).platform = r.platform.getD platform ∧
            (r.loaded platform channelCode).channelCode = r.channelCode.getD channelCode := by
        intro hown
        obtain ⟨-, hp, hc⟩ := (GateRow.loaded_eq_own_iff hport).1 hown
        rw [hown]
        constructor
        · change r.platform.getD [] = _
          cases hplatform : r.platform with
          | none => exact (hp hplatform).symm
          | some t => rfl
        · change r.channelCode.getD [] = _
          cases hchannel : r.channelCode with
          | none => exact (hc hchannel).symm
          | some t => rfl
      rw [loadedRows, List.map_cons, List.cons.injEq, leavesEmpty_cons, leavesEmpty_cons, List.forall_mem_cons]
      constructor
      · rintro ⟨hown, htail⟩
        obtain ⟨hplain, hp, hc⟩ := (GateRow.loaded_eq_own_iff hport).1 hown
        rw [(hpart hown).1, (hpart hown).2, ih hrest] at htail
        exact ⟨⟨hplain, htail.1⟩, ⟨hp, htail.2.1⟩, hc, htail.2.2⟩
      · rintro ⟨⟨hplain, hplains⟩, ⟨hp, hps⟩, hc, hcs⟩
        have hown := (GateRow.loaded_eq_own_iff hport).2 ⟨hplain, hp, hc⟩
        refine ⟨hown, ?_⟩
        rw [(hpart hown).1, (hpart hown).2, ih hrest]
        exact ⟨hplains, hps, hcs⟩

/-- Loading keeps the rows apart exactly when the pointers of their places are null, their ports and texts are plain,
and each row without a member comes behind none that left a text for it. -/
theorem load_rowLocal_iff {wild : ℕ → Bool} {rs : List GateRow} (hlength : rs.length ≤ maxGateServerCount)
    (hnodup : (rs.map GateRow.id).Nodup) (hports : ∀ r ∈ rs, 0 ≤ r.port ∧ r.port ≤ 65535) :
    (∃ s, (GateArray.fresh wild).loadJson (some (rs.map GateRow.json)) = some (true, s) ∧ RowLocal rs s) ↔
      (∀ i < rs.length, wild i = false) ∧ (∀ r ∈ rs, r.Plain) ∧
        LeavesEmpty GateRow.platform [] rs ∧ LeavesEmpty GateRow.channelCode [] rs := by
  rw [← loadedRows_eq_own_iff hports]
  constructor
  · rintro ⟨s', hload', hlocal⟩
    have hwild := GateArray.tame_of_load hload'
    obtain ⟨s, hload, hhas⟩ := GateArray.load_fresh hlength hwild
    rw [hload] at hload'
    cases hload'
    refine ⟨hwild, ?_⟩
    refine List.ext_getElem? fun i => ?_
    rw [← hhas.get_eq, List.getElem?_map]
    cases hr : rs[i]? with
    | none =>
        rw [hhas.get_eq, Option.map_none, List.getElem?_eq_none_iff, length_loadedRows]
        exact List.getElem?_eq_none_iff.1 hr
    | some r => exact (hlocal.rows i r hr).1
  · rintro ⟨hwild, hown⟩
    obtain ⟨s, hload, hhas⟩ := GateArray.load_fresh hlength hwild
    rw [hown] at hhas
    have hids : ((rs.map GateRow.own).map MsgGateConfData.id).Nodup := by
      rw [List.map_map]
      exact hnodup
    refine ⟨s, hload, hhas.count.trans (List.length_map _), fun i r hr => ?_⟩
    have hd : (rs.map GateRow.own)[i]? = some r.own := by rw [List.getElem?_map, hr, Option.map_some]
    exact ⟨(hhas.get_eq i).trans hd, hhas.getById_eq hids hd⟩

/-- Two gates, the second one without a platform behind an empty one. -/
theorem twoRows_rowLocal : ∃ s, (GateArray.fresh (2 ≤ ·)).loadJson (some ([⟨[97], 20001, [49], 9000, some [], none⟩,
    ⟨[98], 20002, [50], 32767, none, some [99]⟩].map GateRow.json)) = some (true, s) ∧
      RowLocal [⟨[97], 20001, [49], 9000, some [], none⟩, ⟨[98], 20002, [50], 32767, none, some [99]⟩] s := by
  refine (load_rowLocal_iff (by decide) (by decide) (by decide)).2 ⟨by decide, ?_⟩
  rw [← loadedRows_eq_own_iff (by decide)]
  decide

/-- The second gate gets the platform of the first one. -/
theorem platform_carried : ¬∃ s, (GateArray.fresh fun _ => false).loadJson
    (some ([⟨[97], 20001, [49], 9000, some [120], none⟩, ⟨[98], 20002, [50], 9001, none, none⟩].map GateRow.json)) =
      some (true, s) ∧
      RowLocal [⟨[97], 20001, [49], 9000, some [120], none⟩, ⟨[98], 20002, [50], 9001, none, none⟩] s := by
  rintro ⟨s, hload, hlocal⟩
  cases hload
  have hget := (hlocal.rows 1 _ rfl).1
  exact absurd (congrArg (Option.map MsgGateConfData.platform) hget) (by decide)

/-- What a caller sees of the list is the same. -/
structure SameList (s s' : GateArray) : Prop where
  size : s.getSize = s'.getSize
  get : ∀ i, s.get i = s'.get i
  byId : ∀ id, s.getById id = s'.getById id

/-- Two lists with the same messages. -/
theorem GateArray.Has.sameList {s s' : GateArray} {ds : List MsgGateConfData} (h : s.Has ds) (h' : s'.Has ds) :
    SameList s s' where
  size := h.count.trans h'.count.symm
  get i := (h.get_eq i).trans (h'.get_eq i).symm
  byId id := by
    rw [GateArray.getById, GateArray.getById, h.byId, h'.byId]
    cases hfound : ds.findIdx? (·.id = id) with
    | none => rfl
    | some i =>
        have hd := List.getElem?_eq_getElem (List.findIdx?_eq_some_iff_getElem.1 hfound).1
        rw [Option.map_some, Option.map_some, h.objs i _ hd, h'.objs i _ hd]

/-- A list in which the place behind the last message is taken, as `reset` leaves it. -/
structure Stuck (s : GateArray) : Prop where
  tame : s.wild 0 = false
  count : s.gateCount = 0
  taken : s.gateArray 0 ≠ none

namespace Stuck

variable {s : GateArray}

/-- A row goes to the first message, and is not counted. -/
theorem put (h : Stuck s) (d : MsgGateConfData) :
    Stuck (s.put d) ∧ ∀ id, s.getById id ≠ none → (s.put d).getById id ≠ none := by
  obtain ⟨obj, hobj⟩ := Option.ne_none_iff_exists'.1 h.taken
  have halloc : s.alloc = (obj, s) := by
    unfold GateArray.alloc
    rw [h.count, hobj]
  unfold GateArray.put
  rw [halloc]
  refine ⟨⟨h.tame, h.count, h.taken⟩, fun id hid => ?_⟩
  rw [GateArray.getById, Ne, Option.map_eq_none_iff] at hid ⊢
  rw [GateArray.id2gateMap_store, Option.or_eq_none_iff]
  exact fun hnone => hid hnone.1

theorem loadRows (h : Stuck s) (platform channelCode : Str) (rs : List GateRow) :
    ∃ s', GateArray.loadRows platform channelCode s (rs.map GateRow.json) = some (true, s') ∧
      Stuck s' ∧ ∀ id, s.getById id ≠ none → s'.getById id ≠ none := by
  induction rs generalizing s platform channelCode with
  | nil => exact ⟨s, rfl, h, fun _ hid => hid⟩
  | cons r rs ih =>
      have hroom : s.gateCount < maxGateServerCount ∧ s.wild s.gateCount = false := by
        rw [h.count]
        exact ⟨by decide, h.tame⟩
      obtain ⟨hput, hkeeps⟩ := h.put (r.loaded platform channelCode)
      obtain ⟨s', hs', hstuck, hrest⟩ :=
        ih hput (r.loaded platform channelCode).platform (r.loaded platform channelCode).channelCode
      refine ⟨s', ?_, hstuck, fun id hid => hrest id (hkeeps id hid)⟩
      exact (GateArray.loadRows_cons hroom platform channelCode r rs).trans hs'

end Stuck

/-- A list is loaded behind another one as into a new list exactly when the other one has no rows, and both arrays have
null pointers in the places of the rows. -/
theorem reload_fresh_iff {wild wild' : ℕ → Bool} {as bs : List GateRow} (has : as.length ≤ maxGateServerCount)
    (hbs : bs.length ≤ maxGateServerCount) :
    (∃ s s' t, (GateArray.fresh wild).loadJson (some (as.map GateRow.json)) = some (true, s) ∧
      s.reset.loadJson (some (bs.map GateRow.json)) = some (true, s') ∧
        (GateArray.fresh wild').loadJson (some (bs.map GateRow.json)) = some (true, t) ∧ SameList s' t) ↔
      as = [] ∧ ∀ i < bs.length, wild i = false ∧ wild' i = false := by
  constructor
  · rintro ⟨s, s', t', hs, hs', ht', hsame⟩
    have hwild' := GateArray.tame_of_load ht'
    obtain ⟨t, ht, hfresh⟩ := GateArray.load_fresh hbs hwild'
    rw [ht] at ht'
    cases ht'
    cases as with
    | nil =>
        cases hs
        have hwild : ∀ i < bs.length, wild i = false := GateArray.tame_of_load hs'
        exact ⟨rfl, fun i hi => ⟨hwild i hi, hwild' i hi⟩⟩
    | cons a as =>
        exfalso
        have hwild := GateArray.tame_of_load hs
        obtain ⟨s₁, hs₁, hhas⟩ := GateArray.load_fresh has hwild
        rw [hs] at hs₁
        cases hs₁
        have hpos : 0 < (loadedRows [] [] (a :: as)).length := Nat.succ_pos _
        have hstuck : Stuck s.reset := by
          refine ⟨hhas.tame 0 hpos, rfl, ?_⟩
          change s.gateArray 0 ≠ none
          rw [hhas.array, if_pos hpos]
          exact Option.some_ne_none 0
        obtain ⟨s₂, hs₂, hafter, hkeeps⟩ := hstuck.loadRows [] [] bs
        rw [GateArray.loadJson, hs₂] at hs'
        cases hs'
        cases bs with
        | nil =>
            -- the first row of the other list is still found by its id
            have hid : s.reset.getById a.id ≠ none := by
              have hfirst : decide ((a.loaded [] []).id = a.id) = true := decide_eq_true rfl
              change s.getById a.id ≠ none
              rw [GateArray.getById, Ne, Option.map_eq_none_iff, hhas.byId, loadedRows, List.findIdx?_cons, hfirst,
                if_pos rfl]
              exact Option.some_ne_none 0
            refine hkeeps a.id hid ?_
            rw [hsame.byId, GateArray.getById, hfresh.byId]
            rfl
        | cons b bs =>
            have hsize : s'.gateCount = t'.gateCount := hsame.size
            rw [hafter.count, hfresh.count] at hsize
            cases hsize
  · rintro ⟨rfl, htame⟩
    obtain ⟨s', hs', hhas⟩ := GateArray.load_fresh hbs fun i hi => (htame i hi).1
    obtain ⟨t, ht, hfresh⟩ := GateArray.load_fresh hbs fun i hi => (htame i hi).2
    exact ⟨.fresh wild, s', t, rfl, hs', ht, hhas.sameList hfresh⟩

/-- An empty list and then one row. -/
theorem emptyList_reloaded : ∃ s s' t,
    (GateArray.fresh (1 ≤ ·)).loadJson (some (([] : List GateRow).map GateRow.json)) = some (true, s) ∧
      s.reset.loadJson (some ([⟨[97], 20001, [49], 9000, none, none⟩].map GateRow.json)) = some (true, s') ∧
      (GateArray.fresh fun _ => false).loadJson (some ([⟨[97], 20001, [49], 9000, none, none⟩].map GateRow.json)) =
        some (true, t) ∧ SameList s' t :=
  (@reload_fresh_iff (1 ≤ ·) (fun _ => false) [] [⟨[97], 20001, [49], 9000, none, none⟩] (by decide) (by decide)).2
    ⟨rfl, by decide⟩

/-- A list of one row that is loaded again has the size 0. -/
theorem oneRow_not_reloaded : ¬∃ s s' t,
    (GateArray.fresh fun _ => false).loadJson (some ([⟨[97], 20001, [49], 9000, none, none⟩].map GateRow.json)) =
      some (true, s) ∧
      s.reset.loadJson (some ([⟨[97], 20001, [49], 9000, none, none⟩].map GateRow.json)) = some (true, s') ∧
        (GateArray.fresh fun _ => false).loadJson (some ([⟨[97], 20001, [49], 9000, none, none⟩].map GateRow.json)) =
          some (true, t) ∧ SameList s' t := by
  rintro ⟨s, s', t, hs, hs', ht, hsame⟩
  cases hs
  cases hs'
  cases ht
  exact absurd hsame.size (by decide)

end JmyGame
