import JmyGame.CommonMessages
import JmyGame.CurlRequests

/-! `HttpPostLogMgr`: a list of log records, from the front of which each `run` posts as many as it may. What was posted
is taken out behind the loop, by a count of 16 bits with a sign, and not at all when the last post fails. -/

namespace JmyGame

/-- What `HttpRequestMgr::post` returns: 1, 0 or -1. -/
inductive PostResult where
  | posted
  | full
  | failed
  deriving DecidableEq, Repr

def PostResult.toInt : PostResult → ℤ
  | posted => 1
  | full => 0
  | failed => -1

theorem HttpRequestMgr.post_toInt {m : HttpRequestMgr} {handle : Option Ptr} {pushed : Bool} {r : ℤ × HttpRequestMgr}
    (h : m.post handle pushed = some r) : ∃ result : PostResult, r.1 = result.toInt := by
  obtain ⟨⟨req, m'⟩, -, rfl⟩ := Option.map_eq_some_iff.1 h
  cases req with
  | none => exact ⟨.full, rfl⟩
  | some req =>
      dsimp only
      split_ifs
      · exact ⟨.posted, rfl⟩
      · exact ⟨.failed, rfl⟩

/-- A record with a value of JSON. -/
structure PostLogRecord (ν : Type) where
  operation : Str
  value : ν

/-- `HttpPostLogMgr`. Records are numbered in the order in which they are pushed: `posted` are the numbers of the posts
that have returned 1, one after the other, and `removed` of the records have been taken out. -/
structure HttpPostLogMgr (ν : Type) where
  recordList : List (PostLogRecord ν)
  maxLogSize : ℤ
  postUrl : Str
  postCountOnce : BitVec 16
  posted : List ℕ
  removed : ℕ

/-- Where the loop of `run` ends. `posts` are the calls of `post`, and `done` those that have returned 1. -/
structure PostLoop where
  failed : Bool
  res : ℤ
  count : BitVec 16
  posts : ℕ
  done : ℕ

/-- `pop_front`, as often as it is said; undefined for an empty list. -/
def popFronts {α : Type} : ℕ → List α → Option (List α)
  | 0, l => some l
  | _ + 1, [] => none
  | n + 1, _ :: l => popFronts n l

namespace HttpPostLogMgr

variable {ν : Type}

def defaultPostCountOnce : BitVec 16 := 128

/-- A new manager with a url, behind `init`. -/
def init (maxLogSize : ℤ) (postUrl : Str) : HttpPostLogMgr ν :=
  ⟨[], if maxLogSize ≤ 0 then 5000 else maxLogSize, postUrl, defaultPostCountOnce, [], 0⟩

section

variable (m : HttpPostLogMgr ν)

def setPostCountOnce (count : BitVec 16) : HttpPostLogMgr ν :=
  { m with postCountOnce :=
      if count = 0 then defaultPostCountOnce
      else if m.maxLogSize < count.toNat then BitVec.ofInt 16 m.maxLogSize
      else count }

/-- `end`, with the record that it makes. -/
def endRecord (record : PostLogRecord ν) : HttpPostLogMgr ν := { m with recordList := m.recordList ++ [record] }

end

section

-- the result of a call of `post` by its number in the run, its url and the value that is written
variable (once : BitVec 16) (url : Str) (post : ℕ → Str → ν → PostResult)

/-- The loop of `run` behind `n` records. The count wraps at the end of its 16 bits. -/
def postLoop : BitVec 16 → ℕ → ℤ → List (PostLogRecord ν) → PostLoop
  | c, n, res, [] => ⟨false, res, c, n, n⟩
  | c, n, _, record :: records =>
    match post n (url ++ record.operation) record.value with
    | .failed => ⟨true, -1, c, n + 1, n⟩
    | .full => ⟨false, 0, c, n + 1, n⟩
    | .posted =>
      if (once.toNat : ℤ) ≤ (c + 1).toInt then ⟨false, 1, c + 1, n + 1, n + 1⟩
      else postLoop (c + 1) (n + 1) 1 records

/-- The results for the records of a list, if all of them were posted. -/
def answers : ℕ → List (PostLogRecord ν) → List PostResult
  | _, [] => []
  | n, record :: records => post n (url ++ record.operation) record.value :: answers (n + 1) records

end

variable (m : HttpPostLogMgr ν) (post : ℕ → Str → ν → PostResult)

/-- The loop of a run. -/
def loop : PostLoop := postLoop m.postCountOnce m.postUrl post 0 0 0 m.recordList

/-- `run`. -/
def run : Option (ℤ × HttpPostLogMgr ν) :=
  if m.postUrl = [] then some (0, m)
  else
    let r := m.loop post
    let m := { m with posted := m.posted ++ (List.range r.done).map (m.removed + ·) }
    if r.failed then some (-1, m)
    else (popFronts r.count.toInt.toNat m.recordList).map fun records =>
      (r.res, { m with recordList := records, removed := m.removed + r.count.toInt.toNat })

end HttpPostLogMgr

inductive PostLogEvent (ν : Type) where
  | setPostCountOnce (count : BitVec 16)
  | endRecord (record : PostLogRecord ν)
  | run (post : ℕ → Str → ν → PostResult)

namespace HttpPostLogMgr

variable {ν : Type}

def step (m : HttpPostLogMgr ν) : PostLogEvent ν → Option (HttpPostLogMgr ν)
  | .setPostCountOnce count => some (m.setPostCountOnce count)
  | .endRecord record => some (m.endRecord record)
  | .run post => (m.run post).map Prod.snd

def machine (ν : Type) : Machine (HttpPostLogMgr ν) (PostLogEvent ν) := ⟨step⟩

/-- The calls of `post` in a step. -/
def posts (m : HttpPostLogMgr ν) : PostLogEvent ν → ℕ
  | .run post => if m.postUrl = [] then 0 else (m.loop post).posts
  | _ => 0

/-- Behind the step, the records that have been taken out are those that were posted, in their order and each of them
once, and the step has posted as many as it may. -/
def PostsOnce (m : HttpPostLogMgr ν) (e : PostLogEvent ν) (m' : HttpPostLogMgr ν) : Prop :=
  m'.posted = List.range m'.removed ∧ m.posts e ≤ m.postCountOnce.toNat

/-- The number of records at the front of the list that can be posted one after the other. -/
def row (m : HttpPostLogMgr ν) (post : ℕ → Str → ν → PostResult) : ℕ :=
  ((answers m.postUrl post 0 m.recordList).takeWhile (· = .posted)).length

/-- The batch of a run is less than `2 ^ 15` records, and the post behind a batch that is not empty does not fail. -/
def BatchEndsWell (m : HttpPostLogMgr ν) (post : ℕ → Str → ν → PostResult) : Prop :=
  min (m.row post) m.postCountOnce.toNat < 2 ^ 15 ∧
    (0 < m.row post → m.row post < m.postCountOnce.toNat →
      (answers m.postUrl post 0 m.recordList)[m.row post]? ≠ some .failed)

def EndsWell (m : HttpPostLogMgr ν) : PostLogEvent ν → Prop
  | .run post => m.postUrl = [] ∨ m.BatchEndsWell post
  | _ => True

/-- A manager behind `init`. All that was posted has been taken out, and a run may post a record. -/
structure Clean (m : HttpPostLogMgr ν) : Prop where
  maxLogSize : 0 < m.maxLogSize
  once : m.postCountOnce ≠ 0
  exact : m.posted = List.range m.removed

theorem clean_init (maxLogSize : ℤ) (postUrl : Str) : Clean (init maxLogSize postUrl : HttpPostLogMgr ν) where
  maxLogSize := by
    unfold init
    dsimp only
    split_ifs with hneg
    · decide
    · exact not_le.1 hneg
  once := by
    change defaultPostCountOnce ≠ 0
    decide
  exact := rfl

variable {m : HttpPostLogMgr ν} {once : BitVec 16} {url : Str} {post : ℕ → Str → ν → PostResult}

theorem takeWhile_posted_cons (a : PostResult) (as : List PostResult) :
    (a :: as).takeWhile (· = .posted) = if a = .posted then a :: as.takeWhile (· = .posted) else [] := by
  rw [List.takeWhile_cons]
  by_cases ha : a = .posted
  · rw [if_pos ha, if_pos (decide_eq_true ha)]
  · rw [if_neg ha, if_neg (by rw [decide_eq_false ha]; exact Bool.false_ne_true)]

theorem length_answers (n : ℕ) (records : List (PostLogRecord ν)) :
    (answers url post n records).length = records.length := by
  induction records generalizing n with
  | nil => rfl
  | cons record records ih => rw [answers, List.length_cons, ih, List.length_cons]

/-- The loop ends behind `k` records, and `fails` says whether it does so with a post that fails. -/
structure EndsAt (r : PostLoop) (k limit : ℕ) (fails : Prop) : Prop where
  done : r.done = k
  count : r.count = BitVec.ofNat 16 k
  failed : r.failed = true ↔ fails
  posts_le : r.posts ≤ limit
  posts_succ : r.posts ≤ k + 1

/-- The loop of which `n` rounds are done ends at the first record that is not posted or at the `limit`, where its count
reaches `once`. -/
theorem postLoop_spec {limit n : ℕ} {c : BitVec 16} {records : List (PostLogRecord ν)} (res : ℤ)
    (hc : c = BitVec.ofNat 16 n) (hlt : n < limit)
    (hbelow : ∀ k, n < k → k < limit → (BitVec.ofNat 16 k).toInt < once.toNat)
    (hlimit : n + records.length < limit ∨ (once.toNat : ℤ) ≤ (BitVec.ofNat 16 limit).toInt) {row : ℕ}
    (hrow : ((answers url post n records).takeWhile (· = .posted)).length = row) :
    EndsAt (postLoop once url post c n res records) (min (n + row) limit) limit
      (n + row < limit ∧ (answers url post n records)[row]? = some .failed) := by
  induction records generalizing n c res row with
  | nil =>
      obtain rfl : 0 = row := hrow
      have hmin : min (n + 0) limit = n := min_eq_left hlt.le
      rw [postLoop, hmin, hc]
      exact ⟨rfl, rfl, iff_of_false Bool.false_ne_true (fun h => nomatch h.2), hlt.le, Nat.le_succ n⟩
  | cons record records ih =>
      rw [answers, takeWhile_posted_cons] at hrow
      rw [postLoop, answers]
      cases hanswer : post n (url ++ record.operation) record.value with
      | failed =>
          rw [hanswer, if_neg (by decide)] at hrow
          obtain rfl : 0 = row := hrow
          have hmin : min (n + 0) limit = n := min_eq_left hlt.le
          rw [hmin, hc]
          exact ⟨rfl, rfl, iff_of_true rfl ⟨hlt, rfl⟩, hlt, le_rfl⟩
      | full =>
          rw [hanswer, if_neg (by decide)] at hrow
          obtain rfl : 0 = row := hrow
          have hmin : min (n + 0) limit = n := min_eq_left hlt.le
          rw [hmin, hc]
          exact ⟨rfl, rfl, iff_of_false Bool.false_ne_true (fun h => nomatch h.2), hlt, le_rfl⟩
      | posted =>
          rw [hanswer, if_pos rfl, List.length_cons] at hrow
          subst hrow
          have hnext : c + 1 = BitVec.ofNat 16 (n + 1) := by
            rw [hc, BitVec.ofNat_add]
            rfl
          rw [hnext]
          dsimp only
          rw [List.getElem?_cons_succ, ← Nat.add_assoc, Nat.add_right_comm]
          by_cases hlast : n + 1 = limit
          · have hstop : (once.toNat : ℤ) ≤ (BitVec.ofNat 16 (n + 1)).toInt := by
              rw [hlast]
              refine hlimit.resolve_left fun hshort => ?_
              rw [List.length_cons] at hshort
              omega
            rw [if_pos hstop, ← hlast, min_eq_right (Nat.le_add_right _ _)]
            refine ⟨rfl, rfl, iff_of_false Bool.false_ne_true fun h => ?_, le_rfl, Nat.le_succ _⟩
            exact absurd h.1 (by omega)
          · have hgo : ¬(once.toNat : ℤ) ≤ (BitVec.ofNat 16 (n + 1)).toInt :=
              not_le.2 (hbelow (n + 1) (Nat.lt_succ_self n) (by omega))
            rw [if_neg hgo]
            refine ih 1 rfl (by omega) (fun k hk => hbelow k (by omega)) ?_ rfl
            rw [List.length_cons] at hlimit
            refine hlimit.imp_left fun hshort => ?_
            omega

theorem row_le (m : HttpPostLogMgr ν) (post : ℕ → Str → ν → PostResult) : m.row post ≤ m.recordList.length := by
  have hlength : (answers m.postUrl post 0 m.recordList).length = m.recordList.length := length_answers 0 m.recordList
  rw [← hlength]
  exact (List.takeWhile_prefix _).length_le

theorem toInt_ofNat_of_lt {k : ℕ} (hk : k < 2 ^ 15) : (BitVec.ofNat 16 k).toInt = k := by
  rw [BitVec.toInt_ofNat', Int.bmod_eq_of_le] <;> omega

theorem toInt_lt (c : BitVec 16) : c.toInt < 2 ^ 15 := by
  have hlt := BitVec.toInt_lt (x := c)
  omega

/-- The number of records at which the count ends a run. A count of 16 bits with a sign reaches no more than
`2 ^ 15 - 1`. -/
def limit (m : HttpPostLogMgr ν) : ℕ :=
  if m.postCountOnce.toNat < 2 ^ 15 then m.postCountOnce.toNat else m.recordList.length + 1

theorem loop_endsAt (honce : m.postCountOnce ≠ 0) (post : ℕ → Str → ν → PostResult) :
    EndsAt (m.loop post) (min (m.row post) m.limit) m.limit
      (m.row post < m.limit ∧ (answers m.postUrl post 0 m.recordList)[m.row post]? = some .failed) := by
  have hpos : 0 < m.postCountOnce.toNat := Nat.pos_of_ne_zero fun hzero => honce (BitVec.eq_of_toNat_eq hzero)
  have hlt : 0 < m.limit := by
    unfold limit
    split_ifs
    · exact hpos
    · exact Nat.succ_pos _
  have hbelow : ∀ k, 0 < k → k < m.limit → (BitVec.ofNat 16 k).toInt < m.postCountOnce.toNat := by
    intro k _ hk
    unfold limit at hk
    split_ifs at hk with hsmall
    · rw [toInt_ofNat_of_lt (hk.trans hsmall)]
      exact Int.ofNat_lt.2 hk
    · have hcount := toInt_lt (BitVec.ofNat 16 k)
      omega
  have hlimit : 0 + m.recordList.length < m.limit ∨ (m.postCountOnce.toNat : ℤ) ≤ (BitVec.ofNat 16 m.limit).toInt := by
    unfold limit
    split_ifs with hsmall
    · rw [toInt_ofNat_of_lt hsmall]
      exact Or.inr le_rfl
    · omega
  have hrow : ((answers m.postUrl post 0 m.recordList).takeWhile (· = .posted)).length = m.row post := rfl
  have hends := postLoop_spec 0 (rfl : (0 : BitVec 16) = BitVec.ofNat 16 0) hlt hbelow hlimit hrow
  rw [Nat.zero_add] at hends
  exact hends

theorem popFronts_eq {α : Type} {k : ℕ} {l : List α} (hk : k ≤ l.length) : popFronts k l = some (l.drop k) := by
  induction l generalizing k with
  | nil =>
      obtain rfl := Nat.le_zero.1 hk
      rfl
  | cons a l ih =>
      cases k with
      | zero => rfl
      | succ k => exact ih (Nat.le_of_succ_le_succ hk)

/-- The records that a run takes out. -/
def taken (m : HttpPostLogMgr ν) (post : ℕ → Str → ν → PostResult) : ℕ :=
  if (m.loop post).failed then 0 else (m.loop post).count.toInt.toNat

theorem count_le (honce : m.postCountOnce ≠ 0) (post : ℕ → Str → ν → PostResult) :
    (m.loop post).count.toInt.toNat ≤ (m.loop post).done := by
  have hends := loop_endsAt honce post
  rw [hends.count, hends.done]
  by_cases hsmall : min (m.row post) m.limit < 2 ^ 15
  · rw [toInt_ofNat_of_lt hsmall, Int.toNat_natCast]
  · have hlt := toInt_lt (BitVec.ofNat 16 (min (m.row post) m.limit))
    omega

/-- What a run leaves of the numbers. There is always a record to take out. -/
theorem Clean.run (h : m.Clean) (hurl : m.postUrl ≠ []) (post : ℕ → Str → ν → PostResult) : ∃ r, m.run post = some r ∧
    r.2.maxLogSize = m.maxLogSize ∧ r.2.postCountOnce = m.postCountOnce ∧
      r.2.posted = List.range (m.removed + (m.loop post).done) ∧ r.2.removed = m.removed + m.taken post := by
  have hends := loop_endsAt h.once post
  have hcount := count_le h.once post
  have hrow := m.row_le post
  have hposted : m.posted ++ (List.range (m.loop post).done).map (m.removed + ·) =
      List.range (m.removed + (m.loop post).done) := by
    rw [h.exact, List.range_add]
  have hdone := hends.done
  unfold HttpPostLogMgr.run taken
  rw [if_neg hurl]
  dsimp only
  rw [hposted]
  cases hfailed : (m.loop post).failed with
  | true => exact ⟨_, rfl, rfl, rfl, rfl, rfl⟩
  | false =>
      rw [if_neg Bool.false_ne_true, popFronts_eq (by omega), Option.map_some]
      exact ⟨_, rfl, rfl, rfl, rfl, rfl⟩

theorem limit_cases (m : HttpPostLogMgr ν) :
    (m.postCountOnce.toNat < 2 ^ 15 ∧ m.limit = m.postCountOnce.toNat) ∨
      (2 ^ 15 ≤ m.postCountOnce.toNat ∧ m.limit = m.recordList.length + 1) := by
  unfold limit
  split_ifs with hsmall
  · exact Or.inl ⟨hsmall, rfl⟩
  · exact Or.inr ⟨not_lt.1 hsmall, rfl⟩

/-- A run takes out what it has posted exactly when its batch ends well. -/
theorem taken_eq_done_iff (honce : m.postCountOnce ≠ 0) (post : ℕ → Str → ν → PostResult) :
    m.taken post = (m.loop post).done ↔ m.BatchEndsWell post := by
  have hends := loop_endsAt honce post
  have hrow := m.row_le post
  have hlimit := m.limit_cases
  unfold taken BatchEndsWell
  rw [hends.done, hends.count]
  by_cases hfailed : (m.loop post).failed = true
  · obtain ⟨hlt, hanswer⟩ := hends.failed.1 hfailed
    rw [if_pos hfailed]
    constructor
    · intro hzero
      exact ⟨by omega, fun hpos => absurd hpos (by omega)⟩
    · rintro ⟨hsmall, hnot⟩
      by_contra hne
      exact hnot (by omega) (by omega) hanswer
  · have hanswer : m.row post < m.limit → (answers m.postUrl post 0 m.recordList)[m.row post]? ≠ some .failed :=
      fun hlt hanswer => hfailed (hends.failed.2 ⟨hlt, hanswer⟩)
    rw [if_neg hfailed]
    by_cases hsmall : min (m.row post) m.limit < 2 ^ 15
    · rw [toInt_ofNat_of_lt hsmall, Int.toNat_natCast]
      exact iff_of_true rfl ⟨by omega, fun _ hlt => hanswer (by omega)⟩
    · have hcount := toInt_lt (BitVec.ofNat 16 (min (m.row post) m.limit))
      exact iff_of_false (by omega) fun h => absurd h.1 (by omega)

theorem posts_le (honce : m.postCountOnce ≠ 0) (hwell : m.BatchEndsWell post) :
    (m.loop post).posts ≤ m.postCountOnce.toNat := by
  have hends := loop_endsAt honce post
  have hle := hends.posts_le
  have hsucc := hends.posts_succ
  have hlimit := m.limit_cases
  have hsmall := hwell.1
  have hrow := m.row_le post
  omega

theorem Clean.setPostCountOnce (h : m.Clean) (count : BitVec 16) : (m.setPostCountOnce count).Clean := by
  refine ⟨h.maxLogSize, ?_, h.exact⟩
  have hmax := h.maxLogSize
  unfold HttpPostLogMgr.setPostCountOnce
  dsimp only
  split_ifs with hzero hlarge
  · decide
  · intro heq
    have htoNat := congrArg BitVec.toNat heq
    rw [BitVec.toNat_ofInt] at htoNat
    change _ = 0 at htoNat
    have hcount := count.isLt
    omega
  · exact hzero

/-- Every step is defined. -/
theorem Clean.step_isSome (h : m.Clean) (e : PostLogEvent ν) : ∃ m', m.step e = some m' := by
  cases e with
  | setPostCountOnce count => exact ⟨_, rfl⟩
  | endRecord record => exact ⟨_, rfl⟩
  | run post =>
      by_cases hurl : m.postUrl = []
      · exact ⟨m, by rw [step, HttpPostLogMgr.run, if_pos hurl, Option.map_some]⟩
      · obtain ⟨r, hrun, -⟩ := h.run hurl post
        exact ⟨r.2, by rw [step, hrun, Option.map_some]⟩

/-- A step that ends well posts every record that it takes out. -/
theorem Clean.step (h : m.Clean) {e : PostLogEvent ν} {m' : HttpPostLogMgr ν} (hwell : m.EndsWell e)
    (hstep : m.step e = some m') : m'.Clean ∧ PostsOnce m e m' := by
  cases e with
  | setPostCountOnce count =>
      obtain rfl := Option.some.inj hstep
      exact ⟨h.setPostCountOnce count, h.exact, Nat.zero_le _⟩
  | endRecord record =>
      obtain rfl := Option.some.inj hstep
      exact ⟨⟨h.maxLogSize, h.once, h.exact⟩, h.exact, Nat.zero_le _⟩
  | run post =>
      obtain ⟨r, hrun, rfl⟩ := Option.map_eq_some_iff.1 hstep
      by_cases hurl : m.postUrl = []
      · rw [HttpPostLogMgr.run, if_pos hurl] at hrun
        obtain rfl := Option.some.inj hrun
        refine ⟨h, h.exact, ?_⟩
        rw [posts, if_pos hurl]
        exact Nat.zero_le _
      · have hbatch := hwell.resolve_left hurl
        obtain ⟨r', hrun', hmax, honce, hposted, hremoved⟩ := h.run hurl post
        obtain rfl := Option.some.inj (hrun.symm.trans hrun')
        have hexact : r.2.posted = List.range r.2.removed := by
          rw [hposted, hremoved, (taken_eq_done_iff h.once post).2 hbatch]
        refine ⟨⟨hmax.symm ▸ h.maxLogSize, honce.symm ▸ h.once, hexact⟩, hexact, ?_⟩
        rw [posts, if_neg hurl]
        exact posts_le h.once hbatch

theorem Clean.endsWell_of_postsOnce (h : m.Clean) {e : PostLogEvent ν}
    (hall : ∀ m', m.step e = some m' → PostsOnce m e m') : m.EndsWell e := by
  cases e with
  | setPostCountOnce count => trivial
  | endRecord record => trivial
  | run post =>
      by_cases hurl : m.postUrl = []
      · exact Or.inl hurl
      · obtain ⟨r, hrun, -, -, hposted, hremoved⟩ := h.run hurl post
        have hexact := (hall r.2 (by rw [HttpPostLogMgr.step, hrun, Option.map_some])).1
        rw [hposted, hremoved] at hexact
        have hlength := congrArg List.length hexact
        rw [List.length_range, List.length_range] at hlength
        exact Or.inr ((taken_eq_done_iff h.once post).1 (by omega))

/-- In a run of the program, each record that is taken out has been posted once, in its turn, and no other record has
been posted, exactly when every batch ends well. -/
theorem postsOnce_iff (hclean : m.Clean) (es : List (PostLogEvent ν)) :
    (machine ν).Along EndsWell m es ↔ (machine ν).EachStep PostsOnce m es :=
  Machine.along_iff_eachStep (fun _ _ _ h hwell hstep => h.step hwell hstep)
    (fun _ _ h hall => h.endsWell_of_postsOnce hall) hclean es

/-- Two records, with a value that says nothing. -/
def twoRecords : HttpPostLogMgr Unit := ((init 5000 [104]).endRecord ⟨[97], ()⟩).endRecord ⟨[98], ()⟩

theorem clean_twoRecords : twoRecords.Clean := ⟨by decide, by decide, rfl⟩

theorem twoRecords_posted : (machine Unit).EachStep PostsOnce twoRecords [.run fun _ _ _ => .posted] := by
  refine (postsOnce_iff clean_twoRecords _).1 ⟨Or.inr ⟨by decide, fun _ _ => by decide⟩, fun _ _ => trivial⟩

/-- The second post fails, so both records stay, and the first one is posted again. -/
theorem twoRecords_repeated :
    ¬(machine Unit).EachStep PostsOnce twoRecords [.run fun n _ _ => if n = 0 then .posted else .failed] ∧
      ((machine Unit).run twoRecords [.run fun n _ _ => if n = 0 then .posted else .failed,
        .run fun _ _ _ => .posted]).map HttpPostLogMgr.posted = some [0, 0, 1] := by
  refine ⟨fun heach => ?_, by decide⟩
  have hexact := (heach [] _ [] twoRecords _ rfl rfl rfl).1
  exact absurd hexact (by decide)

end HttpPostLogMgr

end JmyGame
