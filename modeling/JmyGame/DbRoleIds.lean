import JmyGame.DbHandlers

/-! The role ids of `gen_unique_role_id`. An id is packed from the id of the server, sixteen bits of the
seconds of the clock and a counter of sixteen bits that starts with the process. Ids repeat when the clock
has gone through all of these bits and the counters meet. -/

namespace JmyGame

/-- The ids that a process generates when it is asked at these times. -/
def processRoleIds (serverId : ℤ) : DB → List ℕ → List (BitVec 64)
  | _, [] => []
  | d, time :: times =>
    (d.genUniqueRoleId serverId time).1 :: processRoleIds serverId (d.genUniqueRoleId serverId time).2 times

/-- The ids of processes that run one after the other. -/
def roleIds (serverId : ℤ) (procs : List (List ℕ)) : List (BitVec 64) :=
  procs.flatMap (processRoleIds serverId .start)

/-- The calls of all processes, each with its time and its number in its process. -/
def roleIdCalls (procs : List (List ℕ)) : List (ℕ × ℕ) := procs.flatMap fun times => times.zipIdx

/-- The id of a call at a time, with its number in the process. -/
def packRoleId (serverId : ℤ) (time number : ℕ) : BitVec 64 :=
  ((BitVec.ofInt 64 serverId <<< 48) &&& 0xffff000000000000) +
    ((BitVec.ofNat 64 time <<< 16) &&& 0xffff0000) + (BitVec.ofNat 16 number).setWidth 64

theorem toNat_seconds (time : ℕ) :
    ((BitVec.ofNat 64 time <<< 16) &&& (0xffff0000 : BitVec 64)).toNat = time % 2 ^ 16 * 2 ^ 16 := by
  have hmask : (0xffff0000 : BitVec 64) = 0xffff#64 <<< 16 := rfl
  have hlow : (BitVec.ofNat 64 time &&& 0xffff#64).toNat = time % 2 ^ 16 := by
    rw [BitVec.toNat_and, BitVec.toNat_ofNat]
    change time % 2 ^ 64 &&& (2 ^ 16 - 1) = _
    rw [Nat.and_two_pow_sub_one_eq_mod]
    omega
  rw [hmask, ← BitVec.shiftLeft_and_distrib, BitVec.toNat_shiftLeft, hlow, Nat.shiftLeft_eq]
  omega

/-- Seconds and counter are packed side by side, so an id tells both as far as their bits go. -/
theorem packRoleId_inj {serverId : ℤ} {time time' number number' : ℕ} :
    packRoleId serverId time number = packRoleId serverId time' number' ↔
      time % 2 ^ 16 = time' % 2 ^ 16 ∧ number % 2 ^ 16 = number' % 2 ^ 16 := by
  have hcounter : ∀ n : ℕ, ((BitVec.ofNat 16 n).setWidth 64).toNat = n % 2 ^ 16 := by
    intro n
    rw [BitVec.toNat_setWidth, BitVec.toNat_ofNat]
    omega
  unfold packRoleId
  rw [BitVec.add_assoc, BitVec.add_assoc, BitVec.add_right_inj, ← BitVec.toNat_inj, BitVec.toNat_add,
    BitVec.toNat_add, toNat_seconds, toNat_seconds, hcounter, hcounter]
  omega

/-- The counter of a process counts its calls. -/
theorem processRoleIds_eq (serverId : ℤ) (d : DB) (k : ℕ) (hd : d.counter = BitVec.ofNat 16 k)
    (times : List ℕ) :
    processRoleIds serverId d times = (times.zipIdx k).map fun c => packRoleId serverId c.1 c.2 := by
  induction times generalizing d k with
  | nil => rfl
  | cons time times ih =>
      have hnext : (d.genUniqueRoleId serverId time).2.counter = BitVec.ofNat 16 (k + 1) := by
        change d.counter + 1 = _
        rw [hd, BitVec.ofNat_add]
        rfl
      have hid : (d.genUniqueRoleId serverId time).1 = packRoleId serverId time k := by
        unfold DB.genUniqueRoleId packRoleId
        rw [hd]
      rw [processRoleIds, ih _ (k + 1) hnext, hid, List.zipIdx_cons, List.map_cons]

theorem roleIds_eq (serverId : ℤ) (procs : List (List ℕ)) :
    roleIds serverId procs = (roleIdCalls procs).map fun c => packRoleId serverId c.1 c.2 := by
  unfold roleIds roleIdCalls
  rw [List.map_flatMap]
  exact congrArg (procs.flatMap ·) (funext fun times => processRoleIds_eq serverId .start 0 rfl times)

/-- Calls of one process in one second have different counters, as long as they are not too many. -/
theorem zipIdx_same_second {times : List ℕ} (hsorted : times.Pairwise (· ≤ ·))
    (hrate : ∀ t, times.count t ≤ 2 ^ 16) :
    times.zipIdx.Pairwise fun a b => a.1 = b.1 → a.2 % 2 ^ 16 ≠ b.2 % 2 ^ 16 := by
  rw [List.pairwise_iff_getElem]
  intro i j hi hj hij hsame
  rw [List.length_zipIdx] at hi hj
  simp only [List.getElem_zipIdx, Nat.zero_add] at hsame ⊢
  -- the calls from `i` to `j` are all in the second of these two
  have hall : ∀ t ∈ (times.take (j + 1)).drop i, t = times[i] := by
    intro t ht
    obtain ⟨k, hk, rfl⟩ := List.getElem_of_mem ht
    rw [List.length_drop, List.length_take] at hk
    rw [List.getElem_drop, List.getElem_take]
    have hle : times[i] ≤ times[i + k] := by
      rcases Nat.eq_zero_or_pos k with rfl | hpos
      · exact le_refl _
      · exact List.pairwise_iff_getElem.1 hsorted i (i + k) hi (by omega) (by omega)
    have hge : times[i + k] ≤ times[j] := by
      rcases Nat.lt_or_ge (i + k) j with hlt | hge
      · exact List.pairwise_iff_getElem.1 hsorted (i + k) j (by omega) hj hlt
      · have : i + k = j := by omega
        simp only [this, le_refl]
    omega
  have hcount : ((times.take (j + 1)).drop i).count times[i] = j + 1 - i := by
    rw [List.count_eq_length.2 fun t ht => (hall t ht).symm, List.length_drop, List.length_take]
    omega
  have hle := ((List.drop_sublist i _).trans (List.take_sublist (j + 1) times)).count_le times[i]
  have hfew := hrate times[i]
  omega

/-- Calls in one second have different counters, in whatever processes they are. -/
theorem calls_same_second {procs : List (List ℕ)} (hsorted : procs.flatten.Pairwise (· ≤ ·))
    (hrate : ∀ t, procs.flatten.count t ≤ 2 ^ 16)
    (halive : procs.Pairwise fun times times' => ∀ t ∈ times, ∀ t' ∈ times', t < t') :
    (roleIdCalls procs).Pairwise fun a b => a.1 = b.1 → a.2 % 2 ^ 16 ≠ b.2 % 2 ^ 16 := by
  unfold roleIdCalls
  rw [List.pairwise_flatMap]
  constructor
  · intro times hmem
    have hsub : List.Sublist times procs.flatten := List.sublist_flatten_of_mem hmem
    exact zipIdx_same_second (hsorted.sublist hsub) fun t => (hsub.count_le t).trans (hrate t)
  · refine halive.imp ?_
    intro times times' hlt a ha b hb hsame
    have hbefore := hlt a.1 (List.fst_mem_of_mem_zipIdx ha) b.1 (List.fst_mem_of_mem_zipIdx hb)
    omega

/-- Of calls at times that are a multiple of `2 ^ 16` seconds apart, no two have numbers in their
processes that are a multiple of `2 ^ 16` apart. -/
def CountersApart (procs : List (List ℕ)) : Prop :=
  (roleIdCalls procs).Pairwise fun a b =>
    a.1 ≠ b.1 → a.1 % 2 ^ 16 = b.1 % 2 ^ 16 → a.2 % 2 ^ 16 ≠ b.2 % 2 ^ 16

/-- With a clock that does not go back, at most `2 ^ 16` calls in a second and processes that do not share a
second, ids are distinct exactly when the counters are apart whenever the bits of the clock come again. -/
theorem roleIds_nodup_iff (serverId : ℤ) (procs : List (List ℕ))
    (hsorted : procs.flatten.Pairwise (· ≤ ·)) (hrate : ∀ t, procs.flatten.count t ≤ 2 ^ 16)
    (halive : procs.Pairwise fun times times' => ∀ t ∈ times, ∀ t' ∈ times', t < t') :
    (roleIds serverId procs).Nodup ↔ CountersApart procs := by
  rw [roleIds_eq, List.Nodup, List.pairwise_map]
  constructor
  · intro hdistinct
    refine hdistinct.imp ?_
    intro a b hne _ htime hnumber
    exact hne (packRoleId_inj.2 ⟨htime, hnumber⟩)
  · intro hapart
    refine (hapart.and (calls_same_second hsorted hrate halive)).imp ?_
    rintro a b ⟨hapart, hsame⟩ heq
    obtain ⟨htime, hnumber⟩ := packRoleId_inj.1 heq
    by_cases hsecond : a.1 = b.1
    · exact hsame hsecond hnumber
    · exact hapart hsecond htime hnumber

theorem roleIds_nodup_one_day : (roleIds 1 [[0, 0, 7], [86400]]).Nodup :=
  (roleIds_nodup_iff 1 [[0, 0, 7], [86400]] (by decide)
    (fun t => (List.count_le_length (a := t)).trans (by decide)) (by decide)).2 (by unfold CountersApart; decide)

/-- A process that is started 65536 seconds after another one generates the ids of that one again. -/
theorem roleIds_repeat : ¬∀ (serverId : ℤ) (procs : List (List ℕ)), 0 ≤ serverId → serverId ≤ 65535 →
    procs.flatten.Pairwise (· ≤ ·) → (∀ t, procs.flatten.count t ≤ 2 ^ 16) →
    (procs.Pairwise fun times times' => ∀ t ∈ times, ∀ t' ∈ times', t < t') →
    (roleIds serverId procs).Nodup := by
  intro h
  have hnodup := h 1 [[0], [65536]] (by decide) (by decide) (by decide)
    (fun t => (List.count_le_length (a := t)).trans (by decide)) (by decide)
  exact absurd hnodup (by decide)

end JmyGame
