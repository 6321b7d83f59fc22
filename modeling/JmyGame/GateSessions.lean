import JmyGame.GateClients

/-! The enter sessions of accounts. The session map of `ClientManager` is compared with the history of
the calls that grant and check sessions: it holds a session exactly when its grant is the last one of the
account and no check with it came after. -/

namespace JmyGame

/-- A call of `newAccountSession` or `checkSessionByAccount` at a time. -/
inductive SessionCall where
  | grant (time : ℤ) (account session : Str)
  | check (time : ℤ) (account session : Str)
  deriving DecidableEq

namespace SessionCall

def account : SessionCall → Str
  | grant _ account _ => account
  | check _ account _ => account

/-- The result of the call and the manager it leaves. -/
def call (m : ClientManager) : SessionCall → Bool × ClientManager
  | grant time account session => (true, m.newAccountSession time account session)
  | check time account session => m.checkSessionByAccount time account session

end SessionCall

/-- The manager after the calls. -/
def afterCalls (m : ClientManager) (calls : List SessionCall) : ClientManager :=
  calls.foldl (fun m k => (k.call m).2) m

/-- The checks on an account that are accepted during the calls. -/
def acceptedChecks (account : Str) : ClientManager → List SessionCall → List SessionCall
  | _, [] => []
  | m, .grant time a s :: calls => acceptedChecks account (m.newAccountSession time a s) calls
  | m, .check time a s :: calls =>
    (if a = account ∧ (m.checkSessionByAccount time a s).1 = true then [.check time a s] else []) ++
      acceptedChecks account (m.checkSessionByAccount time a s).2 calls

/-- The session is the last one that was granted to the account, at that time, and no check with it came
after. -/
def Granted (calls : List SessionCall) (account session : Str) (time : ℤ) : Prop :=
  ∃ before after, calls = before ++ .grant time account session :: after ∧
    ∀ k ∈ after, k.account = account → ∃ time' guess, k = .check time' account guess ∧ guess ≠ session

section

variable {m : ClientManager} {calls : List SessionCall} {account session : Str} {time : ℤ}

theorem afterCalls_concat (m : ClientManager) (calls : List SessionCall) (k : SessionCall) :
    afterCalls m (calls ++ [k]) = (k.call (afterCalls m calls)).2 := by
  unfold afterCalls
  rw [List.foldl_append]
  rfl

/-- A grant is the last call on its account, or was there before the last call and is not used by it. -/
theorem granted_concat (k : SessionCall) : Granted (calls ++ [k]) account session time ↔
    k = .grant time account session ∨ Granted calls account session time ∧
      (k.account = account → ∃ time' guess, k = .check time' account guess ∧ guess ≠ session) := by
  constructor
  · rintro ⟨before, after, heq, hafter⟩
    rcases List.eq_nil_or_concat after with rfl | ⟨after', k', rfl⟩
    · obtain ⟨-, hk⟩ := List.append_inj' heq rfl
      exact Or.inl (List.cons.inj hk).1
    · rw [List.concat_eq_append] at heq hafter
      rw [← List.cons_append, ← List.append_assoc] at heq
      obtain ⟨hcalls, hk⟩ := List.append_inj' heq rfl
      obtain rfl : k = k' := (List.cons.inj hk).1
      refine Or.inr ⟨⟨before, after', hcalls, ?_⟩, ?_⟩
      · exact fun k' hk' => hafter k' (List.mem_append_left _ hk')
      · exact hafter k (List.mem_append_right _ (List.mem_singleton_self k))
  · rintro (rfl | ⟨⟨before, after, rfl, hafter⟩, hk⟩)
    · exact ⟨calls, [], rfl, fun k hk => absurd hk List.not_mem_nil⟩
    · refine ⟨before, after ++ [k], ?_, ?_⟩
      · rw [List.append_assoc, List.cons_append]
      · intro k' hk'
        rcases List.mem_append.1 hk' with hk' | hk'
        · exact hafter k' hk'
        · rw [List.mem_singleton.1 hk']
          exact hk

theorem check_of_none (h : m.accountSessionMap account = none) :
    m.checkSessionByAccount time account session = (false, m) := by
  unfold ClientManager.checkSessionByAccount
  rw [h]

/-- A wrong guess changes nothing. -/
theorem check_of_wrong {si : SessionInfo} (h : m.accountSessionMap account = some si)
    (hne : si.session ≠ session) : m.checkSessionByAccount time account session = (false, m) := by
  unfold ClientManager.checkSessionByAccount
  simp only [h, if_pos hne]

theorem check_of_right {si : SessionInfo} (h : m.accountSessionMap account = some si)
    (heq : si.session = session) : m.checkSessionByAccount time account session =
      (decide (time - si.getSessionTime ≤ 100),
        { m with accountSessionMap := Function.update m.accountSessionMap account none }) := by
  unfold ClientManager.checkSessionByAccount
  simp only [h, if_neg (not_not.2 heq)]

/-- A call on one account leaves the sessions of the others alone. -/
theorem call_other (k : SessionCall) (hne : k.account ≠ account) :
    (k.call m).2.accountSessionMap account = m.accountSessionMap account := by
  cases k with
  | grant time a s => exact Function.update_of_ne (Ne.symm hne) _ _
  | check time a s =>
      change (m.checkSessionByAccount time a s).2.accountSessionMap account = _
      cases hmap : m.accountSessionMap a with
      | none => rw [check_of_none hmap]
      | some si =>
          by_cases hsession : si.session = s
          · rw [check_of_right hmap hsession]
            exact Function.update_of_ne (Ne.symm hne) _ _
          · rw [check_of_wrong hmap hsession]

/-- The session map after a history of calls. -/
theorem sessionMap_afterCalls (hm : m.accountSessionMap account = none) :
    (afterCalls m calls).accountSessionMap account = some ⟨session, time⟩ ↔
      Granted calls account session time := by
  induction calls using List.reverseRecOn generalizing session time with
  | nil =>
      refine iff_of_false ?_ ?_
      · rw [afterCalls, List.foldl_nil, hm]
        exact Option.some_ne_none _ ∘ Eq.symm
      · rintro ⟨before, after, heq, -⟩
        cases before <;> cases heq
  | append_singleton calls k ih =>
      rw [afterCalls_concat, granted_concat]
      by_cases hk : k.account = account
      · cases k with
        | grant time' a s =>
            obtain rfl : a = account := hk
            have hmap : ((SessionCall.grant time' a s).call (afterCalls m calls)).2.accountSessionMap a =
                some ⟨s, time'⟩ := Function.update_self _ _ _
            rw [hmap]
            simp only [Option.some.injEq, SessionInfo.mk.injEq, SessionCall.grant.injEq, true_and]
            constructor
            · rintro ⟨rfl, rfl⟩
              exact Or.inl ⟨rfl, rfl⟩
            · rintro (⟨rfl, rfl⟩ | ⟨-, h⟩)
              · exact ⟨rfl, rfl⟩
              · obtain ⟨_, _, hcheck, -⟩ := h rfl
                cases hcheck
        | check time' a s =>
            obtain rfl : a = account := hk
            change ((afterCalls m calls).checkSessionByAccount time' a s).2.accountSessionMap a = _ ↔ _
            rw [← ih]
            cases hmap : (afterCalls m calls).accountSessionMap a with
            | none =>
                rw [check_of_none hmap, hmap]
                simp
            | some si =>
                by_cases hsession : si.session = s
                · rw [check_of_right hmap hsession]
                  simp only [Function.update_self, reduceCtorEq, false_or, false_iff]
                  rintro ⟨heq, h⟩
                  obtain ⟨_, guess, hcheck, hne⟩ := h rfl
                  cases hcheck
                  cases heq
                  exact hne hsession.symm
                · rw [check_of_wrong hmap hsession, hmap]
                  simp only [reduceCtorEq, false_or]
                  refine ⟨fun heq => ⟨heq, fun _ => ⟨time', s, rfl, ?_⟩⟩, And.left⟩
                  cases heq
                  exact Ne.symm hsession
      · rw [call_other k hk, ih]
        constructor
        · exact fun h => Or.inr ⟨h, fun hk' => absurd hk' hk⟩
        · rintro (rfl | ⟨h, -⟩)
          · exact absurd rfl hk
          · exact h

/-- What a check answers is in the entry of its account. -/
theorem check_eq_true : (m.checkSessionByAccount time account session).1 = true ↔
    ∃ t, m.accountSessionMap account = some ⟨session, t⟩ ∧ time - t ≤ 100 := by
  cases hmap : m.accountSessionMap account with
  | none =>
      rw [check_of_none hmap]
      simp
  | some si =>
      by_cases hsession : si.session = session
      · rw [check_of_right hmap hsession, decide_eq_true_eq]
        constructor
        · intro hage
          refine ⟨si.getSessionTime, ?_, hage⟩
          rw [← hsession]
        · rintro ⟨t, ht, hage⟩
          cases ht
          exact hage
      · rw [check_of_wrong hmap hsession]
        refine iff_of_false Bool.false_ne_true ?_
        rintro ⟨t, ht, -⟩
        cases ht
        exact hsession rfl

/-- A call sees nothing but the entry of its account. -/
theorem call_congr {m' : ClientManager} (k : SessionCall)
    (h : m.accountSessionMap k.account = m'.accountSessionMap k.account) :
    (k.call m).2.accountSessionMap k.account = (k.call m').2.accountSessionMap k.account := by
  cases k with
  | grant time a s =>
      change Function.update m.accountSessionMap a _ a = Function.update m'.accountSessionMap a _ a
      rw [Function.update_self, Function.update_self]
  | check time a s =>
      change m.accountSessionMap a = m'.accountSessionMap a at h
      change (m.checkSessionByAccount time a s).2.accountSessionMap a =
        (m'.checkSessionByAccount time a s).2.accountSessionMap a
      cases hmap : m'.accountSessionMap a with
      | none =>
          rw [hmap] at h
          rw [check_of_none h, check_of_none hmap, h, hmap]
      | some si =>
          rw [hmap] at h
          by_cases hsession : si.session = s
          · rw [check_of_right h hsession, check_of_right hmap hsession]
            simp only [Function.update_self]
          · rw [check_of_wrong h hsession, check_of_wrong hmap hsession, h, hmap]

/-- The entry of an account comes from the calls on this account alone. -/
theorem sessionMap_filter {m' : ClientManager}
    (h : m.accountSessionMap account = m'.accountSessionMap account) :
    (afterCalls m calls).accountSessionMap account =
      (afterCalls m' (calls.filter (·.account = account))).accountSessionMap account := by
  induction calls generalizing m m' with
  | nil => exact h
  | cons k calls ih =>
      by_cases hk : k.account = account
      · rw [List.filter_cons_of_pos (by simp [hk])]
        refine @ih (k.call m).2 (k.call m').2 ?_
        rw [← hk] at h ⊢
        exact call_congr k h
      · rw [List.filter_cons_of_neg (by simp [hk])]
        refine @ih (k.call m).2 m' ?_
        rw [call_other k hk]
        exact h

/-- Without a new grant at most one check is accepted. -/
theorem acceptedChecks_le (hno : ∀ time session, SessionCall.grant time account session ∉ calls) :
    (acceptedChecks account m calls).length ≤ if (m.accountSessionMap account).isSome then 1 else 0 := by
  induction calls generalizing m with
  | nil => exact Nat.zero_le _
  | cons k calls ih =>
      have hrest : ∀ time session, SessionCall.grant time account session ∉ calls := fun time session hmem =>
        hno time session (List.mem_cons_of_mem k hmem)
      cases k with
      | grant time a s =>
          have hne : a ≠ account := by
            rintro rfl
            exact hno time s List.mem_cons_self
          have hmap := call_other (m := m) (.grant time a s) hne
          refine (ih hrest).trans_eq ?_
          rw [← hmap]
          rfl
      | check time a s =>
          have hnext := @ih (m.checkSessionByAccount time a s).2 hrest
          rw [acceptedChecks, List.length_append]
          by_cases ha : a = account
          · subst ha
            cases hmap : m.accountSessionMap a with
            | none =>
                rw [check_of_none hmap] at hnext ⊢
                rw [hmap] at hnext
                simpa using hnext
            | some si =>
                by_cases hsession : si.session = s
                · rw [check_of_right hmap hsession] at hnext ⊢
                  simp only [Function.update_self, Option.isSome_none, Bool.false_eq_true, if_false,
                    Nat.le_zero] at hnext
                  rw [hnext, Option.isSome_some, if_pos rfl]
                  split_ifs
                  · exact le_refl 1
                  · exact Nat.zero_le 1
                · rw [check_of_wrong hmap hsession] at hnext ⊢
                  rw [hmap] at hnext
                  simpa using hnext
          · have hmap := call_other (m := m) (.check time a s) ha
            rw [if_neg fun h => ha h.1, List.length_nil, Nat.zero_add, ← hmap]
            exact hnext

end

/-- Sessions are good for one check. After every history of grants and checks, a check is accepted exactly
for the session that was granted to the account last, when no check with it came before and it is at most
100 seconds old; no grant is accepted twice; a check with another session changes nothing; and calls on
other accounts do not matter. -/
theorem enterSession_single_use (maxConn : ℕ) (startId : ℤ) (calls : List SessionCall) :
    (∀ time account session,
      ((afterCalls (.init maxConn startId) calls).checkSessionByAccount time account session).1 = true ↔
        ∃ t, Granted calls account session t ∧ time - t ≤ 100) ∧
    (∀ time account session more, (∀ t s, SessionCall.grant t account s ∉ more) →
      (acceptedChecks account
        (afterCalls (.init maxConn startId) (calls ++ [.grant time account session])) more).length ≤ 1) ∧
    (∀ time account guess, (∀ t, ¬Granted calls account guess t) →
      (afterCalls (.init maxConn startId) calls).checkSessionByAccount time account guess =
        (false, afterCalls (.init maxConn startId) calls)) ∧
    ∀ time account session,
      ((afterCalls (.init maxConn startId) calls).checkSessionByAccount time account session).1 =
        ((afterCalls (.init maxConn startId) (calls.filter (·.account = account))).checkSessionByAccount
          time account session).1 := by
  have hmap : ∀ account session t,
      (afterCalls (.init maxConn startId) calls).accountSessionMap account = some ⟨session, t⟩ ↔
        Granted calls account session t := fun _ _ _ => sessionMap_afterCalls rfl
  refine ⟨?_, ?_, ?_, ?_⟩
  · intro time account session
    rw [check_eq_true]
    simp only [hmap]
  · intro time account session more hno
    refine (acceptedChecks_le hno).trans ?_
    split_ifs <;> decide
  · intro time account guess hno
    cases hentry : (afterCalls (.init maxConn startId) calls).accountSessionMap account with
    | none => exact check_of_none hentry
    | some si =>
        apply check_of_wrong hentry
        rintro rfl
        exact hno si.getSessionTime ((hmap _ _ _).1 hentry)
  · intro time account session
    rw [Bool.eq_iff_iff, check_eq_true, check_eq_true, sessionMap_filter rfl]

end JmyGame
