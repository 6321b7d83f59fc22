import JmyGame.LibMachine
import JmyGame.LibUnorderedMap
import JmyGame.CommonMessages

/-! `UserManager` of the login server: the users by id and the ids by account. An account is deleted together with
its user; the user alone can be deleted as well, and its account stays. -/

namespace JmyGame

inductive UserState where
  | idle
  | logining
  | verified
  | enteringGame
  | inGame
  | quitGame
  deriving DecidableEq, Repr

/-- `User`, with references to connection managers of a type. -/
structure User (μ : Type) where
  id : BitVec 32
  mgr : μ
  account : Str
  state : UserState
  deriving DecidableEq

/-- `User::init`. -/
def User.init {μ : Type} (id : BitVec 32) (mgr : μ) (account : Str) : User μ := ⟨id, mgr, account, .idle⟩

structure UserManager (μ : Type) where
  account2id : UnorderedMap Str (BitVec 32)
  id2user : UnorderedMap (BitVec 32) (User μ)

namespace UserManager

variable {μ : Type}

def empty : UserManager μ := ⟨∅, ∅⟩

variable (m : UserManager μ)

/-- `newUser` with the text that `account` points to. -/
def newUser (id : BitVec 32) (mgr : μ) (account : Str) : Option (User μ) × UserManager μ :=
  match m.id2user.find id with
  | some _ => (none, m)
  | none => match m.account2id.find account with
      | some _ => (none, m)
      | none =>
          let user := User.init id mgr account
          (some user, ⟨m.account2id.emplace account id, m.id2user.emplace id user⟩)

/-- `deleteUserById`. The account of the user stays. -/
def deleteUserById (id : BitVec 32) : Bool × UserManager μ :=
  match m.id2user.find id with
  | none => (false, m)
  | some _ => (true, { m with id2user := m.id2user.remove id })

def deleteUser (account : Str) : Bool × UserManager μ :=
  match m.account2id.find account with
  | none => (false, m)
  | some id => match m.deleteUserById id with
      | (false, m₁) => (false, m₁)
      | (true, m₁) => (true, { m₁ with account2id := m₁.account2id.remove account })

def setUserStateById (id : BitVec 32) (state : UserState) : Bool × UserManager μ :=
  match m.id2user.find id with
  | none => (false, m)
  | some _ => (true, { m with id2user := m.id2user.modify id fun user => { user with state := state } })

def setUserState (account : Str) (state : UserState) : Bool × UserManager μ :=
  match m.account2id.find account with
  | none => (false, m)
  | some id => m.setUserStateById id state

end UserManager

/-- A call of the manager. -/
inductive UserCall (μ : Type) where
  | newUser (id : BitVec 32) (mgr : μ) (account : Str)
  | deleteUser (account : Str)
  | deleteUserById (id : BitVec 32)
  | setUserState (account : Str) (state : UserState)
  | setUserStateById (id : BitVec 32) (state : UserState)

namespace UserManager

variable {μ : Type}

def call (m : UserManager μ) : UserCall μ → UserManager μ
  | .newUser id mgr account => (m.newUser id mgr account).2
  | .deleteUser account => (m.deleteUser account).2
  | .deleteUserById id => (m.deleteUserById id).2
  | .setUserState account state => (m.setUserState account state).2
  | .setUserStateById id state => (m.setUserStateById id state).2

def machine (μ : Type) : Machine (UserManager μ) (UserCall μ) := ⟨fun m c => some (m.call c)⟩

/-- The two maps describe the same users. -/
def Agree (m : UserManager μ) : Prop :=
  ∀ account id, m.account2id.find account = some id ↔
    ∃ user, m.id2user.find id = some user ∧ user.account = account

/-- Behind the call the maps agree, and a user with the id and the account of one that the call has deleted can be
created. -/
def Tidies (m : UserManager μ) (_ : UserCall μ) (m' : UserManager μ) : Prop :=
  m'.Agree ∧ ∀ id user mgr, m.id2user.find id = some user → m'.id2user.find id = none →
    (m'.newUser id mgr user.account).1 ≠ none

/-- The call does not delete a user by its id. -/
def KeepsAccount (m : UserManager μ) : UserCall μ → Prop
  | .deleteUserById id => m.id2user.find id = none
  | _ => True

variable {m m' : UserManager μ} {id : BitVec 32} {account : Str} {user : User μ}

theorem Agree.empty : (empty : UserManager μ).Agree := by
  intro account id
  rw [UserManager.empty, UnorderedMap.find_empty, UnorderedMap.find_empty]
  exact iff_of_false (nomatch ·) fun ⟨_, h, _⟩ => nomatch h

/-- An account has one user. -/
theorem Agree.id_eq (h : m.Agree) {id' : BitVec 32} {user' : User μ} (hid : m.id2user.find id = some user)
    (hid' : m.id2user.find id' = some user') (haccount : user'.account = user.account) : id' = id := by
  have hfind := (h user.account id).2 ⟨user, hid, rfl⟩
  have hfind' := (h user.account id').2 ⟨user', hid', haccount⟩
  exact Option.some.inj (hfind'.symm.trans hfind)

theorem newUser_cases (m : UserManager μ) (id : BitVec 32) (mgr : μ) (account : Str) :
    (m.newUser id mgr account = (none, m) ∧ (m.id2user.find id ≠ none ∨ m.account2id.find account ≠ none)) ∨
    (m.id2user.find id = none ∧ m.account2id.find account = none ∧
      m.newUser id mgr account = (some (User.init id mgr account),
        ⟨m.account2id.emplace account id, m.id2user.emplace id (User.init id mgr account)⟩)) := by
  unfold newUser
  cases hid : m.id2user.find id with
  | some user => exact Or.inl ⟨rfl, Or.inl (Option.some_ne_none user)⟩
  | none =>
      cases haccount : m.account2id.find account with
      | some id' => exact Or.inl ⟨rfl, Or.inr (Option.some_ne_none id')⟩
      | none => exact Or.inr ⟨rfl, rfl, rfl⟩

theorem deleteUser_cases (m : UserManager μ) (account : Str) :
    (m.deleteUser account).2 = m ∨
      ∃ id, m.account2id.find account = some id ∧
        (m.deleteUser account).2 = ⟨m.account2id.remove account, m.id2user.remove id⟩ := by
  unfold deleteUser deleteUserById
  cases haccount : m.account2id.find account with
  | none => exact Or.inl rfl
  | some id =>
      dsimp only
      cases m.id2user.find id with
      | none => exact Or.inl rfl
      | some user => exact Or.inr ⟨id, rfl, rfl⟩

theorem setUserStateById_cases (m : UserManager μ) (id : BitVec 32) (state : UserState) :
    (m.setUserStateById id state).2 = m ∨
      (m.setUserStateById id state).2 =
        { m with id2user := m.id2user.modify id fun user => { user with state := state } } := by
  unfold setUserStateById
  cases m.id2user.find id with
  | none => exact Or.inl rfl
  | some user => exact Or.inr rfl

theorem setUserState_cases (m : UserManager μ) (account : Str) (state : UserState) :
    (m.setUserState account state).2 = m ∨
      ∃ id, (m.setUserState account state).2 = (m.setUserStateById id state).2 := by
  unfold setUserState
  cases m.account2id.find account with
  | none => exact Or.inl rfl
  | some id => exact Or.inr ⟨id, rfl⟩

theorem Agree.newUser (h : m.Agree) (hid : m.id2user.find id = none) (haccount : m.account2id.find account = none)
    (huser : user.account = account) :
    Agree ⟨m.account2id.emplace account id, m.id2user.emplace id user⟩ := by
  intro account' id'
  dsimp only
  rw [UnorderedMap.find_emplace haccount, UnorderedMap.find_emplace hid]
  by_cases heq : account' = account
  · rw [if_pos heq]
    constructor
    · intro hsome
      rw [if_pos (Option.some.inj hsome).symm]
      exact ⟨user, rfl, huser.trans heq.symm⟩
    · intro ⟨user', hfind, haccount'⟩
      by_cases hid' : id' = id
      · rw [hid']
      · rw [if_neg hid'] at hfind
        have hold := (h account' id').2 ⟨user', hfind, haccount'⟩
        rw [heq, haccount] at hold
        exact nomatch hold
  · rw [if_neg heq, h account' id']
    by_cases hid' : id' = id
    · rw [if_pos hid', hid', hid]
      refine iff_of_false (fun ⟨_, hnone, _⟩ => nomatch hnone) fun ⟨user', hsome, haccount'⟩ => heq ?_
      rw [← haccount', ← Option.some.inj hsome, huser]
    · rw [if_neg hid']

/-- Both entries of a user are erased. -/
theorem Agree.delete (h : m.Agree) (haccount : m.account2id.find account = some id) :
    Agree ⟨m.account2id.remove account, m.id2user.remove id⟩ := by
  obtain ⟨user, hid, huser⟩ := (h account id).1 haccount
  intro account' id'
  dsimp only
  rw [UnorderedMap.find_remove, UnorderedMap.find_remove]
  by_cases heq : account' = account
  · rw [if_pos heq]
    refine iff_of_false (nomatch ·) fun ⟨user', hfind, haccount'⟩ => ?_
    by_cases hid' : id' = id
    · rw [if_pos hid'] at hfind
      exact nomatch hfind
    · rw [if_neg hid'] at hfind
      exact hid' (h.id_eq hid hfind (haccount'.trans (heq.trans huser.symm)))
  · rw [if_neg heq, h account' id']
    by_cases hid' : id' = id
    · rw [if_pos hid', hid', hid]
      refine iff_of_false (fun ⟨user', hsome, haccount'⟩ => heq ?_) fun ⟨_, hnone, _⟩ => nomatch hnone
      rw [← haccount', ← Option.some.inj hsome, huser]
    · rw [if_neg hid']

/-- The state of a user is not what the maps agree on. -/
theorem Agree.setState (h : m.Agree) (id : BitVec 32) (state : UserState) :
    Agree { m with id2user := m.id2user.modify id fun user => { user with state := state } } := by
  intro account id'
  refine (h account id').trans (Option.map_eq_some_iff.symm.trans (Iff.trans ?_ Option.map_eq_some_iff))
  dsimp only
  rw [UnorderedMap.find_modify]
  by_cases hid' : id' = id
  · rw [if_pos hid', Option.map_map, hid']
    rfl
  · rw [if_neg hid']

/-- A call that deletes no user by its id keeps the maps in agreement. -/
theorem Agree.call (h : m.Agree) {c : UserCall μ} (hc : m.KeepsAccount c) : (m.call c).Agree := by
  cases c with
  | newUser id mgr account =>
      rcases newUser_cases m id mgr account with ⟨hnone, -⟩ | ⟨hid, haccount, hsome⟩
      · rw [UserManager.call, hnone]
        exact h
      · rw [UserManager.call, hsome]
        exact h.newUser hid haccount rfl
  | deleteUser account =>
      rw [UserManager.call]
      rcases deleteUser_cases m account with hsame | ⟨id, haccount, hdelete⟩
      · rw [hsame]
        exact h
      · rw [hdelete]
        exact h.delete haccount
  | deleteUserById id =>
      have hnone : m.id2user.find id = none := hc
      rw [UserManager.call, deleteUserById, hnone]
      exact h
  | setUserState account state =>
      rw [UserManager.call]
      rcases setUserState_cases m account state with hsame | ⟨id, hset⟩
      · rw [hsame]
        exact h
      · rw [hset]
        rcases setUserStateById_cases m id state with hsame | hset'
        · rw [hsame]
          exact h
        · rw [hset']
          exact h.setState id state
  | setUserStateById id state =>
      rw [UserManager.call]
      rcases setUserStateById_cases m id state with hsame | hset
      · rw [hsame]
        exact h
      · rw [hset]
        exact h.setState id state

theorem exists_of_find_remove {id' : BitVec 32} (hfind : (m.id2user.remove id).find id' = some user) :
    m.id2user.find id' = some user := by
  rw [UnorderedMap.find_remove] at hfind
  split_ifs at hfind
  exact hfind

theorem exists_of_find_setUserStateById {id' : BitVec 32} {state : UserState}
    (hfind : (m.setUserStateById id' state).2.id2user.find id = some user) :
    ∃ user', m.id2user.find id = some user' ∧ user'.account = user.account := by
  rcases setUserStateById_cases m id' state with hsame | hset
  · rw [hsame] at hfind
    exact ⟨user, hfind, rfl⟩
  · rw [hset] at hfind
    dsimp only at hfind
    rw [UnorderedMap.find_modify] at hfind
    split_ifs at hfind with heq
    · obtain ⟨user', hfind', huser⟩ := Option.map_eq_some_iff.1 hfind
      refine ⟨user', heq ▸ hfind', ?_⟩
      rw [← huser]
    · exact ⟨user, hfind, rfl⟩

/-- A user behind a call has been there with its account, or its account has not. -/
theorem origin_call (m : UserManager μ) (c : UserCall μ) (hid : (m.call c).id2user.find id = some user) :
    (∃ user', m.id2user.find id = some user' ∧ user'.account = user.account) ∨
      m.account2id.find user.account = none := by
  cases c with
  | newUser id' mgr account =>
      rw [UserManager.call] at hid
      rcases newUser_cases m id' mgr account with ⟨hnone, -⟩ | ⟨hfree, haccount, hsome⟩
      · rw [hnone] at hid
        exact Or.inl ⟨user, hid, rfl⟩
      · rw [hsome] at hid
        dsimp only at hid
        rw [UnorderedMap.find_emplace hfree] at hid
        split_ifs at hid with heq
        · refine Or.inr ?_
          rw [← Option.some.inj hid]
          exact haccount
        · exact Or.inl ⟨user, hid, rfl⟩
  | deleteUser account =>
      rw [UserManager.call] at hid
      rcases deleteUser_cases m account with hsame | ⟨id', -, hdelete⟩
      · rw [hsame] at hid
        exact Or.inl ⟨user, hid, rfl⟩
      · rw [hdelete] at hid
        exact Or.inl ⟨user, exists_of_find_remove hid, rfl⟩
  | deleteUserById id' =>
      rw [UserManager.call, deleteUserById] at hid
      cases hfind : m.id2user.find id' with
      | none =>
          rw [hfind] at hid
          exact Or.inl ⟨user, hid, rfl⟩
      | some user' =>
          rw [hfind] at hid
          exact Or.inl ⟨user, exists_of_find_remove hid, rfl⟩
  | setUserState account state =>
      rw [UserManager.call] at hid
      rcases setUserState_cases m account state with hsame | ⟨id', hset⟩
      · rw [hsame] at hid
        exact Or.inl ⟨user, hid, rfl⟩
      · rw [hset] at hid
        exact Or.inl (exists_of_find_setUserStateById hid)
  | setUserStateById id' state => exact Or.inl (exists_of_find_setUserStateById hid)

/-- Where the maps agree before and behind a call, a user that it has deleted can be created again. -/
theorem Agree.tidies (h : m.Agree) {c : UserCall μ} (h' : (m.call c).Agree) : m.Tidies c (m.call c) := by
  refine ⟨h', fun id user mgr hid hgone => ?_⟩
  rcases newUser_cases (m.call c) id mgr user.account with ⟨-, hlive | haccount⟩ | ⟨-, -, hsome⟩
  · exact absurd hgone hlive
  · obtain ⟨id', hfind⟩ := Option.ne_none_iff_exists'.1 haccount
    obtain ⟨user', hid', huser'⟩ := (h' user.account id').1 hfind
    exfalso
    rcases origin_call m c hid' with ⟨user₀, hold, huser₀⟩ | hnone
    · have heq := h.id_eq hid hold (huser₀.trans huser')
      rw [heq, hgone] at hid'
      exact nomatch hid'
    · rw [huser', (h user.account id).2 ⟨user, hid, rfl⟩] at hnone
      exact nomatch hnone
  · rw [hsome]
    exact Option.some_ne_none _

/-- The maps agree and deleted users can be created again along a run exactly when no call of the run deletes a user
by its id. -/
theorem keepsAccount_iff_tidies (calls : List (UserCall μ)) :
    (machine μ).Along KeepsAccount empty calls ↔ (machine μ).EachStep Tidies empty calls := by
  refine Machine.along_iff_eachStep (I := Agree) (fun m c m' h hc hm' => ?_) (fun m c h hall => ?_) Agree.empty calls
  · cases hm'
    have h' := h.call hc
    exact ⟨h', h.tidies h'⟩
  · cases c with
    | deleteUserById id =>
        show m.id2user.find id = none
        by_contra hlive
        obtain ⟨user, hid⟩ := Option.ne_none_iff_exists'.1 hlive
        have h' : (m.call (.deleteUserById id)).Agree := (hall _ rfl).1
        rw [call, deleteUserById, hid] at h'
        -- the account still leads to the id, which has no user
        obtain ⟨user', hfind, -⟩ := (h' user.account id).1 ((h user.account id).2 ⟨user, hid, rfl⟩)
        rw [UnorderedMap.find_remove_self] at hfind
        exact nomatch hfind
    | newUser id mgr account => trivial
    | deleteUser account => trivial
    | setUserState account state => trivial
    | setUserStateById id state => trivial

/-- A user that has been deleted by its id leaves its account behind, which cannot be used again. -/
theorem tidies_fails : ¬ (machine ℕ).EachStep Tidies empty [.newUser 1 0 [97], .deleteUserById 1] := by
  intro h
  obtain ⟨hagree, hagain⟩ := h [.newUser 1 0 [97]] (.deleteUserById 1) [] _ _ rfl rfl rfl
  refine hagain 1 (User.init 1 0 [97]) 0 ?_ ?_ ?_ <;> rfl

end UserManager

end JmyGame
