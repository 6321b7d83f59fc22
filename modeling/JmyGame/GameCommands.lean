import JmyGame.GameHandlers
import JmyGame.LibMachine

/-! The items of a player and the commands of the game masters that change them. `add_item` adds in 32 bits and compares
the sum as a signed number; a command reads its parameters by their place in the words of the text, and
`parse_command` does not count them. -/

namespace JmyGame

open CArith

namespace ItemMgr

variable (m : ItemMgr) (typeId typeId' itemNum : BitVec 32)

theorem count_set : (m.set typeId itemNum).count typeId' = if typeId' = typeId then itemNum else m.count typeId' := by
  unfold count set
  dsimp only
  rw [Function.update_apply]
  split_ifs <;> rfl

/-- The first addition of a type is one to nothing. -/
theorem addItem_eq (itemTable : BitVec 32 → Option ℤ) :
    m.addItem itemTable typeId itemNum = (itemTable typeId).map fun maxCount => m.set typeId
      (if maxCount < (m.count typeId + itemNum).toInt then BitVec.ofInt 32 maxCount else m.count typeId + itemNum) := by
  unfold addItem count
  cases m.items typeId with
  | none => simp
  | some num => rfl

/-- What is not there cannot be removed; removing nothing of it changes nothing. -/
theorem rmItem_count {m' : ItemMgr} (h : m.rmItem typeId itemNum = some m') :
    itemNum.toNat ≤ (m.count typeId).toNat ∧ m' = m.set typeId (m.count typeId - itemNum) := by
  unfold rmItem at h
  unfold count
  split at h
  · cases h
  · rename_i num hnum
    obtain ⟨hle, hset⟩ := Option.ite_none_left_eq_some.1 h
    cases hset
    rw [hnum, Option.getD_some]
    exact ⟨not_lt.1 hle, rfl⟩

theorem rmItem_refused (h : m.rmItem typeId itemNum = none) :
    (m.count typeId).toNat < itemNum.toNat ∨ (m.count typeId).toNat = 0 ∧ itemNum.toNat = 0 := by
  unfold rmItem at h
  unfold count
  split at h
  · rename_i hnum
    rw [hnum, Option.getD_none]
    exact (Nat.eq_zero_or_pos itemNum.toNat).symm.imp_right fun hzero => ⟨rfl, hzero⟩
  · rename_i num hnum
    rw [hnum, Option.getD_some]
    left
    by_contra hle
    rw [if_neg hle] at h
    cases h

end ItemMgr

inductive ItemCall where
  | add (typeId itemNum : BitVec 32)
  | rm (typeId itemNum : BitVec 32)
  deriving DecidableEq

/-- The items of a player, and the counts that the calls give over the integers. -/
structure ItemRun where
  mgr : ItemMgr
  model : BitVec 32 → ℤ

namespace ItemRun

def start : ItemRun := ⟨.empty, fun _ => 0⟩

/-- One call. Both sides refuse to add a type that is not in the table. -/
def call (itemTable : BitVec 32 → Option ℤ) (s : ItemRun) : ItemCall → ItemRun
  | .add typeId itemNum => {
      mgr := (s.mgr.addItem itemTable typeId itemNum).getD s.mgr
      model := match itemTable typeId with
        | none => s.model
        | some maxCount => Function.update s.model typeId (min maxCount (s.model typeId + itemNum.toNat)) }
  | .rm typeId itemNum => {
      mgr := (s.mgr.rmItem typeId itemNum).getD s.mgr
      model := if s.model typeId < itemNum.toNat then s.model
        else Function.update s.model typeId (s.model typeId - itemNum.toNat) }

end ItemRun

def itemCountMachine (itemTable : BitVec 32 → Option ℤ) : Machine ItemRun ItemCall :=
  ⟨fun s e => some (s.call itemTable e)⟩

/-- The stored count is that of the model, and not more than there may be. -/
def Clamped (typeId : BitVec 32) (maxCount : ℤ) (s : ItemRun) : Prop :=
  ((s.mgr.count typeId).toNat : ℤ) = s.model typeId ∧ ((s.mgr.count typeId).toNat : ℤ) ≤ maxCount

/-- The stored count is right in every state of the run. -/
def AlwaysClamped (itemTable : BitVec 32 → Option ℤ) (typeId : BitVec 32) (maxCount : ℤ) (es : List ItemCall) : Prop :=
  ∀ es₁ es₂ s, es = es₁ ++ es₂ → (itemCountMachine itemTable).run .start es₁ = some s → Clamped typeId maxCount s

/-- An addition to the type stays in the range of an `int`. -/
def ItemCall.Small (typeId : BitVec 32) (s : ItemRun) : ItemCall → Prop
  | .add typeId' itemNum => typeId' = typeId → (s.mgr.count typeId).toNat + itemNum.toNat < 2 ^ 31
  | .rm _ _ => True

instance (typeId : BitVec 32) (s : ItemRun) : DecidablePred (ItemCall.Small typeId s)
  | .add _ _ => inferInstanceAs (Decidable (_ → _))
  | .rm _ _ => inferInstanceAs (Decidable True)

/-- A sum from `2^31` on is negative as an `int`, and one from `2^32` on has lost its carry. -/
theorem clamp_eq_min_iff {c n : BitVec 32} {maxCount : ℤ} (hmax : maxCount < 2 ^ 31) (hc : (c.toNat : ℤ) ≤ maxCount) :
    ((if maxCount < (c + n).toInt then BitVec.ofInt 32 maxCount else c + n).toNat : ℤ) =
      min maxCount (c.toNat + n.toNat) ↔ c.toNat + n.toNat < 2 ^ 31 := by
  have hn := n.isLt
  have hclamp : (BitVec.ofInt 32 maxCount).toNat = maxCount.toNat := by
    rw [BitVec.toNat_ofInt]
    omega
  have hint := BitVec.toInt_eq_toNat_cond (c + n)
  have hsum := BitVec.toNat_add c n
  split_ifs at hint ⊢ with hlt hneg
  all_goals omega

namespace Clamped

variable {itemTable : BitVec 32 → Option ℤ} {typeId : BitVec 32} {maxCount : ℤ} {s : ItemRun}

/-- The count after an addition is that of the model exactly when the sum is small. -/
theorem add_iff (h : Clamped typeId maxCount s) (htable : itemTable typeId = some maxCount) (hmax : maxCount < 2 ^ 31)
    (itemNum : BitVec 32) : Clamped typeId maxCount (s.call itemTable (.add typeId itemNum)) ↔
      (s.mgr.count typeId).toNat + itemNum.toNat < 2 ^ 31 := by
  rw [← clamp_eq_min_iff hmax h.2]
  simp only [Clamped, ItemRun.call, ItemMgr.addItem_eq, htable, Option.map_some, Option.getD_some, ItemMgr.count_set,
    if_true, Function.update_self, ← h.1]
  exact ⟨And.left, fun heq => ⟨heq, heq ▸ min_le_left _ _⟩⟩

theorem add_other (h : Clamped typeId maxCount s) {typeId' : BitVec 32} (hne : typeId' ≠ typeId)
    (itemNum : BitVec 32) : Clamped typeId maxCount (s.call itemTable (.add typeId' itemNum)) := by
  unfold Clamped ItemRun.call
  dsimp only
  rw [ItemMgr.addItem_eq]
  cases itemTable typeId' with
  | none => exact h
  | some maxCount' =>
      simp only [Option.map_some, Option.getD_some, ItemMgr.count_set, if_neg hne.symm, Function.update_of_ne hne.symm]
      exact h

theorem rm (h : Clamped typeId maxCount s) (typeId' itemNum : BitVec 32) :
    Clamped typeId maxCount (s.call itemTable (.rm typeId' itemNum)) := by
  unfold Clamped ItemRun.call
  dsimp only
  by_cases heq : typeId' = typeId
  · subst heq
    rw [← h.1]
    cases hrm : s.mgr.rmItem typeId' itemNum with
    | none =>
        rw [Option.getD_none]
        refine ⟨?_, h.2⟩
        rcases ItemMgr.rmItem_refused _ _ _ hrm with hlt | ⟨hzero, hnum⟩
        · rw [if_pos (Int.ofNat_lt.2 hlt)]
          exact h.1
        · rw [if_neg (by omega), Function.update_self, hnum]
          exact (Int.sub_zero _).symm
    | some mgr =>
        obtain ⟨hle, rfl⟩ := ItemMgr.rmItem_count _ _ _ hrm
        have hsub : (s.mgr.count typeId' - itemNum).toNat = (s.mgr.count typeId').toNat - itemNum.toNat :=
          BitVec.toNat_sub_of_le (BitVec.le_def.2 hle)
        rw [Option.getD_some, ItemMgr.count_set, if_pos rfl, hsub, if_neg (by omega), Function.update_self]
        have hmax := h.2
        exact ⟨by omega, by omega⟩
  · have hne : typeId ≠ typeId' := fun h => heq h.symm
    have hmodel : (if s.model typeId' < itemNum.toNat then s.model
        else Function.update s.model typeId' (s.model typeId' - itemNum.toNat)) typeId = s.model typeId := by
      split_ifs
      · rfl
      · exact Function.update_of_ne hne _ _
    rw [hmodel]
    cases hrm : s.mgr.rmItem typeId' itemNum with
    | none => exact h
    | some mgr =>
        obtain ⟨-, rfl⟩ := ItemMgr.rmItem_count _ _ _ hrm
        rw [Option.getD_some, ItemMgr.count_set, if_neg hne]
        exact h

/-- A call keeps the count right exactly when it does not add too much. -/
theorem call_iff (h : Clamped typeId maxCount s) (htable : itemTable typeId = some maxCount) (hmax : maxCount < 2 ^ 31)
    (e : ItemCall) : Clamped typeId maxCount (s.call itemTable e) ↔ e.Small typeId s := by
  cases e with
  | rm typeId' itemNum => exact ⟨fun _ => trivial, fun _ => h.rm typeId' itemNum⟩
  | add typeId' itemNum =>
      by_cases heq : typeId' = typeId
      · subst heq
        rw [h.add_iff htable hmax]
        exact ⟨fun hsmall _ => hsmall, fun hsmall => hsmall rfl⟩
      · exact ⟨fun _ hsame => absurd hsame heq, fun _ => h.add_other heq itemNum⟩

end Clamped

/-- The stored count of a type is that of the model in every state of a run exactly when every addition to the type
stays in the range of an `int`. -/
theorem items_clamped_iff {itemTable : BitVec 32 → Option ℤ} {typeId : BitVec 32} {maxCount : ℤ}
    (htable : itemTable typeId = some maxCount) (hpos : 0 ≤ maxCount) (hmax : maxCount < 2 ^ 31) (es : List ItemCall) :
    (itemCountMachine itemTable).Along (fun s e => e.Small typeId s) .start es ↔
      AlwaysClamped itemTable typeId maxCount es := by
  have hstart : Clamped typeId maxCount .start := ⟨rfl, hpos⟩
  refine Machine.along_iff_reached ?_ (fun _ h => h) ?_ hstart es
  · intro s e s' h hsmall hstep
    cases hstep
    exact (h.call_iff htable hmax e).2 hsmall
  · intro s e h hreach
    exact (h.call_iff htable hmax e).1 (hreach _ rfl)

/-- Additions that stay small are clamped. -/
theorem smallAdditions_clamped : AlwaysClamped (fun typeId => if typeId = 1 then some 99 else none) 1 99
    [.add 1 50, .add 2 7, .add 1 60, .rm 1 100, .rm 1 10] :=
  (items_clamped_iff rfl (by decide) (by decide) _).1 (by decide)

/-- The first addition of `2^31` items stores them all. -/
theorem manyItems_not_clamped : ¬AlwaysClamped (fun typeId => if typeId = 1 then some 99 else none) 1 99
    [.add 1 2147483648] := by
  intro h
  have hclamped := h [.add 1 2147483648] [] _ rfl rfl
  exact absurd hclamped.2 (by decide)

section Words

variable {α : Type} [DecidableEq α] (a : α) (l : List α)

theorem length_splitOn : (l.splitOn a).length = l.count a + 1 := by
  induction l with
  | nil => rfl
  | cons x l ih =>
      rw [List.splitOn_cons_eq_if_modifyHead, List.count_cons]
      split_ifs
      · rw [List.length_cons, ih]
      · rw [List.length_modifyHead, ih, Nat.add_zero]

theorem head?_splitOn : (l.splitOn a).head? = some (l.takeWhile (· ≠ a)) := by
  induction l with
  | nil => rfl
  | cons x l ih =>
      rw [List.splitOn_cons_eq_if_modifyHead]
      by_cases h : x = a
      · simp [h]
      · simp [h, ih, List.head?_modifyHead]

end Words

namespace GmManager

/-- `parse_command` takes the texts that begin with `/gm` and a space. -/
theorem parseCommand_eq_some_iff {content : Str} {results : List Str} :
    parseCommand content = some results ↔
      ∃ rest, content = gm ++ 32 :: rest ∧ results = gm :: List.splitOn 32 rest := by
  constructor
  · intro h
    obtain ⟨hlength, h⟩ := Option.ite_none_left_eq_some.1 h
    obtain ⟨hhead, h⟩ := Option.ite_none_left_eq_some.1 h
    cases h
    rw [length_splitOn] at hlength
    have hspace : (32 : Byte) ∈ content := List.count_pos_iff.1 (by omega)
    obtain ⟨word, rest, rfl, hword⟩ := List.eq_append_cons_of_mem hspace
    rw [List.splitOn_append_cons_self_of_not_mem hword] at hhead ⊢
    obtain rfl : word = gm := Option.some.inj (not_not.1 hhead)
    exact ⟨rest, rfl, rfl⟩
  · rintro ⟨rest, rfl, rfl⟩
    have hgm : (32 : Byte) ∉ gm := by decide
    unfold parseCommand
    dsimp only
    rw [List.splitOn_append_cons_self_of_not_mem hgm, List.length_cons, length_splitOn, if_neg (by omega),
      if_neg (fun h => h rfl)]

/-- The parameters that the command behind `/gm` reads are there. -/
def Given (rest : Str) : Prop :=
  match find (rest.takeWhile (· ≠ 32)) with
  | some .addItem => 2 ≤ rest.count 32
  | some .rmItem => 2 ≤ rest.count 32
  | some .levelUp => 1 ≤ rest.count 32
  | some .other => True
  | none => True

variable (P : Protocol) (config : GameConfig) (s : Game) (roleId : BitVec 64) (params : List Str)

/-- A body that reads the third and the fourth word. -/
theorem readTwo_eq_none_iff {β : Type} (f : Str → Str → β) :
    (match params[2]?, params[3]? with
      | some p₂, some p₃ => some (f p₂ p₃)
      | _, _ => none) = none ↔ params.length ≤ 3 := by
  split
  · rename_i p₂ p₃ h₂ h₃
    have hlt := (List.getElem?_eq_some_iff.1 h₃).1
    simp only [reduceCtorEq, false_iff]
    omega
  · rename_i hmissing
    simp only [true_iff]
    by_contra hlt
    exact hmissing _ _ (List.getElem?_eq_getElem (by omega)) (List.getElem?_eq_getElem (by omega))

theorem gmAddItem_eq_none_iff : gmAddItem P config s roleId params = none ↔ params.length ≤ 3 :=
  readTwo_eq_none_iff params _

theorem gmRmItem_eq_none_iff : gmRmItem P s roleId params = none ↔ params.length ≤ 3 :=
  readTwo_eq_none_iff params _

theorem gmLevelup_eq_none_iff : gmLevelup s roleId params = none ↔ params.length ≤ 2 := by
  unfold gmLevelup
  split
  · rename_i h₂
    exact ⟨fun _ => List.getElem?_eq_none_iff.1 h₂, fun _ => rfl⟩
  · rename_i p₂ h₂
    have hlt := (List.getElem?_eq_some_iff.1 h₂).1
    simp only [reduceCtorEq, false_iff]
    omega

/-- The command reads words that are there exactly when enough spaces come behind `/gm`. -/
theorem executeCommand_ne_none_iff (rest : Str) :
    executeCommand P config s roleId (gm :: List.splitOn 32 rest) ≠ none ↔ Given rest := by
  have hword : (gm :: List.splitOn 32 rest)[1]? = some (rest.takeWhile (· ≠ 32)) := by
    rw [List.getElem?_cons_succ, ← List.head?_eq_getElem?]
    exact head?_splitOn 32 rest
  have hlength : (gm :: List.splitOn 32 rest).length = rest.count 32 + 2 := by
    rw [List.length_cons, length_splitOn]
  unfold executeCommand Given
  rw [hword, Option.bind_some]
  cases find (rest.takeWhile (· ≠ 32)) with
  | none => exact iff_of_true (Option.some_ne_none _) trivial
  | some command =>
      cases command with
      | addItem =>
          rw [Ne, Option.map_eq_none_iff, gmAddItem_eq_none_iff, hlength]
          omega
      | rmItem =>
          rw [Ne, Option.map_eq_none_iff, gmRmItem_eq_none_iff, hlength]
          omega
      | levelUp =>
          rw [Ne, Option.map_eq_none_iff, gmLevelup_eq_none_iff, hlength]
          omega
      | other => exact iff_of_true (Option.some_ne_none _) trivial

/-- A text that is a command is executed on words that are there exactly when the parameters are given. -/
theorem commands_given_iff (content : Str) :
    (∀ results, parseCommand content = some results → executeCommand P config s roleId results ≠ none) ↔
      ∀ rest, content = gm ++ 32 :: rest → Given rest := by
  constructor
  · intro h rest hrest
    rw [← executeCommand_ne_none_iff P config s roleId]
    exact h _ (parseCommand_eq_some_iff.2 ⟨rest, hrest, rfl⟩)
  · intro h results hparse
    obtain ⟨rest, hrest, rfl⟩ := parseCommand_eq_some_iff.1 hparse
    exact (executeCommand_ne_none_iff P config s roleId rest).2 (h rest hrest)

/-- `/gm additem` without parameters. -/
theorem addItem_reads_missing :
    ¬∀ (P : Protocol) (config : GameConfig) (s : Game) (roleId : BitVec 64) (results : List Str),
      parseCommand (gm ++ 32 :: [97, 100, 100, 105, 116, 101, 109]) = some results →
        executeCommand P config s roleId results ≠ none := by
  intro h
  have hgiven := (executeCommand_ne_none_iff wire ⟨1, fun _ => none⟩ .start 7 [97, 100, 100, 105, 116, 101, 109]).1
    (h wire _ _ _ _ (parseCommand_eq_some_iff.2 ⟨_, rfl, rfl⟩))
  have hfind : find (List.takeWhile (· ≠ 32) [97, 100, 100, 105, 116, 101, 109]) = some .addItem := by decide
  simp only [Given, hfind] at hgiven
  exact absurd hgiven (by decide)

end GmManager

end JmyGame
