import Mathlib.Data.List.Chain
import Mathlib.Data.List.ReduceOption
import Mathlib.Data.Nat.Bitwise
import JmyGame.LibLoop

/-! Expressions of C that join names by `|` and `||`. A text is cut into the longest tokens that there are, so that two
bars are one operator; it has a value when a name stands on both sides of each operator and every name has one. For
names, and nothing in some places, that are joined by single bars, the results say when there is a value and which. -/

namespace CExpr

variable {α : Type}

inductive Token (α : Type) where
  | name (w : List α)
  | bitOr
  | logOr
  deriving DecidableEq

/-- A character of a name in front of the tokens behind it. -/
def extend (c : α) : List (Token α) → List (Token α)
  | .name w :: ts => .name (c :: w) :: ts
  | ts => .name [c] :: ts

section lexer

variable [DecidableEq α] (bar : α) (isName : α → Bool)

/-- A character that is not the first of two bars. -/
def lexOne (c : α) (ts : Option (List (Token α))) : Option (List (Token α)) :=
  if c = bar then ts.map (.bitOr :: ·) else if isName c then ts.map (extend c) else none

def lex : List α → Option (List (Token α))
  | [] => some []
  | [c] => lexOne bar isName c (some [])
  | c :: d :: s => if c = bar ∧ d = bar then (lex s).map (.logOr :: ·) else lexOne bar isName c (lex (d :: s))

end lexer

/-- A name in front of the operands of the first `|`. -/
def join (w : List α) : List (List (List α)) → List (List (List α))
  | g :: gs => (w :: g) :: gs
  | [] => [[w]]

/-- The operands of `||`, of which each is a list of the operands of `|`. -/
def parse : List (Token α) → Option (List (List (List α)))
  | [.name w] => some [[w]]
  | .name w :: .bitOr :: ts => (parse ts).map (join w)
  | .name w :: .logOr :: ts => (parse ts).map ([w] :: ·)
  | _ => none

/-- The value of names joined by `|`. -/
def orValue (env : List α → Option ℕ) (g : List (List α)) : Option ℕ :=
  (g.mapM env).map fun vs => vs.foldl (· ||| ·) 0

/-- The value of an expression. That of `||` is a truth value. -/
def value (env : List α → Option ℕ) : List (List (List α)) → Option ℕ
  | [g] => orValue env g
  | gs => (gs.mapM (orValue env)).map fun vs => if ∀ v ∈ vs, v = 0 then 0 else 1

/-- The value of the last clause of an initializer, which is zero when nothing stands there. -/
def clauseValue [DecidableEq α] (bar : α) (isName : α → Bool) (env : List α → Option ℕ) (text : List α) : Option ℕ :=
  if text = [] then some 0 else ((lex bar isName text).bind parse).bind (value env)

/-- The text of some names, or of nothing, with a bar between each two. -/
def joined (bar : α) (es : List (Option (List α))) : List α := List.intercalate [bar] (es.map fun e => e.getD [])

/-- What is read of it: nothing between two names makes the two bars around it one operator. -/
def read : List (Option (List α)) → Option (List (List (List α)))
  | [some w] => some [[w]]
  | some w :: some w' :: es => (read (some w' :: es)).map (join w)
  | some w :: none :: some w' :: es => (read (some w' :: es)).map ([w] :: ·)
  | _ => none

/-- No gap stands beside another one, or at an end. -/
def Spaced {β : Type} (es : List (Option β)) : Prop :=
  (none :: (es ++ [none])).IsChain fun a b => a ≠ none ∨ b ≠ none

variable {bar : α} {isName : α → Bool} {w w' : List α} {s : List α} {es : List (Option (List α))}

section lexing

variable [DecidableEq α]

theorem lex_logOr : lex bar isName (bar :: bar :: s) = (lex bar isName s).map (.logOr :: ·) := if_pos ⟨rfl, rfl⟩

theorem lex_cons {c : α} (h : c ≠ bar ∨ s.head? ≠ some bar) :
    lex bar isName (c :: s) = lexOne bar isName c (lex bar isName s) := by
  cases s with
  | nil => rfl
  | cons d s =>
      refine if_neg fun heq => ?_
      rcases h with h | h
      · exact h heq.1
      · exact h (congrArg some heq.2)

theorem lex_bitOr (h : s.head? ≠ some bar) : lex bar isName (bar :: s) = (lex bar isName s).map (.bitOr :: ·) := by
  rw [lex_cons (Or.inr h), lexOne, if_pos rfl]

/-- Behind a bar, the first token is an operator. -/
theorem lex_bar_eq_some {ts : List (Token α)} (h : lex bar isName (bar :: s) = some ts) :
    ∃ ts', ts = .logOr :: ts' ∨ ts = .bitOr :: ts' := by
  by_cases hs : s.head? = some bar
  · obtain ⟨s', rfl⟩ := List.head?_eq_some_iff.1 hs
    rw [lex_logOr] at h
    obtain ⟨ts', -, rfl⟩ := Option.map_eq_some_iff.1 h
    exact ⟨ts', Or.inl rfl⟩
  · rw [lex_bitOr hs] at h
    obtain ⟨ts', -, rfl⟩ := Option.map_eq_some_iff.1 h
    exact ⟨ts', Or.inr rfl⟩

/-- A name that ends with the text or at a bar is one token. -/
theorem lex_name (hbar : isName bar = false) (hw : w ≠ []) (hname : ∀ c ∈ w, isName c = true)
    (hs : s = [] ∨ s.head? = some bar) : lex bar isName (w ++ s) = (lex bar isName s).map (.name w :: ·) := by
  induction w with
  | nil => exact absurd rfl hw
  | cons c w ih =>
      obtain ⟨hc, hrest⟩ := List.forall_mem_cons.1 hname
      have hne : c ≠ bar := by
        rintro rfl
        exact Bool.false_ne_true (hbar.symm.trans hc)
      have hone : ∀ ts, lexOne bar isName c ts = ts.map (extend c) := fun ts => by
        rw [lexOne, if_neg hne, if_pos hc]
      rw [List.cons_append, lex_cons (Or.inl hne), hone]
      by_cases hnil : w = []
      · rw [hnil, List.nil_append]
        refine Option.map_congr fun ts hts => ?_
        rcases hs with rfl | hs
        · cases hts
          rfl
        · obtain ⟨s', rfl⟩ := List.head?_eq_some_iff.1 hs
          obtain ⟨ts', rfl | rfl⟩ := lex_bar_eq_some hts
          · rfl
          · rfl
      · rw [ih hnil hrest, Option.map_map]
        rfl

end lexing

theorem joined_cons (e e' : Option (List α)) :
    joined bar (e :: e' :: es) = e.getD [] ++ bar :: joined bar (e' :: es) := by
  simp [joined, List.intercalate]

theorem joined_singleton (e : Option (List α)) : joined bar [e] = e.getD [] := by simp [joined, List.intercalate]

/-- All names are names. -/
def Named (isName : α → Bool) (es : List (Option (List α))) : Prop :=
  ∀ w, some w ∈ es → w ≠ [] ∧ ∀ c ∈ w, isName c = true

theorem Named.of_cons {e : Option (List α)} (h : Named isName (e :: es)) : Named isName es :=
  fun w hw => h w (List.mem_cons_of_mem e hw)

section reading

variable [DecidableEq α]

theorem parse_lex_bar : (lex bar isName (bar :: s)).bind parse = none := by
  cases h : lex bar isName (bar :: s) with
  | none => rfl
  | some ts =>
      obtain ⟨ts', rfl | rfl⟩ := lex_bar_eq_some h
      · rfl
      · rfl

/-- Nothing can be read where nothing stands in front. -/
theorem parse_lex_joined_none : (lex bar isName (joined bar (none :: es))).bind parse = none := by
  cases es with
  | nil => rw [joined_singleton]; rfl
  | cons e es =>
      rw [joined_cons]
      exact parse_lex_bar

omit [DecidableEq α] in
theorem joined_ne_nil (hnamed : Named isName es) (hes : es ≠ []) (hblank : es ≠ [none]) : joined bar es ≠ [] := by
  rcases es with - | ⟨e, - | ⟨e', es⟩⟩
  · exact absurd rfl hes
  · obtain ⟨w, rfl⟩ : ∃ w, e = some w := Option.ne_none_iff_exists'.1 fun he => hblank (he ▸ rfl)
    rw [joined_singleton]
    exact (hnamed w List.mem_cons_self).1
  · rw [joined_cons]
    exact List.append_ne_nil_of_right_ne_nil _ (List.cons_ne_nil _ _)

omit [DecidableEq α] in
theorem head?_joined_ne (hbar : isName bar = false) (h : Named isName (some w :: es)) :
    (joined bar (some w :: es)).head? ≠ some bar := by
  obtain ⟨hw, hname⟩ := h w List.mem_cons_self
  obtain ⟨c, w, rfl⟩ := List.exists_cons_of_ne_nil hw
  have hhead : (joined bar (some (c :: w) :: es)).head? = some c := by
    cases es with
    | nil => rw [joined_singleton]; rfl
    | cons e es => rw [joined_cons]; rfl
  rw [hhead]
  intro heq
  cases heq
  exact Bool.false_ne_true (hbar.symm.trans (hname bar List.mem_cons_self))

/-- A name and a bar, with no other bar behind it. -/
theorem parse_lex_bitOr (hbar : isName bar = false) (hw : w ≠ []) (hname : ∀ c ∈ w, isName c = true)
    (hs : s.head? ≠ some bar) :
    (lex bar isName (w ++ bar :: s)).bind parse = ((lex bar isName s).bind parse).map (join w) := by
  rw [lex_name hbar hw hname (Or.inr rfl), lex_bitOr hs]
  cases lex bar isName s with
  | none => rfl
  | some ts => rfl

/-- A name and two bars. -/
theorem parse_lex_logOr (hbar : isName bar = false) (hw : w ≠ []) (hname : ∀ c ∈ w, isName c = true) :
    (lex bar isName (w ++ bar :: bar :: s)).bind parse = ((lex bar isName s).bind parse).map ([w] :: ·) := by
  rw [lex_name hbar hw hname (Or.inr rfl), lex_logOr]
  cases lex bar isName s with
  | none => rfl
  | some ts => rfl

/-- The text of names that are joined by bars is read place by place. -/
theorem parse_lex_joined (hbar : isName bar = false) (hnamed : Named isName es) :
    (lex bar isName (joined bar es)).bind parse = read es := by
  fun_induction read es with
  | case1 w =>
      obtain ⟨hw, hname⟩ := hnamed w List.mem_cons_self
      have hlex := lex_name (s := []) hbar hw hname (Or.inl rfl)
      rw [List.append_nil] at hlex
      rw [joined_singleton, Option.getD_some, hlex]
      rfl
  | case2 w w' es ih =>
      obtain ⟨hw, hname⟩ := hnamed w List.mem_cons_self
      rw [joined_cons, Option.getD_some, parse_lex_bitOr hbar hw hname (head?_joined_ne hbar hnamed.of_cons),
        ih hnamed.of_cons]
  | case3 w w' es ih =>
      obtain ⟨hw, hname⟩ := hnamed w List.mem_cons_self
      rw [joined_cons, joined_cons, Option.getD_some, Option.getD_none, List.nil_append,
        parse_lex_logOr hbar hw hname, ih hnamed.of_cons.of_cons]
  | case4 es h₁ h₂ h₃ =>
      rcases es with - | ⟨- | w, es⟩
      · rfl
      · exact parse_lex_joined_none
      obtain ⟨hw, hname⟩ := hnamed w List.mem_cons_self
      rcases es with - | ⟨- | w', es⟩
      · exact absurd rfl (h₁ w)
      · rcases es with - | ⟨- | w', es⟩
        · have hs : (joined bar [none]).head? ≠ some bar := by rw [joined_singleton]; exact nofun
          rw [joined_cons, Option.getD_some, parse_lex_bitOr hbar hw hname hs, parse_lex_joined_none]
          rfl
        · rw [joined_cons, joined_cons, Option.getD_some, Option.getD_none, List.nil_append,
            parse_lex_logOr hbar hw hname, parse_lex_joined_none]
          rfl
        · exact absurd rfl (h₃ w w' es)
      · exact absurd rfl (h₂ w w' es)

end reading

section groups

variable {gs : List (List (List α))}

theorem spaced_map {β : Type} {f : β → List α} {l : List (Option β)} : Spaced (l.map (Option.map f)) ↔ Spaced l := by
  have hmap : none :: (l.map (Option.map f) ++ [none]) = (none :: (l ++ [none])).map (Option.map f) := by
    rw [List.map_cons, List.map_append]
    rfl
  unfold Spaced
  rw [hmap, List.isChain_map]
  simp only [ne_eq, Option.map_eq_none_iff]

theorem isSome_read_iff : (read es).isSome = true ↔ Spaced es := by
  fun_induction read es with
  | case1 w => simp [Spaced]
  | case2 w w' es ih => simpa [Spaced] using ih
  | case3 w w' es ih => simpa [Spaced] using ih
  | case4 es h₁ h₂ h₃ =>
      refine iff_of_false Bool.false_ne_true ?_
      rcases es with - | ⟨- | w, es⟩
      · simp [Spaced]
      · simp [Spaced]
      rcases es with - | ⟨- | w', es⟩
      · exact absurd rfl (h₁ w)
      · rcases es with - | ⟨- | w', es⟩
        · simp [Spaced]
        · simp [Spaced]
        · exact absurd rfl (h₃ w w' es)
      · exact absurd rfl (h₂ w w' es)

/-- The operands are the names in their order, and there is one more than there are gaps. -/
theorem read_eq_some (h : read es = some gs) :
    gs.flatten = es.reduceOption ∧ gs.length = es.countP Option.isNone + 1 ∧ ∀ g ∈ gs, g ≠ [] := by
  fun_induction read es generalizing gs with
  | case1 w =>
      cases h
      exact ⟨rfl, rfl, by simp⟩
  | case2 w w' es ih =>
      obtain ⟨gs', hread, rfl⟩ := Option.map_eq_some_iff.1 h
      obtain ⟨hflatten, hlength, hne⟩ := ih hread
      obtain ⟨g, gs', rfl⟩ := List.exists_cons_of_length_eq_add_one hlength
      refine ⟨?_, ?_, ?_⟩
      · exact congrArg (w :: ·) hflatten
      · simpa [join] using hlength
      · exact List.forall_mem_cons.2 ⟨List.cons_ne_nil w g, (List.forall_mem_cons.1 hne).2⟩
  | case3 w w' es ih =>
      obtain ⟨gs', hread, rfl⟩ := Option.map_eq_some_iff.1 h
      obtain ⟨hflatten, hlength, hne⟩ := ih hread
      refine ⟨?_, ?_, ?_⟩
      · exact congrArg (w :: ·) hflatten
      · simpa using hlength
      · exact List.forall_mem_cons.2 ⟨List.cons_ne_nil w [], hne⟩
  | case4 => cases h

/-- Names without gaps can be read. -/
theorem spaced_of_notMem (hes : es ≠ []) (h : none ∉ es) : Spaced es := by
  induction es with
  | nil => exact absurd rfl hes
  | cons e es ih =>
      obtain ⟨w, rfl⟩ : ∃ w, e = some w := Option.ne_none_iff_exists'.1 fun he => h (he ▸ List.mem_cons_self)
      have hrest : none ∉ es := fun hmem => h (List.mem_cons_of_mem _ hmem)
      cases es with
      | nil => simp [Spaced]
      | cons e' es =>
          have hspaced := ih (List.cons_ne_nil e' es) hrest
          obtain ⟨w', rfl⟩ : ∃ w, e' = some w :=
            Option.ne_none_iff_exists'.1 fun he => hrest (he ▸ List.mem_cons_self)
          simpa [Spaced] using hspaced

end groups

/-- The bitwise or of some numbers. -/
def orAll (vs : List ℕ) : ℕ := vs.foldl (· ||| ·) 0

theorem le_foldl_or (vs : List ℕ) (a : ℕ) : a ≤ vs.foldl (· ||| ·) a ∧ ∀ v ∈ vs, v ≤ vs.foldl (· ||| ·) a := by
  induction vs generalizing a with
  | nil => exact ⟨le_rfl, fun _ => nofun⟩
  | cons v vs ih =>
      obtain ⟨hle, hall⟩ := ih (a ||| v)
      exact ⟨Nat.left_le_or.trans hle, List.forall_mem_cons.2 ⟨Nat.right_le_or.trans hle, hall⟩⟩

/-- Numbers that are not zero make a one exactly when they are ones. -/
theorem orAll_eq_one_iff {vs : List ℕ} (hvs : vs ≠ []) (h0 : ∀ v ∈ vs, v ≠ 0) : orAll vs = 1 ↔ ∀ v ∈ vs, v = 1 := by
  constructor
  · intro hone v hv
    have hle : v ≤ orAll vs := (le_foldl_or vs 0).2 v hv
    have hne := h0 v hv
    omega
  · intro hall
    obtain ⟨v, vs, rfl⟩ := List.exists_cons_of_ne_nil hvs
    obtain ⟨rfl, hones⟩ := List.forall_mem_cons.1 hall
    clear hall h0 hvs
    change vs.foldl (· ||| ·) 1 = 1
    induction vs with
    | nil => rfl
    | cons v vs ih =>
        obtain ⟨rfl, hrest⟩ := List.forall_mem_cons.1 hones
        exact ih hrest

section value

variable {env : List α → Option ℕ} {v : List α → ℕ} {g : List (List α)} {gs : List (List (List α))}

theorem orValue_eq (h : ∀ w ∈ g, env w = some (v w)) : orValue env g = some (orAll (g.map v)) := by
  rw [orValue, Loop.mapM_eq_map h]
  rfl

/-- The operands of `||` that are not zero make a one. -/
theorem value_of_two {g' : List (List α)} (henv : ∀ h ∈ g :: g' :: gs, ∀ w ∈ h, env w = some (v w))
    (hw : w ∈ g) (h0 : v w ≠ 0) : value env (g :: g' :: gs) = some 1 := by
  have hvalues : (g :: g' :: gs).mapM (orValue env) = some ((g :: g' :: gs).map fun h => orAll (h.map v)) :=
    Loop.mapM_eq_map fun h hh => orValue_eq (henv h hh)
  have hle : v w ≤ orAll (g.map v) := (le_foldl_or _ 0).2 _ (List.mem_map_of_mem hw)
  rw [value, hvalues, Option.map_some, if_neg]
  · intro hall
    have hzero : orAll (g.map v) = 0 := hall _ List.mem_cons_self
    omega
  · exact fun _ => nofun

/-- The text of names that are joined by bars has the value of their bitwise or when nothing is joined, when there are
no gaps, and when the gaps make operators `||` of names that are all one. -/
theorem clauseValue_joined_iff [DecidableEq α] (hbar : isName bar = false) (hnamed : Named isName es) (hes : es ≠ [])
    (henv : ∀ w, some w ∈ es → env w = some (v w)) (h0 : ∀ w, some w ∈ es → v w ≠ 0) :
    clauseValue bar isName env (joined bar es) = some (orAll (es.reduceOption.map v)) ↔
      es = [none] ∨ none ∉ es ∨ Spaced es ∧ ∀ w, some w ∈ es → v w = 1 := by
  by_cases hblank : es = [none]
  · rw [hblank, joined_singleton]
    exact iff_of_true rfl (Or.inl rfl)
  rw [or_iff_right hblank, clauseValue, if_neg (joined_ne_nil hnamed hes hblank), parse_lex_joined hbar hnamed]
  cases hread : read es with
  | none =>
      have hspaced : ¬Spaced es := fun h => by
        have hsome := isSome_read_iff.2 h
        rw [hread] at hsome
        cases hsome
      refine iff_of_false nofun ?_
      rintro (hnone | ⟨h, -⟩)
      · exact hspaced (spaced_of_notMem hes hnone)
      · exact hspaced h
  | some gs =>
      have hspaced : Spaced es := isSome_read_iff.1 (by rw [hread]; rfl)
      obtain ⟨hflatten, hlength, hne⟩ := read_eq_some hread
      have hmem : ∀ g ∈ gs, ∀ w ∈ g, some w ∈ es := fun g hg w hw => by
        rw [← List.reduceOption_mem_iff, ← hflatten]
        exact List.mem_flatten.2 ⟨g, hg, hw⟩
      obtain ⟨g, gs, rfl⟩ := List.exists_cons_of_length_eq_add_one hlength
      have hnames : ∀ h ∈ g :: gs, ∀ w ∈ h, env w = some (v w) := fun h hh w hw => henv w (hmem h hh w hw)
      rw [Option.bind_some]
      cases gs with
      | nil =>
          have hgaps : es.countP Option.isNone = 0 := Nat.succ.inj hlength.symm
          have hnone : none ∉ es := fun h => List.countP_eq_zero.1 hgaps none h rfl
          rw [List.flatten_singleton] at hflatten
          refine iff_of_true ?_ (Or.inl hnone)
          rw [value, orValue_eq (hnames g List.mem_cons_self), hflatten]
      | cons g' gs =>
          have hgaps : 0 < es.countP Option.isNone := by
            rw [List.length_cons, List.length_cons] at hlength
            omega
          have hnone : none ∈ es := by
            obtain ⟨e, he, hisNone⟩ := List.countP_pos_iff.1 hgaps
            exact Option.isNone_iff_eq_none.1 hisNone ▸ he
          obtain ⟨w, hw⟩ := List.exists_mem_of_ne_nil g (hne g List.mem_cons_self)
          have hsome : some w ∈ es := hmem g List.mem_cons_self w hw
          have hvalues : es.reduceOption.map v ≠ [] :=
            List.ne_nil_of_mem (List.mem_map_of_mem (List.reduceOption_mem_iff.2 hsome))
          have hnonzero : ∀ n ∈ es.reduceOption.map v, n ≠ 0 :=
            List.forall_mem_map.2 fun w hw => h0 w (List.reduceOption_mem_iff.1 hw)
          rw [value_of_two hnames hw (h0 w hsome), or_iff_right (not_not.2 hnone), and_iff_right hspaced,
            Option.some.injEq, eq_comm, orAll_eq_one_iff hvalues hnonzero, List.forall_mem_map]
          exact forall_congr' fun w => imp_congr_left List.reduceOption_mem_iff

end value

end CExpr
