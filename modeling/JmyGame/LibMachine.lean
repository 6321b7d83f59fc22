import Mathlib.Data.List.Basic
import Mathlib.Data.List.Induction

/-! Partial deterministic machines and the invariants of their finite runs. A step that is not
enabled, or whose effect the program leaves undefined, is `none`; a run is a list of events all of
whose steps are defined. A condition on the steps of a run is read in the state before each step. -/

/-- A machine: the state after an event, when the event can happen. -/
structure Machine (σ ε : Type) where
  step : σ → ε → Option σ

namespace Machine

variable {σ ε : Type} (m : Machine σ ε)

/-- The state after a list of events. -/
def run : σ → List ε → Option σ
  | s, [] => some s
  | s, e :: es => (m.step s e).bind fun s' => run s' es

/-- Every step of the run meets the condition in the state before it. -/
def Along (condition : σ → ε → Prop) : σ → List ε → Prop
  | _, [] => True
  | s, e :: es => condition s e ∧ ∀ s', m.step s e = some s' → Along condition s' es

/-- The condition holds along the run, as a computation. -/
def checkAlong (condition : σ → ε → Bool) : σ → List ε → Bool
  | _, [] => true
  | s, e :: es => condition s e && (m.step s e).all fun s' => checkAlong condition s' es

theorem checkAlong_iff (condition : σ → ε → Prop) [∀ s e, Decidable (condition s e)] (s : σ) (es : List ε) :
    m.checkAlong (fun s e => decide (condition s e)) s es = true ↔ m.Along condition s es := by
  induction es generalizing s with
  | nil => exact ⟨fun _ => trivial, fun _ => rfl⟩
  | cons e es ih => simp [checkAlong, Along, Option.all_eq_true, ih]

instance decidableAlong (condition : σ → ε → Prop) [∀ s e, Decidable (condition s e)] (s : σ) (es : List ε) :
    Decidable (m.Along condition s es) := decidable_of_iff _ (m.checkAlong_iff condition s es)

/-- Any two states that the run passes, the earlier one first, are related. -/
def Ordered (R : σ → σ → Prop) (s : σ) (es : List ε) : Prop :=
  ∀ es₁ es₂ es₃ u v, es = es₁ ++ es₂ ++ es₃ → m.run s es₁ = some u → m.run u es₂ = some v → R u v

/-- Every step of the run relates the states before and behind it. -/
def EachStep (R : σ → ε → σ → Prop) (s : σ) (es : List ε) : Prop :=
  ∀ es₁ e es₂ t t', es = es₁ ++ e :: es₂ → m.run s es₁ = some t → m.step t e = some t' → R t e t'

/-- How many steps of the run meet the condition. -/
def count (condition : σ → ε → Bool) : σ → List ε → ℕ
  | _, [] => 0
  | s, e :: es => (condition s e).toNat + (m.step s e).elim 0 fun s' => count condition s' es

@[simp] theorem run_nil (s : σ) : m.run s [] = some s := rfl

theorem run_cons_eq_some {s t : σ} {e : ε} {es : List ε} :
    m.run s (e :: es) = some t ↔ ∃ s', m.step s e = some s' ∧ m.run s' es = some t := by
  rw [run, Option.bind_eq_some_iff]

theorem run_append (s : σ) (es fs : List ε) :
    m.run s (es ++ fs) = (m.run s es).bind fun t => m.run t fs := by
  induction es generalizing s with
  | nil => rfl
  | cons e es ih =>
      rw [List.cons_append, run, run, Option.bind_assoc]
      exact congrArg _ (funext fun s' => ih s')

theorem run_concat_eq_some {s t : σ} {e : ε} {es : List ε} :
    m.run s (es ++ [e]) = some t ↔ ∃ s', m.run s es = some s' ∧ m.step s' e = some t := by
  simp only [run_append, run, Option.bind_eq_some_iff, Option.some.injEq, exists_eq_right]

variable {m}

/-- What each step that meets the condition preserves holds after every run of such steps. -/
theorem invariant_along {condition : σ → ε → Prop} {I : σ → Prop}
    (hstep : ∀ s e s', I s → condition s e → m.step s e = some s' → I s')
    {s t : σ} {es : List ε} (hs : I s) (halong : m.Along condition s es)
    (hrun : m.run s es = some t) : I t := by
  induction es generalizing s with
  | nil =>
      rw [run_nil, Option.some.injEq] at hrun
      exact hrun ▸ hs
  | cons e es ih =>
      obtain ⟨s', hs', hrest⟩ := m.run_cons_eq_some.1 hrun
      exact ih (hstep s e s' hs halong.1 hs') (halong.2 s' hs') hrest

theorem along_of_forall {condition : ε → Prop} {s : σ} {es : List ε} (h : ∀ e ∈ es, condition e) :
    m.Along (fun _ e => condition e) s es := by
  induction es generalizing s with
  | nil => trivial
  | cons e es ih =>
      exact ⟨h e List.mem_cons_self, fun s' _ => ih fun e' he' => h e' (List.mem_cons_of_mem e he')⟩

/-- What every step preserves holds after every run. -/
theorem invariant_run {I : σ → Prop}
    (hstep : ∀ s e s', I s → m.step s e = some s' → I s')
    {s t : σ} {es : List ε} (hs : I s) (hrun : m.run s es = some t) : I t := by
  have halong : m.Along (fun _ _ => True) s es := along_of_forall fun _ _ => trivial
  exact invariant_along (fun s e s' h _ => hstep s e s' h) hs halong hrun

/-- What holds at the start without a history, and is kept by every step that adds its event to the history, holds after
every run with its events as the history. -/
theorem invariant_history {I : List ε → σ → Prop} {s₀ : σ} (h₀ : I [] s₀)
    (hstep : ∀ es s e s', m.run s₀ es = some s → I es s → m.step s e = some s' → I (es ++ [e]) s')
    {es : List ε} {t : σ} (hrun : m.run s₀ es = some t) : I es t := by
  induction es using List.reverseRecOn generalizing t with
  | nil =>
      rw [run_nil, Option.some.injEq] at hrun
      exact hrun ▸ h₀
  | append_singleton es e ih =>
      obtain ⟨s, hs, ht⟩ := m.run_concat_eq_some.1 hrun
      exact hstep es s e t hs (ih hs) ht

/-- Steps that meet the condition are paid for with potential, and potential comes from credit: then the steps of a run
that meet it are counted by what the run has of both at its ends. -/
theorem count_le {condition : σ → ε → Bool} {allowed : ε → Prop} {I : σ → Prop} {potential credit : σ → ℕ}
    (hstep : ∀ s e s', allowed e → I s → m.step s e = some s' →
      I s' ∧ (condition s e).toNat + potential s' + credit s ≤ potential s + credit s')
    {s t : σ} {es : List ε} (hs : I s) (hes : ∀ e ∈ es, allowed e) (hrun : m.run s es = some t) :
    m.count condition s es + potential t + credit s ≤ potential s + credit t := by
  induction es generalizing s with
  | nil =>
      rw [run_nil, Option.some.injEq] at hrun
      rw [hrun, count]
      omega
  | cons e es ih =>
      obtain ⟨he, hes⟩ := List.forall_mem_cons.1 hes
      obtain ⟨s', hs', hrest⟩ := m.run_cons_eq_some.1 hrun
      obtain ⟨hI, hpay⟩ := hstep s e s' he hs hs'
      have hle := ih hI hes hrest
      rw [count, hs', Option.elim_some]
      omega

/-- Where every allowed event can happen and keeps an invariant, every run of such events is possible. -/
theorem exists_run {allowed : ε → Prop} {I : σ → Prop}
    (hstep : ∀ s e, allowed e → I s → ∃ s', m.step s e = some s' ∧ I s') {s : σ} (hs : I s) {es : List ε}
    (hes : ∀ e ∈ es, allowed e) : ∃ t, m.run s es = some t ∧ I t := by
  induction es generalizing s with
  | nil => exact ⟨s, rfl, hs⟩
  | cons e es ih =>
      obtain ⟨he, hes⟩ := List.forall_mem_cons.1 hes
      obtain ⟨s', hs', hI⟩ := hstep s e he hs
      obtain ⟨t, hrun, ht⟩ := ih hI hes
      exact ⟨t, m.run_cons_eq_some.2 ⟨s', hs', hrun⟩, ht⟩

/-- Where every event that meets the condition can happen and keeps an invariant, every run along it is possible. -/
theorem exists_run_along {condition : σ → ε → Prop} {I : σ → Prop}
    (hstep : ∀ s e, I s → condition s e → ∃ s', m.step s e = some s' ∧ I s') {s : σ} (hs : I s) {es : List ε}
    (halong : m.Along condition s es) : ∃ t, m.run s es = some t ∧ I t := by
  induction es generalizing s with
  | nil => exact ⟨s, rfl, hs⟩
  | cons e es ih =>
      obtain ⟨s', hs', hI⟩ := hstep s e hs halong.1
      obtain ⟨t, hrun, ht⟩ := ih hI (halong.2 s' hs')
      exact ⟨t, m.run_cons_eq_some.2 ⟨s', hs', hrun⟩, ht⟩

theorem Along.congr {condition condition' : σ → ε → Prop}
    (hiff : ∀ s e, condition s e ↔ condition' s e) {s : σ} {es : List ε} :
    m.Along condition s es ↔ m.Along condition' s es := by
  rw [show condition = condition' from funext fun s => funext fun e => propext (hiff s e)]

/-- A condition on steps that the invariant makes stronger holds along the run in its stronger form. -/
theorem Along.of_invariant {condition condition' : σ → ε → Prop} {I : σ → Prop}
    (hstep : ∀ s e s', I s → condition s e → m.step s e = some s' → I s')
    (himp : ∀ s e, I s → condition s e → condition' s e) {s : σ} {es : List ε} (hs : I s)
    (h : m.Along condition s es) : m.Along condition' s es := by
  induction es generalizing s with
  | nil => trivial
  | cons e es ih =>
      obtain ⟨hcondition, hrest⟩ := h
      exact ⟨himp s e hs hcondition, fun s' hs' => ih (hstep s e s' hs hcondition hs') (hrest s' hs')⟩

theorem Along.and {condition condition' : σ → ε → Prop} {s : σ} {es : List ε}
    (h : m.Along condition s es) (h' : m.Along condition' s es) :
    m.Along (fun s e => condition s e ∧ condition' s e) s es := by
  induction es generalizing s with
  | nil => trivial
  | cons e es ih => exact ⟨⟨h.1, h'.1⟩, fun s' hs' => ih (h.2 s' hs') (h'.2 s' hs')⟩

/-- The condition holds along the rest of the run, too. -/
theorem Along.rest {condition : σ → ε → Prop} {s t : σ} {es fs : List ε}
    (h : m.Along condition s (es ++ fs)) (hrun : m.run s es = some t) : m.Along condition t fs := by
  induction es generalizing s with
  | nil =>
      rw [run_nil, Option.some.injEq] at hrun
      exact hrun ▸ h
  | cons e es ih =>
      obtain ⟨s', hs', hrest⟩ := m.run_cons_eq_some.1 hrun
      exact ih (h.2 s' hs') hrest

/-- A run that meets the condition goes on with one that does. -/
theorem Along.append {condition : σ → ε → Prop} {s : σ} {es fs : List ε} (h : m.Along condition s es)
    (h' : ∀ t, m.run s es = some t → m.Along condition t fs) : m.Along condition s (es ++ fs) := by
  induction es generalizing s with
  | nil => exact h' s rfl
  | cons e es ih =>
      refine ⟨h.1, fun s' hs' => ih (h.2 s' hs') fun t ht => h' t ?_⟩
      rw [run, hs']
      exact ht

/-- The condition holds along the first part of the run. -/
theorem Along.first {condition : σ → ε → Prop} {s : σ} {es fs : List ε}
    (h : m.Along condition s (es ++ fs)) : m.Along condition s es := by
  induction es generalizing s with
  | nil => trivial
  | cons e es ih => exact ⟨h.1, fun s' hs' => ih (h.2 s' hs')⟩

/-- A condition that keeps an invariant, and without which a step leaves the states where the property holds,
holds along a run of allowed events exactly when the property holds in every state that the run reaches. -/
theorem along_iff_reached_of {allowed : ε → Prop} {condition : σ → ε → Prop} {I Q : σ → Prop}
    (hstep : ∀ s e s', allowed e → I s → condition s e → m.step s e = some s' → I s') (hI : ∀ s, I s → Q s)
    (hback : ∀ s e, allowed e → I s → (∀ s', m.step s e = some s' → Q s') → condition s e)
    {s : σ} (hs : I s) {es : List ε} (hes : ∀ e ∈ es, allowed e) :
    m.Along condition s es ↔ ∀ es₁ es₂ t, es = es₁ ++ es₂ → m.run s es₁ = some t → Q t := by
  constructor
  · intro halong es₁ es₂ t hes₁ hrun
    have hboth := (along_of_forall hes).and halong
    subst hes₁
    exact hI t (invariant_along (fun s e s' h hand => hstep s e s' hand.1 h hand.2) hs hboth.first hrun)
  · intro hreach
    induction es generalizing s with
    | nil => trivial
    | cons e es ih =>
        have hallowed := hes e List.mem_cons_self
        have hcondition : condition s e := by
          apply hback s e hallowed hs
          intro s' hs'
          refine hreach [e] es s' rfl ?_
          rw [run, hs']
          rfl
        refine ⟨hcondition, fun s' hs' => ih (hstep s e s' hallowed hs hcondition hs')
          (fun e' he' => hes e' (List.mem_cons_of_mem e he')) ?_⟩
        intro es₁ es₂ t hes₁ hrun
        refine hreach (e :: es₁) es₂ t (by rw [hes₁]; rfl) ?_
        rw [run, hs', Option.bind_some, hrun]

theorem along_iff_reached {condition : σ → ε → Prop} {I Q : σ → Prop}
    (hstep : ∀ s e s', I s → condition s e → m.step s e = some s' → I s') (hI : ∀ s, I s → Q s)
    (hback : ∀ s e, I s → (∀ s', m.step s e = some s' → Q s') → condition s e)
    {s : σ} (hs : I s) (es : List ε) :
    m.Along condition s es ↔ ∀ es₁ es₂ t, es = es₁ ++ es₂ → m.run s es₁ = some t → Q t := by
  have hes : ∀ e ∈ es, True := fun _ _ => trivial
  exact along_iff_reached_of (fun s e s' _ => hstep s e s') hI (fun s e _ => hback s e) hs hes

/-- The same along a run to its end, where only a step that is possible has to meet the condition. -/
theorem along_iff_reached_run {condition : σ → ε → Prop} {I Q : σ → Prop}
    (hstep : ∀ s e s', I s → condition s e → m.step s e = some s' → I s') (hI : ∀ s, I s → Q s)
    (hback : ∀ s e s', I s → m.step s e = some s' → Q s' → condition s e)
    {s u : σ} (hs : I s) {es : List ε} (hrun : m.run s es = some u) :
    m.Along condition s es ↔ ∀ es₁ es₂ t, es = es₁ ++ es₂ → m.run s es₁ = some t → Q t := by
  constructor
  · rintro halong es₁ es₂ t rfl hrun₁
    exact hI t (invariant_along hstep hs halong.first hrun₁)
  · intro hreach
    induction es generalizing s with
    | nil => trivial
    | cons e es ih =>
        obtain ⟨s', hs', hrest⟩ := m.run_cons_eq_some.1 hrun
        have hone : m.run s [e] = some s' := m.run_cons_eq_some.2 ⟨s', hs', m.run_nil s'⟩
        have hcondition := hback s e s' hs hs' (hreach [e] es s' rfl hone)
        refine ⟨hcondition, fun t ht => ?_⟩
        obtain rfl := Option.some.inj (hs'.symm.trans ht)
        refine ih (hstep s e s' hs hcondition hs') hrest fun es₁ es₂ t hes hrun₁ => ?_
        exact hreach (e :: es₁) es₂ t (congrArg (e :: ·) hes) (m.run_cons_eq_some.2 ⟨s', hs', hrun₁⟩)

/-- A condition that keeps an invariant, and without which a step is not as it should be, holds along a run exactly
when every step of the run is as it should be. -/
theorem along_iff_eachStep {condition : σ → ε → Prop} {I : σ → Prop} {R : σ → ε → σ → Prop}
    (hstep : ∀ s e s', I s → condition s e → m.step s e = some s' → I s' ∧ R s e s')
    (hback : ∀ s e, I s → (∀ s', m.step s e = some s' → R s e s') → condition s e)
    {s : σ} (hs : I s) (es : List ε) : m.Along condition s es ↔ m.EachStep R s es := by
  constructor
  · intro halong es₁ e es₂ t t' hes hrun ht'
    subst hes
    have ht := invariant_along (fun s e s' h hcondition hs' => (hstep s e s' h hcondition hs').1) hs halong.first hrun
    exact (hstep t e t' ht (halong.rest hrun).1 ht').2
  · intro heach
    induction es generalizing s with
    | nil => trivial
    | cons e es ih =>
        have hcondition : condition s e := hback s e hs fun s' hs' => heach [] e es s s' rfl rfl hs'
        refine ⟨hcondition, fun s' hs' => ih (hstep s e s' hs hcondition hs').1 ?_⟩
        intro es₁ e' es₂ t t' hes hrun ht'
        refine heach (e :: es₁) e' es₂ t t' (by rw [hes]; rfl) ?_ ht'
        rw [run, hs', Option.bind_some, hrun]

/-- Two conditions that are the same wherever an invariant holds, which the steps that meet the first one keep, hold
along the same runs. -/
theorem along_iff_along {condition condition' : σ → ε → Prop} {I : σ → Prop}
    (hiff : ∀ s e, I s → (condition s e ↔ condition' s e))
    (hstep : ∀ s e s', I s → condition s e → m.step s e = some s' → I s') {s : σ} (hs : I s) (es : List ε) :
    m.Along condition s es ↔ m.Along condition' s es := by
  induction es generalizing s with
  | nil => exact Iff.rfl
  | cons e es ih =>
      constructor
      · rintro ⟨he, hrest⟩
        exact ⟨(hiff s e hs).1 he, fun s' hs' => (ih (hstep s e s' hs he hs')).1 (hrest s' hs')⟩
      · rintro ⟨he, hrest⟩
        have he' := (hiff s e hs).2 he
        exact ⟨he', fun s' hs' => (ih (hstep s e s' hs he' hs')).2 (hrest s' hs')⟩

/-- A preorder relates the states of a run exactly when every step respects it. -/
theorem ordered_iff_along {R : σ → σ → Prop} (hrefl : ∀ s, R s s)
    (htrans : ∀ s t u, R s t → R t u → R s u) (s : σ) (es : List ε) :
    m.Ordered R s es ↔ m.Along (fun s e => ∀ s', m.step s e = some s' → R s s') s es := by
  constructor
  · intro h
    induction es generalizing s with
    | nil => trivial
    | cons e es ih =>
        refine ⟨fun s' hs' => h [] [e] es s s' rfl rfl ?_, fun s' hs' => ih s' ?_⟩
        · rw [run, hs']
          rfl
        · intro es₁ es₂ es₃ u v hes hu hv
          refine h (e :: es₁) es₂ es₃ u v (by rw [hes]; rfl) ?_ hv
          rw [run, hs', Option.bind_some, hu]
  · intro h es₁ es₂ es₃ u v hes hu hv
    subst hes
    rw [List.append_assoc] at h
    have hmiddle := (h.rest hu).first
    clear h hu
    induction es₂ generalizing u with
    | nil =>
        rw [run_nil, Option.some.injEq] at hv
        exact hv ▸ hrefl u
    | cons e es₂ ih =>
        obtain ⟨u', hu', hrest⟩ := m.run_cons_eq_some.1 hv
        exact htrans _ _ _ (hmiddle.1 u' hu') (ih u' hrest (hmiddle.2 u' hu'))

end Machine
