import JmyGame.LibMachine

/-! Objects that answer calls: a call gives a result and the object after it. Two objects are told apart by
the results of their calls only, and a relation between two objects that every call keeps, and under which
its results are the same, gives the same results for all sequences of calls. -/

/-- An object with its calls. -/
structure Responder (σ ε ρ : Type) where
  call : σ → ε → ρ × σ

namespace Responder

variable {σ ε ρ τ : Type} (r : Responder σ ε ρ)

/-- The results of a list of calls. -/
def results : σ → List ε → List ρ
  | _, [] => []
  | s, e :: es => (r.call s e).1 :: results (r.call s e).2 es

/-- The object after a list of calls. -/
def after : σ → List ε → σ
  | s, [] => s
  | s, e :: es => after (r.call s e).2 es

/-- The calls as the steps of a machine. -/
def machine : Machine σ ε := ⟨fun s e => some (r.call s e).2⟩

theorem machine_run (s : σ) (es : List ε) : r.machine.run s es = some (r.after s es) := by
  induction es generalizing s with
  | nil => rfl
  | cons e es ih => exact ih (r.call s e).2

theorem results_concat (s : σ) (es : List ε) (e : ε) :
    r.results s (es ++ [e]) = r.results s es ++ [(r.call (r.after s es) e).1] := by
  induction es generalizing s with
  | nil => rfl
  | cons e' es ih =>
      rw [List.cons_append, results, ih, results, List.cons_append]
      rfl

variable {r} {r' : Responder τ ε ρ} {R : σ → τ → Prop} {P : ε → Prop}

/-- What a call keeps between two objects holds after every list of such calls. -/
theorem after_related (hcall : ∀ s t e, R s t → P e → R (r.call s e).2 (r'.call t e).2)
    {s : σ} {t : τ} (hst : R s t) {es : List ε} (hes : ∀ e ∈ es, P e) :
    R (r.after s es) (r'.after t es) := by
  induction es generalizing s t with
  | nil => exact hst
  | cons e es ih =>
      have hhead := hcall s t e hst (hes e List.mem_cons_self)
      exact ih hhead fun e' he' => hes e' (List.mem_cons_of_mem e he')

/-- What every call keeps holds after every list of calls. -/
theorem invariant_after {I : σ → Prop} (hcall : ∀ s e, I s → I (r.call s e).2) {s : σ} (hs : I s)
    (es : List ε) : I (r.after s es) := by
  induction es generalizing s with
  | nil => exact hs
  | cons e es ih => exact ih (hcall s e hs)

/-- Related objects answer alike. -/
theorem results_eq (hcall : ∀ s t e, R s t → P e → R (r.call s e).2 (r'.call t e).2)
    (hresult : ∀ s t e, R s t → P e → (r.call s e).1 = (r'.call t e).1)
    {s : σ} {t : τ} (hst : R s t) {es : List ε} (hes : ∀ e ∈ es, P e) :
    r.results s es = r'.results t es := by
  induction es generalizing s t with
  | nil => rfl
  | cons e es ih =>
      have he := hes e List.mem_cons_self
      have hrest := ih (hcall s t e hst he) fun e' he' => hes e' (List.mem_cons_of_mem e he')
      rw [results, results, hresult s t e hst he, hrest]

end Responder
