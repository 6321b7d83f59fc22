import Mathlib.Data.List.Basic

/-! Loops over a list that stop at the first step that fails. -/

namespace Loop

variable {α σ : Type}

/-- Whether every step succeeds, and the state behind the last step that was made, unless a step is undefined. -/
def whileOk (f : α → σ → Option (Bool × σ)) : List α → σ → Option (Bool × σ)
  | [], s => some (true, s)
  | a :: as, s => (f a s).bind fun r => if r.1 then whileOk f as r.2 else some r

variable {f : α → σ → Option (Bool × σ)} {as : List α} {I : List α → σ → Prop} {J : σ → Prop} {s : σ}

/-- How a step ends: nothing is defined, and `U` holds, or it succeeds with `I` or fails with `J` of the state. -/
inductive Ends (U : Prop) (I J : σ → Prop) : Option (Bool × σ) → Prop
  | undefined (h : U) : Ends U I J none
  | ok {s : σ} (h : I s) : Ends U I J (some (true, s))
  | failed {s : σ} (h : J s) : Ends U I J (some (false, s))

theorem Ends.mono {U : Prop} {I I' J J' : σ → Prop} {r : Option (Bool × σ)} (h : Ends U I J r)
    (hI : ∀ s, I s → I' s) (hJ : ∀ s, J s → J' s) : Ends U I' J' r := by
  cases h with
  | undefined h => exact .undefined h
  | ok h => exact .ok (hI _ h)
  | failed h => exact .failed (hJ _ h)

/-- What holds behind the steps that have succeeded, from the list of these steps. -/
theorem ends_whileOk {U : Prop} {l : List α} (hstep : ∀ done a rest s, l = done ++ a :: rest → I done s →
      Ends U (I (done ++ [a])) J (f a s)) (hs : I [] s) : Ends U (I l) J (whileOk f l s) := by
  suffices hall : ∀ rest done s, l = done ++ rest → I done s → Ends U (I l) J (whileOk f rest s) from
    hall l [] s rfl hs
  intro rest
  induction rest with
  | nil =>
      intro done s heq hs
      rw [List.append_nil] at heq
      exact .ok (heq ▸ hs)
  | cons a rest ih =>
      intro done s heq hs
      have hhead := hstep done a rest s heq hs
      rw [whileOk]
      generalize f a s = r at hhead ⊢
      cases hhead with
      | undefined h => exact .undefined h
      | ok h => exact ih (done ++ [a]) _ (by rw [heq, List.append_assoc]; rfl) h
      | failed h => exact .failed h

variable {β : Type} {g : α → Option β} {a : α}

theorem mapM_eq_map {g' : α → β} (h : ∀ a ∈ as, g a = some (g' a)) : as.mapM g = some (as.map g') := by
  induction as with
  | nil => rfl
  | cons a as ih =>
      obtain ⟨ha, has⟩ := List.forall_mem_cons.1 h
      rw [List.mapM_cons, ha, ih has]
      rfl

theorem mapM_eq_none_iff : as.mapM g = none ↔ ∃ a ∈ as, g a = none := by
  induction as with
  | nil => exact iff_of_false (Option.some_ne_none _) fun ⟨_, hmem, _⟩ => nomatch hmem
  | cons a as ih =>
      rw [List.mapM_cons, List.exists_mem_cons_iff, ← ih]
      cases hhead : g a with
      | none => exact iff_of_true rfl (Or.inl rfl)
      | some b =>
          rw [or_iff_right (Option.some_ne_none b)]
          cases as.mapM g with
          | none => exact iff_of_true rfl rfl
          | some bs => exact iff_of_false (Option.some_ne_none _) (Option.some_ne_none _)

theorem mapM_eq_some {g' : α → β} {bs : List β} (h : as.mapM g = some bs)
    (hg : ∀ a ∈ as, ∀ b, g a = some b → b = g' a) : bs = as.map g' := by
  have hall : ∀ a ∈ as, g a = some (g' a) := fun a ha => by
    obtain ⟨b, hb⟩ : ∃ b, g a = some b := Option.ne_none_iff_exists'.1 fun hnone => by
      rw [mapM_eq_none_iff.2 ⟨a, ha, hnone⟩] at h
      cases h
    rw [hb, hg a ha b hb]
  exact Option.some.inj (h.symm.trans (mapM_eq_map hall))

end Loop
