import Mathlib

/-!
# Plans that are resumed

What is to be done is planned from the state that is found, and done write by write until one fails
or the work is interrupted; later it is planned again. A planner `Resumes` when after a write that
succeeded it plans just the writes that are left. Then a run of a plan keeps whatever the first
write of every plan keeps, and a run that completes ends where nothing is left to be done.
-/

namespace Plan

variable {σ ω ε β : Type}

/-- Do the writes in order; what becomes of each is said by `β`. The second part is whether all were
done. -/
def run (write : σ → ω → β → σ × Bool) : σ → List ω → List β → σ × Bool
  | s, [], _ => (s, true)
  | s, _ :: _, [] => (s, false)
  | s, w :: ws, b :: bs =>
    if (write s w b).2 then run write (write s w b).1 ws bs else ((write s w b).1, false)

/-- After a write that succeeded, what is planned is the rest. -/
def Resumes (write : σ → ω → β → σ × Bool) (plan : σ → Except ε (List ω)) : Prop :=
  ∀ s w ws b, plan s = .ok (w :: ws) → (write s w b).2 = true → plan (write s w b).1 = .ok ws

variable {write : σ → ω → β → σ × Bool} {plan : σ → Except ε (List ω)} {ws : List ω}

/-- **The rule of plans**: what the first write keeps, whatever becomes of it, a run keeps. -/
theorem run_rule (hresumes : Resumes write plan) (Inv : σ → Prop)
    (hhead : ∀ s w ws b, Inv s → plan s = .ok (w :: ws) → Inv (write s w b).1) {s : σ} (hs : Inv s)
    (hplan : plan s = .ok ws) (bs : List β) : Inv (run write s ws bs).1 := by
  induction ws generalizing s bs with
  | nil =>
    exact hs
  | cons w ws ih =>
    cases bs with
    | nil =>
      exact hs
    | cons b bs =>
      rw [run]
      split
      · rename_i hok
        exact ih (hhead s w ws b hs hplan) (hresumes s w ws b hplan hok) bs
      · exact hhead s w ws b hs hplan

/-- A run that completes leaves nothing to be done. -/
theorem plan_of_completed (hresumes : Resumes write plan) {s : σ} {bs : List β}
    (hplan : plan s = .ok ws) (hrun : (run write s ws bs).2 = true) :
    plan (run write s ws bs).1 = .ok [] := by
  induction ws generalizing s bs with
  | nil =>
    exact hplan
  | cons w ws ih =>
    cases bs with
    | nil =>
      cases hrun
    | cons b bs =>
      rw [run] at hrun ⊢
      split at hrun
      · rename_i hok
        rw [if_pos hok]
        exact ih (hresumes s w ws b hplan hok) hrun
      · cases hrun

/-- Where the first write of a plan can be done, the whole plan can. -/
theorem run_completes (hresumes : Resumes write plan) {b : β}
    (hdone : ∀ s w ws, plan s = .ok (w :: ws) → (write s w b).2 = true) {s : σ}
    (hplan : plan s = .ok ws) : (run write s ws (List.replicate ws.length b)).2 = true := by
  induction ws generalizing s with
  | nil => rw [run]
  | cons w ws ih =>
    have hok := hdone s w ws hplan
    rw [List.length_cons, List.replicate_succ, run, if_pos hok]
    exact ih (hresumes s w ws b hplan hok)

end Plan
