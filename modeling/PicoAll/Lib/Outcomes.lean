import PicoAll.Lib.FaultProgram

/-!
# Reading a run off its outcomes

The state that a sequence of operations leaves behind, by the first outcomes of the list: an operation
that succeeds is followed by the rest, any other ends the program, with its effect or without.
-/

namespace FaultProgram

variable {σ ε α β : Type}

/-- The next operation reports success. -/
def Succeeds : List Outcome → Prop
  | [] => True
  | o :: _ => o = .ok

/-- The next operation takes effect. -/
def Lands : List Outcome → Prop
  | [] => True
  | o :: _ => o = .ok ∨ o = .late

/-- The power is lost before the next operation. -/
def IsCut : List Outcome → Prop
  | [] => False
  | o :: _ => o = .cut

instance (os : List Outcome) : Decidable (Succeeds os) := by
  cases os <;> unfold Succeeds <;> infer_instance

instance (os : List Outcome) : Decidable (Lands os) := by
  cases os <;> unfold Lands <;> infer_instance

instance (os : List Outcome) : Decidable (IsCut os) := by
  cases os <;> unfold IsCut <;> infer_instance

theorem Succeeds.lands {os : List Outcome} (h : Succeeds os) : Lands os := by
  cases os with
  | nil => trivial
  | cons o os => exact .inl h

theorem final_liftExcept_bind (x : Except ε α) (f : α → Prog σ ε β) (s : σ) (os : List Outcome) :
    (liftExcept x >>= f).final s os =
      match x with
      | .ok a => (f a).final s os
      | .error _ => s := by
  cases x <;> rfl

theorem final_getState_bind (f : σ → Prog σ ε β) (s : σ) (os : List Outcome) :
    (getState >>= f).final s os = (f s).final s os :=
  rfl

/-- An operation that ends the program. -/
theorem final_perform (err : ε) (f : σ → σ) (s : σ) (os : List Outcome) :
    (perform err f).final s os = if Lands os then f s else s := by
  cases os with
  | nil => rfl
  | cons o os => cases o <;> rfl

/-- An operation, and what follows it. -/
theorem final_perform_bind (err : ε) (f : σ → σ) (k : Unit → Prog σ ε β) (s : σ)
    (os : List Outcome) :
    (perform err f >>= k).final s os =
      if Succeeds os then (k ()).final (f s) os.tail
      else if Lands os then f s else s := by
  cases os with
  | nil => rfl
  | cons o os => cases o <;> rfl

/-- An operation whose failure is not looked at, at the end. -/
theorem final_ignored (err : ε) (f : σ → σ) (s : σ) (os : List Outcome) :
    (onError (perform err f) fun _ ↦ pure ()).final s os = if Lands os then f s else s := by
  cases os with
  | nil => rfl
  | cons o os => cases o <;> rfl

/-- An operation whose failure is not looked at, and what follows it. -/
theorem final_ignored_bind (err : ε) (f : σ → σ) (k : Unit → Prog σ ε β) (s : σ)
    (os : List Outcome) :
    (onError (perform err f) (fun _ ↦ pure ()) >>= k).final s os =
      if IsCut os then s else (k ()).final (if Lands os then f s else s) os.tail := by
  cases os with
  | nil => rfl
  | cons o os => cases o <;> rfl

/-- An operation that is told whether it failed, and what follows it. -/
theorem final_caught_bind (err : ε) (f : σ → σ) (a b : α) (k : α → Prog σ ε β) (s : σ)
    (os : List Outcome) :
    (onError (perform err f >>= fun _ ↦ pure a) (fun _ ↦ pure b) >>= k).final s os =
      if IsCut os then s
      else (k (if Succeeds os then a else b)).final (if Lands os then f s else s) os.tail := by
  cases os with
  | nil => rfl
  | cons o os => cases o <;> rfl

end FaultProgram
