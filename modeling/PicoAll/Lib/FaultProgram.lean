import Mathlib

/-!
# Programs over a store whose operations can fail or be cut short

A program is a state transformer with two ways of stopping early: it **returns an error code**,
which the caller sees and may handle, or the **power is lost**, which nobody handles. What happens
at each primitive operation is not decided by the program but read off a list of outcomes that the
environment supplies; a program that is correct for *every* such list is correct under every
failure and every cut.

## The rule set

`wp A m Q E s` says: from state `s`, for every list of outcomes all of which satisfy `A`, the
program `m` either finishes with a value and a state in `Q`, or stops early with an exit and a state
in `E`. The parameter `A` is what lets one definition serve two readings: with `fun _ ↦ True` it is
crash safety, with `(· = .ok)` it is the behaviour of an undisturbed run.

Nothing here knows what the state is. The rules are the usual ones — `wp_pure`, `wp_bind`,
`wp_perform`, `wp_fail`, `wp_get`, `wp_mono` — and a proof about a program follows the program's own
sequence of binds; `wp_then`, `wp_seq`, `wp_return` and `wp_refuse` are the steps that such a proof is
made of.
-/

namespace FaultProgram

/-- What the environment does to one primitive operation. -/
inductive Outcome where
  /-- The operation takes effect and reports success. -/
  | ok
  /-- The operation is refused: no effect, and an error is reported. -/
  | fail
  /-- The operation takes effect, and an error is reported all the same. -/
  | late
  /-- The power is lost before the operation takes effect. -/
  | cut
  deriving DecidableEq, Repr

/-- Why a program stopped early. -/
inductive Exit (ε : Type) where
  /-- An error code was returned. -/
  | code (r : ε)
  /-- The power was lost. -/
  | cut
  deriving DecidableEq, Repr

/-- A state together with the outcomes the environment still has in store. -/
structure World (σ : Type) where
  /-- The state the program reads and writes. -/
  state : σ
  /-- The outcomes of the operations to come; once they run out, every operation succeeds. -/
  outcomes : List Outcome

/-- A program over states `σ` with error codes `ε`. -/
abbrev Prog (σ ε α : Type) := ExceptT (Exit ε) (StateM (World σ)) α

variable {σ ε α β : Type}

/-! ### Pure computations that may fail

`Except` under `do`: the simp set that runs such a computation on a known intermediate result. -/

@[simp]
theorem ok_bind (a : α) (f : α → Except ε β) : (Except.ok a >>= f) = f a :=
  rfl

@[simp]
theorem error_bind (e : ε) (f : α → Except ε β) : (Except.error e >>= f) = .error e :=
  rfl

@[simp]
theorem map_ok (a : α) (f : α → β) : f <$> (Except.ok a : Except ε α) = .ok (f a) :=
  rfl

@[simp]
theorem map_error (e : ε) (f : α → β) : f <$> (Except.error e : Except ε α) = .error e :=
  rfl

@[simp]
theorem pure_eq_ok (a : α) : (pure a : Except ε α) = .ok a :=
  rfl

@[simp]
theorem throw_eq_error (e : ε) : (throw e : Except ε α) = .error e :=
  rfl

/-! ### Primitive programs -/

/-- Run a program from a state, under a list of outcomes. -/
def Prog.exec (m : Prog σ ε α) (s : σ) (os : List Outcome) : Except (Exit ε) α × World σ :=
  (ExceptT.run m).run ⟨s, os⟩

/-- The state a program leaves behind, however it stopped. -/
def Prog.final (m : Prog σ ε α) (s : σ) (os : List Outcome) : σ :=
  (m.exec s os).2.state

/-- What a program returned, or why it stopped. -/
def Prog.result (m : Prog σ ε α) (s : σ) (os : List Outcome) : Except (Exit ε) α :=
  (m.exec s os).1

/-- Read the state. -/
def getState : Prog σ ε σ :=
  fun w ↦ (.ok w.state, w)

/-- Change the state by an operation that cannot go wrong. -/
def modifyState (f : σ → σ) : Prog σ ε Unit :=
  fun w ↦ (.ok (), { w with state := f w.state })

/-- Return an error code. -/
def fail (r : ε) : Prog σ ε α :=
  fun w ↦ (.error (.code r), w)

/-- Lift a pure computation: its error is the error code returned. -/
def liftExcept : Except ε α → Prog σ ε α
  | .ok a => pure a
  | .error r => fail r

/-- One primitive operation with effect `f`, reporting `err` when it goes wrong. -/
def perform (err : ε) (f : σ → σ) : Prog σ ε Unit :=
  fun w ↦
    match w.outcomes with
    | [] => (.ok (), ⟨f w.state, []⟩)
    | .ok :: os => (.ok (), ⟨f w.state, os⟩)
    | .fail :: os => (.error (.code err), ⟨w.state, os⟩)
    | .late :: os => (.error (.code err), ⟨f w.state, os⟩)
    | .cut :: os => (.error .cut, ⟨w.state, os⟩)

/-- Run `m`, and `h` on the error code if it returns one. A power loss is not caught. -/
def onError (m : Prog σ ε α) (h : ε → Prog σ ε α) : Prog σ ε α :=
  fun w ↦
    match m w with
    | (.ok a, w') => (.ok a, w')
    | (.error (.code r), w') => h r w'
    | (.error .cut, w') => (.error .cut, w')

/-! ### Weakest preconditions -/

/-- From `s`, under any outcomes allowed by `A`, the program finishes in `Q` or stops in `E`. -/
def wp (A : Outcome → Prop) (m : Prog σ ε α) (Q : α → σ → Prop) (E : Exit ε → σ → Prop)
    (s : σ) : Prop :=
  ∀ os, (∀ o ∈ os, A o) →
    (∀ o ∈ (m.exec s os).2.outcomes, A o) ∧
      match m.exec s os with
      | (.ok a, w) => Q a w.state
      | (.error e, w) => E e w.state

variable {A : Outcome → Prop} {Q : α → σ → Prop} {E : Exit ε → σ → Prop} {s : σ} {m : Prog σ ε α}
  {Q' : α → σ → Prop} {E' : Exit ε → σ → Prop} {f : α → Prog σ ε β} {x : Except ε α} {P : Prop}

theorem wp_mono (h : wp A m Q E s) (hQ : ∀ a s', Q a s' → Q' a s') (hE : ∀ e s', E e s' → E' e s') :
    wp A m Q' E' s := by
  intro os hos
  obtain ⟨hrest, hpost⟩ := h os hos
  refine ⟨hrest, ?_⟩
  rcases hm : m.exec s os with ⟨_ | a, w⟩ <;> simp only [hm] at hpost ⊢
  · exact hE _ _ hpost
  · exact hQ _ _ hpost

theorem wp_pure {a : α} (h : Q a s) : wp A (pure a : Prog σ ε α) Q E s :=
  fun _ hos ↦ ⟨hos, h⟩

theorem wp_fail {r : ε} (h : E (.code r) s) : wp A (fail r : Prog σ ε α) Q E s :=
  fun _ hos ↦ ⟨hos, h⟩

theorem wp_getState {Q : σ → σ → Prop} (h : Q s s) : wp A (getState : Prog σ ε σ) Q E s :=
  fun _ hos ↦ ⟨hos, h⟩

theorem wp_modifyState {f : σ → σ} {Q : Unit → σ → Prop} (h : Q () (f s)) :
    wp A (modifyState f : Prog σ ε Unit) Q E s :=
  fun _ hos ↦ ⟨hos, h⟩

theorem wp_liftExcept (hok : ∀ a, x = .ok a → Q a s) (herr : ∀ r, x = .error r → E (.code r) s) :
    wp A (liftExcept x : Prog σ ε α) Q E s := by
  cases x with
  | ok a => exact wp_pure (hok a rfl)
  | error r => exact wp_fail (herr r rfl)

theorem wp_perform {err : ε} {f : σ → σ} {Q : Unit → σ → Prop} (hok : Q () (f s))
    (hfail : A .fail → E (.code err) s) (hlate : A .late → E (.code err) (f s))
    (hcut : A .cut → E .cut s) : wp A (perform err f) Q E s := by
  intro os hos
  match os with
  | [] => exact ⟨by simp [Prog.exec, perform, ExceptT.run, StateT.run], hok⟩
  | o :: os =>
    have ho := hos o (List.mem_cons_self ..)
    have hrest : ∀ o' ∈ os, A o' := fun o' h ↦ hos o' (List.mem_cons_of_mem _ h)
    cases o with
    | ok => exact ⟨hrest, hok⟩
    | fail => exact ⟨hrest, hfail ho⟩
    | late => exact ⟨hrest, hlate ho⟩
    | cut => exact ⟨hrest, hcut ho⟩

theorem exec_bind (m : Prog σ ε α) (f : α → Prog σ ε β) (s : σ) (os : List Outcome) :
    (m >>= f).exec s os =
      match m.exec s os with
      | (.ok a, w) => (f a).exec w.state w.outcomes
      | (.error e, w) => (.error e, w) := by
  show (match m ⟨s, os⟩ with
    | (a, w) => (ExceptT.bindCont f a).run w) = _
  rcases hm : m ⟨s, os⟩ with ⟨_ | a, w⟩ <;>
    simp only [Prog.exec, ExceptT.run, StateT.run, hm] <;> rfl

/-- **Sequencing.** What follows starts from whatever state the first part left. -/
theorem wp_bind {Q : β → σ → Prop} (h : wp A m (fun a s' ↦ wp A (f a) Q E s') E s) :
    wp A (m >>= f) Q E s := by
  intro os hos
  obtain ⟨hrest, hpost⟩ := h os hos
  rw [exec_bind]
  rcases hm : m.exec s os with ⟨_ | a, w⟩ <;> rw [hm] at hrest hpost
  · exact ⟨hrest, hpost⟩
  · exact hpost w.outcomes hrest

/-- A part, and what follows from wherever it ends. -/
theorem wp_seq {Q' : β → σ → Prop} (hm : wp A m Q E' s) (hf : ∀ a s', Q a s' → wp A (f a) Q' E s')
    (hE : ∀ e s', E' e s' → E e s') : wp A (m >>= f) Q' E s :=
  wp_bind (wp_mono hm hf hE)

theorem wp_then {Q' : β → σ → Prop} (hm : wp A m Q E s) (hf : ∀ a s', Q a s' → wp A (f a) Q' E s') :
    wp A (m >>= f) Q' E s :=
  wp_seq hm hf fun _ _ h ↦ h

/-- A program that begins by reading the state. -/
theorem wp_get {f : σ → Prog σ ε β} {Q : β → σ → Prop} (h : wp A (f s) Q E s) :
    wp A (getState >>= f) Q E s :=
  wp_bind (wp_getState h)

theorem wp_onError {h : ε → Prog σ ε α}
    (hm : wp A m Q (fun e s' ↦ match e with | .code r => wp A (h r) Q E s' | .cut => E .cut s') s) :
    wp A (onError m h) Q E s := by
  intro os hos
  obtain ⟨hrest, hpost⟩ := hm os hos
  have hexec : (onError m h).exec s os =
      match m.exec s os with
      | (.ok a, w) => (.ok a, w)
      | (.error (.code r), w) => (h r).exec w.state w.outcomes
      | (.error .cut, w) => (.error .cut, w) := rfl
  rw [hexec]
  rcases hx : m.exec s os with ⟨(r | -) | a, w⟩ <;> rw [hx] at hrest hpost
  · exact hpost w.outcomes hrest
  · exact ⟨hrest, hpost⟩
  · exact ⟨hrest, hpost⟩

theorem wp_ite {c : Prop} [Decidable c] {m₁ m₂ : Prog σ ε α} (h₁ : c → wp A m₁ Q E s)
    (h₂ : ¬c → wp A m₂ Q E s) : wp A (if c then m₁ else m₂) Q E s := by
  split
  · exact h₁ ‹_›
  · exact h₂ ‹_›

theorem wp_return {c : Prop} [Decidable c] {a : α} (h : Q a s) (h' : ¬c → wp A m Q E s) :
    wp A (if c then pure a else m) Q E s :=
  wp_ite (fun _ ↦ wp_pure h) h'

theorem wp_refuse {c : Prop} [Decidable c] {r : ε} (h : E (.code r) s) (h' : ¬c → wp A m Q E s) :
    wp A (if c then fail r else m) Q E s :=
  wp_ite (fun _ ↦ wp_fail h) h'

/-- A check whose failure is an error; the program goes on if it holds. -/
theorem wp_guard {c : Prop} [Decidable c] {r : ε} {f : α → Prog σ ε β} {m : Prog σ ε β}
    {Q : β → σ → Prop} (h : E (.code r) s) (h' : ¬c → wp A m Q E s) :
    wp A (if c then fail r >>= f else m) Q E s :=
  wp_ite (fun _ ↦ wp_bind (wp_fail h)) h'

/-- A program that begins with a pure computation. -/
theorem wp_lift {Q : β → σ → Prop} (hok : ∀ a, x = .ok a → wp A (f a) Q E s)
    (herr : ∀ r, x = .error r → E (.code r) s) : wp A (liftExcept x >>= f) Q E s :=
  wp_bind (wp_liftExcept hok herr)

/-- Two facts about one program. -/
theorem wp_and (h : wp A m Q E s) (h' : wp A m Q' E' s) :
    wp A m (fun a s' ↦ Q a s' ∧ Q' a s') (fun e s' ↦ E e s' ∧ E' e s') s := by
  intro os hos
  obtain ⟨hrest, hpost⟩ := h os hos
  obtain ⟨-, hpost'⟩ := h' os hos
  refine ⟨hrest, ?_⟩
  rcases hm : m.exec s os with ⟨_ | a, w⟩ <;> simp only [hm] at hpost hpost' ⊢ <;>
    exact ⟨hpost, hpost'⟩

/-- What holds under more outcomes holds under fewer; that no others turn up is read off any fact
about the program. -/
theorem wp_anti {A' : Outcome → Prop} (h : wp A' m Q E s) (hA : ∀ o, A o → A' o)
    (h' : wp A m Q' E' s) : wp A m Q E s :=
  fun os hos ↦ ⟨(h' os hos).1, (h os fun o ho ↦ hA o (hos o ho)).2⟩

/-- What is known of every result a program can return. -/
theorem wp_result {R : α → Prop} (h : wp A m Q E s) (hR : ∀ os a, m.result s os = .ok a → R a) :
    wp A m (fun a s' ↦ Q a s' ∧ R a) E s := by
  intro os hos
  obtain ⟨hrest, hpost⟩ := h os hos
  refine ⟨hrest, ?_⟩
  rcases hm : m.exec s os with ⟨_ | a, w⟩ <;> simp only [hm] at hpost ⊢
  · exact hpost
  · exact ⟨hpost, hR os a (by rw [Prog.result, hm])⟩

/-- Something can go wrong: the environment may disturb an operation, or `P` is the case. -/
def Faulty (A : Outcome → Prop) (P : Prop) : Prop :=
  A .fail ∨ A .late ∨ A .cut ∨ P

theorem Faulty.of_fail (h : A .fail) : Faulty A P :=
  .inl h

theorem Faulty.of_late (h : A .late) : Faulty A P :=
  .inr (.inl h)

theorem Faulty.of_cut (h : A .cut) : Faulty A P :=
  .inr (.inr (.inl h))

theorem Faulty.of_prop (h : P) : Faulty A P :=
  .inr (.inr (.inr h))

/-! ### Reading a weakest precondition back -/

/-- A run under allowed outcomes finishes in the one postcondition or stops in the other. -/
theorem run_of_wp (h : wp A m Q E s) {os : List Outcome} (hos : ∀ o ∈ os, A o) :
    (∃ a, m.result s os = .ok a ∧ Q a (m.final s os)) ∨
      ∃ e, m.result s os = .error e ∧ E e (m.final s os) := by
  have hpost := (h os hos).2
  unfold Prog.result Prog.final
  rcases hm : m.exec s os with ⟨e | a, w⟩ <;> rw [hm] at hpost
  · exact .inr ⟨e, rfl, hpost⟩
  · exact .inl ⟨a, rfl, hpost⟩

/-- Under arbitrary outcomes the state left behind satisfies what both posts agree on. -/
theorem final_of_wp {I : σ → Prop} (h : wp (fun _ ↦ True) m (fun _ ↦ I) (fun _ ↦ I) s)
    (os : List Outcome) : I (m.final s os) := by
  rcases run_of_wp h fun _ _ ↦ trivial with ⟨_, -, hpost⟩ | ⟨_, -, hpost⟩ <;> exact hpost

/-- A program that finished did so in its postcondition. -/
theorem final_of_result_ok (h : wp (fun _ ↦ True) m Q E s) {os : List Outcome} {a : α}
    (ha : m.result s os = .ok a) : Q a (m.final s os) := by
  rcases run_of_wp h fun _ _ ↦ trivial with ⟨b, hb, hpost⟩ | ⟨e, he, -⟩
  · rw [ha] at hb
    cases hb
    exact hpost
  · rw [ha] at he
    cases he

/-- An undisturbed program whose postconditions name a computation gives that computation's result. -/
theorem result_of_wp
    (h : wp (fun o ↦ o = .ok) m (fun a _ ↦ x = .ok a) (fun e _ ↦ ∃ r, e = .code r ∧ x = .error r) s) :
    m.result s [] = x.mapError .code := by
  have hpost := (h [] (by simp)).2
  unfold Prog.result
  rcases hm : m.exec s [] with ⟨e | a, w⟩ <;> rw [hm] at hpost
  · obtain ⟨r, rfl, rfl⟩ := hpost
    rfl
  · rw [hpost]
    rfl

/-! ### Undisturbed runs -/

/-- The environment lets every operation take effect. -/
abbrev Undisturbed (A : Outcome → Prop) : Prop :=
  ∀ o, A o → o = .ok

/-- What holds when a program succeeds, and what when it is refused undisturbed. -/
theorem wp_undisturbed (h : wp A m Q (fun _ _ ↦ True) s) (h' : wp (· = .ok) m (fun _ _ ↦ True) E s) :
    wp A m Q (fun e s' ↦ Undisturbed A → E e s') s := by
  by_cases hA : Undisturbed A
  · exact wp_mono (wp_and h (wp_anti h' hA h)) (fun _ _ h ↦ h.1) fun _ _ h _ ↦ h.2
  · exact wp_mono h (fun _ _ h ↦ h) fun _ _ _ hA' ↦ absurd hA' hA

/-- What an undisturbed program returns. -/
theorem result_of_undisturbed (h : wp (· = .ok) m Q (fun e s' ↦ Undisturbed (· = .ok) → E e s') s)
    (hQ : ∀ a s', Q a s' → x = .ok a) (hE : ∀ e s', E e s' → ∃ r, e = .code r ∧ x = .error r) :
    m.result s [] = x.mapError .code :=
  result_of_wp (wp_mono h (fun a s' h ↦ hQ a s' h) fun e s' h ↦ hE e s' (h fun _ h ↦ h))

/-- An undisturbed program succeeds, or there is a reason why it does not. -/
theorem result_ok_or {m : Prog σ ε Unit} {Q : Unit → σ → Prop}
    (h : wp (· = .ok) m Q (fun e s' ↦ Undisturbed (· = .ok) → E e s') s) (hE : ∀ e s', E e s' → P) :
    m.result s [] = .ok () ∨ P := by
  rcases run_of_wp h (nofun : ∀ o ∈ ([] : List Outcome), o = .ok) with
    ⟨_, hresult, -⟩ | ⟨e, -, hpost⟩
  · exact .inl hresult
  · exact .inr (hE e _ (hpost fun _ h ↦ h))

/-! ### What a program keeps -/

/-- However it stops, the program keeps `I`, and what it returns is in `R`. -/
def Keeps (I : σ → Prop) (R : α → Prop) (m : Prog σ ε α) : Prop :=
  ∀ A s, I s → wp A m (fun a s' ↦ I s' ∧ R a) (fun _ s' ↦ I s') s

/-- Nothing is said about what it returns. -/
abbrev Preserves (I : σ → Prop) (m : Prog σ ε α) : Prop :=
  Keeps I (fun _ ↦ True) m

namespace Keeps

variable {I : σ → Prop} {R : α → Prop} {R' : β → Prop} {m : Prog σ ε α} {f : α → Prog σ ε β}

protected theorem pure {a : α} (ha : R a) : Keeps I R (pure a : Prog σ ε α) :=
  fun _ _ hI ↦ wp_pure ⟨hI, ha⟩

protected theorem fail (r : ε) : Keeps I R (FaultProgram.fail r : Prog σ ε α) :=
  fun _ _ hI ↦ wp_fail hI

protected theorem getState : Keeps I I (getState : Prog σ ε σ) :=
  fun _ _ hI ↦ wp_getState ⟨hI, hI⟩

protected theorem liftExcept {x : Except ε α} (hx : ∀ a, x = .ok a → R a) :
    Keeps I R (liftExcept x : Prog σ ε α) :=
  fun _ _ hI ↦ wp_liftExcept (fun a ha ↦ ⟨hI, hx a ha⟩) fun _ _ ↦ hI

protected theorem bind (hm : Keeps I R m) (hf : ∀ a, R a → Keeps I R' (f a)) :
    Keeps I R' (m >>= f) :=
  fun A s hI ↦ wp_bind (wp_mono (hm A s hI) (fun a s' h ↦ hf a h.2 A s' h.1) fun _ _ h ↦ h)

/-- A program that begins by reading the state. -/
protected theorem get {f : σ → Prog σ ε β} (hf : ∀ s, Keeps I R' (f s)) :
    Keeps I R' (getState >>= f) :=
  Keeps.getState.bind fun s _ ↦ hf s

protected theorem ite {c : Prop} [Decidable c] {m' : Prog σ ε α} (h : c → Keeps I R m)
    (h' : ¬c → Keeps I R m') : Keeps I R (if c then m else m') := by
  split
  · exact h ‹_›
  · exact h' ‹_›

protected theorem onError {h : ε → Prog σ ε α} (hm : Keeps I R m) (hh : ∀ r, Keeps I R (h r)) :
    Keeps I R (onError m h) := by
  intro A s hI
  refine wp_onError (wp_mono (hm A s hI) (fun _ _ h ↦ h) fun e s' hs' ↦ ?_)
  rcases e with r | -
  · exact hh r A s' hs'
  · exact hs'

protected theorem perform {r : ε} {g : σ → σ} (hg : ∀ s, I s → I (g s)) :
    Keeps I (fun _ ↦ True) (perform r g : Prog σ ε Unit) :=
  fun _ s hI ↦ wp_perform ⟨hg s hI, trivial⟩ (fun _ ↦ hI) (fun _ ↦ hg s hI) fun _ ↦ hI

/-- Of what is returned less may be said. -/
theorem weaken {R₁ : α → Prop} (hm : Keeps I R m) (hR : ∀ a, R a → R₁ a) : Keeps I R₁ m :=
  fun A s hI ↦ wp_mono (hm A s hI) (fun a _ h ↦ ⟨h.1, hR a h.2⟩) fun _ _ h ↦ h

/-- The state a program leaves behind is one it keeps. -/
theorem final (hm : Keeps I R m) {s : σ} (hI : I s) (os : List Outcome) : I (m.final s os) :=
  final_of_wp (wp_mono (hm _ s hI) (fun _ _ h ↦ h.1) fun _ _ h ↦ h) os

end Keeps

end FaultProgram
