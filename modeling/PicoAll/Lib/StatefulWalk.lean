import Mathlib

/-!
# Walks over a list, call by call

A device that answers a request with the first of several items keeps the others, and hands out one
at each further call. Such a walk belongs to whoever made the request and has a deadline: a call of
somebody else, a call that comes too late, and a call whose item cannot be answered end it, as does
the last item.

`next` is one call and `run` several. What a run of calls of the owner, none of them late, gives is
`run_prompt`: the answers for the items in their order, and the walk over what is left of them.
-/

namespace StatefulWalk

open List

/-- A walk that is under way: whom it belongs to, when it was last moved, and what is still to come,
which is something. -/
structure Walk (ι α : Type) where
  owner : ι
  timer : UInt32
  rest : List α
  rest_ne : rest ≠ []

/-- A call: who makes it, the clock when it comes and when it has been answered, and whatever else
the answer goes by. -/
structure Call (ι κ : Type) where
  owner : ι
  start : UInt32
  finish : UInt32
  env : κ

/-- What comes of a call. -/
inductive Outcome (ε β : Type) where
  | refused
  | failed (e : ε)
  | item (b : β)
  deriving DecidableEq, Repr

variable {ι α β κ ε : Type}

/-- The outcome of a call that is not refused. -/
def Outcome.ofExcept : Except ε β → Outcome ε β
  | .error e => .failed e
  | .ok b => .item b

/-- A walk over a list, which is none if there is nothing in it. -/
def Walk.ofList (owner : ι) (timer : UInt32) (l : List α) : Option (Walk ι α) :=
  if h : l = [] then none else some ⟨owner, timer, l, h⟩

@[simp] theorem Walk.ofList_cons {owner : ι} {timer : UInt32} {x : α} {l : List α} :
    Walk.ofList owner timer (x :: l) = some ⟨owner, timer, x :: l, cons_ne_nil x l⟩ :=
  rfl

theorem Walk.ofList_eq_none {owner : ι} {timer : UInt32} {l : List α} :
    Walk.ofList owner timer l = none ↔ l = [] := by
  cases l with
  | nil => exact iff_of_true rfl rfl
  | cons x l => exact iff_of_false (Option.some_ne_none _) (cons_ne_nil x l)

theorem Walk.ofList_eq_some {owner : ι} {timer : UInt32} {l : List α} {walk : Walk ι α}
    (h : Walk.ofList owner timer l = some walk) : owner = walk.owner ∧ timer = walk.timer := by
  cases l with
  | nil => cases h
  | cons x l => exact ⟨congrArg Walk.owner (Option.some.inj h), congrArg Walk.timer (Option.some.inj h)⟩

variable [DecidableEq ι] (idle : UInt32) (answer : κ → α → Except ε β)

/-- One call. -/
def next (call : Call ι κ) : Option (Walk ι α) → Outcome ε β × Option (Walk ι α)
  | none => (.refused, none)
  | some walk =>
    if walk.owner ≠ call.owner ∨ idle ≤ call.start - walk.timer then
      (.refused, none)
    else
      match answer call.env (walk.rest.head walk.rest_ne) with
      | .error e => (.failed e, none)
      | .ok b => (.item b, Walk.ofList call.owner call.finish walk.rest.tail)

/-- Several calls. -/
def run : List (Call ι κ) → Option (Walk ι α) → List (Outcome ε β) × Option (Walk ι α)
  | [], walk => ([], walk)
  | call :: calls, walk =>
    let step := next idle answer call walk
    let rest := run calls step.2
    (step.1 :: rest.1, rest.2)

/-- Calls of one owner, each in time after the one before. -/
def Prompt (owner : ι) : UInt32 → List (Call ι κ) → Prop
  | _, [] => True
  | timer, call :: calls =>
    call.owner = owner ∧ call.start - timer < idle ∧ Prompt owner call.finish calls

instance (owner : ι) : ∀ timer (calls : List (Call ι κ)), Decidable (Prompt idle owner timer calls)
  | _, [] => .isTrue trivial
  | _, call :: calls =>
    @instDecidableAnd _ _ _ (@instDecidableAnd _ _ _ (instDecidablePrompt owner call.finish calls))

/-- The clock after some calls. -/
def lastTimer : UInt32 → List (Call ι κ) → UInt32
  | timer, [] => timer
  | _, call :: calls => lastTimer call.finish calls

variable {idle answer} {owner : ι} {timer : UInt32} {l : List α} {x : α} {call : Call ι κ}
  {calls : List (Call ι κ)}

/-- A call of somebody else, and one that is late, ends a walk. -/
theorem next_refused (h : call.owner ≠ owner ∨ idle ≤ call.start - timer) :
    next idle answer call (Walk.ofList owner timer (x :: l)) = (.refused, none) := by
  rw [Walk.ofList_cons, next, if_pos]
  exact h.imp_left fun hne heq ↦ hne heq.symm

/-- A call of the owner that is in time gets the first item. -/
theorem next_prompt (howner : call.owner = owner) (hstart : call.start - timer < idle) :
    next idle answer call (Walk.ofList owner timer (x :: l)) =
      match answer call.env x with
      | .error e => (.failed e, none)
      | .ok b => (.item b, Walk.ofList owner call.finish l) := by
  subst howner
  rw [Walk.ofList_cons, next, if_neg]
  · rfl
  · exact not_or.mpr ⟨fun h ↦ h rfl, UInt32.not_le.mpr hstart⟩

/-- **Prompt calls get the items in their order**, one each, and leave the rest of them. -/
theorem run_prompt (hprompt : Prompt idle owner timer calls) (hlength : calls.length ≤ l.length)
    (hanswer : ∀ p ∈ calls.zip l, (answer p.1.env p.2).isOk) :
    run idle answer calls (Walk.ofList owner timer l) =
      ((calls.zip l).map fun p ↦ .ofExcept (answer p.1.env p.2),
        Walk.ofList owner (lastTimer timer calls) (l.drop calls.length)) := by
  induction calls generalizing timer l with
  | nil => rfl
  | cons call calls ih =>
    cases l with
    | nil => exact absurd hlength (Nat.not_succ_le_zero _)
    | cons x l =>
      obtain ⟨howner, hstart, hrest⟩ := hprompt
      have hx := hanswer (call, x) mem_cons_self
      rw [run, next_prompt howner hstart]
      rcases hb : answer call.env x with e | b
      · rw [hb] at hx
        exact absurd hx Bool.false_ne_true
      · have hstep := ih hrest (Nat.le_of_succ_le_succ hlength)
          fun p hp ↦ hanswer p (mem_cons_of_mem _ hp)
        simp only [hstep, zip_cons_cons, map_cons, hb, length_cons, drop_succ_cons]
        rfl

end StatefulWalk
