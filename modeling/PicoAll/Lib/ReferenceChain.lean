import Mathlib

/-!
# Chains of references

Each of some things may refer to one other. From any of them the references lead along a single chain,
and if only finitely many things are referred to, the chain has a last one exactly if it never comes to
a thing that it comes back to (`exists_last_iff`).
-/

namespace ReferenceChain

open Relation

variable {α : Type} {next : α → Option α} {a b c : α}

/-- One thing refers to the other. -/
abbrev Refers (next : α → Option α) (a b : α) : Prop :=
  next a = some b

/-- The references lead from the one thing to the other. -/
abbrev Leads (next : α → Option α) : α → α → Prop :=
  ReflTransGen (Refers next)

/-- The references lead from a thing back to it. -/
def OnCycle (next : α → Option α) (a : α) : Prop :=
  TransGen (Refers next) a a

/-- A thing that the references lead to and that refers to nothing. -/
def Last (next : α → Option α) (a b : α) : Prop :=
  Leads next a b ∧ next b = none

/-- What is on the chain before the last thing leads to it. -/
theorem Last.leads (h : Last next a b) (hc : Leads next a c) : Leads next c b := by
  have hunique : Relator.RightUnique (Refers next) := by
    intro x y z hy hz
    exact Option.some.inj (hy.symm.trans hz)
  rcases h.1.total_of_right_unique hunique hc with hbc | hcb
  · rcases hbc.cases_head with rfl | ⟨x, hx, -⟩
    · exact .refl
    · rw [Refers, h.2] at hx
      cases hx
  · exact hcb

/-- **There is at most one last thing.** -/
theorem Last.unique (h : Last next a b) (h' : Last next a c) : b = c := by
  rcases (h.leads h'.1).cases_head with rfl | ⟨x, hx, -⟩
  · rfl
  · rw [Refers, h'.2] at hx
    cases hx

/-- What leads to the last thing is not come back to. -/
theorem Last.not_onCycle (h : Last next a b) : ¬ OnCycle next a := by
  obtain ⟨hleads, hlast⟩ := h
  induction hleads using ReflTransGen.head_induction_on with
  | refl =>
    intro hcycle
    obtain ⟨x, hx, -⟩ := TransGen.head'_iff.mp hcycle
    rw [Refers, hlast] at hx
    cases hx
  | head hstep _ ih =>
    intro hcycle
    obtain ⟨x, hx, hback⟩ := TransGen.head'_iff.mp hcycle
    obtain rfl := Option.some.inj (hstep.symm.trans hx)
    exact ih (TransGen.tail' hback hstep)

/-- **A chain among finitely many things ends exactly if it meets no cycle.** -/
theorem exists_last_iff {s : Set α} (hs : s.Finite) (hnext : ∀ a b, next a = some b → b ∈ s) (a : α) :
    (∃ b, Last next a b) ↔ ∀ c, Leads next a c → ¬ OnCycle next c := by
  constructor
  · rintro ⟨b, hb⟩ c hc
    exact Last.not_onCycle ⟨hb.leads hc, hb.2⟩
  · intro hacyclic
    let R : {c // Leads next a c} → {c // Leads next a c} → Prop := fun x y ↦
      TransGen (Refers next) y x
    have hfinite : Finite {c // Leads next a c} := by
      refine (hs.insert a).subset fun c hc ↦ ?_
      rcases hc.cases_tail with rfl | ⟨x, -, hx⟩
      · exact Set.mem_insert _ _
      · exact Set.mem_insert_of_mem _ (hnext x c hx)
    have hirrefl : Std.Irrefl R := ⟨fun x ↦ hacyclic x x.2⟩
    obtain ⟨e, -, hmin⟩ := (Finite.wellFounded_of_trans_of_irrefl R).has_min Set.univ
      ⟨⟨a, .refl⟩, Set.mem_univ _⟩
    refine ⟨e, e.2, ?_⟩
    rcases hlast : next e with - | c
    · rfl
    · have hback : R ⟨c, e.2.tail hlast⟩ e := TransGen.single hlast
      exact absurd hback (hmin _ (Set.mem_univ _))

end ReferenceChain
