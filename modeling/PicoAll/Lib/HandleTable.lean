import Mathlib

/-!
# Handle tables

A fixed table of entries, each of which is free or carries a *token*, the number by which its owner
asks for it. Tokens come from a counter that goes round; zero is not a token, and a number that is in
use is passed over. There are more numbers than entries, so the search for a free one ends
(`allocate_fresh`), and an entry that is neither freed nor taken is found under its token whatever
happens to the others (`find_update_of_ne`).
-/

namespace HandleTable

open Function UInt32 List

variable {n : ℕ} {tokens : Fin n → Option UInt32} {handle : UInt32} {i j : Fin n}

/-- The entry of a token. -/
def find (tokens : Fin n → Option UInt32) (handle : UInt32) : Option (Fin n) :=
  if handle = 0 then none else (List.finRange n).find? fun i ↦ tokens i == some handle

/-- The search for a token that is free, for a number of turns; gives the token and the new
counter. -/
def allocate (tokens : Fin n → Option UInt32) : ℕ → UInt32 → UInt32 × UInt32
  | 0, next => (0, next)
  | turns + 1, next =>
    if next ≠ 0 ∧ (find tokens next).isNone then (next, next + 1)
    else allocate tokens turns (next + 1)

/-- The first free entry. -/
def free (tokens : Fin n → Option UInt32) : Option (Fin n) :=
  (List.finRange n).find? fun i ↦ (tokens i).isNone

theorem find_eq_some (h : find tokens handle = some i) : handle ≠ 0 ∧ tokens i = some handle := by
  rw [find] at h
  split_ifs at h with hzero
  exact ⟨hzero, by simpa using find?_some h⟩

theorem find_eq_none (hzero : handle ≠ 0) :
    find tokens handle = none ↔ ∀ i, tokens i ≠ some handle := by
  rw [find, if_neg hzero, find?_eq_none]
  simp

theorem free_eq_some (h : free tokens = some i) : tokens i = none := by
  simpa using find?_some h

/-- **What happens to the other entries does not matter**, as long as none of them gets the same
token. -/
theorem find_update_of_ne {c : Option UInt32} (h : find tokens handle = some i) (hij : j ≠ i)
    (hc : c ≠ some handle) : find (Function.update tokens j c) handle = some i := by
  obtain ⟨hzero, hi⟩ := find_eq_some h
  rw [find, if_neg hzero] at h ⊢
  obtain ⟨-, k, hk, hki, hbefore⟩ := find?_eq_some_iff_getElem.mp h
  refine find?_eq_some_iff_getElem.mpr ⟨?_, k, hk, hki, fun k' hk' ↦ ?_⟩
  · rw [update_of_ne hij.symm, hi, beq_self_eq_true]
  · by_cases hjk : (List.finRange n)[k'] = j
    · rw [hjk, update_self]
      simpa using hc
    · rw [update_of_ne hjk]
      exact hbefore k' hk'

/-- An entry that gets a token of its own is found under it. -/
theorem find_update_self (hzero : handle ≠ 0) (h : find tokens handle = none) :
    find (Function.update tokens i (some handle)) handle = some i := by
  have hnone := (find_eq_none hzero).mp h
  rcases hf : find (Function.update tokens i (some handle)) handle with - | j
  · exact absurd (update_self ..) ((find_eq_none hzero).mp hf i)
  · have hj := (find_eq_some hf).2
    by_cases hji : j = i
    · rw [hji]
    · rw [update_of_ne hji] at hj
      exact absurd hj (hnone j)

/-- The loop ends with a token that is not in use, unless every token it could try is. -/
theorem allocate_spec (tokens : Fin n → Option UInt32) (turns : ℕ) (next : UInt32) :
    ((allocate tokens turns next).1 ≠ 0 ∧ find tokens (allocate tokens turns next).1 = none) ∨
    ∀ k < turns, next + UInt32.ofNat k = 0 ∨ (find tokens (next + UInt32.ofNat k)).isSome := by
  induction turns generalizing next with
  | zero => exact .inr (by simp)
  | succ turns ih =>
    rw [allocate]
    split_ifs with hfree
    · exact .inl ⟨hfree.1, by simpa using hfree.2⟩
    · rcases ih (next + 1) with hok | htaken
      · exact .inl hok
      · refine .inr fun k hk ↦ ?_
        rcases k with - | k
        · have hnext : next + UInt32.ofNat 0 = next := by simp
          rw [hnext]
          by_contra hcon
          rw [not_or, Bool.not_eq_true, Option.isSome_eq_false_iff] at hcon
          exact hfree hcon
        · have hstep : next + UInt32.ofNat (k + 1) = next + 1 + UInt32.ofNat k := by
            rw [ofNat_add, add_comm (UInt32.ofNat k), add_assoc]
            rfl
          rw [hstep]
          exact htaken k (by omega)

/-- **The token handed out is new**: two more turns than there are entries meet one. -/
theorem allocate_fresh (tokens : Fin n → Option UInt32) (hn : n + 2 < 2 ^ 32) (next : UInt32) :
    (allocate tokens (n + 2) next).1 ≠ 0 ∧
      find tokens (allocate tokens (n + 2) next).1 = none := by
  rcases allocate_spec tokens (n + 2) next with h | htaken
  · exact h
  · -- Were every candidate zero or in use, the table would hold more tokens than entries.
    exfalso
    let f : Fin (n + 2) → Option (Fin n) := fun k ↦ find tokens (next + UInt32.ofNat k)
    have hf : Function.Injective f := by
      intro k k' hkk
      have hsame : next + UInt32.ofNat k = next + UInt32.ofNat k' := by
        rcases hk : f k with - | i
        · have hk' : f k' = none := hkk ▸ hk
          have h1 := (htaken k k.isLt).resolve_right (by simpa [f] using hk)
          have h2 := (htaken k' k'.isLt).resolve_right (by simpa [f] using hk')
          rw [h1, h2]
        · have hk' : f k' = some i := hkk ▸ hk
          exact Option.some.inj ((find_eq_some hk).2.symm.trans (find_eq_some hk').2)
      have hnat := congrArg UInt32.toNat ((add_right_inj _).mp hsame)
      simp only [toNat_ofNat'] at hnat
      omega
    have hcard := Fintype.card_le_of_injective f hf
    simp at hcard

end HandleTable
