import Mathlib

/-!
# Sorting by exchange

Two nested loops over an array, in which a later element takes the place of an earlier one as soon as
its key is greater: a pass carries the greatest element it meets to the place it started from
(`carry`), and there is a pass from every place. What comes out is what went in, in descending order
of the keys (`exchangeSort_perm`, `exchangeSort_sorted`); which of two elements with one key comes
first is not said.
-/

namespace ExchangeSort

open List

variable {α β : Type} [LinearOrder β] (key : α → β)

/-- One pass: the element at the place the pass is from, and what stands behind it afterwards. -/
def carry (x : α) : List α → α × List α
  | [] => (x, [])
  | y :: ys =>
    if key x < key y then
      let (m, rest) := carry y ys
      (m, x :: rest)
    else
      let (m, rest) := carry x ys
      (m, y :: rest)

/-- A pass from each of the first places. -/
def passes : ℕ → List α → List α
  | 0, l => l
  | _ + 1, [] => []
  | n + 1, x :: xs =>
    let (m, rest) := carry key x xs
    m :: passes n rest

/-- The two loops. -/
def exchangeSort (l : List α) : List α :=
  passes key l.length l

variable {key} {x : α} {l : List α} {n : ℕ}

theorem carry_perm : ((carry key x l).1 :: (carry key x l).2).Perm (x :: l) := by
  induction l generalizing x with
  | nil => exact .refl _
  | cons y ys ih =>
    rw [carry]
    split_ifs with hlt
    · exact (List.Perm.swap _ _ _).trans ((ih (x := y)).cons x)
    · exact (List.Perm.swap _ _ _).trans (((ih (x := x)).cons y).trans (List.Perm.swap _ _ _))

theorem le_carry : key x ≤ key (carry key x l).1 := by
  induction l generalizing x with
  | nil => exact le_rfl
  | cons y ys ih =>
    rw [carry]
    split_ifs with hlt
    · exact hlt.le.trans ih
    · exact ih

/-- **The element a pass ends with is the greatest.** -/
theorem carry_greatest : ∀ y ∈ (carry key x l).2, key y ≤ key (carry key x l).1 := by
  induction l generalizing x with
  | nil => exact fun y hy ↦ absurd hy (not_mem_nil)
  | cons z zs ih =>
    rw [carry]
    split_ifs with hlt
    · intro y hy
      rcases mem_cons.mp hy with rfl | hy
      · exact hlt.le.trans le_carry
      · exact ih y hy
    · intro y hy
      rcases mem_cons.mp hy with rfl | hy
      · exact (not_lt.mp hlt).trans le_carry
      · exact ih y hy

theorem length_carry : (carry key x l).2.length = l.length :=
  Nat.succ_injective carry_perm.length_eq

theorem passes_perm : (passes key n l).Perm l := by
  induction n generalizing l with
  | zero => exact .refl _
  | succ n ih =>
    cases l with
    | nil => exact .refl _
    | cons x xs => exact (ih.cons _).trans carry_perm

/-- What comes out is what went in. -/
theorem exchangeSort_perm : (exchangeSort key l).Perm l :=
  passes_perm

theorem passes_sorted (h : l.length ≤ n) : (passes key n l).Pairwise fun a b ↦ key b ≤ key a := by
  induction n generalizing l with
  | zero =>
    rw [length_eq_zero_iff.mp (Nat.le_zero.mp h)]
    exact .nil
  | succ n ih =>
    cases l with
    | nil => exact .nil
    | cons x xs =>
      refine pairwise_cons.mpr ⟨fun y hy ↦ ?_, ih ?_⟩
      · exact carry_greatest y (passes_perm.subset hy)
      · rw [length_carry]
        exact Nat.le_of_succ_le_succ h

/-- **In descending order of the keys.** -/
theorem exchangeSort_sorted : (exchangeSort key l).Pairwise fun a b ↦ key b ≤ key a :=
  passes_sorted le_rfl

end ExchangeSort
