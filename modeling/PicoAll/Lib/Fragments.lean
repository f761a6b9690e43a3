import Mathlib

/-!
# Fragments of a list

A list that comes in pieces is put together by appending them, until it is as long as it should be.

The pieces may be longer than what they are a piece of: `Agrees xs p` says that `xs` has the elements
of `p` as far as both of them go. Pieces that agree with what they are pieces of agree with the whole
(`Agrees.append`), and once they are as long as the whole, its length of them is the whole
(`Agrees.take_eq`).
-/

namespace Fragments

open List

variable {α : Type*} {xs ys p : List α}

/-- Two lists have the same elements as far as both of them go. -/
def Agrees (xs p : List α) : Prop :=
  xs.take p.length = p.take xs.length

/-- A piece that agrees with what is behind another one goes on with it. -/
theorem Agrees.append (h : Agrees xs p) (h' : Agrees ys (p.drop xs.length)) :
    Agrees (xs ++ ys) p := by
  induction xs generalizing p with
  | nil => exact h'
  | cons a xs ih =>
    cases p with
    | nil => rfl
    | cons b p =>
      obtain ⟨rfl, hxs⟩ := List.cons.inj h
      exact congrArg (a :: ·) (ih hxs h')

/-- Pieces that are as long as the whole have all of it. -/
theorem Agrees.take_eq (h : Agrees xs p) (hlen : p.length ≤ xs.length) : xs.take p.length = p := by
  have hall : xs.take p.length = p.take xs.length := h
  rw [hall, take_of_length_le hlen]

/-- A piece that is cut to a length, and filled up to it, agrees with what goes on in its place. -/
theorem Agrees.filled (xs zs : List α) {n r : ℕ} (hr : r ≤ xs.length) :
    Agrees ((xs.take n ++ zs).take n) (xs.take r) := by
  show ((xs.take n ++ zs).take n).take (xs.take r).length =
    (xs.take r).take ((xs.take n ++ zs).take n).length
  rw [length_take_of_le hr, take_take]
  rcases Nat.le_total n xs.length with hn | hn
  · have hlen : (xs.take n).length = n := length_take_of_le hn
    have hfull : (xs.take n ++ zs).take n = xs.take n := by
      rw [take_append_of_le_length (by omega), take_take, Nat.min_self]
    rw [hfull, hlen, take_take, take_append_of_le_length (by omega), take_take]
    congr 1
    omega
  · rw [take_of_length_le hn, take_append_of_le_length (by omega), take_take]
    congr 1
    rw [length_take, length_append]
    omega

/-- Pieces are put together one by one, each cut to what is left. -/
theorem take_append_rest (xs ys : List α) (n : ℕ) :
    xs.take n ++ ys.take (n - (xs.take n).length) = (xs ++ ys).take n := by
  rw [take_append, length_take]
  congr 2
  omega

end Fragments
