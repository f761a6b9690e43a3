import PicoAll.Lib.BigEndian

/-!
# Padding to whole blocks

The padding of ISO 7816-4: a marker byte `0x80` and zeros behind it, up to the end of a block. The
marker is always there, so a string that fills its last block gets a block more, and the padding is
found again from the end without the length of the string (`unpad_marked`): it does not matter how
many zeros there are.
-/

namespace Padding

open List

/-- A string with the marker and some zeros behind it. -/
def marked (data : Bytes) (zeros : ℕ) : Bytes :=
  data ++ 0x80 :: List.replicate zeros 0

/-- A string with the marker and as few zeros as fill a block. -/
def pad (block : ℕ) (data : Bytes) : Bytes :=
  marked data (block - 1 - data.length % block)

/-- The string before the marker, if the last byte that is not zero is one. -/
def unpad (data : Bytes) : Option Bytes :=
  match data.reverse.dropWhile (· = 0) with
  | [] => none
  | b :: rest => if b = 0x80 then some rest.reverse else none

variable {block : ℕ} {data : Bytes}

@[simp]
theorem length_marked (data : Bytes) (zeros : ℕ) :
    (marked data zeros).length = data.length + 1 + zeros := by
  rw [marked, length_append, length_cons, length_replicate]
  omega

theorem length_pad (h : 0 < block) :
    (pad block data).length = (data.length / block + 1) * block := by
  have hmod := Nat.mod_lt data.length h
  have hdiv := Nat.div_add_mod' data.length block
  rw [pad, length_marked, Nat.add_mul]
  omega

theorem length_pad_mod (h : 0 < block) : (pad block data).length % block = 0 := by
  rw [length_pad h, Nat.mul_mod_left]

private theorem dropWhile_zeros (zeros : ℕ) (rest : Bytes) :
    (List.replicate zeros 0 ++ rest).dropWhile (· = 0) = rest.dropWhile (· = 0) := by
  induction zeros with
  | zero => rfl
  | succ zeros ih =>
    rw [replicate_succ, cons_append, dropWhile_cons_of_pos (by simp), ih]

/-- **Padding is removed exactly**, however many zeros there are. -/
theorem unpad_marked (data : Bytes) (zeros : ℕ) : unpad (marked data zeros) = some data := by
  have hreverse : (marked data zeros).reverse = List.replicate zeros 0 ++ 0x80 :: data.reverse := by
    simp [marked]
  have hdrop : (marked data zeros).reverse.dropWhile (· = 0) = 0x80 :: data.reverse := by
    rw [hreverse, dropWhile_zeros, dropWhile_cons_of_neg (by decide)]
  rw [unpad, hdrop]
  simp

end Padding
