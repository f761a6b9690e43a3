import PicoAll.Lib.BigEndian

/-!
# Byte buffers

A buffer is a byte string that is read and written in place: `slice` takes some bytes out of it and
`patch` writes some bytes over it. Both are described byte by byte (`getElem?_slice`,
`getElem?_patch`), and everything else follows from that: a slice reads back what was written there,
and does not see a patch beside it.

Numbers in a buffer are little-endian: `leBytes n v` is the `n`-byte field holding `v`, and `leNat`
reads it back.
-/

namespace ByteBuffer

open BigEndian List

/-- The `len` bytes at an offset. -/
def slice (data : Bytes) (off len : ℕ) : Bytes :=
  (data.drop off).take len

/-- Write some bytes over a buffer. -/
def patch (data : Bytes) (off : ℕ) (bytes : Bytes) : Bytes :=
  data.take off ++ bytes ++ data.drop (off + bytes.length)

variable {data bytes : Bytes} {off off' len i : ℕ}

theorem getElem?_slice : (slice data off len)[i]? = if i < len then data[off + i]? else none := by
  rw [slice, getElem?_take]
  split_ifs
  · rw [getElem?_drop]
  · rfl

theorem length_slice (h : off + len ≤ data.length) : (slice data off len).length = len := by
  rw [slice, length_take, length_drop]
  omega

section

variable (h : off + bytes.length ≤ data.length)
include h

theorem length_patch :
    (patch data off bytes).length = data.length := by
  rw [patch, length_append, length_append, length_take, length_drop]
  omega

theorem getElem?_patch :
    (patch data off bytes)[i]? =
      if off ≤ i ∧ i < off + bytes.length then bytes[i - off]? else data[i]? := by
  have htake : (data.take off).length = off := by
    rw [length_take]
    omega
  rw [patch, append_assoc]
  by_cases hlow : i < off
  · rw [getElem?_append_left (by omega), getElem?_take, if_pos hlow, if_neg (by omega)]
  · rw [getElem?_append_right (by omega), htake]
    by_cases hhigh : i < off + bytes.length
    · rw [getElem?_append_left (by omega), if_pos (by omega)]
    · rw [getElem?_append_right (by omega), getElem?_drop, if_neg (by omega)]
      congr 1
      omega

/-! ### Slices of patches -/

/-- A slice reads back what was written there. -/
theorem slice_patch_self :
    slice (patch data off bytes) off bytes.length = bytes := by
  refine ext_getElem? fun i ↦ ?_
  rw [getElem?_slice, getElem?_patch h]
  by_cases hi : i < bytes.length
  · rw [if_pos hi, if_pos (by omega), Nat.add_sub_cancel_left]
  · rw [if_neg hi, getElem?_eq_none (by omega)]

/-- A slice does not see a patch beside it. -/
theorem slice_patch_of_disjoint (hdisjoint : off' + len ≤ off ∨ off + bytes.length ≤ off') :
    slice (patch data off bytes) off' len = slice data off' len := by
  refine ext_getElem? fun i ↦ ?_
  rw [getElem?_slice, getElem?_slice, getElem?_patch h]
  by_cases hi : i < len
  · rw [if_pos hi, if_pos hi, if_neg (by omega)]
  · rw [if_neg hi, if_neg hi]

end

/-- A slice is one slice after another. -/
theorem slice_add (data : Bytes) (off m n : ℕ) :
    slice data off (m + n) = slice data off m ++ slice data (off + m) n := by
  rw [slice, slice, slice, take_add, drop_drop]

theorem slice_patch_end (h : off + len + bytes.length ≤ data.length) :
    slice (patch data (off + len) bytes) off (len + bytes.length) = slice data off len ++ bytes := by
  rw [slice_add, slice_patch_self h, slice_patch_of_disjoint h (.inl le_rfl)]

/-- What is put back where it was taken from is what was there. -/
theorem slice_patch_slice {data' : Bytes} {m n : ℕ} (h : off + m ≤ data.length)
    (h' : off + m ≤ data'.length) (hrest : slice data' (off + m) n = slice data (off + m) n) :
    slice (patch data' off (slice data off m)) off (m + n) = slice data off (m + n) := by
  have hm : (slice data off m).length = m := length_slice h
  have hfits : off + (slice data off m).length ≤ data'.length := by rw [hm]; exact h'
  have hback := slice_patch_self hfits
  rw [hm] at hback
  rw [slice_add, slice_add, hback, slice_patch_of_disjoint hfits (.inr (by rw [hm])), hrest]

/-! ### Little-endian numbers -/

/-- The `n`-byte little-endian field holding `v`. -/
def leBytes (n v : ℕ) : Bytes :=
  (beBytes n v).reverse

/-- The number a byte string denotes, least significant byte first. -/
def leNat (l : Bytes) : ℕ :=
  beNat l.reverse

@[simp]
theorem length_leBytes (n v : ℕ) : (leBytes n v).length = n := by
  rw [leBytes, length_reverse, length_beBytes]

/-- **A field holds what was put into it.** -/
theorem leNat_leBytes {n v : ℕ} (h : v < 256 ^ n) : leNat (leBytes n v) = v := by
  rw [leNat, leBytes, reverse_reverse, beNat_beBytes h]

end ByteBuffer
