import PicoAll.Lib.ByteBuffer

/-!
# Circular buffers

A byte buffer whose last cell is followed by its first. `window` is what some cells hold from a place
on and `store` writes bytes from a place on, each in at most two pieces: up to the end of the buffer,
and from its beginning on. A window is a queue: its first bytes are the window of fewer cells, the
others are the window from further on (`drop_window`), and what is stored right behind a window is
appended to it (`window_store`).
-/

namespace CircularBuffer

open ByteBuffer List Nat

/-- What the `count` cells from a place on hold. -/
def window (buf : Bytes) (pos count : ℕ) : Bytes :=
  (buf.rotate pos).take count

/-- Write some bytes from a place on. -/
def store (buf : Bytes) (pos : ℕ) (data : Bytes) : Bytes :=
  patch (patch buf pos (data.take (buf.length - pos))) 0 (data.drop (buf.length - pos))

/-- A place that is less than one turn too far. -/
theorem mod_eq_ite {n size : ℕ} (h : n < size + size) :
    n % size = if n < size then n else n - size := by
  split_ifs with hn
  · exact mod_eq_of_lt hn
  · rw [mod_eq_sub_mod (not_lt.mp hn), mod_eq_of_lt (by omega)]

variable {buf data : Bytes} {pos count n : ℕ}

theorem length_window (h : count ≤ buf.length) : (window buf pos count).length = count := by
  rw [window, length_take, length_rotate, min_eq_left h]

/-- A window is read in two pieces. -/
theorem window_eq_slices (hpos : pos < buf.length) (h : n ≤ buf.length) :
    window buf pos n =
      slice buf pos (min n (buf.length - pos)) ++ slice buf 0 (n - (buf.length - pos)) := by
  rw [window, rotate_eq_drop_append_take hpos.le, take_append, length_drop,
    take_take, min_eq_left (by omega), slice, slice, drop_zero, ← length_drop,
    take_eq_take_min]

theorem take_window (h : n ≤ count) : (window buf pos count).take n = window buf pos n := by
  rw [window, window, take_take, min_eq_left h]

/-- What is left of a window when some bytes have been taken from it. -/
theorem drop_window (hn : n ≤ count) (h : count ≤ buf.length) :
    (window buf pos count).drop n = window buf ((pos + n) % buf.length) (count - n) := by
  have hlen := length_rotate buf pos
  rw [window, window, rotate_mod, ← rotate_rotate]
  generalize buf.rotate pos = cells at hlen ⊢
  rw [rotate_eq_drop_append_take (by omega), drop_take,
    take_append_of_le_length (by rw [length_drop]; omega)]

section Store

variable (hpos : pos < buf.length)
include hpos

theorem length_store (h : data.length ≤ buf.length) : (store buf pos data).length = buf.length := by
  have hpatch : (patch buf pos (data.take (buf.length - pos))).length = buf.length :=
    length_patch (by rw [length_take]; omega)
  rw [store, length_patch (by rw [hpatch, length_drop]; omega), hpatch]

/-- **What is stored behind a window is appended to it.** -/
theorem window_store (h : count + data.length ≤ buf.length) :
    window (store buf ((pos + count) % buf.length) data) pos (count + data.length) =
      window buf pos count ++ data := by
  have htail : (pos + count) % buf.length < buf.length := mod_lt _ (by omega)
  have hlen : (store buf ((pos + count) % buf.length) data).length = buf.length :=
    length_store htail (by omega)
  -- Seen from the window's first cell on the bytes are stored in one piece.
  have hrotate : (store buf ((pos + count) % buf.length) data).rotate pos =
      patch (buf.rotate pos) count data := by
    have hfits : count + data.length ≤ (buf.rotate pos).length := by rwa [length_rotate]
    refine ext_getElem? fun i ↦ ?_
    by_cases hi : i < buf.length
    · rw [getElem?_rotate (by rwa [hlen]), hlen, getElem?_patch hfits, getElem?_rotate hi, store]
      rw [mod_eq_ite (by omega : pos + count < _)] at htail ⊢
      have hfirst : (patch buf (if pos + count < buf.length then pos + count else
          pos + count - buf.length) (data.take (buf.length - if pos + count < buf.length then
            pos + count else pos + count - buf.length))).length = buf.length :=
        length_patch (by rw [length_take]; omega)
      rw [getElem?_patch (by rw [hfirst, length_drop]; omega),
        getElem?_patch (by rw [length_take]; omega), length_take, length_drop,
        mod_eq_ite (by omega : i + pos < _)]
      split_ifs <;> first
        | omega
        | rfl
        | (rw [getElem?_drop]; congr 1; omega)
        | (rw [getElem?_take, if_pos (by omega)]; congr 1; omega)
    · rw [getElem?_eq_none (by rw [length_rotate, hlen]; omega),
        getElem?_eq_none (by rw [length_patch hfits, length_rotate]; omega)]
  have hcount : (window buf pos count).length = count := length_window (by omega)
  rw [window, hrotate, patch, take_append_of_le_length, take_of_length_le]
  · rfl
  all_goals rw [length_append, ← window, hcount]

end Store

end CircularBuffer
