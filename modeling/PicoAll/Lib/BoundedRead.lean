import PicoAll.Lib.ByteBuffer

/-!
# Reads inside a buffer

A program that is handed a pointer and a length may read what lies behind the pointer, and nothing
else. Its reads are made explicit here: a computation either has a value or has read a byte that is
not in the buffer (`none`). That a program stays inside its buffer is then that it has a value for
every buffer, and the value is computed from the bytes of the buffer alone.

A pointer into the buffer is an index, and what it stands for in an argument is the rest of the
buffer it points to (`PointsTo`): reading a byte, skipping some and handing some out are read off
that rest.
-/

open BigEndian ByteBuffer List

/-- What a computation over a buffer has come to: `none` is a read outside the buffer. -/
abbrev BoundedRead (α : Type) := Option α

namespace BoundedRead

variable {data rest : Bytes} {i n : ℕ} {b : UInt8}

/-- The byte at an index. -/
def byte (data : Bytes) (i : ℕ) : BoundedRead UInt8 :=
  data[i]?

/-- The big-endian number in the `n` bytes at an index, all of which are read. -/
def number (data : Bytes) (i n : ℕ) : BoundedRead ℕ :=
  if i + n ≤ data.length then some (beField data i n) else none

/-- The `n` bytes at an index, all of which have to be there. -/
def bytes (data : Bytes) (i n : ℕ) : BoundedRead Bytes :=
  if i + n ≤ data.length then some (slice data i n) else none

/-- An index points to the rest of a buffer. -/
structure PointsTo (data : Bytes) (i : ℕ) (rest : Bytes) : Prop where
  drop_eq : data.drop i = rest
  le_length : i ≤ data.length

namespace PointsTo

theorem start (data : Bytes) : PointsTo data 0 data :=
  ⟨rfl, Nat.zero_le _⟩

theorem of_le (h : i ≤ data.length) : PointsTo data i (data.drop i) :=
  ⟨rfl, h⟩

theorem length (h : PointsTo data i rest) : data.length = i + rest.length := by
  have hle := h.le_length
  rw [← h.drop_eq, length_drop]
  omega

/-- The end of the buffer. -/
theorem nil (h : PointsTo data i []) : i = data.length :=
  (h.length.trans (Nat.add_zero i)).symm

theorem lt (h : PointsTo data i (b :: rest)) : i < data.length := by
  rw [h.length, length_cons]
  omega

/-- The next byte is inside the buffer. -/
theorem byte (h : PointsTo data i (b :: rest)) : BoundedRead.byte data i = some b := by
  rw [BoundedRead.byte, ← head?_drop, h.drop_eq, head?_cons]

/-- Skipping some bytes. -/
theorem skip (h : PointsTo data i rest) (hn : n ≤ rest.length) :
    PointsTo data (i + n) (rest.drop n) := by
  refine ⟨?_, ?_⟩
  · rw [← drop_drop, h.drop_eq]
  · rw [h.length]
    omega

theorem next (h : PointsTo data i (b :: rest)) : PointsTo data (i + 1) rest :=
  h.skip (by simp)

/-- The bytes handed out at an index. -/
theorem slice (h : PointsTo data i rest) : slice data i n = rest.take n := by
  rw [ByteBuffer.slice, h.drop_eq]

theorem bytes (h : PointsTo data i rest) (hn : n ≤ rest.length) :
    BoundedRead.bytes data i n = some (rest.take n) := by
  rw [BoundedRead.bytes, if_pos (by rw [h.length]; omega), h.slice]

theorem number (h : PointsTo data i rest) (hn : n ≤ rest.length) :
    BoundedRead.number data i n = some (beNat (rest.take n)) := by
  rw [BoundedRead.number, if_pos (by rw [h.length]; omega), beField, h.drop_eq]

end PointsTo

end BoundedRead
