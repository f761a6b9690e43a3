import Mathlib

/-!
# Big-endian fields of byte strings

Fixed-width unsigned numbers inside byte strings, most significant byte first: `beBytes n v` is the
`n`-byte field holding `v`, and `beField l off n` reads the `n`-byte field of `l` at offset `off`.

A record laid out as a concatenation of fields is read back by `beField_append`: the field read at
the length of what stands before it is the number written there. Reading is total — past the end of
the string there are simply fewer bytes to read — so a parser has to check lengths itself, as the
programs this library is used for do.
-/

/-- A byte string. -/
abbrev Bytes := List UInt8

/-- What is said of the members of a list is decided on the list, also where the type is finite. -/
instance (priority := high) decidableForallMem {α : Type} (l : List α) (p : α → Prop)
    [DecidablePred p] : Decidable (∀ a ∈ l, p a) :=
  List.decidableBAll p l

namespace BigEndian

open List Nat

/-- The `n`-byte big-endian field holding `v`; the high part that does not fit is dropped. -/
def beBytes : ℕ → ℕ → Bytes
  | 0, _ => []
  | n + 1, v => UInt8.ofNat (v / 256 ^ n) :: beBytes n v

variable (l : Bytes)

/-- The number a byte string denotes, most significant byte first. -/
def beNat : ℕ :=
  l.foldl (fun acc b ↦ acc * 256 + b.toNat) 0

/-- The `n`-byte field of `l` at offset `off`. -/
def beField (off n : ℕ) : ℕ :=
  beNat ((l.drop off).take n)

@[simp]
theorem length_beBytes (n v : ℕ) : (beBytes n v).length = n := by
  induction n with
  | zero => rfl
  | succ n ih => simp [beBytes, ih]

private theorem foldl_beBytes (n v acc : ℕ) :
    (beBytes n v).foldl (fun acc b ↦ acc * 256 + b.toNat) acc = acc * 256 ^ n + v % 256 ^ n := by
  induction n generalizing acc with
  | zero => simp [beBytes, mod_one]
  | succ n ih =>
    have hdigit : v % 256 ^ (n + 1) = v / 256 ^ n % 256 * 256 ^ n + v % 256 ^ n := by
      rw [pow_succ, mod_mul]
      ring
    have hbyte : (UInt8.ofNat (v / 256 ^ n)).toNat = v / 256 ^ n % 256 := by simp
    rw [beBytes, foldl_cons, ih, hdigit, hbyte]
    ring

/-- **A field holds what was put into it**, up to its width. -/
theorem beNat_beBytes_mod (n v : ℕ) : beNat (beBytes n v) = v % 256 ^ n := by
  rw [beNat, foldl_beBytes]
  simp

theorem beNat_beBytes {n v : ℕ} (h : v < 256 ^ n) : beNat (beBytes n v) = v := by
  rw [beNat_beBytes_mod, mod_eq_of_lt h]

/-- A byte string denotes a number below `256` to its length. -/
theorem beNat_lt : beNat l < 256 ^ l.length := by
  suffices h : ∀ acc k, acc < 256 ^ k →
      l.foldl (fun acc b ↦ acc * 256 + b.toNat) acc < 256 ^ (k + l.length) by
    simpa [beNat] using h 0 0 (by simp)
  induction l with
  | nil => exact fun acc k h ↦ h
  | cons b l ih =>
    intro acc k h
    have hstep : acc * 256 + b.toNat < 256 ^ (k + 1) := by
      have hb := b.toNat_lt
      omega
    simpa [add_assoc, add_comm 1] using ih (acc * 256 + b.toNat) (k + 1) hstep

private theorem foldl_eq_beNat (acc : ℕ) :
    l.foldl (fun acc b ↦ acc * 256 + b.toNat) acc = acc * 256 ^ l.length + beNat l := by
  induction l generalizing acc with
  | nil => simp [beNat]
  | cons b l ih =>
    have hb : beNat (b :: l) = (0 * 256 + b.toNat) * 256 ^ l.length + beNat l := ih _
    rw [foldl_cons, ih, hb, length_cons]
    ring

theorem beNat_cons (b : UInt8) (l : Bytes) :
    beNat (b :: l) = b.toNat * 256 ^ l.length + beNat l := by
  rw [beNat, foldl_cons, foldl_eq_beNat, zero_mul, zero_add]

/-- What does not fit is left out. -/
theorem beBytes_add_mul (n v k : ℕ) : beBytes n (k * 256 ^ n + v) = beBytes n v := by
  induction n generalizing k with
  | zero => rfl
  | succ n ih =>
    have hmul : k * 256 ^ (n + 1) = k * 256 * 256 ^ n := by ring
    have hdiv : (k * 256 * 256 ^ n + v) / 256 ^ n = k * 256 + v / 256 ^ n := by
      rw [add_comm, add_mul_div_right _ _ (by positivity), add_comm]
    rw [beBytes, beBytes, hmul, hdiv, ih]
    congr 1
    refine UInt8.toNat_inj.mp ?_
    rw [UInt8.toNat_ofNat', UInt8.toNat_ofNat']
    omega

/-- A byte string is the field of the number it denotes. -/
theorem beBytes_beNat : beBytes l.length (beNat l) = l := by
  induction l with
  | nil => rfl
  | cons b l ih =>
    have hlt := beNat_lt l
    rw [length_cons, beBytes, beNat_cons, beBytes_add_mul, ih, add_comm,
      add_mul_div_right _ _ (by positivity), div_eq_of_lt hlt, zero_add,
      UInt8.ofNat_toNat]

theorem beField_lt (off n : ℕ) : beField l off n < 256 ^ n :=
  (beNat_lt _).trans_le (Nat.pow_le_pow_right (by norm_num) (by simp))

/-- **Reading a field back** from the place it was laid out at. -/
theorem beField_append {pre post : Bytes} {off n v : ℕ} (hoff : pre.length = off)
    (hv : v < 256 ^ n) : beField (pre ++ (beBytes n v ++ post)) off n = v := by
  subst hoff
  rw [beField, drop_left, take_append_of_le_length (by simp),
    take_of_length_le (by simp), beNat_beBytes hv]

/-! ### Records laid out as a list of fields -/

/-- The fields of a record, in order: the width and the value of each. -/
abbrev Fields := List (ℕ × ℕ)

variable (fs : Fields)

/-- The bytes of a record. -/
def Fields.encode : Bytes :=
  fs.flatMap fun f ↦ beBytes f.1 f.2

/-- The widths of the fields of a record. They are what offsets are computed from, and in a fixed
format they are constants even where the values are not. -/
def Fields.widths : List ℕ :=
  fs.map Prod.fst

theorem Fields.length_encode : fs.encode.length = fs.widths.sum := by
  simp [Fields.encode, Fields.widths, length_flatMap]

end BigEndian
