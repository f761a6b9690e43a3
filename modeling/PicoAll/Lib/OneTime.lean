import PicoAll.Lib.FaultProgram

/-!
# One-time programmable memory

A memory of rows whose bits only go from 0 to 1. Programming a row may stop before it is done, and
then any part of the new bits is there; a row that is protected by an error-correcting code may also
be left so that it cannot be decoded.

`Within a b` says that every bit of `a` is one of `b`. What a memory holds is compared by it: a row
only grows (`Burn.within_result`), and what a row holds is between what it held and what was to be
there (`Burn.result_within`).
-/

namespace OneTime

open BitVec

variable {w : ℕ}

/-! ### Inclusion of bits -/

/-- Every bit of `a` is one of `b`. -/
def Within (a b : BitVec w) : Prop :=
  a ||| b = b

instance (a b : BitVec w) : Decidable (Within a b) :=
  inferInstanceAs (Decidable (a ||| b = b))

theorem within_iff {a b : BitVec w} :
    Within a b ↔ ∀ i, a.getLsbD i = true → b.getLsbD i = true := by
  refine ⟨fun h i hi ↦ ?_, fun h ↦ eq_of_getLsbD_eq fun i _ ↦ ?_⟩
  · rw [← show a ||| b = b from h, getLsbD_or, hi, Bool.true_or]
  · rw [getLsbD_or]
    rcases hi : a.getLsbD i
    · exact Bool.false_or _
    · rw [h i hi, Bool.true_or]

namespace Within

variable {a b c : BitVec w}

theorem refl (a : BitVec w) : Within a a :=
  or_self

theorem trans (hab : Within a b) (hbc : Within b c) : Within a c :=
  within_iff.mpr fun i hi ↦ within_iff.mp hbc i (within_iff.mp hab i hi)

theorem antisymm (hab : Within a b) (hba : Within b a) : a = b := by
  rw [← show b ||| a = a from hba, BitVec.or_comm, show a ||| b = b from hab]

theorem zero (a : BitVec w) : Within 0 a :=
  zero_or

theorem left_or (a b : BitVec w) : Within a (a ||| b) :=
  within_iff.mpr fun i hi ↦ by rw [getLsbD_or, hi, Bool.true_or]

theorem right_or (a b : BitVec w) : Within b (a ||| b) :=
  within_iff.mpr fun i hi ↦ by rw [getLsbD_or, hi, Bool.or_true]

theorem or (hac : Within a c) (hbc : Within b c) : Within (a ||| b) c :=
  within_iff.mpr fun i hi ↦ by
    rw [getLsbD_or, Bool.or_eq_true] at hi
    exact hi.elim (within_iff.mp hac i) (within_iff.mp hbc i)

theorem and_left (a b : BitVec w) : Within (a &&& b) a :=
  within_iff.mpr fun i hi ↦ by
    rw [getLsbD_and, Bool.and_eq_true] at hi
    exact hi.1

theorem and_mono (h : Within a b) (c : BitVec w) : Within (a &&& c) (b &&& c) :=
  within_iff.mpr fun i hi ↦ by
    rw [getLsbD_and, Bool.and_eq_true] at hi ⊢
    exact ⟨within_iff.mp h i hi.1, hi.2⟩

theorem eq_zero (h : Within a 0) : a = 0 :=
  h.antisymm (.zero a)

/-- What the code asks: no bit of `a` is outside `b`. -/
theorem iff_and_not : Within a b ↔ a &&& ~~~b = 0 := by
  refine ⟨fun h ↦ eq_of_getLsbD_eq fun i hi ↦ ?_, fun h ↦ within_iff.mpr fun i hi ↦ ?_⟩
  · rw [getLsbD_and, getLsbD_not, show (0 : BitVec w) = 0#w from rfl,
      getLsbD_zero]
    rcases ha : a.getLsbD i
    · exact Bool.false_and _
    · rw [within_iff.mp h i ha, Bool.not_true, Bool.and_false, Bool.and_false]
  · have hand : (a &&& ~~~b).getLsbD i = false := by
      rw [h]
      exact getLsbD_zero
    rw [getLsbD_and, hi, Bool.true_and, getLsbD_not,
      decide_eq_true (lt_of_getLsbD hi), Bool.true_and, Bool.not_eq_false'] at hand
    exact hand

/-- What the code asks of a value that must be there. -/
theorem iff_and_eq : Within a b ↔ b &&& a = a := by
  refine ⟨fun h ↦ eq_of_getLsbD_eq fun i _ ↦ ?_, fun h ↦ ?_⟩
  · rw [getLsbD_and]
    rcases ha : a.getLsbD i
    · exact Bool.and_false _
    · rw [within_iff.mp h i ha, Bool.true_and]
  · rw [← h]
    exact and_left b a

end Within

/-! ### Programming a row -/

/-- What becomes of a row that is programmed. -/
inductive Burn (w : ℕ) where
  /-- The row is programmed. -/
  | done
  /-- Of the new bits those of `mask` are there. The power is lost, or an error is reported. -/
  | torn (lost : Bool) (mask : BitVec w)
  /-- The row can no longer be decoded. The power is lost, or an error is reported. -/
  | spoilt (lost : Bool) (bits : BitVec w)
  deriving DecidableEq, Repr

/-- The row afterwards. What is undecodable is said by `spoils`. -/
def Burn.result (spoils : BitVec w → Bool) (old value : BitVec w) : Burn w → BitVec w
  | .done => old ||| value
  | .torn _ mask => old ||| (value &&& mask)
  | .spoilt _ bits => if spoils (old ||| bits) then old ||| bits else old

namespace Burn

variable {spoils : BitVec w → Bool} {old value : BitVec w}

/-- **Bits only go from 0 to 1.** -/
theorem within_result (burn : Burn w) : Within old (burn.result spoils old value) := by
  cases burn with
  | done => exact .left_or ..
  | torn lost mask => exact .left_or ..
  | spoilt lost bits =>
    rw [result]
    split
    · exact .left_or ..
    · exact .refl old

/-- Of a row that can be decoded, or need not be, no bits are there that were not to be. -/
theorem result_within {burn : Burn w} (h : spoils (burn.result spoils old value) = false) :
    Within (burn.result spoils old value) (old ||| value) := by
  cases burn with
  | done => exact .refl _
  | torn lost mask =>
    exact (Within.left_or old value).or ((Within.and_left value mask).trans (.right_or old value))
  | spoilt lost bits =>
    rw [result] at h ⊢
    split at h
    · rename_i hspoils
      rw [hspoils] at h
      cases h
    · rename_i hspoils
      rw [if_neg hspoils]
      exact .left_or ..

end Burn

/-! ### Error-correcting codes -/

/-- How sixteen bits of data are kept in a row. -/
structure Ecc (w : ℕ) where
  /-- The row for some data. -/
  encode : BitVec 16 → BitVec w
  /-- The data of a row, if there are any. -/
  decode : BitVec w → Option (BitVec 16)
  /-- What was encoded is read back. -/
  decode_encode : ∀ v, decode (encode v) = some v
  /-- A row that was never programmed holds zero. -/
  decode_zero : decode 0 = some 0

namespace Ecc

variable (E : Ecc w)

/-- A row that cannot be decoded. -/
def spoils (row : BitVec w) : Bool :=
  (E.decode row).isNone

end Ecc

/-! ### Voting -/

/-- The bits that are in at least two of three values. -/
def majority (a b c : BitVec w) : BitVec w :=
  (a &&& b) ||| (a &&& c) ||| (b &&& c)

theorem majority_getLsbD (a b c : BitVec w) (i : ℕ) :
    (majority a b c).getLsbD i =
      ((a.getLsbD i && b.getLsbD i) || (a.getLsbD i && c.getLsbD i) ||
        (b.getLsbD i && c.getLsbD i)) := by
  simp only [majority, getLsbD_or, getLsbD_and]

end OneTime

namespace FaultProgram

variable {σ ε α : Type}

def powerLost : Prog σ ε α :=
  fun w ↦ (.error .cut, w)

theorem wp_powerLost {A : Outcome → Prop} {Q : α → σ → Prop} {E : Exit ε → σ → Prop} {s : σ}
    (h : E .cut s) : wp A (powerLost : Prog σ ε α) Q E s :=
  fun _ hos ↦ ⟨hos, h⟩

end FaultProgram
