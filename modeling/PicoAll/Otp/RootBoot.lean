import PicoAll.Otp.Root

/-!
# What one boot does to the root pages

`wp_otpRootOpen` says everything a boot can do, whatever the Boot ROM answers and wherever the power
is lost: either nothing was programmed, or the inspection chose one page (`Chosen`) and only rows of
that page were programmed (`Touched`). If the root was given out, the page holds a record and its
lock is effective; if not, a reason is known.
-/

namespace PicoAll.Otp

open FaultProgram OneTime List Function

variable {P : RootParams} {rows rows' : Rows} {page q : ℕ}

/-! ### Pages -/

def pageLock (rows : Rows) (page : ℕ) : Row :=
  rows (lockRow page)

/-- No row of the page was ever programmed. -/
def Blank (rows : Rows) (page : ℕ) : Prop :=
  ∀ i < 64, rows (dataRow page + i) = 0

/-- Some copy of the lock has made the page read-only. -/
def ReadOnlyBegun (rows : Rows) (page : ℕ) : Prop :=
  pageLock rows page &&& readOnlyBits ≠ 0

/-- A lock that is effective: complete, or read-only by its majority. -/
def Effective (lock : Row) : Prop :=
  lock = otpRootReadOnly ∨ voted lock = 0x3d ∧ Within lock otpRootReadOnly

/-- A page that is not one of ours. -/
def Foreign (rows : Rows) (page : ℕ) : Prop :=
  rows (lockRow page - 1) ≠ 0 ∨ ¬Within (pageLock rows page) otpRootReadOnly ∨
    ¬Blank rows page ∧ ¬Within otpRootPrivate (pageLock rows page)

/-- The page holds a complete record. -/
def Holds (P : RootParams) (rows : Rows) (page : ℕ) (record : Bytes) : Prop :=
  pageRecord P rows page = some record ∧ WellFormed P record

/-- A row of the page, or its lock. -/
def OfPage (page row : ℕ) : Prop :=
  row = lockRow page ∨ dataRow page ≤ row ∧ row < dataRow page + 64

theorem mem_otpRootPages {p : ℕ} : p ∈ otpRootPages ↔ 56 ≤ p ∧ p ≤ 58 := by
  simp only [otpRootPages, mem_cons, not_mem_nil, or_false]
  omega

theorem pageFor_lockRow (page : ℕ) : pageFor (lockRow page) = page := by
  rw [pageFor, lockRow, if_pos (by omega)]
  omega

variable {i : ℕ} {lock : Row}

theorem dataRow_add_lt (hp : page ∈ otpRootPages) (hi : i < 64) : dataRow page + i < 0xf80 := by
  rw [mem_otpRootPages] at hp
  rw [dataRow]
  omega

theorem pageFor_dataRow (hp : page ∈ otpRootPages) (hi : i < 64) :
    pageFor (dataRow page + i) = page := by
  rw [pageFor, if_neg (by have := dataRow_add_lt hp hi; omega), dataRow]
  omega

theorem dataRow_ne_lockRow (hp : page ∈ otpRootPages) (hi : i < 64) (q : ℕ) :
    dataRow page + i ≠ lockRow q := by
  have := dataRow_add_lt hp hi
  rw [lockRow]
  omega

/-- The rows of different pages are different. -/
theorem not_ofPage (hp : page ∈ otpRootPages) (hq : q ∈ otpRootPages) (hne : q ≠ page) :
    (∀ i < 64, ¬OfPage page (dataRow q + i)) ∧ ¬OfPage page (lockRow q) ∧
      ¬OfPage page (lockRow q - 1) := by
  rw [mem_otpRootPages] at hp hq
  refine ⟨fun i hi ↦ ?_, ?_, ?_⟩ <;> unfold OfPage lockRow dataRow <;> omega

theorem not_ofPage_keyLock (hp : page ∈ otpRootPages) : ¬OfPage page (lockRow page - 1) := by
  rw [mem_otpRootPages] at hp
  unfold OfPage lockRow dataRow
  omega

theorem Blank.congr (h : Blank rows page) (heq : ∀ i < 64, rows' (dataRow page + i) =
    rows (dataRow page + i)) : Blank rows' page :=
  fun i hi ↦ (heq i hi).trans (h i hi)

/-! ### Records -/

theorem decodeWords_congr {E : Ecc 24} {row n : ℕ} (h : ∀ i < n, rows' (row + i) = rows (row + i)) :
    decodeWords E rows' row n = decodeWords E rows row n := by
  induction n generalizing row with
  | zero => rfl
  | succ n ih =>
    have hrest : ∀ i < n, rows' (row + 1 + i) = rows (row + 1 + i) := fun i hi ↦ by
      rw [Nat.add_assoc, Nat.add_comm 1 i]
      exact h (i + 1) (by omega)
    rw [decodeWords, decodeWords, ih hrest, show rows' row = rows row from h 0 (by omega)]

theorem pageRecord_congr (h : ∀ i < 64, rows' (dataRow page + i) = rows (dataRow page + i)) :
    pageRecord P rows' page = pageRecord P rows page := by
  rw [pageRecord, decodeWords_congr fun i hi ↦ h i (by rw [otpRootBytes] at hi; omega), pageRecord]

theorem Holds.congr {record : Bytes} (h : Holds P rows page record)
    (heq : ∀ i < 64, rows' (dataRow page + i) = rows (dataRow page + i)) :
    Holds P rows' page record :=
  ⟨(pageRecord_congr heq).trans h.1, h.2⟩

/-- A record starts with bytes that are not zero. -/
theorem Holds.not_blank {record : Bytes} (h : Holds P rows page record) : ¬Blank rows page := by
  intro hblank
  obtain ⟨hrecord, hmagic, -⟩ := h
  rw [pageRecord, Option.map_eq_some_iff] at hrecord
  obtain ⟨words, hwords, rfl⟩ := hrecord
  rw [show otpRootBytes / 2 = 49 + 1 from rfl, decodeWords,
    show rows (dataRow page) = 0 from hblank 0 (by omega), P.ecc.decode_zero] at hwords
  obtain ⟨word, hword, hwords⟩ := Option.bind_eq_some_iff.mp hwords
  obtain ⟨rest, -, hrest⟩ := Option.bind_eq_some_iff.mp hwords
  rw [← Option.some.inj hrest, ← Option.some.inj hword, unpackWords, flatMap_cons] at hmagic
  have hfirst := congrArg List.head? hmagic
  rw [show unpackWord 0 = [0, 0] by decide] at hfirst
  exact absurd hfirst (by simp [magic])

theorem unpackWord_packWord (low high : UInt8) : unpackWord (packWord low high) = [low, high] := by
  have hlow : (high.toBitVec ++ low.toBitVec).extractLsb' 0 8 = low.toBitVec :=
    BitVec.eq_of_getLsbD_eq fun i hi ↦ by
      rw [BitVec.getLsbD_extractLsb', BitVec.getLsbD_append]
      simp [hi]
  have hhigh : (high.toBitVec ++ low.toBitVec).extractLsb' 8 8 = high.toBitVec :=
    BitVec.eq_of_getLsbD_eq fun i hi ↦ by
      rw [BitVec.getLsbD_extractLsb', BitVec.getLsbD_append]
      simp [hi]
  rw [packWord, unpackWord, hlow, hhigh]

/-- What was packed is unpacked. -/
theorem unpackWords_packBytes {bytes : Bytes} (h : bytes.length % 2 = 0) :
    unpackWords (packBytes bytes) = bytes := by
  induction bytes using packBytes.induct with
  | case1 low high rest ih =>
    rw [length_cons, length_cons] at h
    rw [packBytes, unpackWords, flatMap_cons, unpackWord_packWord]
    exact congrArg (low :: high :: ·) (ih (by omega))
  | case2 bytes hshort =>
    rcases bytes with - | ⟨low, - | ⟨high, rest⟩⟩
    · rfl
    · cases h
    · exact absurd rfl (hshort low high rest)

theorem length_packBytes (bytes : Bytes) : (packBytes bytes).length = bytes.length / 2 := by
  induction bytes using packBytes.induct with
  | case1 low high rest ih =>
    rw [packBytes, length_cons, ih, length_cons, length_cons]
    omega
  | case2 bytes hshort =>
    rcases bytes with - | ⟨low, - | ⟨high, rest⟩⟩
    · rfl
    · simp [packBytes]
    · exact absurd rfl (hshort low high rest)

/-- The record of a new root. -/
theorem wellFormed_selected {secret : Bytes} (h : secret.length = 64) :
    WellFormed P (magic ++ secret ++ P.hash (magic ++ secret)) := by
  have hlen : (magic ++ secret).length = 68 := by rw [length_append, h]; rfl
  refine ⟨?_, ?_⟩
  · rw [append_assoc, take_append_of_le_length (by decide)]
    rfl
  · rw [take_append_of_le_length hlen.ge, ← hlen, take_length, drop_left]

/-! ### Locks -/

theorem otpRootReadOnly_eq : otpRootReadOnly = otpRootPrivate ||| readOnlyBits := by
  decide

theorem private_within_readOnly : Within otpRootPrivate otpRootReadOnly := by
  decide

theorem private_not_readOnly : otpRootPrivate &&& readOnlyBits = 0 := by
  decide

theorem not_begun_of_private (h : Within lock otpRootPrivate) : lock &&& readOnlyBits = 0 :=
  (private_not_readOnly ▸ h.and_mono readOnlyBits : Within _ 0).eq_zero

/-- A lock that is not read-only in any copy is on its way to the private one. -/
theorem within_private (h : Within lock otpRootReadOnly) (hopen : lock &&& readOnlyBits = 0) :
    Within lock otpRootPrivate := by
  refine within_iff.mpr fun i hi ↦ ?_
  have hor := within_iff.mp h i hi
  have hand : (lock &&& readOnlyBits).getLsbD i = false := by
    rw [hopen]
    exact BitVec.getLsbD_zero
  rw [BitVec.getLsbD_and, hi, Bool.true_and] at hand
  rw [otpRootReadOnly_eq, BitVec.getLsbD_or, hand, Bool.or_false] at hor
  exact hor

theorem voted_getLsbD (lock : Row) (hi : i < 8) :
    (voted lock).getLsbD i = ((lock.getLsbD i && lock.getLsbD (8 + i)) ||
      (lock.getLsbD i && lock.getLsbD (16 + i)) ||
        (lock.getLsbD (8 + i) && lock.getLsbD (16 + i))) := by
  rw [voted, BitVec.getLsbD_and, majority_getLsbD, BitVec.getLsbD_ushiftRight,
    BitVec.getLsbD_ushiftRight]
  have hmask : (0xff : Row).getLsbD i = true := by interval_cases i <;> decide
  rw [hmask, Bool.and_true]

theorem voted_getLsbD_of_ge (lock : Row) (hi : 8 ≤ i) (hlt : i < 24) :
    (voted lock).getLsbD i = false := by
  have hmask : (0xff : Row).getLsbD i = false := by interval_cases i <;> decide
  rw [voted, BitVec.getLsbD_and, hmask, Bool.and_false]

/-- What two copies agree on is voted. -/
theorem voted_getLsbD_of_agree (hi : i < 8) {bit : Bool} (h : lock.getLsbD i = bit)
    (h' : lock.getLsbD (8 + i) = bit) : (voted lock).getLsbD i = bit := by
  rw [voted_getLsbD lock hi, h, h']
  rcases bit <;> simp

theorem voted_and_three (h : ∀ i < 2, (voted lock).getLsbD i = false) : voted lock &&& 3 = 0 := by
  refine BitVec.eq_of_getLsbD_eq fun i hlt ↦ ?_
  rw [BitVec.getLsbD_and, show (0 : Row).getLsbD i = false from BitVec.getLsbD_zero]
  rcases Nat.lt_or_ge i 2 with hi | hi
  · rw [h i hi, Bool.false_and]
  · rw [show (3 : Row).getLsbD i = false by interval_cases i <;> decide, Bool.and_false]

/-- A lock without read-only bits lacks each copy of them. -/
theorem getLsbD_of_not_begun (h : lock &&& readOnlyBits = 0) (hi : readOnlyBits.getLsbD i = true) :
    lock.getLsbD i = false := by
  have hand : (lock &&& readOnlyBits).getLsbD i = false := by
    rw [h]
    exact BitVec.getLsbD_zero
  rwa [BitVec.getLsbD_and, hi, Bool.and_true] at hand

theorem voted_zero_of_not_begun (h : lock &&& readOnlyBits = 0) : (voted lock).getLsbD 0 = false :=
  voted_getLsbD_of_agree (by omega) (getLsbD_of_not_begun h (by decide))
    (getLsbD_of_not_begun h (by decide))

/-- An effective lock has been begun. -/
theorem Effective.begun (h : Effective lock) : lock &&& readOnlyBits ≠ 0 := by
  intro hopen
  rcases h with rfl | ⟨hvoted, -⟩
  · cases hopen
  · have hbit := voted_zero_of_not_begun hopen
    rw [hvoted] at hbit
    cases hbit

/-- Until its lock is effective a page can be programmed after a reset. -/
theorem voted_of_not_effective (h : Within lock otpRootReadOnly)
    (hclosed : lock &&& readOnlyBits ≠ 0 → Within otpRootPrivate lock) (hnot : ¬Effective lock) :
    voted lock &&& 3 = 0 := by
  have hno : ∀ i, otpRootReadOnly.getLsbD i = false → lock.getLsbD i = false := fun i hi ↦ by
    by_contra hlock
    rw [within_iff.mp h i ((Bool.not_eq_false _).mp hlock)] at hi
    cases hi
  have hone : (voted lock).getLsbD 1 = false :=
    voted_getLsbD_of_agree (by omega) (hno 1 (by decide)) (hno 9 (by decide))
  have hzero : (voted lock).getLsbD 0 = false := by
    by_contra hbit
    have hyes : ∀ i, otpRootPrivate.getLsbD i = true → lock.getLsbD i = true :=
      within_iff.mp (hclosed fun hopen ↦ hbit (voted_zero_of_not_begun hopen))
    -- Then the majority is what it is for a complete lock.
    have hbits : ∀ i < 8, (voted lock).getLsbD i = (0x3d : Row).getLsbD i := by
      intro i hi
      interval_cases i
      · exact (Bool.not_eq_false _).mp hbit
      · exact hone
      all_goals first
        | exact voted_getLsbD_of_agree (by omega) (hyes _ (by decide)) (hyes _ (by decide))
        | exact voted_getLsbD_of_agree (by omega) (hno _ (by decide)) (hno _ (by decide))
    refine hnot (.inr ⟨BitVec.eq_of_getLsbD_eq fun i hlt ↦ ?_, h⟩)
    rcases Nat.lt_or_ge i 8 with hi | hi
    · exact hbits i hi
    · rw [voted_getLsbD_of_ge lock hi hlt]
      interval_cases i <;> decide
  refine voted_and_three fun i hi ↦ ?_
  interval_cases i
  · exact hzero
  · exact hone

/-! ### What the environment does -/

/-- No read of the boot reports an error. -/
def RootHal.ReadsSucceed (hal : RootHal) : Prop :=
  ∀ n row, hal.rawFails n row = false ∧ hal.eccFails n row = false

/-- Nothing goes wrong in the boot. -/
structure RootHal.Works (hal : RootHal) : Prop where
  reads : hal.ReadsSucceed
  random : hal.random ≠ none
  burns : ∀ n row, hal.burn n row = .done

/-- A page that is not read-only, and whose record may not be readable in this boot. -/
def Unreadable (rows : Rows) (hal : RootHal) (page : ℕ) : Prop :=
  ¬ReadOnlyBegun rows page ∧ ∃ n, hal.eccFails n (dataRow page) = true

/-! ### What holds in the course of a boot -/

/-- Every data row was programmed after the lock of its page had been read back as private. -/
def Guarded : List HalCall → Prop
  | [] => True
  | .readRaw _ _ :: before => Guarded before
  | .burn row _ :: before =>
    (row < 0xf80 → .readRaw (lockRow (pageFor row)) otpRootPrivate ∈ before) ∧ Guarded before

/-- Nothing has been programmed. -/
structure Looking (rows : Rows) (hal : RootHal) (b : OtpBoard) : Prop where
  rows_eq : b.rows = rows
  latched_eq : b.latched = (OtpBoard.reset rows hal).latched
  hal_eq : b.hal = hal
  idle : ∀ row value, .burn row value ∉ b.log
  guarded : Guarded b.log

/-- What the pages must be for a root to be found or made. -/
structure Sound (P : RootParams) (rows : Rows) : Prop where
  unforeign : ∀ p ∈ otpRootPages, ¬Foreign rows p
  sealed : ∀ p ∈ otpRootPages, ¬Blank rows p → ReadOnlyBegun rows p →
    ∃ record, Holds P rows p record
  single : ∀ p ∈ otpRootPages, ∀ q ∈ otpRootPages, ∀ record record', Holds P rows p record →
    Holds P rows q record' → p = q

/-- The page that a boot works on: it holds the root, or is free. -/
structure Chosen (P : RootParams) (rows : Rows) (hal : RootHal) (page : ℕ) : Prop where
  mem : page ∈ otpRootPages
  unforeign : ∀ p ∈ otpRootPages, ¬Foreign rows p
  open_others : ∀ p ∈ otpRootPages, p ≠ page → ¬Blank rows p → ¬ReadOnlyBegun rows p
  hidden_others : ∀ p ∈ otpRootPages, p ≠ page → ∀ record, Holds P rows p record →
    Unreadable rows hal p
  choice : (Blank rows page ∧ ¬ReadOnlyBegun rows page) ∨ ∃ record, Holds P rows page record

/-- Of the memory at most the chosen page has been programmed, and that in order. -/
structure Touched (P : RootParams) (rows : Rows) (hal : RootHal) (page : ℕ) (b : OtpBoard) :
    Prop where
  latched_eq : b.latched = (OtpBoard.reset rows hal).latched
  hal_eq : b.hal = hal
  rows_eq : ∀ row, ¬OfPage page row → b.rows row = rows row
  burns : ∀ row value, .burn row value ∈ b.log → OfPage page row
  guarded : Guarded b.log
  lock_within : Within (pageLock b.rows page) otpRootReadOnly
  closed : ¬Blank b.rows page → Within otpRootPrivate (pageLock b.rows page)
  sealed : ReadOnlyBegun b.rows page → ∃ record, Holds P b.rows page record
  kept : ∀ record, Holds P rows page record → Holds P b.rows page record
  released : Effective (pageLock rows page) → Looking rows hal b

section Looking

variable {hal : RootHal} {b : OtpBoard}

theorem Looking.reset (rows : Rows) (hal : RootHal) : Looking rows hal (.reset rows hal) :=
  ⟨rfl, rfl, rfl, fun _ _ ↦ not_mem_nil, trivial⟩

theorem Looking.called (h : Looking rows hal b) : Looking rows hal b.called :=
  ⟨h.rows_eq, h.latched_eq, h.hal_eq, h.idle, h.guarded⟩

theorem Looking.noted (h : Looking rows hal b) (row : ℕ) (value : Row) :
    Looking rows hal (b.noted (.readRaw row value)) :=
  ⟨h.rows_eq, h.latched_eq, h.hal_eq, fun row' value' hmem ↦ by
    rcases mem_cons.mp hmem with heq | hmem
    · cases heq
    · exact h.idle _ _ hmem, h.guarded⟩

theorem Touched.of_looking (h : Looking rows hal b) (hchosen : Chosen P rows hal page) :
    Touched P rows hal page b := by
  have hforeign := hchosen.unforeign page hchosen.mem
  rw [Foreign, not_or, not_or, not_not, not_and_not_right] at hforeign
  refine ⟨h.latched_eq, h.hal_eq, fun row _ ↦ congrFun h.rows_eq row,
    fun row value hmem ↦ absurd hmem (h.idle row value), h.guarded, ?_, ?_, ?_, ?_, fun _ ↦ h⟩
  all_goals rw [h.rows_eq]
  · exact not_not.mp hforeign.2.1
  · exact hforeign.2.2
  · intro hbegun
    exact hchosen.choice.resolve_left fun hfree ↦ hfree.2 hbegun
  · exact fun _ ↦ id

theorem Touched.called (h : Touched P rows hal page b) : Touched P rows hal page b.called :=
  ⟨h.latched_eq, h.hal_eq, h.rows_eq, h.burns, h.guarded, h.lock_within, h.closed, h.sealed, h.kept,
    fun heff ↦ (h.released heff).called⟩

theorem Touched.noted (h : Touched P rows hal page b) (row : ℕ) (value : Row) :
    Touched P rows hal page (b.noted (.readRaw row value)) :=
  ⟨h.latched_eq, h.hal_eq, h.rows_eq, fun row' value' hmem ↦ by
    rcases mem_cons.mp hmem with heq | hmem
    · cases heq
    · exact h.burns _ _ hmem, h.guarded, h.lock_within, h.closed, h.sealed, h.kept,
    fun heff ↦ (h.released heff).noted row value⟩

end Looking

/-! ### The calls of the Boot ROM -/

section Calls

variable {A : Outcome → Prop} {E : Exit OtpRootState → OtpBoard → Prop} {b : OtpBoard}

theorem wp_readRaw {row : ℕ} {Q : Row → OtpBoard → Prop}
    (hfails : b.hal.rawFails b.calls row = true → E (.code .io) b)
    (hok : Q (b.rows row) (b.noted (.readRaw row (b.rows row)))) : wp A (readRaw row) Q E b :=
  wp_get (wp_ite (fun h ↦ wp_fail (hfails h)) fun _ ↦ wp_bind (wp_modifyState (wp_pure hok)))

theorem wp_readRecord {Q : Option Bytes → OtpBoard → Prop}
    (hfails : b.hal.eccFails b.calls (dataRow page) = true → Q none b.called)
    (hok : Q (pageRecord P b.rows page) b.called) : wp A (readRecord P page) Q E b := by
  refine wp_get (wp_bind (wp_modifyState (wp_pure ?_)))
  split
  · exact hfails ‹_›
  · exact hok

/-- A row is programmed, or left in some state between. -/
theorem wp_burnRow {spoils : Row → Bool} {row : ℕ} {value : Row} {Q : Unit → OtpBoard → Prop}
    (hrefused : b.latched (pageFor row) = true ∨ ¬Within (b.rows row) value →
      E (.code .io) (b.noted (.burn row value)))
    (hstopped : ∀ e burn, e ≠ .code .ready → burn ≠ .done → b.hal.burn b.calls row = burn →
      E e ((b.noted (.burn row value)).setRow row (burn.result spoils (b.rows row) value)))
    (hdone : Within (b.rows row) value → Q () ((b.noted (.burn row value)).setRow row value)) :
    wp A (burnRow spoils row value) Q E b := by
  refine wp_get (wp_bind (wp_modifyState (wp_ite (fun h ↦ wp_fail (hrefused h))
    fun h ↦ wp_bind (wp_modifyState ?_))))
  rw [not_or, not_not] at h
  rcases hburn : b.hal.burn b.calls row with - | ⟨lost, mask⟩ | ⟨lost, bits⟩
  · have hvalue : (Burn.done : Burn 24).result spoils (b.rows row) value = value := h.2
    rw [hvalue]
    exact wp_pure (hdone h.2)
  all_goals
    exact wp_ite (fun _ ↦ wp_powerLost (hstopped _ _ nofun nofun hburn))
      fun _ ↦ wp_fail (hstopped _ _ nofun nofun hburn)

end Calls

/-! ### The inspection -/

/-- What is known of the pages that have been inspected. -/
structure Seen (P : RootParams) (rows : Rows) (hal : RootHal) (pages : List ℕ)
    (found : Inspection) : Prop where
  active : ∀ p record, found.active = some (p, record) → p ∈ pages ∧ Holds P rows p record
  available : ∀ p, found.available = some p → p ∈ pages ∧ Blank rows p ∧ ¬ReadOnlyBegun rows p
  taken : found.available = none → ∀ p ∈ pages, Blank rows p → ReadOnlyBegun rows p
  unforeign : ∀ p ∈ pages, ¬Foreign rows p
  sealed : ∀ p ∈ pages, ¬Blank rows p → ReadOnlyBegun rows p →
    ∃ record, found.active = some (p, record)
  shown : ∀ p ∈ pages, ∀ record, Holds P rows p record →
    found.active = some (p, record) ∨ Unreadable rows hal p

/-- The inspection gives up: some read reports an error, or the pages are not sound. -/
def Refused (P : RootParams) (rows : Rows) (hal : RootHal) (e : Exit OtpRootState)
    (b : OtpBoard) : Prop :=
  Looking rows hal b ∧ (e ≠ .code .ready ∧ e ≠ .cut) ∧ (hal.ReadsSucceed → ¬Sound P rows)

namespace Seen

variable {hal : RootHal} {pages : List ℕ} {found : Inspection} {record : Bytes}

theorem nil : Seen P rows hal [] {} :=
  ⟨nofun, nofun, nofun, nofun, nofun, nofun⟩

section

variable (h : Seen P rows hal pages found)
include h

theorem of_mem {pages' : List ℕ} (hsub : ∀ p ∈ pages, p ∈ pages')
    (hsub' : ∀ p ∈ pages', p ∈ pages) : Seen P rows hal pages' found :=
  ⟨fun p record heq ↦ ⟨hsub p (h.active p record heq).1, (h.active p record heq).2⟩,
    fun p heq ↦ ⟨hsub p (h.available p heq).1, (h.available p heq).2⟩,
    fun heq p hp ↦ h.taken heq p (hsub' p hp), fun p hp ↦ h.unforeign p (hsub' p hp),
    fun p hp ↦ h.sealed p (hsub' p hp), fun p hp ↦ h.shown p (hsub' p hp)⟩

/-- A page without data is free if its lock is open. -/
theorem blank (hblank : Blank rows page) (hforeign : ¬Foreign rows page) :
    Seen P rows hal (page :: pages) { found with
      available := if pageLock rows page &&& readOnlyBits = 0 ∧ found.available = none then some page
        else found.available
      occupied := found.occupied || pageLock rows page ≠ 0 } where
  active p record heq := ⟨mem_cons_of_mem _ (h.active p record heq).1, (h.active p record heq).2⟩
  available p heq := by
    split_ifs at heq with hfree
    · obtain rfl := Option.some.inj heq
      exact ⟨mem_cons_self .., hblank, not_not.mpr hfree.1⟩
    · exact ⟨mem_cons_of_mem _ (h.available p heq).1, (h.available p heq).2⟩
  taken heq := by
    split_ifs at heq with hfree
    rintro p hp hp'
    rcases mem_cons.mp hp with rfl | hp
    · exact fun hopen ↦ hfree ⟨hopen, heq⟩
    · exact h.taken heq p hp hp'
  unforeign := forall_mem_cons.mpr ⟨hforeign, h.unforeign⟩
  sealed := forall_mem_cons.mpr ⟨fun hdata ↦ absurd hblank hdata, h.sealed⟩
  shown := forall_mem_cons.mpr ⟨fun _ hholds ↦ absurd hblank hholds.not_blank, h.shown⟩

/-- A page with a record is the one of the root. -/
theorem root (hnone : found.active = none)
    (hholds : Holds P rows page record) (hforeign : ¬Foreign rows page) :
    Seen P rows hal (page :: pages)
      { found with active := some (page, record), occupied := true } where
  active p record' heq := by
    cases heq
    exact ⟨mem_cons_self .., hholds⟩
  available p heq := ⟨mem_cons_of_mem _ (h.available p heq).1, (h.available p heq).2⟩
  taken heq := forall_mem_cons.mpr ⟨fun hblank ↦ absurd hblank hholds.not_blank, h.taken heq⟩
  unforeign := forall_mem_cons.mpr ⟨hforeign, h.unforeign⟩
  sealed := forall_mem_cons.mpr ⟨fun _ _ ↦ ⟨record, rfl⟩, fun p hp hdata hbegun ↦ by
    obtain ⟨record', heq⟩ := h.sealed p hp hdata hbegun
    rw [hnone] at heq
    cases heq⟩
  shown := forall_mem_cons.mpr ⟨fun record' hholds' ↦ .inl (by
    rw [Option.some.inj (hholds'.1.symm.trans hholds.1)]), fun p hp record' hholds' ↦ by
    rcases h.shown p hp record' hholds' with heq | hunread
    · rw [hnone] at heq
      cases heq
    · exact .inr hunread⟩

/-- A page whose record is not complete, or cannot be read, and that is not read-only. -/
theorem incomplete (hdata : ¬Blank rows page)
    (hopen : ¬ReadOnlyBegun rows page) (hforeign : ¬Foreign rows page)
    (hshown : ∀ record, Holds P rows page record → Unreadable rows hal page) :
    Seen P rows hal (page :: pages) { found with occupied := true, incomplete := true } where
  active p record heq := ⟨mem_cons_of_mem _ (h.active p record heq).1, (h.active p record heq).2⟩
  available p heq := ⟨mem_cons_of_mem _ (h.available p heq).1, (h.available p heq).2⟩
  taken heq := forall_mem_cons.mpr ⟨fun hblank ↦ absurd hblank hdata, h.taken heq⟩
  unforeign := forall_mem_cons.mpr ⟨hforeign, h.unforeign⟩
  sealed := forall_mem_cons.mpr ⟨fun _ hbegun ↦ absurd hbegun hopen, h.sealed⟩
  shown := forall_mem_cons.mpr ⟨fun record hholds ↦ .inr (hshown record hholds), h.shown⟩

end

end Seen

section Inspect

variable {A : Outcome → Prop} {hal : RootHal} {b : OtpBoard} {pages : List ℕ} {found : Inspection}

theorem wp_readAll (hb : Looking rows hal b) (numbers : List ℕ) :
    wp A (readAll numbers)
      (fun value b' ↦ Looking rows hal b' ∧ (value = 0 ↔ ∀ row ∈ numbers, rows row = 0))
      (Refused P rows hal) b := by
  induction numbers generalizing b with
  | nil => exact wp_pure ⟨hb, by simp⟩
  | cons row numbers ih =>
    refine wp_bind (wp_readRaw (fun hfails ↦ ?_) (wp_then (ih (hb.noted _ _))
      fun rest b' h ↦ wp_pure ⟨h.1, ?_⟩))
    · refine ⟨hb, ⟨nofun, nofun⟩, fun hreads ↦ ?_⟩
      rw [hb.hal_eq, (hreads _ _).1] at hfails
      cases hfails
    · show b.rows row ||| rest = 0#24 ↔ _
      rw [BitVec.or_eq_zero_iff, forall_mem_cons, hb.rows_eq]
      exact and_congr_right' h.2

theorem blank_iff_rows :
    (∀ row ∈ (List.range 64).map (dataRow page + ·), rows row = 0) ↔ Blank rows page := by
  simp only [forall_mem_map, mem_range, Blank]

/-- **A page that is looked at** is one of the cases of `Seen`. -/
theorem wp_inspectPage (hb : Looking rows hal b) (hseen : Seen P rows hal pages found)
    (hpage : page ∈ otpRootPages) (hnew : page ∉ pages) (hpages : ∀ p ∈ pages, p ∈ otpRootPages) :
    wp A (inspectPage P page found)
      (fun found' b' ↦ Looking rows hal b' ∧ Seen P rows hal (page :: pages) found')
      (Refused P rows hal) b := by
  have hio : ∀ {b' : OtpBoard} {row : ℕ}, Looking rows hal b' →
      b'.hal.rawFails b'.calls row = true → Refused P rows hal (.code .io) b' :=
    fun hb' hfails ↦ ⟨hb', ⟨nofun, nofun⟩, fun hreads ↦ by
      rw [hb'.hal_eq, (hreads _ _).1] at hfails
      cases hfails⟩
  have hrefused : ∀ {b' : OtpBoard}, Looking rows hal b' → Foreign rows page →
      Refused P rows hal (.code .foreign) b' :=
    fun hb' hforeign ↦ ⟨hb', ⟨nofun, nofun⟩, fun _ hsound ↦ hsound.unforeign page hpage hforeign⟩
  refine wp_bind (wp_readRaw (hio hb) (wp_bind (wp_readRaw (hio (hb.noted _ _)) (wp_ite
    (fun h ↦ ?_) fun h ↦ wp_then (wp_readAll ((hb.noted _ _).noted _ _) _) fun rawOr b' h' ↦ ?_))))
  · refine wp_fail (hrefused ((hb.noted _ _).noted _ _) ?_)
    rw [show (b.noted _).rows = b.rows from rfl, hb.rows_eq, Ne, Ne, ← Within.iff_and_not] at h
    exact h.imp id .inl
  rw [show (b.noted _).rows = b.rows from rfl, hb.rows_eq, not_or, not_not, not_not,
    ← Within.iff_and_not] at h
  obtain ⟨hkey, hwithin⟩ := h
  obtain ⟨hb', hzero⟩ := h'
  rw [blank_iff_rows] at hzero
  rw [hb.rows_eq]
  refine wp_ite (fun hblank ↦ wp_pure ⟨hb', hseen.blank (hzero.mp hblank) ?_⟩) fun hdata ↦ ?_
  · rintro (h | h | h)
    · exact h hkey
    · exact h hwithin
    · exact h.1 (hzero.mp hblank)
  rw [hzero] at hdata
  refine wp_ite (fun hopen ↦ ?_) fun hclosed ↦ ?_
  · rw [Ne, ← Within.iff_and_eq] at hopen
    exact wp_fail (hrefused hb' (.inr (.inr ⟨hdata, hopen⟩)))
  rw [Ne, not_not, ← Within.iff_and_eq] at hclosed
  have hforeign : ¬Foreign rows page := by
    rintro (h | h | h)
    · exact h hkey
    · exact h hwithin
    · exact h.2 hclosed
  -- Whether the record was read or not, what follows is the same.
  have hrest : ∀ record : Option Bytes, (record = pageRecord P rows page ∨
      record = none ∧ ∃ n, hal.eccFails n (dataRow page) = true) →
      wp A (inspectRecord P page found (rows (lockRow page)) record)
        (fun found' b' ↦ Looking rows hal b' ∧ Seen P rows hal (page :: pages) found')
        (Refused P rows hal) b'.called := by
    intro record hrecord
    rw [inspectRecord]
    rcases hvalid : record.filter (WellFormed P ·) with - | valid
    · have hgone : ∀ record', Holds P rows page record' →
          ∃ n, hal.eccFails n (dataRow page) = true := fun record' hholds ↦ by
        rcases hrecord with rfl | ⟨-, hfails⟩
        · rw [hholds.1, Option.filter_some, if_pos (decide_eq_true hholds.2)] at hvalid
          cases hvalid
        · exact hfails
      refine wp_ite (fun hbegun ↦ wp_fail ⟨hb'.called, ⟨nofun, nofun⟩, fun hreads hsound ↦ ?_⟩) fun hopen ↦
        wp_pure ⟨hb'.called, hseen.incomplete hdata hopen hforeign fun record' hholds ↦
          ⟨hopen, hgone record' hholds⟩⟩
      obtain ⟨record', hholds⟩ := hsound.sealed page hpage hdata hbegun
      obtain ⟨n, hfails⟩ := hgone record' hholds
      rw [(hreads _ _).2] at hfails
      cases hfails
    · obtain ⟨rfl, hwell⟩ := Option.filter_eq_some_iff.mp hvalid
      have hholds : Holds P rows page valid := by
        rcases hrecord with heq | ⟨heq, -⟩
        · exact ⟨heq.symm, of_decide_eq_true hwell⟩
        · cases heq
      refine wp_ite (fun hactive ↦ wp_fail ⟨hb'.called, ⟨nofun, nofun⟩, fun _ hsound ↦ ?_⟩) fun hnone ↦
        wp_pure ⟨hb'.called, hseen.root (by simpa using hnone) hholds hforeign⟩
      obtain ⟨⟨q, record'⟩, hq⟩ := Option.isSome_iff_exists.mp hactive
      obtain ⟨hmem, hholds'⟩ := hseen.active q record' hq
      exact hnew (hsound.single page hpage q (hpages q hmem) _ _ hholds hholds' ▸ hmem)
  exact wp_bind (wp_readRecord (fun hfails ↦ hrest _ (.inr ⟨rfl, _, hb'.hal_eq ▸ hfails⟩))
    (hb'.rows_eq ▸ hrest _ (.inl rfl)))

theorem wp_inspectPages (hb : Looking rows hal b) (hseen : Seen P rows hal pages found)
    {rest : List ℕ} (hnodup : (rest.reverse ++ pages).Nodup)
    (hpages : ∀ p ∈ rest.reverse ++ pages, p ∈ otpRootPages) :
    wp A (inspectPages P rest found)
      (fun found' b' ↦ Looking rows hal b' ∧ Seen P rows hal (rest.reverse ++ pages) found')
      (Refused P rows hal) b := by
  induction rest generalizing pages found b with
  | nil => exact wp_pure ⟨hb, hseen⟩
  | cons page rest ih =>
    rw [reverse_cons, append_assoc, singleton_append] at hnodup hpages ⊢
    have hmem : ∀ p ∈ page :: pages, p ∈ otpRootPages := fun p hp ↦
      hpages p (mem_append_right _ hp)
    have hnew := (nodup_cons.mp (List.Nodup.of_append_right hnodup)).1
    exact wp_then (wp_inspectPage hb hseen (hmem page (mem_cons_self ..)) hnew
      fun p hp ↦ hmem p (mem_cons_of_mem _ hp)) fun found' b' h ↦ ih h.1 h.2 hnodup hpages

/-- **The inspection of all pages.** -/
theorem wp_inspect (hb : Looking rows hal b) :
    wp A (inspectPages P otpRootPages {})
      (fun found b' ↦ Looking rows hal b' ∧ Seen P rows hal otpRootPages found)
      (Refused P rows hal) b :=
  wp_mono (wp_inspectPages hb Seen.nil (show (otpRootPages.reverse ++ []).Nodup by decide)
    (by decide)) (fun _ _ h ↦ ⟨h.1, h.2.of_mem (by decide) (by decide)⟩) fun _ _ h ↦ h

end Inspect

/-! ### Programming the chosen page -/

section Program

variable {A : Outcome → Prop} {hal : RootHal} {b : OtpBoard} {target value : Row}

/-- The lock of the chosen page grows. -/
theorem Touched.setLock (ht : Touched P rows hal page b) (hpage : page ∈ otpRootPages)
    (hnot : ¬Effective (pageLock rows page)) (hgrow : Within (pageLock b.rows page) value)
    (hwithin : Within value otpRootReadOnly)
    (hsealed : value &&& readOnlyBits ≠ 0 → ∃ record, Holds P b.rows page record) :
    Touched P rows hal page
      ((b.noted (.burn (lockRow page) target)).setRow (lockRow page) value) := by
  have hdata : ∀ i < 64, Function.update b.rows (lockRow page) value (dataRow page + i) =
      b.rows (dataRow page + i) := fun i hi ↦
    update_of_ne (dataRow_ne_lockRow hpage hi page) ..
  have hlock : pageLock (Function.update b.rows (lockRow page) value) page = value :=
    update_self ..
  exact
    { latched_eq := ht.latched_eq
      hal_eq := ht.hal_eq
      rows_eq := fun row hrow ↦
        (update_of_ne (fun heq ↦ hrow (.inl heq)) ..).trans (ht.rows_eq row hrow)
      burns := fun row value' hmem ↦ by
        rcases mem_cons.mp hmem with heq | hmem
        · exact .inl (HalCall.burn.inj heq).1
        · exact ht.burns row value' hmem
      guarded := ⟨fun hlt ↦ by rw [lockRow] at hlt; omega, ht.guarded⟩
      lock_within := hlock.symm ▸ hwithin
      closed := fun hblank ↦ hlock.symm ▸ (ht.closed fun h ↦ hblank (h.congr hdata)).trans hgrow
      sealed := fun hbegun ↦ by
        have hbegun : pageLock (Function.update b.rows (lockRow page) value) page &&&
            readOnlyBits ≠ 0 := hbegun
        rw [hlock] at hbegun
        obtain ⟨record, hholds⟩ := hsealed hbegun
        exact ⟨record, hholds.congr hdata⟩
      kept := fun record hholds ↦ (ht.kept record hholds).congr hdata
      released := fun heff ↦ absurd heff hnot }

/-- A data row of a page that was blank is programmed, behind the private lock. -/
theorem Touched.setData (ht : Touched P rows hal page b) (hpage : page ∈ otpRootPages)
    (hnot : ¬Effective (pageLock rows page)) (hblank : Blank rows page)
    (hread : .readRaw (lockRow page) otpRootPrivate ∈ b.log)
    (hprivate : pageLock b.rows page = otpRootPrivate) {i : ℕ} (hi : i < 64) :
    Touched P rows hal page
      ((b.noted (.burn (dataRow page + i) target)).setRow (dataRow page + i) value) := by
  have hlock : pageLock (Function.update b.rows (dataRow page + i) value) page = otpRootPrivate :=
    (update_of_ne (dataRow_ne_lockRow hpage hi page).symm ..).trans hprivate
  exact
    { latched_eq := ht.latched_eq
      hal_eq := ht.hal_eq
      rows_eq := fun row hrow ↦ (update_of_ne (fun heq ↦ hrow (.inr (by omega))) ..).trans
        (ht.rows_eq row hrow)
      burns := fun row value' hmem ↦ by
        rcases mem_cons.mp hmem with heq | hmem
        · rw [(HalCall.burn.inj heq).1]
          exact .inr (by omega)
        · exact ht.burns row value' hmem
      guarded := ⟨fun _ ↦ (pageFor_dataRow hpage hi).symm ▸ hread, ht.guarded⟩
      lock_within := hlock.symm ▸ private_within_readOnly
      closed := fun _ ↦ hlock.symm ▸ .refl _
      sealed := fun hbegun ↦ by
        have hbegun : pageLock (Function.update b.rows (dataRow page + i) value) page &&&
            readOnlyBits ≠ 0 := hbegun
        rw [hlock] at hbegun
        exact absurd private_not_readOnly hbegun
      kept := fun record hholds ↦ absurd hblank hholds.not_blank
      released := fun heff ↦ absurd heff hnot }

/-- The boot gives up on the chosen page: it was disturbed, or the lock is not effective and some
read reports an error. -/
def GivesUp (P : RootParams) (rows : Rows) (hal : RootHal) (page : ℕ) (e : Exit OtpRootState)
    (b : OtpBoard) : Prop :=
  Touched P rows hal page b ∧ e ≠ .code .ready ∧ ¬hal.Works ∧
    (hal.ReadsSucceed → ¬Effective (pageLock rows page))

section

variable (ht : Touched P rows hal page b)
include ht

theorem GivesUp.of_read {n row : ℕ}
    (hfails : b.hal.rawFails n row = true) : GivesUp P rows hal page (.code .io) b := by
  have hno : ¬hal.ReadsSucceed := fun hreads ↦ by
    rw [ht.hal_eq, (hreads n row).1] at hfails
    cases hfails
  exact ⟨ht, nofun, fun hworks ↦ hno hworks.reads, fun hreads ↦ absurd hreads hno⟩

/-- The lock of the chosen page is brought to `target`, or is effective as it is. -/
theorem wp_lockTo (hpage : page ∈ otpRootPages) (hwithin : Within (pageLock b.rows page) target)
    (htarget : target = otpRootPrivate ∨
      target = otpRootReadOnly ∧ ∃ record, Holds P b.rows page record)
    (hlatch : ¬Effective (pageLock b.rows page) → b.latched page = false) :
    wp A (lockTo page target)
      (fun _ b' ↦ Touched P rows hal page b' ∧ (∀ row, row ≠ lockRow page → b'.rows row = b.rows row) ∧
        (pageLock b'.rows page = target ∧ .readRaw (lockRow page) target ∈ b'.log ∨
          target = otpRootReadOnly ∧ Effective (pageLock b'.rows page)))
      (GivesUp P rows hal page) b := by
  refine wp_bind (wp_readRaw (GivesUp.of_read ht) (wp_ite (fun heq ↦ wp_pure ?_) fun hne ↦
    wp_ite (fun hvoted ↦ wp_pure ?_) fun hnotvoted ↦ wp_ite (fun houtside ↦ ?_) fun _ ↦ ?_))
  · exact ⟨ht.noted _ _, fun _ _ ↦ rfl, .inl ⟨heq, heq ▸ mem_cons_self ..⟩⟩
  · rw [← Within.iff_and_not] at hvoted
    obtain ⟨rfl, hmajority, hsub⟩ := hvoted
    exact ⟨ht.noted _ _, fun _ _ ↦ rfl, .inr ⟨rfl, .inr ⟨hmajority, hsub⟩⟩⟩
  · rw [Ne, ← Within.iff_and_not] at houtside
    exact absurd hwithin houtside
  have hbelow : Within target otpRootReadOnly :=
    htarget.elim (fun h ↦ h ▸ private_within_readOnly) fun h ↦ h.1 ▸ .refl _
  have hnot : ¬Effective (pageLock b.rows page) := by
    rcases htarget with rfl | ⟨rfl, -⟩
    · exact fun heff ↦ heff.begun (not_begun_of_private hwithin)
    · rintro (heq | ⟨hmajority, hsub⟩)
      · exact hne heq
      · exact hnotvoted ⟨rfl, hmajority, Within.iff_and_not.mp hsub⟩
  have hnot' : ¬Effective (pageLock rows page) := fun heff ↦
    hnot ((ht.released heff).rows_eq.symm ▸ heff)
  have hsealed : ∀ v, Within v target → v &&& readOnlyBits ≠ 0 →
      ∃ record, Holds P b.rows page record := fun v hv hbegun ↦ by
    rcases htarget with rfl | ⟨-, hholds⟩
    · exact absurd (not_begun_of_private hv) hbegun
    · exact hholds
  have ht' := ht.noted (lockRow page) (b.rows (lockRow page))
  have hdone : Touched P rows hal page (((b.noted (.readRaw (lockRow page)
      (b.rows (lockRow page)))).noted (.burn (lockRow page) target)).setRow (lockRow page) target) :=
    ht'.setLock hpage hnot' hwithin hbelow (hsealed target (.refl _))
  have hlock : Function.update b.rows (lockRow page) target (lockRow page) = target :=
    update_self ..
  refine wp_bind (wp_burnRow (fun hrefused ↦ ?_) (fun e burn hready hburn heq ↦ ?_) fun hsub ↦
    wp_bind (wp_readRaw (GivesUp.of_read hdone) (wp_ite (fun heq ↦ wp_pure ?_) fun hne ↦ ?_)))
  · rw [pageFor_lockRow] at hrefused
    rcases hrefused with hlatched | hsub
    · rw [show (b.noted _).latched = b.latched from rfl, hlatch hnot] at hlatched
      cases hlatched
    · exact absurd hwithin hsub
  · -- Whatever bits of the target are there, the lock is on its way.
    have hleft : Within (burn.result (fun _ ↦ false) (pageLock b.rows page) target) target :=
      (Burn.result_within rfl).trans (hwithin.or (.refl target))
    refine ⟨ht'.setLock hpage hnot' burn.within_result (hleft.trans hbelow) (hsealed _ hleft), hready,
      fun hworks ↦ hburn ?_, fun _ ↦ hnot'⟩
    rw [← heq, ht'.hal_eq, hworks.burns]
  · exact ⟨hdone.noted _ _, fun row hrow ↦ update_of_ne hrow .., .inl ⟨hlock,
      mem_cons.mpr (.inl (by rw [heq]))⟩⟩
  · exact absurd hlock hne

/-- The rows of a record are programmed one after the other. -/
theorem wp_writeEcc (hpage : page ∈ otpRootPages)
    (hblank : Blank rows page) (hnot : ¬Effective (pageLock rows page))
    (hread : .readRaw (lockRow page) otpRootPrivate ∈ b.log)
    (hprivate : pageLock b.rows page = otpRootPrivate) (hlatched : b.latched page = false)
    (words : List (BitVec 16)) {i : ℕ} (hlen : i + words.length ≤ 64)
    (hzero : ∀ j, i ≤ j → j < 64 → b.rows (dataRow page + j) = 0) :
    wp A (writeEcc P (dataRow page + i) words)
      (fun _ b' ↦ Touched P rows hal page b' ∧ pageLock b'.rows page = otpRootPrivate ∧
        (∀ j < i, b'.rows (dataRow page + j) = b.rows (dataRow page + j)) ∧
        decodeWords P.ecc b'.rows (dataRow page + i) words.length = some words)
      (GivesUp P rows hal page) b := by
  induction words generalizing b i with
  | nil => exact wp_pure ⟨ht, hprivate, fun _ _ ↦ rfl, rfl⟩
  | cons word words ih =>
    rw [length_cons] at hlen
    have hi : i < 64 := by omega
    have hstep : ∀ value target, Touched P rows hal page
        ((b.noted (.burn (dataRow page + i) target)).setRow (dataRow page + i) value) :=
      fun value target ↦ ht.setData hpage hnot hblank hread hprivate hi
    have hold : b.rows (dataRow page + i) = 0 := hzero i le_rfl hi
    refine wp_bind (wp_burnRow (fun hrefused ↦ ?_) (fun e burn hready hburn heq ↦ ?_) fun _ ↦
      wp_mono (ih (i := i + 1) (hstep (P.ecc.encode word) (P.ecc.encode word)) ?_ ?_ hlatched
        (by omega) fun j hj hlt ↦ ?_) (fun _ b' h ↦ ?_) fun _ _ h ↦ h)
    · rw [pageFor_dataRow hpage hi, hlatched, hold] at hrefused
      exact hrefused.elim (nofun) fun h ↦ absurd (.zero _) h
    · refine ⟨hstep _ _, hready, fun hworks ↦ hburn ?_, fun _ ↦ hnot⟩
      rw [← heq, ht.hal_eq, hworks.burns]
    · exact mem_cons_of_mem _ hread
    · exact (update_of_ne (dataRow_ne_lockRow hpage hi page).symm ..).trans hprivate
    · exact (update_of_ne (by omega) ..).trans (hzero j (by omega) hlt)
    · obtain ⟨ht', hprivate', hbefore, hwords⟩ := h
      refine ⟨ht', hprivate', fun j hj ↦ (hbefore j (by omega)).trans
        (update_of_ne (by omega) ..), ?_⟩
      have hword : b'.rows (dataRow page + i) = P.ecc.encode word :=
        (hbefore i (by omega)).trans (update_self ..)
      rw [length_cons, decodeWords, hword, P.ecc.decode_encode]
      exact congrArg (·.bind fun words ↦ some (word :: words)) hwords

end

end Program

/-! ### The whole boot -/

/-- A page that is of no use: it has been begun, and holds no root. -/
def Spent (P : RootParams) (rows : Rows) (page : ℕ) : Prop :=
  (∀ record, ¬Holds P rows page record) ∧ (Blank rows page → ReadOnlyBegun rows page)

/-- The root is given out. -/
structure Opened (P : RootParams) (rows : Rows) (boot : RootBoot) (page : ℕ) (keys : Bytes)
    (b : OtpBoard) : Prop where
  protected_eq : boot.protectedBoot = true
  chosen : Chosen P rows boot.hal page
  touched : Touched P rows boot.hal page b
  record : ∃ record, Holds P b.rows page record ∧ keys = (record.drop 4).take 64
  effective : Effective (pageLock b.rows page)

/-- The root is not given out. -/
structure Failed (P : RootParams) (rows : Rows) (boot : RootBoot) (e : Exit OtpRootState)
    (b : OtpBoard) : Prop where
  not_ready : e ≠ .code .ready
  effect : Looking rows boot.hal b ∧ e ≠ .cut ∨ boot.protectedBoot = true ∧
    ∃ page, Chosen P rows boot.hal page ∧ Touched P rows boot.hal page b
  released : boot.protectedBoot = true → boot.hal.ReadsSucceed → Sound P rows →
    ∀ p ∈ otpRootPages, ∀ record, Holds P rows p record → ¬Effective (pageLock rows p)
  spent : boot.protectedBoot = true → boot.blank = true → boot.hal.Works → Sound P rows →
    ∀ p ∈ otpRootPages, Spent P rows p

section Open

variable {A : Outcome → Prop} {boot : RootBoot} {b : OtpBoard} {found : Inspection}
  {e : Exit OtpRootState} {record : Bytes}

theorem Failed.of_refused (h : Refused P rows boot.hal e b) : Failed P rows boot e b :=
  ⟨h.2.1.1, .inl ⟨h.1, h.2.1.2⟩, fun _ hreads hsound ↦ absurd hsound (h.2.2 hreads),
    fun _ _ hworks hsound ↦ absurd hsound (h.2.2 hworks.reads)⟩

/-- A record behind an effective lock is the one that was found. -/
theorem Seen.active_of_effective (h : Seen P rows boot.hal otpRootPages found)
    (hpage : page ∈ otpRootPages) (hholds : Holds P rows page record)
    (heff : Effective (pageLock rows page)) : ∃ record', found.active = some (page, record') :=
  h.sealed page hpage hholds.not_blank heff.begun

theorem Failed.of_givesUp (hprotected : boot.protectedBoot = true)
    (hseen : Seen P rows boot.hal otpRootPages found) (hchosen : Chosen P rows boot.hal page)
    (hactive : ∀ p record, found.active = some (p, record) → p = page)
    (h : GivesUp P rows boot.hal page e b) : Failed P rows boot e b where
  not_ready := h.2.1
  effect := .inr ⟨hprotected, page, hchosen, h.1⟩
  released _ hreads _ p hp record hholds heff := by
    obtain ⟨record', hfound⟩ := hseen.active_of_effective hp hholds heff
    obtain rfl := hactive p record' hfound
    exact h.2.2.2 hreads heff
  spent _ _ hworks _ := absurd hworks h.2.2.1

/-- The page of the root is chosen. -/
theorem Seen.chosen_active (h : Seen P rows boot.hal otpRootPages found)
    (hactive : found.active = some (page, record)) : Chosen P rows boot.hal page where
  mem := (h.active page record hactive).1
  unforeign := h.unforeign
  open_others p hp hne hdata hbegun := by
    obtain ⟨record', hfound⟩ := h.sealed p hp hdata hbegun
    rw [hactive] at hfound
    cases hfound
    exact hne rfl
  hidden_others p hp hne record' hholds := by
    rcases h.shown p hp record' hholds with hfound | hhidden
    · rw [hactive] at hfound
      cases hfound
      exact absurd rfl hne
    · exact hhidden
  choice := .inr ⟨record, (h.active page record hactive).2⟩

/-- Where there is no root, a free page is chosen. -/
theorem Seen.chosen_available (h : Seen P rows boot.hal otpRootPages found)
    (hnone : found.active = none) (havailable : found.available = some page) :
    Chosen P rows boot.hal page where
  mem := (h.available page havailable).1
  unforeign := h.unforeign
  open_others p hp _ hdata hbegun := by
    obtain ⟨record', hfound⟩ := h.sealed p hp hdata hbegun
    rw [hnone] at hfound
    cases hfound
  hidden_others p hp _ record' hholds := by
    rcases h.shown p hp record' hholds with hfound | hhidden
    · rw [hnone] at hfound
      cases hfound
    · exact hhidden
  choice := .inl (h.available page havailable).2

/-- Until its lock is effective, the chosen page can be programmed. -/
theorem Looking.latched_eq_false (hb : Looking rows boot.hal b)
    (hchosen : Chosen P rows boot.hal page) (hnot : ¬Effective (pageLock rows page)) :
    b.latched page = false := by
  have ht := Touched.of_looking hb hchosen
  have hwithin := ht.lock_within
  have hclosed := ht.closed
  rw [hb.rows_eq] at hwithin hclosed
  rw [hb.latched_eq]
  refine decide_eq_false (not_not.mpr (voted_of_not_effective hwithin (fun hbegun ↦ ?_) hnot))
  rcases hchosen.choice with ⟨-, hopen⟩ | ⟨record, hholds⟩
  · exact absurd hbegun hopen
  · exact hclosed hholds.not_blank

/-- A new root is made in a free page. -/
theorem wp_createRoot (hb : Looking rows boot.hal b) (hprotected : boot.protectedBoot = true)
    (hseen : Seen P rows boot.hal otpRootPages found) (hnone : found.active = none) :
    wp A (createRoot P found boot.blank)
      (fun root b' ↦ Chosen P rows boot.hal root.1 ∧ Touched P rows boot.hal root.1 b' ∧
        Holds P b'.rows root.1 root.2 ∧ b'.latched root.1 = false)
      (Failed P rows boot) b := by
  have hreleased : ∀ p ∈ otpRootPages, ∀ record, Holds P rows p record →
      ¬Effective (pageLock rows p) := fun p hp record hholds heff ↦ by
    obtain ⟨record', hfound⟩ := hseen.active_of_effective hp hholds heff
    rw [hnone] at hfound
    cases hfound
  refine wp_ite (fun hblank ↦ wp_fail ⟨?_, .inl ⟨hb, nofun⟩, fun _ _ _ ↦ hreleased,
    fun _ hyes ↦ ?_⟩)
    fun _ ↦ ?_
  · split <;> nofun
  · rw [hyes] at hblank
    cases hblank
  rcases havailable : found.available with - | page
  · refine wp_fail ⟨nofun, .inl ⟨hb, nofun⟩, fun _ _ _ ↦ hreleased, fun _ _ hworks _ p hp ↦
      ⟨fun record hholds ↦ ?_, hseen.taken havailable p hp⟩⟩
    rcases hseen.shown p hp record hholds with hfound | ⟨-, n, hfails⟩
    · rw [hnone] at hfound
      cases hfound
    · rw [(hworks.reads _ _).2] at hfails
      cases hfails
  have hchosen := hseen.chosen_available hnone havailable
  obtain ⟨hmem, hblank, hopen⟩ := hseen.available page havailable
  have hnot : ¬Effective (pageLock rows page) := fun heff ↦ hopen heff.begun
  have hlatched := hb.latched_eq_false hchosen hnot
  have ht := Touched.of_looking hb hchosen
  have hgives : ∀ e b', GivesUp P rows boot.hal page e b' → Failed P rows boot e b' :=
    fun e b' ↦ Failed.of_givesUp hprotected hseen hchosen fun p record hfound ↦ by
      rw [hnone] at hfound
      cases hfound
  refine wp_seq (wp_lockTo ht hmem ?_ (.inl rfl) fun _ ↦ hlatched) (fun _ b' h ↦ ?_) hgives
  · exact within_private ht.lock_within (by
      rw [hb.rows_eq]
      exact not_not.mp hopen)
  obtain ⟨ht', hrows, ⟨hprivate, hread⟩ | ⟨habsurd, -⟩⟩ := h
  swap
  · cases habsurd
  refine wp_get ?_
  rcases hrandom : b'.hal.random with - | secret
  · exact wp_fail (hgives _ _ ⟨ht', nofun, fun hworks ↦ hworks.random (ht'.hal_eq ▸ hrandom),
      fun _ ↦ hnot⟩)
  have hzero : ∀ j, 0 ≤ j → j < 64 → b'.rows (dataRow page + j) = 0 := fun j _ hj ↦ by
    rw [hrows _ (dataRow_ne_lockRow hmem hj page), hb.rows_eq, hblank j hj]
  have hselected := wellFormed_selected (P := P) secret.2
  have hlen : (magic ++ secret.1 ++ P.hash (magic ++ secret.1)).length = 100 := by
    rw [length_append, length_append, P.length_hash, secret.2]
    rfl
  have hlatched' : b'.latched page = false := by rw [ht'.latched_eq, ← hb.latched_eq, hlatched]
  have hwords : (packBytes (magic ++ secret.1 ++ P.hash (magic ++ secret.1))).length = 50 := by
    rw [length_packBytes, hlen]
  refine wp_seq (wp_writeEcc ht' hmem hblank hnot hread hprivate hlatched' _ (i := 0)
    (by rw [hwords]; omega) hzero) (fun _ b'' h ↦ ?_) hgives
  obtain ⟨ht'', -, -, hdecode⟩ := h
  have hrecord : pageRecord P b''.rows page =
      some (magic ++ secret.1 ++ P.hash (magic ++ secret.1)) := by
    rw [hwords] at hdecode
    exact (congrArg (Option.map unpackWords) hdecode).trans
      (congrArg some (unpackWords_packBytes (by rw [hlen])))
  have hholds : Holds P b''.called.rows page (magic ++ secret.1 ++ P.hash (magic ++ secret.1)) :=
    ⟨hrecord, hselected⟩
  have hlatched'' : b''.called.latched page = false := by
    rw [ht''.called.latched_eq, ← hb.latched_eq, hlatched]
  refine wp_bind (wp_readRecord (fun hfails ↦ wp_fail (hgives _ _ ⟨ht''.called, nofun,
    fun hworks ↦ ?_, fun _ ↦ hnot⟩)) (wp_ite (fun hne ↦ absurd hrecord hne) fun _ ↦
      wp_pure ⟨hchosen, ht''.called, hholds, hlatched''⟩))
  rw [ht''.hal_eq, (hworks.reads _ _).2] at hfails
  cases hfails

/-- **Everything one boot can do.** -/
theorem wp_otpRootOpen :
    wp A (otpRootOpen P boot.protectedBoot boot.blank)
      (fun root b' ↦ Opened P rows boot root.1 root.2 b') (Failed P rows boot)
      (.reset rows boot.hal) := by
  refine wp_seq (wp_inspect (.reset rows boot.hal)) (fun found b h ↦ ?_)
    fun e b' ↦ Failed.of_refused
  obtain ⟨hb, hseen⟩ := h
  refine wp_ite (fun hno ↦ wp_fail ?_) fun hprotected ↦ ?_
  · have hno : boot.protectedBoot ≠ true := by simpa using hno
    exact ⟨by split <;> nofun, .inl ⟨hb, nofun⟩, fun h ↦ absurd h hno, fun h ↦ absurd h hno⟩
  have hprotected : boot.protectedBoot = true := by simpa using hprotected
  -- What remains is the lock of the page that holds the record.
  have hlock : ∀ (root : ℕ × Bytes) (b' : OtpBoard), Chosen P rows boot.hal root.1 →
      Touched P rows boot.hal root.1 b' → Holds P b'.rows root.1 root.2 →
      (¬Effective (pageLock b'.rows root.1) → b'.latched root.1 = false) →
      (∀ p record, found.active = some (p, record) → p = root.1) →
      wp A (do lockTo root.1 otpRootReadOnly; return (root.1, (root.2.drop 4).take 64))
        (fun root b'' ↦ Opened P rows boot root.1 root.2 b'') (Failed P rows boot) b' := by
    intro root b' hchosen ht hholds hlatch hactive
    refine wp_seq (wp_lockTo ht hchosen.mem ht.lock_within (.inr ⟨rfl, _, hholds⟩) hlatch)
      (fun _ b'' h ↦ wp_pure ?_) fun e b'' ↦ .of_givesUp hprotected hseen hchosen hactive
    refine ⟨hprotected, hchosen, h.1, ⟨_, hholds.congr fun i hi ↦
      h.2.1 _ (dataRow_ne_lockRow hchosen.mem hi root.1), rfl⟩, ?_⟩
    exact h.2.2.elim (fun h ↦ .inl h.1) And.right
  rcases hactive : found.active with - | root
  · exact wp_then (wp_createRoot hb hprotected hseen hactive) fun root b' h ↦
      hlock root b' h.1 h.2.1 h.2.2.1 (fun _ ↦ h.2.2.2) fun p record hfound ↦ by
        rw [hactive] at hfound
        cases hfound
  · have hchosen := hseen.chosen_active hactive
    refine wp_bind (wp_pure (hlock root b hchosen (.of_looking hb hchosen) ?_ (fun hnot ↦
      hb.latched_eq_false hchosen (hb.rows_eq ▸ hnot)) fun p record hfound ↦ ?_))
    · rw [hb.rows_eq]
      exact (hseen.active _ _ hactive).2
    · rw [hactive] at hfound
      cases hfound
      rfl

end Open

end PicoAll.Otp
