import PicoAll.Fido.Audit

/-!
# The log behind the audit journal

What the journal is for: a log of entries, of which the newest ones are retained and the others are
known by the hash chain over them. A record *is* a log (`AuditRecordIs`) if its header has the bounds
of the window and the chain up to it, and its slots have the entries retained. What the journal does
to its record, it does to the log: appending, with an eviction when the ring is full
(`AuditRecordIs.appendOne`), counting an entry up (`AuditRecordIs.setSlot`), and folding everything
into the base (`AuditRecordIs.scrub`). The head of a record is the hash chain over the whole log.
-/

namespace PicoAll

open FaultProgram ByteBuffer List

/-- The log: all the entries there have been, and the first one retained. -/
structure AuditLog where
  /-- The entries, with the counts they have last. -/
  entries : List Bytes
  /-- The first entry retained. -/
  start : ℕ

/-! ### Parts of a record -/

section Parts

variable {record entry : Bytes} {n m : ℕ}

theorem auditSlotOffset_bounds (n : ℕ) :
    auditHeader ≤ auditSlotOffset n ∧ auditSlotOffset n + auditEntryLen ≤ auditRecordSize := by
  simp only [auditSlotOffset, auditHeader, auditSlots, auditEntryLen, auditRecordSize]
  omega

/-- Two slots are the same or apart. -/
theorem auditSlotOffset_disjoint (h : n % auditSlots ≠ m % auditSlots) :
    auditSlotOffset m + auditEntryLen ≤ auditSlotOffset n ∨
      auditSlotOffset n + auditEntryLen ≤ auditSlotOffset m := by
  simp only [auditSlotOffset, auditHeader, auditEntryLen]
  omega

/-- The sequence numbers of a window have different slots. -/
theorem slot_ne_of_window {start next : ℕ} (hwindow : next - start ≤ auditSlots)
    (hn : start ≤ n ∧ n < next) (hm : start ≤ m ∧ m < next) (hne : n ≠ m) :
    n % auditSlots ≠ m % auditSlots := by
  simp only [auditSlots] at hwindow ⊢
  omega

variable (hlen : record.length = auditRecordSize)

include hlen

theorem auditSetSlot_fits (hentry : entry.length = auditEntryLen) (n : ℕ) :
    auditSlotOffset n + entry.length ≤ record.length := by
  have hbounds := auditSlotOffset_bounds n
  omega

theorem length_auditSetSlot (hentry : entry.length = auditEntryLen) (n : ℕ) :
    (auditSetSlot record n entry).length = auditRecordSize := by
  rw [auditSetSlot, length_patch (auditSetSlot_fits hlen hentry n), hlen]

variable {off : ℕ}

/-- Writing a slot leaves the header alone. -/
theorem slice_auditSetSlot (hentry : entry.length = auditEntryLen) (n : ℕ) {len : ℕ}
    (h : off + len ≤ auditHeader) :
    slice (auditSetSlot record n entry) off len = slice record off len := by
  have hbounds := auditSlotOffset_bounds n
  exact slice_patch_of_disjoint (auditSetSlot_fits hlen hentry n) (by omega)

theorem auditSlot_setSlot_self (hentry : entry.length = auditEntryLen)
    (h : n % auditSlots = m % auditSlots) : auditSlot (auditSetSlot record n entry) m = entry := by
  have hoffset : auditSlotOffset m = auditSlotOffset n := by
    rw [auditSlotOffset, auditSlotOffset, h]
  rw [auditSlot, hoffset, ← hentry]
  exact slice_patch_self (auditSetSlot_fits hlen hentry n)

theorem auditSlot_setSlot_of_ne (hentry : entry.length = auditEntryLen)
    (h : n % auditSlots ≠ m % auditSlots) :
    auditSlot (auditSetSlot record n entry) m = auditSlot record m := by
  have hdisjoint := auditSlotOffset_disjoint h
  exact slice_patch_of_disjoint (auditSetSlot_fits hlen hentry n) (by omega)

/-- Writing the header leaves the slots alone. -/
theorem auditSlot_patch {bytes : Bytes} (h : off + bytes.length ≤ auditHeader) (n : ℕ) :
    auditSlot (patch record off bytes) n = auditSlot record n := by
  have hbounds := auditSlotOffset_bounds n
  exact slice_patch_of_disjoint (by omega) (by omega)

theorem length_wr32 (h : off + 4 ≤ auditHeader) (n : ℕ) :
    (wr32 record off n).length = auditRecordSize := by
  have hle : auditHeader ≤ auditRecordSize := by decide
  rw [wr32, length_patch (by rw [length_leBytes]; omega), hlen]

theorem rd32_wr32_self (h : off + 4 ≤ auditHeader) (hn : n ≤ UINT32_MAX) :
    rd32 (wr32 record off n) off = n := by
  have hle : auditHeader ≤ auditRecordSize := by decide
  have hslice := @slice_patch_self record (leBytes 4 n) off (by rw [length_leBytes]; omega)
  rw [length_leBytes] at hslice
  rw [rd32, wr32, hslice, leNat_leBytes]
  simp only [UINT32_MAX] at hn
  omega

/-- Writing a number leaves what is beside it alone. -/
theorem slice_wr32 {off' len : ℕ} (h : off + 4 ≤ auditHeader)
    (hdisjoint : off' + len ≤ off ∨ off + 4 ≤ off') (n : ℕ) :
    slice (wr32 record off n) off' len = slice record off' len := by
  have hle : auditHeader ≤ auditRecordSize := by decide
  exact slice_patch_of_disjoint (by rw [length_leBytes]; omega) (by rw [length_leBytes]; omega)

end Parts

/-! ### Records of a log -/

section Log

variable (sha256 : Bytes → Bytes) (serialHash : Bytes)

/-- The hash chain over some entries of a log, from its beginning. -/
def auditFold (entries : List Bytes) : Bytes :=
  entries.foldl (auditChain sha256) (auditGenesis sha256 serialHash)

/-- **A record is a log's.** -/
structure AuditRecordIs (log : AuditLog) (record : Bytes) : Prop where
  length_eq : record.length = auditRecordSize
  version : slice record 0 1 = [1]
  next_eq : auditNext record = log.entries.length
  start_eq : auditStart record = log.start
  base_eq : auditBase record = auditFold sha256 serialHash (log.entries.take log.start)
  slot_eq : ∀ n, log.start ≤ n → ∀ entry, log.entries[n]? = some entry → auditSlot record n = entry

/-- A log as the journal keeps it: its window fits the ring, and its entries have their sequence
numbers. -/
structure AuditLog.Ok (log : AuditLog) : Prop where
  start_le : log.start ≤ log.entries.length
  window_le : log.entries.length - log.start ≤ auditSlots
  length_le : log.entries.length ≤ UINT32_MAX
  entry_ok : ∀ n entry, log.entries[n]? = some entry →
    entry.length = auditEntryLen ∧ rd32 entry 0 = n

variable {sha256 : Bytes → Bytes} {serialHash : Bytes} {log : AuditLog} {record entry : Bytes}

section

variable (h : AuditRecordIs sha256 serialHash log record)
include h

/-- The entries retained are those of the log. -/
theorem AuditRecordIs.entries_eq :
    auditEntries record = log.entries.drop log.start := by
  rw [auditEntries, h.next_eq, h.start_eq]
  refine ext_getElem? fun i ↦ ?_
  rw [getElem?_map, getElem?_drop]
  by_cases hi : i < log.entries.length - log.start
  · have hentry := getElem?_eq_getElem (show log.start + i < log.entries.length by omega)
    rw [getElem?_range' hi, hentry, Option.map_some, Nat.one_mul,
      h.slot_eq _ (Nat.le_add_right ..) _ hentry]
  · rw [getElem?_eq_none (by rw [length_range']; omega),
      getElem?_eq_none (by omega), Option.map_none]

/-- **The head of a record** is the hash chain over the whole log. -/
theorem AuditRecordIs.head_eq :
    auditHead sha256 record = auditFold sha256 serialHash log.entries := by
  rw [auditHead, h.entries_eq, h.base_eq, auditFold, auditFold, ← foldl_append, take_append_drop]

/-- **A record of a log loads.** -/
theorem AuditRecordIs.valid (hok : log.Ok) : auditRecordValid record = true := by
  have hle := hok.start_le
  have hwindow := hok.window_le
  have hslots : ∀ n ∈ List.range' log.start (log.entries.length - log.start),
      (rd32 (auditSlot record n) 0 == n) = true := by
    intro n hn
    rw [mem_range'_1] at hn
    have hentry := getElem?_eq_getElem (show n < log.entries.length by omega)
    rw [h.slot_eq n hn.1 _ hentry, (hok.entry_ok n _ hentry).2, beq_self_eq_true]
  simp only [auditRecordValid, h.length_eq, h.version, h.next_eq, h.start_eq, hle, hwindow,
    decide_true, beq_self_eq_true, Bool.and_self, Bool.true_and, all_eq_true]
  exact hslots

end

/-! ### Appending -/

/-- The log with the oldest entry retained no more. -/
def AuditLog.evict (log : AuditLog) : AuditLog :=
  { log with start := log.start + 1 }

/-- The log with one more entry; if the ring was full, the oldest one is retained no more. -/
def AuditLog.append (log : AuditLog) (entry : Bytes) : AuditLog :=
  ⟨log.entries ++ [entry],
    if log.entries.length - log.start = auditSlots then log.start + 1 else log.start⟩

variable (hsha : ∀ data, (sha256 data).length = 32)

include hsha

theorem length_auditChain (head entry : Bytes) : (auditChain sha256 head entry).length = 32 :=
  hsha _

/-- **An eviction** moves the oldest entry into the base. -/
theorem AuditRecordIs.evict (h : AuditRecordIs sha256 serialHash log record) (hok : log.Ok)
    (hlt : log.start < log.entries.length) :
    AuditRecordIs sha256 serialHash log.evict (auditEvict sha256 record) := by
  have hchain := length_auditChain hsha (auditBase record) (auditSlot record (auditStart record))
  obtain ⟨patched, hpatched⟩ : ∃ patched, patched = patch record 9
    (auditChain sha256 (auditBase record) (auditSlot record (auditStart record))) := ⟨_, rfl⟩
  have hfits : 9 + (auditChain sha256 (auditBase record)
      (auditSlot record (auditStart record))).length ≤ record.length := by
    rw [hchain, h.length_eq]
    decide
  have hlen : patched.length = auditRecordSize := by
    rw [hpatched, length_patch hfits, h.length_eq]
  have hoff : 9 + (auditChain sha256 (auditBase record)
      (auditSlot record (auditStart record))).length ≤ auditHeader := by
    rw [hchain]
  have hbefore {off len : ℕ} (hle : off + len ≤ 9) :
      slice patched off len = slice record off len := by
    rw [hpatched]
    exact slice_patch_of_disjoint hfits (.inl hle)
  have hmax := hok.length_le
  have hentry := getElem?_eq_getElem hlt
  rw [auditEvict, ← hpatched]
  refine ⟨length_wr32 hlen (by decide) _, ?_, ?_, ?_, ?_, fun n hn entry hn' ↦ ?_⟩
  · rw [slice_wr32 hlen (by decide) (by decide), hbefore (by decide), h.version]
  · show leNat (slice _ 1 4) = _
    rw [slice_wr32 hlen (by decide) (by decide), hbefore (by decide)]
    exact h.next_eq
  · rw [auditStart, rd32_wr32_self hlen (by decide) (by rw [h.start_eq]; omega), h.start_eq]
    rfl
  · rw [auditBase, slice_wr32 hlen (by decide) (by decide), hpatched, ← hchain,
      slice_patch_self hfits, h.start_eq, h.slot_eq _ le_rfl _ hentry, h.base_eq]
    rw [show log.evict.entries = log.entries from rfl, show log.evict.start = log.start + 1 from rfl,
      take_succ_eq_append_getElem hlt, auditFold, auditFold, foldl_append]
    rfl
  · have hslot : auditSlot patched n = auditSlot record n := by
      rw [hpatched]
      exact auditSlot_patch h.length_eq hoff n
    have hheader : auditSlot (wr32 patched 5 (auditStart record + 1)) n = auditSlot patched n :=
      auditSlot_patch hlen (by rw [length_leBytes]; decide) n
    rw [hheader, hslot]
    exact h.slot_eq n (Nat.le_of_succ_le hn) entry hn'

omit hsha

/-- Writing the next entry, once there is room in the ring. -/
theorem AuditRecordIs.push (h : AuditRecordIs sha256 serialHash log record) (hok : log.Ok)
    (hroom : log.entries.length - log.start < auditSlots)
    (hmax : log.entries.length < UINT32_MAX) (hentry : entry.length = auditEntryLen) :
    AuditRecordIs sha256 serialHash { log with entries := log.entries ++ [entry] }
      (wr32 (auditSetSlot record log.entries.length entry) 1 (log.entries.length + 1)) := by
  have hle := hok.start_le
  have hlen := length_auditSetSlot h.length_eq hentry log.entries.length
  have hkept {off len : ℕ} (hdisjoint : off + len ≤ 1 ∨ 5 ≤ off) (hheader : off + len ≤ auditHeader) :
      slice (wr32 (auditSetSlot record log.entries.length entry) 1 (log.entries.length + 1)) off len =
        slice record off len := by
    rw [slice_wr32 hlen (by decide) hdisjoint, slice_auditSetSlot h.length_eq hentry _ hheader]
  refine ⟨length_wr32 hlen (by decide) _, ?_, ?_, ?_, ?_, fun n hn e he ↦ ?_⟩
  · rw [hkept (by decide) (by decide), h.version]
  · rw [auditNext, rd32_wr32_self hlen (by decide) (by omega), length_append]
    rfl
  · show leNat (slice _ 5 4) = _
    rw [hkept (by decide) (by decide)]
    exact h.start_eq
  · rw [auditBase, hkept (by decide) (by decide), take_append_of_le_length hle]
    exact h.base_eq
  · have hheader : auditSlot (wr32 (auditSetSlot record log.entries.length entry) 1
        (log.entries.length + 1)) n = auditSlot (auditSetSlot record log.entries.length entry) n :=
      auditSlot_patch hlen (by rw [length_leBytes]; decide) n
    rw [hheader]
    by_cases hnew : n = log.entries.length
    · rw [hnew, getElem?_append_right le_rfl, Nat.sub_self, getElem?_cons_zero] at he
      cases he
      exact auditSlot_setSlot_self h.length_eq hentry (by rw [hnew])
    · have hlt : n < log.entries.length := by
        obtain ⟨hlt, -⟩ := List.getElem?_eq_some_iff.mp he
        rw [length_append, length_singleton] at hlt
        omega
      rw [getElem?_append_left hlt] at he
      have hstart : log.start ≤ n := hn
      rw [auditSlot_setSlot_of_ne h.length_eq hentry, h.slot_eq n hn e he]
      exact @slot_ne_of_window _ _ _ (log.entries.length + 1) (by omega) ⟨hle, by omega⟩
        ⟨hstart, by omega⟩ (Ne.symm hnew)

variable {n : ℕ} {clock : AuditClock} {ev aux : UInt8} {detail : Bytes}

/-- Changing an entry that is retained. -/
theorem AuditRecordIs.setSlot (h : AuditRecordIs sha256 serialHash log record) (hok : log.Ok)
    (hn : log.start ≤ n ∧ n < log.entries.length) (hentry : entry.length = auditEntryLen) :
    AuditRecordIs sha256 serialHash { log with entries := log.entries.set n entry }
      (auditSetSlot record n entry) := by
  have hkept {off len : ℕ} (hheader : off + len ≤ auditHeader) :=
    slice_auditSetSlot h.length_eq hentry n hheader
  refine ⟨length_auditSetSlot h.length_eq hentry n, ?_, ?_, ?_, ?_, fun m hm e he ↦ ?_⟩
  · rw [hkept (by decide), h.version]
  · show leNat (slice _ 1 4) = _
    rw [hkept (by decide), length_set]
    exact h.next_eq
  · show leNat (slice _ 5 4) = _
    rw [hkept (by decide)]
    exact h.start_eq
  · rw [auditBase, hkept (by decide), take_set_of_le hn.1]
    exact h.base_eq
  · by_cases hnm : n = m
    · rw [← hnm, getElem?_set_self hn.2] at he
      cases he
      exact auditSlot_setSlot_self h.length_eq hentry (by rw [hnm])
    · rw [getElem?_set_ne hnm] at he
      obtain ⟨hlt, -⟩ := List.getElem?_eq_some_iff.mp he
      rw [auditSlot_setSlot_of_ne h.length_eq hentry, h.slot_eq m hm e he]
      exact slot_ne_of_window hok.window_le hn ⟨hm, hlt⟩ hnm

/-! ### What the journal does -/

/-- The log with every entry folded away. -/
def AuditLog.scrub (log : AuditLog) : AuditLog :=
  { log with start := log.entries.length }

theorem length_auditFold (hsha : ∀ data, (sha256 data).length = 32) (entries : List Bytes) :
    (auditFold sha256 serialHash entries).length = 32 := by
  have hfold (base : Bytes) (hbase : base.length = 32) :
      (entries.foldl (auditChain sha256) base).length = 32 := by
    induction entries generalizing base with
    | nil => exact hbase
    | cons entry entries ih => exact ih _ (hsha _)
  exact hfold _ (hsha _)

/-- **A scrub** folds the whole log into the base. -/
theorem AuditRecordIs.scrub (hsha : ∀ data, (sha256 data).length = 32)
    (h : AuditRecordIs sha256 serialHash log record) (hok : log.Ok) :
    AuditRecordIs sha256 serialHash log.scrub (auditScrubRecord sha256 record) := by
  have hhead : (auditHead sha256 record).length = 32 := by
    rw [h.head_eq]
    exact length_auditFold hsha _
  have hmax := hok.length_le
  have hbase : 9 + (auditHead sha256 record).length ≤ record.length := by
    rw [hhead, h.length_eq]
    decide
  obtain ⟨based, hbased⟩ : ∃ based, based = patch record 9 (auditHead sha256 record) := ⟨_, rfl⟩
  have hlenBased : based.length = auditRecordSize := by
    rw [hbased, length_patch hbase, h.length_eq]
  obtain ⟨folded, hfolded⟩ : ∃ folded, folded = wr32 based 5 (auditNext record) := ⟨_, rfl⟩
  have hlen : folded.length = auditRecordSize := by
    rw [hfolded]
    exact length_wr32 hlenBased (by decide) _
  have hzeros : auditHeader + (List.replicate (auditRecordSize - auditHeader) (0 : UInt8)).length ≤
      folded.length := by
    rw [length_replicate, hlen]
    decide
  have hkept {off len : ℕ} (hheader : off + len ≤ auditHeader) :
      slice (auditScrubRecord sha256 record) off len = slice folded off len := by
    rw [auditScrubRecord, hfolded, hbased]
    rw [hfolded, hbased] at hzeros
    exact slice_patch_of_disjoint hzeros (.inl hheader)
  have hfront {off len : ℕ} (hoff : off + len ≤ 5) :
      slice (auditScrubRecord sha256 record) off len = slice record off len := by
    rw [hkept (hoff.trans (by decide)), hfolded, slice_wr32 hlenBased (by decide) (.inl hoff), hbased]
    exact slice_patch_of_disjoint hbase (.inl (hoff.trans (by decide)))
  refine ⟨?_, ?_, ?_, ?_, ?_, fun n hn e he ↦ ?_⟩
  · rw [auditScrubRecord, ← hbased, ← hfolded, length_patch hzeros, hlen]
  · rw [hfront (by decide), h.version]
  · show leNat (slice _ 1 4) = _
    rw [hfront (by decide)]
    exact h.next_eq
  · show leNat (slice _ 5 4) = _
    rw [hkept (by decide), hfolded]
    refine (rd32_wr32_self hlenBased (by decide) ?_).trans h.next_eq
    rw [h.next_eq]
    exact hmax
  · rw [auditBase, hkept (by decide), hfolded, slice_wr32 hlenBased (by decide) (by decide), hbased,
      ← hhead, slice_patch_self hbase, h.head_eq]
    rw [show log.scrub.start = log.entries.length from rfl, show log.scrub.entries = log.entries from rfl,
      take_length]
  · -- nothing is retained
    obtain ⟨hlt, -⟩ := List.getElem?_eq_some_iff.mp he
    exact absurd hn (Nat.not_le.mpr hlt)

/-- An entry has its sequence number and its length. -/
theorem auditEntry_ok (clock : AuditClock) (hn : n ≤ UINT32_MAX) (ev aux : UInt8) (detail : Bytes) :
    (auditEntry clock n ev aux detail).length = auditEntryLen ∧
      rd32 (auditEntry clock n ev aux detail) 0 = n := by
  have hdetail : (detail.take 8).length ≤ 8 := length_take_le 8 detail
  constructor
  · simp only [auditEntry, length_append, length_leBytes, length_cons, length_nil,
      length_replicate, auditEntryLen]
    omega
  · have hslice : slice (auditEntry clock n ev aux detail) 0 4 = leBytes 4 n := by
      exact take_left' (length_leBytes 4 n)
    rw [rd32, hslice, leNat_leBytes]
    simp only [UINT32_MAX] at hn
    omega

theorem AuditLog.Ok.append (hok : log.Ok) (hmax : log.entries.length < UINT32_MAX)
    (hentry : entry.length = auditEntryLen ∧ rd32 entry 0 = log.entries.length) :
    (log.append entry).Ok := by
  have hle := hok.start_le
  have hwindow := hok.window_le
  refine ⟨?_, ?_, ?_, fun n e he ↦ ?_⟩
  · simp only [AuditLog.append, length_append, length_singleton]
    split_ifs <;> omega
  · simp only [AuditLog.append, length_append, length_singleton]
    split_ifs <;> omega
  · simp only [AuditLog.append, length_append, length_singleton]
    omega
  · simp only [AuditLog.append] at he
    by_cases hlt : n < log.entries.length
    · rw [getElem?_append_left hlt] at he
      exact hok.entry_ok n e he
    · rw [getElem?_append_right (by omega)] at he
      obtain ⟨hzero, hget⟩ := List.getElem?_eq_some_iff.mp he
      rw [length_singleton] at hzero
      rw [getElem_singleton] at hget
      rw [← hget, hentry.2]
      exact ⟨hentry.1, by omega⟩

variable {record' : Bytes} {slot : ℕ → Bytes}

/-- **`append_one`** appends to the log. -/
theorem AuditRecordIs.appendOne (hsha : ∀ data, (sha256 data).length = 32)
    (h : AuditRecordIs sha256 serialHash log record) (hok : log.Ok)
    (happend : auditAppendOne sha256 clock ev aux detail record = .ok record') :
    log.entries.length < UINT32_MAX ∧
      AuditRecordIs sha256 serialHash
        (log.append (auditEntry clock log.entries.length ev aux detail)) record' := by
  have hmax := hok.length_le
  simp only [auditAppendOne, h.next_eq, h.start_eq] at happend
  split_ifs at happend with hfull hring
  · cases happend
    have hlt : log.entries.length < UINT32_MAX := by omega
    have hpos : log.start < log.entries.length := by
      simp only [auditSlots] at hring
      omega
    have hevicted := h.evict hsha hok hpos
    have hokEvicted : log.evict.Ok :=
      ⟨hpos, (Nat.sub_le_sub_left (Nat.le_succ _) _).trans hok.window_le, hmax, hok.entry_ok⟩
    refine ⟨hlt, ?_⟩
    rw [AuditLog.append, if_pos hring]
    refine hevicted.push hokEvicted ?_ hlt (auditEntry_ok clock hmax ev aux detail).1
    show log.entries.length - (log.start + 1) < auditSlots
    omega
  · cases happend
    have hlt : log.entries.length < UINT32_MAX := by omega
    have hwindow := hok.window_le
    refine ⟨hlt, ?_⟩
    rw [AuditLog.append, if_neg hring]
    exact h.push hok (by omega) hlt (auditEntry_ok clock hmax ev aux detail).1

/-! ### Coalescing -/

/-- The loop finds an entry of the event, and none of those looked at before it is one. -/
theorem auditFindRun_eq_some {start next : ℕ} :
    ∀ {k : ℕ}, auditFindRun slot ev start next k = some n →
      start ≤ n ∧ n < start + k ∧ auditIsEvent ev (slot n) = true ∧
        (ev = auditConfigWrite → n = next - 1) := by
  intro k hfind
  induction k with
  | zero => cases hfind
  | succ k ih =>
    rw [auditFindRun] at hfind
    split_ifs at hfind with hlast hevent
    · obtain rfl := Option.some.inj hfind
      refine ⟨Nat.le_add_right .., Nat.lt_succ_self _, hevent, fun hev ↦ ?_⟩
      by_contra hne
      exact hlast ⟨hev, hne⟩
    · obtain ⟨hlow, hhigh, hrest⟩ := ih hfind
      exact ⟨hlow, Nat.lt_succ_of_lt hhigh, hrest⟩

/-- The loop looks at the entries of the window only. -/
theorem auditFindRun_congr {slot' : ℕ → Bytes} {start next k : ℕ}
    (h : ∀ n, start ≤ n → n < start + k → slot n = slot' n) :
    auditFindRun slot ev start next k = auditFindRun slot' ev start next k := by
  induction k with
  | zero => rfl
  | succ k ih =>
    rw [auditFindRun, auditFindRun, h _ (Nat.le_add_right ..) (Nat.lt_succ_self _),
      ih fun n hlow hhigh ↦ h n hlow (Nat.lt_succ_of_lt hhigh)]

/-- The entry of the log that an event is counted up in, if there is one. -/
def AuditLog.run (ev : UInt8) (log : AuditLog) : Option ℕ :=
  auditFindRun (fun n ↦ log.entries.getD n []) ev log.start log.entries.length
    (log.entries.length - log.start)

theorem AuditRecordIs.run_eq (h : AuditRecordIs sha256 serialHash log record) (ev : UInt8) :
    auditRun ev record = log.run ev := by
  rw [auditRun, AuditLog.run, h.next_eq, h.start_eq]
  refine auditFindRun_congr fun n hlow hhigh ↦ ?_
  have hlt : n < log.entries.length := by omega
  have hget := getElem?_eq_getElem hlt
  rw [h.slot_eq n hlow _ hget, getD_eq_getElem?_getD, hget]
  rfl

theorem AuditLog.run_bounds (h : log.run ev = some n) : log.start ≤ n ∧ n < log.entries.length := by
  obtain ⟨hlow, hhigh, -⟩ := auditFindRun_eq_some h
  exact ⟨hlow, by omega⟩

/-- Counting up keeps the sequence number and the length of an entry. -/
theorem auditCountUp_ok (ev aux : UInt8) (h : entry.length = auditEntryLen) :
    (auditCountUp ev aux entry).length = auditEntryLen ∧
      rd32 (auditCountUp ev aux entry) 0 = rd32 entry 0 := by
  have hoffset : 10 ≤ auditCountOffset ev ∧ auditCountOffset ev ≤ 18 := by
    rw [auditCountOffset]
    split_ifs <;> omega
  obtain ⟨counted, hcounted⟩ : ∃ counted, counted = patch entry (auditCountOffset ev)
    (leBytes 2 (if leNat (slice entry (auditCountOffset ev) 2) ≠ UINT16_MAX then
      leNat (slice entry (auditCountOffset ev) 2) + 1
      else leNat (slice entry (auditCountOffset ev) 2))) := ⟨_, rfl⟩
  have hlen : counted.length = auditEntryLen := by
    rw [hcounted, length_patch (by rw [length_leBytes, h, auditEntryLen]; omega), h]
  have hseq : slice counted 0 4 = slice entry 0 4 := by
    rw [hcounted]
    refine slice_patch_of_disjoint ?_ (.inl (by omega))
    rw [length_leBytes, h, auditEntryLen]
    omega
  rw [auditCountUp, ← hcounted, rd32, rd32]
  split_ifs
  · have hone : ((slice counted 12 1).map (· ||| auditTargetBit aux)).length = 1 := by
      rw [length_map]
      exact length_slice (by rw [hlen]; decide)
    have hfits : 12 + ((slice counted 12 1).map (· ||| auditTargetBit aux)).length ≤
        counted.length := by
      rw [hone, hlen]
      decide
    refine ⟨by rw [length_patch hfits, hlen], ?_⟩
    rw [slice_patch_of_disjoint hfits (.inl (by decide)), hseq]
  · exact ⟨hlen, by rw [hseq]⟩

theorem AuditLog.Ok.set (hok : log.Ok) (hentry : entry.length = auditEntryLen ∧ rd32 entry 0 = n) :
    AuditLog.Ok { log with entries := log.entries.set n entry } := by
  refine ⟨?_, ?_, ?_, fun m e he ↦ ?_⟩
  · simpa using hok.start_le
  · simpa using hok.window_le
  · simpa using hok.length_le
  · by_cases hnm : n = m
    · obtain rfl := hnm
      obtain ⟨hlt, hget⟩ := List.getElem?_eq_some_iff.mp he
      rw [getElem_set_self] at hget
      exact hget ▸ hentry
    · rw [getElem?_set_ne hnm] at he
      exact hok.entry_ok m e he

/-! ### The log after a call -/

def auditEventEntry (clock : AuditClock) (n : ℕ) (ev aux : UInt8) (detail : Bytes) : Bytes :=
  if ev = auditConfigWrite then patch (auditEntry clock n ev aux detail) 12 [auditTargetBit aux]
  else auditEntry clock n ev aux detail

def AuditLog.appendEvent (clock : AuditClock) (ev aux : UInt8) (detail : Bytes) (log : AuditLog) :
    AuditLog :=
  log.append (auditEventEntry clock log.entries.length ev aux detail)

/-- **The log after `append`**: the start of the device is logged first; otherwise an event that may
be coalesced is counted up in the newest entry of its kind that is retained. -/
def AuditLog.afterAppend (clock : AuditClock) (bootLogged : Bool) (ev aux : UInt8) (detail : Bytes)
    (coalesce : Bool) (log : AuditLog) : AuditLog :=
  if !bootLogged then
    (log.appendEvent clock auditBoot 0 []).appendEvent clock ev aux detail
  else
    match if coalesce then log.run ev else none with
    | some n =>
      { log with entries := log.entries.set n (auditCountUp ev aux (log.entries.getD n [])) }
    | none => log.appendEvent clock ev aux detail

/-- An append that finds a run counts it up. -/
theorem AuditLog.afterAppend_of_run {log : AuditLog} (h : log.run ev = some n) :
    log.afterAppend clock true ev aux detail true =
      { log with entries := log.entries.set n (auditCountUp ev aux (log.entries.getD n [])) } := by
  rw [AuditLog.afterAppend, if_neg (by decide), if_pos rfl, h]

/-- An append that finds none adds an entry. -/
theorem AuditLog.afterAppend_of_none {coalesce : Bool} {log : AuditLog}
    (h : (if coalesce then log.run ev else none) = none) :
    log.afterAppend clock true ev aux detail coalesce = log.appendEvent clock ev aux detail := by
  rw [AuditLog.afterAppend, if_neg (by decide), h]

theorem auditEventEntry_ok (clock : AuditClock) (hn : n ≤ UINT32_MAX) (ev aux : UInt8)
    (detail : Bytes) : (auditEventEntry clock n ev aux detail).length = auditEntryLen ∧
      rd32 (auditEventEntry clock n ev aux detail) 0 = n := by
  obtain ⟨hlen, hseq⟩ := auditEntry_ok clock hn ev aux detail
  rw [auditEventEntry]
  split_ifs
  · have hfits : 12 + [auditTargetBit aux].length ≤ (auditEntry clock n ev aux detail).length := by
      rw [hlen, length_singleton]
      decide
    refine ⟨by rw [length_patch hfits, hlen], ?_⟩
    exact hseq
  · exact ⟨hlen, hseq⟩

/-- `append_one` and what follows it append the event to the log. -/
theorem AuditRecordIs.appendEvent (hsha : ∀ data, (sha256 data).length = 32)
    (h : AuditRecordIs sha256 serialHash log record) (hok : log.Ok)
    (happend : auditAppendEvent sha256 clock ev aux detail record = .ok record') :
    AuditRecordIs sha256 serialHash (log.appendEvent clock ev aux detail) record' ∧
      (log.appendEvent clock ev aux detail).Ok := by
  rw [auditAppendEvent] at happend
  rcases hone : auditAppendOne sha256 clock ev aux detail record with r | record₁
  · rw [hone] at happend
    cases happend
  · rw [hone, ok_bind] at happend
    obtain ⟨hmax, hrecord⟩ := h.appendOne hsha hok hone
    have hentry := auditEntry_ok clock hmax.le ev aux detail
    have hevent := auditEventEntry_ok clock hmax.le ev aux detail
    refine ⟨?_, hok.append hmax hevent⟩
    have hokOne := hok.append hmax hentry
    split_ifs at happend with hev
    · -- the target bit goes into the entry just written
      cases happend
      have hlast : (log.append (auditEntry clock log.entries.length ev aux detail)).entries[
          log.entries.length]? = some (auditEntry clock log.entries.length ev aux detail) := by
        rw [AuditLog.append, getElem?_append_right le_rfl, Nat.sub_self]
        rfl
      have hstart : (log.append (auditEntry clock log.entries.length ev aux detail)).start ≤
          log.entries.length := by
        have hle := hok.start_le
        simp only [AuditLog.append]
        split_ifs with hring
        · simp only [auditSlots] at hring
          omega
        · exact hle
      have hnext : auditNext record₁ - 1 = log.entries.length := by
        rw [hrecord.next_eq, AuditLog.append, length_append]
        exact Nat.add_sub_cancel ..
      have hlen : log.entries.length <
          (log.append (auditEntry clock log.entries.length ev aux detail)).entries.length := by
        rw [AuditLog.append, length_append]
        exact Nat.lt_succ_self _
      have hset := hrecord.setSlot hokOne ⟨hstart, hlen⟩ hevent.1
      have hslot := hrecord.slot_eq _ hstart _ hlast
      rw [hnext, hslot]
      rw [auditEventEntry, if_pos hev] at hset
      have hentries : (log.append (auditEntry clock log.entries.length ev aux detail)).entries.set
          log.entries.length (patch (auditEntry clock log.entries.length ev aux detail) 12
            [auditTargetBit aux]) = (log.appendEvent clock ev aux detail).entries := by
        rw [AuditLog.appendEvent, AuditLog.append, AuditLog.append, auditEventEntry, if_pos hev,
          set_append_right _ _ le_rfl, Nat.sub_self]
        rfl
      rw [hentries] at hset
      exact hset
    · cases happend
      rw [AuditLog.appendEvent, auditEventEntry, if_neg hev]
      exact hrecord

/-- **What `append` does to the record, it does to the log.** -/
theorem AuditRecordIs.afterAppend (hsha : ∀ data, (sha256 data).length = 32)
    (h : AuditRecordIs sha256 serialHash log record) (hok : log.Ok) {bootLogged : Bool}
    {coalesce : Bool}
    (happend : auditAppendRecord sha256 clock bootLogged ev aux detail coalesce record = .ok record') :
    AuditRecordIs sha256 serialHash (log.afterAppend clock bootLogged ev aux detail coalesce)
        record' ∧ (log.afterAppend clock bootLogged ev aux detail coalesce).Ok := by
  rw [auditAppendRecord] at happend
  rw [AuditLog.afterAppend]
  split_ifs at happend ⊢ with hboot hcoalesce
  · rcases hone : auditAppendOne sha256 clock auditBoot 0 [] record with r | record₁
    · rw [hone] at happend
      cases happend
    · rw [hone, ok_bind] at happend
      have hbootEvent : auditAppendEvent sha256 clock auditBoot 0 [] record = .ok record₁ := by
        rw [auditAppendEvent, hone]
        rfl
      obtain ⟨hrecord, hokBoot⟩ := h.appendEvent hsha hok hbootEvent
      exact hrecord.appendEvent hsha hokBoot happend
  · rw [h.run_eq] at happend
    rcases hrun : log.run ev with - | n
    · rw [hrun] at happend
      exact h.appendEvent hsha hok happend
    · rw [hrun] at happend
      cases happend
      have hbounds := AuditLog.run_bounds hrun
      have hget := getElem?_eq_getElem hbounds.2
      obtain ⟨hlen, hseq⟩ := hok.entry_ok n _ hget
      have hcounted := auditCountUp_ok ev aux hlen
      have hd : log.entries.getD n [] = log.entries[n] := by
        rw [getD_eq_getElem?_getD, hget]
        rfl
      simp only [hd, h.slot_eq n hbounds.1 _ hget]
      exact ⟨h.setSlot hok hbounds hcounted.1, hok.set ⟨hcounted.1, hcounted.2.trans hseq⟩⟩
  · exact h.appendEvent hsha hok happend

end Log

end PicoAll
