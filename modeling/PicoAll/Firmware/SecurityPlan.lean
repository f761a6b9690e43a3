import PicoAll.Firmware.Security

/-!
# A stage that is resumed is a stage that is continued

After each write that succeeds, the plan of the stage from the rows as they are then is the rest of
the plan (`securityPlan_resumes`). So a stage that was interrupted goes on where it stopped, and what
is to be proved of a stage is proved of the first write of its plan.
-/

namespace PicoAll.Firmware

open OneTime Otp FaultProgram List Function Nat

variable {E : Ecc 24} {rows : Rows}

/-! ### Bits -/

variable {bit slot row : ℕ} {value bits : Row} {rows' : Rows} {l : List ℕ} {write : PlannedWrite}
  {rest ws : List PlannedWrite} {fp : Bytes} {burn : Burn 24} {action : SecurityAction}

theorem vote_getLsbD {values : List Row} {threshold : ℕ} (h : bit < 24) :
    (vote values threshold).getLsbD bit =
      decide (threshold ≤ values.countP fun value ↦ value.getLsbD bit) := by
  rw [vote, BitVec.getLsbD_ofFnLE, dif_pos h]

theorem and_bitValue_ne_zero (h : bit < 24) :
    value &&& bitValue bit ≠ 0 ↔ value.getLsbD bit = true := by
  rw [BitVec.and_twoPow]
  split
  · rename_i hbit
    refine ⟨fun _ ↦ hbit, fun _ hzero ↦ ?_⟩
    have htrue : (BitVec.twoPow 24 bit).getLsbD bit = true := by
      rw [BitVec.getLsbD_twoPow, decide_eq_true h, decide_eq_true rfl, Bool.true_and]
    rw [hzero] at htrue
    exact absurd htrue (by simp)
  · rename_i hbit
    exact ⟨fun hne ↦ absurd rfl hne, fun htrue ↦ absurd htrue hbit⟩

theorem within_bitValue (h : bit < 24) :
    Within (bitValue bit) value ↔ value.getLsbD bit = true := by
  rw [within_iff]
  constructor
  · intro hwithin
    exact hwithin bit (by
      rw [BitVec.getLsbD_twoPow, decide_eq_true h, decide_eq_true rfl, Bool.true_and])
  · intro hbit i hi
    rw [BitVec.getLsbD_twoPow, Bool.and_eq_true, decide_eq_true_eq, decide_eq_true_eq] at hi
    obtain ⟨-, rfl⟩ := hi
    exact hbit

/-- The bits of the four slots. -/
theorem getLsbD_fifteen (bit : ℕ) : (15 : Row).getLsbD bit = decide (bit < 4) := by
  rcases lt_or_ge bit 24 with hbit | hbit
  · interval_cases bit <;> rfl
  · rw [BitVec.getLsbD_of_ge _ _ hbit, decide_eq_false (by omega)]

/-! ### What the flags say -/

/-- A flag is voted. -/
def Voted (rows : Rows) (bit : ℕ) : Prop :=
  (vote (flagsRows.map rows) 2).getLsbD bit = true

/-- A flag is in every copy. -/
def AllCopies (rows : Rows) (bit : ℕ) : Prop :=
  ∀ row ∈ flagsRows, (rows row).getLsbD bit = true

/-- A flag is in some copy. -/
def AnyCopy (rows : Rows) (bit : ℕ) : Prop :=
  ∃ row ∈ flagsRows, (rows row).getLsbD bit = true

/-- A slot is voted valid, and not voted revoked. -/
def Trusted (rows : Rows) (slot : ℕ) : Prop :=
  slot < 4 ∧ Voted rows slot ∧ ¬ Voted rows (slot + 8)

instance (rows : Rows) (bit : ℕ) : Decidable (Voted rows bit) :=
  inferInstanceAs (Decidable (_ = true))

instance (rows : Rows) (slot : ℕ) : Decidable (Trusted rows slot) :=
  inferInstanceAs (Decidable (_ ∧ _ ∧ ¬ _))

theorem voted_iff (h : bit < 24) :
    Voted rows bit ↔ 2 ≤ (flagsRows.map rows).countP fun value ↦ value.getLsbD bit := by
  rw [Voted, vote_getLsbD h, decide_eq_true_eq]

theorem AllCopies.voted (hbit : bit < 24) (h : AllCopies rows bit) : Voted rows bit := by
  have hcount : (flagsRows.map rows).countP (fun value ↦ value.getLsbD bit) =
      (flagsRows.map rows).length :=
    countP_eq_length.mpr fun value hvalue ↦ by
      obtain ⟨row, hrow, rfl⟩ := mem_map.mp hvalue
      exact h row hrow
  rw [voted_iff hbit, hcount, length_map]
  decide

theorem Voted.anyCopy (hbit : bit < 24) (h : Voted rows bit) : AnyCopy rows bit := by
  have hpos : 0 < (flagsRows.map rows).countP fun value ↦ value.getLsbD bit :=
    lt_of_lt_of_le zero_lt_two ((voted_iff hbit).mp h)
  obtain ⟨value, hvalue, hset⟩ := countP_pos_iff.mp hpos
  obtain ⟨row, hrow, rfl⟩ := mem_map.mp hvalue
  exact ⟨row, hrow, hset⟩

theorem Voted.mono (hbit : bit < 24) (h : Voted rows bit)
    (hgrow : ∀ row, Within (rows row) (rows' row)) : Voted rows' bit := by
  rw [voted_iff hbit] at h ⊢
  rw [countP_map] at h ⊢
  exact h.trans (countP_mono_left fun row _ ↦ within_iff.mp (hgrow row) bit)

theorem trusted_getLsbD :
    (bootState E rows).trusted.getLsbD slot = true ↔ Trusted rows slot := by
  simp only [BootState.trusted, bootState, BitVec.getLsbD_and, BitVec.getLsbD_not, getLsbD_fifteen,
    BitVec.getLsbD_ushiftRight, Trusted, Voted, Bool.and_eq_true, decide_eq_true_eq,
    Bool.not_eq_true', Bool.and_eq_false_iff, decide_eq_false_iff_not]
  rw [add_comm 8 slot, Bool.not_eq_true]
  constructor
  · rintro ⟨⟨⟨hvalid, -⟩, -, hrevoked | hlarge⟩, hslot⟩
    · exact ⟨hslot, hvalid, hrevoked⟩
    · exact absurd hslot hlarge
  · rintro ⟨hslot, hvalid, hrevoked⟩
    exact ⟨⟨⟨hvalid, hslot⟩, by omega, .inl hrevoked⟩, hslot⟩

/-! ### Rows that are left alone -/

theorem map_update_of_notMem (h : row ∉ l) : l.map (Function.update rows row value) = l.map rows :=
  map_congr_left fun other hother ↦
    update_of_ne (by rintro rfl; exact h hother) ..

theorem readWords_congr (rows : Rows) (h : ∀ row ∈ l, rows row = rows' row) :
    readWords E rows l = readWords E rows' l := by
  induction l with
  | nil => rfl
  | cons row l ih =>
    rw [readWords, readWords, h row mem_cons_self,
      ih fun other hother ↦ h other (mem_cons_of_mem _ hother)]

theorem mem_slotRows (h : row ∈ slotRows slot) :
    0x80 + 16 * slot ≤ row ∧ row < 0x80 + 16 * (slot + 1) := by
  obtain ⟨i, hi, rfl⟩ := mem_map.mp h
  rw [mem_range] at hi
  rw [slotRow]
  omega

theorem mem_flagsRows (h : row ∈ flagsRows) : 0x4b ≤ row ∧ row < 0x4e := by
  simp only [flagsRows, mem_cons, not_mem_nil, or_false] at h
  omega

theorem mem_critRows (h : row ∈ critRows) : 0x40 ≤ row ∧ row < 0x48 := by
  rw [critRows, mem_range'_1] at h
  omega

theorem mem_bootLocks (h : row ∈ bootLocks) : 0xf83 ≤ row := by
  simp only [bootLocks, mem_cons, not_mem_nil, or_false] at h
  omega

theorem mem_keyLockRows (h : row ∈ keyLockRows) : row = 0xf82 ∨ row = 0xf84 := by
  simpa only [keyLockRows, mem_cons, not_mem_nil, or_false] using h

/-- The fingerprints are the same after a write below the slots. -/
theorem fps_update (hrow : row < 0x80) :
    (bootState E (Function.update rows row value)).fps = (bootState E rows).fps := by
  refine map_congr_left fun slot _ ↦ readWords_congr _ fun other hother ↦ ?_
  exact update_of_ne (by have := mem_slotRows hother; omega) ..

/-- What the state says of the keys comes from the flags and from the slots. -/
structure SameKeys (rows rows' : Rows) : Prop where
  flags : ∀ row ∈ flagsRows, rows row = rows' row
  words : ∀ slot < 4, ∀ row ∈ slotRows slot, rows row = rows' row

namespace SameKeys

variable {rows' : Rows}

section

variable (h : SameKeys rows rows')
include h

theorem map_flags : flagsRows.map rows = flagsRows.map rows' :=
  map_congr_left h.flags

theorem fps : (bootState E rows).fps = (bootState E rows').fps :=
  map_congr_left fun slot hslot ↦ readWords_congr _ (h.words slot (mem_range.mp hslot))

theorem trusted :
    (bootState E rows).trusted = (bootState E rows').trusted := by
  rw [BootState.trusted, BootState.trusted, bootState, bootState, h.map_flags]

theorem matches_eq (fp : Bytes) :
    (bootState E rows).matches fp = (bootState E rows').matches fp := by
  rw [BootState.matches, BootState.matches, h.fps (E := E), h.trusted]

end

/-- A write outside flags and slots. -/
theorem update {row : ℕ} {value : Row} (hflags : row ∉ flagsRows)
    (hwords : ∀ slot < 4, row ∉ slotRows slot) : SameKeys rows (Function.update rows row value) where
  flags other hother := (update_of_ne (by rintro rfl; exact hflags hother) ..).symm
  words slot hslot other hother :=
    (update_of_ne (by rintro rfl; exact hwords slot hslot hother) ..).symm

end SameKeys

/-! ### The copies of a flag -/

/-- The writes that put bits into each of the rows. -/
def copiesPlan (rows : Rows) (l : List ℕ) (bits : Row) : List PlannedWrite :=
  l.flatMap fun row ↦ programBits row (rows row) bits

theorem programCopies_eq (l : List ℕ) (bits : Row) :
    programCopies l (l.map rows) bits = copiesPlan rows l bits := by
  rw [programCopies, copiesPlan]
  induction l with
  | nil => rfl
  | cons row l ih => rw [map_cons, zip_cons_cons, flatMap_cons, flatMap_cons, ih]

variable {old : Row} {wanted : BitVec 16} {is : List ℕ}

theorem programBits_eq_nil :
    programBits row old bits = [] ↔ Within bits old := by
  rw [programBits, Within, BitVec.or_comm]
  split <;> simp_all

theorem copiesPlan_eq_nil :
    copiesPlan rows l bits = [] ↔ ∀ row ∈ l, Within bits (rows row) := by
  rw [copiesPlan, flatMap_eq_nil_iff]
  exact forall₂_congr fun row _ ↦ programBits_eq_nil

theorem copiesPlan_congr (h : ∀ row ∈ l, rows row = rows' row) :
    copiesPlan rows l bits = copiesPlan rows' l bits := by
  rw [copiesPlan, copiesPlan]
  exact flatMap_congr fun row hrow ↦ by rw [h row hrow]

/-- The first write is for a row without the bits, and once it is done the rest is left. -/
theorem copiesPlan_cons (hnodup : l.Nodup) (h : copiesPlan rows l bits = write :: rest) :
    ∃ row ∈ l, write = .raw row (rows row ||| bits) ∧
      copiesPlan (Function.update rows row (rows row ||| bits)) l bits = rest := by
  induction l generalizing write rest with
  | nil => cases h
  | cons row l ih =>
    obtain ⟨hrow, hl⟩ := nodup_cons.mp hnodup
    rw [copiesPlan, flatMap_cons] at h
    rcases hhead : programBits row (rows row) bits with - | ⟨first, others⟩
    · rw [hhead, nil_append] at h
      obtain ⟨found, hfound, hwrite, hrest⟩ := ih hl h
      refine ⟨found, mem_cons_of_mem _ hfound, hwrite, ?_⟩
      have hne : row ≠ found := by
        rintro rfl
        exact hrow hfound
      rw [copiesPlan, flatMap_cons, update_of_ne hne, hhead, nil_append]
      exact hrest
    · rw [programBits] at hhead
      split at hhead
      · obtain ⟨rfl, rfl⟩ := List.cons.inj hhead
        rw [programBits, if_pos ‹_›] at h
        obtain ⟨rfl, rfl⟩ := List.cons.inj h
        refine ⟨row, mem_cons_self, rfl, ?_⟩
        have hdone : programBits row (rows row ||| bits) bits = [] :=
          programBits_eq_nil.mpr (.right_or ..)
        rw [copiesPlan, flatMap_cons, update_self, hdone, nil_append]
        exact copiesPlan_congr fun other hother ↦
          update_of_ne (by rintro rfl; exact hrow hother) ..
      · cases hhead

/-! ### The words of a fingerprint -/

/-- A computation that goes on with what two others give. -/
theorem bind_append_eq_ok {ε α : Type} {a b : Except ε (List α)} {l : List α} :
    (do let x ← a; let y ← b; return x ++ y) = Except.ok l ↔
      ∃ x y, a = .ok x ∧ b = .ok y ∧ l = x ++ y := by
  rcases a with e | x
  · rw [error_bind]
    simp
  rcases b with e | y
  · rw [ok_bind, error_bind]
    simp
  rw [ok_bind, ok_bind]
  simp [pure, Except.pure, eq_comm]

theorem slotRow_inj {i j : ℕ} : slotRow slot i = slotRow slot j ↔ i = j := by
  rw [slotRow, slotRow]
  omega

theorem planWord_eq_nil :
    planWord E rows row wanted = .ok [] ↔ E.decode (rows row) = some wanted := by
  rw [planWord]
  split
  · rcases E.decode (rows row) with - | word
    · simp
    · dsimp only
      split <;> simp_all
  · rename_i hzero
    rw [not_not.mp hzero, E.decode_zero, Option.some.injEq]
    split
    · rename_i hwanted
      exact ⟨fun h ↦ (by cases h), fun h ↦ absurd h.symm hwanted⟩
    · rename_i hwanted
      exact ⟨fun _ ↦ (not_not.mp hwanted).symm, fun _ ↦ rfl⟩

/-- A write is planned for a row that was never programmed. -/
theorem planWord_cons (h : planWord E rows row wanted = .ok (write :: rest)) :
    write = .ecc row wanted ∧ rest = [] ∧ rows row = 0 ∧ wanted ≠ 0 := by
  rw [planWord] at h
  split at h
  · rcases hdecode : E.decode (rows row) with - | word
    · rw [hdecode] at h
      cases h
    · rw [hdecode] at h
      dsimp only at h
      split at h <;> cases h
  · rename_i hzero
    split at h
    · rename_i hwanted
      cases h
      exact ⟨rfl, rfl, not_not.mp hzero, hwanted⟩
    · cases h

theorem planWord_congr (h : rows row = rows' row) :
    planWord E rows row wanted = planWord E rows' row wanted := by
  rw [planWord, planWord, h]

theorem planWords_cons_eq_ok {i : ℕ} :
    planWords E rows fp slot (i :: is) = .ok ws ↔
      ∃ x y, planWord E rows (slotRow slot i) (wantedWord fp i) = .ok x ∧
        planWords E rows fp slot is = .ok y ∧ ws = x ++ y := by
  rw [planWords]
  exact bind_append_eq_ok

theorem planWords_congr (rows' : Rows)
    (h : ∀ i ∈ is, rows (slotRow slot i) = rows' (slotRow slot i)) :
    planWords E rows fp slot is = planWords E rows' fp slot is := by
  induction is with
  | nil => rfl
  | cons i is ih =>
    rw [planWords, planWords, planWord_congr (h i mem_cons_self),
      ih fun j hj ↦ h j (mem_cons_of_mem _ hj)]

theorem planWords_eq_nil :
    planWords E rows fp slot is = .ok [] ↔
      ∀ i ∈ is, E.decode (rows (slotRow slot i)) = some (wantedWord fp i) := by
  induction is with
  | nil => simp [planWords]
  | cons i is ih =>
    rw [planWords_cons_eq_ok, forall_mem_cons, ← ih, ← planWord_eq_nil]
    constructor
    · rintro ⟨x, y, hx, hy, hnil⟩
      obtain ⟨rfl, rfl⟩ := append_eq_nil_iff.mp hnil.symm
      exact ⟨hx, hy⟩
    · rintro ⟨hx, hy⟩
      exact ⟨[], [], hx, hy, rfl⟩

/-- The first word that is written is for a row that was never programmed; once it can be read the
rest is left. -/
theorem planWords_cons (hnodup : is.Nodup) (h : planWords E rows fp slot is = .ok (write :: rest)) :
    ∃ i ∈ is, write = .ecc (slotRow slot i) (wantedWord fp i) ∧ rows (slotRow slot i) = 0 ∧
      wantedWord fp i ≠ 0 ∧ ∀ new, E.decode new = some (wantedWord fp i) →
        planWords E (Function.update rows (slotRow slot i) new) fp slot is = .ok rest := by
  induction is generalizing write rest with
  | nil => cases h
  | cons i is ih =>
    obtain ⟨hi, his⟩ := nodup_cons.mp hnodup
    obtain ⟨x, y, hx, hy, hxy⟩ := planWords_cons_eq_ok.mp h
    rcases x with - | ⟨first, others⟩
    · rw [nil_append] at hxy
      subst hxy
      obtain ⟨j, hj, hwrite, hzero, hwanted, hrest⟩ := ih his hy
      refine ⟨j, mem_cons_of_mem _ hj, hwrite, hzero, hwanted, fun new hnew ↦ ?_⟩
      refine planWords_cons_eq_ok.mpr ⟨[], rest, ?_, hrest new hnew, rfl⟩
      have hne : slotRow slot i ≠ slotRow slot j := by
        rw [Ne, slotRow_inj]
        rintro rfl
        exact hi hj
      rwa [planWord_congr (update_of_ne hne ..)]
    · obtain ⟨hfirst, rfl, hzero, hwanted⟩ := planWord_cons hx
      obtain ⟨rfl, rfl⟩ := List.cons.inj hxy
      refine ⟨i, mem_cons_self, hfirst, hzero, hwanted, fun new hnew ↦ ?_⟩
      refine planWords_cons_eq_ok.mpr ⟨[], rest, planWord_eq_nil.mpr ?_, ?_, rfl⟩
      · rwa [update_self]
      · rw [planWords_congr rows, hy]
        intro j hj
        exact update_of_ne (by rw [Ne, slotRow_inj]; rintro rfl; exact hi hj) ..

/-! ### The locks -/

/-- The write for a lock. -/
def lockPlan (row : ℕ) (old : Row) : List PlannedWrite :=
  if effectiveLock old ≠ 0x15 then programBits row old bootLock else []

/-- When the locks of the boot pages are planned. -/
theorem planLockRows_eq_ok :
    planLockRows (bootLocks.zip (bootLocks.map rows)) = .ok ws ↔
      Within (rows 0xf83) bootLock ∧ Within (rows 0xf85) bootLock ∧
        ws = lockPlan 0xf83 (rows 0xf83) ++ lockPlan 0xf85 (rows 0xf85) := by
  rw [Within.iff_and_not, Within.iff_and_not]
  show planLockRows [(0xf83, rows 0xf83), (0xf85, rows 0xf85)] = _ ↔ _
  rw [planLockRows]
  split
  · rename_i hfirst
    exact ⟨fun h ↦ (by cases h), fun h ↦ absurd h.1 hfirst⟩
  rename_i hfirst
  rw [planLockRows]
  split
  · rename_i hsecond
    exact ⟨fun h ↦ (by cases h), fun h ↦ absurd h.2.1 hsecond⟩
  rename_i hsecond
  constructor
  · intro h
    cases h
    exact ⟨not_not.mp hfirst, not_not.mp hsecond, by rw [append_nil]; rfl⟩
  · rintro ⟨-, -, rfl⟩
    rw [planLockRows, ok_bind]
    rw [append_nil]
    rfl

/-- All copies of a lock are programmed. -/
theorem lockPlan_bootLock (row : ℕ) : lockPlan row bootLock = [] :=
  if_neg (by decide)

theorem lockPlan_eq_nil (h : Within old bootLock) :
    lockPlan row old = [] ↔ effectiveLock old = 0x15 := by
  rw [lockPlan]
  split
  · rename_i hne
    rw [programBits_eq_nil]
    refine ⟨fun hall ↦ ?_, fun heq ↦ absurd heq hne⟩
    rw [h.antisymm hall]
    decide
  · rename_i heq
    exact ⟨fun _ ↦ not_not.mp heq, fun _ ↦ rfl⟩

theorem lockPlan_cons (h : Within old bootLock) (hplan : lockPlan row old = write :: rest) :
    write = .raw row bootLock ∧ rest = [] := by
  rw [lockPlan] at hplan
  split at hplan
  · rw [programBits, h] at hplan
    split at hplan
    · obtain ⟨rfl, rfl⟩ := List.cons.inj hplan
      exact ⟨rfl, rfl⟩
    · cases hplan
  · cases hplan

/-! ### One write -/

theorem burn_raw (h : ((PlannedWrite.raw row value).burn E rows burn).2 = true) :
    ((PlannedWrite.raw row value).burn E rows burn).1 = Function.update rows row value := by
  rw [PlannedWrite.burn] at h ⊢
  have hnew := (decide_eq_true_eq.mp h).2
  rw [hnew]

theorem burn_ecc {value : BitVec 16} (h : ((PlannedWrite.ecc row value).burn E rows burn).2 = true) :
    ∃ new, E.decode new = some value ∧
      ((PlannedWrite.ecc row value).burn E rows burn).1 = Function.update rows row new := by
  rw [PlannedWrite.burn] at h ⊢
  exact ⟨_, (decide_eq_true_eq.mp h).2, rfl⟩

theorem planMatched_eq_ok {state : BootState} {stage : ℕ → Except FirmwareError (List PlannedWrite)} :
    planMatched state fp stage = .ok ws ↔
      ∃ found, state.matches fp = [found] ∧ stage found = .ok ws := by
  rw [planMatched]
  split
  · rename_i found hfound
    rw [hfound]
    exact ⟨fun h ↦ ⟨found, rfl, h⟩, fun ⟨_, hother, h⟩ ↦ by cases hother; exact h⟩
  · rename_i hnone
    exact ⟨fun h ↦ (by cases h), fun ⟨found, hfound, _⟩ ↦ absurd hfound (hnone found)⟩

/-- What goes on after a write. -/
structure Continues (E : Ecc 24) (rows rows' : Rows) (action : SecurityAction) (fp : Bytes)
    (slot : ℕ) (rest : List PlannedWrite) : Prop where
  plan : planAction E rows' (bootState E rows') action fp slot = .ok rest
  keyLocks : keyLockRows.map rows' = keyLockRows.map rows
  pages : ∀ write ∈ rest,
    (bootState E rows').pageLocked write.row = (bootState E rows).pageLocked write.row

/-- A write below the locks. -/
theorem continues_of_lt (hrow : row < 0xf82)
    (hplan : planAction E (Function.update rows row value)
      (bootState E (Function.update rows row value)) action fp slot = .ok rest) :
    Continues E rows (Function.update rows row value) action fp slot rest where
  plan := hplan
  keyLocks := map_update_of_notMem fun hmem ↦ by
    rcases mem_keyLockRows hmem with rfl | rfl <;> omega
  pages write _ := by
    have hlocks : (bootState E (Function.update rows row value)).locks = (bootState E rows).locks :=
      map_update_of_notMem fun hmem ↦ by have := mem_bootLocks hmem; omega
    rw [BootState.pageLocked, BootState.pageLocked, hlocks]

theorem nodup_flagsRows : flagsRows.Nodup := by
  decide

theorem nodup_critRows : critRows.Nodup := by
  decide

/-- No copy says that the slot is revoked. -/
def NotRevoked (rows : Rows) (slot : ℕ) : Prop :=
  ¬ AnyCopy rows (slot + 8)

theorem planLoadKey_eq_ok (hslot : slot < 4) :
    planLoadKey E rows (bootState E rows) fp slot = .ok ws ↔
      NotRevoked rows slot ∧ ∃ words, planWords E rows fp slot (List.range 16) = .ok words ∧
        ws = words ++ copiesPlan rows flagsRows (bitValue slot) := by
  have hany : ((bootState E rows).flags.any fun value ↦ value &&& bitValue (slot + 8) ≠ 0) = true ↔
      AnyCopy rows (slot + 8) := by
    rw [any_eq_true, AnyCopy]
    show (∃ value ∈ flagsRows.map rows, _) ↔ _
    simp only [mem_map, exists_exists_and_eq_and, decide_eq_true_eq,
      and_bitValue_ne_zero (show slot + 8 < 24 by omega)]
  have hcopies : programCopies flagsRows (bootState E rows).flags (bitValue slot) =
      copiesPlan rows flagsRows (bitValue slot) :=
    programCopies_eq ..
  rw [planLoadKey, NotRevoked, ← hany, hcopies]
  split
  · rename_i hrevoked
    exact ⟨fun h ↦ (by cases h), fun h ↦ absurd hrevoked h.1⟩
  · rename_i hrevoked
    rcases planWords E rows fp slot (List.range 16) with e | words
    · exact ⟨fun h ↦ (by cases h), fun ⟨_, _, h, _⟩ ↦ by cases h⟩
    · exact ⟨fun h ↦ ⟨hrevoked, words, rfl, (Except.ok.inj h).symm⟩,
        fun ⟨_, _, hwords, hws⟩ ↦ by cases hwords; rw [hws]; rfl⟩

/-- The registration of a key goes on. -/
theorem loadKey_resumes (hslot : slot < 4)
    (h : planAction E rows (bootState E rows) .loadKey fp slot = .ok (write :: rest))
    (hok : (write.burn E rows burn).2 = true) :
    Continues E rows (write.burn E rows burn).1 .loadKey fp slot rest := by
  obtain ⟨hrevoked, words, hwords, hws⟩ := (planLoadKey_eq_ok hslot).mp h
  rcases words with - | ⟨first, others⟩
  · -- All words are there: what is written is a flag.
    obtain ⟨row, hrow, rfl, hrest⟩ := copiesPlan_cons nodup_flagsRows hws.symm
    rw [burn_raw hok]
    have hlt := mem_flagsRows hrow
    refine continues_of_lt (by omega) ((planLoadKey_eq_ok hslot).mpr ⟨?_, [], ?_, hrest.symm⟩)
    · rintro ⟨other, hother, hset⟩
      refine hrevoked ⟨other, hother, ?_⟩
      by_cases hsame : other = row
      · subst hsame
        rw [update_self, BitVec.getLsbD_or, BitVec.getLsbD_twoPow, Bool.or_eq_true,
          Bool.and_eq_true, decide_eq_true_eq, decide_eq_true_eq] at hset
        exact hset.resolve_right fun hbit ↦ by omega
      · rwa [update_of_ne hsame] at hset
    · rw [planWords_congr rows, hwords]
      intro i hi
      have hword := mem_slotRows (mem_map_of_mem hi : slotRow slot i ∈ slotRows slot)
      exact update_of_ne (by omega) ..
  · obtain ⟨rfl, rfl⟩ := List.cons.inj hws
    obtain ⟨i, hi, rfl, -, -, hnext⟩ := planWords_cons nodup_range hwords
    obtain ⟨new, hnew, hrows⟩ := burn_ecc hok
    have hword := mem_slotRows (mem_map_of_mem hi : slotRow slot i ∈ slotRows slot)
    have hflags : ∀ row ∈ flagsRows, Function.update rows (slotRow slot i) new row = rows row :=
      fun row hrow ↦ update_of_ne (by have := mem_flagsRows hrow; omega) ..
    rw [hrows]
    refine continues_of_lt (by omega) ((planLoadKey_eq_ok hslot).mpr
      ⟨?_, others, hnext new hnew, ?_⟩)
    · rintro ⟨other, hother, hset⟩
      rw [hflags other hother] at hset
      exact hrevoked ⟨other, hother, hset⟩
    · rw [copiesPlan_congr hflags]
      rfl

/-- A stage that programs one of the critical flags goes on. -/
theorem critical_resumes (hws : copiesPlan rows critRows bits = write :: rest)
    (hnext : ∀ row ∈ critRows, ∀ value, Within (rows row) value →
      planAction E (Function.update rows row value) (bootState E (Function.update rows row value))
      action fp slot = .ok (copiesPlan (Function.update rows row value) critRows bits))
    (hok : (write.burn E rows burn).2 = true) :
    Continues E rows (write.burn E rows burn).1 action fp slot rest := by
  obtain ⟨row, hrow, rfl, rfl⟩ := copiesPlan_cons nodup_critRows hws
  rw [burn_raw hok]
  have hlt := mem_critRows hrow
  exact continues_of_lt (by omega) (hnext row hrow _ (.left_or ..))

/-- The keys are the same after a write of a critical flag. -/
theorem sameKeys_critical (h : row ∈ critRows) :
    SameKeys rows (Function.update rows row value) := by
  have hrow := mem_critRows h
  exact .update (fun hmem ↦ by have := mem_flagsRows hmem; omega)
    fun slot _ hmem ↦ by have := mem_slotRows hmem; omega

theorem harden_eq_ok :
    planAction E rows (bootState E rows) .harden fp slot = .ok ws ↔
      (∃ found, (bootState E rows).matches fp = [found]) ∧
        ws = copiesPlan rows critRows hardenBits := by
  rw [planAction, planMatched_eq_ok]
  have hcopies : programCopies critRows (bootState E rows).critical hardenBits =
      copiesPlan rows critRows hardenBits :=
    programCopies_eq ..
  rw [hcopies]
  exact ⟨fun ⟨found, hfound, h⟩ ↦ ⟨⟨found, hfound⟩, (Except.ok.inj h).symm⟩,
    fun ⟨⟨found, hfound⟩, h⟩ ↦ ⟨found, hfound, by rw [h]⟩⟩

theorem harden_resumes
    (h : planAction E rows (bootState E rows) .harden fp slot = .ok (write :: rest))
    (hok : (write.burn E rows burn).2 = true) :
    Continues E rows (write.burn E rows burn).1 .harden fp slot rest := by
  obtain ⟨⟨found, hfound⟩, hws⟩ := harden_eq_ok.mp h
  refine critical_resumes hws.symm (fun row hrow value _ ↦ harden_eq_ok.mpr ⟨⟨found, ?_⟩, rfl⟩) hok
  rwa [← (sameKeys_critical hrow).matches_eq]

/-- The bits are in every row of `l`. -/
def AllHave (rows : Rows) (l : List ℕ) (bits : Row) : Prop :=
  ∀ row ∈ l, Within bits (rows row)

theorem any_lacks_iff :
    ((l.map rows).any fun value ↦ value &&& bits ≠ bits) = true ↔ ¬ AllHave rows l bits := by
  simp only [any_eq_true, mem_map, exists_exists_and_eq_and, decide_eq_true_eq, AllHave,
    Within.iff_and_eq, not_forall, exists_prop]

theorem AllHave.update (h : AllHave rows l bits) (hgrow : Within (rows row) value) :
    AllHave (Function.update rows row value) l bits := by
  intro other hother
  by_cases hsame : other = row
  · subst hsame
    rw [update_self]
    exact (h other hother).trans hgrow
  · rw [update_of_ne hsame]
    exact h other hother

/-- When the bit of the secure boot is planned. -/
theorem planEnable_eq_ok {found : ℕ} (hfound : found < 24) :
    planEnable (bootState E rows) found = .ok ws ↔
      AllHave rows critRows hardenBits ∧ AllCopies rows found ∧ ws = copiesPlan rows critRows 1 := by
  have hcritical : ((bootState E rows).critical.any fun value ↦ value &&& hardenBits ≠ hardenBits) =
      true ↔ ¬ AllHave rows critRows hardenBits :=
    any_lacks_iff
  have hflags : ((bootState E rows).flags.any fun value ↦ value &&& bitValue found = 0) = true ↔
      ¬ AllCopies rows found := by
    rw [any_eq_true, AllCopies]
    show (∃ value ∈ flagsRows.map rows, _) ↔ _
    simp only [mem_map, exists_exists_and_eq_and, decide_eq_true_eq, not_forall, exists_prop,
      ← and_bitValue_ne_zero hfound, not_not]
  have hcopies : programCopies critRows (bootState E rows).critical 1 = copiesPlan rows critRows 1 :=
    programCopies_eq ..
  rw [planEnable, hcopies]
  split
  · rename_i hlacks
    exact ⟨fun h ↦ (by cases h), fun h ↦ absurd h.1 (hcritical.mp hlacks)⟩
  rename_i hhas
  split
  · rename_i hlacks
    exact ⟨fun h ↦ (by cases h), fun h ↦ absurd h.2.1 (hflags.mp hlacks)⟩
  rename_i hall
  exact ⟨fun h ↦ ⟨not_not.mp (mt hcritical.mpr hhas), not_not.mp (mt hflags.mpr hall),
    (Except.ok.inj h).symm⟩, fun h ↦ by rw [h.2.2]⟩

/-- The slots that match are those that are trusted with the fingerprint. -/
theorem mem_matches :
    slot ∈ (bootState E rows).matches fp ↔
      readWords E rows (slotRows slot) = some fp ∧ Trusted rows slot := by
  rw [BootState.matches, mem_filter, mem_range, decide_eq_true_eq]
  constructor
  · rintro ⟨hslot, hfp, htrusted⟩
    refine ⟨?_, trusted_getLsbD.mp ((and_bitValue_ne_zero (by omega)).mp htrusted)⟩
    rwa [bootState, getD_eq_getElem _ _ (by simpa using hslot), getElem_map, getElem_range] at hfp
  · rintro ⟨hfp, htrusted⟩
    have hslot := htrusted.1
    refine ⟨hslot, ?_, (and_bitValue_ne_zero (by omega)).mpr (trusted_getLsbD.mpr htrusted)⟩
    rwa [bootState, getD_eq_getElem _ _ (by simpa using hslot), getElem_map, getElem_range]

theorem enable_eq_ok :
    planAction E rows (bootState E rows) .enable fp slot = .ok ws ↔
      (∃ found, (bootState E rows).matches fp = [found] ∧ AllCopies rows found) ∧
        AllHave rows critRows hardenBits ∧ ws = copiesPlan rows critRows 1 := by
  rw [planAction, planMatched_eq_ok]
  have hlt : ∀ {found}, (bootState E rows).matches fp = [found] → found < 24 := fun h ↦ by
    have hmem := mem_matches.mp (h ▸ mem_singleton_self _)
    exact hmem.2.1.trans (by decide)
  constructor
  · rintro ⟨found, hfound, h⟩
    obtain ⟨hharden, hall, hws⟩ := (planEnable_eq_ok (hlt hfound)).mp h
    exact ⟨⟨found, hfound, hall⟩, hharden, hws⟩
  · rintro ⟨⟨found, hfound, hall⟩, hharden, hws⟩
    exact ⟨found, hfound, (planEnable_eq_ok (hlt hfound)).mpr ⟨hharden, hall, hws⟩⟩

theorem enable_resumes
    (h : planAction E rows (bootState E rows) .enable fp slot = .ok (write :: rest))
    (hok : (write.burn E rows burn).2 = true) :
    Continues E rows (write.burn E rows burn).1 .enable fp slot rest := by
  obtain ⟨⟨found, hfound, hall⟩, hharden, hws⟩ := enable_eq_ok.mp h
  refine critical_resumes hws.symm (fun row hrow value hgrow ↦
    enable_eq_ok.mpr ⟨⟨found, ?_, ?_⟩, hharden.update hgrow, rfl⟩) hok
  · rwa [← (sameKeys_critical hrow).matches_eq]
  · intro other hother
    rw [← (sameKeys_critical hrow).flags other hother]
    exact hall other hother

/-! ### The last stage -/

/-- The flags that revoke every slot that is not trusted. -/
def revokeBits (E : Ecc 24) (rows : Rows) : Row :=
  (15 ^^^ (bootState E rows).trusted) <<< 8

theorem revokeBits_congr (h : (bootState E rows').trusted = (bootState E rows).trusted) :
    revokeBits E rows' = revokeBits E rows := by
  rw [revokeBits, revokeBits, h]

/-- A bit that revokes is one of a slot that is not trusted. -/
theorem revokeBits_getLsbD :
    (revokeBits E rows).getLsbD bit = true ↔ 8 ≤ bit ∧ bit < 12 ∧ ¬ Trusted rows (bit - 8) := by
  have htrusted : (bootState E rows).trusted.getLsbD (bit - 8) = decide (Trusted rows (bit - 8)) := by
    rw [Bool.eq_iff_iff, trusted_getLsbD, decide_eq_true_eq]
  rw [revokeBits, BitVec.getLsbD_shiftLeft, BitVec.getLsbD_xor, getLsbD_fifteen, htrusted]
  simp only [Bool.and_eq_true, decide_eq_true_eq, Bool.not_eq_true', decide_eq_false_iff_not,
    bne_iff_ne, ne_eq, decide_eq_decide]
  constructor
  · rintro ⟨⟨-, hge⟩, hne⟩
    by_cases htrust : Trusted rows (bit - 8)
    · have hlt := htrust.1
      exact absurd (iff_of_true hlt htrust) hne
    · exact ⟨by omega, by by_contra hlarge; exact hne (iff_of_false (by omega) htrust), htrust⟩
  · rintro ⟨hge, hlt, htrust⟩
    exact ⟨⟨by omega, by omega⟩, fun hiff ↦ htrust (hiff.mp (by omega))⟩

/-- Rows whose flags have more bits for the slots that are not trusted. -/
structure Revokes (rows rows' : Rows) : Prop where
  grows : ∀ row, Within (rows row) (rows' row)
  bits : ∀ row ∈ flagsRows, ∀ bit, (rows' row).getLsbD bit = true →
    (rows row).getLsbD bit = true ∨ 8 ≤ bit ∧ ¬ Trusted rows (bit - 8)

/-- Revoking slots that are not trusted leaves the same slots trusted. -/
theorem Revokes.trusted_iff (h : Revokes rows rows') : Trusted rows' slot ↔ Trusted rows slot := by
  -- A flag that is not one of those that revoke is the same in every copy.
  have hsame : ∀ bit < 24, (8 ≤ bit → Trusted rows (bit - 8)) → Voted rows' bit → Voted rows bit := by
    intro bit hbit hkeep hvoted
    rw [voted_iff hbit, countP_map] at hvoted ⊢
    refine hvoted.trans (countP_mono_left fun row hrow hset ↦ ?_)
    exact (h.bits row hrow bit hset).resolve_right fun hnew ↦ hnew.2 (hkeep hnew.1)
  constructor
  · rintro ⟨hslot, hvalid, hrevoked⟩
    refine ⟨hslot, hsame slot (by omega) (fun hge ↦ by omega) hvalid, fun hvoted ↦ ?_⟩
    exact hrevoked (hvoted.mono (by omega) h.grows)
  · rintro ⟨hslot, hvalid, hrevoked⟩
    refine ⟨hslot, hvalid.mono (by omega) h.grows, fun hvoted ↦ hrevoked ?_⟩
    refine hsame (slot + 8) (by omega) (fun _ ↦ ?_) hvoted
    rw [Nat.add_sub_cancel]
    exact ⟨hslot, hvalid, hrevoked⟩

theorem trusted_eq_of_iff (h : ∀ slot, Trusted rows' slot ↔ Trusted rows slot) :
    (bootState E rows').trusted = (bootState E rows).trusted :=
  BitVec.eq_of_getLsbD_eq fun slot _ ↦ by
    rw [Bool.eq_iff_iff, trusted_getLsbD, trusted_getLsbD, h]

/-- What is programmed to revoke, or a part of it. -/
theorem revokes_update {new : Row} (hold : Within (rows row) new)
    (hnew : Within new (rows row ||| revokeBits E rows)) :
    Revokes rows (Function.update rows row new) where
  grows other := by
    by_cases hsame : other = row
    · subst hsame
      rwa [update_self]
    · rw [update_of_ne hsame]
      exact .refl _
  bits other _ bit hset := by
    by_cases hsame : other = row
    · subst hsame
      rw [update_self] at hset
      have hbit := within_iff.mp hnew bit hset
      rw [BitVec.getLsbD_or, Bool.or_eq_true, revokeBits_getLsbD] at hbit
      exact hbit.imp_right fun hrevoke ↦ ⟨hrevoke.1, hrevoke.2.2⟩
    · rw [update_of_ne hsame] at hset
      exact .inl hset

/-- When the lock is accepted: one key is trusted, and it is the one that is given. -/
theorem lock_eq_ok :
    planAction E rows (bootState E rows) .lock fp slot = .ok ws ↔
      (∃ found, (bootState E rows).matches fp = [found] ∧
        (bootState E rows).trusted = bitValue found) ∧ AllHave rows critRows 0x75 ∧
      Within (rows 0xf83) bootLock ∧ Within (rows 0xf85) bootLock ∧
      ws = copiesPlan rows flagsRows (revokeBits E rows) ++
        (lockPlan 0xf83 (rows 0xf83) ++ lockPlan 0xf85 (rows 0xf85)) := by
  have hcritical : ((bootState E rows).critical.any fun value ↦ value &&& 0x75 ≠ 0x75) = true ↔
      ¬ AllHave rows critRows 0x75 :=
    any_lacks_iff
  have hcopies : programCopies flagsRows (bootState E rows).flags (revokeBits E rows) =
      copiesPlan rows flagsRows (revokeBits E rows) :=
    programCopies_eq ..
  rw [planAction, planMatched_eq_ok]
  constructor
  · rintro ⟨found, hfound, h⟩
    rw [planLock] at h
    split at h
    · cases h
    rename_i hhas
    split at h
    · cases h
    rename_i htrusted
    rcases hlocks : planLockRows (bootLocks.zip (bootState E rows).locks) with e | locks
    · rw [hlocks] at h
      cases h
    · rw [hlocks] at h
      obtain ⟨hfirst, hsecond, rfl⟩ := planLockRows_eq_ok.mp hlocks
      refine ⟨⟨found, hfound, not_not.mp htrusted⟩, not_not.mp (mt hcritical.mpr hhas), hfirst,
        hsecond, ?_⟩
      exact (Except.ok.inj h).symm
  · rintro ⟨⟨found, hfound, htrusted⟩, hhas, hfirst, hsecond, hws⟩
    have hlocks : planLockRows (bootLocks.zip (bootState E rows).locks) = _ :=
      planLockRows_eq_ok.mpr ⟨hfirst, hsecond, rfl⟩
    refine ⟨found, hfound, ?_⟩
    rw [planLock, if_neg (fun h ↦ hcritical.mp h hhas), if_neg (not_not.mpr htrusted), hlocks, hws,
      ← hcopies]
    rfl

/-- The page of a lock that is written is not needed any more, but for that of the second. -/
theorem lock_page_second (h : row = 0xf83) :
    (bootState E (Function.update rows row value)).pageLocked 0xf85 =
      (bootState E rows).pageLocked 0xf85 := by
  subst h
  have hsame : Function.update rows 0xf83 value 0xf85 = rows 0xf85 :=
    update_of_ne (by decide) ..
  show decide (effectiveLock (Function.update rows 0xf83 value 0xf85) &&& 0x30 ≠ 0) = _
  rw [hsame]
  rfl

/-- The last stage goes on. -/
theorem lock_resumes (h : planAction E rows (bootState E rows) .lock fp slot = .ok (write :: rest))
    (hok : (write.burn E rows burn).2 = true) :
    Continues E rows (write.burn E rows burn).1 .lock fp slot rest := by
  obtain ⟨⟨found, hfound, htrusted⟩, hhas, hfirst, hsecond, hws⟩ := lock_eq_ok.mp h
  rcases hcopies : copiesPlan rows flagsRows (revokeBits E rows) with - | ⟨first, others⟩
  · -- All slots are revoked: what is written is a lock.
    have hdone : ∀ row value, 0xf83 ≤ row →
        copiesPlan (Function.update rows row value) flagsRows
          (revokeBits E (Function.update rows row value)) = [] ∧
        (bootState E (Function.update rows row value)).matches fp = [found] ∧
        (bootState E (Function.update rows row value)).trusted = bitValue found ∧
        AllHave (Function.update rows row value) critRows 0x75 := by
      intro row value hrow
      have hkeys : SameKeys rows (Function.update rows row value) :=
        .update (fun hmem ↦ by have := mem_flagsRows hmem; omega)
          fun slot _ hmem ↦ by have := mem_slotRows hmem; omega
      refine ⟨?_, ?_, ?_, fun other hother ↦ ?_⟩
      · rw [revokeBits_congr hkeys.trusted.symm, ← hcopies]
        exact copiesPlan_congr fun other hother ↦ (hkeys.flags other hother).symm
      · rwa [← hkeys.matches_eq]
      · rwa [← hkeys.trusted]
      · rw [update_of_ne (by have := mem_critRows hother; omega)]
        exact hhas other hother
    rw [hcopies, nil_append] at hws
    rcases hlock : lockPlan 0xf83 (rows 0xf83) with - | ⟨lockWrite, none⟩
    · rw [hlock, nil_append] at hws
      obtain ⟨rfl, rfl⟩ := lockPlan_cons hsecond hws.symm
      rw [burn_raw hok]
      obtain ⟨hnil, hmatch, htrust, hcrit⟩ := hdone 0xf85 bootLock (by decide)
      have hother : Function.update rows 0xf85 bootLock 0xf83 = rows 0xf83 :=
        update_of_ne (by decide) ..
      refine ⟨lock_eq_ok.mpr ⟨⟨found, hmatch, htrust⟩, hcrit, ?_, ?_, ?_⟩,
        map_update_of_notMem (by decide), fun write hwrite ↦ by cases hwrite⟩
      · rwa [hother]
      · rw [update_self]
        exact .refl _
      · rw [hnil, hother, hlock, update_self, lockPlan_bootLock]
        rfl
    · obtain ⟨rfl, rfl⟩ := lockPlan_cons hfirst hlock
      rw [hlock] at hws
      obtain ⟨rfl, rfl⟩ := List.cons.inj hws
      rw [burn_raw hok]
      obtain ⟨hnil, hmatch, htrust, hcrit⟩ := hdone 0xf83 bootLock (by decide)
      have hother : Function.update rows 0xf83 bootLock 0xf85 = rows 0xf85 :=
        update_of_ne (by decide) ..
      refine ⟨lock_eq_ok.mpr ⟨⟨found, hmatch, htrust⟩, hcrit, ?_, ?_, ?_⟩,
        map_update_of_notMem (by decide), fun write hwrite ↦ ?_⟩
      · rw [update_self]
        exact .refl _
      · rwa [hother]
      · rw [hnil, hother, update_self, lockPlan_bootLock]
        rfl
      · rcases hsecondLock : lockPlan 0xf85 (rows 0xf85) with - | ⟨last, none⟩
        · rw [hsecondLock] at hwrite
          cases hwrite
        · obtain ⟨rfl, rfl⟩ := lockPlan_cons hsecond hsecondLock
          rw [hsecondLock] at hwrite
          obtain rfl := mem_singleton.mp hwrite
          exact lock_page_second rfl
  · rw [hcopies] at hws
    obtain ⟨rfl, rfl⟩ := List.cons.inj hws
    obtain ⟨row, hrow, rfl, hrest⟩ := copiesPlan_cons nodup_flagsRows hcopies
    rw [burn_raw hok]
    have hlt := mem_flagsRows hrow
    have hrevokes : Revokes rows (Function.update rows row (rows row ||| revokeBits E rows)) :=
      revokes_update (.left_or ..) (.refl _)
    have htrust := trusted_eq_of_iff (E := E) fun _ ↦ hrevokes.trusted_iff
    have hmatch : (bootState E (Function.update rows row (rows row ||| revokeBits E rows))).matches fp =
        (bootState E rows).matches fp := by
      rw [BootState.matches, BootState.matches, htrust]
      rw [fps_update (show row < 0x80 by omega)]
    have hlocks : ∀ lock, 0xf83 ≤ lock →
        Function.update rows row (rows row ||| revokeBits E rows) lock = rows lock :=
      fun lock hlock ↦ update_of_ne (by omega) ..
    refine continues_of_lt (by omega) (lock_eq_ok.mpr ⟨⟨found, hmatch.trans hfound,
      htrust.trans htrusted⟩, fun other hother ↦ ?_, ?_, ?_, ?_⟩)
    · rw [update_of_ne (by have := mem_critRows hother; omega)]
      exact hhas other hother
    · rwa [hlocks 0xf83 (by decide)]
    · rwa [hlocks 0xf85 (by decide)]
    · rw [hlocks 0xf83 (by decide), hlocks 0xf85 (by decide), revokeBits_congr htrust, hrest]
      rfl

/-! ### The plan of a stage -/

/-- A fingerprint. -/
def ValidKey (fp : Bytes) : Prop :=
  fp.length = 32 ∧ ¬ fp.all (· = 0) = true

/-- When a stage is accepted, and what it writes. -/
theorem securityPlan_eq_ok :
    securityPlan E rows action fp slot = .ok ws ↔
      (slot < 4 ∧ ValidKey fp) ∧ (∀ row ∈ keyLockRows, rows row = 0) ∧
      planAction E rows (bootState E rows) action fp slot = .ok ws ∧
      ∀ write ∈ ws, (bootState E rows).pageLocked write.row = false := by
  have hkeys : (bootState E rows).keyLocks.any (· ≠ 0) = true ↔
      ¬ ∀ row ∈ keyLockRows, rows row = 0 := by
    rw [any_eq_true]
    show (∃ value ∈ keyLockRows.map rows, _) ↔ _
    simp only [mem_map, exists_exists_and_eq_and, decide_eq_true_eq, not_forall, exists_prop]
  rw [securityPlan, ValidKey]
  split
  · rename_i hinvalid
    refine ⟨fun h ↦ (by cases h), fun ⟨⟨hslot, hlen, hne⟩, _⟩ ↦ absurd hinvalid ?_⟩
    exact not_or.mpr ⟨not_not.mpr hslot, not_or.mpr ⟨not_not.mpr hlen, hne⟩⟩
  rename_i hvalid
  rw [not_or, not_or, not_not, not_not] at hvalid
  split
  · rename_i hpolicy
    exact ⟨fun h ↦ (by cases h), fun ⟨_, hzero, _⟩ ↦ absurd hzero (hkeys.mp hpolicy)⟩
  rename_i hpolicy
  rcases planAction E rows (bootState E rows) action fp slot with e | writes
  · exact ⟨fun h ↦ (by cases h), fun ⟨_, _, h, _⟩ ↦ (by cases h)⟩
  rw [ok_bind]
  split
  · rename_i hlocked
    refine ⟨fun h ↦ (by cases h), fun ⟨_, _, h, hopen⟩ ↦ ?_⟩
    obtain rfl := Except.ok.inj h
    obtain ⟨write, hwrite, hpage⟩ := any_eq_true.mp hlocked
    rw [hopen write hwrite] at hpage
    cases hpage
  · rename_i hopen
    constructor
    · intro h
      obtain rfl := Except.ok.inj h
      refine ⟨hvalid, not_not.mp (mt hkeys.mpr hpolicy), rfl, fun write hwrite ↦ ?_⟩
      exact Bool.eq_false_iff.mpr fun hpage ↦ hopen (any_eq_true.mpr ⟨write, hwrite, hpage⟩)
    · rintro ⟨-, -, h, -⟩
      exact h

/-- **A stage goes on where it stopped.** -/
theorem securityPlan_resumes (E : Ecc 24) (action : SecurityAction) (fp : Bytes) (slot : ℕ) :
    Plan.Resumes (PlannedWrite.burn E) fun rows ↦ securityPlan E rows action fp slot := by
  intro rows write rest burn hplan hok
  obtain ⟨⟨hslot, hvalid⟩, hzero, hwrites, hopen⟩ := securityPlan_eq_ok.mp hplan
  have hnext : Continues E rows (write.burn E rows burn).1 action fp slot rest := by
    cases action with
    | loadKey => exact loadKey_resumes hslot hwrites hok
    | harden => exact harden_resumes hwrites hok
    | enable => exact enable_resumes hwrites hok
    | lock => exact lock_resumes hwrites hok
  refine securityPlan_eq_ok.mpr ⟨⟨hslot, hvalid⟩, fun row hrow ↦ ?_, hnext.plan, fun other hother ↦ ?_⟩
  · rw [map_inj_left.mp hnext.keyLocks row hrow]
    exact hzero row hrow
  · rw [hnext.pages other hother]
    exact hopen other (mem_cons_of_mem _ hother)

/-! ### What a stage is for -/

/-- The state that a stage is to reach. -/
def Target (E : Ecc 24) (rows : Rows) (action : SecurityAction) (fp : Bytes) (slot : ℕ) : Prop :=
  match action with
  | .loadKey => readWords E rows (slotRows slot) = some fp ∧ AllCopies rows slot
  | .harden => AllHave rows critRows hardenBits
  | .enable => AllHave rows critRows 1
  | .lock => (∀ other < 4, ¬ Trusted rows other → AllCopies rows (other + 8)) ∧
      effectiveLock (rows 0xf83) = 0x15 ∧ effectiveLock (rows 0xf85) = 0x15

/-! #### A fingerprint and its words -/

theorem wordBytes_wantedWord (fp : Bytes) (i : ℕ) :
    wordBytes (wantedWord fp i) = [fp.getD (2 * i) 0, fp.getD (2 * i + 1) 0] := by
  have hlow := (fp.getD (2 * i) 0).toNat_lt
  have hhigh := (fp.getD (2 * i + 1) 0).toNat_lt
  have hword : (wantedWord fp i).toNat =
      (fp.getD (2 * i) 0).toNat + 256 * (fp.getD (2 * i + 1) 0).toNat := by
    rw [wantedWord, BitVec.toNat_ofNat, mod_eq_of_lt (by omega)]
  rw [wordBytes, hword]
  refine congrArg₂ (fun low high ↦ [low, high]) (UInt8.toNat_inj.mp ?_) (UInt8.toNat_inj.mp ?_)
  · rw [UInt8.toNat_ofNat']
    omega
  · rw [UInt8.toNat_ofNat']
    omega

theorem wordBytes_inj {v w : BitVec 16} (h : wordBytes v = wordBytes w) : v = w := by
  have hlow := congrArg UInt8.toNat (List.cons.inj h).1
  have hhigh := congrArg UInt8.toNat (List.cons.inj (List.cons.inj h).2).1
  rw [UInt8.toNat_ofNat', UInt8.toNat_ofNat'] at hlow hhigh
  exact BitVec.eq_of_toNat_eq (by omega)

theorem flatMap_wordBytes {n : ℕ} (h : fp.length = 2 * n) :
    (List.range n).flatMap (fun i ↦ wordBytes (wantedWord fp i)) = fp := by
  simp only [wordBytes_wantedWord]
  induction n generalizing fp with
  | zero => exact (eq_nil_of_length_eq_zero h).symm
  | succ n ih =>
    rcases fp with - | ⟨a, - | ⟨b, fp⟩⟩
    · cases h
    · simp only [length_cons, length_nil] at h
      omega
    · rw [range_succ_eq_map, flatMap_cons, flatMap_map]
      have hlength : fp.length = 2 * n := by
        simp only [length_cons] at h
        omega
      have hrest := ih hlength
      exact congrArg (a :: b :: ·) hrest

/-- A slot holds a fingerprint when its words are the wanted ones. -/
theorem readWords_eq_some (hlen : fp.length = 32) :
    readWords E rows (slotRows slot) = some fp ↔
      ∀ i ∈ List.range 16, E.decode (rows (slotRow slot i)) = some (wantedWord fp i) := by
  suffices h : ∀ is : List ℕ,
      readWords E rows (is.map (slotRow slot)) =
          some (is.flatMap fun i ↦ wordBytes (wantedWord fp i)) ↔
        ∀ i ∈ is, E.decode (rows (slotRow slot i)) = some (wantedWord fp i) by
    rw [← h, flatMap_wordBytes hlen]
    rfl
  intro is
  induction is with
  | nil => simp [readWords]
  | cons i is ih =>
    rw [forall_mem_cons, ← ih, map_cons, readWords, flatMap_cons]
    rcases E.decode (rows (slotRow slot i)) with - | word
    · simp
    rcases readWords E rows (is.map (slotRow slot)) with - | bytes
    · simp
    show some (wordBytes word ++ bytes) = _ ↔ _
    rw [Option.some.injEq, Option.some.injEq, Option.some.injEq]
    constructor
    · intro h
      obtain ⟨hword, hbytes⟩ := append_inj h rfl
      exact ⟨wordBytes_inj hword, hbytes⟩
    · rintro ⟨rfl, rfl⟩
      rfl

theorem copiesPlan_bit_eq_nil (h : bit < 24) :
    copiesPlan rows flagsRows (bitValue bit) = [] ↔ AllCopies rows bit := by
  rw [copiesPlan_eq_nil, AllCopies]
  exact forall₂_congr fun row _ ↦ within_bitValue h

theorem copiesPlan_revoke_eq_nil :
    copiesPlan rows flagsRows (revokeBits E rows) = [] ↔
      ∀ other < 4, ¬ Trusted rows other → AllCopies rows (other + 8) := by
  rw [copiesPlan_eq_nil]
  constructor
  · intro h other hother htrust row hrow
    refine within_iff.mp (h row hrow) (other + 8) (revokeBits_getLsbD.mpr ⟨by omega, by omega, ?_⟩)
    rwa [Nat.add_sub_cancel]
  · intro h row hrow
    refine within_iff.mpr fun bit hbit ↦ ?_
    obtain ⟨hge, hlt, htrust⟩ := revokeBits_getLsbD.mp hbit
    have hcopy := h (bit - 8) (by omega) htrust row hrow
    rwa [Nat.sub_add_cancel hge] at hcopy

/-- **The plan is empty exactly when the target is reached.** -/
theorem securityPlan_nil_iff (h : securityPlan E rows action fp slot = .ok ws) :
    ws = [] ↔ Target E rows action fp slot := by
  obtain ⟨⟨hslot, hlen, -⟩, -, hwrites, -⟩ := securityPlan_eq_ok.mp h
  cases action with
  | loadKey =>
    obtain ⟨-, words, hwords, rfl⟩ := (planLoadKey_eq_ok hslot).mp hwrites
    rw [append_eq_nil_iff, copiesPlan_bit_eq_nil (by omega), Target, readWords_eq_some hlen,
      ← planWords_eq_nil, hwords, Except.ok.injEq]
  | harden =>
    obtain ⟨-, rfl⟩ := harden_eq_ok.mp hwrites
    exact copiesPlan_eq_nil
  | enable =>
    obtain ⟨-, -, rfl⟩ := enable_eq_ok.mp hwrites
    exact copiesPlan_eq_nil
  | lock =>
    obtain ⟨-, -, hfirst, hsecond, rfl⟩ := lock_eq_ok.mp hwrites
    rw [append_eq_nil_iff, append_eq_nil_iff, copiesPlan_revoke_eq_nil,
      lockPlan_eq_nil hfirst, lockPlan_eq_nil hsecond, Target]

end PicoAll.Firmware
