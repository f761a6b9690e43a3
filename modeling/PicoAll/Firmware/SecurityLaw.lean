import PicoAll.Firmware.SecurityPlan

/-!
# Secure Boot is never required without its key

What holds in every state that the stages reach, however they are interrupted: a slot that is called
valid holds a key that was loaded, a trusted slot stays trusted, and where Secure Boot is required the
key that was asked for is trusted. The invariant is kept by the first write of every plan.
-/

namespace PicoAll.Firmware

open OneTime Otp FaultProgram List Function Bool

variable {E : Ecc 24} {rows rows' : Rows} {fp : Bytes} {slot : ℕ}

/-! ### The first write of a plan -/

/-- What the first write of a plan can be. -/
inductive FirstWrite (E : Ecc 24) (rows : Rows) (fp : Bytes) (slot : ℕ) :
    SecurityAction → PlannedWrite → Prop
  | word (i : ℕ) (hi : i < 16) (hzero : rows (slotRow slot i) = 0) (hwanted : wantedWord fp i ≠ 0)
    (hagree : ∀ j < 16, rows (slotRow slot j) = 0 ∨
      E.decode (rows (slotRow slot j)) = some (wantedWord fp j)) :
    FirstWrite E rows fp slot .loadKey (.ecc (slotRow slot i) (wantedWord fp i))
  | valid (row : ℕ) (hrow : row ∈ flagsRows) (hrevoked : NotRevoked rows slot)
    (hwords : readWords E rows (slotRows slot) = some fp) :
    FirstWrite E rows fp slot .loadKey (.raw row (rows row ||| bitValue slot))
  | harden (row : ℕ) (hrow : row ∈ critRows) :
    FirstWrite E rows fp slot .harden (.raw row (rows row ||| hardenBits))
  | enable (row : ℕ) (hrow : row ∈ critRows) (found : ℕ)
    (hwords : readWords E rows (slotRows found) = some fp) (htrusted : Trusted rows found) :
    FirstWrite E rows fp slot .enable (.raw row (rows row ||| 1))
  | revoke (row : ℕ) (hrow : row ∈ flagsRows) :
    FirstWrite E rows fp slot .lock (.raw row (rows row ||| revokeBits E rows))
  | lock (row : ℕ) (hrow : row ∈ bootLocks) (hwithin : Within (rows row) bootLock)
    (hrevoked : ∀ other < 4, ¬ Trusted rows other → AllCopies rows (other + 8)) :
    FirstWrite E rows fp slot .lock (.raw row (rows row ||| bootLock))

theorem agree_of_planWords {is : List ℕ} {ws : List PlannedWrite}
    (h : planWords E rows fp slot is = .ok ws) :
    ∀ j ∈ is, rows (slotRow slot j) = 0 ∨ E.decode (rows (slotRow slot j)) = some (wantedWord fp j) := by
  induction is generalizing ws with
  | nil => exact fun j hj ↦ by cases hj
  | cons i is ih =>
    obtain ⟨x, y, hx, hy, -⟩ := planWords_cons_eq_ok.mp h
    refine forall_mem_cons.mpr ⟨?_, ih hy⟩
    rcases x with - | ⟨write, rest⟩
    · exact .inr (planWord_eq_nil.mp hx)
    · exact .inl (planWord_cons hx).2.2.1

variable {action : SecurityAction} {write : PlannedWrite} {row : ℕ} {stages : List SecurityStage}

/-- The first write of a plan, by stage. -/
theorem firstWrite_of_plan {rest : List PlannedWrite}
    (h : securityPlan E rows action fp slot = .ok (write :: rest)) :
    FirstWrite E rows fp slot action write := by
  obtain ⟨⟨hslot, hlen, -⟩, -, hwrites, -⟩ := securityPlan_eq_ok.mp h
  cases action with
  | loadKey =>
    obtain ⟨hrevoked, words, hwords, hws⟩ := (planLoadKey_eq_ok hslot).mp hwrites
    rcases words with - | ⟨first, others⟩
    · rw [nil_append] at hws
      obtain ⟨row, hrow, rfl, -⟩ := copiesPlan_cons nodup_flagsRows hws.symm
      exact .valid row hrow hrevoked ((readWords_eq_some hlen).mpr (planWords_eq_nil.mp hwords))
    · obtain ⟨rfl, -⟩ := List.cons.inj hws
      obtain ⟨i, hi, rfl, hzero, hwanted, -⟩ := planWords_cons nodup_range hwords
      exact .word i (mem_range.mp hi) hzero hwanted fun j hj ↦
        agree_of_planWords hwords j (mem_range.mpr hj)
  | harden =>
    obtain ⟨-, hws⟩ := harden_eq_ok.mp hwrites
    obtain ⟨row, hrow, rfl, -⟩ := copiesPlan_cons nodup_critRows hws.symm
    exact .harden row hrow
  | enable =>
    obtain ⟨⟨found, hfound, -⟩, -, hws⟩ := enable_eq_ok.mp hwrites
    obtain ⟨row, hrow, rfl, -⟩ := copiesPlan_cons nodup_critRows hws.symm
    obtain ⟨hwords, htrusted⟩ := mem_matches.mp (hfound ▸ mem_singleton_self found)
    exact .enable row hrow found hwords htrusted
  | lock =>
    obtain ⟨-, -, hfirst, hsecond, hws⟩ := lock_eq_ok.mp hwrites
    rcases hcopies : copiesPlan rows flagsRows (revokeBits E rows) with - | ⟨first, others⟩
    · have hrevoked := copiesPlan_revoke_eq_nil.mp hcopies
      rw [hcopies, nil_append] at hws
      rcases hlock : lockPlan 0xf83 (rows 0xf83) with - | ⟨lockWrite, none⟩
      · rw [hlock, nil_append] at hws
        obtain ⟨rfl, -⟩ := lockPlan_cons hsecond hws.symm
        have hwrite : FirstWrite E rows fp slot _ _ :=
          .lock 0xf85 (by decide) hsecond hrevoked
        rwa [show rows 0xf85 ||| bootLock = bootLock from hsecond] at hwrite
      · obtain ⟨rfl, rfl⟩ := lockPlan_cons hfirst hlock
        rw [hlock] at hws
        obtain ⟨rfl, -⟩ := List.cons.inj hws
        have hwrite : FirstWrite E rows fp slot _ _ :=
          .lock 0xf83 (by decide) hfirst hrevoked
        rwa [show rows 0xf83 ||| bootLock = bootLock from hfirst] at hwrite
    · rw [hcopies] at hws
      obtain ⟨rfl, -⟩ := List.cons.inj hws
      obtain ⟨row, hrow, rfl, -⟩ := copiesPlan_cons nodup_flagsRows hcopies
      exact .revoke row hrow

/-! ### What a write leaves -/

/-- A row that has got some of the bits. -/
structure Grown (rows rows' : Rows) (row : ℕ) (bits : Row) : Prop where
  others : ∀ other, other ≠ row → rows' other = rows other
  old : Within (rows row) (rows' row)
  new : Within (rows' row) (rows row ||| bits)

theorem grown_of_burn (E : Ecc 24) (rows : Rows) (row : ℕ) (bits : Row) (burn : Burn 24) :
    Grown rows ((PlannedWrite.raw row (rows row ||| bits)).burn E rows burn).1 row bits := by
  have hvalue : rows row ||| (rows row ||| bits) = rows row ||| bits := by
    rw [← BitVec.or_assoc, BitVec.or_self]
  refine ⟨fun other hother ↦ update_of_ne hother .., ?_, ?_⟩
  · show Within _ (Function.update rows row _ row)
    rw [update_self]
    exact burn.within_result
  · show Within (Function.update rows row _ row) _
    rw [update_self]
    have hresult : Within (burn.result (fun _ ↦ false) (rows row) (rows row ||| bits)) _ :=
      Burn.result_within rfl
    rwa [hvalue] at hresult

namespace Grown

variable {row : ℕ} {bits : Row}

section

variable (h : Grown rows rows' row bits)
include h

theorem grows (other : ℕ) : Within (rows other) (rows' other) := by
  by_cases hsame : other = row
  · subst hsame
    exact h.old
  · rw [h.others other hsame]
    exact .refl _

/-- A bit that is new is one of those that were programmed. -/
theorem bit {other bit : ℕ} (hset : (rows' other).getLsbD bit = true) :
    (rows other).getLsbD bit = true ∨ other = row ∧ bits.getLsbD bit = true := by
  by_cases hsame : other = row
  · subst hsame
    have hor := within_iff.mp h.new bit hset
    rw [BitVec.getLsbD_or, or_eq_true] at hor
    exact hor.imp_right fun hbit ↦ ⟨rfl, hbit⟩
  · rw [h.others other hsame] at hset
    exact .inl hset

theorem sameKeys (hflags : row ∉ flagsRows)
    (hwords : ∀ slot < 4, row ∉ slotRows slot) : SameKeys rows rows' where
  flags other hother := (h.others other (by rintro rfl; exact hflags hother)).symm
  words slot hslot other hother := (h.others other (by rintro rfl; exact hwords slot hslot hother)).symm

theorem words (hrow : row ∈ flagsRows) (slot : ℕ) :
    readWords E rows' (slotRows slot) = readWords E rows (slotRows slot) :=
  readWords_congr _ fun other hother ↦ h.others other (by
    rintro rfl
    have hflag := mem_flagsRows hrow
    have hword := mem_slotRows hother
    omega)

end

end Grown

/-! ### The flags -/

/-- A slot that is revoked in some copy is not voted valid. -/
def FlagInv (rows : Rows) : Prop :=
  ∀ slot < 4, AnyCopy rows (slot + 8) → ¬ Voted rows slot

/-- What a step keeps of the flags. -/
structure FlagStep (rows rows' : Rows) : Prop where
  inv : FlagInv rows'
  trusted : ∀ slot, Trusted rows slot → Trusted rows' slot

theorem FlagStep.of_same (hflags : ∀ row ∈ flagsRows, rows row = rows' row) (hinv : FlagInv rows) :
    FlagStep rows rows' := by
  have hmap : flagsRows.map rows = flagsRows.map rows' := map_congr_left hflags
  have hvoted : ∀ bit, Voted rows' bit ↔ Voted rows bit := fun bit ↦ by rw [Voted, Voted, hmap]
  refine ⟨fun slot hslot hany ↦ ?_, fun slot hactive ↦ ?_⟩
  · obtain ⟨row, hrow, hset⟩ := hany
    rw [hvoted]
    exact hinv slot hslot ⟨row, hrow, by rwa [hflags row hrow]⟩
  · obtain ⟨hslot, hvalid, hrevoked⟩ := hactive
    exact ⟨hslot, (hvoted slot).mpr hvalid, fun h ↦ hrevoked ((hvoted (slot + 8)).mp h)⟩

/-- A flag that was not programmed is voted as before. -/
theorem Voted.of_grown {bit : ℕ} {bits : Row} (hbit : bit < 24) (h : Grown rows rows' row bits)
    (hbits : bits.getLsbD bit = false) (hvoted : Voted rows' bit) : Voted rows bit := by
  rw [voted_iff hbit, countP_map] at hvoted ⊢
  refine hvoted.trans (countP_mono_left fun other _ hset ↦ (h.bit hset).resolve_right ?_)
  rintro ⟨-, hnew⟩
  rw [hbits] at hnew
  cases hnew

theorem AnyCopy.of_grown {bit : ℕ} {bits : Row} (h : Grown rows rows' row bits)
    (hany : AnyCopy rows' bit) : AnyCopy rows bit ∨ bits.getLsbD bit = true := by
  obtain ⟨other, hother, hset⟩ := hany
  exact (h.bit hset).imp (fun hold ↦ ⟨other, hother, hold⟩) And.right

/-- A slot is called valid. -/
theorem FlagStep.of_valid (hslot : slot < 4) (h : Grown rows rows' row (bitValue slot))
    (hrevoked : NotRevoked rows slot) (hinv : FlagInv rows) : FlagStep rows rows' := by
  have hother : ∀ bit, bit ≠ slot → (bitValue slot).getLsbD bit = false := fun bit hne ↦ by
    rw [BitVec.getLsbD_twoPow, decide_eq_false hne.symm, Bool.and_false]
  refine ⟨fun other hlt hany hvoted ↦ ?_, fun other ⟨hlt, hvalid, hnot⟩ ↦ ?_⟩
  · have hold : AnyCopy rows (other + 8) := (hany.of_grown h).resolve_right fun hbit ↦ by
      rw [hother (other + 8) (by omega)] at hbit
      cases hbit
    have hne : other ≠ slot := by
      rintro rfl
      exact hrevoked hold
    exact hinv other hlt hold (hvoted.of_grown (by omega) h (hother other hne))
  · refine ⟨hlt, hvalid.mono (by omega) h.grows, fun hvoted ↦ hnot ?_⟩
    exact hvoted.of_grown (by omega) h (hother (other + 8) (by omega))

/-- Slots that are not trusted are revoked. -/
theorem FlagStep.of_revoke (h : Grown rows rows' row (revokeBits E rows)) (hinv : FlagInv rows) :
    FlagStep rows rows' := by
  have hrevokes : Revokes rows rows' := ⟨h.grows, fun other _ bit hset ↦ (h.bit hset).imp_right
    fun hnew ↦ by
      obtain ⟨hge, -, hnot⟩ := revokeBits_getLsbD.mp hnew.2
      exact ⟨hge, hnot⟩⟩
  have hlow : ∀ bit < 8, (revokeBits E rows).getLsbD bit = false := fun bit hbit ↦ by
    rw [eq_false_iff, Ne, revokeBits_getLsbD]
    omega
  refine ⟨fun other hlt hany hvoted ↦ ?_, fun other ↦ hrevokes.trusted_iff.mpr⟩
  have hvalid : Voted rows other := hvoted.of_grown (by omega) h (hlow other (by omega))
  rcases hany.of_grown h with hold | hnew
  · exact hinv other hlt hold hvalid
  · obtain ⟨-, -, hnot⟩ := revokeBits_getLsbD.mp hnew
    have hrevoked : Voted rows (other + 8) := by
      by_contra hfree
      exact hnot ⟨hlt, hvalid, hfree⟩
    exact hinv other hlt (hrevoked.anyCopy (by omega)) hvalid

theorem burn_ecc_rows {other : ℕ} {value : BitVec 16} (burn : Burn 24) (hne : other ≠ row) :
    ((PlannedWrite.ecc row value).burn E rows burn).1 other = rows other :=
  update_of_ne hne ..

theorem burn_grows (write : PlannedWrite) (burn : Burn 24) (other : ℕ) :
    Within (rows other) ((write.burn E rows burn).1 other) := by
  have hupdate : ∀ (row : ℕ) (new : Row), Within (rows row) new →
      Within (rows other) (Function.update rows row new other) := by
    intro row new hnew
    by_cases hsame : other = row
    · subst hsame
      rwa [update_self]
    · rw [update_of_ne hsame]
      exact .refl _
  cases write with
  | raw row value => exact hupdate row _ burn.within_result
  | ecc row value => exact hupdate row _ burn.within_result

/-- **The flags, step by step**: whatever becomes of the first write. -/
theorem FirstWrite.flagStep (hslot : slot < 4) (h : FirstWrite E rows fp slot action write)
    (burn : Burn 24) (hinv : FlagInv rows) : FlagStep rows (write.burn E rows burn).1 := by
  cases h with
  | word i hi hzero hwanted hagree =>
    refine .of_same (fun row hrow ↦ (burn_ecc_rows burn ?_).symm) hinv
    have hflag := mem_flagsRows hrow
    rw [slotRow]
    omega
  | valid row hrow hrevoked hwords => exact .of_valid hslot (grown_of_burn _ _ _ _ burn) hrevoked hinv
  | harden row hrow =>
    refine .of_same (fun other hother ↦ ((grown_of_burn _ _ _ _ burn).others other ?_).symm) hinv
    have hflag := mem_flagsRows hother
    have hcrit := mem_critRows hrow
    omega
  | enable row hrow found hwords htrusted =>
    refine .of_same (fun other hother ↦ ((grown_of_burn _ _ _ _ burn).others other ?_).symm) hinv
    have hflag := mem_flagsRows hother
    have hcrit := mem_critRows hrow
    omega
  | revoke row hrow => exact .of_revoke (grown_of_burn _ _ _ _ burn) hinv
  | lock row hrow hwithin hrevoked =>
    refine .of_same (fun other hother ↦ ((grown_of_burn _ _ _ _ burn).others other ?_).symm) hinv
    have hflag := mem_flagsRows hother
    have hlock := mem_bootLocks hrow
    omega

/-! ### The keys -/

/-- No fingerprint is another one with words filled in that were zero. -/
def Apart (keys : Bytes → Prop) : Prop :=
  ∀ fp fp', keys fp → keys fp' →
    (∀ i < 16, wantedWord fp i = 0 ∨ wantedWord fp i = wantedWord fp' i) → fp = fp'

/-- A slot that some copy calls valid holds a key that was loaded. -/
def KeyInv (E : Ecc 24) (keys : Bytes → Prop) (rows : Rows) : Prop :=
  ∀ slot < 4, AnyCopy rows slot →
    ∃ fp, keys fp ∧ ValidKey fp ∧ readWords E rows (slotRows slot) = some fp

/-- What a step keeps of the keys. -/
structure KeyStep (E : Ecc 24) (keys : Bytes → Prop) (rows rows' : Rows) : Prop where
  inv : KeyInv E keys rows'
  holds : ∀ slot < 4, AnyCopy rows slot →
    readWords E rows' (slotRows slot) = readWords E rows (slotRows slot)

variable {keys : Bytes → Prop}

/-- Where slots stay as they are, and those that are called valid are those that were. -/
theorem KeyStep.of_same
    (hwords : ∀ slot < 4, readWords E rows' (slotRows slot) = readWords E rows (slotRows slot))
    (hany : ∀ slot < 4, AnyCopy rows' slot → AnyCopy rows slot) (hinv : KeyInv E keys rows) :
    KeyStep E keys rows rows' where
  inv slot hslot hvalid := by
    rw [hwords slot hslot]
    exact hinv slot hslot (hany slot hslot hvalid)
  holds slot hslot _ := hwords slot hslot

theorem KeyStep.of_sameKeys (h : SameKeys rows rows') (hinv : KeyInv E keys rows) :
    KeyStep E keys rows rows' :=
  .of_same (fun slot hslot ↦ (readWords_congr _ (h.words slot hslot)).symm)
    (fun _ _ ⟨row, hrow, hset⟩ ↦ ⟨row, hrow, by rwa [h.flags row hrow]⟩) hinv

/-- A word is programmed only in a slot that no copy calls valid. -/
theorem not_anyCopy_of_word {i : ℕ} (hapart : Apart keys) (hinv : KeyInv E keys rows)
    (hkey : keys fp) (hslot : slot < 4) (hi : i < 16) (hzero : rows (slotRow slot i) = 0)
    (hwanted : wantedWord fp i ≠ 0)
    (hagree : ∀ j < 16, rows (slotRow slot j) = 0 ∨
      E.decode (rows (slotRow slot j)) = some (wantedWord fp j)) : ¬ AnyCopy rows slot := by
  intro hany
  obtain ⟨old, hold, hvalid, hread⟩ := hinv slot hslot hany
  have hwords := (readWords_eq_some hvalid.1).mp hread
  have hsame : old = fp := by
    refine hapart old fp hold hkey fun j hj ↦ ?_
    have hword := hwords j (mem_range.mpr hj)
    rcases hagree j hj with hblank | hdecode
    · rw [hblank, E.decode_zero, Option.some.injEq] at hword
      exact .inl hword.symm
    · rw [hdecode, Option.some.injEq] at hword
      exact .inr hword.symm
  subst hsame
  have hword := hwords i (mem_range.mpr hi)
  rw [hzero, E.decode_zero, Option.some.injEq] at hword
  exact hwanted hword.symm

/-- **The keys, step by step.** -/
theorem FirstWrite.keyStep (hslot : slot < 4) (h : FirstWrite E rows fp slot action write)
    (burn : Burn 24) (hapart : Apart keys) (hkey : keys fp) (hvalid : ValidKey fp)
    (hinv : KeyInv E keys rows) : KeyStep E keys rows (write.burn E rows burn).1 := by
  cases h with
  | word i hi hzero hwanted hagree =>
    have hfree := not_anyCopy_of_word hapart hinv hkey hslot hi hzero hwanted hagree
    have hflags : ∀ row ∈ flagsRows,
        ((PlannedWrite.ecc (slotRow slot i) (wantedWord fp i)).burn E rows burn).1 row = rows row :=
      fun row hrow ↦ burn_ecc_rows burn (by have := mem_flagsRows hrow; rw [slotRow]; omega)
    have hany : ∀ other, AnyCopy
        ((PlannedWrite.ecc (slotRow slot i) (wantedWord fp i)).burn E rows burn).1 other →
          AnyCopy rows other := by
      intro other hany
      obtain ⟨row, hrow, hset⟩ := hany
      exact ⟨row, hrow, by rwa [hflags row hrow] at hset⟩
    -- The other slots are not touched.
    have hothers : ∀ other < 4, AnyCopy rows other → readWords E
        ((PlannedWrite.ecc (slotRow slot i) (wantedWord fp i)).burn E rows burn).1 (slotRows other) =
          readWords E rows (slotRows other) := by
      intro other hother hcopy
      have hne : other ≠ slot := by
        rintro rfl
        exact hfree hcopy
      refine readWords_congr _ fun row hrow ↦ burn_ecc_rows burn ?_
      have hword := mem_slotRows hrow
      rw [slotRow]
      omega
    refine ⟨fun other hother hcopy ↦ ?_, hothers⟩
    rw [hothers other hother (hany other hcopy)]
    exact hinv other hother (hany other hcopy)
  | valid row hrow hrevoked hwords =>
    have hgrown := grown_of_burn E rows row (bitValue slot) burn
    refine ⟨fun other hother hcopy ↦ ?_, fun other _ _ ↦ hgrown.words hrow other⟩
    rw [hgrown.words hrow other]
    rcases hcopy.of_grown hgrown with hold | hnew
    · exact hinv other hother hold
    · rw [BitVec.getLsbD_twoPow, and_eq_true, decide_eq_true_eq, decide_eq_true_eq] at hnew
      obtain ⟨-, rfl⟩ := hnew
      exact ⟨fp, hkey, hvalid, hwords⟩
  | harden row hrow =>
    have hcrit := mem_critRows hrow
    exact .of_sameKeys ((grown_of_burn _ _ _ _ burn).sameKeys
      (fun hmem ↦ by have := mem_flagsRows hmem; omega)
      fun other _ hmem ↦ by have := mem_slotRows hmem; omega) hinv
  | enable row hrow found hwords htrusted =>
    have hcrit := mem_critRows hrow
    exact .of_sameKeys ((grown_of_burn _ _ _ _ burn).sameKeys
      (fun hmem ↦ by have := mem_flagsRows hmem; omega)
      fun other _ hmem ↦ by have := mem_slotRows hmem; omega) hinv
  | revoke row hrow =>
    have hgrown := grown_of_burn E rows row (revokeBits E rows) burn
    refine .of_same (fun other _ ↦ hgrown.words hrow other) (fun other hother hcopy ↦ ?_) hinv
    refine (hcopy.of_grown hgrown).resolve_right fun hnew ↦ ?_
    have hge := (revokeBits_getLsbD.mp hnew).1
    omega
  | lock row hrow hwithin hrevoked =>
    have hlock := mem_bootLocks hrow
    exact .of_sameKeys ((grown_of_burn _ _ _ _ burn).sameKeys
      (fun hmem ↦ by have := mem_flagsRows hmem; omega)
      fun other hother hmem ↦ by have := mem_slotRows hmem; omega) hinv

/-! ### What Secure Boot rests on -/

/-- A slot is trusted with a fingerprint. -/
def Trusts (E : Ecc 24) (rows : Rows) (slot : ℕ) (fp : Bytes) : Prop :=
  Trusted rows slot ∧ readWords E rows (slotRows slot) = some fp

/-- Secure Boot is required, by the vote of the copies. -/
def SecureBoot (rows : Rows) : Prop :=
  (vote (critRows.map rows) 3).getLsbD 0 = true

/-- Where a copy requires Secure Boot, a key that it was enabled with is trusted. -/
def SecureInv (E : Ecc 24) (required : Bytes → Prop) (rows : Rows) : Prop :=
  (∃ row ∈ critRows, (rows row).getLsbD 0 = true) → ∃ slot fp, required fp ∧ Trusts E rows slot fp

theorem SecureInv.of_secureBoot {required : Bytes → Prop} (h : SecureInv E required rows)
    (hsecure : SecureBoot rows) : ∃ slot fp, required fp ∧ Trusts E rows slot fp := by
  rw [SecureBoot, vote_getLsbD (by decide), decide_eq_true_eq] at hsecure
  obtain ⟨value, hvalue, hset⟩ := countP_pos_iff.mp (Nat.lt_of_lt_of_le (by decide) hsecure)
  obtain ⟨row, hrow, rfl⟩ := mem_map.mp hvalue
  exact h ⟨row, hrow, hset⟩

/-- The boot pages are locked only where every slot that is not trusted is revoked. -/
def LockInv (rows : Rows) : Prop :=
  (∃ row ∈ bootLocks, rows row ≠ 0) → ∀ other < 4, ¬ Trusted rows other → AllCopies rows (other + 8)

theorem burn_others (burn : Burn 24) {other : ℕ} (h : other ≠ write.row) :
    (write.burn E rows burn).1 other = rows other := by
  cases write with
  | raw row value => exact update_of_ne h ..
  | ecc row value => exact update_of_ne h ..

/-- Where the first write can be. A lock is written when all slots that are not trusted are
revoked. -/
theorem FirstWrite.row_mem (hslot : slot < 4) (h : FirstWrite E rows fp slot action write) :
    (0x80 ≤ write.row ∧ write.row < 0xc0) ∨ write.row ∈ flagsRows ∨ write.row ∈ critRows ∨
      write.row ∈ bootLocks ∧
        ∀ other < 4, ¬ Trusted rows other → AllCopies rows (other + 8) := by
  cases h with
  | word i hi hzero hwanted hagree =>
    refine .inl ?_
    rw [PlannedWrite.row, slotRow]
    omega
  | valid row hrow hrevoked hwords => exact .inr (.inl hrow)
  | harden row hrow => exact .inr (.inr (.inl hrow))
  | enable row hrow found hwords htrusted => exact .inr (.inr (.inl hrow))
  | revoke row hrow => exact .inr (.inl hrow)
  | lock row hrow hwithin hrevoked => exact .inr (.inr (.inr ⟨hrow, hrevoked⟩))

/-- Secure Boot is newly required only of a key that is trusted. -/
theorem FirstWrite.secureBit (hslot : slot < 4) (h : FirstWrite E rows fp slot action write)
    (burn : Burn 24) (hmem : row ∈ critRows)
    (hset : ((write.burn E rows burn).1 row).getLsbD 0 = true) :
    (rows row).getLsbD 0 = true ∨ action = .enable ∧ ∃ found, Trusts E rows found fp := by
  have hcrit := mem_critRows hmem
  have hsame : row ≠ write.row → (rows row).getLsbD 0 = true := fun hne ↦ by
    rwa [burn_others burn hne] at hset
  cases h with
  | word i hi hzero hwanted hagree =>
    refine .inl (hsame ?_)
    rw [PlannedWrite.row, slotRow]
    omega
  | valid other hrow hrevoked hwords =>
    refine .inl (hsame fun heq ↦ ?_)
    have hflag := mem_flagsRows hrow
    rw [PlannedWrite.row] at heq
    omega
  | harden other hrow =>
    refine .inl (((grown_of_burn _ _ _ _ burn).bit hset).resolve_right fun hnew ↦ ?_)
    exact absurd hnew.2 (by decide)
  | enable other hrow found hwords htrusted => exact .inr ⟨rfl, found, htrusted, hwords⟩
  | revoke other hrow =>
    refine .inl (hsame fun heq ↦ ?_)
    have hflag := mem_flagsRows hrow
    rw [PlannedWrite.row] at heq
    omega
  | lock other hrow hwithin hrevoked =>
    refine .inl (hsame fun heq ↦ ?_)
    have hlock := mem_bootLocks hrow
    rw [PlannedWrite.row] at heq
    omega

/-- A boot page is newly locked only when the other slots are revoked. -/
theorem FirstWrite.lockRow (hslot : slot < 4) (h : FirstWrite E rows fp slot action write)
    (burn : Burn 24) (hmem : row ∈ bootLocks) (hset : (write.burn E rows burn).1 row ≠ 0) :
    rows row ≠ 0 ∨ ∀ other < 4, ¬ Trusted rows other → AllCopies rows (other + 8) := by
  have hlock := mem_bootLocks hmem
  have hsame : row ≠ write.row → rows row ≠ 0 := fun hne ↦ by
    rwa [burn_others burn hne] at hset
  rcases h.row_mem hslot with hword | hflag | hcrit | ⟨-, hrevoked⟩
  · exact .inl (hsame (by omega))
  · exact .inl (hsame (by have := mem_flagsRows hflag; omega))
  · exact .inl (hsame (by have := mem_critRows hcrit; omega))
  · exact .inr hrevoked

/-! ### The invariant -/

structure SecurityInv (E : Ecc 24) (keys required : Bytes → Prop) (rows : Rows) : Prop where
  flags : FlagInv rows
  keys : KeyInv E keys rows
  secure : SecureInv E required rows
  locks : LockInv rows
  keyLocks : ∀ row ∈ keyLockRows, rows row = 0

/-- Rows that are reached from `start`. -/
structure Reached (E : Ecc 24) (keys required : Bytes → Prop) (start rows : Rows) : Prop where
  inv : SecurityInv E keys required rows
  grows : ∀ row, Within (start row) (rows row)
  trusts : ∀ slot fp, Trusts E start slot fp → Trusts E rows slot fp

variable {required : Bytes → Prop}

theorem Reached.refl (h : SecurityInv E keys required rows) : Reached E keys required rows rows :=
  ⟨h, fun _ ↦ .refl _, fun _ _ ↦ id⟩

variable {required' : Bytes → Prop}

theorem Reached.trans {start : Rows} (h : Reached E keys required start rows)
    (h' : Reached E keys required' rows rows') : Reached E keys required' start rows' :=
  ⟨h'.inv, fun row ↦ (h.grows row).trans (h'.grows row),
    fun slot fp htrusts ↦ h'.trusts slot fp (h.trusts slot fp htrusts)⟩

/-- **One write**, whatever becomes of it. -/
theorem FirstWrite.reached (hslot : slot < 4) (h : FirstWrite E rows fp slot action write)
    (burn : Burn 24) (hapart : Apart keys) (hkey : keys fp) (hvalid : ValidKey fp)
    (hrequired : action = .enable → required fp) (hinv : SecurityInv E keys required rows) :
    Reached E keys required rows (write.burn E rows burn).1 := by
  have hflags := h.flagStep hslot burn hinv.flags
  have hkeys := h.keyStep hslot burn hapart hkey hvalid hinv.keys
  have hgrows (other : ℕ) : Within (rows other) ((write.burn E rows burn).1 other) :=
    burn_grows write burn other
  have htrusts : ∀ slot fp, Trusts E rows slot fp → Trusts E (write.burn E rows burn).1 slot fp := by
    rintro other fp' ⟨htrusted, hread⟩
    have hlt := htrusted.1
    refine ⟨hflags.trusted other htrusted, ?_⟩
    rw [hkeys.holds other hlt (htrusted.2.1.anyCopy (by omega))]
    exact hread
  refine ⟨⟨hflags.inv, hkeys.inv, ?_, ?_, fun row hrow ↦ ?_⟩, hgrows, htrusts⟩
  · rintro ⟨row, hrow, hset⟩
    rcases h.secureBit hslot burn hrow hset with hold | ⟨henable, found, htrust⟩
    · obtain ⟨other, fp', hfp, htrust⟩ := hinv.secure ⟨row, hrow, hold⟩
      exact ⟨other, fp', hfp, htrusts other fp' htrust⟩
    · exact ⟨found, fp, hrequired henable, htrusts found fp htrust⟩
  · rintro ⟨row, hrow, hset⟩ other hother hnot flag hflag
    have hbefore : ¬ Trusted rows other := mt (hflags.trusted other) hnot
    have hcopies : AllCopies rows (other + 8) := by
      rcases h.lockRow hslot burn hrow hset with hold | hrevoked
      · exact hinv.locks ⟨row, hrow, hold⟩ other hother hbefore
      · exact hrevoked other hother hbefore
    exact within_iff.mp (hgrows flag) _ (hcopies flag hflag)
  · rw [burn_others burn, hinv.keyLocks row hrow]
    rintro rfl
    rcases h.row_mem hslot with hword | hflag | hcrit | ⟨hlock, -⟩
    · rcases mem_keyLockRows hrow with heq | heq <;> omega
    · have := mem_flagsRows hflag
      rcases mem_keyLockRows hrow with heq | heq <;> omega
    · have := mem_critRows hcrit
      rcases mem_keyLockRows hrow with heq | heq <;> omega
    · rcases mem_keyLockRows hrow with heq | heq
      · rw [heq] at hlock
        exact absurd hlock (by decide)
      · rw [heq] at hlock
        exact absurd hlock (by decide)

/-- **One stage**, wherever it is interrupted. -/
theorem SecurityStage.reached (stage : SecurityStage) (hapart : Apart keys) (hkey : keys stage.fp)
    (hrequired : stage.action = .enable → (∃ ws, stage.plan E rows = .ok ws) → required stage.fp)
    (hinv : SecurityInv E keys required rows) :
    Reached E keys required rows (stage.apply E rows) := by
  rw [SecurityStage.apply]
  rcases hplan : stage.plan E rows with e | ws
  · exact .refl hinv
  refine Plan.run_rule (securityPlan_resumes E stage.action stage.fp stage.slot)
    (Reached E keys required rows) (fun between write rest burn hbetween hnext ↦
      ?_) (.refl hinv) hplan stage.burns
  obtain ⟨⟨hslot, hvalid⟩, -⟩ := securityPlan_eq_ok.mp hnext
  exact hbetween.trans ((firstWrite_of_plan hnext).reached hslot burn hapart hkey hvalid
    (fun henable ↦ hrequired henable ⟨ws, hplan⟩) hbetween.inv)

/-! ### Runs -/

/-- The rows of the boot pages that the stages use were never programmed. -/
def BlankBoot (rows : Rows) : Prop :=
  (∀ row ∈ critRows ++ flagsRows ++ bootLocks ++ keyLockRows, rows row = 0) ∧
    ∀ slot < 4, ∀ row ∈ slotRows slot, rows row = 0

theorem not_anyCopy_of_blank (h : BlankBoot rows) (bit : ℕ) : ¬ AnyCopy rows bit := by
  rintro ⟨row, hrow, hset⟩
  rw [h.1 row (by simp [hrow])] at hset
  exact absurd hset (by rw [show (0 : Row) = 0#24 from rfl, BitVec.getLsbD_zero]; exact false_ne_true)

theorem inv_of_blank (h : BlankBoot rows) : SecurityInv E keys required rows where
  flags slot _ hany := absurd hany (not_anyCopy_of_blank h _)
  keys slot _ hany := absurd hany (not_anyCopy_of_blank h _)
  secure := by
    rintro ⟨row, hrow, hset⟩
    rw [h.1 row (by simp [hrow]), show (0 : Row) = 0#24 from rfl, BitVec.getLsbD_zero] at hset
    cases hset
  locks := fun ⟨row, hrow, hset⟩ ↦ absurd (h.1 row (by simp [hrow])) hset
  keyLocks row hrow := h.1 row (by simp [hrow])

/-- A key that some stage, which was accepted, enabled Secure Boot with. -/
def Required (E : Ecc 24) (rows : Rows) (stages : List SecurityStage) (fp : Bytes) : Prop :=
  ∃ before stage after, stages = before ++ stage :: after ∧ stage.action = .enable ∧ stage.fp = fp ∧
    ∃ ws, stage.plan E (securityRun E rows before) = .ok ws

theorem Required.append (h : Required E rows stages fp) (later : List SecurityStage) :
    Required E rows (stages ++ later) fp := by
  obtain ⟨before, stage, after, rfl, haction, hfp, hplan⟩ := h
  exact ⟨before, stage, after ++ later, by simp, haction, hfp, hplan⟩

theorem SecurityInv.mono (hmono : ∀ fp, required fp → required' fp)
    (h : SecurityInv E keys required rows) : SecurityInv E keys required' rows where
  flags := h.flags
  keys := h.keys
  secure hset := by
    obtain ⟨slot, fp, hfp, htrusts⟩ := h.secure hset
    exact ⟨slot, fp, hmono fp hfp, htrusts⟩
  locks := h.locks
  keyLocks := h.keyLocks

theorem securityRun_concat (stages : List SecurityStage) (stage : SecurityStage) :
    securityRun E rows (stages ++ [stage]) = stage.apply E (securityRun E rows stages) :=
  foldl_concat ..

theorem reached_concat {stage : SecurityStage} (hapart : Apart keys) (hkey : keys stage.fp)
    (hinv : SecurityInv E keys (Required E rows stages) (securityRun E rows stages)) :
    Reached E keys (Required E rows (stages ++ [stage])) (securityRun E rows stages)
      (securityRun E rows (stages ++ [stage])) := by
  rw [securityRun_concat]
  exact stage.reached hapart hkey
    (fun haction hplan ↦ ⟨stages, stage, [], rfl, haction, rfl, hplan⟩)
    (hinv.mono fun _ hfp ↦ hfp.append [stage])

theorem inv_of_run (hblank : BlankBoot rows) (hapart : Apart keys)
    (hkeys : ∀ stage ∈ stages, keys stage.fp) :
    SecurityInv E keys (Required E rows stages) (securityRun E rows stages) := by
  induction stages using List.reverseRecOn with
  | nil => exact inv_of_blank hblank
  | append_singleton stages stage ih =>
    have hbefore := ih fun other hother ↦ hkeys other (mem_append_left _ hother)
    exact (reached_concat hapart (hkeys stage (by simp)) hbefore).inv

/-- **Every run**, from rows that were never programmed. -/
theorem reached_of_run {later : List SecurityStage} (hblank : BlankBoot rows) (hapart : Apart keys)
    (hkeys : ∀ stage ∈ stages ++ later, keys stage.fp) :
    Reached E keys (Required E rows (stages ++ later)) (securityRun E rows stages)
      (securityRun E rows (stages ++ later)) := by
  induction later using List.reverseRecOn with
  | nil =>
    rw [append_nil] at hkeys ⊢
    exact .refl (inv_of_run hblank hapart hkeys)
  | append_singleton later stage ih =>
    rw [← append_assoc] at hkeys ⊢
    have hbefore := ih fun other hother ↦ hkeys other (mem_append_left _ hother)
    exact hbefore.trans (reached_concat hapart (hkeys stage (by simp)) hbefore.inv)

end PicoAll.Firmware
