import PicoAll.Firmware.SecurityLaw

/-!
# The way to the locked state

With one trusted key, or with none and a slot that was never used, the four stages lead to the locked
state. Two trusted keys never do: nothing but the last stage revokes a key, and it asks for a single
one.
-/

namespace PicoAll.Firmware

open OneTime Otp List BitVec

variable {E : Ecc 24} {rows rows' : Rows} {fp : Bytes} {slot : ℕ} {keys required : Bytes → Prop}

/-! ### Stages that are completed -/

/-- All the stages are accepted, and completed. -/
def Completes (E : Ecc 24) : Rows → List SecurityStage → Prop
  | _, [] => True
  | rows, stage :: stages =>
    (∃ ws, stage.plan E rows = .ok ws ∧
      (Plan.run (PlannedWrite.burn E) rows ws stage.burns).2 = true) ∧
    Completes E (stage.apply E rows) stages

theorem Completes.append {stages later : List SecurityStage} (h : Completes E rows stages)
    (h' : Completes E (securityRun E rows stages) later) : Completes E rows (stages ++ later) := by
  induction stages generalizing rows with
  | nil => exact h'
  | cons stage stages ih => exact ⟨h.1, ih h.2 h'⟩

variable {stage : SecurityStage} {ws : List PlannedWrite} {action : SecurityAction}

/-- A stage that is completed leaves nothing to be planned. -/
theorem plan_after (hplan : stage.plan E rows = .ok ws)
    (hrun : (Plan.run (PlannedWrite.burn E) rows ws stage.burns).2 = true) :
    stage.plan E (stage.apply E rows) = .ok [] := by
  rw [SecurityStage.apply, hplan]
  exact Plan.plan_of_completed (securityPlan_resumes E stage.action stage.fp stage.slot) hplan hrun

variable {write : PlannedWrite}

/-- A first write can be done. -/
theorem FirstWrite.done (h : FirstWrite E rows fp slot action write) :
    (write.burn E rows .done).2 = true := by
  have hraw : ∀ row bits, ((PlannedWrite.raw row (rows row ||| bits)).burn E rows .done).2 = true := by
    intro row bits
    refine decide_eq_true ⟨rfl, ?_⟩
    show rows row ||| (rows row ||| bits) = _
    rw [← BitVec.or_assoc, BitVec.or_self]
  cases h with
  | word i hi hzero hwanted hagree =>
    refine decide_eq_true ⟨rfl, ?_⟩
    show E.decode (rows (slotRow slot i) ||| E.encode (wantedWord fp i)) = _
    rw [hzero, show (0 : Row) ||| E.encode (wantedWord fp i) = _ from zero_or, E.decode_encode]
  | valid row hrow hrevoked hwords => exact hraw ..
  | harden row hrow => exact hraw ..
  | enable row hrow found hwords htrusted => exact hraw ..
  | revoke row hrow => exact hraw ..
  | lock row hrow hwithin hrevoked => exact hraw ..

/-- A stage that is accepted and not interrupted is completed. -/
theorem exists_stage (h : securityPlan E rows action fp slot = .ok ws) :
    ∃ stage : SecurityStage, stage.action = action ∧ stage.slot = slot ∧
      Completes E rows [stage] ∧ securityPlan E (stage.apply E rows) action fp slot = .ok [] := by
  have hrun := Plan.run_completes (securityPlan_resumes E action fp slot) (b := .done)
    (fun rows write rest hplan ↦ (firstWrite_of_plan hplan).done) h
  have hleft :=
    plan_after (show (SecurityStage.mk action fp slot (List.replicate ws.length .done)).plan E rows =
      .ok ws from h) hrun
  exact ⟨⟨action, fp, slot, List.replicate ws.length .done⟩, rfl, rfl, ⟨⟨ws, h, hrun⟩, trivial⟩, hleft⟩

/-! ### What the other stages leave alone -/

/-- The second and the third stage only write the critical flags. -/
theorem critical_frame (h : stage.action = .harden ∨ stage.action = .enable) {row : ℕ}
    (hrow : row ∉ critRows) : stage.apply E rows row = rows row := by
  rw [SecurityStage.apply]
  rcases hplan : stage.plan E rows with e | ws
  · rfl
  refine Plan.run_rule (securityPlan_resumes E stage.action stage.fp stage.slot)
    (fun between ↦ between row = rows row)
    (fun between write rest burn hbetween hnext ↦ ?_) rfl hplan stage.burns
  rw [← hbetween]
  have hfirst := firstWrite_of_plan hnext
  obtain ⟨action, fp, slot, burns⟩ := stage
  refine burn_others burn ?_
  rintro rfl
  rcases h with rfl | rfl
  · cases hfirst with
    | harden row hmem => exact hrow hmem
  · cases hfirst with
    | enable row hmem found hwords htrusted => exact hrow hmem

/-- What the first stage leaves alone. -/
structure LoadFrame (slot : ℕ) (rows rows' : Rows) : Prop where
  locks : ∀ row ∈ bootLocks, rows' row = rows row
  flags : ∀ row ∈ flagsRows, ∀ bit, bit ≠ slot → (rows' row).getLsbD bit = true →
    (rows row).getLsbD bit = true

/-- Loading a key leaves all but its slot alone. -/
theorem loadKey_frame (h : stage.action = .loadKey) :
    LoadFrame stage.slot rows (stage.apply E rows) := by
  rw [SecurityStage.apply]
  rcases hplan : stage.plan E rows with e | ws
  · exact ⟨fun _ _ ↦ rfl, fun _ _ _ _ ↦ id⟩
  refine Plan.run_rule (securityPlan_resumes E stage.action stage.fp stage.slot)
    (LoadFrame stage.slot rows)
    (fun between write rest burn hbetween hnext ↦ ?_) ⟨fun _ _ ↦ rfl, fun _ _ _ _ ↦ id⟩ hplan
    stage.burns
  have hfirst := firstWrite_of_plan hnext
  obtain ⟨⟨hslot, -⟩, -⟩ := securityPlan_eq_ok.mp hnext
  obtain ⟨action, fp, slot, burns⟩ := stage
  obtain rfl : action = .loadKey := h
  refine ⟨fun row hrow ↦ ?_, fun row hrow bit hne hset ↦ hbetween.flags row hrow bit hne ?_⟩
  · have hlock := mem_bootLocks hrow
    rw [← hbetween.locks row hrow]
    refine burn_others burn ?_
    rcases hfirst.row_mem hslot with hword | hflag | hcrit | ⟨hmem, hrevoked⟩
    · omega
    · have := mem_flagsRows hflag
      omega
    · have := mem_critRows hcrit
      omega
    · cases hfirst with
      | word i hi hzero hwanted hagree =>
        rw [PlannedWrite.row, slotRow]
        omega
      | valid other hother hnot hwords =>
        have := mem_flagsRows hother
        rw [PlannedWrite.row]
        omega
  · cases hfirst with
    | word i hi hzero hwanted hagree =>
      rwa [burn_ecc_rows burn (by have := mem_flagsRows hrow; rw [slotRow]; omega)] at hset
    | valid other hother hnot hwords =>
      refine ((grown_of_burn _ _ _ _ burn).bit hset).resolve_right fun hnew ↦ hne ?_
      have hbit := hnew.2
      rw [getLsbD_twoPow, Bool.and_eq_true, decide_eq_true_eq, decide_eq_true_eq] at hbit
      exact hbit.2.symm

/-! ### From one trusted key -/

/-- Secure Boot is required, a single key is trusted, and the boot pages are read-only. -/
structure Locked (E : Ecc 24) (rows : Rows) (fp : Bytes) (slot : ℕ) : Prop where
  secure : AllHave rows critRows 1
  holds : readWords E rows (slotRows slot) = some fp
  only : ∀ other, Trusted rows other ↔ other = slot
  revoked : ∀ other < 4, other ≠ slot → AllCopies rows (other + 8)
  pages : ∀ row ∈ bootLocks, effectiveLock (rows row) = 0x15

/-- A key is loaded, it is the only one that is trusted, and nothing is locked. -/
structure Ready (E : Ecc 24) (rows : Rows) (fp : Bytes) (slot : ℕ) : Prop where
  valid : slot < 4 ∧ ValidKey fp
  keyLocks : ∀ row ∈ keyLockRows, rows row = 0
  locks : ∀ row ∈ bootLocks, rows row = 0
  holds : readWords E rows (slotRows slot) = some fp
  copies : AllCopies rows slot
  only : ∀ other, Trusted rows other ↔ other = slot

theorem matches_eq_singleton (hholds : readWords E rows (slotRows slot) = some fp)
    (honly : ∀ other, Trusted rows other ↔ other = slot) :
    (bootState E rows).matches fp = [slot] := by
  refine perm_singleton.mp ((perm_ext_iff_of_nodup (nodup_range.filter _)
    (nodup_singleton slot)).mpr fun other ↦ ?_)
  rw [mem_singleton]
  refine mem_matches.trans ⟨fun h ↦ (honly other).mp h.2, ?_⟩
  rintro rfl
  exact ⟨hholds, (honly other).mpr rfl⟩

theorem trusted_eq_bitValue (hslot : slot < 4) (honly : ∀ other, Trusted rows other ↔ other = slot) :
    (bootState E rows).trusted = bitValue slot :=
  eq_of_getLsbD_eq fun bit hbit ↦ by
    rw [Bool.eq_iff_iff, trusted_getLsbD, honly, getLsbD_twoPow, Bool.and_eq_true,
      decide_eq_true_eq, decide_eq_true_eq]
    exact ⟨fun h ↦ ⟨by omega, h.symm⟩, fun h ↦ h.2.symm⟩

/-- Nothing is refused where no page is locked. -/
theorem pageLocked_eq_false (hlocks : ∀ row ∈ bootLocks, rows row = 0) (row : ℕ) :
    (bootState E rows).pageLocked row = false := by
  have hstate : (bootState E rows).locks = [0, 0] := by
    show bootLocks.map rows = _
    rw [bootLocks, map_cons, map_cons, hlocks 0xf83 (by decide), hlocks 0xf85 (by decide)]
    rfl
  rw [BootState.pageLocked, hstate, lockIndex]
  split <;> decide

namespace Ready

theorem plan (h : Ready E rows fp slot) {action : SecurityAction} {ws : List PlannedWrite}
    (hplan : planAction E rows (bootState E rows) action fp slot = .ok ws) :
    securityPlan E rows action fp slot = .ok ws :=
  securityPlan_eq_ok.mpr ⟨h.valid, h.keyLocks, hplan, fun _ _ ↦ pageLocked_eq_false h.locks _⟩

/-- The second and the third stage keep it. -/
theorem critical (h : Ready E rows fp slot) {stage : SecurityStage}
    (haction : stage.action = .harden ∨ stage.action = .enable) :
    Ready E (stage.apply E rows) fp slot := by
  have hsame : ∀ row, row ∉ critRows → rows row = stage.apply E rows row :=
    fun row hrow ↦ (critical_frame haction hrow).symm
  have hflags : ∀ row ∈ flagsRows, rows row = stage.apply E rows row := fun row hrow ↦
    hsame row fun hmem ↦ by
      have := mem_flagsRows hrow
      have := mem_critRows hmem
      omega
  have hvoted : ∀ bit, Voted (stage.apply E rows) bit ↔ Voted rows bit := fun bit ↦ by
    rw [Voted, Voted, map_congr_left hflags]
  refine ⟨h.valid, fun row hrow ↦ ?_, fun row hrow ↦ ?_, ?_, fun row hrow ↦ ?_, fun other ↦ ?_⟩
  · rw [← hsame row fun hmem ↦ by
      have := mem_critRows hmem
      rcases mem_keyLockRows hrow with rfl | rfl <;> omega]
    exact h.keyLocks row hrow
  · rw [← hsame row fun hmem ↦ by
      have := mem_critRows hmem
      have := mem_bootLocks hrow
      omega]
    exact h.locks row hrow
  · rw [← readWords_congr rows fun row hrow ↦ hsame row fun hmem ↦ by
      have := mem_critRows hmem
      have := mem_slotRows hrow
      omega]
    exact h.holds
  · rw [← hflags row hrow]
    exact h.copies row hrow
  · rw [← h.only other, Trusted, Trusted, hvoted, hvoted]

end Ready

theorem stage_grows (stage : SecurityStage) (row : ℕ) :
    Within (rows row) (stage.apply E rows row) := by
  rw [SecurityStage.apply]
  rcases hplan : stage.plan E rows with e | ws
  · exact .refl _
  exact Plan.run_rule (securityPlan_resumes E stage.action stage.fp stage.slot)
    (fun between ↦ Within (rows row) (between row))
    (fun between write rest burn hbetween _ ↦ hbetween.trans (burn_grows write burn row)) (.refl _)
    hplan stage.burns

theorem AllHave.apply {l : List ℕ} {bits : Row} (h : AllHave rows l bits) (stage : SecurityStage) :
    AllHave (stage.apply E rows) l bits :=
  fun row hrow ↦ (h row hrow).trans (stage_grows stage row)

/-- What the last stage leaves when nothing is left to be planned. -/
theorem locked_of_plan_nil (h : securityPlan E rows .lock fp slot = .ok []) :
    ∃ found, Locked E rows fp found := by
  have htarget := (securityPlan_nil_iff h).mp rfl
  obtain ⟨-, -, hwrites, -⟩ := securityPlan_eq_ok.mp h
  obtain ⟨⟨found, hfound, htrusted⟩, hhas, -⟩ := lock_eq_ok.mp hwrites
  obtain ⟨hholds, htrust⟩ := mem_matches.mp (hfound ▸ mem_singleton_self found)
  have honly : ∀ other, Trusted rows other ↔ other = found := fun other ↦ by
    have hlt := htrust.1
    rw [← trusted_getLsbD (E := E), htrusted, getLsbD_twoPow, Bool.and_eq_true,
      decide_eq_true_eq, decide_eq_true_eq]
    exact ⟨fun h ↦ h.2.symm, fun h ↦ ⟨by omega, h.symm⟩⟩
  refine ⟨found, fun row hrow ↦ ?_, hholds, honly, fun other hother hne ↦ ?_, fun row hrow ↦ ?_⟩
  · exact (show Within 1 0x75 by decide).trans (hhas row hrow)
  · exact htarget.1 other hother fun h ↦ hne ((honly other).mp h)
  · simp only [bootLocks, mem_cons, not_mem_nil, or_false] at hrow
    rcases hrow with rfl | rfl
    · exact htarget.2.1
    · exact htarget.2.2

/-- **The last three stages**, once a key is loaded. -/
theorem Ready.leads (h : Ready E rows fp slot) :
    ∃ stages, Completes E rows stages ∧ ∃ found, Locked E (securityRun E rows stages) fp found := by
  have hmatch : ∀ {rows}, Ready E rows fp slot → (bootState E rows).matches fp = [slot] :=
    fun h ↦ matches_eq_singleton h.holds h.only
  obtain ⟨harden, hfirst, -, hhardens, hleft⟩ :=
    exists_stage (h.plan (harden_eq_ok.mpr ⟨⟨slot, hmatch h⟩, rfl⟩))
  have hhard : AllHave (harden.apply E rows) critRows hardenBits := (securityPlan_nil_iff hleft).mp rfl
  have hready := h.critical (.inl hfirst)
  obtain ⟨enable, hsecond, -, henables, hleft⟩ := exists_stage
    (hready.plan (enable_eq_ok.mpr ⟨⟨slot, hmatch hready, hready.copies⟩, hhard, rfl⟩))
  have hsecure := (securityPlan_nil_iff hleft).mp rfl
  have hready := hready.critical (.inr hsecond)
  have hhas : AllHave (enable.apply E (harden.apply E rows)) critRows 0x75 := fun row hrow ↦ by
    exact (hhard.apply enable row hrow).or (hsecure row hrow)
  have hunlocked : ∀ row ∈ bootLocks,
      Within (enable.apply E (harden.apply E rows) row) bootLock := fun row hrow ↦ by
    rw [hready.locks row hrow]
    exact .zero _
  obtain ⟨lock, -, -, hlocks, hleft⟩ := exists_stage (hready.plan (lock_eq_ok.mpr
    ⟨⟨slot, hmatch hready, trusted_eq_bitValue hready.valid.1 hready.only⟩, hhas,
      hunlocked 0xf83 (by decide), hunlocked 0xf85 (by decide), rfl⟩))
  exact ⟨[harden] ++ ([enable] ++ [lock]), hhardens.append (henables.append hlocks),
    locked_of_plan_nil hleft⟩

/-- **All four stages**, from a slot that a key can be loaded into while no other is trusted. -/
theorem leads_of_loadKey (hload : securityPlan E rows .loadKey fp slot = .ok ws)
    (honly : ∀ other, Trusted rows other → other = slot) (hlocks : ∀ row ∈ bootLocks, rows row = 0) :
    ∃ stages, Completes E rows stages ∧ ∃ found, Locked E (securityRun E rows stages) fp found := by
  obtain ⟨load, haction, hslots, hloads, hleft⟩ := exists_stage hload
  have hframe : LoadFrame slot rows (load.apply E rows) := hslots ▸ loadKey_frame haction
  obtain ⟨hvalid, hkeyLocks, hwrites, -⟩ := securityPlan_eq_ok.mp hleft
  obtain ⟨hrevoked, -⟩ := (planLoadKey_eq_ok hvalid.1).mp hwrites
  obtain ⟨hholds, hcopies⟩ := (securityPlan_nil_iff hleft).mp rfl
  have hlt := hvalid.1
  -- A slot that was not programmed is voted as before.
  have hvoted : ∀ bit < 24, bit ≠ slot → Voted (load.apply E rows) bit → Voted rows bit := by
    intro bit hbit hne hset
    rw [voted_iff hbit, countP_map] at hset ⊢
    exact hset.trans (countP_mono_left fun row hrow ↦ hframe.flags row hrow bit hne)
  have hready : Ready E (load.apply E rows) fp slot := by
    refine ⟨hvalid, hkeyLocks, fun row hrow ↦ ?_, hholds, hcopies, fun other ↦ ⟨?_, ?_⟩⟩
    · rw [hframe.locks row hrow]
      exact hlocks row hrow
    · rintro ⟨hother, hset, hnot⟩
      by_contra hne
      refine hne (honly other ⟨hother, hvoted other (by omega) hne hset, fun hold ↦ hnot ?_⟩)
      exact hold.mono (by omega) (stage_grows load)
    · rintro rfl
      exact ⟨hlt, hcopies.voted (by omega), fun hset ↦ hrevoked (hset.anyCopy (by omega))⟩
  obtain ⟨stages, hcompletes, hlocked⟩ := hready.leads
  exact ⟨[load] ++ stages, hloads.append hcompletes, hlocked⟩

/-! ### What every state allows -/

/-- A slot that was never used. -/
def Unused (rows : Rows) (slot : ℕ) : Prop :=
  slot < 4 ∧ (∀ row ∈ slotRows slot, rows row = 0) ∧ ¬ AnyCopy rows slot ∧ ¬ AnyCopy rows (slot + 8)

theorem Unused.not_trusted (h : Unused rows slot) : ¬ Trusted rows slot := fun htrusted ↦
  h.2.2.1 (htrusted.2.1.anyCopy (by have := h.1; omega))

/-- Nothing is locked while a slot was never used. -/
theorem Unused.locks (h : Unused rows slot) (hinv : LockInv rows) :
    ∀ row ∈ bootLocks, rows row = 0 := by
  by_contra hlocked
  push Not at hlocked
  obtain ⟨row, hrow, hset⟩ := hlocked
  have hcopies := hinv ⟨row, hrow, hset⟩ slot h.1 h.not_trusted
  exact h.2.2.2 ⟨0x4b, by decide, hcopies 0x4b (by decide)⟩

theorem planWords_of_zero (E : Ecc 24) (fp : Bytes) (is : List ℕ)
    (h : ∀ i ∈ is, rows (slotRow slot i) = 0) : ∃ ws, planWords E rows fp slot is = .ok ws := by
  induction is with
  | nil => exact ⟨[], rfl⟩
  | cons i is ih =>
    obtain ⟨ws, hws⟩ := ih fun j hj ↦ h j (mem_cons_of_mem _ hj)
    have hword : planWord E rows (slotRow slot i) (wantedWord fp i) = .ok _ :=
      if_neg (not_not.mpr (h i mem_cons_self))
    exact ⟨_, planWords_cons_eq_ok.mpr ⟨_, ws, hword, hws, rfl⟩⟩

/-- A key can be loaded into a slot that was never used. -/
theorem Unused.loadKey (h : Unused rows slot) (hvalid : ValidKey fp)
    (hkeyLocks : ∀ row ∈ keyLockRows, rows row = 0) (hlocks : ∀ row ∈ bootLocks, rows row = 0) :
    ∃ ws, securityPlan E rows .loadKey fp slot = .ok ws := by
  obtain ⟨words, hwords⟩ := planWords_of_zero E fp (List.range 16) fun i hi ↦
    h.2.1 _ (mem_map_of_mem hi)
  exact ⟨_, securityPlan_eq_ok.mpr ⟨⟨h.1, hvalid⟩, hkeyLocks,
    (planLoadKey_eq_ok h.1).mpr ⟨h.2.2.2, words, hwords, rfl⟩,
    fun _ _ ↦ pageLocked_eq_false hlocks _⟩⟩

/-- A trusted slot can be loaded with its key again. -/
theorem Trusts.loadKey (h : Trusts E rows slot fp) (hvalid : ValidKey fp) (hflags : FlagInv rows)
    (hkeyLocks : ∀ row ∈ keyLockRows, rows row = 0) (hlocks : ∀ row ∈ bootLocks, rows row = 0) :
    ∃ ws, securityPlan E rows .loadKey fp slot = .ok ws := by
  obtain ⟨⟨hslot, hvoted, -⟩, hholds⟩ := h
  have hwords := planWords_eq_nil.mpr ((readWords_eq_some hvalid.1).mp hholds)
  exact ⟨_, securityPlan_eq_ok.mpr ⟨⟨hslot, hvalid⟩, hkeyLocks,
    (planLoadKey_eq_ok hslot).mpr ⟨fun hany ↦ hflags slot hslot hany hvoted, [], hwords, rfl⟩,
    fun _ _ ↦ pageLocked_eq_false hlocks _⟩⟩

/-- **Where at most one key is trusted and a slot was never used, the locked state can be reached.** -/
theorem leads_of_inv {unused : ℕ} (hinv : SecurityInv E keys required rows) (hunused : Unused rows unused)
    (hone : ∀ s t, Trusted rows s → Trusted rows t → s = t) :
    ∃ fp stages, Completes E rows stages ∧
      ∃ found, Locked E (securityRun E rows stages) fp found := by
  have hlocks := hunused.locks hinv.locks
  by_cases htrusted : ∃ slot, Trusted rows slot
  · obtain ⟨slot, htrusted⟩ := htrusted
    have hslot := htrusted.1
    obtain ⟨fp, -, hvalid, hholds⟩ := hinv.keys slot hslot (htrusted.2.1.anyCopy (by omega))
    obtain ⟨ws, hload⟩ :=
      Trusts.loadKey ⟨htrusted, hholds⟩ hvalid hinv.flags hinv.keyLocks hlocks
    exact ⟨fp, leads_of_loadKey hload (fun other hother ↦ hone other slot hother htrusted) hlocks⟩
  · have hvalid : ValidKey (List.replicate 32 1) := ⟨by decide, by decide⟩
    obtain ⟨ws, hload⟩ := hunused.loadKey (E := E) hvalid hinv.keyLocks hlocks
    exact ⟨_, leads_of_loadKey hload (fun other hother ↦ absurd ⟨other, hother⟩ htrusted) hlocks⟩

/-! ### The law -/

/-- The flags after a stage, with whatever key. -/
theorem flagStep_of_apply (stage : SecurityStage) (h : FlagInv rows) :
    FlagStep rows (stage.apply E rows) := by
  rw [SecurityStage.apply]
  rcases hplan : stage.plan E rows with e | ws
  · exact ⟨h, fun _ ↦ id⟩
  refine Plan.run_rule (securityPlan_resumes E stage.action stage.fp stage.slot) (FlagStep rows)
    (fun between write rest burn hbetween hnext ↦ ?_) ⟨h, fun _ ↦ id⟩ hplan stage.burns
  obtain ⟨⟨hslot, -⟩, -⟩ := securityPlan_eq_ok.mp hnext
  have hstep := (firstWrite_of_plan hnext).flagStep hslot burn hbetween.inv
  exact ⟨hstep.inv, fun slot htrusted ↦ hstep.trusted slot (hbetween.trusted slot htrusted)⟩

theorem flagStep_of_run (stages : List SecurityStage) (h : FlagInv rows) :
    FlagStep rows (securityRun E rows stages) := by
  induction stages generalizing rows with
  | nil => exact ⟨h, fun _ ↦ id⟩
  | cons stage stages ih =>
    have hstage := flagStep_of_apply (E := E) stage h
    have hrest := ih hstage.inv
    exact ⟨hrest.inv, fun slot htrusted ↦ hrest.trusted slot (hstage.trusted slot htrusted)⟩

/-- The bits that a write programs. -/
def PlannedWrite.bits (E : Ecc 24) : PlannedWrite → Row
  | raw _ value => value
  | ecc _ value => E.encode value

theorem FirstWrite.adds (h : FirstWrite E rows fp slot action write) :
    Within (rows write.row) (write.bits E) := by
  cases h with
  | word i hi hzero hwanted hagree =>
    show Within (rows (slotRow slot i)) _
    rw [hzero]
    exact .zero _
  | valid row hrow hrevoked hwords => exact .left_or ..
  | harden row hrow => exact .left_or ..
  | enable row hrow found hwords htrusted => exact .left_or ..
  | revoke row hrow => exact .left_or ..
  | lock row hrow hwithin hrevoked => exact .left_or ..

/-- No write asks a bit to be cleared. -/
theorem plan_adds (h : securityPlan E rows action fp slot = .ok ws) :
    ∀ write ∈ ws, Within (rows write.row) (write.bits E) := by
  induction ws generalizing rows with
  | nil => exact fun write hwrite ↦ by cases hwrite
  | cons first rest ih =>
    have hfirst := firstWrite_of_plan h
    refine forall_mem_cons.mpr ⟨hfirst.adds, fun write hwrite ↦ ?_⟩
    have hrest := ih (securityPlan_resumes E action fp slot rows first rest .done h hfirst.done)
    exact (burn_grows first .done write.row).trans (hrest write hwrite)

/-- A last stage that is completed. -/
theorem locked_of_completes (hflags : FlagInv rows) (haction : stage.action = .lock)
    (h : Completes E rows [stage]) :
    ∃ found, Trusts E rows found stage.fp ∧ Locked E (stage.apply E rows) stage.fp found := by
  obtain ⟨⟨ws, hplan, hrun⟩, -⟩ := h
  have hleft := plan_after hplan hrun
  rw [SecurityStage.plan, haction] at hplan hleft
  obtain ⟨-, -, hwrites, -⟩ := securityPlan_eq_ok.mp hplan
  obtain ⟨⟨found, hfound, -⟩, -⟩ := lock_eq_ok.mp hwrites
  obtain ⟨hholds, htrusted⟩ := mem_matches.mp (hfound ▸ mem_singleton_self found)
  obtain ⟨other, hlocked⟩ := locked_of_plan_nil hleft
  obtain rfl := (hlocked.only found).mp ((flagStep_of_apply stage hflags).trusted found htrusted)
  exact ⟨found, ⟨htrusted, hholds⟩, hlocked⟩

/-- What is said of the rows that `stages` reach and of those that `later` stages reach from there. -/
structure SecurityLaw (E : Ecc 24) (rows : Rows) (stages later : List SecurityStage) : Prop where
  grows : ∀ row, Within (securityRun E rows stages row) (securityRun E rows (stages ++ later) row)
  adds : ∀ stage ws, SecurityStage.plan E (securityRun E rows stages) stage = .ok ws →
    ∀ write ∈ ws, Within (securityRun E rows stages write.row) (write.bits E)
  /-- Where Secure Boot is required, a key that was asked for is trusted from then on. -/
  secure : SecureBoot (securityRun E rows stages) → ∃ slot fp, Required E rows stages fp ∧
    Trusts E (securityRun E rows stages) slot fp ∧
    Trusts E (securityRun E rows (stages ++ later)) slot fp
  trusts : ∀ slot fp, Trusts E (securityRun E rows stages) slot fp →
    Trusts E (securityRun E rows (stages ++ later)) slot fp
  empty : ∀ stage ws, SecurityStage.plan E (securityRun E rows stages) stage = .ok ws →
    (ws = [] ↔ Target E (securityRun E rows stages) stage.action stage.fp stage.slot)
  locks : ∀ stage : SecurityStage, stage.action = .lock →
    Completes E (securityRun E rows stages) [stage] → ∃ found,
      Trusts E (securityRun E rows stages) found stage.fp ∧
      Locked E (stage.apply E (securityRun E rows stages)) stage.fp found
  leads : ∀ unused, Unused (securityRun E rows stages) unused →
    (∀ s t, Trusted (securityRun E rows stages) s → Trusted (securityRun E rows stages) t → s = t) →
      ∃ fp next, Completes E (securityRun E rows stages) next ∧
        ∃ found, Locked E (securityRun E (securityRun E rows stages) next) fp found

/-- A code without redundancy. -/
def tinyEcc : Ecc 24 where
  encode v := v.setWidth 24
  decode row := if row.toNat < 2 ^ 16 then some (row.setWidth 16) else none
  decode_encode v := by
    have hv := v.isLt
    rw [if_pos (by rw [BitVec.toNat_setWidth, Nat.mod_eq_of_lt (by omega)]; exact hv)]
    rw [BitVec.setWidth_setWidth_of_le _ (by decide), BitVec.setWidth_eq]
  decode_zero := by decide

/-- A fingerprint of one word. -/
def tinyKey (byte : UInt8) : Bytes :=
  byte :: List.replicate 31 0

/-- One key is loaded, and Secure Boot is enabled with it. -/
def oneKey : List SecurityStage :=
  [⟨.loadKey, tinyKey 1, 0, List.replicate 4 .done⟩, ⟨.harden, tinyKey 1, 0, List.replicate 8 .done⟩,
    ⟨.enable, tinyKey 1, 0, List.replicate 8 .done⟩]

/-- **The provisioning of Secure Boot**, from rows that were never programmed on and with keys whose
fingerprints are apart. -/
theorem security_law {stages later : List SecurityStage} (hblank : BlankBoot rows)
    (hapart : Apart fun fp ↦ ∃ stage ∈ stages ++ later, stage.fp = fp) :
    SecurityLaw E rows stages later := by
  have hkeys : ∀ stage ∈ stages ++ later, ∃ other ∈ stages ++ later, other.fp = stage.fp :=
    fun stage hstage ↦ ⟨stage, hstage, rfl⟩
  have hreached := reached_of_run (E := E) hblank hapart hkeys
  have hinv := inv_of_run (E := E) hblank hapart fun stage hstage ↦
    hkeys stage (mem_append_left later hstage)
  refine ⟨hreached.grows, fun _ _ ↦ plan_adds, fun hsecure ↦ ?_, hreached.trusts,
    fun _ _ ↦ securityPlan_nil_iff, fun _ ↦ locked_of_completes hinv.flags,
    fun _ ↦ leads_of_inv hinv⟩
  obtain ⟨slot, fp, hrequired, htrusts⟩ := hinv.secure.of_secureBoot hsecure
  exact ⟨slot, fp, hrequired, htrusts, hreached.trusts slot fp htrusts⟩

/-- The law of a run that requires Secure Boot. -/
theorem security_law_oneKey : SecureBoot (securityRun tinyEcc (fun _ ↦ 0) oneKey) ∧
    SecurityLaw tinyEcc (fun _ ↦ 0) oneKey [⟨.lock, tinyKey 1, 0, [.done, .torn true 0x100]⟩] := by
  refine ⟨by rw [SecureBoot]; decide +kernel, security_law ⟨fun _ _ ↦ rfl, fun _ _ _ _ ↦ rfl⟩ ?_⟩
  have hkey : ∀ fp, (∃ stage ∈ oneKey ++ [⟨.lock, tinyKey 1, 0, [.done, .torn true 0x100]⟩],
      SecurityStage.fp stage = fp) → fp = tinyKey 1 := by
    rintro fp ⟨stage, hstage, rfl⟩
    exact (show ∀ stage ∈ oneKey ++ [⟨.lock, tinyKey 1, 0, [.done, .torn true 0x100]⟩],
      stage.fp = tinyKey 1 by decide) stage hstage
  intro fp fp' hfp hfp' _
  rw [hkey fp hfp, hkey fp' hfp']

/-- Two keys are loaded, each into a slot of its own. -/
def twoKeys : List SecurityStage :=
  [⟨.loadKey, tinyKey 1, 0, List.replicate 4 .done⟩, ⟨.loadKey, tinyKey 2, 1, List.replicate 4 .done⟩]

/-- **Two keys never lead to the locked state**, though all stages were accepted and completed and a
slot was never used: the last stage asks for a single trusted key, and no stage revokes a trusted
one. -/
theorem two_keys_never_locked : Completes tinyEcc (fun _ ↦ 0) twoKeys ∧
    Unused (securityRun tinyEcc (fun _ ↦ 0) twoKeys) 2 ∧
    ∀ later fp slot,
      ¬ Locked tinyEcc (securityRun tinyEcc (securityRun tinyEcc (fun _ ↦ 0) twoKeys) later) fp slot := by
  have hfirst : Trusted (securityRun tinyEcc (fun _ ↦ 0) twoKeys) 0 := by decide +kernel
  have hsecond : Trusted (securityRun tinyEcc (fun _ ↦ 0) twoKeys) 1 := by decide +kernel
  have hflags : FlagInv (securityRun tinyEcc (fun _ ↦ 0) twoKeys) :=
    (flagStep_of_run twoKeys fun slot _ hany ↦ absurd hany fun ⟨row, _, hset⟩ ↦ by
      rw [show (0 : Row) = 0#24 from rfl, getLsbD_zero] at hset
      cases hset).inv
  refine ⟨⟨⟨[.ecc 0x80 1, .raw 0x4b 1, .raw 0x4c 1, .raw 0x4d 1], ?_, ?_⟩,
    ⟨[.ecc 0x90 2, .raw 0x4b 3, .raw 0x4c 3, .raw 0x4d 3], ?_, ?_⟩, trivial⟩, ?_, ?_⟩
  · decide +kernel
  · decide +kernel
  · decide +kernel
  · decide +kernel
  · rw [Unused, AnyCopy, AnyCopy]
    decide +kernel
  · intro later fp slot hlocked
    have hstep := flagStep_of_run (E := tinyEcc) later hflags
    have hzero := (hlocked.only 0).mp (hstep.trusted 0 hfirst)
    have hone := (hlocked.only 1).mp (hstep.trusted 1 hsecond)
    omega

end PicoAll.Firmware
