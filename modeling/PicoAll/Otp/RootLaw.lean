import PicoAll.Otp.RootBoot

/-!
# The device root over all boots

A boot that leaves a page with an effective lock and a complete record settles the matter: from then
on nothing is programmed (`Established.frozen`), and whatever is given out is that record. Until then
the pages stay sound, as long as no complete record that is not yet read-only is hidden by a read
error (`NothingHidden`): a boot that cannot read such a record takes its page for an interrupted one,
and makes a second root elsewhere.
-/

namespace PicoAll.Otp

open FaultProgram OneTime List BitVec

variable {P : RootParams} {rows : Rows} {page : ℕ} {keys : Bytes} {boot : RootBoot} {b : OtpBoard}
  {s : RootStep}

/-! ### Steps -/

/-- The root was given out. -/
def RootStep.Ready (s : RootStep) (page : ℕ) (keys : Bytes) : Prop :=
  s.output = some ⟨.ready, keys, page⟩

/-- The power was lost, or some row was to be programmed. -/
def RootStep.Interrupted (s : RootStep) : Prop :=
  s.output = none ∨ ∃ row value, .burn row value ∈ s.log

/-- No read error hides a complete record that is not yet read-only from a protected boot. -/
def RootStep.NothingHidden (P : RootParams) (s : RootStep) : Prop :=
  s.boot.protectedBoot = true →
    ∀ p ∈ otpRootPages, ∀ record, Holds P s.before p record → ¬Unreadable s.before s.boot.hal p

/-- **A boot gives the root out or not**, and what is known in either case. -/
theorem RootBoot.step_cases (P : RootParams) (rows : Rows) (boot : RootBoot) :
    (∃ page keys b, (boot.step P rows).Ready page keys ∧ (boot.step P rows).log = b.log ∧
      (boot.step P rows).after = b.rows ∧ Opened P rows boot page keys b) ∨
    ∃ e b, (boot.step P rows).output = RootOutput.failed e ∧ (boot.step P rows).log = b.log ∧
      (boot.step P rows).after = b.rows ∧ Failed P rows boot e b := by
  have h : wp (fun _ ↦ True) (otpRootOpen P boot.protectedBoot boot.blank)
      (fun root b' ↦ Opened P rows boot root.1 root.2 b') (Failed P rows boot)
      (.reset rows boot.hal) := wp_otpRootOpen
  rcases run_of_wp h (fun o (_ : o ∈ []) ↦ trivial) with ⟨root, hroot, hopened⟩ | ⟨e, he, hfailed⟩
  · refine .inl ⟨root.1, root.2, _, ?_, rfl, rfl, hopened⟩
    rw [RootStep.Ready, RootBoot.step, hroot]
  · refine .inr ⟨e, _, ?_, rfl, rfl, hfailed⟩
    rw [RootBoot.step, he]

theorem Failed.not_ready_output {e : Exit OtpRootState} (h : Failed P rows boot e b) :
    RootOutput.failed e ≠ some ⟨.ready, keys, page⟩ := by
  rcases e with state | -
  · intro heq
    have hstate : state = .ready := congrArg RootOutput.state (Option.some.inj heq)
    exact h.not_ready (hstate ▸ rfl)
  · nofun

/-- A boot that gave the root out. -/
theorem RootStep.Ready.opened (h : (boot.step P rows).Ready page keys) :
    ∃ b, (boot.step P rows).log = b.log ∧ (boot.step P rows).after = b.rows ∧
      Opened P rows boot page keys b := by
  rcases boot.step_cases P rows with ⟨page', keys', b, hready, hlog, hafter, hopened⟩ |
    ⟨e, b, houtput, -, -, hfailed⟩
  · rw [RootStep.Ready, hready] at h
    cases h
    exact ⟨b, hlog, hafter, hopened⟩
  · rw [RootStep.Ready, houtput] at h
    exact absurd h hfailed.not_ready_output

/-- Either nothing was programmed, or the boot worked on a page it had chosen. -/
theorem RootBoot.step_effect (P : RootParams) (rows : Rows) (boot : RootBoot) :
    ∃ b, (boot.step P rows).log = b.log ∧ (boot.step P rows).after = b.rows ∧
      (Looking rows boot.hal b ∧ (boot.step P rows).output ≠ none ∨
        boot.protectedBoot = true ∧ ∃ page, Chosen P rows boot.hal page ∧
          Touched P rows boot.hal page b) := by
  rcases boot.step_cases P rows with ⟨page, keys, b, -, hlog, hafter, hopened⟩ |
    ⟨e, b, houtput, hlog, hafter, hfailed⟩
  · exact ⟨b, hlog, hafter, .inr ⟨hopened.protected_eq, page, hopened.chosen, hopened.touched⟩⟩
  · refine ⟨b, hlog, hafter, hfailed.effect.imp_left fun h ↦ ⟨h.1, ?_⟩⟩
    rw [houtput]
    rcases e with state | -
    · nofun
    · exact absurd rfl h.2

/-! ### An established root -/

/-- The page holds a complete record, of which these are the keys, behind an effective lock. -/
structure Established (P : RootParams) (rows : Rows) (page : ℕ) (keys : Bytes) : Prop where
  mem : page ∈ otpRootPages
  record : ∃ record, Holds P rows page record ∧ keys = (record.drop 4).take 64
  effective : Effective (pageLock rows page)

theorem RootStep.Ready.established (h : (boot.step P rows).Ready page keys) :
    Established P (boot.step P rows).after page keys := by
  obtain ⟨b, -, hafter, hopened⟩ := h.opened
  rw [hafter]
  exact ⟨hopened.chosen.mem, hopened.record, hopened.effective⟩

section

variable (h : Established P rows page keys)
include h

/-- Where a root is established no other page is chosen. -/
theorem Established.eq_of_chosen (hchosen : Chosen P rows boot.hal q) : page = q := by
  by_contra hne
  obtain ⟨record, hholds, -⟩ := h.record
  exact hchosen.open_others page h.mem hne hholds.not_blank h.effective.begun

/-- **Once a root is established nothing is programmed.** -/
theorem Established.frozen (boot : RootBoot) :
    (boot.step P rows).after = rows ∧ ∀ row value, .burn row value ∉ (boot.step P rows).log := by
  obtain ⟨b, hlog, hafter, heffect⟩ := boot.step_effect P rows
  have hlooking : Looking rows boot.hal b := by
    rcases heffect with ⟨hlooking, -⟩ | ⟨-, q, hchosen, htouched⟩
    · exact hlooking
    · obtain rfl := h.eq_of_chosen hchosen
      exact htouched.released h.effective
  rw [hlog, hafter]
  exact ⟨hlooking.rows_eq, hlooking.idle⟩

theorem Established.step (boot : RootBoot) : Established P (boot.step P rows).after page keys := by
  rw [(h.frozen boot).1]
  exact h

/-- **An established root is the one that is given out.** -/
theorem Established.eq_of_ready {page' : ℕ} {keys' : Bytes}
    (hready : (boot.step P rows).Ready page' keys') : page = page' ∧ keys = keys' := by
  obtain ⟨b, -, hafter, hopened⟩ := hready.opened
  obtain rfl := h.eq_of_chosen hopened.chosen
  obtain ⟨record, hholds, rfl⟩ := h.record
  obtain ⟨record', hholds', rfl⟩ := hopened.record
  rw [← hafter, (h.frozen boot).1] at hholds'
  rw [Option.some.inj (hholds.1.symm.trans hholds'.1)]
  exact ⟨rfl, rfl⟩

end

/-! ### Sound pages -/

section

variable (ht : Touched P rows boot.hal page b)
include ht

/-- Of the other pages nothing changes. -/
theorem Touched.frame (hpage : page ∈ otpRootPages) (hq : q ∈ otpRootPages) (hne : q ≠ page) :
    (∀ i < 64, b.rows (dataRow q + i) = rows (dataRow q + i)) ∧
      pageLock b.rows q = pageLock rows q ∧ b.rows (lockRow q - 1) = rows (lockRow q - 1) :=
  have h := not_ofPage hpage hq hne
  ⟨fun i hi ↦ ht.rows_eq _ (h.1 i hi), ht.rows_eq _ h.2.1, ht.rows_eq _ h.2.2⟩

/-- A page after a boot: what another page holds it held before. -/
theorem Touched.holds_of_ne (hpage : page ∈ otpRootPages) (hq : q ∈ otpRootPages) (hne : q ≠ page)
    {record : Bytes} (h : Holds P b.rows q record) : Holds P rows q record :=
  h.congr fun i hi ↦ ((ht.frame hpage hq hne).1 i hi).symm

/-- **A boot that chose a page leaves the pages sound**, if nothing was hidden from it. -/
theorem Touched.sound (hchosen : Chosen P rows boot.hal page)
    (hclear : ∀ p ∈ otpRootPages, ∀ record, Holds P rows p record → ¬Unreadable rows boot.hal p) :
    Sound P b.rows := by
  have honly : ∀ p ∈ otpRootPages, ∀ record, Holds P b.rows p record → p = page := by
    intro p hp record hholds
    by_contra hne
    have hholds := ht.holds_of_ne hchosen.mem hp hne hholds
    exact hclear p hp record hholds (hchosen.hidden_others p hp hne record hholds)
  refine ⟨fun p hp hforeign ↦ ?_, fun p hp hdata hbegun ↦ ?_, fun p hp q hq record record' h h' ↦ ?_⟩
  · rcases eq_or_ne p page with rfl | hne
    · rcases hforeign with hkey | hlock | ⟨hdata, hopen⟩
      · rw [ht.rows_eq _ (not_ofPage_keyLock hp)] at hkey
        exact hchosen.unforeign p hp (.inl hkey)
      · exact hlock ht.lock_within
      · exact hopen (ht.closed hdata)
    · obtain ⟨hrows, hlock, hkey⟩ := ht.frame hchosen.mem hp hne
      refine hchosen.unforeign p hp ?_
      rw [Foreign, hlock, hkey] at hforeign
      exact hforeign.imp_right (Or.imp_right (And.imp_left fun hdata hblank ↦
        hdata (hblank.congr hrows)))
  · rcases eq_or_ne p page with rfl | hne
    · exact ht.sealed hbegun
    · obtain ⟨hrows, hlock, -⟩ := ht.frame hchosen.mem hp hne
      rw [ReadOnlyBegun, hlock] at hbegun
      exact absurd hbegun (hchosen.open_others p hp hne fun hblank ↦ hdata (hblank.congr hrows))
  · rw [honly p hp record h, honly q hq record' h']

end

theorem Looking.sound (h : Looking rows boot.hal b) (hsound : Sound P rows) : Sound P b.rows :=
  h.rows_eq.symm ▸ hsound

/-- Sound pages stay sound. -/
theorem Sound.step (h : Sound P rows) (boot : RootBoot) (hclear : (boot.step P rows).NothingHidden P) :
    Sound P (boot.step P rows).after := by
  obtain ⟨b, -, hafter, heffect⟩ := boot.step_effect P rows
  rw [hafter]
  rcases heffect with ⟨hlooking, -⟩ | ⟨hprotected, page, hchosen, htouched⟩
  · exact hlooking.sound h
  · exact htouched.sound hchosen (hclear hprotected)

/-- After an interruption the pages are sound. -/
theorem RootStep.Interrupted.sound (h : (boot.step P rows).Interrupted)
    (hclear : (boot.step P rows).NothingHidden P) : Sound P (boot.step P rows).after := by
  obtain ⟨b, hlog, hafter, heffect⟩ := boot.step_effect P rows
  rw [hafter]
  rcases heffect with ⟨hlooking, houtput⟩ | ⟨hprotected, page, hchosen, htouched⟩
  · rcases h with hnone | ⟨row, value, hmem⟩
    · exact absurd hnone houtput
    · rw [hlog] at hmem
      exact absurd hmem (hlooking.idle row value)
  · exact htouched.sound hchosen (hclear hprotected)

theorem RootStep.Ready.sound (h : (boot.step P rows).Ready page keys)
    (hclear : (boot.step P rows).NothingHidden P) : Sound P (boot.step P rows).after := by
  obtain ⟨b, -, hafter, hopened⟩ := h.opened
  rw [hafter]
  exact hopened.touched.sound hopened.chosen (hclear hopened.protected_eq)

/-! ### Runs -/

section Runs

variable {boots : List RootBoot} {C : RootStep → Prop} {K : RootStep → Rows → Prop}
  {R : RootStep → RootStep → Prop}

theorem forall_rootSteps {Q : RootStep → Prop}
    (h : ∀ rows (boot : RootBoot), C (boot.step P rows) → Q (boot.step P rows))
    (hC : ∀ s ∈ rootSteps P rows boots, C s) : ∀ s ∈ rootSteps P rows boots, Q s := by
  induction boots generalizing rows with
  | nil => exact fun _ hs ↦ absurd hs not_mem_nil
  | cons boot boots ih =>
    rw [rootSteps, forall_mem_cons] at hC ⊢
    exact ⟨h rows boot hC.1, ih hC.2⟩

/-- What a step leaves behind about itself, and the later ones keep, relates it to them. -/
theorem related_of_keeps
    (hkeep : ∀ s rows (boot : RootBoot), C (boot.step P rows) → K s rows → K s (boot.step P rows).after)
    (hR : ∀ s rows (boot : RootBoot), C (boot.step P rows) → K s rows → R s (boot.step P rows))
    (hC : ∀ t ∈ rootSteps P rows boots, C t) (hK : K s rows) : ∀ t ∈ rootSteps P rows boots, R s t := by
  induction boots generalizing rows with
  | nil => exact fun _ ht ↦ absurd ht not_mem_nil
  | cons boot boots ih =>
    rw [rootSteps, forall_mem_cons] at hC ⊢
    exact ⟨hR s rows boot hC.1 hK, ih hC.2 (hkeep s rows boot hC.1 hK)⟩

/-- **A law about any two boots of a run**, from what one boot does. -/
theorem pairwise_rootSteps
    (hstart : ∀ rows (boot : RootBoot), C (boot.step P rows) →
      K (boot.step P rows) (boot.step P rows).after)
    (hkeep : ∀ s rows (boot : RootBoot), C (boot.step P rows) → K s rows → K s (boot.step P rows).after)
    (hR : ∀ s rows (boot : RootBoot), C (boot.step P rows) → K s rows → R s (boot.step P rows))
    (hC : ∀ t ∈ rootSteps P rows boots, C t) : (rootSteps P rows boots).Pairwise R := by
  induction boots generalizing rows with
  | nil => exact .nil
  | cons boot boots ih =>
    rw [rootSteps, forall_mem_cons] at hC
    exact .cons (related_of_keeps hkeep hR hC.2 (hstart rows boot hC.1)) (ih hC.2)

end Runs

/-- **What the device root is to be**, over all boots of a run. -/
structure RootLaw (P : RootParams) (steps : List RootStep) : Prop where
  /-- Without a root nothing is given out. -/
  secret : ∀ s ∈ steps, ∀ out, s.output = some out → out.state ≠ .ready →
    out.keys = List.replicate 64 0
  /-- A boot that is not protected programs nothing, and gives nothing out. -/
  unprotected : ∀ s ∈ steps, s.boot.protectedBoot = false →
    (∀ row value, .burn row value ∉ s.log) ∧ s.after = s.before ∧ ∀ page keys, ¬s.Ready page keys
  /-- The same root is given out each time. -/
  stable : steps.Pairwise fun s t ↦ ∀ page keys page' keys', s.Ready page keys →
    t.Ready page' keys' → page = page' ∧ keys = keys'
  /-- Nothing of a record is programmed before the lock of its page has been read back. -/
  guarded : ∀ s ∈ steps, Guarded s.log
  /-- What is programmed is of a candidate page that is not foreign. -/
  unforeign : ∀ s ∈ steps, ∀ row value, .burn row value ∈ s.log →
    ∃ page ∈ otpRootPages, OfPage page row ∧ ¬Foreign s.before page
  /-- A released page is not programmed again. -/
  released : steps.Pairwise fun s t ↦ ∀ page keys, s.Ready page keys →
    ∀ row value, .burn row value ∈ t.log → ¬OfPage page row
  /-- After an interruption a boot that is not disturbed gives a root out, unless there is no page
  left. -/
  resumed : steps.Pairwise fun s t ↦ s.Interrupted → t.boot.protectedBoot = true →
    t.boot.blank = true → t.boot.hal.Works →
    (∃ page keys, t.Ready page keys) ∨ ∀ p ∈ otpRootPages, Spent P t.before p
  /-- Once the root was given out, it is each time it can be read. -/
  lasting : steps.Pairwise fun s t ↦ (∃ page keys, s.Ready page keys) →
    t.boot.protectedBoot = true → t.boot.hal.ReadsSucceed → ∃ page keys, t.Ready page keys

theorem RootBoot.step_secret (P : RootParams) (rows : Rows) (boot : RootBoot) {out : RootOutput}
    (hout : (boot.step P rows).output = some out) (hstate : out.state ≠ .ready) :
    out.keys = List.replicate 64 0 := by
  rcases boot.step_cases P rows with ⟨page, keys, b, hready, -⟩ | ⟨e, b, houtput, -⟩
  · rw [RootStep.Ready, hout] at hready
    exact absurd (congrArg RootOutput.state (Option.some.inj hready)) hstate
  · rw [hout] at houtput
    rcases e with state | -
    · cases houtput
      rfl
    · cases houtput

theorem RootBoot.step_unprotected (P : RootParams) (rows : Rows) (boot : RootBoot)
    (hno : boot.protectedBoot = false) :
    (∀ row value, .burn row value ∉ (boot.step P rows).log) ∧ (boot.step P rows).after = rows ∧
      ∀ page keys, ¬(boot.step P rows).Ready page keys := by
  obtain ⟨b, hlog, hafter, heffect⟩ := boot.step_effect P rows
  rcases heffect with ⟨hlooking, -⟩ | ⟨hyes, -⟩
  · refine ⟨hlog ▸ hlooking.idle, hafter.trans hlooking.rows_eq, fun page keys hready ↦ ?_⟩
    obtain ⟨b', -, -, hopened⟩ := hready.opened
    have hyes := hopened.protected_eq
    rw [hno] at hyes
    cases hyes
  · rw [hno] at hyes
    cases hyes

theorem RootBoot.step_guarded (P : RootParams) (rows : Rows) (boot : RootBoot) :
    Guarded (boot.step P rows).log := by
  obtain ⟨b, hlog, -, heffect⟩ := boot.step_effect P rows
  rw [hlog]
  rcases heffect with ⟨hlooking, -⟩ | ⟨-, page, -, htouched⟩
  · exact hlooking.guarded
  · exact htouched.guarded

theorem RootBoot.step_unforeign (P : RootParams) (rows : Rows) (boot : RootBoot) {row : ℕ}
    {value : Row} (hmem : .burn row value ∈ (boot.step P rows).log) :
    ∃ page ∈ otpRootPages, OfPage page row ∧ ¬Foreign rows page := by
  obtain ⟨b, hlog, -, heffect⟩ := boot.step_effect P rows
  rw [hlog] at hmem
  rcases heffect with ⟨hlooking, -⟩ | ⟨-, page, hchosen, htouched⟩
  · exact absurd hmem (hlooking.idle row value)
  · exact ⟨page, hchosen.mem, htouched.burns row value hmem, hchosen.unforeign page hchosen.mem⟩

/-- From sound pages a boot that is not disturbed gives a root out, unless there is no page left. -/
theorem Sound.ready_or_spent (h : Sound P rows) (hprotected : boot.protectedBoot = true)
    (hblank : boot.blank = true) (hworks : boot.hal.Works) :
    (∃ page keys, (boot.step P rows).Ready page keys) ∨ ∀ p ∈ otpRootPages, Spent P rows p := by
  rcases boot.step_cases P rows with ⟨page, keys, b, hready, -⟩ | ⟨e, b, -, -, -, hfailed⟩
  · exact .inl ⟨page, keys, hready⟩
  · exact .inr (hfailed.spent hprotected hblank hworks h)

/-- From sound pages an established root is given out if it can be read. -/
theorem Established.ready (h : Established P rows page keys) (hsound : Sound P rows)
    (hprotected : boot.protectedBoot = true) (hreads : boot.hal.ReadsSucceed) :
    ∃ page keys, (boot.step P rows).Ready page keys := by
  rcases boot.step_cases P rows with ⟨page, keys, b, hready, -⟩ | ⟨e, b, -, -, -, hfailed⟩
  · exact ⟨page, keys, hready⟩
  · obtain ⟨record, hholds, -⟩ := h.record
    exact absurd h.effective (hfailed.released hprotected hreads hsound page h.mem record hholds)

/-- **The device root is stable, secret and recoverable**, in every run in which no read error hides
a complete record that is not yet read-only. -/
theorem otp_root_law (P : RootParams) (rows : Rows) (boots : List RootBoot)
    (h : ∀ s ∈ rootSteps P rows boots, s.NothingHidden P) : RootLaw P (rootSteps P rows boots) where
  secret := forall_rootSteps (fun rows boot _ out ↦ boot.step_secret P rows) h
  unprotected := forall_rootSteps (fun rows boot _ ↦ boot.step_unprotected P rows) h
  stable := pairwise_rootSteps (K := fun s rows ↦ ∀ page keys, s.Ready page keys →
      Established P rows page keys) (fun _ _ _ _ _ hready ↦ hready.established)
    (fun _ _ boot _ hK page keys hready ↦ (hK page keys hready).step boot)
    (fun _ _ _ _ hK page keys _ _ hready hready' ↦ (hK page keys hready).eq_of_ready hready') h
  guarded := forall_rootSteps (fun rows boot _ ↦ boot.step_guarded P rows) h
  unforeign := forall_rootSteps (fun rows boot _ row value ↦ boot.step_unforeign P rows) h
  released := pairwise_rootSteps (K := fun s rows ↦ ∀ page keys, s.Ready page keys →
      Established P rows page keys) (fun _ _ _ _ _ hready ↦ hready.established)
    (fun _ _ boot _ hK page keys hready ↦ (hK page keys hready).step boot)
    (fun _ _ boot _ hK page keys hready row value hmem ↦
      absurd hmem (((hK page keys hready).frozen boot).2 row value)) h
  resumed := pairwise_rootSteps (K := fun s rows ↦ s.Interrupted → Sound P rows)
    (fun _ _ hclear hcut ↦ hcut.sound hclear)
    (fun _ _ boot hclear hK hcut ↦ (hK hcut).step boot hclear)
    (fun _ _ _ _ hK hcut ↦ (hK hcut).ready_or_spent) h
  lasting := pairwise_rootSteps (K := fun s rows ↦ (∃ page keys, s.Ready page keys) →
      Sound P rows ∧ ∃ page keys, Established P rows page keys)
    (fun _ _ hclear hready ↦ by
      obtain ⟨page, keys, hready⟩ := hready
      exact ⟨hready.sound hclear, page, keys, hready.established⟩)
    (fun _ _ boot hclear hK hready ↦ by
      obtain ⟨hsound, page, keys, hestablished⟩ := hK hready
      exact ⟨hsound.step boot hclear, page, keys, hestablished.step boot⟩)
    (fun _ _ _ _ hK hready hprotected hreads ↦ by
      obtain ⟨hsound, page, keys, hestablished⟩ := hK hready
      exact hestablished.ready hsound hprotected hreads) h

/-! ### A root that is lost -/

theorem decode_plain (v : BitVec 16) :
    (if (0x10000 ||| v.setWidth 24 : Row) = 0 then some 0 else
      if (0x10000 ||| v.setWidth 24 : Row) >>> 16 = 1 then
        some ((0x10000 ||| v.setWidth 24 : Row).setWidth 16) else none) = some v := by
  have hmark : ((0x10000 ||| v.setWidth 24 : Row)).getLsbD 16 = true := by
    rw [getLsbD_or]
    exact Bool.true_or _
  have hne : (0x10000 ||| v.setWidth 24 : Row) ≠ 0 := fun h ↦ by
    rw [h] at hmark
    cases hmark
  have hshift : (0x10000 ||| v.setWidth 24 : Row) >>> 16 = 1 := by
    refine eq_of_getLsbD_eq fun i hi ↦ ?_
    rw [getLsbD_ushiftRight, getLsbD_or, getLsbD_setWidth,
      getLsbD_of_ge v (16 + i) (by omega), Bool.and_false, Bool.or_false]
    interval_cases i <;> decide
  have hlow : (0x10000 ||| v.setWidth 24 : Row).setWidth 16 = v := by
    refine eq_of_getLsbD_eq fun i hi ↦ ?_
    rw [getLsbD_setWidth, getLsbD_or, getLsbD_setWidth]
    have hzero : (0x10000 : Row).getLsbD i = false := by interval_cases i <;> decide
    rw [hzero, Bool.false_or, decide_eq_true hi, Bool.true_and, decide_eq_true (by omega),
      Bool.true_and]
  rw [if_neg hne, if_pos hshift, hlow]

/-- A code that marks every row that was programmed, and a digest that sums up the bytes. -/
def plainRootParams : RootParams where
  ecc :=
    { encode := fun v ↦ 0x10000 ||| v.setWidth 24
      decode := fun row ↦ if row = 0 then some 0 else
        if row >>> 16 = 1 then some (row.setWidth 16) else none
      decode_encode := decode_plain
      decode_zero := rfl }
  hash message := List.replicate 32 (message.foldl (· + ·) 1)
  length_hash _ := List.length_replicate

/-- A boot in which everything works. -/
def quietHal : RootHal where
  rawFails _ _ := false
  eccFails _ _ := false
  random := some ⟨List.replicate 64 7, List.length_replicate⟩
  burn _ _ := .done

/-- The power is lost when the lock of the first page is to be made read-only. -/
def cutHal : RootHal :=
  { quietHal with burn := fun n row ↦ if row = lockRow 56 ∧ 240 < n then .torn true 0 else .done }

/-- The record of the first page cannot be read. -/
def hiddenHal : RootHal :=
  { quietHal with eccFails := fun _ row ↦ row = dataRow 56 }

/-- A complete record is hidden from the second boot by a read error. -/
def hiddenRootBoots : List RootBoot :=
  [⟨true, true, cutHal⟩, ⟨true, true, hiddenHal⟩, ⟨true, true, quietHal⟩]

/-- The second boot takes the page for an interrupted one and makes another root; the third finds
two, and refuses both. -/
theorem hidden_root_lost :
    ¬RootLaw plainRootParams (rootSteps plainRootParams (fun _ ↦ 0) hiddenRootBoots) := by
  intro h
  have hsecond := (pairwise_cons.mp (pairwise_cons.mp h.lasting).2).1 _
    (mem_cons_self ..)
  have hready : ((rootSteps plainRootParams (fun _ ↦ 0) hiddenRootBoots)[1]?.bind (·.output)) =
      some ⟨.ready, List.replicate 64 7, 57⟩ := by decide +kernel
  have hcorrupt : ((rootSteps plainRootParams (fun _ ↦ 0) hiddenRootBoots)[2]?.bind (·.output)) =
      some ⟨.corrupt, List.replicate 64 0, 0xff⟩ := by decide +kernel
  obtain ⟨page, keys, hthird⟩ := hsecond ⟨_, _, hready⟩ rfl fun _ _ ↦ ⟨rfl, rfl⟩
  have heq : some (⟨.ready, keys, page⟩ : RootOutput) = some ⟨.corrupt, List.replicate 64 0, 0xff⟩ :=
    hthird.symm.trans hcorrupt
  cases heq

/-- Where every record can be read, nothing is hidden. -/
theorem nothingHidden_of_reads {boots : List RootBoot}
    (h : ∀ boot ∈ boots, ∀ n row, boot.hal.eccFails n row = false) :
    ∀ s ∈ rootSteps P rows boots, s.NothingHidden P := by
  induction boots generalizing rows with
  | nil => exact fun _ hs ↦ absurd hs not_mem_nil
  | cons boot boots ih =>
    rw [forall_mem_cons] at h
    rw [rootSteps, forall_mem_cons]
    refine ⟨fun _ p _ record _ hhidden ↦ ?_, ih h.2⟩
    obtain ⟨-, n, hfails⟩ := hhidden
    exact absurd ((h.1 n (dataRow p)).symm.trans hfails) Bool.false_ne_true

/-- A root that was not locked when the power was lost is given out by the next boot. -/
theorem otp_root_law_resumed :
    RootLaw plainRootParams (rootSteps plainRootParams (fun _ ↦ 0)
      [⟨true, true, cutHal⟩, ⟨true, true, quietHal⟩]) ∧
    (rootSteps plainRootParams (fun _ ↦ 0)
      [⟨true, true, cutHal⟩, ⟨true, true, quietHal⟩]).map (·.output) =
        [none, some ⟨.ready, List.replicate 64 7, 56⟩] :=
  ⟨otp_root_law _ _ _ (nothingHidden_of_reads (by simp [cutHal, quietHal])), by decide +kernel⟩

end PicoAll.Otp
