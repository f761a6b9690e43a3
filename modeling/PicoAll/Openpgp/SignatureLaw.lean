import PicoAll.Openpgp.Signature

/-!
# Signatures are authorized and counted

Every command keeps that the counter is not smaller than the number of signatures, and that where a
verification is demanded and PW1 counts as verified, it was verified since the last signature. What
is to hold of a command (`SigCommandLaw`) is kept along its program.
-/

namespace PicoAll.Openpgp

open FaultProgram BigEndian Nat

variable {adminless : Bool} {c : SigCommand} {d₀ d d' : SigDevice} {note : SigNote}

/-! ### The history -/

/-- A note of neither a signature nor a use of the signature key. -/
def SigNote.Tame (note : SigNote) : Prop :=
  note ≠ .signed ∧ note ≠ .used efPkSig

theorem signatures_cons (h : note ≠ .signed) (notes : List SigNote) :
    signatures (note :: notes) ≤ signatures notes := by
  cases note with
  | verified => exact le_refl _
  | used fid => exact le_refl _
  | signed => exact absurd rfl h
  | keyMade => exact zero_le _

theorem verifiedSince_cons (h : note ≠ .signed) {notes : List SigNote}
    (hnotes : verifiedSince notes = true) : verifiedSince (note :: notes) = true := by
  cases note with
  | verified => rfl
  | used fid => exact hnotes
  | signed => exact absurd rfl h
  | keyMade => exact hnotes

/-! ### The invariant -/

/-- A counter has three bytes. -/
def IsCounter (content : Option Bytes) : Prop :=
  ∃ bytes : Bytes, content = some bytes ∧ bytes.length = 3

/-- A key that is not the one for signatures. -/
def OtherKey (fid : ℕ) : Prop :=
  fid = efPkDec ∨ fid = efPkAut

variable {fid : ℕ} {E : Exit UInt16 → SigDevice → Prop} {content : Option Bytes} {p1 p2 : UInt8}

theorem OtherKey.ne (h : OtherKey fid) : fid ≠ efPkSig := by
  obtain rfl | rfl := h <;> decide

structure SigInv (d : SigDevice) : Prop where
  counters : d.Always .sigCount IsCounter
  enough : signatures d.ram.history ≤ sigCount d
  verified : d.ram.hasPw1 = true → forcesig (d.read .pwPriv) = true →
    verifiedSince d.ram.history = true
  pkDec : OtherKey d.ram.pkDec
  pkAut : OtherKey d.ram.pkAut

/-- What a command has done so far. -/
structure SigDone (c : SigCommand) (d₀ d : SigDevice) : Prop where
  law : ∃ added, SigCommandLaw c d₀ d added
  inv : SigInv d

theorem SigDone.refl (h : SigInv d) : SigDone c d d :=
  ⟨⟨[], rfl, (by simp), (by simp), (by simp)⟩, h⟩

/-- The memory changes, but not the history, and PW1 does not become verified. -/
structure Unnoted (ram ram' : SigRam) : Prop where
  history : ram'.history = ram.history
  hasPw1 : ram'.hasPw1 = true → ram.hasPw1 = true
  pkDec : OtherKey ram.pkDec → OtherKey ram'.pkDec
  pkAut : OtherKey ram.pkAut → OtherKey ram'.pkAut

variable {f : SigRam → SigRam} {A : Outcome → Prop}

theorem SigInv.setRam (h : SigInv d) (hf : Unnoted d.ram (f d.ram)) : SigInv (d.setRam f) where
  counters := h.counters.of_files rfl
  enough := by
    rw [Device.ram_setRam, hf.history]
    exact h.enough
  verified hpw1 hforced := by
    rw [Device.ram_setRam, hf.history]
    exact h.verified (hf.hasPw1 hpw1) hforced
  pkDec := hf.pkDec h.pkDec
  pkAut := hf.pkAut h.pkAut

theorem SigDone.setRam (h : SigDone c d₀ d) (hf : Unnoted d.ram (f d.ram)) :
    SigDone c d₀ (d.setRam f) := by
  obtain ⟨⟨added, hlaw⟩, hinv⟩ := h
  exact ⟨⟨added, hf.history.trans hlaw.history, hlaw.key, hlaw.verified, hlaw.grows⟩,
    hinv.setRam hf⟩

theorem SigInv.noted (h : SigInv d) (hnote : note ≠ .signed) :
    SigInv (d.setRam fun ram ↦ { ram with history := note :: ram.history }) where
  counters := h.counters.of_files rfl
  enough := (signatures_cons hnote _).trans h.enough
  verified hpw1 hforced := verifiedSince_cons hnote (h.verified hpw1 hforced)
  pkDec := h.pkDec
  pkAut := h.pkAut

theorem SigDone.noted (h : SigDone c d₀ d) (hnote : note.Tame) :
    SigDone c d₀ (d.setRam fun ram ↦ { ram with history := note :: ram.history }) := by
  obtain ⟨⟨added, hlaw⟩, hinv⟩ := h
  have hmem {other : SigNote} (hother : other ∈ note :: added) (hne : note ≠ other) :
      other ∈ added :=
    (List.mem_cons.1 hother).resolve_left hne.symm
  refine ⟨⟨note :: added, congrArg (note :: ·) hlaw.history, fun hkey ↦ hlaw.key ?_,
    fun hsigned ↦ hlaw.verified (hmem hsigned hnote.1),
    fun hsigned ↦ hlaw.grows (hmem hsigned hnote.1)⟩, hinv.noted hnote.1⟩
  exact hkey.imp (hmem · hnote.2) (hmem · hnote.1)

/-! ### The programs -/

theorem wp_sigModifyRam {Q : Unit → SigDevice → Prop} (h : Q () (d.setRam f)) :
    wp A (sigModifyRam f) Q E d :=
  wp_modifyState h

theorem keeps_sigModifyRam (hf : ∀ ram, Unnoted ram (f ram)) :
    Preserves (SigDone c d₀) (sigModifyRam f) :=
  fun _ _ h ↦ wp_sigModifyRam ⟨h.setRam (hf _), trivial⟩

theorem keeps_noteSig (hnote : note.Tame) : Preserves (SigDone c d₀) (noteSig note) :=
  fun _ _ h ↦ wp_sigModifyRam ⟨h.noted hnote, trivial⟩

theorem SigInv.attempted (h : SigInv d) (i : SigFile) : SigInv (d.attempted i) :=
  ⟨h.counters.attempted i, h.enough, h.verified, h.pkDec, h.pkAut⟩

theorem SigDone.attempted (h : SigDone c d₀ d) (i : SigFile) : SigDone c d₀ (d.attempted i) := by
  obtain ⟨⟨added, hlaw⟩, hinv⟩ := h
  exact ⟨⟨added, hlaw.history, hlaw.key, hlaw.verified, hlaw.grows⟩, hinv.attempted i⟩

/-- MANAGE SECURITY ENVIRONMENT chooses one of two keys. -/
theorem unnoted_manageSe (ram : SigRam) (p2 key : UInt8) : Unnoted ram (ram.manageSe p2 key) := by
  have hkey : OtherKey (if key = 0x02 then efPkDec else efPkAut) := by
    split
    · exact .inl rfl
    · exact .inr rfl
  unfold SigRam.manageSe
  dsimp only
  split
  · exact ⟨rfl, id, id, fun _ ↦ hkey⟩
  · exact ⟨rfl, id, fun _ ↦ hkey, id⟩

theorem keeps_cmdMse (p1 p2 : UInt8) (data : Bytes) :
    Preserves (SigDone c d₀) (cmdMse p1 p2 data) := by
  exact .ite (fun _ ↦ .pure trivial) fun _ ↦ .ite (fun _ ↦ .pure trivial) fun _ ↦
    .bind (keeps_sigModifyRam fun ram ↦ unnoted_manageSe ram p2 _) fun _ _ ↦ .pure trivial

theorem keeps_cmdInternalAut (p1 p2 : UInt8) (use : KeyUse) :
    Preserves (SigDone c d₀) (cmdInternalAut p1 p2 use) := by
  refine .bind .getState fun d hd ↦ .ite (fun _ ↦ .pure trivial) fun _ ↦
    .ite (fun _ ↦ .pure trivial) fun _ ↦ ?_
  have htame : (SigNote.used d.ram.pkAut).Tame :=
    ⟨by simp, fun hused ↦ hd.inv.pkAut.ne (SigNote.used.inj hused)⟩
  cases use with
  | refused sw => exact .pure trivial
  | failed sw => exact .bind (keeps_noteSig htame) fun _ _ ↦ .pure trivial
  | done response => exact .bind (keeps_noteSig htame) fun _ _ ↦ .pure trivial

theorem keeps_forgetFirst (adminless verify : Bool) (p2 : UInt8) :
    Preserves (SigDone c d₀) (forgetFirst adminless verify p2) :=
  .ite (fun _ ↦ keeps_sigModifyRam fun _ ↦ ⟨rfl, (by cases ·), id, id⟩) fun _ ↦ .pure trivial

/-- PW1 is right, and this is noted. -/
theorem SigDone.verified (h : SigDone c d₀ d) (adminless : Bool) :
    SigDone c d₀ (d.setRam fun ram ↦
      { ram with
        hasPw1 := true
        hasPw3 := ram.hasPw3 || adminless
        history := .verified :: ram.history }) := by
  have htame : SigNote.verified.Tame := ⟨by simp, by simp⟩
  obtain ⟨⟨added, hlaw⟩, hinv⟩ := h.noted htame
  exact ⟨⟨added, hlaw.history, hlaw.key, hlaw.verified, hlaw.grows⟩,
    hinv.counters.of_files rfl, hinv.enough, fun _ _ ↦ rfl, hinv.pkDec, hinv.pkAut⟩

theorem SigDone.checked (h : SigDone c d₀ d) (adminless : Bool) (p2 : UInt8) (check : PinCheck) :
    SigDone c d₀ (d.setRam (·.checked adminless p2 check)) := by
  unfold SigRam.checked
  cases check with
  | refused => exact h.setRam ⟨rfl, id, id, id⟩
  | wrong =>
    by_cases hp2 : p2 = 0x81
    · simp only [hp2, if_true]
      exact h.setRam ⟨rfl, (by cases ·), id, id⟩
    · simp only [hp2, if_false]
      exact h.setRam ⟨rfl, id, id, id⟩
  | right =>
    by_cases hp2 : p2 = 0x81
    · simp only [hp2, if_true]
      exact h.verified adminless
    · simp only [hp2, if_false]
      exact h.setRam ⟨rfl, id, id, id⟩

theorem keeps_checkPw1 (adminless verify : Bool) (p2 : UInt8) (check : PinCheck) (sw : UInt16) :
    Preserves (SigDone c d₀) (checkPw1 adminless verify p2 check sw) := by
  have hcheck : Preserves (SigDone c d₀) (sigModifyRam (·.checked adminless p2 check)) :=
    fun _ _ h ↦ wp_sigModifyRam ⟨h.checked adminless p2 check, trivial⟩
  exact .bind (keeps_forgetFirst adminless verify p2) fun _ _ ↦
    .bind hcheck fun _ _ ↦ .pure trivial

theorem keeps_select : Preserves (SigDone c d₀) (SigCommand.run adminless .select) :=
  .bind (keeps_sigModifyRam fun _ ↦ ⟨rfl, (by cases ·), fun _ ↦ .inl rfl, fun _ ↦ .inr rfl⟩)
    fun _ _ ↦ .pure trivial

theorem keeps_other (forgets hasPw2 hasPw3 : Bool) (sw : UInt16) (response : Bytes) :
    Preserves (SigDone c d₀)
      (SigCommand.run adminless (.other forgets hasPw2 hasPw3 sw response)) := by
  refine .bind (keeps_sigModifyRam fun ram ↦ ⟨rfl, fun hpw1 ↦ ?_, id, id⟩) fun _ _ ↦ .pure trivial
  exact (Bool.and_eq_true_iff.1 hpw1).1

/-! ### The files -/

section

variable (h : SigDone c d₀ d)
include h

/-- The counter of a command that makes no signature is written. -/
theorem SigDone.writtenCount (hcds : ¬c.IsCds) {bytes : Bytes}
    (hbytes : bytes.length = 3) (henough : signatures d.ram.history ≤ beNat bytes) :
    SigDone c d₀ (d.written .sigCount (some bytes)) := by
  obtain ⟨⟨added, hlaw⟩, hinv⟩ := h
  have hother : (d.written .sigCount (some bytes)).read .pwPriv = d.read .pwPriv :=
    Device.read_written_of_ne (by decide)
  have hcount : sigCount (d.written .sigCount (some bytes)) = beNat bytes := by
    rfl
  refine ⟨⟨added, hlaw.history, hlaw.key, hlaw.verified, fun hsigned ↦ ?_⟩,
    hinv.counters.written fun _ ↦ ⟨bytes, rfl, hbytes⟩, hcount ▸ henough, ?_,
    hinv.pkDec, hinv.pkAut⟩
  · exact absurd (hlaw.key (.inr hsigned)) hcds
  · rw [hother]
    exact hinv.verified

theorem wp_noteKeyMade (fid : ℕ) :
    wp A (noteKeyMade fid)
      (fun _ d' ↦ SigDone c d₀ d' ∧ (fid = efPkSig → signatures d'.ram.history = 0))
      (fun _ ↦ SigDone c d₀) d := by
  refine wp_ite (fun _ ↦ wp_sigModifyRam ⟨h.noted ⟨by simp, by simp⟩, fun _ ↦ rfl⟩) fun hfid ↦ ?_
  exact wp_pure ⟨h, fun heq ↦ absurd heq hfid⟩

/-- Once the key was made, its counter starts. -/
theorem wp_finishKey (hcds : ¬c.IsCds) (hzero : fid = efPkSig → signatures d.ram.history = 0) :
    wp A (finishKey fid) (fun _ ↦ SigDone c d₀) (fun _ ↦ SigDone c d₀) d := by
  refine wp_ite (fun hfid ↦ wp_get ?_) fun _ ↦ wp_pure h
  split
  · exact wp_pure h
  · have hwritten := h.writtenCount hcds (length_beBytes 3 0)
      ((hzero hfid).trans_le (zero_le _))
    exact wp_putIgnoring (fun _ ↦ hwritten) (fun _ ↦ h.attempted .sigCount)
      fun _ ↦ h.attempted .sigCount

/-- A key that is made starts its counter anew. -/
theorem wp_makeKey (hcds : ¬c.IsCds) (fid : ℕ) (making : KeyMaking) :
    wp A (makeKey fid making) (fun _ ↦ SigDone c d₀) (fun _ ↦ SigDone c d₀) d := by
  refine wp_get (wp_return h fun _ ↦ ?_)
  cases making with
  | kept sw => exact wp_pure h
  | late sw =>
    exact wp_then (wp_noteKeyMade h fid) fun _ _ h ↦ wp_pure h.1
  | made response =>
    refine wp_then (wp_noteKeyMade h fid) fun _ d' h ↦ ?_
    exact wp_then (wp_finishKey h.1 hcds h.2) fun _ _ h ↦ wp_pure h

/-- The record of the PINs is written; it makes no demand that it did not make, or PW1 is not
verified since before a signature. -/
theorem SigDone.writtenStatus
    (hdemand : forcesig content = true → forcesig (d.read .pwPriv) = false → d.ram.hasPw1 = true →
      verifiedSince d.ram.history = true) :
    SigDone c d₀ (d.written .pwPriv content) := by
  obtain ⟨⟨added, hlaw⟩, hinv⟩ := h
  have hother : (d.written .pwPriv content).read .sigCount = d.read .sigCount :=
    Device.read_written_of_ne (by decide)
  have hcount : sigCount (d.written .pwPriv content) = sigCount d := congrArg sigCounter hother
  refine ⟨⟨added, hlaw.history, hlaw.key, hlaw.verified, fun hsigned ↦ ?_⟩,
    hinv.counters.written (by simp), hcount ▸ hinv.enough, fun hpw1 hforced ↦ ?_,
    hinv.pkDec, hinv.pkAut⟩
  · rw [hcount]
    exact hlaw.grows hsigned
  · rw [Device.read_written_self] at hforced
    by_cases hbefore : forcesig (d.read .pwPriv) = true
    · exact hinv.verified hpw1 hbefore
    · exact hdemand hforced (by simpa using hbefore) hpw1

/-- A record that is put asks for nothing that has not been given. -/
theorem wp_putPwPriv
    (hdemand : d.ram.hasPw3 = true → d.outcome .pwPriv = .ok ∨ d.outcome .pwPriv = .late →
      forcesig content = true → forcesig (d.read .pwPriv) = false → d.ram.hasPw1 = true →
      verifiedSince d.ram.history = true) :
    wp A (putPwPriv content) (fun _ ↦ SigDone c d₀) (fun _ ↦ SigDone c d₀) d := by
  refine wp_get (wp_return h fun hpw3 ↦ wp_bind ?_)
  have hpw3 : d.ram.hasPw3 = true := by simpa using hpw3
  have hattempted := h.attempted .pwPriv
  refine wp_put (fun hok ↦ wp_pure ?_) (fun _ ↦ hattempted) (fun hlate ↦ ?_) fun _ ↦ hattempted
  · exact h.writtenStatus (hdemand hpw3 (.inl hok))
  · exact h.writtenStatus (hdemand hpw3 (.inr hlate))

end

/-! ### COMPUTE DIGITAL SIGNATURE -/

/-- The other operations use other keys. -/
theorem psoKey_ne {ram : SigRam} {data : Bytes} (hcds : ¬(p1 = 0x9e ∧ p2 = 0x9a))
    (hpkDec : OtherKey ram.pkDec) (h : psoKey ram p1 p2 data = .ok fid) : fid ≠ efPkSig := by
  unfold psoKey at h
  split_ifs at h
  · obtain rfl := Except.ok.inj h
    decide
  · obtain rfl := Except.ok.inj h
    exact hpkDec.ne
  · obtain rfl := Except.ok.inj h
    decide

theorem keeps_cmdPso_other (hcds : ¬(p1 = 0x9e ∧ p2 = 0x9a)) (data : Bytes) (use : KeyUse) :
    Preserves (SigDone c d₀) (cmdPso adminless p1 p2 data use) := by
  refine .bind .getState fun d hd ↦ .bind (.liftExcept fun _ _ ↦ trivial) fun _ _ ↦
    .bind (R := fun fid ↦ fid ≠ efPkSig) (.liftExcept fun fid h ↦ psoKey_ne hcds hd.inv.pkDec h)
      fun fid hfid ↦ ?_
  have htame : (SigNote.used fid).Tame :=
    ⟨by simp, fun hused ↦ hfid (SigNote.used.inj hused)⟩
  have hfinish : Preserves (SigDone c d₀) (finishSignature adminless p1 p2) :=
    .ite (fun h ↦ absurd h hcds) fun _ ↦ .pure trivial
  cases use with
  | refused sw => exact .pure trivial
  | failed sw => exact .bind (keeps_noteSig htame) fun _ _ ↦ .pure trivial
  | done response =>
    exact .bind (keeps_noteSig htame) fun _ _ ↦ .bind hfinish fun _ _ ↦ .pure trivial

/-- Where a verification is demanded, COMPUTE DIGITAL SIGNATURE needs it, whatever PW3 is. -/
theorem hasPw1_of_psoAuthorized (hcds : p1 = 0x9e ∧ p2 = 0x9a) (h : psoAuthorized d p1 p2 = .ok ())
    (hforced : forcesig (d.read .pwPriv) = true) : d.ram.hasPw1 = true := by
  by_contra hpw1
  rw [psoAuthorized, if_pos hcds, if_pos ⟨by simpa using hpw1, .inl hforced⟩] at h
  cases h

theorem forcesig_eq_false {status : Bytes} (h : status.getD 0 0 ≠ 0) :
    forcesig (some status) = false :=
  decide_eq_false fun hforced ↦ h hforced.2

/-- What `inc_sig_count` leaves where it counts. -/
structure Counted (d d' : SigDevice) : Prop where
  inv : SigInv d'
  history : d'.ram.history = d.ram.history
  count : sigCount d' = sigCount d + 1
  /-- The verification is spent where it is demanded. -/
  spent : d'.ram.hasPw1 = true → forcesig (d'.read .pwPriv) = false

/-- What `spendPw1` leaves. -/
structure CountSpent (d d' : SigDevice) : Prop where
  inv : SigInv d'
  history : d'.ram.history = d.ram.history
  read : d'.read = d.read
  outcome : d'.outcome .sigCount = d.outcome .sigCount
  spent : d'.ram.hasPw1 = true → forcesig (d.read .pwPriv) = false

theorem wp_spendPw1 (h : SigInv d) {status : Bytes} (hstatus : d.read .pwPriv = some status) :
    wp A (spendPw1 adminless status) (fun _ ↦ CountSpent d) E d := by
  refine wp_ite (fun _ ↦ wp_sigModifyRam ?_) fun hkept ↦ wp_pure ?_
  · exact ⟨h.setRam ⟨rfl, (by cases ·), id, id⟩, rfl, rfl, rfl, (by cases ·)⟩
  · exact ⟨h, rfl, rfl, rfl, fun _ ↦ hstatus ▸ forcesig_eq_false hkept⟩

/-- The next number is written to the counter. -/
theorem CountSpent.counted (h : CountSpent d₀ d) {count : Bytes} (hcount : d.read .sigCount = some count)
    (hlt : sigCount d₀ < 2 ^ 24 - 1) :
    Counted d₀ (d.written .sigCount (some (beBytes 3 (beNat count + 1)))) := by
  have hbefore : sigCount d₀ = beNat count := by
    rw [sigCount, ← h.read, hcount]
    rfl
  have hafter : sigCount (d.written .sigCount (some (beBytes 3 (beNat count + 1)))) =
      sigCount d₀ + 1 := by
    rw [sigCount, Device.read_written_self, hbefore]
    exact beNat_beBytes (by omega)
  have hother : (d.written .sigCount (some (beBytes 3 (beNat count + 1)))).read .pwPriv =
      d₀.read .pwPriv :=
    (Device.read_written_of_ne (by decide)).trans (congrFun h.read _)
  refine ⟨⟨h.inv.counters.written fun _ ↦ ⟨_, rfl, length_beBytes 3 _⟩, ?_, fun hpw1 hforced ↦ ?_,
    h.inv.pkDec, h.inv.pkAut⟩, h.history, hafter, ?_⟩
  · have henough : signatures d.ram.history ≤ sigCount d := h.inv.enough
    rw [hafter]
    calc signatures d.ram.history ≤ sigCount d := henough
      _ = sigCount d₀ := by rw [sigCount, h.read, sigCount]
      _ ≤ sigCount d₀ + 1 := le_succ _
  · rw [hother, h.spent hpw1] at hforced
    cases hforced
  · rw [hother]
    exact h.spent

/-- The counter is written, or the power is lost. -/
theorem wp_incSigCount (h : SigInv d) (hstatus : (d.read .pwPriv).isSome = true)
    (hlt : sigCount d < 2 ^ 24 - 1) (hoks : d.outcome .sigCount ≠ .fail) :
    wp A (incSigCount adminless) (fun _ ↦ Counted d)
      (fun _ d' ↦ SigInv d' ∧ d'.ram.history = d.ram.history) d := by
  obtain ⟨status, hread⟩ := Option.isSome_iff_exists.1 hstatus
  refine wp_get ?_
  rw [hread]
  refine wp_then (wp_spendPw1 h hread) fun _ d' hspent ↦ ?_
  obtain ⟨count, hcount, -⟩ := h.counters.read
  rw [hcount]
  refine wp_putIgnoring (fun _ ↦ ?_) (fun hfail ↦ ?_) fun _ ↦ ?_
  · exact hspent.counted ((congrFun hspent.read _).trans hcount) hlt
  · exact absurd (hspent.outcome.symm.trans hfail) hoks
  · exact ⟨hspent.inv.attempted _, hspent.history⟩

/-- A note of COMPUTE DIGITAL SIGNATURE. -/
theorem SigDone.used (h : SigInv d) (hcds : c.IsCds) (fid : ℕ) :
    SigDone c d (d.setRam fun ram ↦ { ram with history := .used fid :: ram.history }) :=
  ⟨⟨[.used fid], rfl, fun _ ↦ hcds, (by simp), (by simp)⟩, h.noted (by simp)⟩

/-- The note of a signature that was counted. -/
theorem Counted.signed (hcds : c.IsCds) (hinv : SigInv d₀)
    (hpw1 : forcesig (d₀.read .pwPriv) = true → d₀.ram.hasPw1 = true)
    (h : Counted (d₀.setRam fun ram ↦ { ram with history := .used fid :: ram.history }) d) :
    SigDone c d₀ (d.setRam fun ram ↦ { ram with history := .signed :: ram.history }) := by
  have hcount : sigCount d = sigCount d₀ + 1 := h.count
  have henough : signatures d₀.ram.history ≤ sigCount d₀ := hinv.enough
  refine ⟨⟨[.signed, .used fid], congrArg (SigNote.signed :: ·) h.history, fun _ ↦ hcds,
    fun _ hforced ↦ hinv.verified (hpw1 hforced) hforced, fun _ ↦ ?_⟩,
    h.inv.counters.of_files rfl, ?_, fun hpw1 hforced ↦ ?_, h.inv.pkDec, h.inv.pkAut⟩
  · show sigCount d₀ < sigCount d
    omega
  · show signatures (.signed :: d.ram.history) ≤ sigCount d
    rw [h.history, hcount]
    exact succ_le_succ henough
  · exact absurd ((h.spent hpw1).symm.trans hforced) Bool.false_ne_true

/-- **A signature is made by a PW1 that was verified, and counted.** -/
theorem wp_cmdPso_cds (h : SigInv d) (hcds : p1 = 0x9e ∧ p2 = 0x9a) (data : Bytes) (use : KeyUse)
    (hc : c.IsCds)
    (hkeeps : ∀ response, use = .done response → psoAuthorized d p1 p2 = .ok () →
      (d.read .pwPriv).isSome = true ∧ sigCount d < 2 ^ 24 - 1 ∧ d.outcome .sigCount ≠ .fail) :
    wp A (cmdPso adminless p1 p2 data use) (fun _ ↦ SigDone c d) (fun _ ↦ SigDone c d) d := by
  refine wp_get (wp_lift (fun _ hauthorized ↦ ?_) fun _ _ ↦ .refl h)
  refine wp_lift (fun fid _ ↦ ?_) fun _ _ ↦ .refl h
  cases use with
  | refused sw => exact wp_pure (.refl h)
  | failed sw => exact wp_bind (wp_sigModifyRam (wp_pure (.used h hc fid)))
  | done response =>
    obtain ⟨hstatus, hlt, hoks⟩ := hkeeps response rfl hauthorized
    refine wp_bind (wp_sigModifyRam (wp_bind ?_))
    refine wp_ite (fun _ ↦ wp_bind ?_) fun hne ↦ absurd hcds hne
    refine wp_mono (wp_incSigCount (h.noted (by simp)) hstatus hlt hoks) (fun _ d' hcounted ↦ ?_)
      fun _ d' hlost ↦ ?_
    · exact wp_sigModifyRam
        (wp_pure (hcounted.signed hc h (hasPw1_of_psoAuthorized hcds hauthorized)))
    · obtain ⟨hinv, hhistory⟩ := hlost
      exact ⟨⟨[.used fid], hhistory, fun _ ↦ hc, (by simp), (by simp)⟩, hinv⟩

/-! ### Runs -/

/-- What a command does, whatever the environment does to its writes. -/
theorem wp_sigCommand (h : SigInv d) (hkeeps : KeepsSignatures d (.command c d.faults)) :
    wp A (c.run adminless) (fun _ ↦ SigDone c d) (fun _ ↦ SigDone c d) d := by
  have hrefl : SigDone c d d := .refl h
  have of_keeps {β : Type} {m : SigProg β} (hm : Preserves (SigDone c d) m) :
      wp A m (fun _ ↦ SigDone c d) (fun _ ↦ SigDone c d) d :=
    wp_mono (hm A d hrefl) (fun _ _ h ↦ h.1) fun _ _ h ↦ h
  cases c with
  | pso p1 p2 data use =>
    by_cases hcds : p1 = 0x9e ∧ p2 = 0x9a
    · refine wp_cmdPso_cds h hcds data use hcds fun response huse ↦ ?_
      subst huse
      exact hkeeps hcds
    · exact of_keeps (keeps_cmdPso_other hcds data use)
  | internalAut p1 p2 use => exact of_keeps (keeps_cmdInternalAut p1 p2 use)
  | mse p1 p2 data => exact of_keeps (keeps_cmdMse p1 p2 data)
  | makeKey fid making => exact wp_makeKey hrefl id fid making
  | checkPw1 verify p2 check sw => exact of_keeps (keeps_checkPw1 adminless verify p2 check sw)
  | putPwPriv content => exact wp_putPwPriv hrefl hkeeps
  | other forgets hasPw2 hasPw3 sw response =>
    exact of_keeps (keeps_other forgets hasPw2 hasPw3 sw response)
  | select => exact of_keeps keeps_select

theorem SigDone.powerDown (h : SigDone c d₀ d) :
    SigDone c d₀ (d.setRam fun ram ↦ { ram with off := true }) :=
  h.setRam ⟨rfl, id, id, id⟩

theorem SigDone.sigLaw {faults : SigFile → List Outcome}
    (h : SigDone c { d₀ with faults := faults } d) :
    SigInv d ∧ SigLaw d₀ (.command c faults) d := by
  obtain ⟨⟨added, hlaw⟩, hinv⟩ := h
  exact ⟨hinv, hinv.enough, added, hlaw.history, hlaw.key, hlaw.verified, hlaw.grows⟩

/-- **A step keeps the invariant and meets the law.** -/
theorem sigStep_law (h : SigInv d) (event : MachineEvent SigFile SigCommand)
    (hkeeps : KeepsSignatures d event) :
    SigInv ((sigMachine adminless).step d event).2 ∧
      SigLaw d event ((sigMachine adminless).step d event).2 := by
  cases event with
  | command c faults =>
    have hstart : SigInv { d with faults := faults } :=
      ⟨h.counters.of_files rfl, h.enough, h.verified, h.pkDec, h.pkAut⟩
    refine Machine.step_command (M := sigMachine adminless)
      (P := fun _ d' ↦ SigInv d' ∧ SigLaw d (.command c faults) d') (fun _ ↦ ?_)
      (fun _ ↦ wp_sigCommand hstart hkeeps) (fun _ _ hdone ↦ hdone.sigLaw)
      (fun _ _ hdone ↦ hdone.sigLaw) fun _ hdone ↦ hdone.powerDown.sigLaw
    obtain ⟨added, hlaw⟩ := (SigDone.refl (c := c) h).law
    exact ⟨h, h.enough, added, hlaw⟩
  | flush i =>
    by_cases hoff : d.ram.off = true
    · have hsame : ((sigMachine adminless).step d (.flush i)).2 = d := if_pos hoff
      rw [hsame]
      exact ⟨h, h.enough, rfl⟩
    · have hflushed : ((sigMachine adminless).step d (.flush i)).2 =
          { d with files := d.files.flush i } := if_neg hoff
      rw [hflushed]
      exact ⟨⟨h.counters.flush rfl rfl, h.enough, h.verified, h.pkDec, h.pkAut⟩, h.enough, rfl⟩
  | reboot keep =>
    have henough : signatures d.ram.history ≤ sigCounter ((d.files.powerCut keep).view .sigCount) :=
      h.enough.trans hkeeps
    refine ⟨⟨.of_synced (h.counters.powerCut keep) rfl, henough, (by cases ·), .inl rfl, .inr rfl⟩,
      henough, rfl⟩

theorem sigInv_sigStart (status : Option Bytes) {count : Bytes} (hcount : count.length = 3)
    (faults : SigFile → List Outcome) : SigInv (sigStart status count faults) :=
  ⟨.of_synced ⟨count, rfl, hcount⟩ rfl, zero_le _, (by cases ·), .inl rfl, .inr rfl⟩

/-- **Signatures are authorized and counted** in every run whose steps do not lose one. -/
theorem signature_law (adminless : Bool) (status : Option Bytes) {count : Bytes}
    (hcount : count.length = 3) (faults : SigFile → List Outcome)
    (events : List (MachineEvent SigFile SigCommand))
    (h : (sigMachine adminless).Along KeepsSignatures (sigStart status count faults) events) :
    (sigMachine adminless).Along
      (fun d event ↦ SigLaw d event ((sigMachine adminless).step d event).2)
      (sigStart status count faults) events :=
  Machine.Along.of_step (I := SigInv) (fun _ event hinv hkeeps ↦ sigStep_law hinv event hkeeps)
    (sigInv_sigStart status hcount faults) h

/-- A card that demands a verification for each signature. -/
def sigExample : SigDevice :=
  sigStart (some [0, 127, 127, 127, 3, 0, 3]) [0, 0, 0] fun _ ↦ []

/-- PW1 is verified. -/
def verifyPw1 : MachineEvent SigFile SigCommand :=
  .command (.checkPw1 true 0x81 .right swOk) fun _ ↦ []

def computeSignature (faults : List Outcome) : MachineEvent SigFile SigCommand :=
  .command (.pso 0x9e 0x9a [] (.done [1])) fun _ ↦ faults

def putDemand (demand : UInt8) : MachineEvent SigFile SigCommand :=
  .command (.putPwPriv (some [demand, 127, 127, 127, 3, 0, 3])) fun _ ↦ []

theorem signature_law_verified :
    SigLaw ((sigMachine false).run sigExample [verifyPw1]) (computeSignature [])
        ((sigMachine false).run sigExample [verifyPw1, computeSignature []]) ∧
      sigCount ((sigMachine false).run sigExample [verifyPw1, computeSignature []]) = 1 := by
  have hkeeps : (sigMachine false).Along KeepsSignatures sigExample
      [verifyPw1, computeSignature []] := by
    refine ⟨trivial, fun _ _ ↦ ⟨rfl, ?_, ?_⟩, trivial⟩
    · decide +kernel
    · decide +kernel
  exact ⟨(signature_law false _ rfl _ _ hkeeps).2.1, by decide +kernel⟩

/-- PW3 and PW1 are verified, the demand is taken away, and a signature is made. -/
def signedFreely : List (MachineEvent SigFile SigCommand) :=
  [.command (.other false false true swOk []) fun _ ↦ [], verifyPw1, putDemand 1,
    computeSignature []]

/-- A signature is not counted where the write of the counter fails; and where the demand comes back
after a signature that it was not made for, the next one needs no verification. -/
theorem signature_not_counted :
    ¬SigLaw ((sigMachine false).run sigExample [verifyPw1]) (computeSignature [.fail])
        ((sigMachine false).run sigExample [verifyPw1, computeSignature [.fail]]) ∧
      ¬SigLaw ((sigMachine false).run sigExample (signedFreely ++ [putDemand 0]))
        (computeSignature [])
        ((sigMachine false).run sigExample
          (signedFreely ++ [putDemand 0, computeSignature []])) := by
  refine ⟨fun h ↦ absurd h.1 (by decide +kernel), fun h ↦ ?_⟩
  obtain ⟨_, added, hlaw⟩ := h
  have hbefore : ((sigMachine false).run sigExample
      (signedFreely ++ [putDemand 0])).ram.history = [.signed, .used efPkSig, .verified] := by
    decide +kernel
  have hafter : ((sigMachine false).run sigExample
      (signedFreely ++ [putDemand 0, computeSignature []])).ram.history =
        [.signed, .used efPkSig, .signed, .used efPkSig, .verified] := by
    decide +kernel
  have hsigned : .signed ∈ added := by
    have hadded : [.signed, .used efPkSig] ++ [.signed, .used efPkSig, .verified] =
        added ++ [.signed, .used efPkSig, .verified] := by
      rw [← hbefore, ← hlaw.history, hafter, hbefore]
      rfl
    exact List.append_cancel_right hadded ▸ List.mem_cons_self ..
  have hverified := hlaw.verified hsigned (by decide +kernel)
  cases hverified

end PicoAll.Openpgp
