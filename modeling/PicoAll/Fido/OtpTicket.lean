import PicoAll.Fido.OtpStep

/-!
# Yubico OTP slots

What a slot with a Yubico OTP configuration holds besides the configuration is its usage counter
(`OtpSlotIs`). The scan, a press and an update keep the configuration and change the counter as
follows: the scan counts it up, where there is one; a press leaves it at `counterAfter`, and the
password that it types is of the old counters; an update keeps it.
-/

namespace PicoAll

open BigEndian ByteBuffer FaultProgram List Function

/-- The configuration of a slot is that of a Yubico OTP with a key; the usage counter is `c`. -/
structure OtpSlotIs (key : Bytes) (c : ℕ) (data : Bytes) : Prop where
  len_valid : otpPlainLenValid data = true
  not_hotp : otpIsHotp data = false
  not_static : otpIsStatic data = false
  key_eq : otpAesKey data = key
  counter_eq : otpUsageCounter data = c

variable {key data data' : Bytes} {c : ℕ}

theorem otpPlainLenValid_iff :
    otpPlainLenValid data = true ↔ data.length = 52 ∨ data.length = 60 := by
  simp [otpPlainLenValid]

theorem otpPlainLenValid.le (h : otpPlainLenValid data = true) : 52 ≤ data.length := by
  rcases otpPlainLenValid_iff.mp h with h | h <;> omega

/-- The configuration decides the fields. -/
theorem OtpSlotIs.of_take (h : OtpSlotIs key c data) (hlen : otpPlainLenValid data' = true)
    (heq : data'.take 52 = data.take 52) : OtpSlotIs key (otpUsageCounter data') data' := by
  have hget {k : ℕ} (hk : k < 52) : data'.getD k 0 = data.getD k 0 := by
    have htake := congrArg (·.getD k 0) heq
    simpa [getD_eq_getElem?_getD, getElem?_take, hk] using htake
  have hslice {off n : ℕ} (hn : off + n ≤ 52) : slice data' off n = slice data off n := by
    have htake := congrArg (slice · off n) heq
    simpa [slice, drop_take, take_take, Nat.min_eq_left (show n ≤ 52 - off by omega)] using htake
  have htkt : otpTktFlags data' = otpTktFlags data := hget (by decide)
  have hcfg : otpCfgFlags data' = otpCfgFlags data := hget (by decide)
  refine ⟨hlen, ?_, ?_, ?_, rfl⟩
  · rw [otpIsHotp, htkt]
    exact h.not_hotp
  · rw [otpIsStatic, hcfg]
    exact h.not_static
  · rw [← h.key_eq]
    exact hslice (by decide)

/-- The counter that has been written into a slot. -/
theorem OtpSlotIs.patch (h : OtpSlotIs key c data) (hlen : data.length = 60) {c' : ℕ}
    (hc' : c' < 65536) : OtpSlotIs key c' (patch data otpConfigSize (beBytes 2 c')) := by
  have hfits : 52 + (beBytes 2 c').length ≤ data.length := by rw [length_beBytes, hlen]; decide
  have hlen' : (ByteBuffer.patch data 52 (beBytes 2 c')).length = 60 :=
    (length_patch hfits).trans hlen
  have htake : (ByteBuffer.patch data 52 (beBytes 2 c')).take 52 = data.take 52 := by
    rw [ByteBuffer.patch, append_assoc]
    exact take_left' (by rw [length_take, hlen]; rfl)
  have hcounter : otpUsageCounter (ByteBuffer.patch data 52 (beBytes 2 c')) = c' := by
    have hslice := slice_patch_self hfits
    rw [length_beBytes] at hslice
    rw [otpUsageCounter, if_pos hlen']
    show beNat (slice _ 52 2) = c'
    rw [hslice, beNat_beBytes hc']
  have hkept := h.of_take (otpPlainLenValid_iff.mpr (.inr hlen')) htake
  rwa [hcounter] at hkept

/-- The scan counts the counter up, where there is one. -/
theorem OtpSlotIs.bumped (h : OtpSlotIs key c data)
    (hroom : data.length = otpConfigSize + 8 → c < 0x7fff) :
    ∃ c', OtpSlotIs key c' (otpBumped data) ∧
      (c' = c + 1 ∧ c' ≤ 0x7fff ∨ c' = 0 ∧ c = 0) := by
  rcases otpPlainLenValid_iff.mp h.len_valid with hlen | hlen
  · refine ⟨c, ?_, .inr ?_⟩
    · rw [otpBumped, if_neg fun hcond ↦ absurd (hlen.symm.trans hcond.1) (by decide)]
      exact h
    · have hzero : otpUsageCounter data = 0 := if_neg (by rw [hlen]; decide)
      rw [← h.counter_eq, hzero]
      exact ⟨rfl, rfl⟩
  · have hfield : beField data otpConfigSize 2 = c := by
      rw [← h.counter_eq, otpUsageCounter, if_pos hlen]
    have hlt := hroom hlen
    refine ⟨c + 1, ?_, .inl ⟨rfl, hlt⟩⟩
    rw [otpBumped, hfield, Nat.mod_eq_of_lt (by omega),
      if_pos ⟨hlen, h.not_hotp, h.not_static, by omega⟩]
    exact h.patch hlen (by omega)

/-- The counter after a press that typed a password of the session `k`. -/
def counterAfter (c : ℕ) (k : UInt8) : ℕ :=
  let counter := if c = 0 then 1 else c
  if k + 1 = 0 ∧ counter + 1 ≤ 0x7fff then counter + 1 else counter

/-- The data that a press stores. -/
theorem OtpSlotIs.extended (h : OtpSlotIs key c data) {c' : ℕ} (hc' : c' < 65536) :
    OtpSlotIs key c' (ByteBuffer.patch
      (data ++ List.replicate (otpConfigSize + 8 - data.length) 0) otpConfigSize
        (beBytes 2 c')) := by
  have hle := otpPlainLenValid.le h.len_valid
  have hlen : (data ++ List.replicate (otpConfigSize + 8 - data.length) 0).length = 60 := by
    rw [length_append, length_replicate]
    rcases otpPlainLenValid_iff.mp h.len_valid with hlen | hlen <;> rw [hlen] <;> rfl
  exact (h.of_take (otpPlainLenValid_iff.mpr (.inr hlen))
    (take_append_of_le_length hle)).patch hlen hc'

/-! ### The password -/

variable (press : OtpPress)

/-- What is encrypted begins with the uid and the counters. -/
theorem otpTicket_plain (counter : ℕ) (session : UInt8) : ∃ rest,
    (otpTicket press data counter session).plain = otpUid data ++ (leBytes 2 counter ++
      (leBytes 3 (press.millis.toNat / 1000 / 2) ++ session :: rest)) := by
  simp only [otpTicket, append_assoc, cons_append, nil_append]
  exact ⟨_, rfl⟩

/-- **The password carries the counters.** -/
theorem otpTicket_counters (h : otpPlainLenValid data = true) {counter : ℕ}
    (hcounter : counter < 65536) (session : UInt8) :
    (otpTicket press data counter session).usage = counter ∧
      (otpTicket press data counter session).session = session.toNat := by
  have huid : (otpUid data).length = 6 :=
    length_slice (le_trans (by decide) (otpPlainLenValid.le h))
  obtain ⟨rest, hplain⟩ : ∃ rest, (otpTicket press data counter session).plain = otpUid data ++
      (leBytes 2 counter ++ (leBytes 3 (press.millis.toNat / 1000 / 2) ++ session :: rest)) :=
    otpTicket_plain press counter session
  constructor
  · rw [OtpTicket.usage, hplain, slice, drop_left' huid, take_left' (length_leBytes 2 _)]
    exact leNat_leBytes hcounter
  · rw [OtpTicket.session, hplain, getD_eq_getElem?_getD,
      getElem?_append_right (by omega), getElem?_append_right (by simp; omega),
      getElem?_append_right (by simp; omega), huid]
    simp

/-! ### A press -/

/-- The passwords among what is typed. -/
def ticketsOf (typed : List OtpTyped) : List OtpTicket :=
  typed.filterMap fun
    | .ticket ticket => some ticket
    | _ => none

/-- What a press of the slot `i` does once the slots have been scanned: it changes nothing else, and
of a Yubico OTP it types the password of the counters and counts them up, or it types nothing. -/
structure PressEffect (i : Fin 4) (s : OtpDevice) (typed : List OtpTyped) (s' : OtpDevice) :
    Prop where
  scanned_eq : s'.scanned = s.scanned
  data_eq : ∀ j ≠ i, s'.data j = s.data j
  session_eq : ∀ j ≠ i, s'.sessionCounter j = s.sessionCounter j
  valid : s.Valid → s'.Valid
  slot : ∀ key c data, s.data i = some data → OtpSlotIs key c data →
    ∃ c' data', s'.data i = some data' ∧ OtpSlotIs key c' data' ∧
      ((ticketsOf typed = [otpTicket press data (if c = 0 then 1 else c) (s.sessionCounter i)] ∧
        s'.sessionCounter i = s.sessionCounter i + 1 ∧
        (c ≤ 0x7fff → c' = counterAfter c (s.sessionCounter i))) ∨
      (ticketsOf typed = [] ∧ s'.sessionCounter i = s.sessionCounter i ∧
        (c ≤ 0x7fff → c' = c ∨ c' = counterAfter c (s.sessionCounter i))))

variable {press} {A : Outcome → Prop} {s : OtpDevice} {i : Fin 4} {typed : List OtpTyped}
  {k : UInt8}

theorem PressEffect.none (htyped : ticketsOf typed = []) : PressEffect press i s typed s :=
  ⟨rfl, fun _ _ ↦ rfl, fun _ _ ↦ rfl, id, fun _ c data hdata h ↦
    ⟨c, data, hdata, h, .inr ⟨htyped, rfl, fun _ ↦ .inl rfl⟩⟩⟩

theorem OtpDevice.Valid.update {s' : OtpDevice} (h : s.Valid) (hlen : otpPlainLenValid data = true)
    (heq : s'.data = Function.update s.data i (some data)) : s'.Valid := by
  intro j data' hdata'
  rw [heq] at hdata'
  rcases eq_or_ne j i with rfl | hne
  · rw [update_self, Option.some.injEq] at hdata'
    exact hdata' ▸ hlen
  · rw [update_of_ne hne] at hdata'
    exact h j data' hdata'

end PicoAll
