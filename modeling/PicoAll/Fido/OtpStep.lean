import PicoAll.Fido.Otp

/-!
# What the functions of the OTP application do

One rule for each function, in terms of the data of the slots and the static variables. Where an
error is reported, or the power goes, the slots are as they were or as the function makes them;
where no storage operation reports an error (`Quiet`), a read fails for want of data only.
-/

namespace PicoAll

open BigEndian ByteBuffer FaultProgram List Function Option

/-- The data of the slots. -/
def OtpDevice.data (s : OtpDevice) (i : Fin 4) : Option Bytes :=
  (s.slots i).map OtpSlot.data

/-- All slots have data of a valid length, as `otp_slot_store` writes it. -/
def OtpDevice.Valid (s : OtpDevice) : Prop :=
  ∀ i data, s.data i = some data → otpPlainLenValid data = true

/-- The static variables are the same. -/
structure SameRam (s s' : OtpDevice) : Prop where
  scanned_eq : s'.scanned = s.scanned
  session_eq : s'.sessionCounter = s.sessionCounter

theorem SameRam.refl (s : OtpDevice) : SameRam s s :=
  ⟨rfl, rfl⟩

variable {s' : OtpDevice}

theorem SameRam.trans {s s'' : OtpDevice} (h : SameRam s s') (h' : SameRam s' s'') :
    SameRam s s'' :=
  ⟨h'.scanned_eq.trans h.scanned_eq, h'.session_eq.trans h.session_eq⟩

/-- No storage operation reports an error; the power may go. -/
def Quiet (A : Outcome → Prop) : Prop :=
  ¬ A .fail ∧ ¬ A .late

variable {α : Type} {A : Outcome → Prop} {s : OtpDevice} {i : Fin 4}
  {E : Exit Status → OtpDevice → Prop}

/-- The slots have the same data, and the static variables are the same. -/
structure SameData (s s' : OtpDevice) : Prop extends SameRam s s' where
  data_eq : s'.data = s.data

theorem SameData.refl (s : OtpDevice) : SameData s s :=
  ⟨.refl s, rfl⟩

theorem SameData.trans {s s'' : OtpDevice} (h : SameData s s') (h' : SameData s' s'') :
    SameData s s'' :=
  ⟨h.toSameRam.trans h'.toSameRam, h'.data_eq.trans h.data_eq⟩

theorem OtpDevice.Valid.of_data_eq (h : s.Valid) (heq : s'.data = s.data) : s'.Valid := by
  unfold OtpDevice.Valid
  rwa [heq]

/-- What the scan makes of a slot: its usage counter is counted up, if it has one. -/
def otpBumped (data : Bytes) : Bytes :=
  if data.length = otpConfigSize + 8 ∧ otpIsHotp data = false ∧ otpIsStatic data = false ∧
      (beField data otpConfigSize 2 + 1) % 65536 ≤ 0x7fff then
    patch data otpConfigSize (beBytes 2 ((beField data otpConfigSize 2 + 1) % 65536))
  else
    data

theorem otpPlainLenValid_bumped (data : Bytes) :
    otpPlainLenValid (otpBumped data) = otpPlainLenValid data := by
  rw [otpBumped]
  split_ifs with h
  · have hlen : (patch data otpConfigSize
        (beBytes 2 ((beField data otpConfigSize 2 + 1) % 65536))).length = data.length :=
      length_patch (by rw [length_beBytes, h.1]; decide)
    rw [otpPlainLenValid, hlen, otpPlainLenValid]
  · rfl

/-- Some of the slots have been scanned. -/
def PartlyBumped (s s' : OtpDevice) : Prop :=
  ∀ j, s'.data j = s.data j ∨ s'.data j = (s.data j).map otpBumped

theorem OtpDevice.Valid.bumped (h : s.Valid) (heq : PartlyBumped s s') : s'.Valid := by
  intro j data hdata
  rcases heq j with hsame | hbumped
  · exact h j data (hsame ▸ hdata)
  · rw [hbumped] at hdata
    obtain ⟨data', hdata', rfl⟩ := map_eq_some_iff.mp hdata
    rw [otpPlainLenValid_bumped]
    exact h j data' hdata'

/-- The slots have been scanned: before, or now. -/
def Scanned (s s' : OtpDevice) : Prop :=
  (s.scanned = true ∧ s' = s) ∨ (s.scanned = false ∧ s'.scanned = true ∧
    s'.sessionCounter = s.sessionCounter ∧ ∀ j, s'.data j = (s.data j).map otpBumped)

end PicoAll
