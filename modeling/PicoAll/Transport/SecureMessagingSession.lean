import PicoAll.Transport.SecureMessagingChannel

/-!
# Secure messaging sessions

The other end of the channel is not in the code. `smSeal` is what a terminal does to a command, as
the standard has it; `smOpen` is what it does to a response, the mirror of `sm_unwrap`. With the same
keys and the same counter at both ends, what is sealed is unwrapped to the data that were there
before (`smUnwrap_smSeal`), what is wrapped is opened to the response and its status word
(`smOpen_smWrap`), and the counters stay the same, so that a session goes on like this
(`smDialogue_eq`).

Each command that is accepted counts the counter up, and so does each response (`smRun_lt`). A
command that is sent again has to have the MAC of another input.
-/

namespace PicoAll

open BigEndian Padding List Option

/-! ### The terminal -/

/-- A command before it is protected. -/
structure SmPlain where
  header : ApduHeader
  /-- The data, if there are any. -/
  data : Option Bytes
  /-- Whether they go into an object `87`; else it is an `85`. -/
  indicator : Bool
  /-- The `Le` field, if there is one. -/
  le : Option Bytes

variable (plain : SmPlain)

/-- A command as the application gets it. -/
def SmPlain.command : ApduCommand :=
  ⟨plain.header, plain.data.getD [], beNat (plain.le.getD []) % 65536⟩

/-- The tag of the data. -/
def SmPlain.tag : UInt8 :=
  if plain.indicator then 0x87 else 0x85

variable (C : SmCipher)

/-- Data, padded and encrypted. -/
def smEncrypt (s : SmSession) (data : Bytes) : Bytes :=
  C.aesEncrypt s.kenc (smUpdateIv C s) (pad 16 data)

/-- A command, protected under the counter of a session. -/
def smSealMessage (s : SmSession) (plain : SmPlain) : SmMessage :=
  let body := plain.data.map fun data ↦ smBodyValue plain.tag (smEncrypt C s data)
  let objects := encodeOption plain.tag body ++ encodeOption 0x97 plain.le
  ⟨plain.tag, body, 0x97, plain.le,
    smMac C s.kmac (smMacInput s.ssc plain.header.authenticated objects)⟩

/-- A command is protected, under the counter plus one. -/
def smSeal (s : SmSession) (plain : SmPlain) : SmSession × ApduCommand :=
  (s.next, ⟨plain.header, (smSealMessage C s.next plain).bytes, 256⟩)

/-- A response is opened: as a command is whose class says that there is no header in its MAC. The
status word is that of the object `99`. -/
def smOpen (s : SmSession) (response : Bytes) : SmSession × Option (Bytes × ℕ) :=
  match smUnwrap C s ⟨⟨0x04, 0, 0, 0⟩, response, 0⟩ with
  | (s, _, .error _) => (s, none)
  | (s, cmd, .ok _) =>
    (s, ((tlvItems response).find? fun item ↦ item.tag = 0x99).map fun item ↦
      (cmd.data, beNat item.value))

/-- The data objects of a command before its data are encrypted, which does not change the size. -/
def SmPlain.objects : Bytes :=
  encodeOption plain.tag (plain.data.map fun data ↦ smBodyValue plain.tag (pad 16 data)) ++
    encodeOption 0x97 plain.le

/-- Whether a command fits into the buffer when it is protected. -/
def SmPlain.Fits : Prop :=
  (smMacInput 0 plain.header.authenticated plain.objects).length ≤ usbBufferSize

theorem smMac_length (kmac input : Bytes) : (smMac C kmac input).length = 8 := by
  rw [smMac, length_take, C.length_cmac]
  rfl

variable {header : ApduHeader} {s : SmSession}

theorem length_smMacInput_objects {ssc : ℕ} {objects : Bytes}
    (h : (smMacInput ssc header.authenticated objects).length ≤ usbBufferSize) :
    objects.length ≤ usbBufferSize := by
  have := ((smMacInput_fits_iff ssc header objects).mp h).1
  omega

theorem length_smMacInput_congr {objects objects' : Bytes} (h : objects.length = objects'.length)
    (ssc : ℕ) (header : Option ApduHeader) :
    (smMacInput ssc header objects).length = (smMacInput ssc header objects').length := by
  have hnil : objects = [] ↔ objects' = [] := by
    rw [← length_eq_zero_iff, h, length_eq_zero_iff]
  have hpad : (if objects = [] then [] else pad 16 objects).length =
      (if objects' = [] then [] else pad 16 objects').length := by
    split_ifs with h₁ h₂ h₂
    · rfl
    · exact absurd (hnil.mp h₁) h₂
    · exact absurd (hnil.mpr h₂) h₁
    · rw [length_pad (by omega), length_pad (by omega), h]
  rw [smMacInput, length_append, hpad, ← length_append]
  rfl

theorem length_smSealMessage (s : SmSession) (plain : SmPlain) :
    (smSealMessage C s plain).objects.length = plain.objects.length := by
  have hvalue (data : Bytes) : (smBodyValue plain.tag (smEncrypt C s data)).length =
      (smBodyValue plain.tag (pad 16 data)).length := by
    rw [smBodyValue, smBodyValue, smEncrypt]
    split_ifs
    · rw [length_cons, length_cons, C.length_aesEncrypt]
    · rw [C.length_aesEncrypt]
  rw [SmMessage.objects, SmPlain.objects, length_append, length_append]
  refine congrArg (· + _) ?_
  rcases hdata : plain.data with - | data
  · rw [smSealMessage, hdata]
    rfl
  · rw [smSealMessage, hdata]
    show (encodeTlv _ _).length = (encodeTlv _ _).length
    rw [length_encodeTlv, length_encodeTlv, hvalue]

theorem SmPlain.Fits.sealed {plain : SmPlain} (h : plain.Fits) (C : SmCipher) (s : SmSession) :
    (smMacInput 0 plain.header.authenticated (smSealMessage C s plain).objects).length ≤
      usbBufferSize := by
  rwa [length_smMacInput_congr (length_smSealMessage C s plain)]

theorem SmPlain.Fits.wellTagged {plain : SmPlain} (h : plain.Fits) (C : SmCipher) (s : SmSession) :
    (smSealMessage C s plain).WellTagged where
  tag := by
    rw [smSealMessage, SmPlain.tag]
    rcases plain.indicator <;> simp
  tag' := .inl rfl
  objects := length_smMacInput_objects (h.sealed C s)
  mac := smMac_length ..

theorem length_smEncrypt (s : SmSession) (data : Bytes) :
    (smEncrypt C s data).length = (data.length / 16 + 1) * 16 := by
  rw [smEncrypt, C.length_aesEncrypt, length_pad (by omega)]

theorem length_le_encodeOption (tag : UInt8) (body : Bytes) :
    body.length ≤ (encodeOption tag (some (smBodyValue tag body))).length := by
  rw [encodeOption, map_some, getD_some, length_encodeTlv, smBodyValue]
  split_ifs
  · rw [length_cons]
    omega
  · omega

/-- What has been padded and encrypted is decrypted and found again. -/
theorem smRemovePadding_decrypt (s : SmSession) {data : Bytes} {zeros : ℕ}
    (hmod : (marked data zeros).length % 16 = 0) (hlen : (marked data zeros).length ≤ UINT16_MAX) :
    smRemovePadding (C.aesDecrypt s.kenc (smUpdateIv C s)
      (C.aesEncrypt s.kenc (smUpdateIv C s) (marked data zeros))) = data := by
  rw [C.aesDecrypt_aesEncrypt _ _ _ hmod, smRemovePadding, if_neg (by omega), unpad_marked]
  rfl

/-- **Commands**: what is sealed is accepted, and is the command that was sealed. -/
theorem smUnwrap_smSeal (hs : s.Established) {plain : SmPlain} (hcla : smIndicator plain.header ≠ 0)
    (hssc : s.ssc + 1 < 256 ^ 16) (hfits : plain.Fits) :
    smUnwrap C s (smSeal C s plain).2 = (s.next, plain.command, .ok ()) := by
  have hm := hfits.wellTagged C s.next
  have hcla' : smIndicator (smSeal C s plain).2.header ≠ 0 := hcla
  have hverify : (smVerify C s (smSeal C s plain).2).2 = .ok () :=
    smVerify_message C hs hm plain.header 256 hssc (hfits.sealed C s.next) rfl
  have hle : smGetLe (smSeal C s plain).2.data = beNat (plain.le.getD []) % 65536 := hm.smGetLe rfl
  rcases hdata : plain.data with - | data
  · have hbody : smCryptogram 16 (smSeal C s plain).2.data = .ok none := by
      refine hm.smCryptogram_none ?_
      rw [smSealMessage, hdata, map_none]
    rw [smUnwrap_of_ok C hs hcla' hverify hbody, smPlainCommand, hle, SmPlain.command, hdata]
    rfl
  · have hlen := length_smEncrypt C s.next data
    have hbody : smCryptogram 16 (smSeal C s plain).2.data = .ok (some (smEncrypt C s.next data)) := by
      refine hm.smCryptogram_some (by omega) (by omega) ?_
      rw [smSealMessage, hdata, map_some]
    have hshort : (pad 16 data).length ≤ UINT16_MAX := by
      have hobjects := hm.objects
      rw [SmMessage.objects, smSealMessage, hdata, length_append] at hobjects
      have hvalue := length_le_encodeOption plain.tag (smEncrypt C s.next data)
      rw [smEncrypt, C.length_aesEncrypt] at hvalue
      exact hvalue.trans ((Nat.le_add_right ..).trans (hobjects.trans (by decide)))
    have hplain : smRemovePadding (C.aesDecrypt s.next.kenc (smUpdateIv C s.next)
        (C.aesEncrypt s.next.kenc (smUpdateIv C s.next) (pad 16 data))) = data :=
      smRemovePadding_decrypt C s.next (length_pad_mod (by omega)) hshort
    rw [smUnwrap_of_ok C hs hcla' hverify hbody, smPlainCommand, hle, SmPlain.command, hdata,
      map_some, getD_some, smEncrypt, hplain]
    rfl

/-! ### Responses -/

/-- The data of a response, padded and encrypted. -/
def smEncryptResponse (s : SmSession) (data : Bytes) : Bytes :=
  C.aesEncrypt s.kenc (smUpdateIv C s) (marked data (16 - (data.length + 1) % 16))

/-- The value of the object `87` of a response. -/
def smWrapBody (s : SmSession) (data : Bytes) : Option Bytes :=
  if data = [] then none else some (0x1 :: smEncryptResponse C s data)

/-- The objects of a response that its MAC covers. -/
def smWrapObjects (s : SmSession) (res : SmResponse) : Bytes :=
  encodeOption 0x87 (smWrapBody C s res.data) ++ encodeTlv 0x99 (beBytes 2 res.sw.toNat)

/-- A response, protected under the counter of a session. -/
def smWrapMessage (s : SmSession) (res : SmResponse) : SmMessage :=
  ⟨0x87, smWrapBody C s res.data, 0x99, some (beBytes 2 res.sw.toNat),
    smMac C s.kmac (smMacInput s.ssc none (smWrapObjects C s res))⟩

theorem length_smEncryptResponse (s : SmSession) (data : Bytes) :
    (smEncryptResponse C s data).length = ((data.length + 1) / 16 + 1) * 16 := by
  rw [smEncryptResponse, C.length_aesEncrypt, length_marked]
  omega

/-- A response is too long from 1999 bytes on. -/
theorem smResponseSize_gt_iff (size : ℕ) :
    smResponseSize 16 size > usbBufferSize - 20 ↔ 1998 < size := by
  have hformat : (tlvFormatLen (size + 1 + (16 - (size + 1) % 16) + 1)).length ≤ 3 := by
    rw [tlvFormatLen]
    split_ifs <;> simp
  rw [smResponseSize, usbBufferSize]
  split_ifs <;> omega

/-- The second check never fails after the first. -/
theorem smMacInputSize_le {size : ℕ} (h : ¬smResponseSize 16 size > usbBufferSize - 20) :
    smMacInputSize 16 size ≤ usbBufferSize := by
  rw [usbBufferSize] at h
  rw [smMacInputSize, usbBufferSize]
  omega

theorem smDo87_eq (hs : s.Established) {data : Bytes} (hlen : data.length ≤ 1998) :
    smDo87 C s data = encodeTlv 0x87 (0x1 :: smEncryptResponse C s data) := by
  have hbody := length_smEncryptResponse C s data
  have hlen' : (0x1 :: smEncryptResponse C s data).length ≤ 0xffff := by
    rw [length_cons]
    omega
  rw [encodeTlv, tlvFormatLen_of_lt hlen', smDo87, hs.blocksize, ← smEncryptResponse]
  split_ifs <;> simp [beBytes]

theorem encodeTlv_sw (sw : ℕ) : encodeTlv 0x99 (beBytes 2 sw) = 0x99 :: 2 :: beBytes 2 sw := by
  rw [encodeTlv, length_beBytes]
  rfl

/-- The objects of a response never end one byte before a block does, so that the marker and the
padding are those of `pad`. -/
theorem length_smWrapObjects (s : SmSession) (res : SmResponse) (hlen : res.data.length ≤ 1998) :
    (smWrapObjects C s res).length % 16 ≠ 15 ∧ (smWrapObjects C s res).length ≤ 2018 := by
  have hbody := length_smEncryptResponse C s res.data
  rw [smWrapObjects, length_append, encodeTlv_sw, length_cons, length_cons,
    length_beBytes, smWrapBody]
  split_ifs with hnil
  · decide
  · have hlen' : (0x1 :: smEncryptResponse C s res.data).length ≤ 0xffff := by
      rw [length_cons]
      omega
    rw [encodeOption, map_some, getD_some, length_encodeTlv,
      length_tlvFormatLen hlen', length_cons]
    split_ifs <;> omega

theorem smWrapMessage_wellTagged (s : SmSession) (res : SmResponse) (hlen : res.data.length ≤ 1998) :
    (smWrapMessage C s res).WellTagged where
  tag := .inl rfl
  tag' := .inr rfl
  objects := (length_smWrapObjects C s res hlen).2.trans (by decide)
  mac := smMac_length ..

/-- The MAC input of a response. -/
theorem marked_smWrapObjects (s : SmSession) (res : SmResponse) (ssc : ℕ)
    (hlen : res.data.length ≤ 1998) :
    marked (beBytes 16 ssc ++ smWrapObjects C s res)
        (16 - ((beBytes 16 ssc ++ smWrapObjects C s res).length + 1) % 16) =
      smMacInput ssc none (smWrapObjects C s res) := by
  have hmod := (length_smWrapObjects C s res hlen).1
  have hne : smWrapObjects C s res ≠ [] :=
    append_ne_nil_of_right_ne_nil _ (cons_ne_nil _ _)
  have hzeros : 16 - ((beBytes 16 ssc ++ smWrapObjects C s res).length + 1) % 16 =
      16 - 1 - (smWrapObjects C s res).length % 16 := by
    rw [length_append, length_beBytes]
    omega
  rw [hzeros, smMacInput, if_neg hne, pad, marked, marked, map_none, getD_none,
    append_nil, append_assoc]

/-- The objects of a response, as `sm_wrap` puts them together. -/
theorem smWrapObjects_eq (hs : s.Established) (res : SmResponse) (hlen : res.data.length ≤ 1998) :
    (if res.data.length > 0 then smDo87 C s res.data else []) ++
      0x99 :: 2 :: beBytes 2 res.sw.toNat = smWrapObjects C s res := by
  rw [smWrapObjects, smWrapBody, encodeOption, encodeTlv_sw]
  split_ifs with hpos hnil hnil
  · rw [hnil] at hpos
    cases hpos
  · rw [smDo87_eq C hs hlen]
    rfl
  · rfl
  · exact absurd (length_pos_of_ne_nil hnil) hpos

theorem smWrapMessage_bytes (s : SmSession) (res : SmResponse) :
    (smWrapMessage C s res).bytes = smWrapObjects C s res ++
      0x8e :: 8 :: (smSign C s (smMacInput s.ssc none (smWrapObjects C s res))).take 8 := by
  have hmac := smMac_length C s.kmac (smMacInput s.ssc none (smWrapObjects C s res))
  show _ ++ (0x8e :: tlvFormatLen (smMac ..).length ++ _) = _
  rw [hmac]
  rfl

/-- **Responses**: what `sm_wrap` does to one that is not too long. -/
theorem smWrap_eq (hs : s.Established) (hcla : smIndicator header ≠ 0) {res : SmResponse}
    (hlen : res.data.length ≤ 1998) (hssc : s.ssc + 1 < 256 ^ 16) :
    smWrap C s header res =
      (s.next, ⟨(smWrapMessage C s.next res).bytes, 0x9000,
        if res.ne > 0 then (smWrapMessage C s.next res).bytes.length else res.ne⟩, .ok ()) := by
  have hsize : ¬smResponseSize 16 res.data.length > usbBufferSize - 20 := by
    rw [smResponseSize_gt_iff]
    omega
  have hmacSize := not_lt.mpr (smMacInputSize_le hsize)
  have hnext : ({ s with ssc := s.ssc + 1 } : SmSession) = s.next := rfl
  have hssc' : ¬s.ssc + 1 ≥ 256 ^ 16 := not_le.mpr hssc
  have hinput : marked (beBytes 16 (s.ssc + 1) ++ smWrapObjects C s.next res) _ = _ :=
    marked_smWrapObjects C s.next res (s.ssc + 1) hlen
  rw [← hs.blocksize] at hsize hmacSize
  rw [smWrap, if_neg hcla, if_neg (by simp [hs.active, hs.blocksize]), if_neg hsize,
    if_neg hmacSize]
  simp only [hnext, smWrapObjects_eq C hs.next res hlen]
  rw [hs.blocksize, if_neg hssc', hinput, smWrapMessage_bytes]
  rfl

/-- `sm_wrap` goes well if the response is not too long and the counter not at its end. -/
theorem smWrap_ok_iff (hs : s.Established) (hcla : smIndicator header ≠ 0) (res : SmResponse) :
    (smWrap C s header res).2.2 = .ok () ↔ res.data.length ≤ 1998 ∧ s.ssc + 1 < 256 ^ 16 := by
  by_cases hlen : res.data.length ≤ 1998
  · by_cases hssc : s.ssc + 1 < 256 ^ 16
    · rw [smWrap_eq C hs hcla hlen hssc]
      simp only [hlen, hssc, and_self]
    · have hend : s.ssc + 1 ≥ 256 ^ s.blocksize := by
        rw [hs.blocksize]
        exact not_lt.mp hssc
      refine iff_of_false ?_ fun h ↦ hssc h.2
      rw [smWrap, if_neg hcla, if_neg (by simp [hs.active, hs.blocksize])]
      simp only [hend, if_true]
      split_ifs <;> simp
  · refine iff_of_false ?_ fun h ↦ hlen h.1
    rw [smWrap, if_neg hcla, if_neg (by simp [hs.active, hs.blocksize]), hs.blocksize,
      if_pos ((smResponseSize_gt_iff _).mpr (not_le.mp hlen))]
    simp

/-- The counter is counted up by one, or not at all. -/
theorem smWrap_session (s : SmSession) (header : ApduHeader) (res : SmResponse) :
    (smWrap C s header res).1 = s ∨ (smWrap C s header res).1 = s.next := by
  fun_cases smWrap C s header res <;> first | exact .inl rfl | exact .inr rfl

/-- **Responses**: what is wrapped is opened to the response and its status word. -/
theorem smOpen_smWrap (hs : s.Established) (hcla : smIndicator header ≠ 0) {res : SmResponse}
    (hlen : res.data.length ≤ 1998) (hssc : s.ssc + 1 < 256 ^ 16) :
    smOpen C s (smWrap C s header res).2.1.data = (s.next, some (res.data, res.sw.toNat)) := by
  have hm := smWrapMessage_wellTagged C s.next res hlen
  have hobjects := (length_smWrapObjects C s.next res hlen).2
  have hfits : (smMacInput 0 none (smWrapObjects C s.next res)).length ≤ usbBufferSize := by
    rw [smMacInput]
    split_ifs
    · rw [map_none, getD_none, append_nil, append_nil, length_beBytes]
      decide
    · simp only [length_append, length_beBytes, length_pad (show 0 < 16 by omega),
        map_none, getD_none, length_nil, usbBufferSize]
      omega
  have hverify : (smVerify C s ⟨⟨0x04, 0, 0, 0⟩, (smWrapMessage C s.next res).bytes, 0⟩).2 =
      .ok () :=
    smVerify_message C hs hm ⟨0x04, 0, 0, 0⟩ 0 hssc hfits rfl
  have hsw : beNat (beBytes 2 res.sw.toNat) = res.sw.toNat := beNat_beBytes res.sw.toNat_lt
  have hfind (data : Bytes) :
      ((tlvItems (smWrapMessage C s.next res).bytes).find? fun item ↦ item.tag = 0x99).map
        (fun item ↦ (data, beNat item.value)) = some (data, res.sw.toNat) := by
    rw [hm.tlvItems, ← hsw]
    rcases (smWrapMessage C s.next res).body with - | body <;> rfl
  have hcla' : smIndicator ⟨0x04, 0, 0, 0⟩ ≠ 0 := by decide
  have hunwrap {body : Option Bytes}
      (h : smCryptogram 16 (smWrapMessage C s.next res).bytes = .ok body) :=
    @smUnwrap_of_ok C s ⟨⟨0x04, 0, 0, 0⟩, (smWrapMessage C s.next res).bytes, 0⟩ hs hcla' hverify
      body h
  rw [smWrap_eq C hs hcla hlen hssc]
  by_cases hnil : res.data = []
  · have hbody : smCryptogram 16 (smWrapMessage C s.next res).bytes = .ok none := by
      refine hm.smCryptogram_none ?_
      rw [smWrapMessage, smWrapBody, if_pos hnil]
    rw [smOpen, hunwrap hbody]
    simp only [smPlainCommand, hfind, hnil, map_none, getD_none]
  · have hlength := length_smEncryptResponse C s.next res.data
    have hbody : smCryptogram 16 (smWrapMessage C s.next res).bytes =
        .ok (some (smEncryptResponse C s.next res.data)) := by
      refine hm.smCryptogram_some (by omega) (by omega) ?_
      rw [smWrapMessage, smWrapBody, if_neg hnil]
      rfl
    have hplain : smRemovePadding (C.aesDecrypt s.next.kenc (smUpdateIv C s.next)
        (smEncryptResponse C s.next res.data)) = res.data := by
      rw [smEncryptResponse, C.length_aesEncrypt] at hlength
      exact smRemovePadding_decrypt C s.next (by omega) (by rw [UINT16_MAX]; omega)
    rw [smOpen, hunwrap hbody]
    simp only [smPlainCommand, hfind, map_some, getD_some, hplain]

/-! ### Runs -/

/-- What happens in a session. -/
inductive SmEvent where
  /-- `sm_unwrap` is called. -/
  | command (cmd : ApduCommand)
  /-- `sm_wrap` is called. -/
  | response (header : ApduHeader) (res : SmResponse)

/-- The session after an event. -/
def SmEvent.step (s : SmSession) : SmEvent → SmSession
  | command cmd => (smUnwrap C s cmd).1
  | response header res => (smWrap C s header res).1

/-- The session after a sequence of events. -/
def smRun (s : SmSession) (events : List SmEvent) : SmSession :=
  events.foldl (SmEvent.step C) s

/-- A protected command is accepted, or a protected response goes out. -/
def SmEvent.Succeeds (s : SmSession) : SmEvent → Prop
  | command cmd => smIndicator cmd.header ≠ 0 ∧ SmAccepts C s cmd
  | response header res => smIndicator header ≠ 0 ∧ (smWrap C s header res).2.2 = .ok ()

theorem SmEvent.step_eq (s : SmSession) (e : SmEvent) : e.step C s = s ∨ e.step C s = s.next := by
  rcases e with cmd | ⟨header, res⟩
  · exact smUnwrap_session C s cmd
  · exact smWrap_session C s header res

/-- Each success counts the counter up by one. -/
theorem SmEvent.step_of_succeeds (hs : s.Established) {e : SmEvent} (h : e.Succeeds C s) :
    e.step C s = s.next := by
  rcases e with cmd | ⟨header, res⟩
  · obtain ⟨hcla, haccepts⟩ := h
    obtain ⟨hverify, body, hbody⟩ := (smAccepts_iff C hs hcla).mp haccepts
    rw [SmEvent.step, smUnwrap_of_ok C hs hcla hverify hbody]
  · obtain ⟨hcla, hok⟩ := h
    obtain ⟨hlen, hssc⟩ := (smWrap_ok_iff C hs hcla res).mp hok
    rw [SmEvent.step, smWrap_eq C hs hcla hlen hssc]

/-- A step keeps the keys, and does not count the counter down. -/
theorem SmEvent.step_keeps (hs : s.Established) (e : SmEvent) :
    (e.step C s).Established ∧ (e.step C s).kmac = s.kmac ∧ s.ssc ≤ (e.step C s).ssc := by
  rcases e.step_eq C s with h | h
  · rw [h]
    exact ⟨hs, rfl, le_rfl⟩
  · rw [h]
    exact ⟨hs.next, rfl, Nat.le_succ _⟩

theorem smRun_keeps (events : List SmEvent) (hs : s.Established) :
    (smRun C s events).Established ∧ (smRun C s events).kmac = s.kmac ∧
      s.ssc ≤ (smRun C s events).ssc := by
  induction events generalizing s with
  | nil => exact ⟨hs, rfl, le_rfl⟩
  | cons e events ih =>
    obtain ⟨hs', hkmac, hle⟩ := e.step_keeps C hs
    obtain ⟨hs'', hkmac', hle'⟩ := ih hs'
    exact ⟨hs'', hkmac'.trans hkmac, hle.trans hle'⟩

theorem smRun_take_add (s : SmSession) (events : List SmEvent) (i n : ℕ) :
    smRun C s (events.take (i + n)) =
      smRun C (smRun C s (events.take i)) ((events.drop i).take n) := by
  rw [take_add, smRun, foldl_append]
  rfl

variable {events : List SmEvent}

/-- **The counter strictly increases**: what succeeds does so under a counter of its own. -/
theorem smRun_lt (hs : s.Established) {i j : ℕ} (hij : i < j) {e : SmEvent}
    (he : events[i]? = some e) (hsucceeds : e.Succeeds C (smRun C s (events.take i))) :
    (smRun C s (events.take i)).ssc < (smRun C s (events.take j)).ssc := by
  obtain ⟨n, rfl⟩ := Nat.exists_eq_add_of_lt hij
  have hi := (smRun_keeps C (events.take i) hs).1
  have hstep : smRun C s (events.take (i + 1)) = (smRun C s (events.take i)).next := by
    rw [take_add_one, he, smRun, foldl_append, ← SmEvent.step_of_succeeds C hi hsucceeds]
    rfl
  rw [show i + n + 1 = i + 1 + n by omega, smRun_take_add C s events (i + 1) n, hstep]
  exact (Nat.lt_succ_self _).trans_le (smRun_keeps C _ hi.next).2.2

/-- The MAC inputs that are checked in a run. -/
def smRunInputs (s : SmSession) (events : List SmEvent) : Set Bytes :=
  {input | ∃ (k : ℕ) (cmd : ApduCommand), events[k]? = some (.command cmd) ∧
    input = smCommandInput ((smRun C s (events.take k)).ssc + 1) cmd}

/-- **No replay**: if no two inputs of a run have the same MAC, a command is accepted once. -/
theorem smRun_no_replay (hs : s.Established)
    (hmac : Set.InjOn (smMac C s.kmac) (smRunInputs C s events)) {i j : ℕ} (hij : i < j)
    {cmd : ApduCommand} (hcla : smIndicator cmd.header ≠ 0) (hi : events[i]? = some (.command cmd))
    (hj : events[j]? = some (.command cmd)) (haccepts : SmAccepts C (smRun C s (events.take i)) cmd) :
    ¬SmAccepts C (smRun C s (events.take j)) cmd := by
  intro haccepts'
  have hlt := smRun_lt C hs hij hi ⟨hcla, haccepts⟩
  obtain ⟨hs₁, hkmac₁, -⟩ := smRun_keeps C (events.take i) hs
  obtain ⟨hs₂, hkmac₂, -⟩ := smRun_keeps C (events.take j) hs
  obtain ⟨hverify₁, -⟩ := (smAccepts_iff C hs₁ hcla).mp haccepts
  obtain ⟨hverify₂, -⟩ := (smAccepts_iff C hs₂ hcla).mp haccepts'
  obtain ⟨-, hssc₁, hsent₁⟩ := (smVerify_ok_iff C hs₁ cmd).mp hverify₁
  obtain ⟨-, hssc₂, hsent₂⟩ := (smVerify_ok_iff C hs₂ cmd).mp hverify₂
  rw [hkmac₁] at hsent₁
  rw [hkmac₂] at hsent₂
  -- Both inputs have the MAC that the command carries, under counters that differ.
  have hsent := Option.some.inj (hsent₁.symm.trans hsent₂)
  have heq := hmac ⟨i, cmd, hi, rfl⟩ ⟨j, cmd, hj, rfl⟩ hsent
  exact smMacInput_ne hssc₁ hssc₂ (by omega) _ _ _ _ heq

/-! ### Both ends -/

/-- A command that a terminal sends, and what the application answers. -/
structure SmExchange where
  /-- The command. -/
  plain : SmPlain
  /-- The response, given the command as it has been unwrapped. -/
  answer : ApduCommand → SmResponse

/-- A session of a terminal and a card: of each exchange, the command as the application gets it,
with the result of `sm_unwrap`, and the response as the terminal gets it. -/
def smDialogue (C : SmCipher) (terminal card : SmSession) :
    List SmExchange → List ((ApduCommand × Except Status Unit) × Option (Bytes × ℕ))
  | [] => []
  | x :: xs =>
    let sealed := smSeal C terminal x.plain
    let received := smUnwrap C card sealed.2
    let wrapped := smWrap C received.1 x.plain.header (x.answer received.2.1)
    let opened := smOpen C sealed.1 wrapped.2.1.data
    (received.2, opened.2) :: smDialogue C opened.1 wrapped.1 xs

/-- Whether an exchange fits into the buffers and asks for secure messaging. -/
structure SmExchange.Fits (x : SmExchange) : Prop where
  indicator : smIndicator x.plain.header ≠ 0
  plain : x.plain.Fits
  answer : (x.answer x.plain.command).data.length ≤ 1998

/-- **The channel**: commands arrive as they were sent, and responses too. -/
theorem smDialogue_eq (xs : List SmExchange) (hs : s.Established) (hfits : ∀ x ∈ xs, x.Fits)
    (hssc : s.ssc + 2 * xs.length < 256 ^ 16) :
    smDialogue C s s xs = xs.map fun x ↦
      ((x.plain.command, .ok ()),
        some ((x.answer x.plain.command).data, (x.answer x.plain.command).sw.toNat)) := by
  induction xs generalizing s with
  | nil => rfl
  | cons x xs ih =>
    obtain ⟨hx, hxs⟩ := forall_mem_cons.mp hfits
    rw [length_cons] at hssc
    have hcommand := smUnwrap_smSeal C hs hx.indicator (by omega) hx.plain
    have hnext : s.next.ssc + 1 < 256 ^ 16 := by
      show s.ssc + 1 + 1 < 256 ^ 16
      omega
    have hwrap := smWrap_eq C hs.next hx.indicator hx.answer hnext
    have hopen := smOpen_smWrap C hs.next hx.indicator hx.answer hnext
    rw [smDialogue, map_cons, hcommand]
    show (_, (smOpen C s.next (smWrap C s.next x.plain.header _).2.1.data).2) :: smDialogue C
      (smOpen C s.next (smWrap C s.next x.plain.header _).2.1.data).1
      (smWrap C s.next x.plain.header _).1 xs = _
    rw [hopen, hwrap]
    refine congrArg (_ :: ·) (ih hs.next.next hxs ?_)
    show s.ssc + 1 + 1 + 2 * xs.length < 256 ^ 16
    omega

/-- A session of secure messaging with a pair of keys, from any state that it can come to. -/
structure SmChannel (C : SmCipher) (kmac : Bytes) (s : SmSession) : Prop where
  /-- A command is accepted if it fits and carries its MAC under the next counter. -/
  accepts : ∀ cmd : ApduCommand, smIndicator cmd.header ≠ 0 → SmShortTags (tlvItems cmd.data) →
    (SmAccepts C s cmd ↔
      SmFits cmd ∧ s.ssc + 1 < 256 ^ 16 ∧
        smSentMac (tlvItems cmd.data) = some (smMac C kmac
          (smMacInput (s.ssc + 1) cmd.header.authenticated (smDataObjects (tlvItems cmd.data)))) ∧
        ∃ body, smCryptogram 16 cmd.data = .ok body)
  /-- What succeeds counts the counter up. -/
  counter : ∀ (events : List SmEvent) (i j : ℕ) (e : SmEvent), i < j → events[i]? = some e →
    e.Succeeds C (smRun C s (events.take i)) →
    (smRun C s (events.take i)).ssc < (smRun C s (events.take j)).ssc
  /-- A command is accepted once, if no two inputs have the same MAC. -/
  no_replay : ∀ (events : List SmEvent), Set.InjOn (smMac C kmac) (smRunInputs C s events) →
    ∀ (i j : ℕ) (cmd : ApduCommand), i < j → smIndicator cmd.header ≠ 0 →
      events[i]? = some (.command cmd) → events[j]? = some (.command cmd) →
      SmAccepts C (smRun C s (events.take i)) cmd → ¬SmAccepts C (smRun C s (events.take j)) cmd
  /-- A response is wrapped if it is not too long. -/
  wraps : ∀ (header : ApduHeader) (res : SmResponse), smIndicator header ≠ 0 →
    ((smWrap C s header res).2.2 = .ok () ↔ res.data.length ≤ 1998 ∧ s.ssc + 1 < 256 ^ 16)
  /-- Commands and responses come out at the other end as they went in. -/
  dialogue : ∀ xs : List SmExchange, (∀ x ∈ xs, x.Fits) → s.ssc + 2 * xs.length < 256 ^ 16 →
    smDialogue C s s xs = xs.map fun x ↦
      ((x.plain.command, .ok ()),
        some ((x.answer x.plain.command).data, (x.answer x.plain.command).sw.toNat))

/-- **Secure messaging**: with any pair of keys and after any commands and responses, a command is
accepted if and only if its MAC covers the counter, the header if the class says so and the data
objects; no counter is used twice; and the data and the status words come through. -/
theorem secure_messaging_channel (C : SmCipher) (kenc kmac : Bytes) (s : SmSession)
    (events : List SmEvent) :
    SmChannel C kmac (smRun C (smDeriveAllKeys kenc kmac (smSetProtocol .aes s)) events) := by
  obtain ⟨hs, hkmac, -⟩ := smRun_keeps C events (established_smDeriveAllKeys kenc kmac s)
  generalize smRun C (smDeriveAllKeys kenc kmac (smSetProtocol .aes s)) events = s' at hs hkmac ⊢
  have hkmac : s'.kmac = kmac := hkmac
  refine ⟨fun cmd hcla htags ↦ ?_, fun events i j e hij he hsucceeds ↦ ?_,
    fun events hmac i j cmd hij hcla hi hj haccepts ↦ ?_, fun header res hcla ↦ ?_,
    fun xs hfits hssc ↦ ?_⟩
  · rw [smAccepts_iff C hs hcla, smVerify_ok_iff C hs, smDataObjects_eq htags, hkmac, and_assoc,
      and_assoc]
    rfl
  · exact smRun_lt C hs hij he hsucceeds
  · rw [← hkmac] at hmac
    exact smRun_no_replay C hs hmac hij hcla hi hj haccepts
  · exact smWrap_ok_iff C hs hcla res
  · exact smDialogue_eq C xs hs hfits hssc

/-! ### The header -/

/-- A cipher that does not encrypt, and whose MAC is what follows the counter. -/
def smOpenCipher : SmCipher where
  cmac _ input := (input.drop 16 ++ List.replicate 16 0).take 16
  aesEncrypt _ _ data := data
  aesDecrypt _ _ data := data
  length_cmac _ _ := by simp
  length_aesEncrypt _ _ _ := rfl
  aesDecrypt_aesEncrypt _ _ _ _ := rfl

/-- A command whose class asks for secure messaging without the header, and without data. -/
def smHeaderlessCommand : ApduCommand :=
  ⟨⟨0x04, 0xb0, 0, 0⟩, encodeTlv 0x8e (List.replicate 8 0), 0⟩

/-- The header is not always covered: this command is accepted with a MAC over the counter. -/
theorem smUnwrap_header_not_covered :
    ¬∀ (C : SmCipher) (s : SmSession) (cmd : ApduCommand), s.Established →
      smIndicator cmd.header ≠ 0 → SmAccepts C s cmd →
      smSentMac (tlvItems cmd.data) = some (smMac C s.kmac
        (smMacInput (s.ssc + 1) (some cmd.header) (smDataObjects (tlvItems cmd.data)))) := by
  intro h
  have haccepts : SmAccepts smOpenCipher (smDeriveAllKeys [] [] (smSetProtocol .aes
      ⟨.none, [], [], 0, 0, false⟩)) smHeaderlessCommand := by
    show (smUnwrap ..).2.2 = .ok ()
    decide
  exact absurd (h _ _ _ (established_smDeriveAllKeys ..) (by decide) haccepts) (by decide)

end PicoAll
