import PicoAll.Vault.EnrollmentOpen

/-!
# One answer to a ceremony

What `picokeys_vault_enrollment_decode` accepts, what it gives then, and that a ceremony takes part
in one decoding at most.
-/

namespace PicoAll.Vault

open BigEndian FaultProgram List

variable {V : VaultParams}

/-! ### The parts of a packet -/

/-- A packet, from its parts. -/
def Packet.encode (parts : Packet) : Bytes :=
  beBytes 2 parts.certificate.length ++ parts.certificate ++ parts.encapsulated ++ parts.ciphertext

/-- The lengths that a packet may have. -/
structure Packet.Fits (parts : Packet) : Prop where
  certificate_pos : 1 ≤ parts.certificate.length
  certificate_le : parts.certificate.length ≤ vaultEnrollCertMax
  encapsulated : parts.encapsulated.length = vaultX448Bytes
  le_ciphertext : vaultKeySize + 16 ≤ parts.ciphertext.length
  ciphertext_le : parts.ciphertext.length ≤ vaultEnrollPlainMax + 16

variable {packet plain kvault : Bytes} {parts : Packet} {out : VaultOutputs}
  {enrollment : Enrollment} {events : List VaultEvent} {step : VaultStep}

@[simp]
theorem packetSlice_of_le {offset length : ℕ} (h : offset + length ≤ packet.length) :
    packetSlice packet offset length = .ok ((packet.drop offset).take length) :=
  if_pos h

/-- What the header of a packet says of the length of the certificate. -/
def certificateLen (packet : Bytes) : ℕ :=
  beNat (packet.take 2)

/-- The lengths that are asked of a packet, by its own and by what its header says. -/
def lengthsFit (packet : Bytes) : Prop :=
  1 ≤ certificateLen packet ∧ certificateLen packet ≤ vaultEnrollCertMax ∧
    2 + certificateLen packet + vaultX448Bytes + (vaultKeySize + 16) ≤ packet.length ∧
    packet.length ≤ 2 + certificateLen packet + vaultX448Bytes + (vaultEnrollPlainMax + 16)

/-- Cut a packet by what its header says. -/
def packetParts (packet : Bytes) : Packet where
  certificate := (packet.drop 2).take (certificateLen packet)
  encapsulated := (packet.drop (2 + certificateLen packet)).take vaultX448Bytes
  ciphertext := packet.drop (2 + certificateLen packet + vaultX448Bytes)

theorem parsePacket_of_fit (h : lengthsFit packet) :
    parsePacket packet = .ok (packetParts packet) := by
  obtain ⟨hpos, hmax, hle, hge⟩ := h
  have hrest : (packet.drop (2 + certificateLen packet + vaultX448Bytes)).take
      (packet.length - (2 + certificateLen packet + vaultX448Bytes)) =
      packet.drop (2 + certificateLen packet + vaultX448Bytes) :=
    take_of_length_le (by rw [length_drop])
  have hheader : (packet.drop 0).take 2 = packet.take 2 := rfl
  rw [certificateLen] at hpos hmax hle hge hrest
  rw [parsePacket, packetSlice_of_le (by omega), ok_bind, hheader, if_neg (by omega),
    if_neg (by omega), packetSlice_of_le (by omega), ok_bind, packetSlice_of_le (by omega), ok_bind,
    packetSlice_of_le (by omega), ok_bind, hrest]
  rfl

/-- A packet whose lengths do not fit is refused, and no read leaves it. -/
theorem parsePacket_of_not_fit (hlen : 2 ≤ packet.length) (h : ¬ lengthsFit packet) :
    parsePacket packet = .error (.refused .wrongLength) := by
  have hheader : (packet.drop 0).take 2 = packet.take 2 := rfl
  rw [lengthsFit, certificateLen] at h
  rw [parsePacket, packetSlice_of_le (by omega), ok_bind, hheader]
  dsimp only
  split_ifs with hfirst hsecond
  · rfl
  · rfl
  · exact absurd ⟨by omega, by omega, by omega, by omega⟩ h

theorem encode_packetParts (h : lengthsFit packet) :
    (packetParts packet).encode = packet ∧ (packetParts packet).Fits := by
  obtain ⟨hpos, hmax, hle, hge⟩ := h
  have hcertificate : (packetParts packet).certificate.length = certificateLen packet := by
    rw [packetParts, length_take, length_drop]
    omega
  have hencapsulated : (packetParts packet).encapsulated.length = vaultX448Bytes := by
    rw [packetParts, length_take, length_drop]
    omega
  have hciphertext : (packetParts packet).ciphertext.length =
      packet.length - (2 + certificateLen packet + vaultX448Bytes) :=
    length_drop
  refine ⟨?_, ?_, ?_, ?_, ?_, ?_⟩
  · have htwo : (packet.take 2).length = 2 := by
      rw [length_take]
      omega
    have hheader : beBytes 2 (certificateLen packet) = packet.take 2 := by
      have hfield := beBytes_beNat (packet.take 2)
      rwa [htwo] at hfield
    rw [Packet.encode, hcertificate, hheader]
    simp only [packetParts, append_assoc]
    simp only [← drop_drop, take_append_drop]
  · rwa [hcertificate]
  · rwa [hcertificate]
  · exact hencapsulated
  · rw [hciphertext]
    omega
  · rw [hciphertext]
    omega

/-- The parts of a packet that fits can be told from it. -/
theorem packetParts_encode (h : parts.Fits) :
    lengthsFit parts.encode ∧ packetParts parts.encode = parts := by
  obtain ⟨hpos, hmax, hencapsulated, hle, hge⟩ := h
  have hcertMax : vaultEnrollCertMax = 1900 := rfl
  have hlen : parts.encode.length =
      2 + parts.certificate.length + vaultX448Bytes + parts.ciphertext.length := by
    simp only [Packet.encode, length_append, length_beBytes, hencapsulated]
  have hcertificate : certificateLen parts.encode = parts.certificate.length := by
    have htake : parts.encode.take 2 = beBytes 2 parts.certificate.length := by
      rw [Packet.encode, append_assoc, append_assoc, take_append_of_le_length] <;> simp
    rw [certificateLen, htake, beNat_beBytes (by omega)]
  refine ⟨⟨?_, ?_, ?_, ?_⟩, ?_⟩
  · rwa [hcertificate]
  · rwa [hcertificate]
  · rw [hcertificate, hlen]
    omega
  · rw [hcertificate, hlen]
    omega
  · have hfirst : parts.encode.drop 2 =
        parts.certificate ++ (parts.encapsulated ++ parts.ciphertext) := by
      rw [Packet.encode, append_assoc, append_assoc]
      exact drop_left' (length_beBytes ..)
    simp only [packetParts, hcertificate, ← drop_drop, hfirst, take_left, drop_left,
      take_left' hencapsulated, drop_left' hencapsulated]

theorem parsePacket_encode (h : parts.Fits) : parsePacket parts.encode = .ok parts := by
  obtain ⟨hfit, hparts⟩ := packetParts_encode h
  rw [parsePacket_of_fit hfit, hparts]

/-! ### What a packet encloses -/

variable (V) in
/-- A certificate of the built-in authority, for this device, and its key. -/
def Certifies (certificate point : Bytes) : Prop :=
  ∃ parsed, V.parse certificate = some parsed ∧ parsed.chains = true ∧
    (∃ name ∈ parsed.altNames, name = .dns V.serial ∨ name = .uri V.serial) ∧
    parsed.curve448Point = some point ∧ point.length = vaultX448Bytes

theorem AltName.names_iff {serial : Bytes} (name : AltName) :
    name.names serial = true ↔ name = .dns serial ∨ name = .uri serial := by
  cases name <;> simp [AltName.names]

variable {point label : Bytes} {started : ℕ}

theorem vaultEnrollmentCertificate_eq_ok {certificate : Bytes} :
    vaultEnrollmentCertificate V certificate = .ok point ↔ Certifies V certificate point := by
  rw [vaultEnrollmentCertificate, Certifies]
  rcases hparse : V.parse certificate with - | parsed
  · simp
  have hnames : parsed.altNames.any (AltName.names V.serial) = true ↔
      ∃ name ∈ parsed.altNames, name = .dns V.serial ∨ name = .uri V.serial := by
    simp only [any_eq_true, AltName.names_iff]
  have hpoint : vaultEnrollmentCertificatePublic parsed = .ok point ↔
      parsed.curve448Point = some point ∧ point.length = vaultX448Bytes := by
    rw [vaultEnrollmentCertificatePublic]
    rcases parsed.curve448Point with - | found
    · simp
    · dsimp only
      split_ifs with hlen
      · simp only [Except.ok.injEq, Option.some.injEq]
        exact ⟨fun h ↦ ⟨h, h ▸ hlen⟩, And.left⟩
      · simp only [Option.some.injEq, false_iff, not_and]
        exact fun h ↦ h ▸ hlen
  dsimp only
  constructor
  · intro h
    split_ifs at h with hchains hany
    exact ⟨parsed, rfl, by simpa using hchains, hnames.mp (by simpa using hany), hpoint.mp h⟩
  · rintro ⟨_, hsome, hchains, hany, hkey⟩
    cases hsome
    rw [hchains, hnames.mpr hany, hpoint.mpr hkey]
    rfl

variable (V) in
/-- The ciphertext of the packet opens, in this ceremony and for the key of its certificate, to
`plain`. -/
def Opens (enrollment : Enrollment) (packet plain : Bytes) : Prop :=
  ∃ (parts : Packet) (point : Bytes), parts.encode = packet ∧
    1 ≤ parts.certificate.length ∧ parts.certificate.length ≤ vaultEnrollCertMax ∧
    parts.encapsulated.length = vaultX448Bytes ∧ Certifies V parts.certificate point ∧
    Hpke.authOpen (vaultSuite V) parts.encapsulated enrollment.privateKey enrollment.publicKey point
      (vaultEnrollmentHpkeInfo ++ enrollment.challenge) parts.certificate parts.ciphertext = some plain

/-- The two layouts of a plaintext: a key, or a key and a label with its length. -/
def Encloses (plain kvault label : Bytes) : Prop :=
  kvault.length = vaultKeySize ∧ label.length ≤ vaultLabelMax ∧
    (plain = kvault ∧ label = [] ∨ plain = kvault ++ UInt8.ofNat label.length :: label)

theorem Encloses.length (h : Encloses plain kvault label) :
    vaultKeySize ≤ plain.length ∧ plain.length ≤ vaultEnrollPlainMax := by
  obtain ⟨hkey, hlabel, ⟨rfl, rfl⟩ | rfl⟩ := h
  · exact ⟨hkey.ge, hkey.le.trans (by decide)⟩
  · rw [length_append, length_cons, hkey]
    exact ⟨Nat.le_add_right .., by rw [vaultEnrollPlainMax]; omega⟩

/-! ### Taking the plaintext apart -/

theorem vaultEnrollmentUnpack_of_encloses (out : VaultOutputs) (h : Encloses plain kvault label)
    (hfit : label.length ≤ out.metadata.length) :
    vaultEnrollmentUnpack plain out =
      (.ok (), ⟨kvault, label ++ out.metadata.drop label.length, label.length⟩) := by
  obtain ⟨hkey, hlabel, ⟨rfl, rfl⟩ | rfl⟩ := h
  · rw [vaultEnrollmentUnpack, if_pos hkey]
    rfl
  · have hmax : vaultLabelMax = 64 := rfl
    have hlen : (kvault ++ UInt8.ofNat label.length :: label).length =
        vaultKeySize + 1 + label.length := by
      rw [length_append, length_cons, hkey]
      omega
    have hbyte : ((kvault ++ UInt8.ofNat label.length :: label).getD vaultKeySize 0).toNat =
        label.length := by
      rw [getD_append_right _ _ _ _ hkey.le, hkey, Nat.sub_self, getD_cons_zero,
        UInt8.toNat_ofNat_of_lt' (by rw [UInt8.size]; omega)]
    have htail : (kvault ++ UInt8.ofNat label.length :: label).drop (vaultKeySize + 1) = label := by
      rw [← drop_drop, ← hkey, drop_left, drop_succ_cons, drop_zero]
    rw [vaultEnrollmentUnpack, if_neg (by omega)]
    rw [hbyte, htail, if_pos ⟨by omega, hlabel, hlen⟩, if_neg (by omega), take_left' hkey,
      take_length]

theorem vaultEnrollmentUnpack_ok (h : (vaultEnrollmentUnpack plain out).1 = .ok ()) :
    ∃ kvault label, Encloses plain kvault label ∧ label.length ≤ out.metadata.length := by
  by_cases hkey : plain.length = vaultKeySize
  · exact ⟨plain, [], ⟨hkey, Nat.zero_le _, .inl ⟨rfl, rfl⟩⟩, Nat.zero_le _⟩
  rw [vaultEnrollmentUnpack, if_neg hkey] at h
  dsimp only at h
  split_ifs at h with hlayout hcapacity
  obtain ⟨hlt, hmax, hlen⟩ := hlayout
  have hlabel : (plain.drop (vaultKeySize + 1)).length = (plain.getD vaultKeySize 0).toNat := by
    rw [length_drop]
    omega
  refine ⟨plain.take vaultKeySize, plain.drop (vaultKeySize + 1), ⟨?_, ?_, .inr ?_⟩, ?_⟩
  · rw [length_take]
    omega
  · rwa [hlabel]
  · have hget : plain[vaultKeySize] = plain.getD vaultKeySize 0 := by
      rw [getD_eq_getElem _ _ hlt]
    rw [hlabel, UInt8.ofNat_toNat, ← hget, getElem_cons_drop, take_append_drop]
  · rw [hlabel]
    omega

/-- Nothing is put out by a refusal, where the caller has room for every label. -/
theorem vaultEnrollmentUnpack_refused (out : VaultOutputs)
    (hroom : vaultLabelMax ≤ out.metadata.length) (h : (vaultEnrollmentUnpack plain out).1 ≠ .ok ()) :
    (vaultEnrollmentUnpack plain out).2 = out := by
  by_cases hkey : plain.length = vaultKeySize
  · rw [vaultEnrollmentUnpack, if_pos hkey] at h
    exact absurd rfl h
  rw [vaultEnrollmentUnpack, if_neg hkey] at h ⊢
  dsimp only at h ⊢
  split_ifs at h ⊢ with hlayout hcapacity
  · exact absurd (hcapacity.trans_le hlayout.2.1) (not_lt.mpr hroom)
  · exact absurd rfl h
  · rfl

/-! ### One decoding -/

theorem mapError_eq_ok {ε ε' α : Type} {f : ε → ε'} {result : Except ε α} {a : α} :
    result.mapError f = .ok a ↔ result = .ok a := by
  cases result <;> simp [Except.mapError]

theorem toOption_eq_some {ε α : Type} {result : Except ε α} {a : α} :
    result.toOption = some a ↔ result = .ok a := by
  cases result <;> simp [Except.toOption]

/-- The opening of a ciphertext that is long enough, for a key of the right length. -/
theorem vaultHpkeAuthDecap_eq_ok (enrollment : Enrollment) {enc aad ciphertext : Bytes}
    (henc : enc.length = vaultX448Bytes) (hpoint : point.length = vaultX448Bytes)
    (hciphertext : vaultHpkeNt ≤ ciphertext.length) :
    vaultHpkeAuthDecap V enc enrollment.privateKey enrollment.publicKey point
        (vaultEnrollmentHpkeInfo ++ enrollment.challenge) aad ciphertext = .ok plain ↔
      Hpke.authOpen (vaultSuite V) enc enrollment.privateKey enrollment.publicKey point
        (vaultEnrollmentHpkeInfo ++ enrollment.challenge) aad ciphertext = some plain := by
  have hinfo : (vaultEnrollmentHpkeInfo ++ enrollment.challenge).length ≤ 226 := by
    rw [length_append, enrollment.length_challenge]
    decide
  rw [vaultHpkeAuthDecap, if_neg (by omega), mapError_eq_ok, ← toOption_eq_some,
    vaultHpkeAuthSteps_toOption henc enrollment.length_publicKey hpoint hinfo]

/-- A plaintext that encloses something comes from a packet whose lengths fit. -/
theorem Opens.fits (h : Opens V enrollment packet plain) (hencloses : Encloses plain kvault label) :
    ∃ (parts : Packet) (point : Bytes), parts.encode = packet ∧ parts.Fits ∧
      Certifies V parts.certificate point ∧
      Hpke.authOpen (vaultSuite V) parts.encapsulated enrollment.privateKey enrollment.publicKey
        point (vaultEnrollmentHpkeInfo ++ enrollment.challenge) parts.certificate
        parts.ciphertext = some plain := by
  obtain ⟨parts, point, hpacket, hpos, hmax, hencapsulated, hcertifies, hopen⟩ := h
  obtain ⟨hle, hge⟩ := hencloses.length
  obtain ⟨key, nonce, hplain⟩ := Hpke.exists_aeadOpen_of_authOpen _ hopen
  have hlen := V.length_gcmDecrypt _ _ _ _ _ _ hplain
  rw [length_take] at hlen
  have hsizes : vaultKeySize = 32 ∧ vaultHpkeNt = 16 := ⟨rfl, rfl⟩
  exact ⟨parts, point, hpacket, ⟨hpos, hmax, hencapsulated, by omega, by omega⟩, hcertifies, hopen⟩

theorem Packet.length_encode (h : parts.Fits) : vaultEnrollMinPacketLen ≤ parts.encode.length := by
  have hencapsulated := h.encapsulated
  have hciphertext := h.le_ciphertext
  simp only [Packet.encode, length_append, length_beBytes, vaultEnrollMinPacketLen]
  omega

/-- The decoding of a packet whose ciphertext opens. -/
theorem decode_of_authOpen (hactive : enrollment.active = true) (hfits : parts.Fits)
    (hcertifies : Certifies V parts.certificate point)
    (hopen : Hpke.authOpen (vaultSuite V)
      parts.encapsulated enrollment.privateKey enrollment.publicKey point
      (vaultEnrollmentHpkeInfo ++ enrollment.challenge) parts.certificate parts.ciphertext =
      some plain) :
    picokeysVaultEnrollmentDecode V enrollment parts.encode out =
      ((vaultEnrollmentUnpack plain { out with metadataLen := 0 }).1.mapError .refused,
        (vaultEnrollmentUnpack plain { out with metadataLen := 0 }).2,
        picokeysVaultEnrollmentClear) := by
  have hnt : vaultHpkeNt ≤ parts.ciphertext.length :=
    (show vaultHpkeNt ≤ vaultKeySize + 16 by decide).trans hfits.le_ciphertext
  have hpoint : point.length = vaultX448Bytes := by
    obtain ⟨-, -, -, -, -, hlen⟩ := hcertifies
    exact hlen
  have hlen := Packet.length_encode hfits
  have hdecap := (vaultHpkeAuthDecap_eq_ok enrollment hfits.encapsulated hpoint hnt).mpr hopen
  rw [picokeysVaultEnrollmentDecode, hactive, if_neg (not_or.mpr ⟨by decide, not_lt.mpr hlen⟩)]
  rw [parsePacket_encode hfits]
  dsimp only
  rw [vaultEnrollmentCertificate_eq_ok.mpr hcertifies]
  dsimp only
  rw [hdecap]

/-- **What one decoding comes to**: a refusal before anything was decrypted, or a plaintext. -/
theorem decode_cases (enrollment : Enrollment) (packet : Bytes) (out : VaultOutputs) :
    (∃ e metadataLen, (metadataLen = out.metadataLen ∨ metadataLen = 0) ∧
      picokeysVaultEnrollmentDecode V enrollment packet out =
        (.error (.refused e), { out with metadataLen := metadataLen },
          picokeysVaultEnrollmentClear)) ∨
    ∃ plain, enrollment.active = true ∧ Opens V enrollment packet plain ∧
      picokeysVaultEnrollmentDecode V enrollment packet out =
        ((vaultEnrollmentUnpack plain { out with metadataLen := 0 }).1.mapError .refused,
          (vaultEnrollmentUnpack plain { out with metadataLen := 0 }).2,
          picokeysVaultEnrollmentClear) := by
  by_cases hfirst : !enrollment.active ∨ packet.length < vaultEnrollMinPacketLen
  · exact .inl ⟨.wrongLength, _, .inl rfl, by rw [picokeysVaultEnrollmentDecode, if_pos hfirst]⟩
  have hdecode := picokeysVaultEnrollmentDecode.eq_1 V enrollment packet out
  rw [if_neg hfirst] at hdecode
  rw [not_or, Bool.not_eq_true, Bool.not_eq_false', not_lt] at hfirst
  obtain ⟨hactive, hlen⟩ := hfirst
  have htwo : 2 ≤ packet.length := (show 2 ≤ vaultEnrollMinPacketLen by decide).trans hlen
  by_cases hfit : lengthsFit packet
  · obtain ⟨hpacket, hfits⟩ := encode_packetParts hfit
    rw [parsePacket_of_fit hfit] at hdecode
    dsimp only at hdecode
    rcases hcertificate : vaultEnrollmentCertificate V (packetParts packet).certificate with e | point
    · rw [hcertificate] at hdecode
      exact .inl ⟨_, _, .inr rfl, hdecode⟩
    rw [hcertificate] at hdecode
    dsimp only at hdecode
    have hcertifies := vaultEnrollmentCertificate_eq_ok.mp hcertificate
    rcases hdecap : vaultHpkeAuthDecap V (packetParts packet).encapsulated enrollment.privateKey
      enrollment.publicKey point (vaultEnrollmentHpkeInfo ++ enrollment.challenge)
        (packetParts packet).certificate (packetParts packet).ciphertext with e | plain
    · rw [hdecap] at hdecode
      exact .inl ⟨_, _, .inr rfl, hdecode⟩
    have hpoint : point.length = vaultX448Bytes := by
      obtain ⟨-, -, -, -, -, hlength⟩ := hcertifies
      exact hlength
    have hopen := (vaultHpkeAuthDecap_eq_ok _ hfits.encapsulated hpoint
      ((show vaultHpkeNt ≤ vaultKeySize + 16 by decide).trans hfits.le_ciphertext)).mp hdecap
    rw [hdecap] at hdecode
    exact .inr ⟨plain, hactive, ⟨_, point, hpacket, hfits.certificate_pos, hfits.certificate_le,
      hfits.encapsulated, hcertifies, hopen⟩, hdecode⟩
  · rw [parsePacket_of_not_fit htwo hfit] at hdecode
    exact .inl ⟨_, _, .inr rfl, hdecode⟩

variable (V) in
/-- What is said of one decoding. -/
structure DecodeLaw (enrollment : Enrollment) (packet : Bytes) (out : VaultOutputs) : Prop where
  /-- Key and label are the encrypted ones. -/
  accepts : ∀ plain kvault label, enrollment.active = true → Opens V enrollment packet plain →
    Encloses plain kvault label → label.length ≤ out.metadata.length →
      picokeysVaultEnrollmentDecode V enrollment packet out =
        (.ok (), ⟨kvault, label ++ out.metadata.drop label.length, label.length⟩,
          picokeysVaultEnrollmentClear)
  /-- Nothing else is accepted. -/
  exact : (picokeysVaultEnrollmentDecode V enrollment packet out).1 = .ok () →
    enrollment.active = true ∧ ∃ plain kvault label, Opens V enrollment packet plain ∧
      Encloses plain kvault label ∧ label.length ≤ out.metadata.length
  capacity : (picokeysVaultEnrollmentDecode V enrollment packet out).1 = .ok () →
    (picokeysVaultEnrollmentDecode V enrollment packet out).2.1.metadataLen ≤ out.metadata.length
  /-- A refusal leaves key and label to a caller that has room for every label. -/
  refuses : (picokeysVaultEnrollmentDecode V enrollment packet out).1 ≠ .ok () →
    vaultLabelMax ≤ out.metadata.length →
      ∃ metadataLen, (metadataLen = out.metadataLen ∨ metadataLen = 0) ∧
        (picokeysVaultEnrollmentDecode V enrollment packet out).2.1 =
          { out with metadataLen := metadataLen }
  inside : (picokeysVaultEnrollmentDecode V enrollment packet out).1 ≠ .error .outside
  ended : (picokeysVaultEnrollmentDecode V enrollment packet out).2.2 = picokeysVaultEnrollmentClear

theorem decode_accepts (hactive : enrollment.active = true)
    (hopens : Opens V enrollment packet plain) (hencloses : Encloses plain kvault label)
    (hfit : label.length ≤ out.metadata.length) :
    picokeysVaultEnrollmentDecode V enrollment packet out =
      (.ok (), ⟨kvault, label ++ out.metadata.drop label.length, label.length⟩,
        picokeysVaultEnrollmentClear) := by
  obtain ⟨parts, point, rfl, hfits, hcertifies, hopen⟩ := hopens.fits hencloses
  have hunpack := vaultEnrollmentUnpack_of_encloses { out with metadataLen := 0 } hencloses hfit
  rw [decode_of_authOpen hactive hfits hcertifies hopen, hunpack]
  rfl

theorem decode_exact (hok : (picokeysVaultEnrollmentDecode V enrollment packet out).1 = .ok ()) :
    enrollment.active = true ∧ ∃ plain kvault label, Opens V enrollment packet plain ∧
      Encloses plain kvault label ∧ label.length ≤ out.metadata.length := by
  rcases decode_cases (V := V) enrollment packet out with
    ⟨e, metadataLen, -, hdecode⟩ | ⟨plain, hactive, hopens, hdecode⟩
  · rw [hdecode] at hok
    cases hok
  · rw [hdecode] at hok
    obtain ⟨kvault, label, hencloses, hfit⟩ := vaultEnrollmentUnpack_ok (mapError_eq_ok.mp hok)
    exact ⟨hactive, plain, kvault, label, hopens, hencloses, hfit⟩

/-- **Every decoding obeys the law.** -/
theorem decodeLaw (enrollment : Enrollment) (packet : Bytes) (out : VaultOutputs) :
    DecodeLaw V enrollment packet out where
  accepts _ _ _ := decode_accepts
  exact := decode_exact
  capacity hok := by
    obtain ⟨hactive, plain, kvault, label, hopens, hencloses, hfit⟩ := decode_exact hok
    rw [decode_accepts hactive hopens hencloses hfit]
    exact hfit
  refuses hrefused hroom := by
    rcases decode_cases (V := V) enrollment packet out with
      ⟨e, metadataLen, hlen, hdecode⟩ | ⟨plain, -, -, hdecode⟩
    · rw [hdecode]
      exact ⟨metadataLen, hlen, rfl⟩
    · rw [hdecode] at hrefused ⊢
      have hunpack := vaultEnrollmentUnpack_refused { out with metadataLen := 0 } hroom fun hok ↦
        hrefused (mapError_eq_ok.mpr hok)
      exact ⟨0, .inr rfl, hunpack⟩
  inside := by
    rcases decode_cases (V := V) enrollment packet out with ⟨e, _, -, hdecode⟩ | ⟨plain, -, -, hdecode⟩
    · rw [hdecode]
      exact fun h ↦ by cases h
    · rw [hdecode]
      rcases (vaultEnrollmentUnpack plain { out with metadataLen := 0 }).1 with e | ok
      · exact fun h ↦ by cases h
      · exact fun h ↦ by cases h
  ended := by
    rcases decode_cases (V := V) enrollment packet out with ⟨_, _, -, hdecode⟩ | ⟨_, -, -, hdecode⟩
    · rw [hdecode]
    · rw [hdecode]

/-! ### Runs -/

/-- What was generated for a ceremony that is started. -/
def VaultEvent.ceremony : VaultEvent → Option (KeyPair × Challenge)
  | .start generated challenge => some (generated, challenge)
  | .clear => none
  | .decode _ _ => none

/-- A packet is decoded in a ceremony. -/
def VaultStep.answers (step : VaultStep) : Bool :=
  match step.event with
  | .decode _ _ => step.before.active
  | _ => false

/-- Whatever does not start a ceremony ends it. -/
theorem apply_inactive {event : VaultEvent} (enrollment : Enrollment)
    (h : event.ceremony = none) : (event.apply V enrollment).active = false := by
  cases event with
  | start generated challenge => cases h
  | clear => rfl
  | decode packet out =>
    show (picokeysVaultEnrollmentDecode V enrollment packet out).2.2.active = false
    rw [(decodeLaw enrollment packet out).ended]
    rfl

theorem after_eq_apply (h : step ∈ vaultSteps V enrollment started events) :
    step.after = step.event.apply V step.before := by
  induction events generalizing enrollment started with
  | nil => cases h
  | cons event events ih =>
    rcases mem_cons.mp h with rfl | h
    · rfl
    · exact ih h

theorem le_started (h : step ∈ vaultSteps V enrollment started events) :
    started ≤ step.started := by
  induction events generalizing enrollment started with
  | nil => cases h
  | cons event events ih =>
    rcases mem_cons.mp h with rfl | h
    · exact le_rfl
    · exact (Nat.le_add_right ..).trans (ih h)

/-- Where no ceremony is going on, one has to be started before a packet can be decoded. -/
theorem started_lt_of_active (henrollment : enrollment.active = false)
    (h : step ∈ vaultSteps V enrollment started events) (hactive : step.before.active = true) :
    started < step.started := by
  induction events generalizing enrollment started with
  | nil => cases h
  | cons event events ih =>
    rcases mem_cons.mp h with rfl | h
    · rw [henrollment] at hactive
      cases hactive
    rcases hceremony : event.ceremony with - | ceremony
    · exact (Nat.le_add_right ..).trans_lt (ih (apply_inactive enrollment hceremony) h)
    · cases event with
      | start generated challenge => exact le_started h
      | clear => cases hceremony
      | decode packet out => cases hceremony

/-- **A ceremony takes part in one decoding at most.** -/
theorem answers_pairwise (events : List VaultEvent) (enrollment : Enrollment) (started : ℕ) :
    ((vaultSteps V enrollment started events).filter VaultStep.answers).Pairwise
      fun s t ↦ s.started < t.started := by
  induction events generalizing enrollment started with
  | nil => exact .nil
  | cons event events ih =>
    rw [vaultSteps, filter_cons]
    split
    · rename_i hanswers
      refine pairwise_cons.mpr ⟨fun step hstep ↦ ?_, ih ..⟩
      obtain ⟨hstep, hlater⟩ := mem_filter.mp hstep
      -- The packet that is decoded now ends the ceremony.
      cases event with
      | start generated challenge => cases hanswers
      | clear => cases hanswers
      | decode packet out =>
        have hactive : step.before.active = true := by
          rw [VaultStep.answers] at hlater
          split at hlater
          · exact hlater
          · cases hlater
        exact started_lt_of_active (apply_inactive enrollment rfl) hstep hactive
    · exact ih ..

/-- A ceremony that is going on is the one that was started last. -/
theorem before_eq_start (h : step ∈ vaultSteps V enrollment started events)
    (hactive : step.before.active = true) :
    step.before = enrollment ∧ step.started = started ∨
      ∃ k generated challenge, step.started = started + k + 1 ∧
        (events.filterMap VaultEvent.ceremony)[k]? = some (generated, challenge) ∧
        step.before = (picokeysVaultEnrollmentStart generated challenge).2 := by
  induction events generalizing enrollment started with
  | nil => cases h
  | cons event events ih =>
    rcases mem_cons.mp h with rfl | h
    · exact .inl ⟨rfl, rfl⟩
    refine .inr ?_
    rcases hceremony : event.ceremony with - | ceremony
    · rw [filterMap_cons_none hceremony]
      have hcount : event.count = 0 := by
        cases event with
        | start generated challenge => cases hceremony
        | clear => rfl
        | decode packet out => rfl
      rw [hcount, Nat.add_zero] at h
      rcases ih h with ⟨hbefore, -⟩ | hlater
      · rw [hbefore, apply_inactive enrollment hceremony] at hactive
        cases hactive
      · exact hlater
    · cases event with
      | clear => cases hceremony
      | decode packet out => cases hceremony
      | start generated challenge =>
        rcases ih h with ⟨hbefore, hstarted⟩ | ⟨k, later, next, hstarted, hget, hbefore⟩
        · exact ⟨0, generated, challenge, hstarted, rfl, hbefore⟩
        · refine ⟨k + 1, later, next, ?_, hget, hbefore⟩
          rw [hstarted]
          show started + 1 + k + 1 = _
          omega

/-- **The enrollment ceremony**, from power-up on. -/
theorem enrollment_law (V : VaultParams) (events : List VaultEvent) :
    ((vaultSteps V picokeysVaultEnrollmentClear 0 events).filter VaultStep.answers).Pairwise
        (fun s t ↦ s.started < t.started) ∧
      ∀ step ∈ vaultSteps V picokeysVaultEnrollmentClear 0 events,
        (step.before.active = true → ∃ generated challenge,
          (events.filterMap VaultEvent.ceremony)[step.started - 1]? = some (generated, challenge) ∧
          step.before = (picokeysVaultEnrollmentStart generated challenge).2) ∧
        ∀ packet out, step.event = .decode packet out →
          step.after = picokeysVaultEnrollmentClear ∧ DecodeLaw V step.before packet out := by
  refine ⟨answers_pairwise .., fun step hstep ↦ ⟨fun hactive ↦ ?_, fun packet out hevent ↦ ?_⟩⟩
  · rcases before_eq_start hstep hactive with
      ⟨hbefore, -⟩ | ⟨k, generated, challenge, hstarted, hget, hbefore⟩
    · rw [hbefore] at hactive
      cases hactive
    · refine ⟨generated, challenge, ?_, hbefore⟩
      rw [hstarted, Nat.zero_add, Nat.add_sub_cancel]
      exact hget
  · refine ⟨?_, decodeLaw ..⟩
    rw [after_eq_apply hstep, hevent]
    exact (decodeLaw step.before packet out).ended

/-! ### A plaintext of another layout -/

/-- Primitives that hide nothing, and a certificate that is always right. -/
def vaultToy : VaultParams where
  serial := [0x31]
  parse _ := some ⟨true, [.other, .dns [0x31]], some (List.replicate vaultX448Bytes 1)⟩
  hmac _ _ := List.replicate 64 0
  ecdh _ _ := some (List.replicate vaultX448Bytes 1)
  gcmDecrypt _ _ _ ciphertext _ := some ciphertext
  length_hmac _ _ := List.length_replicate
  length_gcmDecrypt _ _ _ _ _ _ h := congrArg List.length (Option.some.inj h).symm

/-- A ceremony that has been started. -/
def vaultToyEnrollment : Enrollment :=
  (picokeysVaultEnrollmentStart ⟨List.replicate vaultX448Bytes 2, some (List.replicate vaultX448Bytes 3)⟩
    ⟨List.replicate vaultEnrollChallengeBytes 4, List.length_replicate⟩).2

/-- A packet whose plaintext announces a label of five bytes and has none. -/
def vaultToyParts : Packet where
  certificate := [0x30]
  encapsulated := List.replicate vaultX448Bytes 5
  ciphertext := List.replicate vaultKeySize 6 ++ [5] ++ List.replicate 16 7

-- With a label of one byte, as it says.
example : (picokeysVaultEnrollmentDecode vaultToy vaultToyEnrollment
    (Packet.encode { vaultToyParts with
      ciphertext := List.replicate vaultKeySize 6 ++ [1, 0x61] ++ List.replicate 16 7 })
    ⟨[], List.replicate 2 0, 9⟩).2.1 = ⟨List.replicate vaultKeySize 6, [0x61, 0], 1⟩ := by
  decide +kernel

/-- **A packet whose ciphertext opens is refused**: a plaintext of another layout than the two is
taken for no key. -/
theorem opened_packet_refused :
    ¬ ∀ (V : VaultParams) (enrollment : Enrollment) (packet : Bytes) (out : VaultOutputs),
      vaultLabelMax ≤ out.metadata.length →
        ((picokeysVaultEnrollmentDecode V enrollment packet out).1 = .ok () ↔
          enrollment.active = true ∧ ∃ plain, Opens V enrollment packet plain) := by
  intro h
  have hopens : Opens vaultToy vaultToyEnrollment vaultToyParts.encode
      (List.replicate vaultKeySize 6 ++ [5]) :=
    ⟨vaultToyParts, List.replicate vaultX448Bytes 1, rfl, by decide, by decide, rfl,
      ⟨_, rfl, rfl, ⟨_, mem_cons_of_mem _ (mem_singleton_self _), .inl rfl⟩, rfl, rfl⟩,
      by decide +kernel⟩
  have hok := (h vaultToy vaultToyEnrollment vaultToyParts.encode
    ⟨[], List.replicate vaultLabelMax 0, 0⟩ (by decide)).mpr ⟨rfl, _, hopens⟩
  exact absurd hok (by decide +kernel)

end PicoAll.Vault
