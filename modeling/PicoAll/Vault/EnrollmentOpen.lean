import PicoAll.Lib.FaultProgram
import PicoAll.Vault.Enrollment

/-!
# The hand-written key schedule is the standard one

The buffers of the code are large enough for everything that is put into them, and its expansion loop
ends with the blocks that are asked for. So what it opens is what `Hpke.authOpen` opens, with the
X448 function of the code, which refuses a shared secret of zero.
-/

namespace PicoAll.Vault

open BigEndian FaultProgram Hpke List

variable (V : VaultParams)

/-- The primitives of the ceremony. -/
def vaultSuite : Suite where
  hmac := V.hmac
  hashLength := vaultHpkeNh
  dh privateKey peerPublic := (vaultX448Shared V privateKey peerPublic).toOption
  aeadOpen key nonce aad ciphertext :=
    V.gcmDecrypt key nonce aad (ciphertext.take (ciphertext.length - vaultHpkeNt))
      (ciphertext.drop (ciphertext.length - vaultHpkeNt))
  kemId := kemSuiteId
  id := hpkeSuiteId
  secretLength := vaultHpkeNh
  keyLength := vaultHpkeNk
  nonceLength := vaultHpkeNn
  length_hmac := V.length_hmac
  hashLength_pos := by decide

@[simp]
theorem vaultSuite_id : (vaultSuite V).id = hpkeSuiteId :=
  rfl

@[simp]
theorem vaultSuite_keyLength : (vaultSuite V).keyLength = vaultHpkeNk :=
  rfl

@[simp]
theorem vaultSuite_nonceLength : (vaultSuite V).nonceLength = vaultHpkeNn :=
  rfl

variable {V} {prk info : Bytes}

/-! ### Extract and expand -/

variable {outputLen : ℕ} {suiteId : Bytes}

/-- The loop of the source is HKDF's expansion. -/
theorem hkdfExpandLoop_eq {rounds k : ℕ} {previous : Bytes}
    (hprevious : 0 < k → previous = hkdfBlock (vaultSuite V) prk info k)
    (hrounds : outputLen ≤ (k + rounds) * vaultHpkeNh) :
    hkdfExpandLoop V prk info outputLen rounds
      ((hkdfBlocks (vaultSuite V) prk info k).take outputLen) previous (k + 1) =
        hkdfExpand (vaultSuite V) prk info outputLen := by
  induction rounds generalizing k previous with
  | zero => exact take_hkdfBlocks hrounds
  | succ rounds ih =>
    have hlen : ((hkdfBlocks (vaultSuite V) prk info k).take outputLen).length =
        min outputLen (k * vaultHpkeNh) := by
      rw [length_take, length_hkdfBlocks]
      rfl
    rw [hkdfExpandLoop]
    split
    · rename_i hlt
      have hk : k * vaultHpkeNh < outputLen := by omega
      -- The block that this round adds is the next one.
      have hblock : V.hmac prk ((if k + 1 > 1 then previous else []) ++ info ++
          [UInt8.ofNat (k + 1)]) = hkdfBlock (vaultSuite V) prk info (k + 1) := by
        rcases Nat.eq_zero_or_pos k with rfl | hpos
        · rfl
        · rw [if_pos (by omega), hprevious hpos]
          rfl
      have hwritten : (hkdfBlocks (vaultSuite V) prk info k).take outputLen =
          hkdfBlocks (vaultSuite V) prk info k :=
        take_of_length_le (by rw [length_hkdfBlocks]; exact hk.le)
      have hnext : (hkdfBlocks (vaultSuite V) prk info k).take outputLen ++
          (hkdfBlock (vaultSuite V) prk info (k + 1)).take
            (min (outputLen - ((hkdfBlocks (vaultSuite V) prk info k).take outputLen).length)
              vaultHpkeNh) =
          (hkdfBlocks (vaultSuite V) prk info (k + 1)).take outputLen := by
        rw [hwritten, hkdfBlocks, take_append, hwritten]
        refine congrArg _ (take_eq_take_iff.mpr ?_)
        rw [length_hkdfBlock, show (vaultSuite V).hashLength = vaultHpkeNh from rfl]
        omega
      show hkdfExpandLoop V prk info outputLen rounds (_ ++ (V.hmac prk _).take _) (V.hmac prk _) _ = _
      rw [hblock, hnext]
      exact ih (fun _ ↦ rfl) (by rw [Nat.add_right_comm]; exact hrounds)
    · rename_i hge
      exact take_hkdfBlocks (show outputLen ≤ k * vaultHpkeNh by omega)

theorem vaultHpkeHkdfExpand_eq (hinfo : info.length ≤ vaultHpkeExpandInfoMax)
    (hlen : outputLen ≤ 255 * vaultHpkeNh) :
    vaultHpkeHkdfExpand V prk info outputLen =
      .ok (hkdfExpand (vaultSuite V) prk info outputLen) := by
  have hloop : hkdfExpandLoop V prk info outputLen 255
      ((hkdfBlocks (vaultSuite V) prk info 0).take outputLen) (List.replicate vaultHpkeNh 0)
        (0 + 1) = hkdfExpand (vaultSuite V) prk info outputLen :=
    hkdfExpandLoop_eq (fun h ↦ absurd h (lt_irrefl 0)) (by omega)
  rw [hkdfBlocks, take_nil] at hloop
  rw [vaultHpkeHkdfExpand, if_neg (by omega)]
  exact congrArg Except.ok hloop

variable {label recipientPublic senderPublic : Bytes}

theorem vaultHpkeLabeledExtract_eq {salt ikm : Bytes} (hsuite : suiteId.length ≠ 0)
    (hsalt : salt.length ≤ vaultHpkeNh)
    (hlen : version.length + suiteId.length + label.length + ikm.length ≤ vaultHpkeLabeledInputMax) :
    vaultHpkeLabeledExtract V suiteId salt label ikm =
      .ok (labeledExtract (vaultSuite V) suiteId salt label ikm) := by
  rw [vaultHpkeLabeledExtract, if_neg (by omega), vaultHpkeHkdfExtract, if_neg (by omega),
    labeledExtract, hkdfExtract]
  simp only [length_eq_zero_iff]
  rfl

theorem vaultHpkeLabeledExpand_eq (hsuite : suiteId.length ≠ 0)
    (hlen : 2 + version.length + suiteId.length + label.length + info.length ≤ vaultHpkeExpandInfoMax)
    (hout : outputLen ≤ 255 * vaultHpkeNh) :
    vaultHpkeLabeledExpand V suiteId prk label info outputLen =
      .ok (labeledExpand (vaultSuite V) suiteId prk label info outputLen) := by
  have hbytes : [UInt8.ofNat (outputLen >>> 8), UInt8.ofNat outputLen] = beBytes 2 outputLen := by
    rw [Nat.shiftRight_eq_div_pow]
    simp [beBytes]
  have hmax : vaultHpkeNh = 64 := rfl
  rw [vaultHpkeLabeledExpand, if_neg (by omega), hbytes, vaultHpkeHkdfExpand_eq _ hout,
    labeledExpand]
  simp only [length_append, length_beBytes]
  omega

theorem length_of_vaultX448Shared {privateKey peerPublic shared : Bytes}
    (h : vaultX448Shared V privateKey peerPublic = .ok shared) : shared.length = vaultX448Bytes := by
  rw [vaultX448Shared] at h
  rcases hdh : V.ecdh privateKey peerPublic with - | bytes
  · rw [hdh] at h
    cases h
  · rw [hdh] at h
    dsimp only at h
    split_ifs at h with hlen hzero
    cases h
    exact not_not.mp hlen

/-! ### The receiver -/

/-- What is extracted in the ceremony fits into its buffer. -/
theorem extract_fits {salt ikm : Bytes} (hsuite : suiteId = kemSuiteId ∨ suiteId = hpkeSuiteId)
    (hsalt : salt.length ≤ 64) (hlabel : label.length ≤ 13) (hikm : ikm.length ≤ 226) :
    vaultHpkeLabeledExtract V suiteId salt label ikm =
      .ok (labeledExtract (vaultSuite V) suiteId salt label ikm) := by
  have hid : suiteId.length ≠ 0 ∧ suiteId.length ≤ 10 := by
    rcases hsuite with rfl | rfl <;> decide
  have hversion : version.length = 7 := rfl
  have hmax : vaultHpkeLabeledInputMax = 256 := rfl
  exact vaultHpkeLabeledExtract_eq hid.1 hsalt (by omega)

/-- What is expanded in the ceremony fits into its buffer. -/
theorem expand_fits (hsuite : suiteId = kemSuiteId ∨ suiteId = hpkeSuiteId)
    (hlabel : label.length ≤ 13) (hinfo : info.length ≤ 224) (hout : outputLen ≤ 64) :
    vaultHpkeLabeledExpand V suiteId prk label info outputLen =
      .ok (labeledExpand (vaultSuite V) suiteId prk label info outputLen) := by
  have hid : suiteId.length ≠ 0 ∧ suiteId.length ≤ 10 := by
    rcases hsuite with rfl | rfl <;> decide
  have hversion : version.length = 7 := rfl
  have hmax : vaultHpkeExpandInfoMax = 256 ∧ vaultHpkeNh = 64 := ⟨rfl, rfl⟩
  exact vaultHpkeLabeledExpand_eq hid.1 (by omega) (by omega)

theorem length_labeledExtract (suiteId salt label ikm : Bytes) :
    (labeledExtract (vaultSuite V) suiteId salt label ikm).length = 64 :=
  V.length_hmac ..

theorem vaultHpkeSharedSecret_toOption (recipientPrivate : Bytes) {enc : Bytes}
    (henc : enc.length = 56) (hrecipient : recipientPublic.length = 56)
    (hsender : senderPublic.length = 56) :
    (vaultHpkeSharedSecret V enc recipientPrivate recipientPublic senderPublic).toOption =
      authDecap (vaultSuite V) enc recipientPrivate recipientPublic senderPublic := by
  have hdh : ∀ peer, (vaultSuite V).dh recipientPrivate peer =
      (vaultX448Shared V recipientPrivate peer).toOption := fun _ ↦ rfl
  rw [vaultHpkeSharedSecret, authDecap, hdh, hdh]
  rcases hephemeral : vaultX448Shared V recipientPrivate enc with e | ephemeral
  · rfl
  rcases hstatic : vaultX448Shared V recipientPrivate senderPublic with e | static
  · rfl
  have hlen : (ephemeral ++ static).length ≤ 226 := by
    rw [length_append, length_of_vaultX448Shared hephemeral, length_of_vaultX448Shared hstatic]
    decide
  have hkem : (enc ++ recipientPublic ++ senderPublic).length ≤ 224 := by
    rw [length_append, length_append, henc, hrecipient, hsender]
    decide
  rw [ok_bind, ok_bind, extract_fits (.inl rfl) (by decide) (by decide) hlen, ok_bind,
    expand_fits (.inl rfl) (by decide) hkem (by decide)]
  rfl

theorem vaultHpkeKeySchedule_eq {sharedSecret : Bytes} (hshared : sharedSecret.length ≤ 64)
    (hinfo : info.length ≤ 226) :
    vaultHpkeKeySchedule V sharedSecret info = .ok
      (labeledExpand (vaultSuite V) hpkeSuiteId
          (labeledExtract (vaultSuite V) hpkeSuiteId sharedSecret secretLabel [])
          keyLabel (authContext (vaultSuite V) info) vaultHpkeNk,
        labeledExpand (vaultSuite V) hpkeSuiteId
          (labeledExtract (vaultSuite V) hpkeSuiteId sharedSecret secretLabel [])
          baseNonceLabel (authContext (vaultSuite V) info) vaultHpkeNn) := by
  have hcontext : (0x02 :: (labeledExtract (vaultSuite V) hpkeSuiteId [] pskIdHashLabel [] ++
      labeledExtract (vaultSuite V) hpkeSuiteId [] infoHashLabel info)).length ≤ 224 := by
    rw [length_cons, length_append, length_labeledExtract, length_labeledExtract]
    decide
  rw [vaultHpkeKeySchedule, extract_fits (.inr rfl) (by decide) (by decide) (by decide), ok_bind,
    extract_fits (.inr rfl) (by decide) (by decide) hinfo, ok_bind,
    extract_fits (.inr rfl) hshared (by decide) (by decide), ok_bind,
    expand_fits (.inr rfl) (by decide) hcontext (by decide), ok_bind,
    expand_fits (.inr rfl) (by decide) hcontext (by decide)]
  rfl

theorem vaultHpkeGcmOpen_toOption (key nonce aad ciphertext : Bytes) :
    (vaultHpkeGcmOpen V key nonce aad ciphertext).toOption =
      (vaultSuite V).aeadOpen key nonce aad ciphertext := by
  show _ = V.gcmDecrypt key nonce aad (ciphertext.take (ciphertext.length - vaultHpkeNt))
    (ciphertext.drop (ciphertext.length - vaultHpkeNt))
  rw [vaultHpkeGcmOpen]
  rcases V.gcmDecrypt key nonce aad _ _ with - | plain <;> rfl

/-- **What the code opens is what the standard opens.** -/
theorem vaultHpkeAuthSteps_toOption {enc recipientPrivate aad ciphertext : Bytes}
    (henc : enc.length = 56) (hrecipient : recipientPublic.length = 56)
    (hsender : senderPublic.length = 56) (hinfo : info.length ≤ 226) :
    (vaultHpkeAuthSteps V enc recipientPrivate recipientPublic senderPublic info aad
      ciphertext).toOption =
        authOpen (vaultSuite V) enc recipientPrivate recipientPublic senderPublic info aad
          ciphertext := by
  have hsecret := vaultHpkeSharedSecret_toOption (V := V) recipientPrivate henc hrecipient hsender
  rw [authOpen, ← hsecret, vaultHpkeAuthSteps]
  rcases hshared : vaultHpkeSharedSecret V enc recipientPrivate recipientPublic senderPublic with
    e | shared
  · exact (Option.bind_none _).symm
  have hlen : shared.length ≤ 64 := by
    rw [hshared] at hsecret
    exact (length_of_authDecap _ hsecret.symm).le
  rw [ok_bind, vaultHpkeKeySchedule_eq hlen hinfo, ok_bind, vaultHpkeGcmOpen_toOption]
  show _ = scheduleOpen (vaultSuite V) info aad ciphertext shared
  rw [scheduleOpen, vaultSuite_id, vaultSuite_keyLength, vaultSuite_nonceLength]

end PicoAll.Vault
