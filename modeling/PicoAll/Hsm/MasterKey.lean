import PicoAll.Hsm.PinRetry

/-!
# The custody of the master key

A PIN that is accepted opens its copy of the master key, and both copies hold the same key
(`MkekCustody`). A command that sets a PIN writes the copy under the new PIN and then the verifier,
so this is an invariant of the runs in which none of these writes fails, and in which the power is
not lost before they have reached the flash; the writes of the counters and the rest of the runs are
as they may be. An initialisation that is given both PINs makes it hold.
-/

namespace PicoAll

open FaultProgram Device List Function

/-- Derivations as good as ideal ones: what is derived from two PINs with one verifier is the
same. -/
structure HsmPinCrypto.Ideal (C : HsmPinCrypto) : Prop where
  session_eq : ∀ x y, C.pinDeriveVerifier x = C.pinDeriveVerifier y →
    C.pinDeriveSession x = C.pinDeriveSession y
  hashMulti_eq : ∀ x y, C.doubleHashPin x = C.doubleHashPin y → C.hashMulti x = C.hashMulti y

/-- The key under which `hsm_check_pin` opens the master key, for a verifier. -/
def pinKey (C : HsmPinCrypto) (stored value : Bytes) : Bytes :=
  if stored.length = 33 then C.hashMulti value else C.pinDeriveSession value

/-- The copies of the master key that are not to be written are `mkek` under `keys`, and so are the
sessions; the verifiers are `verifiers`. None of these files is disturbed. -/
structure MkekStored (C : HsmPinCrypto) (mkek : Bytes) (keys verifiers : HsmPin → Bytes)
    (todo : HsmPin → Prop) (d : HsmDevice) : Prop where
  opens : ∀ p : HsmPin, ¬todo p → openMkek C none (keys p) (fileData d p.mkek) = .ok mkek
  verifier : ∀ p : HsmPin, fileData d p.file = verifiers p
  session : ∀ p, d.ram.hasSession p → d.ram.sessionKey p = keys p
  mask : d.ram.mkekMask = none
  quiet : ∀ p : HsmPin, d.Undisturbed p.file ∧ d.Undisturbed p.mkek

/-- Both copies of the master key are stored. -/
abbrev MkekSealed (C : HsmPinCrypto) (mkek : Bytes) (keys verifiers : HsmPin → Bytes)
    (d : HsmDevice) : Prop :=
  MkekStored C mkek keys verifiers (fun _ ↦ False) d

/-- **Custody.** The values `values` are accepted, and each of them opens its copy of the one master
key. -/
structure MkekCustody (C : HsmPinCrypto) (mkek : Bytes) (values : HsmPin → Bytes)
    (d : HsmDevice) : Prop where
  accepts : ∀ p : HsmPin, pinMatches C (fileData d p.file) (values p) = some true
  opens : ∀ p : HsmPin,
    openMkek C none (pinKey C (fileData d p.file) (values p)) (fileData d p.mkek) = .ok mkek
  session : ∀ p, d.ram.hasSession p →
    d.ram.sessionKey p = pinKey C (fileData d p.file) (values p)
  mask : d.ram.mkekMask = none
  length : mkek.length = 48

/-- The writes of the verifiers and of the copies of the master key are left alone. -/
def CustodyQuiet (d : HsmDevice) : Prop :=
  ∀ p : HsmPin, d.Undisturbed p.file ∧ d.Undisturbed p.mkek

/-! ### What does not concern the custody -/

/-- One of the files with a verifier or a copy of the master key. -/
def HsmFile.IsCustody (f : HsmFile) : Prop :=
  ∃ pin : HsmPin, f = pin.file ∨ f = pin.mkek

theorem isCustody_file (pin : HsmPin) : pin.file.IsCustody :=
  ⟨pin, .inl rfl⟩

theorem isCustody_mkek (pin : HsmPin) : pin.mkek.IsCustody :=
  ⟨pin, .inr rfl⟩

theorem not_isCustody_retries (pin : HsmPin) : ¬pin.retries.IsCustody := by
  rintro ⟨p, h⟩
  cases pin <;> cases p <;> simp [HsmPin.file, HsmPin.retries, HsmPin.mkek] at h

theorem file_injective : Function.Injective HsmPin.file := by
  intro p q h
  cases p <;> cases q <;> simp_all [HsmPin.file]

theorem mkek_injective : Function.Injective HsmPin.mkek := by
  intro p q h
  cases p <;> cases q <;> simp_all [HsmPin.mkek]

theorem file_ne_mkek (p q : HsmPin) : p.file ≠ q.mkek := by
  cases p <;> cases q <;> simp [HsmPin.file, HsmPin.mkek]

/-- The verifiers and the copies are the same, and no session has come. -/
structure SameCustody (d d' : HsmDevice) : Prop where
  data : ∀ f : HsmFile, f.IsCustody → fileData d' f = fileData d f
  session : ∀ p, d'.ram.hasSession p → d.ram.hasSession p ∧ d'.ram.sessionKey p = d.ram.sessionKey p
  mask : d.ram.mkekMask = none → d'.ram.mkekMask = none

/-- And no disturbance has come. -/
structure SameKeys (d d' : HsmDevice) : Prop extends SameCustody d d' where
  quiet : CustodyQuiet d → CustodyQuiet d'

theorem CustodyQuiet.attempted {d : HsmDevice} (h : CustodyQuiet d) (f : HsmFile) :
    CustodyQuiet (d.attempted f) :=
  fun p ↦ ⟨(h p).1.attempted f, (h p).2.attempted f⟩

theorem SameKeys.attempted (d : HsmDevice) (f : HsmFile) : SameKeys d (d.attempted f) :=
  ⟨⟨fun _ _ ↦ rfl, fun _ h ↦ ⟨h, rfl⟩, id⟩, fun h ↦ h.attempted f⟩

variable {f : HsmFile} {g : HsmRam → HsmRam} {Q : Unit → HsmDevice → Prop}
  {E : Exit HsmError → HsmDevice → Prop} {p1 p2 : UInt8}

theorem SameKeys.written (d : HsmDevice) (hf : ¬f.IsCustody) (a : Option Bytes) :
    SameKeys d (d.written f a) where
  data g hg := by
    unfold fileData
    rw [read_written_of_ne (by rintro rfl; exact hf hg)]
  session _ h := ⟨h, rfl⟩
  mask := id
  quiet h := h.attempted f

theorem SameCustody.setRam (d : HsmDevice)
    (hsession : ∀ p, (g d.ram).hasSession p →
      d.ram.hasSession p ∧ (g d.ram).sessionKey p = d.ram.sessionKey p)
    (hmask : (g d.ram).mkekMask = d.ram.mkekMask) : SameCustody d (d.setRam g) :=
  ⟨fun _ _ ↦ rfl, hsession, hmask.trans⟩

theorem SameKeys.setRam (d : HsmDevice)
    (hsession : ∀ p, (g d.ram).hasSession p →
      d.ram.hasSession p ∧ (g d.ram).sessionKey p = d.ram.sessionKey p)
    (hmask : (g d.ram).mkekMask = d.ram.mkekMask) : SameKeys d (d.setRam g) :=
  ⟨.setRam d hsession hmask, id⟩

variable {C : HsmPinCrypto} {mkek : Bytes} {keys verifiers values : HsmPin → Bytes}
  {todo : HsmPin → Prop} {d : HsmDevice} {A : Outcome → Prop} {d' : HsmDevice} {data key : Bytes}
  {pin : HsmPin}

theorem MkekStored.of_same (h : MkekStored C mkek keys verifiers todo d) (hsame : SameKeys d d') :
    MkekStored C mkek keys verifiers todo d' where
  opens p hp := by rw [hsame.data _ (isCustody_mkek p), h.opens p hp]
  verifier p := by rw [hsame.data _ (isCustody_file p), h.verifier p]
  session p hp := by rw [(hsame.session p hp).2, h.session p (hsame.session p hp).1]
  mask := hsame.mask h.mask
  quiet := hsame.quiet h.quiet

theorem MkekCustody.of_same (h : MkekCustody C mkek values d) (hsame : SameCustody d d') :
    MkekCustody C mkek values d' where
  accepts p := by rw [hsame.data _ (isCustody_file p), h.accepts p]
  opens p := by rw [hsame.data _ (isCustody_mkek p), hsame.data _ (isCustody_file p), h.opens p]
  session p hp := by
    rw [(hsame.session p hp).2, hsame.data _ (isCustody_file p), h.session p (hsame.session p hp).1]
  mask := hsame.mask h.mask
  length := h.length

/-- Custody, in terms of what is stored. -/
theorem MkekCustody.stored (h : MkekCustody C mkek values d) (hquiet : CustodyQuiet d) :
    MkekSealed C mkek (fun p ↦ pinKey C (fileData d p.file) (values p))
      (fun p ↦ fileData d p.file) d :=
  ⟨fun p _ ↦ h.opens p, fun _ ↦ rfl, h.session, h.mask, hquiet⟩

theorem MkekStored.custody
    (h : MkekSealed C mkek (fun p ↦ pinKey C (verifiers p) (values p)) verifiers d)
    (haccepts : ∀ p, pinMatches C (verifiers p) (values p) = some true)
    (hlen : mkek.length = 48) : MkekCustody C mkek values d where
  accepts p := by rw [h.verifier p, haccepts p]
  opens p := by rw [h.verifier p, h.opens p id]
  session p hp := by rw [h.verifier p, h.session p hp]
  mask := h.mask
  length := hlen

/-! ### Storing and loading -/

theorem wp_hsmFilePutData_quiet (hquiet : d.Undisturbed f) (h : Q () (d.written f (some data))) :
    wp A (hsmFilePutData f data) Q E d := by
  have hout := hquiet.outcome_eq
  exact wp_put (fun _ ↦ h) (by simp [hout]) (by simp [hout]) (by simp [hout])

theorem wp_hsmFilePutDataIgnoring_quiet (hquiet : d.Undisturbed f)
    (h : Q () (d.written f (some data))) : wp A (hsmFilePutDataIgnoring f data) Q E d := by
  have hout := hquiet.outcome_eq
  exact wp_putIgnoring (fun _ ↦ h) (by simp [hout]) (by simp [hout])

theorem openMkek_encrypted (hlen : mkek.length = 48) (mask : Option Bytes) (draw : ℕ)
    (key : Bytes) : openMkek C mask key (3 :: C.encryptWithAad draw key mkek) = .ok mkek := by
  have hfile : (3 :: C.encryptWithAad draw key mkek).length = 77 := by
    rw [length_cons, C.length_encryptWithAad, hlen]
  rw [openMkek, if_neg (by rw [hfile]; decide), if_pos hfile, headD_cons, if_pos rfl, tail_cons,
    C.decryptWithAad_encryptWithAad]

/-- A copy is stored under the key of the session. -/
theorem wp_storeMkekUnder (h : MkekStored C mkek keys verifiers todo d) (hlen : mkek.length = 48)
    (hsession : d.ram.hasSession pin) :
    wp A (storeMkekUnder C mkek pin)
      (fun _ d' ↦ MkekStored C mkek keys verifiers (fun p ↦ todo p ∧ p ≠ pin) d' ∧
        ∀ p, d'.ram.hasSession p = d.ram.hasSession p) (fun _ _ ↦ False) d := by
  refine wp_get (wp_bind (wp_modifyRam
    (wp_hsmFilePutDataIgnoring_quiet (h.quiet pin).2 ⟨⟨fun p hp ↦ ?_, fun p ↦ ?_, h.session, h.mask,
      CustodyQuiet.attempted h.quiet _⟩, fun _ ↦ rfl⟩)))
  · rcases eq_or_ne p pin with rfl | hne
    · have hdata : fileData (((d.setRam fun ram ↦ { ram with draws := ram.draws + 1 })).written
          p.mkek (some (3 :: C.encryptWithAad d.ram.draws (d.ram.sessionKey p) mkek))) p.mkek =
          3 :: C.encryptWithAad d.ram.draws (d.ram.sessionKey p) mkek := by
        rw [fileData, read_written_self]
        rfl
      rw [hdata, h.session p hsession, openMkek_encrypted hlen]
    · rw [fileData, read_written_of_ne (mkek_injective.ne hne)]
      exact h.opens p fun htodo ↦ hp ⟨htodo, hne⟩
  · rw [fileData, read_written_of_ne (file_ne_mkek p pin)]
    exact h.verifier p

/-- `store_mkek` stores the copies of all sessions. -/
theorem wp_storeMkek {key : Option Bytes} (hkey : mkek = key.getD (C.randomMkek d.ram.draws))
    (hlen : mkek.length = 48)
    (h : MkekStored C mkek keys verifiers (fun p ↦ d.ram.hasSession p = true) d) :
    wp A (storeMkek C key) (fun _ ↦ MkekSealed C mkek keys verifiers)
      (fun _ d' ↦ d' = d ∧ ∀ p, d.ram.hasSession p = false) d := by
  have hdrawn : SameKeys d (d.setRam fun ram ↦ { ram with draws := ram.draws + 1 }) :=
    .setRam d (fun _ hp ↦ ⟨hp, rfl⟩) rfl
  refine wp_get (wp_ite (fun hnone ↦ wp_fail ⟨rfl, fun p ↦ ?_⟩) fun _ ↦ wp_bind (wp_modifyRam ?_))
  · rw [Bool.and_eq_true, Bool.not_eq_true', Bool.not_eq_true'] at hnone
    cases p
    · exact hnone.1
    · exact hnone.2
  rw [← hkey]
  have huser : wp A (if d.ram.hasSessionPin then storeMkekUnder C mkek .user else pure ())
      (fun _ d' ↦ MkekStored C mkek keys verifiers
        (fun p ↦ d.ram.hasSession p = true ∧ p ≠ .user) d' ∧
          ∀ p, d'.ram.hasSession p = d.ram.hasSession p) (fun _ _ ↦ False)
      (d.setRam fun ram ↦ { ram with draws := ram.draws + 1 }) := by
    refine wp_ite (fun hs ↦ wp_storeMkekUnder (h.of_same hdrawn) hlen hs) fun hs ↦ wp_pure ⟨?_,
      fun _ ↦ rfl⟩
    refine { h.of_same hdrawn with
      opens := fun p hp ↦ (h.of_same hdrawn).opens p fun hp' ↦ hp ⟨hp', ?_⟩ }
    rintro rfl
    exact hs hp'
  refine wp_seq huser (fun _ d' hd' ↦ wp_ite (fun hs ↦ ?_) fun hs ↦ wp_pure ?_)
    fun _ _ hfalse ↦ hfalse.elim
  · refine wp_mono (wp_storeMkekUnder hd'.1 hlen ((hd'.2 .so).trans hs)) (fun _ d'' hd'' ↦ ?_)
      fun _ _ hfalse ↦ hfalse.elim
    refine { hd''.1 with opens := fun p _ ↦ hd''.1.opens p fun hp ↦ ?_ }
    cases p
    · exact hp.1.2 rfl
    · exact hp.2 rfl
  · refine { hd'.1 with opens := fun p _ ↦ hd'.1.opens p fun hp ↦ ?_ }
    cases p
    · exact hp.2 rfl
    · exact hs hp.1

/-- `load_mkek` gives the master key, and keeps what is stored. -/
theorem keeps_loadMkek_sealed (hlen : mkek.length = 48) :
    Keeps (MkekSealed C mkek keys verifiers) (· = mkek) (loadMkek C) := by
  intro A d h
  refine wp_get (wp_refuse h fun _ ↦ ?_)
  rcases hsource : mkekSource d with - | pin
  · exact wp_fail h
  have hsession : d.ram.hasSession pin = true := by
    rw [mkekSource] at hsource
    split at hsource
    · next hs =>
      cases hsource
      exact (Bool.and_eq_true _ _ ▸ hs).1
    · split at hsource
      · next hs =>
        cases hsource
        exact (Bool.and_eq_true _ _ ▸ hs).1
      · cases hsource
  have hopen : openMkek C d.ram.mkekMask (d.ram.sessionKey pin) (fileData d pin.mkek) = .ok mkek := by
    rw [h.mask, h.session pin hsession, h.opens pin id]
  refine wp_lift (fun key hkey ↦ ?_) fun r hr ↦ by rw [hopen] at hr; cases hr
  obtain rfl : mkek = key := by
    rw [hopen] at hkey
    exact Except.ok.inj hkey
  refine wp_bind (wp_ite (fun _ ↦ ?_) fun _ ↦ wp_pure (wp_pure ⟨h, rfl⟩))
  refine wp_mono (wp_storeMkek rfl hlen { h with opens := fun p _ ↦ h.opens p id })
    (fun _ _ h' ↦ wp_pure ⟨h', rfl⟩) ?_
  rintro _ d' ⟨rfl, -⟩
  exact h

/-! ### Checking and replacing a PIN -/

/-- Custody of the master key, undisturbed, with values of which `K` holds. -/
def InCustody (C : HsmPinCrypto) (mkek : Bytes) (K : HsmPin → Bytes → Prop) (d : HsmDevice) :
    Prop :=
  ∃ values, MkekCustody C mkek values d ∧ CustodyQuiet d ∧ ∀ p, K p (values p)

theorem InCustody.of_same {K : HsmPin → Bytes → Prop} (h : InCustody C mkek K d)
    (hsame : SameKeys d d') : InCustody C mkek K d' := by
  obtain ⟨values, hcustody, hquiet, hK⟩ := h
  exact ⟨values, hcustody.of_same hsame.toSameCustody, hsame.quiet hquiet, hK⟩

theorem length_pinVerifier (C : HsmPinCrypto) (value : Bytes) :
    (pinVerifier C value).length = 34 := by
  rw [pinVerifier, length_cons, length_cons, C.length_pinDeriveVerifier]

theorem pinMatches_pinVerifier (C : HsmPinCrypto) (value : Bytes) :
    pinMatches C (pinVerifier C value) value = some true := by
  rw [pinMatches, if_neg (by rw [length_pinVerifier]; decide), if_pos (length_pinVerifier C value)]
  simp [pinVerifier]

theorem pinKey_pinVerifier (C : HsmPinCrypto) (value : Bytes) :
    pinKey C (pinVerifier C value) value = C.pinDeriveSession value := by
  rw [pinKey, if_neg (by rw [length_pinVerifier]; decide)]

/-- Two values that a verifier accepts have the same key. -/
theorem pinKey_eq_of_matches (hC : C.Ideal) {stored x y : Bytes}
    (hx : pinMatches C stored x = some true) (hy : pinMatches C stored y = some true) :
    pinKey C stored x = pinKey C stored y := by
  unfold pinMatches at hx hy
  unfold pinKey
  split
  · next hlen =>
    rw [if_pos hlen, Option.some.injEq, decide_eq_true_iff] at hx hy
    exact hC.hashMulti_eq x y (hx.symm.trans hy)
  · next hlen =>
    rw [if_neg hlen] at hx hy
    split at hx
    · next hlen' =>
      rw [if_pos hlen'] at hy
      rw [Option.some.injEq, decide_eq_true_iff] at hx hy
      exact hC.session_eq x y (hx.symm.trans hy)
    · cases hx

theorem sameKeys_openSession (p : HsmPin) (hp : p ≠ pin) (ram : HsmRam) :
    (ram.openSession pin key).hasSession p = ram.hasSession p ∧
      (ram.openSession pin key).sessionKey p = ram.sessionKey p := by
  cases pin <;> cases p <;> first | exact absurd rfl hp | exact ⟨rfl, rfl⟩

theorem openSession_self (pin : HsmPin) (key : Bytes) (ram : HsmRam) :
    (ram.openSession pin key).hasSession pin = true ∧
      (ram.openSession pin key).sessionKey pin = key := by
  cases pin <;> exact ⟨rfl, rfl⟩

theorem openSession_mask (pin : HsmPin) (key : Bytes) (ram : HsmRam) :
    (ram.openSession pin key).mkekMask = ram.mkekMask := by
  cases pin <;> rfl

/-- A session under the key of its copy. -/
theorem MkekStored.openSession (h : MkekStored C mkek keys verifiers todo d) :
    MkekStored C mkek keys verifiers todo (d.setRam (·.openSession pin (keys pin))) where
  opens := h.opens
  verifier := h.verifier
  session p hp := by
    rcases eq_or_ne p pin with rfl | hne
    · exact (openSession_self p _ d.ram).2
    · rw [ram_setRam, (sameKeys_openSession p hne d.ram).1] at hp
      rw [ram_setRam, (sameKeys_openSession p hne d.ram).2, h.session p hp]
  mask := (openSession_mask pin _ d.ram).trans h.mask
  quiet := h.quiet

/-- A session under a new key, which the copies of the PINs with a session are to be stored under. -/
theorem MkekStored.renewSession (h : MkekSealed C mkek keys verifiers d) :
    MkekStored C mkek (Function.update keys pin key) verifiers
      (fun p ↦ (d.ram.openSession pin key).hasSession p = true)
      (d.setRam (·.openSession pin key)) where
  opens p hp := by
    rcases eq_or_ne p pin with rfl | hne
    · exact absurd (openSession_self p key d.ram).1 hp
    · rw [update_of_ne hne]
      exact h.opens p id
  verifier := h.verifier
  session p hp := by
    rcases eq_or_ne p pin with rfl | hne
    · rw [update_self]
      exact (openSession_self p _ d.ram).2
    · rw [ram_setRam, (sameKeys_openSession p hne d.ram).1] at hp
      rw [ram_setRam, (sameKeys_openSession p hne d.ram).2, update_of_ne hne,
        h.session p hp]
  mask := (openSession_mask pin _ d.ram).trans h.mask
  quiet := h.quiet

/-- The verifier of a PIN is written, after its copy. -/
theorem MkekStored.written {value : Bytes}
    (h : MkekSealed C mkek (Function.update (fun p ↦
      pinKey C (verifiers p) (values p)) pin (C.pinDeriveSession value)) verifiers d)
    (haccepts : ∀ p, pinMatches C (verifiers p) (values p) = some true) (hlen : mkek.length = 48) :
    MkekCustody C mkek (Function.update values pin value)
        (d.written pin.file (some (pinVerifier C value))) ∧
      CustodyQuiet (d.written pin.file (some (pinVerifier C value))) := by
  have hdata : ∀ p : HsmPin, fileData (d.written pin.file (some (pinVerifier C value))) p.file =
      Function.update verifiers pin (pinVerifier C value) p := by
    intro p
    rcases eq_or_ne p pin with rfl | hne
    · rw [fileData, read_written_self, update_self]
      rfl
    · rw [fileData, read_written_of_ne (file_injective.ne hne), update_of_ne hne]
      exact h.verifier p
  have hkeys : ∀ p, pinKey C (Function.update verifiers pin (pinVerifier C value) p)
      (Function.update values pin value p) =
      Function.update (fun p ↦ pinKey C (verifiers p) (values p)) pin (C.pinDeriveSession value) p := by
    intro p
    rcases eq_or_ne p pin with rfl | hne
    · rw [update_self, update_self, update_self, pinKey_pinVerifier]
    · rw [update_of_ne hne, update_of_ne hne, update_of_ne hne]
  refine ⟨⟨fun p ↦ ?_, fun p ↦ ?_, fun p hp ↦ ?_, h.mask, hlen⟩, CustodyQuiet.attempted h.quiet _⟩
  · rw [hdata p]
    rcases eq_or_ne p pin with rfl | hne
    · rw [update_self, update_self, pinMatches_pinVerifier]
    · rw [update_of_ne hne, update_of_ne hne, haccepts p]
  · rw [hdata p, hkeys p, fileData, read_written_of_ne (file_ne_mkek pin p).symm]
    exact h.opens p id
  · rw [hdata p, hkeys p]
    exact h.session p hp

variable {K : HsmPin → Bytes → Prop}

/-- Setting a PIN keeps the custody. -/
theorem keeps_replacePin_custody {newPin : Bytes} (hK : K pin newPin) :
    Preserves (InCustody C mkek K) (replacePin C pin newPin) := by
  rintro A d ⟨values, hcustody, hquiet, hvalues⟩
  have hlen := hcustody.length
  have hback : ∀ d', MkekSealed C mkek (fun p ↦ pinKey C (fileData d p.file) (values p))
      (fun p ↦ fileData d p.file) d' → InCustody C mkek K d' := fun d' h ↦
    ⟨values, h.custody hcustody.accepts hlen, h.quiet, hvalues⟩
  refine wp_bind (wp_resultOf (wp_mono (keeps_loadMkek_sealed hlen A d (hcustody.stored hquiet))
    (fun key d' hd' ↦ ?_) fun e d' hd' ↦ ?_))
  · obtain ⟨hstored, rfl⟩ := hd'
    refine wp_bind (wp_modifyRam (wp_bind (wp_resultOf (wp_mono (wp_storeMkek rfl hlen
      hstored.renewSession) (fun _ d'' hd'' ↦ ?_) ?_))))
    · refine wp_bind (wp_hsmFilePutDataIgnoring_quiet (hd''.quiet pin).1 (wp_pure ⟨?_, trivial⟩))
      obtain ⟨hwritten, hquiet'⟩ := hd''.written hcustody.accepts hlen
      refine ⟨_, hwritten, hquiet', fun p ↦ ?_⟩
      rcases eq_or_ne p pin with rfl | hne
      · rw [update_self]
        exact hK
      · rw [update_of_ne hne]
        exact hvalues p
    · rintro e d'' ⟨rfl, hnone⟩
      -- there is the session that has just been opened
      exact absurd ((openSession_self pin _ d'.ram).1.symm.trans (hnone pin)) (by simp)
  · rcases e with r | -
    · exact wp_pure ⟨hback d' hd', trivial⟩
    · exact hback d' hd'

/-- A session under the key that its value has. -/
theorem MkekCustody.openSession (h : MkekCustody C mkek values d) (hquiet : CustodyQuiet d)
    (hkey : key = pinKey C (fileData d pin.file) (values pin)) :
    MkekCustody C mkek values (d.setRam (·.openSession pin key)) := by
  subst hkey
  exact MkekStored.custody (h.stored hquiet).openSession h.accepts h.length

/-- The upgrade of a verifier in the old format: the copy is opened under the old key, and stored
under the new one. -/
theorem wp_upgradePin (hC : C.Ideal) (hcustody : MkekCustody C mkek values d)
    (hquiet : CustodyQuiet d) (hmatch : pinMatches C (fileData d pin.file) data = some true)
    (hlegacy : (fileData d pin.file).length = 33) :
    wp A (upgradePin C pin data)
      (fun _ d' ↦ MkekCustody C mkek (Function.update values pin data) d' ∧ CustodyQuiet d' ∧
        fileData d' pin.file = pinVerifier C data)
      (fun _ d' ↦ MkekCustody C mkek values d' ∧ CustodyQuiet d') d := by
  have hlen := hcustody.length
  have hkey : C.hashMulti data = pinKey C (fileData d pin.file) (values pin) := by
    rw [pinKey_eq_of_matches hC (hcustody.accepts pin) hmatch, pinKey, if_pos hlegacy]
  have hback : ∀ d', MkekSealed C mkek (fun p ↦ pinKey C (fileData d p.file) (values p))
      (fun p ↦ fileData d p.file) d' → MkekCustody C mkek values d' ∧ CustodyQuiet d' := fun d' h ↦
    ⟨h.custody hcustody.accepts hlen, h.quiet⟩
  refine wp_bind (wp_modifyRam (wp_bind ?_))
  rw [hkey]
  refine wp_mono (keeps_loadMkek_sealed hlen A _ (hcustody.stored hquiet).openSession)
    (fun key d' hd' ↦ ?_) fun _ d' hd' ↦ hback d' hd'
  obtain ⟨hstored, rfl⟩ := hd'
  refine wp_bind (wp_modifyRam (wp_seq (wp_storeMkek rfl hlen hstored.renewSession)
    (fun _ d'' hd'' ↦ ?_) ?_))
  · obtain ⟨hwritten, hquiet'⟩ := hd''.written hcustody.accepts hlen
    refine wp_hsmFilePutData_quiet (hd''.quiet pin).1 ⟨hwritten, hquiet', ?_⟩
    rw [fileData, read_written_self]
    rfl
  · rintro e d'' ⟨rfl, hnone⟩
    exact absurd ((openSession_self pin _ d'.ram).1.symm.trans (hnone pin)) (by simp)

theorem wp_grantPin (hcustody : MkekCustody C mkek values d) (hquiet : CustodyQuiet d)
    (hkey : C.pinDeriveSession data = pinKey C (fileData d pin.file) (values pin)) :
    wp A (grantPin C pin data) (fun _ d' ↦ MkekCustody C mkek values d' ∧ CustodyQuiet d')
      (fun _ _ ↦ False) d := by
  refine wp_get (wp_bind (wp_modifyRam (wp_bind (wp_modifyRam (wp_get ?_)))))
  have hopened := MkekCustody.openSession (hcustody.of_same
    (.setRam d (g := fun ram ↦ { ram with
      isUserAuthenticated := ram.isUserAuthenticated || !pkaEnabled d }) (fun _ hp ↦ ⟨hp, rfl⟩) rfl))
    hquiet hkey
  refine wp_ite (fun _ ↦ wp_modifyRam ⟨hopened.of_same (.setRam _ (fun _ hp ↦ ⟨hp, rfl⟩) rfl),
    hquiet⟩) fun _ ↦ wp_pure ⟨hopened, hquiet⟩

theorem sameKeys_beginCheck (d : HsmDevice) (pka : Bool) :
    SameKeys d (d.setRam (·.beginCheck pka)) :=
  .setRam d (fun p hp ↦ by cases p <;> exact absurd hp Bool.false_ne_true) rfl

theorem sameKeys_withNote (d : HsmDevice) (note : HsmPinNote) : SameKeys d (withNote d note) :=
  .setRam d (fun _ hp ↦ ⟨hp, rfl⟩) rfl

/-- Checking a PIN keeps the custody; a value that is accepted may come to be that of an upgraded
verifier. -/
theorem wp_hsmCheckPin_custody (hC : C.Ideal) (h : InCustody C mkek K d)
    (hK : pinMatches C (fileData d pin.file) data = some true → K pin data) :
    wp A (hsmCheckPin C pin data) (fun sw d' ↦ InCustody C mkek K d' ∧
      (sw = swOk → pinMatches C (fileData d pin.file) data = some true))
      (fun _ ↦ InCustody C mkek K) d := by
  have hbegun : ∀ note, InCustody C mkek K
      (withNote (d.setRam (·.beginCheck (pkaEnabled d))) note) := fun note ↦
    (h.of_same (sameKeys_beginCheck d _)).of_same (sameKeys_withNote _ note)
  have hblocked {p : Prop} (hsw : swPinBlocked = swOk) : p := absurd hsw (by decide)
  refine wp_get (wp_return ⟨h, fun hsw ↦ absurd hsw (by decide)⟩ fun _ ↦ wp_bind (wp_modifyRam ?_))
  rcases hmatch : pinMatches C (fileData d pin.file) data with - | _ | _
  · exact wp_pure ⟨h.of_same (sameKeys_beginCheck d _), fun hsw ↦ absurd hsw (by decide)⟩
  · refine wp_bind (wp_notePin (wp_bind (wp_resultOf (wp_pinWrongRetry ?_ ?_ ?_))))
    · exact fun _ ↦ wp_pure ⟨hbegun _, hblocked⟩
    · rintro - - _ rfl
      have hwritten := (hbegun (.compared pin (fileReadUint8 d pin.retries) false)).of_same
        (.written _ (not_isCustody_retries pin) (some [fileReadUint8 d pin.retries - 1]))
      exact ⟨wp_pure ⟨hwritten, fun hsw ↦ absurd hsw (swRetries_ne_swOk _)⟩,
        fun _ ↦ wp_pure ⟨hwritten, hblocked⟩⟩
    · intro _ _ e
      have hattempted := (hbegun (.compared pin (fileReadUint8 d pin.retries) false)).of_same
        (.attempted _ pin.retries)
      rcases e with r | -
      · exact wp_pure ⟨hattempted, hblocked⟩
      · exact hattempted
  · refine wp_bind (wp_notePin (wp_bind (wp_resultOf (wp_hsmPinResetRetries ?_ ?_ ?_))))
    · exact fun _ _ ↦ wp_pure ⟨hbegun _, fun _ ↦ rfl⟩
    · rintro - d₁ rfl
      set d₁ := (withNote (d.setRam (·.beginCheck (pkaEnabled d)))
        (.compared pin (fileReadUint8 d pin.retries) true)).written pin.retries
        (some [fileReadUint8 (withNote (d.setRam (·.beginCheck (pkaEnabled d)))
          (.compared pin (fileReadUint8 d pin.retries) true)) pin.maxRetries]) with hd₁
      have hsame : ∀ p : HsmPin, fileData d₁ p.file = fileData d p.file := fun p ↦
        (SameKeys.written _ (not_isCustody_retries pin) _).data _ (isCustody_file p)
      have hraised : InCustody C mkek K d₁ :=
        (hbegun _).of_same (.written _ (not_isCustody_retries pin) _)
      refine ⟨?_, wp_pure ⟨hraised, fun _ ↦ rfl⟩⟩
      obtain ⟨values, hcustody, hquiet, hvalues⟩ := hraised
      have hmatch₁ : pinMatches C (fileData d₁ pin.file) data = some true := by
        rw [hsame pin, hmatch]
      refine wp_bind (wp_resultOf (wp_ite (fun hlegacy ↦ ?_) fun hlegacy ↦ wp_pure ?_))
      · refine wp_mono (wp_upgradePin hC hcustody hquiet hmatch₁ ((congrArg _ (hsame pin)).trans
          hlegacy)) ?_ ?_
        · rintro - d₂ ⟨hcustody₂, hquiet₂, hverifier⟩
          refine wp_seq (wp_grantPin hcustody₂ hquiet₂ ?_) (fun _ d₃ hd₃ ↦ wp_pure ⟨⟨_,
            hd₃.1, hd₃.2, fun p ↦ ?_⟩, fun _ ↦ rfl⟩) fun _ _ hfalse ↦ hfalse.elim
          · rw [hverifier, update_self, pinKey_pinVerifier]
          · rcases eq_or_ne p pin with rfl | hne
            · rw [update_self]
              exact hK hmatch
            · rw [update_of_ne hne]
              exact hvalues p
        · rintro (r | -) d₂ ⟨hcustody₂, hquiet₂⟩
          · exact wp_pure ⟨⟨values, hcustody₂, hquiet₂, hvalues⟩, fun _ ↦ rfl⟩
          · exact ⟨values, hcustody₂, hquiet₂, hvalues⟩
      · refine wp_seq (wp_grantPin hcustody hquiet ?_) (fun _ d₃ hd₃ ↦ wp_pure ⟨⟨values,
          hd₃.1, hd₃.2, hvalues⟩, fun _ ↦ rfl⟩) fun _ _ hfalse ↦ hfalse.elim
        rw [pinKey_eq_of_matches hC (hcustody.accepts pin) hmatch₁, pinKey, hsame pin,
          if_neg hlegacy]
    · intro _
      have hattempted := (hbegun (.compared pin (fileReadUint8 d pin.retries) true)).of_same
        (.attempted _ pin.retries)
      exact ⟨wp_pure ⟨hattempted, fun _ ↦ rfl⟩, hattempted⟩

/-! ### The commands on the PINs -/

def HsmPin.tag : HsmPin → ℕ
  | user => 0x81
  | so => 0x82

/-- A command sets a PIN to a value: the check of the PIN that it is given for that succeeds. -/
def HsmPinCommand.Sets (C : HsmPinCrypto) (d : HsmDevice) (p : HsmPin) (value : Bytes) :
    HsmPinCommand → Prop
  | verify _ _ _ => False
  | changePin p1 p2 data => ∃ plan, changePinPlan d p1 p2 data = .ok plan ∧ plan.pin = p ∧
      pinMatches C (fileData d p.file) plan.value = some true ∧ plan.newPin = value
  | resetRetry p1 p2 data => ∃ plan, resetRetryPlan d p1 p2 data = .ok plan ∧ p = .user ∧
      (∀ so ∈ plan.soPin, pinMatches C (fileData d HsmPin.so.file) so = some true) ∧
      plan.newPin = some value
  | initializeHsm data => ∃ item ∈ tlvItems data, item.tag = p.tag ∧ item.value = value

/-- A command gives a value of a PIN: the present one, which is accepted, or a new one. -/
def HsmPinCommand.Gives (C : HsmPinCrypto) (d : HsmDevice) (p : HsmPin) (value : Bytes)
    (c : HsmPinCommand) : Prop :=
  c.submission d = some (p, value) ∧ pinMatches C (fileData d p.file) value = some true ∨
    c.Sets C d p value

/-- The commands on the PINs keep the custody. -/
theorem wp_run_custody (hC : C.Ideal) {c : HsmPinCommand} (hc : ∀ data, c ≠ .initializeHsm data)
    (h : InCustody C mkek K d) (hK : ∀ p x, c.Gives C d p x → K p x) :
    wp A (c.run C) (fun _ ↦ InCustody C mkek K) (fun _ ↦ InCustody C mkek K) d := by
  have hcheck {pin : HsmPin} {value : Bytes} (hsubmission : c.submission d = some (pin, value)) :=
    wp_hsmCheckPin_custody (A := A) hC h fun hmatch ↦ hK pin value (.inl ⟨hsubmission, hmatch⟩)
  cases c with
  | verify p1 p2 data =>
    refine wp_get ?_
    rcases htarget : verifyTarget d p1 p2 data with sw | ⟨pin, value⟩
    · exact wp_pure h
    · exact wp_mono (hcheck (by rw [HsmPinCommand.submission, htarget]; rfl)) (fun _ _ h ↦ h.1)
        fun _ _ h ↦ h
  | changePin p1 p2 data =>
    refine wp_get ?_
    rcases hplan : changePinPlan d p1 p2 data with sw | plan
    · exact wp_pure h
    · refine wp_then (hcheck (by rw [HsmPinCommand.submission, hplan]; rfl)) fun sw d' hd' ↦ ?_
      refine wp_return hd'.1 fun hsw ↦ wp_mono (keeps_replacePin_custody (hK plan.pin _ (.inr
        ⟨plan, hplan, rfl, hd'.2 (not_not.mp hsw), rfl⟩)) A d' hd'.1) (fun _ _ h ↦ h.1) fun _ _ h ↦ h
  | resetRetry p1 p2 data =>
    refine wp_get ?_
    rcases hplan : resetRetryPlan d p1 p2 data with sw | plan
    · exact wp_pure h
    -- the SO-PIN is checked first, if the command brings one
    refine wp_bind (wp_mono (Q := fun sw d' ↦ InCustody C mkek K d' ∧ (sw = swOk →
      ∀ so ∈ plan.soPin, pinMatches C (fileData d HsmPin.so.file) so = some true))
      (E := fun _ ↦ InCustody C mkek K) ?_ (fun sw d' hd' ↦ wp_return hd'.1 fun hsw ↦
      wp_bind (wp_notePin (wp_bind (wp_resultOf (wp_hsmPinResetRetries ?_ ?_ ?_)))))
      fun _ _ h ↦ h)
    · rcases hso : plan.soPin with - | value
      · exact wp_pure ⟨h, fun _ _ hnone ↦ by cases hnone⟩
      · refine wp_mono (hcheck (by simp [HsmPinCommand.submission, hplan, hso, Except.toOption]))
          (fun sw d' hd' ↦ ⟨hd'.1, fun hsw so hmem ↦ ?_⟩) fun _ _ h ↦ h
        obtain rfl := Option.some.inj hmem
        exact hd'.2 hsw
    · exact fun _ hforce ↦ by cases hforce
    · rintro - d₁ rfl
      have hreset : InCustody C mkek K _ := (hd'.1.of_same (sameKeys_withNote d' .soReset)).of_same
        (.written _ (not_isCustody_retries .user)
          (some [fileReadUint8 (withNote d' .soReset) HsmPin.user.maxRetries]))
      refine ⟨?_, wp_pure hreset⟩
      rcases hnew : plan.newPin with - | newPin
      · exact wp_pure hreset
      · exact wp_mono (keeps_replacePin_custody (hK .user newPin (.inr
          ⟨plan, hplan, rfl, hd'.2 (not_not.mp hsw), hnew⟩)) A _ hreset) (fun _ _ h ↦ h.1)
          fun _ _ h ↦ h
    · intro _
      have hattempted := (hd'.1.of_same (sameKeys_withNote d' .soReset)).of_same
        (.attempted _ HsmPin.user.retries)
      exact ⟨wp_pure hattempted, hattempted⟩
  | initializeHsm data => exact absurd rfl (hc data)

/-! ### Initialisation -/

/-- No write is disturbed. -/
def AllQuiet (d : HsmDevice) : Prop :=
  ∀ f, d.Undisturbed f

theorem AllQuiet.attempted (h : AllQuiet d) (f : HsmFile) : AllQuiet (d.attempted f) :=
  fun g ↦ (h g).attempted f

theorem length_mkekMasked {bytes : Bytes} {mask : Option Bytes} (hlen : bytes.length = 52)
    (hmask : ∀ key ∈ mask, key.length = 32) : (mkekMasked bytes mask).length = 52 := by
  rcases mask with - | key
  · exact hlen
  · simp [mkekMasked, hlen, hmask key rfl]

/-- What `load_mkek` gives is of the size of a master key, also under a mask. -/
theorem length_openMkek_masked {mask : Option Bytes} {content : Bytes}
    (hmask : ∀ key ∈ mask, key.length = 32) (h : openMkek C mask key content = .ok mkek) :
    mkek.length = 48 := by
  unfold openMkek at h
  dsimp only at h
  split_ifs at h with hold _ hnew
  · obtain rfl := Except.ok.inj h
    rw [length_take, length_mkekMasked _ C.length_otpKey1]
    · rfl
    · rw [length_append, C.length_aesDecryptCfb256, ← length_append, take_append_drop]
      exact length_mkekMasked hold hmask
  · rcases hdecrypt : C.decryptWithAad key content.tail with - | plain <;> rw [hdecrypt] at h
    · cases h
    · obtain rfl := Except.ok.inj h
      have hplain := C.length_decryptWithAad _ _ _ hdecrypt
      rw [length_tail, hnew] at hplain
      exact Nat.add_right_cancel hplain

/-- What `load_mkek` gives is of the size of a master key. -/
theorem length_openMkek {content : Bytes} (h : openMkek C none key content = .ok mkek) :
    mkek.length = 48 :=
  length_openMkek_masked (fun _ hkey ↦ absurd hkey (by simp)) h

/-- From `d` to `d'` the copies of the master key may have been stored. -/
structure CopiesStored (d d' : HsmDevice) : Prop where
  read : ∀ f : HsmFile, (∀ p : HsmPin, f ≠ p.mkek) → d'.read f = d.read f
  ram : ∃ draws, d'.ram = { d.ram with draws := draws }
  quiet : AllQuiet d → AllQuiet d'

theorem CopiesStored.refl (d : HsmDevice) : CopiesStored d d :=
  ⟨fun _ _ ↦ rfl, ⟨d.ram.draws, rfl⟩, id⟩

theorem CopiesStored.hasSession (h : CopiesStored d d') (p : HsmPin) :
    d'.ram.hasSession p = d.ram.hasSession p := by
  obtain ⟨draws, hram⟩ := h.ram
  rw [hram]
  cases p <;> rfl

/-- Undisturbed, `store_mkek` does not end in a loss of power. -/
theorem wp_storeMkek_copies (hquiet : AllQuiet d) (h : CopiesStored d d') (key : Option Bytes) :
    wp A (storeMkek C key) (fun _ ↦ CopiesStored d)
      (fun e d'' ↦ e ≠ .cut ∧ CopiesStored d d'') d' := by
  have hdraw : ∀ d₁, CopiesStored d d₁ →
      CopiesStored d (d₁.setRam fun ram ↦ { ram with draws := ram.draws + 1 }) := fun d₁ h₁ ↦ by
    obtain ⟨draws, hram⟩ := h₁.ram
    exact ⟨h₁.read, ⟨draws + 1, by rw [ram_setRam, hram]⟩, h₁.quiet⟩
  have hunder : ∀ mkek (pin : HsmPin) (b : Bool) d₁, CopiesStored d d₁ →
      wp A (if b then storeMkekUnder C mkek pin else pure ()) (fun _ ↦ CopiesStored d)
        (fun e d'' ↦ e ≠ .cut ∧ CopiesStored d d'') d₁ := by
    intro mkek pin b d₁ h₁
    refine wp_ite (fun _ ↦ wp_get (wp_bind (wp_modifyRam
      (wp_hsmFilePutDataIgnoring_quiet (h₁.quiet hquiet pin.mkek) ?_)))) fun _ ↦ wp_pure h₁
    exact ⟨fun f hf ↦ (read_written_of_ne (hf pin)).trans (h₁.read f hf),
      (hdraw d₁ h₁).ram, fun hq ↦ (h₁.quiet hq).attempted _⟩
  refine wp_get (wp_refuse ⟨by simp, h⟩ fun _ ↦ wp_bind (wp_modifyRam (wp_bind ?_)))
  exact wp_mono (hunder _ _ _ _ (hdraw d' h)) (fun _ d₁ h₁ ↦ hunder _ _ _ d₁ h₁) fun _ _ h ↦ h

theorem wp_loadMkek_copies (hquiet : AllQuiet d) (hmask : d.ram.mkekMask = none)
    (h : CopiesStored d d') :
    wp A (loadMkek C) (fun mkek d'' ↦ mkek.length = 48 ∧ CopiesStored d d'')
      (fun e d'' ↦ e ≠ .cut ∧ CopiesStored d d'') d' := by
  refine wp_get (wp_refuse ⟨by simp, h⟩ fun _ ↦ ?_)
  obtain ⟨draws, hram⟩ := h.ram
  rcases mkekSource d' with - | pin
  · exact wp_fail ⟨by simp, h⟩
  · refine wp_lift (fun mkek hopen ↦ ?_) fun _ _ ↦ ⟨by simp, h⟩
    rw [hram] at hopen
    have hlen : mkek.length = 48 := length_openMkek (hmask ▸ hopen)
    refine wp_bind (wp_ite (fun _ ↦ ?_) fun _ ↦ wp_pure (wp_pure ⟨hlen, h⟩))
    exact wp_mono (wp_storeMkek_copies hquiet h _) (fun _ _ h₁ ↦ wp_pure ⟨hlen, h₁⟩) fun _ _ h ↦ h

/-- Loading the master key, when what it returns is only looked at. -/
theorem wp_resultOf_loadMkek (hquiet : AllQuiet d) (hmask : d.ram.mkekMask = none) :
    wp A (resultOf (loadMkek C)) (fun r d' ↦ CopiesStored d d' ∧
      ∀ mkek, r = .ok mkek → mkek.length = 48) E d := by
  refine wp_resultOf (wp_mono (wp_loadMkek_copies hquiet hmask (.refl d)) (fun key d' h ↦ ?_) ?_)
  · refine ⟨h.2, fun mkek hmkek ↦ ?_⟩
    obtain rfl := Except.ok.inj hmkek
    exact h.1
  · rintro (r | -) d' ⟨hcut, h⟩
    · exact ⟨h, fun _ hr ↦ by cases hr⟩
    · exact absurd rfl hcut

/-- During the loop of an initialisation: a PIN that has a session has its verifier, and the value is
one of those of which `K` holds. -/
structure InitLoop (C : HsmPinCrypto) (K : HsmPin → Bytes → Prop) (d : HsmDevice) : Prop where
  quiet : AllQuiet d
  mask : d.ram.mkekMask = none
  present : ∀ p : HsmPin, (d.read p.file).isSome
  session : ∀ p, d.ram.hasSession p → ∃ value, K p value ∧
    d.read p.file = some (pinVerifier C value) ∧ d.ram.sessionKey p = C.pinDeriveSession value

section Init

variable {P : HsmPin → Prop} {f : HsmFile} {E : Exit HsmError → HsmDevice → Prop}

theorem InitLoop.written (h : InitLoop C K d) (hf : ∀ p : HsmPin, f ≠ p.file) (a : Option Bytes) :
    InitLoop C K (d.written f a) where
  quiet := h.quiet.attempted f
  mask := h.mask
  present p := by
    rw [read_written_of_ne (hf p).symm]
    exact h.present p
  session p hp := by
    rw [read_written_of_ne (hf p).symm]
    exact h.session p hp

/-- The loop has come to a state in which the sessions of `P` are open. -/
def InitReached (C : HsmPinCrypto) (K : HsmPin → Bytes → Prop) (P : HsmPin → Prop)
    (d : HsmDevice) : Prop :=
  InitLoop C K d ∧ ∀ p, P p → d.ram.hasSession p = true

theorem wp_write_init {data : Bytes} (hf : ∀ p : HsmPin, f ≠ p.file) (h : InitReached C K P d) :
    wp A (hsmFilePutDataIgnoring f data) (fun _ ↦ InitReached C K P) E d :=
  wp_hsmFilePutDataIgnoring_quiet (h.1.quiet f) ⟨h.1.written hf _, h.2⟩

theorem wp_fileNewEmpty_init (hf : ∀ p : HsmPin, f ≠ p.file) (h : InitReached C K P d) :
    wp A (fileNewEmpty f) (fun _ ↦ InitReached C K P) E d :=
  wp_hsmFilePutData_quiet (h.1.quiet f) ⟨h.1.written hf _, h.2⟩

theorem wp_initializeRetries_init {data : Bytes} (hf : ∀ p : HsmPin, f ≠ p.file)
    (h : InitReached C K P d) : wp A (initializeRetries f data) (fun _ ↦ InitReached C K P) E d :=
  wp_get (wp_ite (fun _ ↦ wp_write_init hf h) fun _ ↦ wp_pure h)

/-- A PIN of the loop gets its verifier and a session. -/
theorem wp_initializePin_init {pin : HsmPin} {value : Bytes} (hK : K pin value)
    (h : InitReached C K P d) :
    wp A (initializePin C pin value) (fun _ ↦ InitReached C K fun p ↦ P p ∨ p = pin) E d := by
  refine wp_get (wp_ite (fun _ ↦ wp_bind (wp_hsmFilePutDataIgnoring_quiet
    (h.1.quiet pin.file) (wp_modifyRam ?_))) fun hnone ↦ absurd (h.1.present pin) hnone)
  set d' := d.written pin.file (some (pinVerifier C value)) with hd'
  have hread : ∀ p, p ≠ pin → d'.read p.file = d.read p.file := fun p hne ↦
    read_written_of_ne (file_injective.ne hne)
  have hself : d'.read pin.file = some (pinVerifier C value) := read_written_self ..
  refine ⟨⟨h.1.quiet.attempted pin.file, (openSession_mask pin _ d.ram).trans h.1.mask, fun p ↦ ?_,
    fun p hp ↦ ?_⟩, fun p hp ↦ ?_⟩
  · show (d'.read p.file).isSome
    rcases eq_or_ne p pin with rfl | hne
    · rw [hself]
      rfl
    · rw [hread p hne]
      exact h.1.present p
  · rcases eq_or_ne p pin with rfl | hne
    · exact ⟨value, hK, hself, (openSession_self p _ d.ram).2⟩
    · change (d.ram.openSession pin _).hasSession p at hp
      rw [(sameKeys_openSession p hne d.ram).1] at hp
      obtain ⟨x, hx, hverifier, hkey⟩ := h.1.session p hp
      exact ⟨x, hx, (hread p hne).trans hverifier,
        ((sameKeys_openSession p hne d.ram).2).trans hkey⟩
  · show (d.ram.openSession pin _).hasSession p = true
    rcases eq_or_ne p pin with rfl | hne
    · exact (openSession_self p _ d.ram).1
    · rw [(sameKeys_openSession p hne d.ram).1]
      exact h.2 p (hp.resolve_right hne)

theorem wp_forM_init {α : Type} {l : List α} {m : α → HsmProg Unit}
    (hm : ∀ x ∈ l, ∀ d, InitReached C K P d → wp A (m x) (fun _ ↦ InitReached C K P) E d)
    (h : InitReached C K P d) : wp A (l.forM m) (fun _ ↦ InitReached C K P) E d := by
  induction l generalizing d with
  | nil => exact wp_pure h
  | cons x l ih =>
    exact wp_then (hm x (mem_cons_self ..) d h)
      fun _ d' hd' ↦ ih (fun y hy ↦ hm y (mem_cons_of_mem _ hy)) hd'

/-- One item of the loop. -/
theorem wp_initializeItem_init {item : TlvItem} (hK : ∀ p : HsmPin, item.tag = p.tag → K p item.value)
    (h : InitReached C K P d) :
    wp A (initializeItem C item)
      (fun _ ↦ InitReached C K fun p ↦ P p ∨ item.tag = p.tag) E d := by
  -- an item that is no PIN leaves the sessions as they are
  have hother : (∀ p : HsmPin, item.tag ≠ p.tag) → ∀ d', InitReached C K P d' →
      InitReached C K (fun p ↦ P p ∨ item.tag = p.tag) d' := fun htag d' hd' ↦
    ⟨hd'.1, fun p hp ↦ hd'.2 p (hp.resolve_right (htag p))⟩
  have hpin : ∀ pin : HsmPin, item.tag = pin.tag → ∀ d', InitReached C K (fun p ↦ P p ∨ p = pin) d' →
      InitReached C K (fun p ↦ P p ∨ item.tag = p.tag) d' := fun pin htag d' hd' ↦
    ⟨hd'.1, fun p hp ↦ hd'.2 p (hp.imp_right fun h ↦ by
      rw [htag] at h
      cases p <;> cases pin <;> first | rfl | exact absurd h (by decide))⟩
  refine wp_ite (fun h80 ↦ ?_) fun h80 ↦ wp_ite (fun h81 ↦ ?_) fun h81 ↦ wp_ite (fun h82 ↦ ?_)
    fun h82 ↦ ?_
  · exact wp_mono (wp_write_init (by intro p; cases p <;> simp [HsmPin.file]) h)
      (fun _ _ ↦ hother (by intro p; cases p <;> simp [h80, HsmPin.tag]) _) fun _ _ h ↦ h
  · exact wp_mono (wp_initializePin_init (hK .user h81) h) (fun _ _ ↦ hpin .user h81 _) fun _ _ h ↦ h
  · exact wp_mono (wp_initializePin_init (hK .so h82) h) (fun _ _ ↦ hpin .so h82 _) fun _ _ h ↦ h
  · have htag : ∀ p : HsmPin, item.tag ≠ p.tag := by
      intro p
      cases p
      · exact h81
      · exact h82
    refine wp_mono (Q := fun _ ↦ InitReached C K P) (E := E) ?_ (fun _ _ ↦ hother htag _)
      fun _ _ h ↦ h
    refine wp_ite (fun _ ↦ ?_) fun _ ↦ wp_ite (fun _ ↦ ?_) fun _ ↦ wp_ite (fun _ ↦ ?_)
      fun _ ↦ wp_pure h
    · refine wp_then (wp_initializeRetries_init
        (by intro p; cases p <;> simp [HsmPin.file]) h) fun _ d' hd' ↦ ?_
      exact wp_initializeRetries_init (by intro p; cases p <;> simp [HsmPin.file]) hd'
    · exact wp_fileNewEmpty_init (by intro p; cases p <;> simp [HsmPin.file]) h
    · refine wp_then (wp_write_init (by intro p; cases p <;> simp [HsmPin.file]) h)
        fun _ d' hd' ↦ wp_forM_init (fun f hf d'' hd'' ↦ ?_) hd'
      obtain ⟨i, -, rfl⟩ := mem_map.mp hf
      exact wp_fileNewEmpty_init (by intro p; cases p <;> simp [HsmPin.file]) hd''

/-- The loop. -/
theorem wp_initializeItems_init {items : List TlvItem}
    (hK : ∀ item ∈ items, ∀ p : HsmPin, item.tag = p.tag → K p item.value) (h : InitReached C K P d) :
    wp A (items.forM (initializeItem C))
      (fun _ ↦ InitReached C K fun p ↦ P p ∨ ∃ item ∈ items, item.tag = p.tag) E d := by
  induction items generalizing d P with
  | nil => exact wp_pure ⟨h.1, fun p hp ↦ h.2 p (hp.resolve_right (by simp))⟩
  | cons item items ih =>
    refine wp_then (wp_initializeItem_init (hK item (mem_cons_self ..)) h)
      fun _ d' hd' ↦ wp_mono (ih (fun i hi ↦ hK i (mem_cons_of_mem _ hi)) hd') ?_ fun _ _ h ↦ h
    refine fun _ d'' hd'' ↦ ⟨hd''.1, fun p hp ↦ hd''.2 p ?_⟩
    rcases hp with hp | ⟨i, hi, htag⟩
    · exact .inl (.inl hp)
    · rcases mem_cons.mp hi with rfl | hi
      · exact .inl (.inr htag)
      · exact .inr ⟨i, hi, htag⟩

/-- No write is disturbed, and the copies are not masked. -/
def Unmasked (d : HsmDevice) : Prop :=
  AllQuiet d ∧ d.ram.mkekMask = none

theorem wp_scanFile_init {content : Bytes} (h : Unmasked d) :
    wp A (scanFile f content) (fun _ d' ↦ Unmasked d' ∧ (d'.read f).isSome ∧
      ∀ g, (d.read g).isSome → (d'.read g).isSome) E d := by
  refine wp_get (wp_ite (fun hsome ↦ wp_pure ⟨h, hsome, fun _ hg ↦ hg⟩) fun _ ↦
    wp_hsmFilePutDataIgnoring_quiet (h.1 f) ⟨⟨h.1.attempted f, h.2⟩, ?_, fun g hg ↦ ?_⟩)
  · rw [read_written_self]
    rfl
  · rcases eq_or_ne g f with rfl | hne
    · rw [read_written_self]
      rfl
    · rwa [read_written_of_ne hne]

/-- After `scan_files` the verifiers are there. -/
theorem wp_scanFiles_init (h : Unmasked d) :
    wp A scanFiles (fun _ d' ↦ Unmasked d' ∧ ∀ p : HsmPin, (d'.read p.file).isSome) E d := by
  refine wp_then (wp_scanFile_init h) fun _ d₁ h₁ ↦ ?_
  refine wp_then (wp_scanFile_init h₁.1) fun _ d₂ h₂ ↦ ?_
  have hpresent : ∀ p : HsmPin, (d₂.read p.file).isSome := fun p ↦ by
    cases p
    · exact h₂.2.2 _ h₁.2.1
    · exact h₂.2.1
  refine wp_then (wp_scanFile_init h₂.1) fun _ d₃ h₃ ↦ ?_
  refine wp_then (wp_scanFile_init h₃.1) fun _ d₄ h₄ ↦ ?_
  refine wp_then (wp_scanFile_init h₄.1) fun _ d₅ h₅ ↦ ?_
  refine wp_mono (wp_scanFile_init h₅.1) (fun _ d₆ h₆ ↦ ⟨h₆.1, fun p ↦ ?_⟩) fun _ _ h ↦ h
  exact h₆.2.2 _ (h₅.2.2 _ (h₄.2.2 _ (h₃.2.2 _ (hpresent p))))

theorem wp_flashClearFiles_init {files : List HsmFile} (h : Unmasked d) :
    wp A (files.forM hsmFlashClearFile) (fun _ ↦ Unmasked) E d := by
  induction files generalizing d with
  | nil => exact wp_pure h
  | cons f files ih =>
    have hout := (h.1 f).outcome_eq
    exact wp_bind (wp_putIgnoring (fun _ ↦ ih ⟨h.1.attempted f, h.2⟩) (by simp [hout])
      (by simp [hout]))

theorem InitLoop.of_copies {d' : HsmDevice} (h : InitLoop C K d) (hcopies : CopiesStored d d') :
    InitLoop C K d' := by
  have hread : ∀ p : HsmPin, d'.read p.file = d.read p.file := fun p ↦
    hcopies.read _ fun q ↦ file_ne_mkek p q
  obtain ⟨draws, hram⟩ := hcopies.ram
  refine ⟨hcopies.quiet h.quiet, by rw [hram]; exact h.mask, fun p ↦ by
    rw [hread p]; exact h.present p, fun p hp ↦ ?_⟩
  rw [hcopies.hasSession p] at hp
  obtain ⟨value, hK, hverifier, hkey⟩ := h.session p hp
  refine ⟨value, hK, (hread p).trans hverifier, ?_⟩
  rw [hram, ← hkey]
  cases p <;> rfl

/-- **An initialisation** that is not disturbed and is given both PINs puts the master key into
their custody. -/
theorem wp_cmdInitialize {data : Bytes} (hquiet : AllQuiet d) (hmask : d.ram.mkekMask = none)
    (hboth : ∀ p : HsmPin, ∃ item ∈ tlvItems data, item.tag = p.tag) (hdata : data ≠ [])
    (hlock : hsmOption d hsmOptSecureLock = false) :
    wp A (cmdInitialize C data) (fun _ d' ↦ ∃ mkek, InCustody C mkek
      (fun p value ↦ ∃ item ∈ tlvItems data, item.tag = p.tag ∧ item.value = value) d')
      (fun _ _ ↦ False) d := by
  refine wp_get (wp_ite (fun h ↦ absurd h hdata) fun _ ↦
    wp_ite (fun h ↦ absurd h.1 (by simp [hlock])) fun _ ↦ ?_)
  refine wp_then (wp_resultOf_loadMkek hquiet hmask) fun before d₁ hd₁ ↦ ?_
  obtain ⟨hcopies, hbefore⟩ := hd₁
  have hunmasked : Unmasked d₁ := by
    obtain ⟨draws, hram⟩ := hcopies.ram
    exact ⟨hcopies.quiet hquiet, by rw [hram]; exact hmask⟩
  have hwiped : wp A hsmFileInitializeFlash (fun _ ↦ Unmasked) (fun _ _ ↦ False) d₁ :=
    wp_then (wp_flashClearFiles_init hunmasked) fun _ _ h ↦ wp_bind (wp_mono
      (wp_flashClearFiles_init h) (fun _ _ h ↦ wp_modifyRam h) fun _ _ h ↦ h)
  refine wp_then hwiped fun _ d₂ hd₂ ↦ wp_then (wp_scanFiles_init hd₂)
    fun _ d₃ hd₃ ↦ wp_bind (wp_modifyRam (wp_bind (wp_resultOf ?_)))
  -- the loop starts without a session
  have hstart : InitReached C
      (fun p value ↦ ∃ item ∈ tlvItems data, item.tag = p.tag ∧ item.value = value) (fun _ ↦ False)
      (d₃.setRam fun ram ↦
        { ram with hasSessionPin := false, hasSessionSopin := false, mkekMask := none }) :=
    ⟨⟨hd₃.1.1, rfl, hd₃.2, fun p hp ↦ by cases p <;> exact absurd hp Bool.false_ne_true⟩,
      fun _ h ↦ h.elim⟩
  refine wp_mono (wp_initializeItems_init (fun item hitem _ htag ↦ ⟨item, hitem, htag, rfl⟩) hstart)
    (fun _ d₄ hd₄ ↦ ?_) fun _ _ h ↦ h
  obtain ⟨hloop, hsessions⟩ := hd₄
  have hsessions : ∀ p, d₄.ram.hasSession p = true := fun p ↦ hsessions p (.inr (hboth p))
  refine wp_bind (wp_mono (Q := fun r d' ↦ CopiesStored d₄ d' ∧
    ∀ mkek, r = .ok mkek → mkek.length = 48) (E := fun _ _ ↦ False) ?_
    (fun key d₅ hd₅ ↦ wp_bind (wp_resultOf ?_)) fun _ _ h ↦ h)
  · rcases before with r | mkek
    · exact wp_resultOf_loadMkek hloop.quiet hloop.mask
    · exact wp_pure ⟨.refl d₄, fun key hkey ↦ by
        obtain rfl := Except.ok.inj hkey
        exact hbefore _ rfl⟩
  obtain ⟨hcopies₅, hkey⟩ := hd₅
  have hloop₅ := hloop.of_copies hcopies₅
  have hsessions₅ : ∀ p, d₅.ram.hasSession p = true := fun p ↦
    (hcopies₅.hasSession p).trans (hsessions p)
  choose values hK hverifier hsession using fun p ↦ hloop₅.session p (hsessions₅ p)
  have hready : MkekStored C (key.toOption.getD (C.randomMkek d₅.ram.draws))
      (fun p ↦ pinKey C (pinVerifier C (values p)) (values p))
      (fun p ↦ pinVerifier C (values p)) (fun p ↦ d₅.ram.hasSession p = true) d₅ :=
    ⟨fun p hp ↦ absurd (hsessions₅ p) hp, fun p ↦ by rw [fileData, hverifier p]; rfl,
      fun p _ ↦ by rw [pinKey_pinVerifier, hsession p], hloop₅.mask,
      fun p ↦ ⟨hloop₅.quiet _, hloop₅.quiet _⟩⟩
  have hlen : (key.toOption.getD (C.randomMkek d₅.ram.draws)).length = 48 := by
    rcases key with r | mkek
    · exact C.length_randomMkek _
    · exact hkey mkek rfl
  refine wp_mono (wp_storeMkek rfl hlen hready) (fun _ d₆ hd₆ ↦ ?_) ?_
  · have hcustody := hd₆.custody (fun p ↦ pinMatches_pinVerifier C (values p)) hlen
    exact wp_bind (wp_modifyRam (wp_pure ⟨_, values, hcustody.of_same
      (.setRam d₆ (fun _ hp ↦ ⟨hp, rfl⟩) rfl), hd₆.quiet, hK⟩))
  · rintro e d₆ ⟨rfl, hnone⟩
    exact absurd ((hsessions₅ .user).symm.trans (hnone .user)) (by simp)

end Init

/-! ### Runs -/

/-- An event gives a value of a PIN, the present one or a new one. -/
def HsmPinEvent.Gives (C : HsmPinCrypto) (d : HsmDevice) (p : HsmPin) (value : Bytes) :
    HsmPinEvent → Prop
  | command c _ => c.Gives C d p value
  | _ => False

/-- No write of a verifier or of a copy of the master key fails, and none is lost. An initialisation
is not disturbed at all, and is given both PINs. -/
def HsmPinEvent.KeepsCustody (d : HsmDevice) : HsmPinEvent → Prop
  | command (.initializeHsm data) faults => data = [] ∨
      (∀ f, ∀ o ∈ faults f, o = .ok) ∧ ∀ p : HsmPin, ∃ item ∈ tlvItems data, item.tag = p.tag
  | command _ faults => ∀ p : HsmPin, (∀ o ∈ faults p.file, o = .ok) ∧ ∀ o ∈ faults p.mkek, o = .ok
  | flush _ => True
  | reboot keep _ => ∀ f : HsmFile, f.IsCustody → (d.files.powerCut keep).view f = d.files.view f

/-- In a run no write of a verifier or of a copy of the master key fails or is lost. -/
def HsmCustodyRun (C : HsmPinCrypto) : HsmDevice → List HsmPinEvent → Prop
  | _, [] => True
  | d, event :: events => event.KeepsCustody d ∧ HsmCustodyRun C (event.step C d) events

/-- Custody in every state of a run. From each state to the next a value that is accepted is the old one
or given by the event, and the master key is the same unless the event is an initialisation. -/
def CustodyAlong (C : HsmPinCrypto) : Bytes → (HsmPin → Bytes) → HsmDevice → List HsmPinEvent → Prop
  | mkek, values, d, [] => MkekCustody C mkek values d
  | mkek, values, d, event :: events => MkekCustody C mkek values d ∧ ∃ mkek' values',
      (∀ p, values' p = values p ∨ event.Gives C d p (values' p)) ∧
      (event.IsPinEvent → mkek' = mkek) ∧ CustodyAlong C mkek' values' (event.step C d) events

theorem MkekCustody.setOff (h : MkekCustody C mkek values d) :
    MkekCustody C mkek values (d.setRam fun ram ↦ { ram with off := true }) :=
  h.of_same (.setRam d (fun _ hp ↦ ⟨hp, rfl⟩) rfl)

theorem runHsm_custody {α : Type} {m : HsmProg α} {K : HsmPin → Bytes → Prop}
    (h : wp (fun _ ↦ True) m (fun _ ↦ InCustody C mkek K) (fun _ ↦ InCustody C mkek K) d) :
    InCustody C mkek K (runHsm m d) :=
  runHsm_of_wp_off (fun _ ⟨values, hcustody, hquiet, hK⟩ ↦ ⟨values, hcustody.setOff, hquiet, hK⟩) h

/-- A command that is no initialisation. -/
theorem MkekCustody.command (hC : C.Ideal) (h : MkekCustody C mkek values d) {c : HsmPinCommand}
    {faults : HsmFile → List Outcome} (hc : ∀ data, c ≠ .initializeHsm data)
    (hquiet : CustodyQuiet { d with faults := faults }) :
    ∃ values', MkekCustody C mkek values' (runHsm (c.run C) { d with faults := faults }) ∧
      ∀ p, values' p = values p ∨ c.Gives C { d with faults := faults } p (values' p) := by
  have hin : InCustody C mkek
      (fun p x ↦ x = values p ∨ c.Gives C { d with faults := faults } p x) { d with faults := faults } :=
    ⟨values, ⟨h.accepts, h.opens, h.session, h.mask, h.length⟩, hquiet, fun _ ↦ .inl rfl⟩
  obtain ⟨values', hcustody, -, hvalues⟩ := runHsm_custody
    (wp_run_custody hC hc hin fun _ _ hgives ↦ .inr hgives)
  exact ⟨values', hcustody, hvalues⟩

theorem MkekCustody.hsmFileHasData (h : MkekCustody C mkek values d) (p : HsmPin) :
    (d.read p.file).isSome := by
  rcases hread : d.read p.file with - | content
  · have haccepts := h.accepts p
    rw [fileData, hread] at haccepts
    exact absurd haccepts (by simp [pinMatches])
  · rfl

/-- `scan_files` finds the verifiers. -/
theorem MkekCustody.scanFiles (h : MkekCustody C mkek values d) :
    MkekCustody C mkek values (runHsm scanFiles d) := by
  have hpin : ∀ (p : HsmPin) content, Preserves (MkekCustody C mkek values)
      (scanFile p.file content) := fun p content ↦
    .bind .getState fun d' hd' ↦ .ite (fun _ ↦ .pure trivial) fun hnone ↦
      absurd (hd'.hsmFileHasData p) hnone
  have hother : ∀ (f : HsmFile) content, ¬f.IsCustody →
      Preserves (MkekCustody C mkek values) (scanFile f content) := fun f content hf ↦
    .get fun _ ↦ .ite (fun _ ↦ .pure trivial) fun _ _ d' hd' ↦
      wp_putIgnoring (fun _ ↦ ⟨hd'.of_same (SameKeys.written d' hf _).toSameCustody, trivial⟩)
        (fun _ ↦ ⟨hd'.of_same (SameKeys.attempted d' f).toSameCustody, trivial⟩)
        fun _ ↦ hd'.of_same (SameKeys.attempted d' f).toSameCustody
  have hmax : ∀ pin : HsmPin, ¬pin.maxRetries.IsCustody := by
    rintro pin ⟨p, h⟩
    cases pin <;> cases p <;> simp [HsmPin.file, HsmPin.maxRetries, HsmPin.mkek] at h
  have hkeeps : Preserves (MkekCustody C mkek values) PicoAll.scanFiles := by
    refine .bind (hpin .user _) fun _ _ ↦ .bind (hpin .so _) fun _ _ ↦ ?_
    refine .bind (hother _ _ (not_isCustody_retries .user)) fun _ _ ↦ ?_
    refine .bind (hother _ _ (not_isCustody_retries .so)) fun _ _ ↦ ?_
    exact .bind (hother _ _ (hmax .user)) fun _ _ ↦ hother _ _ (hmax .so)
  exact runHsm_of_wp_off (fun _ ↦ MkekCustody.setOff)
    (wp_mono (hkeeps _ d h) (fun _ _ h ↦ h.1) fun _ _ h ↦ h)

/-- An initialisation, from any state without a mask: it is refused, or gives the custody of a master
key to what it is given. -/
theorem runHsm_cmdInitialize (hquiet : AllQuiet d) (hmask : d.ram.mkekMask = none)
    (hboth : ∀ p : HsmPin, ∃ item ∈ tlvItems data, item.tag = p.tag) (hdata : data ≠ [])
    (hlock : hsmOption d hsmOptSecureLock = false) :
    ∃ mkek values, MkekCustody C mkek values (runHsm (cmdInitialize C data) d) ∧
      ∀ p, (HsmPinCommand.initializeHsm data).Sets C d p (values p) := by
  obtain ⟨-, mkek, values, hcustody, -, hvalues⟩ := runHsm_of_wp_ok
    (wp_cmdInitialize (C := C) hquiet hmask hboth hdata hlock)
  exact ⟨mkek, values, hcustody, hvalues⟩

theorem runHsm_cmdInitialize_refused (hmask : d.ram.mkekMask = none)
    (hrefused : data = [] ∨ hsmOption d hsmOptSecureLock = true) :
    runHsm (cmdInitialize C data) d = d := by
  have hwp : wp (fun _ ↦ True) (cmdInitialize C data) (fun _ d' ↦ d' = d) (fun _ _ ↦ False) d :=
    wp_get (wp_return rfl fun hdata ↦ wp_return rfl
      fun h ↦ absurd ⟨hrefused.resolve_left hdata, hmask⟩ h)
  obtain ⟨-, heq⟩ := runHsm_of_wp_ok hwp
  exact heq

/-- One event keeps the custody. -/
theorem MkekCustody.step (hC : C.Ideal) (h : MkekCustody C mkek values d) {event : HsmPinEvent}
    (hkept : event.KeepsCustody d) :
    ∃ mkek' values', MkekCustody C mkek' values' (event.step C d) ∧
      (∀ p, values' p = values p ∨ event.Gives C d p (values' p)) ∧
      (event.IsPinEvent → mkek' = mkek) := by
  cases event with
  | command c faults =>
    rw [HsmPinEvent.step]
    split
    · exact ⟨mkek, values, h, fun _ ↦ .inl rfl, fun _ ↦ rfl⟩
    by_cases hc : ∃ data, c = .initializeHsm data
    · obtain ⟨data, rfl⟩ := hc
      have hd : MkekCustody C mkek values { d with faults := faults } :=
        ⟨h.accepts, h.opens, h.session, h.mask, h.length⟩
      by_cases hrefused : data = [] ∨ hsmOption { d with faults := faults } hsmOptSecureLock = true
      · refine ⟨mkek, values, ?_, fun _ ↦ .inl rfl, fun _ ↦ rfl⟩
        show MkekCustody C mkek values (runHsm (cmdInitialize C data) _)
        rw [runHsm_cmdInitialize_refused hd.mask hrefused]
        exact hd
      · rw [not_or, Bool.not_eq_true] at hrefused
        obtain ⟨hquiet, hboth⟩ := hkept.resolve_left hrefused.1
        obtain ⟨mkek', values', hcustody, hvalues⟩ :=
          runHsm_cmdInitialize (C := C) (d := { d with faults := faults }) hquiet hd.mask hboth
            hrefused.1 hrefused.2
        exact ⟨mkek', values', hcustody, fun p ↦ .inr (.inr (hvalues p)), fun hpin ↦ hpin.elim⟩
    · have hc' : ∀ data, c ≠ .initializeHsm data := fun data hdata ↦ hc ⟨data, hdata⟩
      have hquiet : CustodyQuiet { d with faults := faults } := by
        cases c with
        | initializeHsm data => exact absurd rfl (hc' data)
        | verify _ _ _ => exact hkept
        | changePin _ _ _ => exact hkept
        | resetRetry _ _ _ => exact hkept
      obtain ⟨values', hcustody, hvalues⟩ := h.command hC hc' hquiet
      exact ⟨mkek, values', hcustody, hvalues, fun _ ↦ rfl⟩
  | flush f =>
    rw [HsmPinEvent.step]
    split
    · exact ⟨mkek, values, h, fun _ ↦ .inl rfl, fun _ ↦ rfl⟩
    · exact ⟨mkek, values, ⟨h.accepts, h.opens, h.session, h.mask, h.length⟩, fun _ ↦ .inl rfl,
        fun _ ↦ rfl⟩
  | reboot keep faults =>
    refine ⟨mkek, values, MkekCustody.scanFiles (h.of_same ⟨fun f hf ↦ ?_, fun p hp ↦ ?_,
      fun _ ↦ rfl⟩), fun _ ↦ .inl rfl, fun _ ↦ rfl⟩
    · exact congrArg (Option.getD · []) (hkept f hf)
    · cases p <;> exact absurd hp Bool.false_ne_true

/-- The custody along a run. -/
theorem MkekCustody.run (hC : C.Ideal) (h : MkekCustody C mkek values d)
    {events : List HsmPinEvent} (hkept : HsmCustodyRun C d events) :
    CustodyAlong C mkek values d events := by
  induction events generalizing d mkek values with
  | nil => exact h
  | cons event events ih =>
    obtain ⟨mkek', values', h', hvalues, hmkek⟩ := h.step hC hkept.1
    exact ⟨h, mkek', values', hvalues, hmkek, ih h' hkept.2⟩

end PicoAll
