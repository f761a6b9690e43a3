import PicoAll.Hsm.KeyCounterBound

/-!
# Keys derived from EC keys

What `cmd_derive_asym.c` computes and stores. A tweak of any length is added to a private key, and
`MOD_ADD` takes the prime of the field off the sum until it is below it. What is left is stored, whether
it is a private key of the curve or not.

The keys of the curve are counted modulo the order `n` of the base point, not modulo the prime `p`. The
two agree on a sum exactly if it is below both once it is reduced modulo their product.
-/

namespace PicoAll

open FaultProgram BigEndian Nat List Option

/-! ### The functions of the source -/

/-- A group of a Weierstrass curve: the prime of the field and the order of the base point. The largest
of the supported ones has 521 bits. -/
structure EcGroup where
  p : ℕ
  n : ℕ
  p_pos : 0 < p
  one_lt_n : 1 < n
  size_le : Nat.size n ≤ 528
  coprime : Nat.Coprime n p

/-- The length of a private key. -/
def EcGroup.scalarLen (grp : EcGroup) : ℕ :=
  (Nat.size grp.n + 7) / 8

def modAdd (grp : EcGroup) (x : ℕ) : ℕ :=
  if grp.p ≤ x then modAdd grp (x - grp.p) else x
termination_by x
decreasing_by
  have := grp.p_pos
  omega

/-- The calls for which there is memory. -/
structure MpiMemory where
  readBinary : Bool
  addMod : Bool
  copy : Bool

/-- `load_private_key_ec`, after the record has been opened. `mbedtls_ecp_read_key` refuses what is not
a private key of the curve. -/
def loadPrivateKeyEc (groups : UInt8 → Option EcGroup) (key : Bytes) :
    Except UInt16 (EcGroup × ℕ) :=
  if key.length < 2 ∨ 67 < key.length then .error swExecError
  else
    match groups (key.headD 0) with
    | none => .error swExecError
    | some grp =>
      if 0 < beNat key.tail ∧ beNat key.tail < grp.n then .ok (grp, beNat key.tail)
      else .error swExecError

/-- What `hsm_store_keys` makes of an EC key. The error of `mbedtls_ecp_write_key_ext`, when the number
is too long, is not looked at: the buffer stays zero. -/
def ecKeyData (grp : EcGroup) (gid : UInt8) (d : ℕ) : Bytes :=
  gid :: beBytes grp.scalarLen (if d < 256 ^ grp.scalarLen then d else 0)

/-- The key that `cmd_derive_asym` derives. -/
def deriveKey (groups : UInt8 → Option EcGroup) (memory : MpiMemory) (key tweak : Bytes) :
    Except UInt16 Bytes :=
  match loadPrivateKeyEc groups key with
  | .error r => .error r
  | .ok (grp, d) =>
    if !memory.readBinary then .error swDataInvalid
    else if !memory.addMod || !memory.copy then .error swExecError
    else .ok (ecKeyData grp (key.headD 0) (modAdd grp (d + beNat tweak)))

/-! ### What is asked of it -/

/-- A private key of a curve. -/
structure EcPrivateKey where
  grp : EcGroup
  d : ℕ
  pos : 0 < d
  lt : d < grp.n

/-- What `hsm_store_keys` has made of it. -/
def EcPrivateKey.data (key : EcPrivateKey) (gid : UInt8) : Bytes :=
  ecKeyData key.grp gid key.d

/-- The private key that is stored under an id. -/
def storedKey (C : KeyCrypto) (dev : KeyDevice) (id : UInt8) : Option Bytes := do
  let f ← hsmKeySearch dev id
  if isKeyMarker id (dev.read f) then dev.read (.privateKey id)
  else (dev.read f).bind C.openRecord

/-- A key is in the files of an id. -/
def HoldsKey (C : KeyCrypto) (id : UInt8) (key : Bytes) (dev : KeyDevice) : Prop :=
  dev.read (.privateKey id) = some key ∨
    ∃ f, (f = .legacy id ∨ f = .object id) ∧ dev.read f = some (C.sealRecord key)

/-- **The sum of a key and a tweak**, as a private key of the same curve: its public key is the sum of
the public key and a multiple of the base point. -/
structure DerivedKey (key : EcPrivateKey) (a : ℕ) (derived : EcPrivateKey) : Prop where
  grp : derived.grp = key.grp
  modEq : derived.d ≡ key.d + a [MOD key.grp.n]
  publicKey : ∀ (E : Type) [AddCommGroup E] (G : E), key.grp.n • G = 0 →
    derived.d • G = key.d • G + a • G

/-- The command does with a key and a tweak what it should, on every device that has the key: if it
succeeds, the sum is stored, and a sum that is zero is refused, and nothing is stored then. -/
def DeriveMeets (key : EcPrivateKey) (tweak : Bytes) : Prop :=
  ∀ (groups : UInt8 → Option EcGroup) (memory : MpiMemory) (C : KeyCrypto) (dev : KeyDevice)
    (gid id dest : UInt8) (touched : Bool) (os : List Outcome),
    groups gid = some key.grp → C.derive = deriveKey groups memory →
      storedKey C dev id = some (key.data gid) →
        let command := cmdDeriveAsym C id dest (algoEcDerive :: tweak) touched
        (command.result dev os = .ok [] → ∃ derived, DerivedKey key (beNat tweak) derived ∧
          HoldsKey C dest (derived.data gid) (command.final dev os)) ∧
        (key.grp.n ∣ key.d + beNat tweak → command.result dev os ≠ .ok [] ∧
          ∀ f ∈ [KeyFile.privateKey dest, .legacy dest, .object dest],
            (command.final dev os).read f = dev.read f)

/-- The sum, reduced modulo the order and the prime together, is not zero and below both. -/
def SumInRange (key : EcPrivateKey) (a : ℕ) : Prop :=
  0 < (key.d + a) % (key.grp.n * key.grp.p) ∧
    (key.d + a) % (key.grp.n * key.grp.p) < min key.grp.n key.grp.p

/-! ### The sum -/

variable {grp : EcGroup} {key derived : EcPrivateKey} {groups : UInt8 → Option EcGroup}
  {memory : MpiMemory} {C : KeyCrypto} {dev : KeyDevice} {gid id dest : UInt8} {tweak : Bytes}
  {a : ℕ}

/-- **The loop ends**, and with a remainder. -/
theorem modAdd_eq (grp : EcGroup) (x : ℕ) : modAdd grp x = x % grp.p := by
  induction x using modAdd.induct grp with
  | case1 x hle ih => rw [modAdd, if_pos hle, ih, ← mod_eq_sub_mod hle]
  | case2 x hlt => rw [modAdd, if_neg hlt, Nat.mod_eq_of_lt (not_le.mp hlt)]

theorem EcGroup.n_lt_scalar (grp : EcGroup) : grp.n < 256 ^ grp.scalarLen := by
  have hle : Nat.size grp.n ≤ 8 * grp.scalarLen := by
    rw [EcGroup.scalarLen]
    omega
  calc grp.n < 2 ^ Nat.size grp.n := Nat.lt_size_self _
    _ ≤ 2 ^ (8 * grp.scalarLen) := Nat.pow_le_pow_right two_pos hle
    _ = 256 ^ grp.scalarLen := pow_mul 2 8 _

theorem EcPrivateKey.data_eq (key : EcPrivateKey) (gid : UInt8) :
    key.data gid = gid :: beBytes key.grp.scalarLen key.d := by
  rw [EcPrivateKey.data, ecKeyData, if_pos (key.lt.trans key.grp.n_lt_scalar)]

/-- A key that has been stored is loaded. -/
theorem EcPrivateKey.loadPrivateKeyEc (hgroup : groups gid = some key.grp) :
    loadPrivateKeyEc groups (key.data gid) = .ok (key.grp, key.d) := by
  have hpos : 0 < Nat.size key.grp.n := size_pos.mpr (by have := key.grp.one_lt_n; omega)
  have hsize := key.grp.size_le
  have hscalar : beNat (beBytes key.grp.scalarLen key.d) = key.d :=
    beNat_beBytes (key.lt.trans key.grp.n_lt_scalar)
  rw [PicoAll.loadPrivateKeyEc, key.data_eq, if_neg]
  · simp only [headD_cons, tail_cons, hgroup, hscalar, key.pos, key.lt, and_self, if_true]
  · rw [length_cons, length_beBytes, EcGroup.scalarLen]
    omega

/-- Multiples of the base point are counted modulo its order. -/
theorem DerivedKey.of_modEq (hgrp : derived.grp = key.grp)
    (h : derived.d ≡ key.d + a [MOD key.grp.n]) : DerivedKey key a derived where
  grp := hgrp
  modEq := h
  publicKey E _ G hG := by
    rw [← add_nsmul]
    exact nsmul_eq_nsmul_iff_modEq.mpr (h.of_dvd (addOrderOf_dvd_of_nsmul_eq_zero hG))

/-- **What the command stores is the sum** exactly if that is in the range. -/
theorem derivedKey_iff : (∃ derived, DerivedKey key a derived ∧
    derived.data gid = ecKeyData key.grp gid ((key.d + a) % key.grp.p)) ↔ SumInRange key a := by
  have hscalar := key.grp.n_lt_scalar
  constructor
  · rintro ⟨derived, ⟨hgrp, hmod, -⟩, hdata⟩
    have hlt := derived.lt
    have hpos := derived.pos
    rw [hgrp] at hlt
    rw [derived.data_eq, ecKeyData, hgrp] at hdata
    have hd := congrArg beNat (List.cons.inj hdata).2
    rw [beNat_beBytes (hlt.trans hscalar), beNat_beBytes (by split_ifs <;> omega)] at hd
    split_ifs at hd with hfits
    · have hp : derived.d ≡ key.d + a [MOD key.grp.p] := hd ▸ mod_modEq _ _
      have hboth := (Nat.modEq_and_modEq_iff_modEq_mul key.grp.coprime).mp ⟨hmod, hp⟩
      have hmul : derived.d < key.grp.n * key.grp.p :=
        hlt.trans_le (Nat.le_mul_of_pos_right _ key.grp.p_pos)
      rw [SumInRange, ← hboth, Nat.mod_eq_of_lt hmul]
      exact ⟨hpos, lt_min hlt (hd ▸ Nat.mod_lt _ key.grp.p_pos)⟩
    · omega
  · rintro ⟨hpos, hlt⟩
    obtain ⟨hltn, hltp⟩ := lt_min_iff.mp hlt
    have hsum : (key.d + a) % key.grp.p = (key.d + a) % (key.grp.n * key.grp.p) := by
      rw [← Nat.mod_eq_of_lt hltp, mod_mod_of_dvd _ (Dvd.intro_left _ rfl)]
    refine ⟨⟨key.grp, _, hpos, hltn⟩, .of_modEq rfl ((mod_modEq _ _).of_mul_right _), ?_⟩
    rw [hsum]
    rfl

/-! ### The command -/

section Command

variable {A : Outcome → Prop} {f : KeyFile} {k : Bytes}

def IsKeyFile (f : KeyFile) : Prop :=
  ∃ id, f = .privateKey id ∨ f = .legacy id ∨ f = .object id

theorem HoldsKey.written (h : HoldsKey C dest k dev) (hf : ¬ IsKeyFile f) (content : Option Bytes) :
    HoldsKey C dest k (dev.written f content) := by
  rcases h with h | ⟨g, hg, h⟩
  · refine .inl ((Device.read_written_of_ne ?_).trans h)
    rintro rfl
    exact hf ⟨dest, .inl rfl⟩
  · refine .inr ⟨g, hg, (Device.read_written_of_ne ?_).trans h⟩
    rintro rfl
    exact hf ⟨dest, .inr hg⟩

theorem HoldsKey.keeps_put (hf : ¬ IsKeyFile f) {content : Option Bytes} {err : UInt16} :
    Preserves (HoldsKey C dest k) (put err f content) :=
  .put (fun _ h ↦ h) fun _ h ↦ h.written hf content

theorem HoldsKey.keeps_decrementKeyCounter :
    Preserves (HoldsKey C dest k) (decrementKeyCounter id) := by
  have hcontainer (data : Bytes) :
      Preserves (HoldsKey C dest k) (containerPut (.metadata id) data) := by
    refine .get fun d ↦ .ite (fun _ ↦ .bind (HoldsKey.keeps_put ?_) fun _ _ ↦ ?_) fun _ ↦ .fail _
    · rintro ⟨_, h | h | h⟩ <;> cases h
    · exact fun _ _ h ↦ wp_sync (fun _ ↦ ⟨h, trivial⟩) (fun _ ↦ h) (fun _ ↦ h) fun _ ↦ h
  have hmeta (data : Bytes) : Preserves (HoldsKey C dest k) (keyMetaAdd id data) := by
    refine .get fun d ↦ ?_
    rcases d.read .fileMeta with - | content
    · exact .fail _
    · refine .ite (fun _ ↦ .fail _) fun _ ↦ HoldsKey.keeps_put ?_
      rintro ⟨_, h | h | h⟩ <;> cases h
  refine .get fun d ↦ ?_
  rcases keyCounterItem d id with - | ⟨metadata, item⟩
  · exact .pure trivial
  · exact .onError (.bind (.ite (fun _ ↦ hcontainer _) fun _ ↦ hmeta _) fun _ _ ↦ .pure trivial)
      fun _ ↦ .pure trivial

/-- What has been put into a container stays there while other files are written. -/
theorem wp_containerPut {data : Bytes} {I : KeyDevice → Prop}
    (hwritten : I (dev.written f (some data))) (hsynced : ∀ d, I d → I (d.synced f)) :
    wp A (containerPut f data) (fun _ d' ↦ I d') (fun _ _ ↦ True) dev := by
  refine wp_get (wp_ite (fun _ ↦ wp_bind (wp_put (fun _ ↦ ?_) (fun _ ↦ trivial)
    (fun _ ↦ trivial) fun _ ↦ trivial)) fun _ ↦ wp_fail trivial)
  exact wp_sync (fun _ ↦ hsynced _ hwritten) (fun _ ↦ trivial) (fun _ ↦ trivial) fun _ ↦ trivial

theorem hsmKeyOpenOrCreate_eq_some (h : hsmKeyOpenOrCreate dev id = some f) :
    f = .legacy id ∨ f = .object id := by
  rw [hsmKeyOpenOrCreate] at h
  split_ifs at h <;> cases h <;> simp

/-- **A key that is stored without an error is there.** -/
theorem wp_hsmStoreKeys : wp A (hsmStoreKeys C k dest) (fun _ d' ↦ HoldsKey C dest k d')
    (fun _ _ ↦ True) dev := by
  refine wp_get (wp_refuse trivial fun _ ↦ wp_ite (fun _ ↦ ?_) fun _ ↦ ?_)
  · let I : KeyDevice → Prop := fun d ↦ d.read (.privateKey dest) = some k
    refine wp_then (wp_containerPut (I := I) (Device.read_written_self ..) fun _ h ↦ h)
      fun _ d₁ h₁ ↦ wp_return (.inl h₁) fun _ ↦ ?_
    exact wp_mono (wp_containerPut (I := I) ((Device.read_written_of_ne (by simp)).trans h₁) fun _ h ↦ h)
      (fun _ _ h ↦ .inl h) fun _ _ h ↦ h
  · rcases hopen : hsmKeyOpenOrCreate dev dest with - | f
    · exact wp_fail trivial
    · refine wp_bind (wp_get (wp_ite (fun _ ↦ wp_put (fun _ ↦ ?_) (fun _ ↦ trivial)
        (fun _ ↦ trivial) fun _ ↦ trivial) fun _ ↦ wp_fail trivial))
      have hheld : HoldsKey C dest k (dev.written f (some (C.sealRecord k))) :=
        .inr ⟨f, hsmKeyOpenOrCreate_eq_some hopen, Device.read_written_self ..⟩
      refine wp_put (fun _ ↦ hheld.written ?_ _) (fun _ ↦ trivial) (fun _ ↦ trivial) fun _ ↦ trivial
      rintro ⟨_, h | h | h⟩ <;> cases h

/-- What is loaded is what is stored. -/
theorem wp_mkekLoadKeyFile (hf : hsmKeySearch dev id = some f) (hk : storedKey C dev id = some k) :
    wp A (mkekLoadKeyFile C id f) (fun k' _ ↦ k' = k) (fun _ _ ↦ True) dev := by
  rw [storedKey, hf] at hk
  simp only [bind_eq_bind, bind_some] at hk
  refine wp_get (wp_ite (fun hmarker ↦ ?_) fun hmarker ↦ wp_refuse trivial fun _ ↦ wp_get ?_)
  · rw [if_pos hmarker] at hk
    rw [hk]
    split_ifs
    · exact wp_pure rfl
    · exact wp_fail trivial
  · rw [if_neg hmarker] at hk
    obtain ⟨record, hrecord, hopen⟩ := bind_eq_some_iff.mp hk
    rw [hrecord]
    dsimp only
    rw [hopen]
    rcases dev.ram.hasSession with - | -
    · exact wp_fail trivial
    · have hstore : Preserves (fun _ ↦ True) (mkekStoreFile C f k) :=
        .get fun _ ↦ .ite (fun _ ↦ .put (fun _ _ ↦ trivial) fun _ _ ↦ trivial) fun _ ↦ .fail _
      refine wp_bind (wp_return (wp_pure rfl) fun _ ↦ ?_)
      exact wp_mono (hstore A dev trivial) (fun _ _ _ ↦ wp_pure rfl) fun _ _ h ↦ h

/-- **What a command that succeeds stores.** -/
theorem wp_cmdDeriveAsym {touched : Bool} (hk : storedKey C dev id = some k) :
    wp A (cmdDeriveAsym C id dest (algoEcDerive :: tweak) touched)
      (fun _ d' ↦ ∃ derived, C.derive k tweak = .ok derived ∧ HoldsKey C dest derived d')
      (fun _ _ ↦ True) dev := by
  refine wp_get (wp_bind (wp_requireSw (fun _ ↦ ?_) trivial))
  refine wp_lift (fun f hf ↦ ?_) fun _ _ ↦ trivial
  have hsearch := (usableKey_eq_ok hf).1
  refine wp_bind (wp_bind (wp_requireSw (fun _ ↦ wp_bind (wp_requireSw (fun _ ↦
    wp_bind (wp_requireSw (fun _ ↦ ?_) trivial)) trivial)) trivial))
  refine wp_seq (wp_mkekLoadKeyFile hsearch hk) (fun k' d₁ hk' ↦ ?_) fun _ _ _ ↦ trivial
  subst hk'
  refine wp_lift (fun derived hderived ↦ ?_) fun _ _ ↦ trivial
  refine wp_seq wp_hsmStoreKeys (fun _ d₂ hheld ↦ wp_pure ?_) fun _ _ _ ↦ trivial
  refine wp_seq (HoldsKey.keeps_decrementKeyCounter A d₂ hheld) (fun _ d₃ h₃ ↦ ?_)
    fun _ _ _ ↦ trivial
  exact wp_pure ⟨derived, hderived, h₃.1⟩

end Command

/-! ### When the command does what it should -/

theorem deriveKey_data (hgroup : groups gid = some key.grp)
    (hok : deriveKey groups memory (key.data gid) tweak = .ok k) :
    k = ecKeyData key.grp gid ((key.d + beNat tweak) % key.grp.p) := by
  rw [deriveKey, key.loadPrivateKeyEc hgroup, key.data_eq] at hok
  simp only [modAdd_eq] at hok
  split_ifs at hok
  exact (Except.ok.inj hok).symm

/-- A cryptography with the derivation of the source. -/
def derivingCrypto (groups : UInt8 → Option EcGroup) : KeyCrypto :=
  { openKeyCrypto with
    openRecord := fun record ↦ some (record.drop 9)
    sealRecord := fun key ↦ List.replicate 9 0 ++ key
    derive := deriveKey groups ⟨true, true, true⟩
    sealRecord_length := by simp }

/-- A device with a key, of which nothing is asked. -/
def derivingDevice (key : Bytes) : KeyDevice where
  files := ⟨fun f ↦ if f = .legacy 1 then some (List.replicate 9 0 ++ key) else none, fun _ ↦ []⟩
  faults _ := []
  ram := ⟨true, true, 0, false⟩

/-- The device stores what is derived, and nothing else. -/
theorem derivingDevice_exec {k' : Bytes}
    (hok : deriveKey groups ⟨true, true, true⟩ k tweak = .ok k') :
    ∃ d', (cmdDeriveAsym (derivingCrypto groups) 1 2 (algoEcDerive :: tweak) true).exec
        (derivingDevice k) [] = (.ok [], ⟨d', []⟩) ∧
      d'.read (.privateKey 2) = some k' ∧ d'.read (.legacy 2) = none ∧
      d'.read (.object 2) = some (containerMarker [0x50, 0x4b, 0x48, 0x31] 2) := by
  have hrun : (cmdDeriveAsym (derivingCrypto groups) 1 2 (algoEcDerive :: tweak) true).exec
      (derivingDevice k) [] = (counted 1 do
        let derived ← FaultProgram.liftExcept (deriveKey groups ⟨true, true, true⟩ k tweak)
        hsmStoreKeys (derivingCrypto groups) derived 2
        return []).exec (derivingDevice k) [] := rfl
  rw [hrun, hok]
  exact ⟨_, rfl, rfl, rfl, rfl⟩

theorem DeriveMeets.sumInRange (hmeets : DeriveMeets key tweak) : SumInRange key (beNat tweak) := by
  have hok : deriveKey (fun _ ↦ some key.grp) ⟨true, true, true⟩ (key.data 0) tweak =
      .ok (ecKeyData key.grp 0 ((key.d + beNat tweak) % key.grp.p)) := by
    rw [deriveKey, key.loadPrivateKeyEc rfl, key.data_eq]
    simp only [modAdd_eq]
    rfl
  obtain ⟨d', hexec, hprivate, hlegacy, hobject⟩ := derivingDevice_exec hok
  obtain ⟨derived, hderived, hheld⟩ := (hmeets _ _ _ (derivingDevice (key.data 0)) 0 1 2 true [] rfl
    rfl rfl).1 (congrArg Prod.fst hexec)
  have hfinal := congrArg (fun run ↦ run.2.state) hexec
  rw [Prog.final, hfinal] at hheld
  suffices hdata : derived.data 0 = ecKeyData key.grp 0 ((key.d + beNat tweak) % key.grp.p) from
    derivedKey_iff.mp ⟨derived, hderived, hdata⟩
  rcases hheld with h | ⟨f, rfl | rfl, h⟩
  · rw [hprivate] at h
    exact (Option.some.inj h).symm
  · rw [hlegacy] at h
    cases h
  · rw [hobject] at h
    exact absurd (head_eq_of_cons_eq (Option.some.inj h)) (by decide)

/-- **The command does what it should exactly if the sum is in the range.** -/
theorem derive_asym_meets_iff (key : EcPrivateKey) (tweak : Bytes) :
    DeriveMeets key tweak ↔ SumInRange key (beNat tweak) := by
  refine ⟨DeriveMeets.sumInRange, fun hrange groups memory C dev gid id dest touched os hgroup hC
    hstored ↦ ⟨fun hok ↦ ?_, fun hzero ↦ ?_⟩⟩
  · obtain ⟨k, hk, hheld⟩ := final_of_result_ok (wp_cmdDeriveAsym hstored) hok
    rw [hC] at hk
    obtain ⟨derived, hderived, hdata⟩ := derivedKey_iff.mpr hrange
    refine ⟨derived, hderived, ?_⟩
    rw [hdata, ← deriveKey_data hgroup hk]
    exact hheld
  · have hdvd := (dvd_mod_iff (Dvd.intro key.grp.p rfl)).mpr hzero
    exact absurd (le_of_dvd hrange.1 hdvd) (not_le.mpr (lt_min_iff.mp hrange.2).1)

/-! A sum that is the order of the group -/

def secp256r1 : EcGroup where
  p := 0xffffffff00000001000000000000000000000000ffffffffffffffffffffffff
  n := 0xffffffff00000000ffffffffffffffffbce6faada7179e84f3b9cac2fc632551
  p_pos := by decide
  one_lt_n := by decide
  size_le := Nat.size_le.mpr (by decide +kernel)
  coprime := by decide +kernel

/-- The private key one. -/
def unitKey : EcPrivateKey :=
  ⟨secp256r1, 1, by decide, by decide⟩

/-- With a tweak that is one less than the order, zero is stored as the order itself. -/
theorem derive_asym_zero_stored :
    ¬ DeriveMeets unitKey (beBytes 32 (secp256r1.n - 1)) := by
  intro hmeets
  have hlt := hmeets.sumInRange.2
  revert hlt
  decide +kernel

end PicoAll
