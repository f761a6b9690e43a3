import PicoAll.Fido.Hotp
import PicoAll.Fido.OathGuarded

/-!
# Exact moving factors

What an event does to a file with a moving factor (`HotpState.step`), and with it the run lemma: in the
trace that a careful run leaves the moving factors count up, and without a press it is exact
(`hotp_counters_exact`).
-/

namespace PicoAll

open FaultProgram BigEndian ByteBuffer List Option Nat Bool Function

variable {A : Outcome → Prop} {C : OathCrypto} {s : HotpSecret} {f : OathFile} {c next : ℕ}
  {d d' : OathDevice} {cred : OathCredential}

/-! ### Codes -/

theorem beNat_four (a b c d : UInt8) :
    beNat [a, b, c, d] = ((a.toNat * 256 + b.toNat) * 256 + c.toNat) * 256 + d.toNat := by
  simp [beNat]

/-- The four bytes of a response are the truncated number. -/
theorem beNat_oathTruncate {hmac : Bytes} (hlen : 20 ≤ hmac.length) :
    beNat (oathTruncate hmac) = dynamicTruncation hmac := by
  have hoffset : (hmac.getD (hmac.length - 1) 0 &&& 0x0f).toNat =
      (hmac.getD (hmac.length - 1) 0).toNat % 16 := by
    exact and_two_pow_sub_one_eq_mod _ 4
  have hlt : (hmac.getD (hmac.length - 1) 0).toNat % 16 < 16 := mod_lt _ (by decide)
  rw [oathTruncate, dynamicTruncation, hoffset, beField]
  generalize (hmac.getD (hmac.length - 1) 0).toNat % 16 = off at hlt
  have hsign : (hmac.getD off 0 &&& 0x7f).toNat = (hmac.getD off 0).toNat % 128 := by
    exact and_two_pow_sub_one_eq_mod _ 7
  have htake : (hmac.drop off).take 4 =
      [hmac.getD off 0, hmac.getD (off + 1) 0, hmac.getD (off + 2) 0, hmac.getD (off + 3) 0] := by
    rw [getD_eq_getElem _ _ (show off < hmac.length by omega),
      getD_eq_getElem _ _ (show off + 1 < hmac.length by omega),
      getD_eq_getElem _ _ (show off + 2 < hmac.length by omega),
      getD_eq_getElem _ _ (show off + 3 < hmac.length by omega),
      drop_eq_getElem_cons (show off < hmac.length by omega),
      drop_eq_getElem_cons (show off + 1 < hmac.length by omega),
      drop_eq_getElem_cons (show off + 2 < hmac.length by omega),
      drop_eq_getElem_cons (show off + 3 < hmac.length by omega)]
    rfl
  rw [htake, beNat_four, beNat_four, hsign]
  have h₁ := (hmac.getD (off + 1) 0).toNat_lt
  have h₂ := (hmac.getD (off + 2) 0).toNat_lt
  have h₃ := (hmac.getD (off + 3) 0).toNat_lt
  omega

theorem twenty_le_size (hash : OathHash) : 20 ≤ hash.size := by
  cases hash <;> decide

variable {p2 : UInt8} {data : Bytes} {touched : Bool} {faults : OathFile → List Outcome}

/-- What `calculate_oath` makes of a key that can be used, in a response that has room. -/
theorem calculateOath_eq {key message : Bytes} {used : ℕ} {hash : OathHash} (hkey : 2 ≤ key.length)
    (hhash : getOathMdInfo (key.headD 0) = some hash) (hused : used ≤ 1) :
    calculateOath C p2 key message used = some (
      if p2 = 1 then 5 :: key.getD 1 0 :: oathTruncate (C.hmac hash (key.drop 2) message)
      else .ofNat (hash.size + 1) :: key.getD 1 0 :: C.hmac hash (key.drop 2) message) := by
  have hroom : ∀ len, len ≤ 66 → oathResponseHasRoom used len = true := fun len hlen ↦
    decide_eq_true (by show used + len ≤ 2036; omega)
  have hsize : hash.size + 2 ≤ 66 := by cases hash <;> decide
  rw [calculateOath, if_neg (by omega), hhash]
  dsimp only
  rw [hroom 7 (by omega), hroom _ hsize, if_pos rfl, if_pos rfl]
  split_ifs <;> rfl

theorem responseCode_calculate {key message : Bytes} {hash : OathHash} (hp2 : p2 = 0 ∨ p2 = 1) :
    responseCode ((.ofNat tagResponse + p2) ::
      if p2 = 1 then 5 :: key.getD 1 0 :: oathTruncate (C.hmac hash (key.drop 2) message)
      else .ofNat (hash.size + 1) :: key.getD 1 0 :: C.hmac hash (key.drop 2) message) =
    ⟨dynamicTruncation (C.hmac hash (key.drop 2) message) % 10 ^ (key.getD 1 0).toNat,
      (key.getD 1 0).toNat⟩ := by
  have hlen : 20 ≤ (C.hmac hash (key.drop 2) message).length :=
    (C.length_hmac _ _ _).symm ▸ twenty_le_size hash
  rcases hp2 with rfl | rfl
  · rw [if_neg (by decide)]
    rfl
  · rw [if_pos rfl, ← beNat_oathTruncate hlen]
    rfl

/-! ### What a file has -/

theorem hotpOf_eq_some_iff : hotpOf cred = some (s, c) ↔
    ∃ imf, getOathMdInfo (cred.key.headD 0) = some s.hash ∧ cred.item tagImf = some imf ∧
      oathIsHotp cred.key = true ∧ 8 ≤ imf.length ∧ s.key = cred.key.drop 2 ∧
      s.digits = (cred.key.getD 1 0).toNat ∧ c = beNat (imf.take 8) := by
  constructor
  · intro h
    obtain ⟨hash, hhash, h⟩ := bind_eq_some_iff.mp h
    obtain ⟨imf, himf, h⟩ := bind_eq_some_iff.mp h
    split_ifs at h with hgood
    obtain ⟨rfl, rfl⟩ := Prod.mk.inj (Option.some.inj h)
    exact ⟨imf, hhash, himf, hgood.1, hgood.2, rfl, rfl, rfl⟩
  · rintro ⟨imf, hhash, himf, hhotp, hlen, hkey, hdigits, rfl⟩
    refine bind_eq_some_iff.mpr ⟨_, hhash, bind_eq_some_iff.mpr ⟨_, himf, ?_⟩⟩
    rw [if_pos ⟨hhotp, hlen⟩]
    refine congrArg some (Prod.ext ?_ rfl)
    exact congrArg₂ (HotpSecret.mk s.hash) hkey.symm hdigits.symm

/-- The next moving factor is the one that is stored then. -/
theorem hotpOf_advanced (h : hotpOf cred = some (s, c)) (hc : c + 1 < 2 ^ 64) :
    hotpOf cred.advanced = some (s, c + 1) := by
  obtain ⟨imf, hhash, himf, hhotp, hlen, hkey, hdigits, rfl⟩ := hotpOf_eq_some_iff.mp h
  refine hotpOf_eq_some_iff.mpr ⟨beBytes 8 (beNat (imf.take 8) + 1) ++ imf.drop 8, hhash, ?_, hhotp, ?_,
    hkey, hdigits, ?_⟩
  · rw [OathCredential.advanced, himf]
    dsimp only
    rfl
  · rw [length_append, length_beBytes]
    omega
  · rw [take_left' (length_beBytes 8 _), beNat_beBytes (by simpa using hc)]

variable {a : Option OathContent} {i : Fin 4}

theorem HotpStored.hotpAt (h : HotpStored C s c f a) : hotpAt C f a = some (s, c) := by
  cases h with
  | cred i holds hotp =>
    rw [PicoAll.hotpAt, holds.opens, bind_some, holds.reads]
    exact hotp
  | otpSlot i hotp => exact hotp

theorem HotpStored.not_protection (h : HotpStored C s c f a) : ¬f.IsProtection := by
  cases h <;> simp [OathFile.IsProtection]

/-- A file has a moving factor, and so has all that may be found of it after a loss of power. -/
structure HotpState (C : OathCrypto) (s : HotpSecret) (f : OathFile) (c : ℕ) (d : OathDevice) :
    Prop where
  view : HotpStored C s c f (d.read f)
  stale : ∀ a ∈ d.files.stale f, ∃ c', HotpStored C s c' f a

namespace HotpState

theorem counter (h : HotpState C s f c d) : hotpCounter C f d = some c := by
  rw [hotpCounter, h.view.hotpAt]
  rfl

/-- Nothing happens to the file but that it reaches the flash. -/
theorem of_file (h : HotpState C s f c d) (hview : d'.files.view f = d.files.view f)
    (hstale : ∀ a ∈ d'.files.stale f, a ∈ d.files.stale f) : HotpState C s f c d' where
  view := by
    rw [Device.read, hview]
    exact h.view
  stale a ha := h.stale a (hstale a ha)

theorem of_files (h : HotpState C s f c d) (hfiles : d'.files = d.files) : HotpState C s f c d' :=
  h.of_file (by rw [hfiles]) fun a ha ↦ hfiles ▸ ha

variable {a : Option OathContent}

theorem of_write_ne {g : OathFile} (h : HotpState C s f c d) (hne : f ≠ g)
    (hfiles : d'.files = d.files.write g a) : HotpState C s f c d' := by
  refine h.of_file ?_ fun b hb ↦ ?_
  · rw [hfiles, WriteBack.write_view_of_ne hne]
  · rwa [hfiles, WriteBack.write_stale_of_ne hne] at hb

theorem of_write {c' : ℕ} (h : HotpState C s f c d) (ha : HotpStored C s c' f a)
    (hfiles : d'.files = d.files.write f a) : HotpState C s f c' d' where
  view := by
    rw [Device.read, hfiles, WriteBack.write_view_self]
    exact ha
  stale b hb := by
    rw [hfiles, WriteBack.write_stale_self, mem_cons] at hb
    rcases hb with rfl | hb
    · exact ⟨c, h.view⟩
    · exact h.stale b hb

theorem ofSlots (hf : ¬f.IsProtection) : OfSlots (HotpState C s f c) :=
  fun _ _ hfiles h ↦ h.of_file (hfiles f hf).1 (hfiles f hf).2

/-- A write of another slot. -/
theorem slotClosed {i : Fin maxOathCred} (hf : f ≠ .cred i) : SlotClosed i (HotpState C s f c) where
  draw := keeps_oathModifyRam fun _ h ↦ h.of_files rfl
  put _ := Keeps.put (fun _ h ↦ h.of_files rfl) fun _ h ↦ h.of_write_ne hf rfl

/-- Sealing a key leaves the moving factor alone. -/
theorem migrate (i : Fin maxOathCred) :
    Preserves (HotpState C s f c) (oathMigrateCredential C i) := by
  intro A d h
  by_cases hf : f = .cred i
  · subst hf
    generalize hread : d.read (.cred i) = a
    have hview := hread ▸ h.view
    cases hview with
    | cred _ holds hotp =>
      refine wp_oathMigrateCredential hread holds ⟨h, trivial⟩ ⟨fun e d' hfiles ↦ h.of_files hfiles,
        fun content d' hcontent hfiles ↦ ?_⟩
      have hd' := h.of_write (.cred i hcontent hotp) hfiles
      exact ⟨fun _ ↦ ⟨hd', trivial⟩, fun _ ↦ hd'⟩
  · exact keeps_oathMigrateCredential (slotClosed hf) A d h

end HotpState

/-! ### CALCULATE -/

theorem hotpTarget_eq_some_iff {i : Fin maxOathCred} :
    hotpTarget d data = some (.cred i) ↔
      ∃ name, tlvFindTag tagName data = some name ∧ findOathCred d name = some i := by
  rw [hotpTarget, map_eq_some_iff]
  constructor
  · rintro ⟨j, hj, heq⟩
    obtain rfl := OathFile.cred.inj heq
    exact bind_eq_some_iff.mp hj
  · exact fun h ↦ ⟨i, bind_eq_some_iff.mpr h, rfl⟩

/-- **CALCULATE of the credential** computes the code of the moving factor that is stored, when the next
one is. -/
theorem wp_cmdCalculate_hotp {i : Fin maxOathCred} (h : HotpState C s (.cred i) c d)
    (hc : c + 1 < 2 ^ 64) (htarget : hotpTarget d data = some (.cred i)) :
    wp A (cmdCalculate C p2 data touched)
      (fun reply d' ↦ responseCode reply.data = rfc4226 C s c ∧ HotpState C s (.cred i) (c + 1) d' ∧
        reply.sw = swOk)
      (fun e d' ↦ e ≠ .code (.sw swOk) ∧ (HotpState C s (.cred i) c d' ∨
        d.outcome (.cred i) = .late ∧ HotpState C s (.cred i) (c + 1) d')) d := by
  obtain ⟨name, hname, hfind⟩ := hotpTarget_eq_some_iff.mp htarget
  generalize hread : d.read (.cred i) = a
  have hview := hread ▸ h.view
  cases hview with
  | @cred _ cred content holds hotp =>
    obtain ⟨imf, hhash, himf, hhotp, hlen, hkey, hdigits, rfl⟩ := hotpOf_eq_some_iff.mp hotp
    rw [item_of_oathCredential holds.reads (by decide), tlvFindTag, map_eq_some_iff] at himf
    obtain ⟨item, hitem, rfl⟩ := himf
    obtain ⟨hload, -⟩ := oathCredential_eq_some_iff.mp holds.reads
    obtain ⟨-, -, -, hlong⟩ := oathLoadKey_ok_iff.mp hload
    have hopen : oathCredentialOpen d i .credential = some (content.object .credential) := by
      rw [oathCredentialOpen_eq, hread]
      exact holds.opens
    refine wp_bind (wp_guardSw (fun hp2 ↦ ?_) fun _ ↦ ⟨by decide, .inl h⟩)
    have hp2 : p2 = 0 ∨ p2 = 1 := of_decide_eq_true hp2
    refine wp_bind (wp_requireValidated (fun _ ↦ ?_) fun _ ↦ ⟨by decide, .inl h⟩)
    refine wp_bind (wp_orSw (fun challenge _ ↦ ?_) fun _ ↦ ⟨by decide, .inl h⟩)
    refine wp_bind (wp_orSw (fun name' hname' ↦ ?_) fun _ ↦ ⟨by decide, .inl h⟩)
    obtain rfl := Option.some.inj (hname.symm.trans hname')
    refine wp_get (wp_bind (wp_orSw (fun j hj ↦ ?_) fun _ ↦ ⟨by decide, .inl h⟩))
    obtain rfl := Option.some.inj (hfind.symm.trans hj)
    refine wp_bind (wp_orSw (fun record hrecord ↦ ?_) fun _ ↦ ⟨by decide, .inl h⟩)
    obtain rfl := Option.some.inj (hopen.symm.trans hrecord)
    refine wp_bind (wp_liftSw (fun key hkey' ↦ ?_) fun w hw ↦ absurd (hload.symm.trans hw) (by simp))
    obtain rfl := Except.ok.inj (hload.symm.trans hkey')
    refine wp_bind (wp_guardSw (fun _ ↦
      wp_bind (wp_guardSw (fun _ ↦ ?_) fun _ ↦ ⟨by decide, .inl h⟩)) fun _ ↦ ⟨by decide, .inl h⟩)
    rw [hitem]
    dsimp only
    rw [if_pos hhotp]
    refine wp_bind (wp_hotpAdvance hread holds hitem hlen
      (fun e d' he hfiles ↦ ⟨he, .inl (h.of_files hfiles)⟩) ?_)
    intro content' d' hcontent hfiles
    have hd' : HotpState C s (.cred i) (beNat (item.value.take 8) + 1) d' :=
      h.of_write (.cred i hcontent (hotpOf_advanced hotp hc)) hfiles
    refine ⟨fun _ ↦ ?_, fun hlate ↦ ⟨by decide, .inr ⟨hlate, hd'⟩⟩⟩
    rw [calculateOath_eq hlong hhash le_rfl]
    refine wp_bind (wp_pure (wp_pure ⟨?_, hd', rfl⟩))
    have height : (item.value.take 8).length = 8 := by rw [length_take]; omega
    have hfactor := beBytes_beNat (item.value.take 8)
    rw [height] at hfactor
    rw [responseCode_calculate hp2, rfc4226, hotpTruncated, hfactor, hkey, hdigits]

/-- CALCULATE of another credential leaves the file alone. -/
theorem keeps_cmdCalculate_ne (h : HotpState C s f c d) (htarget : hotpTarget d data ≠ some f) :
    wp A (cmdCalculate C p2 data touched) (fun _ ↦ HotpState C s f c)
      (fun _ ↦ HotpState C s f c) d := by
  refine wp_bind (wp_guardSw (fun _ ↦ wp_bind (wp_requireValidated (fun _ ↦ wp_bind (wp_orSw
    (fun challenge _ ↦ wp_bind (wp_orSw (fun name hname ↦ wp_get (wp_bind (wp_orSw
    (fun i hi ↦ ?_) fun _ ↦ h))) fun _ ↦ h)) fun _ ↦ h)) fun _ ↦ h)) fun _ ↦ h)
  have hne : f ≠ .cred i := by
    rintro rfl
    exact htarget (hotpTarget_eq_some_iff.mpr ⟨name, hname, hi⟩)
  have hslot : SlotClosed i (HotpState C s f c) := HotpState.slotClosed hne
  refine wp_mono (Q := fun _ d' ↦ HotpState C s f c d' ∧ True) (E := fun _ ↦ HotpState C s f c) ?_
    (fun _ _ h ↦ h.1) fun _ _ h ↦ h
  refine (Keeps.bind keeps_orSw fun record _ ↦ .bind keeps_liftSw fun key _ ↦
    .bind keeps_guardSw fun _ _ ↦ .bind keeps_guardSw fun _ _ ↦
    .bind (R := fun _ ↦ True) ?_ fun _ _ ↦ .bind keeps_orSw fun _ _ ↦ .pure trivial :
      Preserves (HotpState C s f c) _) A d h
  rcases tlvFind tagImf record with - | imf
  · exact .pure trivial
  · exact .ite (fun _ ↦ keeps_hotpAdvance hslot record imf) fun _ ↦ .pure trivial

/-! ### A press -/

theorem hotpOfSlot_eq_some_iff : hotpOfSlot data = some (s, c) ↔
    otpHotpSlot data = true ∧ s = ⟨.sha1, otpAesKey data, otpHotpDigits data⟩ ∧
      c = otpHotpFactor data := by
  rw [hotpOfSlot]
  split_ifs with hslot
  · rw [some_inj, Prod.mk.injEq, eq_comm, eq_comm (a := otpHotpFactor data)]
    exact ⟨fun h ↦ ⟨hslot, h.1, h.2⟩, fun h ↦ h.2⟩
  · exact ⟨fun h ↦ absurd h (by simp), fun h ↦ absurd h.1 hslot⟩

/-- The slot that a press stores has the next moving factor. -/
theorem hotpOfSlot_pressed (h : hotpOfSlot data = some (s, c)) (hc : c + 1 < 2 ^ 64) :
    hotpOfSlot (data.take otpConfigSize ++ beBytes 8 (c + 1)) = some (s, c + 1) := by
  obtain ⟨hslot, rfl, -⟩ := hotpOfSlot_eq_some_iff.mp h
  have hsize : otpConfigSize = 52 := rfl
  have hlen : 52 ≤ data.length := by
    rw [otpHotpSlot, and_eq_true, and_eq_true, otpPlainLenValid, or_eq_true,
      decide_eq_true_iff, decide_eq_true_iff] at hslot
    omega
  have htake : (data.take 52).length = 52 := by rw [length_take]; omega
  have hget : ∀ n, n < 52 → (data.take 52 ++ beBytes 8 (c + 1)).getD n 0 = data.getD n 0 := by
    intro n hn
    rw [getD_eq_getElem?_getD, getD_eq_getElem?_getD, getElem?_append_left (by omega),
      getElem?_take_of_lt hn]
  have hcfg : otpCfgFlags (data.take 52 ++ beBytes 8 (c + 1)) = otpCfgFlags data :=
    hget 47 (by omega)
  have hkey : otpAesKey (data.take 52 ++ beBytes 8 (c + 1)) = otpAesKey data := by
    refine ext_getElem? fun n ↦ ?_
    rw [otpAesKey, otpAesKey, getElem?_slice, getElem?_slice]
    split_ifs with hn
    · rw [getElem?_append_left (by omega), getElem?_take_of_lt (by omega)]
    · rfl
  have hfield : beField (data.take 52 ++ beBytes 8 (c + 1)) 52 8 = c + 1 := by
    have hfield : beField (data.take 52 ++ (beBytes 8 (c + 1) ++ [])) 52 8 = c + 1 :=
      beField_append htake (show c + 1 < 256 ^ 8 by simpa using hc)
    rwa [append_nil] at hfield
  refine hotpOfSlot_eq_some_iff.mpr ⟨?_, ?_, ?_⟩
  · rw [otpHotpSlot, and_eq_true, and_eq_true] at hslot ⊢
    refine ⟨⟨?_, ?_⟩, ?_⟩
    · simp [otpPlainLenValid, htake]
    · rw [otpIsHotp, otpTktFlags, hget 46 (by omega)]
      exact hslot.1.2
    · rw [hcfg]
      exact hslot.2
  · rw [hkey, otpHotpDigits, otpHotpDigits, hcfg]
  · have hlength : (data.take 52 ++ beBytes 8 (c + 1)).length = 52 + 8 := by
      rw [length_append, htake, length_beBytes]
    rw [otpHotpFactor, hsize, if_pos hlength, hfield]
    rfl

/-- The upper half of the truncated number is what is typed. -/
theorem beField_oathTruncate {hmac : Bytes} (hlen : 20 ≤ hmac.length) (b b' : UInt8) :
    beField (b :: b' :: oathTruncate hmac) 2 2 = dynamicTruncation hmac / 65536 := by
  rw [← beNat_oathTruncate hlen, oathTruncate, beNat_four]
  generalize (hmac.getD (hmac.length - 1) 0 &&& 0x0f).toNat = off
  have h₂ := (hmac.getD (off + 2) 0).toNat_lt
  have h₃ := (hmac.getD (off + 3) 0).toNat_lt
  show beNat [_, _] = _
  simp only [beNat, foldl_cons, foldl_nil]
  omega

/-- **A press** types the digits of the upper half, and stores the next moving factor. -/
theorem wp_otpPressOath_hotp (h : HotpState C s (.otpSlot i) c d) (hc : c + 1 < 2 ^ 64)
    (hfail : d.outcome (.otpSlot i) ≠ .fail) :
    wp A (otpPressOath C i)
      (fun code d' ↦ code = some (hotpGiven C s (.otpSlot i) c) ∧
        HotpState C s (.otpSlot i) (c + 1) d')
      (fun e d' ↦ e = .cut ∧ HotpState C s (.otpSlot i) c d') d := by
  generalize hread : d.read (.otpSlot i) = a
  have hview := hread ▸ h.view
  cases hview with
  | @otpSlot _ data hotp =>
    have hstored := HotpStored.otpSlot (C := C) i (hotpOfSlot_pressed hotp hc)
    obtain ⟨hslot, rfl, rfl⟩ := hotpOfSlot_eq_some_iff.mp hotp
    refine wp_get ?_
    rw [hread]
    dsimp only
    have hhash : getOathMdInfo ((1 :: 0 :: otpAesKey data).headD 0) = some .sha1 :=
      show getOathMdInfo 1 = some .sha1 by decide
    rw [if_pos hslot, calculateOath_eq (by simp) hhash (zero_le 1), if_pos rfl]
    have hwritten : HotpState C _ (.otpSlot i) _ (d.written (.otpSlot i) (some (.plain
      (data.take otpConfigSize ++ beBytes 8 (otpHotpFactor data + 1))))) := h.of_write hstored rfl
    refine wp_bind (wp_putIgnoring (fun _ ↦ wp_pure ⟨?_, hwritten⟩) (fun h ↦ absurd h hfail)
      fun _ ↦ ⟨rfl, h.of_files rfl⟩)
    have hlen : 20 ≤ (C.hmac .sha1 (otpAesKey data) (beBytes 8 (otpHotpFactor data))).length :=
      (C.length_hmac _ _ _).symm ▸ twenty_le_size .sha1
    show some (HotpCode.mk (beField (5 :: 0 :: oathTruncate (C.hmac .sha1 (otpAesKey data) _)) 2 2 % _)
      _) = _
    rw [beField_oathTruncate hlen]
    rfl

/-- A press on another slot leaves the file alone. -/
theorem keeps_otpPressOath_ne (hf : f ≠ .otpSlot i) :
    Preserves (HotpState C s f c) (otpPressOath C i) := by
  have hput : ∀ a, Preserves (HotpState C s f c)
      (putIgnoring OathError.storage (.otpSlot i) a) := fun a ↦
    Keeps.putIgnoring (fun _ h ↦ h.of_files rfl) fun _ h ↦ h.of_write_ne hf rfl
  refine .get fun d ↦ ?_
  rcases d.read (.otpSlot i) with - | (data | _)
  · exact .pure trivial
  · refine .ite (fun _ ↦ ?_) fun _ ↦ .pure trivial
    dsimp only
    rcases calculateOath C 1 (1 :: 0 :: otpAesKey data) (beBytes 8 (otpHotpFactor data)) 0 with
      - | response
    · exact .pure trivial
    · exact .bind (hput _) fun _ _ ↦ .pure trivial
  · exact .pure trivial

/-! ### VERIFY CODE -/

theorem hotpTarget_cred (h : hotpTarget d data = some f) : ∃ i, f = .cred i := by
  obtain ⟨i, -, rfl⟩ := map_eq_some_iff.mp h
  exact ⟨i, rfl⟩

/-- What is asked of the answer of VERIFY CODE. -/
def VerifyAnswer (C : OathCrypto) (s : HotpSecret) (c : ℕ) (data : Bytes) (reply : OathReply) : Prop :=
  (reply.sw = swOk → GivesCode C s c data) ∧ (reply.sw = swWrongData → ¬GivesCode C s c data)

/-- **VERIFY CODE** accepts the code and no other one, if the moving factor has eight bytes and the code
six or eight digits. -/
theorem verifiesExactly (hplain : VerifiesPlainly s f d) : VerifiesExactly C s f d := by
  intro data touched faults c htarget hat
  obtain ⟨i, rfl⟩ := hotpTarget_cred htarget
  obtain ⟨hdigits, himf8⟩ := hplain
  obtain ⟨name, hname, hfind⟩ := hotpTarget_eq_some_iff.mp htarget
  rw [OathEvent.step]
  split_ifs with hoff
  · simp
  rcases hread : d.read (.cred i) with - | content
  · rw [hread] at hat
    cases hat
  rw [hread] at hat
  obtain ⟨record, hrecord, hat⟩ := bind_eq_some_iff.mp hat
  obtain ⟨cred, hcred, hotp⟩ := bind_eq_some_iff.mp hat
  obtain ⟨imf, hhash, himf, hhotp, hlen, hkey, hdigitsKey, rfl⟩ := hotpOf_eq_some_iff.mp hotp
  rw [item_of_oathCredential hcred (by decide)] at himf
  obtain ⟨hload, -⟩ := oathCredential_eq_some_iff.mp hcred
  obtain ⟨-, -, -, hlong⟩ := oathLoadKey_ok_iff.mp hload
  have hopen : oathCredentialOpen d i .credential = some record := by
    rw [oathCredentialOpen_eq, hread]
    exact hrecord
  have height : imf.length = 8 := himf8 record imf hopen himf
  have htake : imf.take 8 = imf := take_of_length_le height.le
  have hmessage : beBytes 8 (beNat imf) = imf := height ▸ beBytes_beNat imf
  have hbase : (if cred.key.getD 1 0 = 6 then 10 ^ 6 else 10 ^ 8) = 10 ^ s.digits := by
    rw [hdigitsKey] at hdigits ⊢
    rcases hdigits with hsix | height
    · rw [if_pos (UInt8.toNat_inj.mp hsix), hsix]
    · rw [if_neg (fun hsix ↦ absurd height (by rw [hsix]; decide)), height]
  -- the number in the response, as CALCULATE computes it
  have hnumber : beField (5 :: cred.key.getD 1 0 :: oathTruncate (C.hmac s.hash (cred.key.drop 2) imf))
      2 4 % 10 ^ s.digits = (rfc4226 C s (beNat (imf.take 8))).number := by
    have hsize : 20 ≤ (C.hmac s.hash (cred.key.drop 2) imf).length :=
      (C.length_hmac _ _ _).symm ▸ twenty_le_size s.hash
    rw [rfc4226, hotpTruncated, htake, hmessage, hkey, ← beNat_oathTruncate hsize]
    rfl
  have hother : ∀ w : UInt16, w ≠ swOk → w ≠ swWrongData →
      VerifyAnswer C s (beNat (imf.take 8)) data ⟨w, []⟩ := fun w hok hwrong ↦
    ⟨fun h ↦ absurd h hok, fun h ↦ absurd h hwrong⟩
  refine runOath_of_wp (P := fun reply _ ↦ ∀ r ∈ reply, VerifyAnswer C s (beNat (imf.take 8)) data r)
    (Q := fun r _ ↦ VerifyAnswer C s (beNat (imf.take 8)) data r)
    (E := fun e _ ↦ ∀ r ∈ oathOutput (.error e), VerifyAnswer C s (beNat (imf.take 8)) data r)
    ?_ (fun r _ hr r' hr' ↦ Option.some.inj hr' ▸ hr) (fun _ _ h ↦ h) fun _ _ _ hr ↦ by cases hr
  have herror : ∀ w : UInt16, w ≠ swOk → w ≠ swWrongData → ∀ r ∈ oathOutput (.error (.code (.sw w))),
      VerifyAnswer C s (beNat (imf.take 8)) data r := by
    intro w hok hwrong r hr
    obtain rfl := Option.some.inj hr
    exact hother w hok hwrong
  refine wp_run_handler (by simp) (fun _ w hw _ ↦ ?_) fun _ _ chain ↦ ?_
  · rcases hw with rfl | rfl
    · exact herror _ (by decide) (by decide)
    · exact herror _ (by decide) (by decide)
  have hpin : wp (fun _ ↦ True) oathRequireOtpPin (fun _ d' ↦ d'.files = d.files)
      (fun e _ ↦ ∀ r ∈ oathOutput (.error e), VerifyAnswer C s (beNat (imf.take 8)) data r)
      (OathDevice.withChain { d with faults := faults } chain) :=
    wp_get (wp_guardSw (fun _ ↦ rfl) fun _ ↦ herror _ (by decide) (by decide))
  refine wp_bind (wp_requireValidated (fun _ ↦ wp_then hpin fun _ d' hd' ↦ ?_)
    fun _ ↦ herror _ (by decide) (by decide))
  have hread' : d'.read (.cred i) = some content := by rw [Device.read, hd', ← hread]; rfl
  have hopen' : oathCredentialOpen d' i .credential = some record := by
    rw [oathCredentialOpen_eq, hread']
    exact hrecord
  have hfind' : findOathCred d' name = some i := by
    have hsame : findOathCred d' name = findOathCred d name := by
      simp only [findOathCred, presentOathCreds, oathCredentialOpen, Device.read, hd']
    rw [hsame, hfind]
  refine wp_bind (wp_orSw (fun name' hname' ↦ ?_) fun _ ↦ herror _ (by decide) (by decide))
  obtain rfl := Option.some.inj (hname.symm.trans hname')
  refine wp_get (wp_bind (wp_orSw (fun j hj ↦ ?_) fun _ ↦ herror _ (by decide) (by decide)))
  obtain rfl := Option.some.inj (hfind'.symm.trans hj)
  refine wp_bind (wp_orSw (fun record' hrecord' ↦ ?_) fun _ ↦ herror _ (by decide) (by decide))
  obtain rfl := Option.some.inj (hopen'.symm.trans hrecord')
  refine wp_bind (wp_liftSw (fun key hkey' ↦ ?_) fun w hw ↦ absurd (hload.symm.trans hw) (by simp))
  obtain rfl := Except.ok.inj (hload.symm.trans hkey')
  refine wp_bind (wp_guardSw (fun _ ↦ ?_) fun _ ↦ herror _ (by decide) (by decide))
  refine wp_bind (wp_orSw (fun imf' himf' ↦ ?_) fun _ ↦ herror _ (by decide) (by decide))
  obtain rfl := Option.some.inj (himf.symm.trans himf')
  refine wp_bind (wp_guardSw (fun _ ↦ ?_) fun _ ↦ herror _ (by decide) (by decide))
  refine wp_bind (wp_orSw (fun code hcode ↦ ?_) fun _ ↦ herror _ (by decide) (by decide))
  refine wp_bind (wp_guardSw (fun _ ↦ ?_) fun _ ↦ herror _ (by decide) (by decide))
  rw [calculateOath_eq hlong hhash (zero_le 1), if_pos rfl]
  refine wp_bind (wp_pure ?_)
  dsimp only
  rw [show (5 :: cred.key.getD 1 0 :: oathTruncate (C.hmac s.hash (cred.key.drop 2) imf)).getD 1 0 =
    cred.key.getD 1 0 from rfl, hbase, hnumber]
  refine wp_bind (wp_guardSw (fun hright ↦ wp_pure ⟨fun _ ↦ ⟨code, hcode, ?_⟩, fun h ↦ ?_⟩)
    fun hwrong r hr ↦ ?_)
  · exact (of_decide_eq_true hright).symm
  · cases h
  · obtain rfl := Option.some.inj hr
    refine ⟨fun h ↦ absurd h (by decide), fun _ hgives ↦ ?_⟩
    obtain ⟨code', hcode', heq⟩ := hgives
    obtain rfl := Option.some.inj (hcode.symm.trans hcode')
    exact absurd heq.symm (of_decide_eq_false hwrong)

/-! ### Traces -/

namespace HotpCounts

variable {given : ℕ → HotpCode} {notes : List HotpNote}

/-- A code is computed. -/
theorem code (h : HotpCounts given (c + 1) notes) (hnext : next ≤ c)
    (hhead : ∀ factor code stored, notes.head? = some (.code factor code stored) → factor = c + 1) :
    HotpCounts given next (.code c (given c) (some (c + 1)) :: notes) where
  codes factor code stored hmem := by
    rcases mem_cons.mp hmem with heq | hmem
    · obtain ⟨rfl, rfl, rfl⟩ := HotpNote.code.inj heq
      exact ⟨hnext, rfl, rfl⟩
    · obtain ⟨hle, hcode⟩ := h.codes factor code stored hmem
      exact ⟨by omega, hcode⟩
  increasing := by
    refine pairwise_cons.mpr ⟨fun factor hfactor ↦ ?_, h.increasing⟩
    obtain ⟨note, hnote, heq⟩ := mem_filterMap.mp hfactor
    rcases note with ⟨factor', code, stored⟩ | -
    · obtain rfl := Option.some.inj heq
      exact (h.codes _ _ _ hnote).1
    · cases heq
  consecutive := by
    refine isChain_cons.mpr ⟨fun note hnote factor code stored factor' code' stored' heq heq' ↦ ?_,
      h.consecutive⟩
    obtain ⟨rfl, -, -⟩ := HotpNote.code.inj heq
    exact hhead factor' code' stored' (heq' ▸ hnote)

/-- Something is lost. -/
theorem lost (h : HotpCounts given next notes) : HotpCounts given next (.lost :: notes) where
  codes factor code stored hmem := by
    rcases mem_cons.mp hmem with heq | hmem
    · cases heq
    · exact h.codes factor code stored hmem
  increasing := h.increasing
  consecutive := by
    refine isChain_cons.mpr ⟨fun note _ factor code stored factor' code' stored' heq ↦ ?_,
      h.consecutive⟩
    cases heq

end HotpCounts

/-- Without a press no code of a slot is typed. -/
theorem hotpTrace_unpressed (events : List HotpEvent)
    (h : ∀ event ∈ events, event.Unpressed (.otpSlot i)) :
    ∀ note ∈ hotpTrace C (.otpSlot i) d events, note = .lost := by
  induction events generalizing d with
  | nil => exact fun note hnote ↦ absurd hnote not_mem_nil
  | cons event events ih =>
    obtain ⟨hevent, hevents⟩ := forall_mem_cons.mp h
    have hnone : hotpEmitted C (.otpSlot i) d event = none := by
      cases event with
      | press j faults => exact if_neg hevent
      | oath event =>
        rcases event with ⟨command, faults⟩ | _ | _
        · cases command with
          | calculate p2 data touched =>
            rw [hotpEmitted]
            rcases (OathEvent.step C d (.command (.calculate p2 data touched) faults)).1 with - | reply
            · rfl
            · refine if_neg fun h ↦ ?_
              obtain ⟨j, hj⟩ := hotpTarget_cred h.1
              cases hj
          | _ => rfl
        · rfl
        · rfl
    intro note hnote
    rw [hotpTrace, hotpNotes, hnone] at hnote
    rcases mem_append.mp hnote with hnote | hnote
    · split_ifs at hnote
      · exact mem_singleton.mp hnote
      · exact absurd hnote not_mem_nil
    · exact ih hevents note hnote

/-! ### Runs -/

/-- What an event does to a file with moving factor `c`. -/
inductive HotpEffect (C : OathCrypto) (s : HotpSecret) (f : OathFile) (c : ℕ) (d : OathDevice)
    (event : HotpEvent) : Prop
  /-- A code is computed, and the next moving factor is stored. -/
  | code (hemitted : hotpEmitted C f d event = some (hotpGiven C s f c))
      (h : HotpState C s f (c + 1) (event.step C d))
  /-- Nothing happens to the moving factor. -/
  | same (hemitted : hotpEmitted C f d event = none) (h : HotpState C s f c (event.step C d))
  /-- The moving factor may have gone up. -/
  | lost (hemitted : hotpEmitted C f d event = none) (hloses : event.Loses f d) (c' : ℕ)
      (hle : c ≤ c') (h : HotpState C s f c' (event.step C d))

theorem HotpState.of_setRam {g : OathRam → OathRam} (h : HotpState C s f c d) :
    HotpState C s f c (d.setRam g) :=
  h.of_files rfl

theorem outcome_late_mem (h : Device.outcome { d with faults := faults } f = .late) :
    ∃ o ∈ faults f, o ≠ .ok := by
  refine ⟨.late, ?_, by simp⟩
  have h : (faults f).headD .ok = .late := h
  rcases hf : faults f with - | ⟨o, os⟩
  · rw [hf] at h
    cases h
  · rw [hf] at h
    obtain rfl : o = .late := h
    exact mem_cons_self ..

/-- What CALCULATE answers, and what becomes of the moving factor of the credential. -/
def CalculateEffect (C : OathCrypto) (s : HotpSecret) (f : OathFile) (c : ℕ)
    (faults : OathFile → List Outcome) (reply : Option OathReply) (d' : OathDevice) : Prop :=
  (∃ r, reply = some r ∧ r.sw = swOk ∧ responseCode r.data = rfc4226 C s c ∧
    HotpState C s f (c + 1) d') ∨
  (∀ r ∈ reply, r.sw ≠ swOk) ∧ (HotpState C s f c d' ∨
    (∃ o ∈ faults f, o ≠ .ok) ∧ HotpState C s f (c + 1) d')

theorem HotpState.runCalculate {i : Fin maxOathCred} (h : HotpState C s (.cred i) c d)
    (hc : c + 1 < 2 ^ 64) (htarget : hotpTarget d data = some (.cred i)) :
    CalculateEffect C s (.cred i) c faults
      (runOath C (.calculate p2 data touched) { d with faults := faults }).1
      (runOath C (.calculate p2 data touched) { d with faults := faults }).2 := by
  refine runOath_of_wp (P := CalculateEffect C s (.cred i) c faults)
    (Q := fun reply d' ↦ responseCode reply.data = rfc4226 C s c ∧
      HotpState C s (.cred i) (c + 1) d' ∧ reply.sw = swOk)
    (E := fun e d' ↦ e ≠ .code (.sw swOk) ∧ (HotpState C s (.cred i) c d' ∨
      (∃ o ∈ faults (.cred i), o ≠ .ok) ∧ HotpState C s (.cred i) (c + 1) d')) ?_ ?_ ?_ ?_
  · refine wp_run_handler (by simp) (fun _ w hw chain ↦ ⟨?_, .inl (h.of_files rfl)⟩) fun _ _ chain ↦ ?_
    · rcases hw with rfl | rfl <;> decide
    · have hd : HotpState C s (.cred i) c
          (OathDevice.withChain { d with faults := faults } chain) := h.of_files rfl
      refine wp_mono (wp_cmdCalculate_hotp hd hc htarget) (fun _ _ h ↦ h) fun e d' he ↦ ⟨he.1, ?_⟩
      exact he.2.imp_right fun hlate ↦ ⟨outcome_late_mem (d := d) hlate.1, hlate.2⟩
  · exact fun r d' hr ↦ .inl ⟨r, rfl, hr.2.2, hr.1, hr.2.1⟩
  · rintro r d' ⟨hr, hd'⟩
    refine .inr ⟨fun reply hreply hsw ↦ ?_, hd'⟩
    rcases r with - | w
    · obtain rfl := Option.some.inj hreply
      cases hsw
    · obtain rfl := Option.some.inj hreply
      exact hr (congrArg (fun w ↦ Exit.code (OathError.sw w)) hsw)
  · rintro d' ⟨-, hd'⟩
    exact .inr ⟨fun r hr ↦ absurd hr (by simp), hd'.imp .of_setRam (.imp_right .of_setRam)⟩

/-- What CALCULATE does. -/
theorem HotpState.calculate (h : HotpState C s f c d)
    (hcare : hotpTarget d data = some f → hotpCounter C f d ≠ some (2 ^ 64 - 1)) (hc : c < 2 ^ 64) :
    HotpEffect C s f c d (.oath (.command (.calculate p2 data touched) faults)) := by
  by_cases hoff : d.ram.off = true
  · have hstep : OathEvent.step C d (.command (.calculate p2 data touched) faults) = (none, d) :=
      if_pos hoff
    refine .same ?_ ?_
    · rw [hotpEmitted, hstep]
    · rw [HotpEvent.step, hstep]
      exact h
  have hstep : OathEvent.step C d (.command (.calculate p2 data touched) faults) =
      runOath C (.calculate p2 data touched) { d with faults := faults } := if_neg hoff
  by_cases htarget : hotpTarget d data = some f
  · obtain ⟨i, rfl⟩ := hotpTarget_cred htarget
    have hlast : c ≠ 2 ^ 64 - 1 := fun hc ↦ hcare htarget (hc ▸ h.counter)
    have heffect : CalculateEffect C s (.cred i) c faults
        (runOath C (.calculate p2 data touched) { d with faults := faults }).1
        (runOath C (.calculate p2 data touched) { d with faults := faults }).2 :=
      h.runCalculate (by omega) htarget
    rcases heffect with ⟨r, hreply, hsw, hcode, hd'⟩ | ⟨hsw, hd'⟩
    · refine .code ?_ ?_
      · rw [hotpEmitted, hstep, hreply]
        exact (if_pos ⟨htarget, hsw⟩).trans (congrArg some hcode)
      · rw [HotpEvent.step, hstep]
        exact hd'
    · have hemitted : hotpEmitted C (.cred i) d
          (.oath (.command (.calculate p2 data touched) faults)) = none := by
        rw [hotpEmitted, hstep]
        rcases hreply : (runOath C (.calculate p2 data touched) { d with faults := faults }).1 with
          - | r
        · rfl
        · exact if_neg fun h ↦ hsw r hreply h.2
      rcases hd' with hd' | ⟨hfaults, hd'⟩
      · exact .same hemitted (by rw [HotpEvent.step, hstep]; exact hd')
      · exact .lost hemitted hfaults (c + 1) (by omega) (by rw [HotpEvent.step, hstep]; exact hd')
  · refine .same ?_ ?_
    · rw [hotpEmitted, hstep]
      rcases (runOath C (.calculate p2 data touched) { d with faults := faults }).1 with - | r
      · rfl
      · exact if_neg fun h ↦ htarget h.1
    · rw [HotpEvent.step, hstep]
      refine runOath_of_wp (P := fun _ ↦ HotpState C s f c) (Q := fun _ ↦ HotpState C s f c)
        (E := fun _ ↦ HotpState C s f c) ?_ (fun _ _ h ↦ h) (fun _ _ h ↦ h) fun _ ↦ .of_setRam
      exact wp_run_handler (by simp) (fun _ _ _ _ ↦ h.of_files rfl) fun _ _ chain ↦
        keeps_cmdCalculate_ne (h.of_files rfl) htarget

/-- What another command does. -/
theorem HotpState.quiet {command : OathCommand} (h : HotpState C s f c d) (hquiet : command.IsQuiet) :
    HotpState C s f c (OathEvent.step C d (.command command faults)).2 := by
  rw [OathEvent.step]
  split_ifs with hoff
  · exact h
  · exact runOath_of_keeps (keeps_quiet (HotpState.ofSlots h.view.not_protection) HotpState.migrate
      hquiet) (fun _ ↦ .of_setRam) (h.of_files rfl)

/-- A moving factor has eight bytes at most. -/
theorem HotpStored.lt (h : HotpStored C s c f a) : c < 2 ^ 64 := by
  cases h with
  | cred i holds hotp =>
    obtain ⟨imf, -, -, -, hlen, -, -, rfl⟩ := hotpOf_eq_some_iff.mp hotp
    refine (beNat_lt _).trans_le ?_
    rw [length_take, min_eq_left hlen]
    norm_num
  | @otpSlot i data hotp =>
    obtain ⟨-, -, rfl⟩ := hotpOfSlot_eq_some_iff.mp hotp
    have hlong := beField_lt data otpConfigSize 8
    have hshort := beField_lt data 20 2
    rw [otpHotpFactor]
    split_ifs <;> omega

/-- What a press does. -/
theorem HotpState.press (h : HotpState C s f c d)
    (hcare : (HotpEvent.press i faults).Careful C f d) :
    HotpEffect C s f c d (.press i faults) := by
  by_cases hoff : d.ram.off = true
  · have hstep : pressStep C d i faults = (none, d) := if_pos hoff
    refine .same ?_ ?_
    · rw [hotpEmitted, hstep, ite_self]
    · rw [HotpEvent.step, hstep]
      exact h
  have hstep : pressStep C d i faults = runPress C i { d with faults := faults } := if_neg hoff
  have hd : HotpState C s f c { d with faults := faults } := h.of_files rfl
  by_cases htarget : f = .otpSlot i
  · obtain ⟨hlast, hfail⟩ := hcare htarget
    have hlt := h.view.lt
    have hne : c ≠ 2 ^ 64 - 1 := fun hc ↦ hlast (hc ▸ h.counter)
    subst htarget
    rcases run_of_wp (wp_otpPressOath_hotp (A := fun _ ↦ True) hd (by omega) hfail)
      (fun o (_ : o ∈ []) ↦ trivial) with ⟨code, hrun, rfl, hd'⟩ | ⟨e, hrun, rfl, hd'⟩
    · refine .code ?_ ?_
      · rw [hotpEmitted, hstep, if_pos rfl, runPress, hrun]
      · rw [HotpEvent.step, hstep, runPress, hrun]
        exact hd'
    · refine .same ?_ ?_
      · rw [hotpEmitted, hstep, if_pos rfl, runPress, hrun]
      · rw [HotpEvent.step, hstep, runPress, hrun]
        show HotpState C s (.otpSlot i) c (Device.setRam _ fun ram ↦ { ram with off := true })
        exact hd'.of_setRam
  · refine .same (if_neg htarget) ?_
    rw [HotpEvent.step, hstep, runPress]
    have hd' := (keeps_otpPressOath_ne (C := C) htarget).final hd []
    rcases (otpPressOath C i).result { d with faults := faults } [] with (- | -) | -
    · exact hd'
    · show HotpState C s f c (Device.setRam _ fun ram ↦ { ram with off := true })
      exact hd'.of_setRam
    · exact hd'

/-- What a loss of power does. -/
theorem HotpState.reboot {keep : OathFile → ℕ} (h : HotpState C s f c d)
    (hcare : (HotpEvent.oath (.reboot keep)).Careful C f d) :
    HotpEffect C s f c d (.oath (.reboot keep)) := by
  obtain ⟨c₀, hc, c', hat, hle⟩ := hcare
  obtain rfl := Option.some.inj (hc.symm.trans h.counter)
  have hfound : ∀ {c'}, HotpStored C s c' f ((d.files.powerCut keep).view f) →
      HotpState C s f c' (HotpEvent.step C d (.oath (.reboot keep))) := fun hstored ↦
    ⟨hstored, fun _ ha ↦ absurd ha not_mem_nil⟩
  by_cases hsame : (d.files.powerCut keep).view f = d.files.view f
  · exact .same rfl (hfound (hsame ▸ h.view))
  · rcases mem_cons.mp (d.files.powerCut_view_mem keep f) with hview | hmem
    · exact absurd hview hsame
    -- what comes back was stored before
    · obtain ⟨c'', hstored⟩ := h.stale _ hmem
      obtain rfl := Option.some.inj (hat.symm.trans (hfound hstored).counter)
      exact .lost rfl hsame c' hle (hfound hstored)

/-- **One event.** -/
theorem HotpState.step {event : HotpEvent} (h : HotpState C s f c d)
    (hcare : event.Careful C f d) : HotpEffect C s f c d event := by
  cases event with
  | press i faults => exact h.press hcare
  | oath event =>
    cases event with
    | reboot keep => exact h.reboot hcare
    | flush g =>
      refine .same rfl ?_
      rw [HotpEvent.step, OathEvent.step]
      split_ifs with hoff
      · exact h
      · refine h.of_file rfl fun a ha ↦ ?_
        rcases eq_or_ne f g with rfl | hne
        · rw [show (d.files.flush f).stale f = [] from update_self ..] at ha
          exact absurd ha not_mem_nil
        · rwa [show (d.files.flush g).stale f = d.files.stale f from
            update_of_ne hne ..] at ha
    | command command faults =>
      cases command with
      | calculate p2 data touched => exact h.calculate hcare h.view.lt
      | put | delete | rename | reset => exact absurd hcare id
      | _ => exact .same rfl (h.quiet trivial)

/-- **A run.** The first code has the moving factor that is stored, the next one that was not used if
nothing was lost. -/
theorem HotpState.run (events : List HotpEvent) (h : HotpState C s f c d) (hnext : next ≤ c)
    (hcare : CarefulHotpRun C f d events) :
    HotpCounts (hotpGiven C s f) next (hotpTrace C f d events) ∧
      (c = next → ∀ factor code stored,
        (hotpTrace C f d events).head? = some (.code factor code stored) → factor = next) ∧
      ∃ c', HotpState C s f c' (hotpRun C d events) := by
  induction events generalizing d c next with
  | nil => exact ⟨⟨by simp [hotpTrace], .nil, .nil⟩, by simp [hotpTrace], c, h⟩
  | cons event events ih =>
    obtain ⟨hevent, hevents⟩ := hcare
    rcases h.step hevent with ⟨hemitted, hd'⟩ | ⟨hemitted, hd'⟩ | ⟨hemitted, hloses, c', hle, hd'⟩
    · obtain ⟨hexact, hhead, hfinal⟩ := ih hd' le_rfl hevents
      rw [hotpTrace, hotpNotes, hemitted, h.counter, hd'.counter]
      exact ⟨hexact.code hnext (hhead rfl), fun hc _ _ _ h ↦ by simp_all, hfinal⟩
    · obtain ⟨hexact, hhead, hfinal⟩ := ih hd' hnext hevents
      rw [hotpTrace, hotpNotes, hemitted]
      split_ifs with hloses
      · exact ⟨hexact.lost, fun _ _ _ _ h ↦ absurd h (by simp), hfinal⟩
      · exact ⟨hexact, hhead, hfinal⟩
    · obtain ⟨hexact, -, hfinal⟩ := ih hd' (hnext.trans hle) hevents
      rw [hotpTrace, hotpNotes, hemitted]
      rw [if_pos hloses]
      exact ⟨hexact.lost, fun _ _ _ _ h ↦ absurd h (by simp), hfinal⟩

/-- **HOTP counters are exact** in every careful run in which the file is not pressed: the trace that it
leaves is exact. With presses the moving factors still count up, each stored before the code is given,
and what is typed is the upper half. VERIFY CODE accepts the code that a calculation would give. -/
theorem hotp_counters_exact (d₀ : OathDevice) (events : List HotpEvent) (hstart : HotpStart C s c f d₀)
    (hcare : CarefulHotpRun C f d₀ events) :
    ((∀ event ∈ events, event.Unpressed f) → HotpExact C s c (hotpTrace C f d₀ events)) ∧
      HotpCounts (hotpGiven C s f) c (hotpTrace C f d₀ events) ∧
      (VerifiesPlainly s f (hotpRun C d₀ events) → VerifiesExactly C s f (hotpRun C d₀ events)) := by
  have hstate : HotpState C s f c d₀ :=
    ⟨hstart.stored, fun _ ha ↦ absurd (hstart.settled ▸ ha) not_mem_nil⟩
  have hcounts := (hstate.run events le_rfl hcare).1
  refine ⟨fun hunpressed ↦ ?_, hcounts, verifiesExactly⟩
  have hstored := hstart.stored
  generalize d₀.read f = a at hstored
  cases hstored with
  | cred i => exact hcounts
  | otpSlot i =>
    refine ⟨fun factor code stored hmem ↦ ?_, hcounts.increasing, hcounts.consecutive⟩
    cases hotpTrace_unpressed events hunpressed _ hmem

/-! A credential and a slot -/

/-- A device with one file. -/
def hotpDevice (f : OathFile) (content : OathContent) : OathDevice :=
  { freshOath with files :=
    { view := Function.update (fun _ ↦ none) f (some content), stale := fun _ ↦ [] } }

/-- The record of a credential for HOTP with moving factor 1. -/
def hotpRecord : Bytes :=
  [0x71, 1, 5, 0x73, 3, 0x11, 6, 9, 0x7a, 8, 0, 0, 0, 0, 0, 0, 0, 1]

/-- A slot for HOTP with moving factor 1. -/
def hotpSlot (key : Bytes) : OathContent :=
  .plain (List.replicate 20 0 ++ [0, 1] ++ fitBytes 24 key ++ [0x40] ++ List.replicate 5 0)

/-- CALCULATE that nothing disturbs. -/
def calmCalculate : HotpEvent :=
  .oath (calmly (.calculate 1 [0x71, 1, 5, 0x74, 0] true))

/-- A press that nothing disturbs. -/
def calmPress : HotpEvent :=
  .press 0 fun _ ↦ []

/-- The file reaches the flash, and the power is lost. -/
def flushAndCut (f : OathFile) : List HotpEvent :=
  [.oath (.flush f), .oath (.reboot fun _ ↦ 0)]

theorem hotpRecord_start :
    HotpStart openOathCrypto ⟨.sha1, [9], 6⟩ 1 (.cred 0)
      (hotpDevice (.cred 0) (.container hotpRecord [0x71, 1, 5, 0x73, 2, 0x11, 6])) where
  stored := .cred 0 (oathHolds_container rfl (by decide) (by decide +kernel)) (by decide +kernel)
  settled := rfl

/-- A code is computed or typed, the file reaches the flash, the power is lost, and another code is
computed or typed. -/
theorem hotp_counters_exact_run :
    HotpExact openOathCrypto ⟨.sha1, [9], 6⟩ 1 (hotpTrace openOathCrypto (.cred 0)
      (hotpDevice (.cred 0) (.container hotpRecord [0x71, 1, 5, 0x73, 2, 0x11, 6]))
      (.oath (calmly .select) :: calmCalculate :: flushAndCut (.cred 0) ++
        [.oath (calmly .select), calmCalculate])) ∧
    HotpCounts (hotpGiven openOathCrypto ⟨.sha1, fitBytes 16 [], 6⟩ (.otpSlot 0)) 1
      (hotpTrace openOathCrypto (.otpSlot 0) (hotpDevice (.otpSlot 0) (hotpSlot []))
        (calmPress :: flushAndCut (.otpSlot 0) ++ [calmPress])) :=
  ⟨(hotp_counters_exact _ (.oath (calmly .select) :: calmCalculate :: flushAndCut (.cred 0) ++
      [.oath (calmly .select), calmCalculate]) hotpRecord_start
      ⟨trivial, fun _ ↦ by decide +kernel, trivial,
        ⟨2, by decide +kernel, 2, by decide +kernel, le_rfl⟩, trivial,
        fun _ ↦ by decide +kernel, trivial⟩).1 (by simp [flushAndCut, calmCalculate, HotpEvent.Unpressed]),
    (hotp_counters_exact (hotpDevice (.otpSlot 0) (hotpSlot []))
      (calmPress :: flushAndCut (.otpSlot 0) ++ [calmPress]) ⟨.otpSlot 0 (by decide +kernel), rfl⟩
      ⟨fun _ ↦ by decide +kernel, trivial,
        ⟨2, by decide +kernel, 2, by decide +kernel, le_rfl⟩,
        fun _ ↦ by decide +kernel, trivial⟩).2.1⟩

/-- What is typed is not the code, and a moving factor is used twice when the power is lost. -/
theorem hotp_code_halved :
    hotpTrace openOathCrypto (.otpSlot 0)
        (hotpDevice (.otpSlot 0) (hotpSlot [0, 0, 1, 2, 3, 4, 0, 0, 0, 0, 0, 0x0a])) [calmPress] =
      [.code 1 ⟨258, 6⟩ (some 2)] ∧
      rfc4226 openOathCrypto ⟨.sha1, fitBytes 16 [0, 0, 1, 2, 3, 4, 0, 0, 0, 0, 0, 0x0a], 6⟩ 1 =
        ⟨909060, 6⟩ ∧
      hotpFactors (hotpTrace openOathCrypto (.otpSlot 0) (hotpDevice (.otpSlot 0) (hotpSlot []))
        [calmPress, .oath (.reboot fun _ ↦ 1), calmPress]) = [1, 1] := by
  decide +kernel

end PicoAll
