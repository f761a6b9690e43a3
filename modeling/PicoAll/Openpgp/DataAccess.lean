import PicoAll.Openpgp.DataSecrecy
import PicoAll.Openpgp.Frame

/-!
# Who reads and writes the data objects

A PUT DATA for the id of a data object writes the files that hold its value, and no others, under the
password that the object asks for; the resetting code and the key derivation object have their value
in the records of the PINs. What the GET commands answer does not depend on the PINs, on the copies of
the data encryption key, on what a private key is, or on a private object that may not be read.

The same command reaches some records of the applet, and the files of the PIV applet, under their own
ids (`recordFids`); of these nothing is said.
-/

namespace PicoAll.Openpgp

open FaultProgram List Option

/-! ### What a PUT DATA may write -/

/-- The ids of records, and of files of other applets, under which PUT DATA writes them. -/
def recordFids : List ℕ :=
  [efPw1, efRc, efPw3, efAlgoPriv1, efAlgoPriv2, efAlgoPriv3, efPkSig, efPkDec, efPkAut, 0x10d4, 0x10d5,
    0x10d6, efPwPriv, efPwRetries, efPivKeyAttestation, efPivPin, efPivPuk, efPhy] ++
  pivAdminFids ++ pivKeyFids ++ pivDataFids ++ pivMoreDataFids

/-- Where a resetting code is. -/
def resetCodeFiles : List CardFile :=
  [.ef efRc, .pinTxn efRc, .ef efDekRc, .ef efPwPriv]

/-- Where the value of a data object is. -/
def valueFiles (ram : CardRam) (requested : ℕ) : List CardFile :=
  if requested = efKdf then kdfUpdateFiles
  else if requested = efResetCode then resetCodeFiles
  else if requested = efPwStatus then [.ef efPwPriv]
  else if requested = efChCert then
    [.ef ((ram.selectedCert.map fun cur ↦ cur.fid).getD efCh1)]
  else [.ef (putDataFid requested)]

/-- Verifiers, what the counters start from, copies of the data encryption key, keys, the files of the
PIV applet, and the other records of the applet. -/
def protectedFids : List ℕ :=
  [efPw1, efRc, efPw3, efPivPin, efPivPuk, efPwRetries, efDek, efDekPw1, efDekRc, efDekPw3, efDekPwpiv,
    efPkSig, efPkDec, efPkAut, 0x10d4, 0x10d5, 0x10d6, efAesKey, efPivKeyAttestation, efMeta,
    efVaultKey] ++
  pivAdminFids ++ pivKeyFids ++ pivDataFids ++ pivMoreDataFids

/-- A protected record, or a file that is not in the table, as those of the key containers. -/
def IsProtected (fid : ℕ) : Prop :=
  fid ∈ protectedFids ∨ fileSearchByFid fid = none

/-- What a PUT DATA for an object may do. -/
structure PutDataConfined (d d' : CardDevice) (requested : ℕ) : Prop where
  /-- Only under the password. -/
  authorised : (∃ f, d'.read f ≠ d.read f) →
    if requested = efPrivDo1 ∨ requested = efPrivDo3 then d.ram.hasPw2 = true
    else d.ram.hasPw3 = true
  /-- Only the value of the object. -/
  confined : ∀ f ∉ valueFiles d.ram requested, d'.read f = d.read f
  /-- No protected record, but those that are the value of the resetting code or of the key derivation
  object. -/
  protects : ∀ fid, IsProtected fid → d'.read (.ef fid) ≠ d.read (.ef fid) →
    (requested = efResetCode ∨ requested = efKdf) ∧ .ef fid ∈ valueFiles d.ram requested
  /-- The status of the passwords keeps the counters beside it. -/
  counters : requested = efPwStatus → hasData d efPwPriv = true → ∀ i, 1 ≤ i → i < 7 →
    byteAt d' efPwPriv i = byteAt d efPwPriv i

/-! ### What the plan says -/

section Plan

variable {config : CardConfig} {d : CardDevice} {requested : ℕ} {data : Bytes} {plan : PutDataPlan}
  {ef : OpenpgpEf}

theorem selectedOr_eq (ram : CardRam) (ef : OpenpgpEf) : selectedOr ram ef = ef := by
  unfold selectedOr
  rcases ram.currentEF with - | cur
  · rfl
  · dsimp only
    split_ifs with h
    · exact OpenpgpEf.eq_of_fid h
    · rfl

/-- What stands behind a plan: the password, and an entry that may be written. -/
structure Planned (d : CardDevice) (requested : ℕ) (data : Bytes) (plan : PutDataPlan) : Prop where
  authorised : putDataAuthorized d.ram requested = true
  target : ∃ ef, fileSearchByFid (putDataFid requested) = some ef ∧
    fileAuthenticateAction d.ram.isUserAuthenticated ef aclOpUpdateErase = true ∧
    putDataTarget d.ram requested ef data = .ok plan

/-- A plan names the object, the password and the files. -/
theorem planned (h : putDataPlan config d requested data = .ok plan) :
    Planned d requested data plan := by
  unfold putDataPlan at h
  split_ifs at h with hauth hvalue
  rcases hef : fileSearchByFid (putDataFid requested) with - | ef
  · rw [hef] at h
    cases h
  rw [hef] at h
  dsimp only at h
  split_ifs at h with haction huif
  exact ⟨by simpa using hauth, ef, hef, by simpa using haction, h⟩

/-- The file of a plan is one of the value. -/
theorem Planned.mem_valueFiles (h : Planned d requested data (.file ef)) :
    .ef ef.fid ∈ valueFiles d.ram requested := by
  obtain ⟨-, entry, hentry, -, htarget⟩ := h
  have hfid := fileSearchByFid_eq_some.mp hentry
  unfold putDataTarget at htarget
  rcases eq_or_ne requested efKdf with hkdf | hkdf
  · rw [if_pos hkdf] at htarget
    split_ifs at htarget
    cases htarget
  rcases eq_or_ne requested efPwStatus with rfl | hstatus
  · rw [if_neg hkdf, if_pos rfl] at htarget
    split_ifs at htarget
    rcases hpriv : fileSearchByFid efPwPriv with - | priv
    · rw [hpriv] at htarget
      cases htarget
    · rw [hpriv] at htarget
      dsimp only at htarget
      rw [selectedOr_eq] at htarget
      cases htarget
      rw [fileSearchByFid_eq_some.mp hpriv]
      exact mem_cons_self ..
  rcases eq_or_ne requested efChCert with rfl | hcert
  · rw [if_neg hkdf, if_neg hstatus, if_pos rfl] at htarget
    show _ ∈ [CardFile.ef ((d.ram.selectedCert.map fun cur ↦ cur.fid).getD efCh1)]
    rcases hcur : d.ram.selectedCert with - | cur
    · rw [hcur] at htarget
      rcases hch : fileSearchByFid efCh1 with - | ch
      · rw [hch] at htarget
        cases htarget
      · rw [hch] at htarget
        cases htarget
        exact mem_singleton.mpr (congrArg _ (fileSearchByFid_eq_some.mp hch))
    · rw [hcur] at htarget
      cases htarget
      exact mem_cons_self ..
  · rw [if_neg hkdf, if_neg hstatus, if_neg hcert, selectedOr_eq] at htarget
    cases htarget
    rw [hfid, valueFiles, if_neg hkdf, if_neg hstatus, if_neg hcert]
    split_ifs with hreset
    · subst hreset
      exact mem_cons_self ..
    · exact mem_cons_self ..

/-- What is planned is not a record that is closed, nor a file that is not in the table. -/
theorem Planned.writable (h : Planned d requested data plan) :
    ∃ e, searchEntry (putDataFid requested) = some e ∧ e.acl ≠ aclNone := by
  obtain ⟨-, ef, hef, haction, -⟩ := h
  refine ⟨ef.toFileEntry, fileSearchByFid_eq_some.mp hef ▸ ef.found, fun hacl ↦ ?_⟩
  rw [fileAuthenticateAction, hacl] at haction
  cases haction

variable {fid : ℕ}

theorem fileSearchByFid_eq_none :
    fileSearchByFid fid = none ↔ searchEntry fid = none := by
  rw [fileSearchByFid, pmap_eq_none_iff]

theorem closed_of_protected (h : fid ∈ protectedFids) (hrecord : fid ∉ recordFids) :
    ∃ e, searchEntry fid = some e ∧ e.acl = aclNone := by
  have hall : ∀ fid ∈ protectedFids, fid ∈ recordFids ∨
      (searchEntry fid).map FileEntry.acl = some aclNone := by decide +kernel
  exact map_eq_some_iff.mp ((hall fid h).resolve_left hrecord)

theorem not_isProtected (h : fid ∉ protectedFids) (hfound : (searchEntry fid).isSome) :
    ¬IsProtected fid := by
  rintro (hmem | hnone)
  · exact h hmem
  · rw [fileSearchByFid_eq_none.mp hnone] at hfound
    cases hfound

theorem selectedCert_fid {ram : CardRam} {cur : OpenpgpEf} (h : ram.selectedCert = some cur) :
    cur.fid = efCh1 ∨ cur.fid = efCh2 ∨ cur.fid = efCh3 := by
  have hrange := of_decide_eq_true (filter_eq_some_iff.mp h).2
  simp only [efCh1, efCh2, efCh3] at hrange ⊢
  omega

/-- What is planned for the id of a data object is no protected record, but for the resetting code and
the key derivation object. -/
theorem Planned.eq_of_protected (h : Planned d requested data plan)
    (hrecord : requested ∉ recordFids) (hfid : IsProtected fid)
    (hmem : .ef fid ∈ valueFiles d.ram requested) :
    requested = efResetCode ∨ requested = efKdf := by
  unfold valueFiles at hmem
  split_ifs at hmem with hkdf hreset hstatus hcert
  · exact .inr hkdf
  · exact .inl hreset
  · cases mem_singleton.mp hmem
    exact absurd hfid (not_isProtected (by decide) (by decide))
  · cases mem_singleton.mp hmem
    rcases hcur : d.ram.selectedCert with - | cur
    · rw [hcur] at hfid
      exact absurd hfid (not_isProtected (by decide) (by decide))
    · rw [hcur] at hfid
      rcases selectedCert_fid hcur with hch | hch | hch <;> rw [map_some, hch] at hfid <;>
        exact absurd hfid (not_isProtected (by decide) (by decide))
  · cases mem_singleton.mp hmem
    obtain ⟨e, he, hacl⟩ := h.writable
    rcases hfid with hfid | hfid
    · by_cases halg : isAlgorithmAttr requested
      · -- the records of the algorithm attributes are not protected
        rw [isAlgorithmAttr, decide_eq_true_eq] at halg
        rcases halg with rfl | rfl | rfl <;> exact absurd hfid (by decide)
      · rw [putDataFid, if_neg hreset, if_neg halg] at hfid he
        obtain ⟨e', he', hclosed⟩ := closed_of_protected hfid hrecord
        rw [he] at he'
        cases he'
        exact absurd hclosed hacl
    · rw [fileSearchByFid_eq_none.mp hfid] at he
      cases he

end Plan

/-! ### A PUT DATA -/

section PutData

variable {C : CardCrypto} {config : CardConfig} {d : CardDevice} {requested : ℕ} {data : Bytes}
  {S : Set CardFile} {A : Outcome → Prop}

theorem WritesOnly.writeStatus {m : CardProg Unit} (h : WritesOnly S m) :
    WritesOnly S (writeStatus m) := by
  refine .bind (.resultOf h) fun r ↦ ?_
  rcases r with - | - <;> exact .pure _

theorem WritesOnly.putResetCode (C : CardCrypto) (data : Bytes) (h : ∀ f ∈ resetCodeFiles, f ∈ S) :
    WritesOnly S (putResetCode C data) := by
  refine .ite (fun _ ↦ .pure _) fun _ ↦ .bind (.modifyRam _) fun _ ↦
    .bind (.resultOf (loadDek C)) fun r ↦ ?_
  rcases r with - | -
  · exact .pure _
  refine .bind (.modifyRam _) fun _ ↦ .bind (sealDek C _) fun _ ↦
    .bind (.resultOf (pinTxnStage C (h _ (by decide)) _ _)) fun r ↦ ?_
  rcases r with - | -
  · exact .pure _
  refine .bind (.resultOf (.bind (storePin (h _ (by decide)) (h _ (by decide)) (h _ (by decide)) _ _)
    fun _ ↦ .bind (.notePin _) fun _ ↦ pinResetRetries (h _ (by decide)) _ _)) fun r ↦ ?_
  rcases r with - | - <;> exact .pure _

variable {ef : OpenpgpEf}

theorem WritesOnly.putDataWrite (C : CardCrypto) {data : Bytes} (h : .ef ef.fid ∈ S)
    (hreset : ef.fid = efRc → ∀ f ∈ resetCodeFiles, f ∈ S) :
    WritesOnly S (putDataWrite C requested ef data) := by
  refine .bind .getState fun d ↦ .ite (fun _ ↦ .pure _) fun _ ↦ .ite (fun _ ↦ .writeStatus ?_) fun _ ↦
    .ite (fun _ ↦ .writeStatus (filePut h _)) fun _ ↦ .ite (fun hrc ↦ ?_) fun _ ↦
      .writeStatus (filePut h _)
  · refine .ite (fun hrc ↦ ?_) fun _ ↦ flashClear h
    have hS := hreset hrc
    exact resetCodeDeactivate (hS _ (by decide)) (hS _ (by decide)) (hS _ (by decide))
      (hS _ (by decide))
  · exact putResetCode C data (hreset hrc)

/-- The record that a new status leaves has the bytes of the counters. -/
theorem putPwStatus_getD (hdata : hasData d efPwPriv = true) (value : UInt8) {i : ℕ} (hpos : 1 ≤ i)
    (hlt : i < 7) : (putPwStatus d value).getD i 0 = byteAt d efPwPriv i := by
  unfold putPwStatus byteAt
  rw [if_pos hdata, getD_eq_getElem?_getD, getElem?_set_ne (by omega),
    getElem?_take_of_lt hlt, getD_eq_getElem?_getD]
  rcases lt_or_ge i ((fileData d efPwPriv).take 7).length with hin | hout
  · rw [getElem?_append_left hin, getElem?_take_of_lt hlt]
  · have hlen : (fileData d efPwPriv).length ≤ i := by
      rw [length_take] at hout
      omega
    rw [getElem?_append_right hout, getElem?_eq_none hlen, getElem?_replicate]
    split <;> rfl

theorem wp_writeStatus {m : CardProg Unit} {P : CardDevice → Prop}
    (h : wp A m (fun _ ↦ P) (fun _ ↦ P) d) : wp A (writeStatus m) (fun _ ↦ P) (fun _ ↦ P) d := by
  refine wp_bind (wp_resultOf (wp_mono h (fun _ _ h ↦ wp_pure h) fun e d' h ↦ ?_))
  rcases e with r | -
  · exact wp_pure h
  · exact h

/-- A new status of the passwords. -/
theorem wp_putDataWrite_status (hef : ef.fid = efPwPriv) (hdata : data ≠ [])
    (hstatus : hasData d efPwPriv = true) :
    wp A (putDataWrite C efPwStatus ef data)
      (fun _ d' ↦ ∀ i, 1 ≤ i → i < 7 → byteAt d' efPwPriv i = byteAt d efPwPriv i)
      (fun _ d' ↦ ∀ i, 1 ≤ i → i < 7 → byteAt d' efPwPriv i = byteAt d efPwPriv i) d := by
  have hwritten : ∀ i, 1 ≤ i → i < 7 →
      byteAt (d.written (.ef efPwPriv) (some (putPwStatus d (data.headD 0)))) efPwPriv i =
        byteAt d efPwPriv i := by
    intro i hpos hlt
    rw [← putPwStatus_getD hstatus (data.headD 0) hpos hlt, byteAt, fileData,
      Device.read_written_self, getD_some]
  refine wp_get (wp_ite (fun _ ↦ wp_pure fun _ _ _ ↦ rfl) fun _ ↦ ?_)
  rw [if_neg hdata, if_pos rfl, hef]
  exact wp_writeStatus (wp_put (fun _ ↦ hwritten) (fun _ _ _ _ ↦ rfl) (fun _ ↦ hwritten)
    fun _ _ _ _ ↦ rfl)

theorem PutDataConfined.refl (d : CardDevice) (requested : ℕ) : PutDataConfined d d requested where
  authorised := fun ⟨_, h⟩ ↦ absurd rfl h
  confined _ _ := rfl
  protects _ _ h := absurd rfl h
  counters _ _ _ _ _ := rfl

/-- What follows from the plan once nothing but the value is written. -/
theorem PutDataConfined.of_planned {d' : CardDevice} {plan : PutDataPlan}
    (h : Planned d requested data plan) (hrecord : requested ∉ recordFids)
    (hconfined : ∀ f ∉ valueFiles d.ram requested, d'.read f = d.read f)
    (hcounters : requested = efPwStatus → hasData d efPwPriv = true → ∀ i, 1 ≤ i → i < 7 →
      byteAt d' efPwPriv i = byteAt d efPwPriv i) : PutDataConfined d d' requested where
  authorised _ := by
    have hauth := h.authorised
    rw [putDataAuthorized] at hauth
    split_ifs at hauth ⊢ <;> exact hauth
  confined := hconfined
  protects fid hfid hchanged := by
    have hmem : .ef fid ∈ valueFiles d.ram requested := by
      by_contra hnot
      exact hchanged (hconfined _ hnot)
    exact ⟨h.eq_of_protected hrecord hfid hmem, hmem⟩
  counters := hcounters

/-- The value of the resetting code is written for no other object. -/
theorem Planned.resetCodeFiles_subset (h : Planned d requested data (.file ef))
    (hrecord : requested ∉ recordFids) (hrc : ef.fid = efRc) :
    ∀ f ∈ resetCodeFiles, f ∈ valueFiles d.ram requested := by
  have hmem := h.mem_valueFiles
  rw [hrc] at hmem
  rcases h.eq_of_protected hrecord (.inl (by decide)) hmem with rfl | rfl
  · exact fun f hf ↦ hf
  · intro f hf
    have hsubset : ∀ f ∈ resetCodeFiles, f ∈ kdfUpdateFiles := by decide
    exact hsubset f hf

theorem Planned.eq_efKdf (h : Planned d requested data .kdf) : requested = efKdf := by
  obtain ⟨-, ef, -, -, htarget⟩ := h
  by_contra hkdf
  rw [putDataTarget, if_neg hkdf] at htarget
  split_ifs at htarget
  · cases htarget
  · revert htarget
    rcases d.ram.selectedCert with - | cur <;> intro htarget <;> cases htarget
  · cases htarget

/-- A PUT DATA of the status of the passwords is one for the record `EF_PW_PRIV`. -/
theorem Planned.status (h : Planned d efPwStatus data (.file ef)) :
    ef.fid = efPwPriv ∧ data ≠ [] := by
  have hmem := h.mem_valueFiles
  refine ⟨CardFile.ef.inj (mem_singleton.mp hmem), ?_⟩
  rintro rfl
  obtain ⟨-, entry, -, -, htarget⟩ := h
  cases htarget

/-- **A PUT DATA for a data object** is confined. -/
theorem putData_confined (C : CardCrypto) (config : CardConfig) (d : CardDevice) (requested : ℕ)
    (data : Bytes) (hrecord : requested ∉ recordFids) :
    PutDataConfined d ((cmdPutData C config requested data).final d []) requested := by
  refine final_of_wp (I := fun d' ↦ PutDataConfined d d' requested) (wp_get ?_) []
  rcases hplan : putDataPlan config d requested data with sw | plan
  · exact wp_pure (.refl d requested)
  have hplanned := planned hplan
  rcases plan with - | ef
  · obtain rfl := hplanned.eq_efKdf
    have hwrites : WritesOnly {f | f ∈ valueFiles d.ram efKdf} (openpgpKdfUpdate C data) :=
      .openpgpKdfUpdate C data fun f hf ↦ hf
    exact wp_mono (hwrites d.read _ d fun _ _ ↦ rfl)
      (fun _ _ h ↦ .of_planned hplanned hrecord h.1 fun h ↦ absurd h (by decide))
      fun _ _ h ↦ .of_planned hplanned hrecord h fun h ↦ absurd h (by decide)
  · have hwrites : WritesOnly {f | f ∈ valueFiles d.ram requested}
        (putDataWrite C requested ef data) :=
      .putDataWrite C hplanned.mem_valueFiles (hplanned.resetCodeFiles_subset hrecord)
    have hconfined := hwrites d.read (fun _ ↦ True) d fun _ _ ↦ rfl
    by_cases hstatus : requested = efPwStatus ∧ hasData d efPwPriv = true
    · obtain ⟨rfl, hdata⟩ := hstatus
      obtain ⟨hef, hne⟩ := hplanned.status
      exact wp_mono (wp_and hconfined (wp_putDataWrite_status hef hne hdata))
        (fun _ _ h ↦ .of_planned hplanned hrecord h.1.1 fun _ _ ↦ h.2)
        fun _ _ h ↦ .of_planned hplanned hrecord h.1 fun _ _ ↦ h.2
    · exact wp_mono hconfined
        (fun _ _ h ↦ .of_planned hplanned hrecord h.1 fun h h' ↦ absurd ⟨h, h'⟩ hstatus)
        fun _ _ h ↦ .of_planned hplanned hrecord h fun h h' ↦ absurd ⟨h, h'⟩ hstatus

end PutData

/-! ### Who reads and writes -/

/-- **The access to the data objects is controlled**: a PUT DATA is confined, and no sequence of GET
commands tells two states apart that differ in secrets only. -/
theorem data_access_controlled (C : CardCrypto) (config : CardConfig) :
    (∀ d requested data, requested ∉ recordFids →
      PutDataConfined d ((cmdPutData C config requested data).final d []) requested) ∧
    ∀ ram read read', SameButSecrets ram read read' → ∀ cmds,
      readRun config read ram cmds = readRun config read' ram cmds :=
  ⟨putData_confined C config, fun _ _ _ h cmds ↦ readRun_same h cmds⟩

/-- What the contents depend on, to run the commands with. -/
def plainCardConfig : CardConfig where
  serial := [1, 2, 3, 4]
  eddsa := false

/-- A card whose PW3 has been given. -/
def cardPw3 : CardDevice :=
  cardStart.setRam fun ram ↦ { ram with
    app := some .openpgp
    hasPw3 := true
    sessionPw3 := plainKey defaultPw3
    isUserAuthenticated := true }

/-- A language preference, and the answers about a card with other PINs. -/
theorem data_access_controlled_once :
    PutDataConfined cardPw3
        ((cmdPutData plainCardCrypto plainCardConfig efLangPref [0x65, 0x6e]).final cardPw3 [])
        efLangPref ∧
      readRun plainCardConfig (fun fid ↦ cardPw3.read (.ef fid)) cardRamStart
          [.getData ⟨0, 0xc4, 0⟩, .getData ⟨0, 0x6e, 0⟩] =
        readRun plainCardConfig
          (fun fid ↦ if fid = efPw1 then some [7] else cardPw3.read (.ef fid)) cardRamStart
          [.getData ⟨0, 0xc4, 0⟩, .getData ⟨0, 0x6e, 0⟩] := by
  have hsame : SameButSecrets cardRamStart (fun fid ↦ cardPw3.read (.ef fid))
      fun fid ↦ if fid = efPw1 then some [7] else cardPw3.read (.ef fid) := by
    refine ⟨fun fid hfid ↦ (if_neg ?_).symm, by decide⟩
    rintro rfl
    exact hfid (.inl (by decide))
  exact ⟨(data_access_controlled plainCardCrypto plainCardConfig).1 cardPw3 _ _ (by decide),
    (data_access_controlled plainCardCrypto plainCardConfig).2 _ _ _ hsame _⟩

/-- The card after a resetting code has been put. -/
def cardResetCode : CardDevice :=
  (cmdPutData plainCardCrypto plainCardConfig efResetCode defaultPw3).final cardPw3 []

/-- A resetting code that is put is a verifier with a copy of the data encryption key, and the key
information tells whether there is a private key. -/
theorem data_access_of_records :
    cardResetCode.read (.ef efRc) ≠ cardPw3.read (.ef efRc) ∧
      cardResetCode.read (.ef efDekRc) ≠ cardPw3.read (.ef efDekRc) ∧
      readRun plainCardConfig (fun _ ↦ none) cardRamStart [.getData ⟨0, 0xde, 0⟩] ≠
        readRun plainCardConfig (fun fid ↦ if fid = efPkSig then some [7] else none) cardRamStart
          [.getData ⟨0, 0xde, 0⟩] := by
  decide +kernel

end PicoAll.Openpgp
