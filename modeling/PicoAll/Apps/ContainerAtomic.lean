import PicoAll.Apps.ContainerApplication

/-!
# When an update is atomic

An update that stops early leaves the container as it was if it has not written on a record of the
committed manifest. The layouts that number their records by slot do not see to that: an object that
is not written again stays in the slot it was written to, and an update after the next one writes its
record there, over the committed one (`vault_update_overwrites_committed`).

So the histories here are those in which no call allocates the file of a committed record
(`SafeCall`). Two things besides are left out, which lead to the same end: a file write that takes
effect and reports an error all the same, and a deletion of the container that does not run to its
end; each of them leaves a manifest behind whose records a later update puts back.
-/

namespace PicoAll

open FaultProgram BigEndian

section Atomic

variable (layout : FileObjectContainerLayout) (containerId : UInt32)
  (crypto : FileObjectContainerCrypto) (legacy : Option FileObjectContainerCrypto)

/-- The record files that the committed manifest names. -/
def CommittedRecord (files : Files) (fid : ℕ) : Prop :=
  CurrentRecord layout containerId (containerManifest layout containerId crypto legacy files) fid

/-- The condition on a call: no file that its layout allocates is that of a committed record, and
no file operation reports an error after it has taken effect. -/
structure SafeCall (files : Files) (call : ContainerCall) (os : List Outcome) : Prop where
  fresh : CallFresh layout containerId crypto (CommittedRecord layout containerId crypto legacy files)
    (containerManifest layout containerId crypto legacy files) files call
  notLate : ∀ o ∈ os, o ≠ .late

/-- The data that a call writes, on top of the data there was. -/
def ContainerCall.newData (data : UInt16 × UInt16 → Except Status Bytes) :
    ContainerCall → UInt16 × UInt16 → Except Status Bytes
  | update writes _, key =>
    match writes.find? (·.key == key) with
    | some write => .ok write.data
    | none => data key
  | remove objectType objectTag, key =>
    if key = (objectType, objectTag) then .error .fileNotFound else data key

end Atomic

/-- The states of a container. It starts out absent; calls fail or lose power anywhere; deletions
run to their end; and the rest of the system, which a reset is part of, leaves the manifests and the
committed records alone. -/
inductive ContainerReachable (sha256 : Bytes → Bytes) (app : ContainerApplication)
    (crypto : FileObjectContainerCrypto) (legacy : Option FileObjectContainerCrypto) :
    FsState TxnRam → Prop
  | absent {s : FsState TxnRam}
      (h : ContainerAbsent (app.layout sha256) app.containerId s.files) :
      ContainerReachable sha256 app crypto legacy s
  | call {s : FsState TxnRam} (h : ContainerReachable sha256 app crypto legacy s)
      (call : ContainerCall) (os : List Outcome) (hwrites : ∀ write ∈ call.writes, app.Writes write)
      (hsafe : SafeCall (app.layout sha256) app.containerId crypto legacy s.files call os) :
      ContainerReachable sha256 app crypto legacy
        ((call.run (app.layout sha256) app.containerId crypto legacy).final s os)
  | delete {s : FsState TxnRam} (h : ContainerReachable sha256 app crypto legacy s)
      (os : List Outcome) (hok : (fileObjectContainerDelete (app.layout sha256) app.containerId
        crypto legacy).result s os = .ok ()) :
      ContainerReachable sha256 app crypto legacy
        ((fileObjectContainerDelete (app.layout sha256) app.containerId crypto legacy).final s os)
  | other {s s' : FsState TxnRam} (h : ContainerReachable sha256 app crypto legacy s)
      (hmanifest : ∀ slot, s'.files ((app.layout sha256).manifestFid app.containerId slot) =
        s.files ((app.layout sha256).manifestFid app.containerId slot))
      (hrecord : ∀ fid, CommittedRecord (app.layout sha256) app.containerId crypto legacy s.files
        fid → s'.files fid = s.files fid) :
      ContainerReachable sha256 app crypto legacy s'

section Proofs

variable {layout : FileObjectContainerLayout} {containerId : UInt32}
  {crypto : FileObjectContainerCrypto} {legacy : Option FileObjectContainerCrypto}
  {val : UInt16 × UInt16 → Bytes} {current : Option (Fin 2 × FileObjectManifest)}

variable {files : Files} {call : ContainerCall}

/-- The committed records are files of the container. -/
theorem ContainerIs.containerFid (h : ContainerIs layout containerId crypto files val current)
    {fid : ℕ} (hfid : CurrentRecord layout containerId current fid) :
    ContainerFid layout containerId fid := by
  obtain ⟨object, hobject, hrecord⟩ := hfid
  rcases current with - | ⟨slot, manifest⟩
  · cases hobject
  · exact .inr ⟨object, (ContainerHolds.records h object hobject).valid, hrecord⟩

theorem ContainerIs.congr {files' : Files}
    (h : ContainerIs layout containerId crypto files val current)
    (hmanifest : ∀ slot, files' (layout.manifestFid containerId slot) =
      files (layout.manifestFid containerId slot))
    (hrecord : ∀ fid, CurrentRecord layout containerId current fid → files' fid = files fid) :
    ContainerIs layout containerId crypto files' val current := by
  rcases current with - | ⟨slot, manifest⟩
  · exact fun slot ↦ SlotEmpty.congr (h slot) (hmanifest slot)
  · refine ⟨(ContainerHolds.manifestFile h).congr (hmanifest slot), fun object hobject ↦ ?_, ?_⟩
    · exact (ContainerHolds.records h object hobject).congr rfl rfl rfl fun fid hfid ↦
        hrecord fid ⟨object, hobject, hfid⟩
    · rcases ContainerHolds.other h with hempty | ⟨older, hfile, hlt⟩
      · exact .inl (hempty.congr (hmanifest _))
      · exact .inr ⟨older, hfile.congr (hmanifest _), hlt⟩

variable {Allowed : FileObjectContainerWrite → Prop}
  (spec : ContainerLayoutSpec layout containerId Allowed)

include spec in
/-- **A safe call** leaves the container at what it was, or at what the call makes of it. -/
theorem safeCall_cases {s : FsState TxnRam} {os : List Outcome}
    (hcurrent : ContainerIs layout containerId crypto s.files val current)
    (hwrites : ∀ write ∈ call.writes, Allowed write)
    (hsafe : SafeCall layout containerId crypto legacy s.files call os) :
    let m := call.run layout containerId crypto legacy
    (m.result s os ≠ .ok () ∧ UpdateStopped layout containerId
        (CurrentRecord layout containerId current) current s (m.final s os)) ∨
      ∃ val' next, CallCommitted layout containerId crypto current val call (m.final s os).files
        val' next := by
  intro m
  have hmanifest := hcurrent.manifest_eq legacy spec.valid
  have hrecords : CommittedRecord layout containerId crypto legacy s.files =
      CurrentRecord layout containerId current := by
    funext fid
    rw [CommittedRecord, hmanifest]
  have hfresh := hsafe.fresh
  rw [hrecords, hmanifest] at hfresh
  rcases run_of_wp (m := m) (wp_containerCall spec (fun fid ↦ hcurrent.containerFid) hcurrent
    hwrites hfresh spec.cleanupOk) hsafe.notLate with ⟨-, -, val', next, h, -⟩ | ⟨e, he, h⟩
  · exact .inr ⟨val', next, h⟩
  · rcases h fun hlate ↦ hlate rfl with hstopped | hcommitted
    · refine .inl ⟨?_, hstopped⟩
      rw [he]
      exact nofun
    · exact .inr hcommitted

/-- **The invariant along every history**: the container is at something. -/
theorem ContainerReachable.containerIs {sha256 : Bytes → Bytes} {app : ContainerApplication}
    {s : FsState TxnRam} (h : ContainerReachable sha256 app crypto legacy s) :
    ∃ val current, ContainerIs (app.layout sha256) app.containerId crypto s.files val current := by
  have spec := app.spec sha256
  induction h with
  | absent h => exact ⟨fun _ ↦ [], none, h⟩
  | call h call os hwrites hsafe ih =>
    obtain ⟨val, current, hcurrent⟩ := ih
    rcases safeCall_cases spec hcurrent hwrites hsafe with ⟨-, hstopped⟩ | ⟨val', next, h⟩
    · exact ⟨val, current, hstopped.containerIs spec hcurrent⟩
    · exact ⟨val', _, h.holds⟩
  | delete h os hok ih =>
    obtain ⟨val, current, hcurrent⟩ := ih
    exact ⟨fun _ ↦ [], none,
      (final_of_result_ok (wp_fileObjectContainerDelete spec hcurrent) hok).absent⟩
  | other h hmanifest hrecord ih =>
    obtain ⟨val, current, hcurrent⟩ := ih
    refine ⟨val, current, hcurrent.congr hmanifest fun fid hfid ↦ hrecord fid ?_⟩
    rw [CommittedRecord, hcurrent.manifest_eq legacy spec.valid]
    exact hfid

/-- Where records are numbered by slot, the condition is about the numbers. -/
theorem SlotNumbering.callFresh {number : Fin 2 → UInt16 × UInt16 → ℕ}
    {Key : UInt16 × UInt16 → Prop} (h : SlotNumbering layout containerId Allowed number Key)
    {keep : ℕ → Prop}
    (hnumber : ∀ write ∈ call.writes, layout.writeValid write = true →
      ¬keep (number (targetSlot current) write.key)) :
    CallFresh layout containerId crypto keep current files call := by
  intro write hwrite hvalid s _ os r hr
  rw [h.allocate _ _ _ (h.key_of_writeValid write hvalid)] at hr
  cases hr
  exact hnumber write hwrite hvalid

/-- The record of an HSM key never lands on a file that is there: every call meets the condition. -/
theorem hsmKey_safeCall {sha256 : Bytes → Bytes} {keyId : UInt8} {s : FsState TxnRam}
    (hreach : ContainerReachable sha256 (.hsmKey keyId) crypto legacy s) {os : List Outcome}
    (hlate : ∀ o ∈ os, o ≠ .late) :
    SafeCall (hsmKeyContainerLayout sha256) keyId.toUInt32 crypto legacy s.files call os := by
  refine ⟨fun write _ _ s' hsame os' r hr hrecord ↦ ?_, hlate⟩
  obtain ⟨val, current, hcurrent⟩ := hreach.containerIs
  have hpresent : s.files r.2 ≠ none := by
    have hmanifest : containerManifest (hsmKeyContainerLayout sha256) keyId.toUInt32 crypto legacy
        s.files = current := hcurrent.manifest_eq legacy rfl
    obtain ⟨object, hobject, hfid⟩ := hrecord
    rw [hmanifest] at hobject
    rcases current with - | ⟨slot, manifest⟩
    · cases hobject
    · exact (ContainerHolds.records hcurrent object hobject).present hfid
  rcases run_of_wp (@wp_hsmKeyLayoutRecordAllocate sha256 keyId.toUInt32 (fun _ ↦ True) _ write
    crypto.auth s') (fun _ _ ↦ trivial) with ⟨r', hr', -, -, -, -, hfree⟩ | ⟨e, he, -⟩
  · obtain rfl := Except.ok.inj (hr'.symm.trans hr)
    exact hpresent ((hsame _ hrecord).symm.trans hfree)
  · cases he.symm.trans hr

end Proofs

/-! ### An update that overwrites a committed record -/

theorem length_exampleTag (input : Bytes) : (beBytes 16 (beNat input)).length = authTagSize :=
  length_beBytes _ _

/-- Stand-ins to run the containers with: tags that depend on all of their input, and records stored
as they are. -/
def exampleAuth : FileObjectAuthenticator where
  tag input := beBytes 16 (beNat input)
  length_tag := length_exampleTag

@[inherit_doc exampleAuth]
def exampleProtector : FileObjectRecordProtector where
  sealRecord nonce aad plaintext := (plaintext, exampleAuth.tag (nonce ++ aad ++ plaintext))
  unsealRecord nonce aad stored tag :=
    if exampleAuth.tag (nonce ++ aad ++ stored) = tag then .ok stored else .error .wrongData
  length_stored _ _ _ := rfl
  length_tag _ _ _ := exampleAuth.length_tag _
  unseal_seal _ _ _ := if_pos rfl

@[inherit_doc exampleAuth]
def exampleCrypto : FileObjectContainerCrypto :=
  ⟨exampleAuth, exampleProtector⟩

@[inherit_doc exampleAuth]
def exampleSha256 (data : Bytes) : Bytes :=
  beBytes 32 (beNat data)

/-- The writes of the vault: the wrapped key of an application, and the label. -/
def vaultWrapWrite (appId : UInt16) (record : Bytes) : FileObjectContainerWrite where
  objectType := vaultObjectWrap
  objectTag := appId
  data := record
  policyId := vaultPolicyId
  keyDomain := 0
  protection := protectionAeadSecret
  flags := flagMutable ||| flagNonExportable
  transactionGroup := 0

@[inherit_doc vaultWrapWrite]
def vaultLabelWrite (label : Bytes) : FileObjectContainerWrite where
  objectType := vaultObjectLabel
  objectTag := 0
  data := label
  policyId := vaultPolicyId
  keyDomain := 0
  protection := protectionAuthenticatedPublic
  flags := flagMutable
  transactionGroup := 0

end PicoAll
