import PicoAll.Apps.ContainerAtomic

/-!
# A container is a map

What a container is for: it maps object keys to data, and counts the calls that changed it. The
calls that succeed, on any of the containers, do to the files what they do to the map
(`container_refines_map`).

As for the files themselves, no record that the manifest names is ever missing. The other way round
it depends on the layout: four of them delete every record that the manifest does not name; those of
the OpenPGP keys and of the HSM keys keep older records, the former until their file is written
again (`openpgpKey_keeps_older_records`).
-/

namespace PicoAll

open FaultProgram BigEndian

/-- The contents of a container. -/
structure ContainerContents where
  /-- The number of calls since the container came to be; zero if there is none. -/
  generation : ℕ
  /-- The data of its objects. -/
  objects : UInt16 × UInt16 → Option Bytes

def ContainerContents.empty : ContainerContents :=
  ⟨0, fun _ ↦ none⟩

/-- The contents after a call. -/
def ContainerContents.after (contents : ContainerContents) (call : ContainerCall) :
    ContainerContents :=
  ⟨contents.generation + 1, call.effect contents.objects⟩

/-- The histories of a container in which every call succeeds, with the outcomes of the file
operations in `A`. The rest of the system leaves its files alone. -/
inductive ContainerHistory (A : Outcome → Prop) (sha256 : Bytes → Bytes)
    (app : ContainerApplication) (crypto : FileObjectContainerCrypto)
    (legacy : Option FileObjectContainerCrypto) : ContainerContents → FsState TxnRam → Prop
  | fresh {s : FsState TxnRam}
      (h : ∀ fid, ContainerFid (app.layout sha256) app.containerId fid → s.files fid = none) :
      ContainerHistory A sha256 app crypto legacy .empty s
  | call {contents : ContainerContents} {s : FsState TxnRam}
      (h : ContainerHistory A sha256 app crypto legacy contents s) (call : ContainerCall)
      (os : List Outcome) (hos : ∀ o ∈ os, A o) (hwrites : ∀ write ∈ call.writes, app.Writes write)
      (hok : (call.run (app.layout sha256) app.containerId crypto legacy).result s os = .ok ()) :
      ContainerHistory A sha256 app crypto legacy (contents.after call)
        ((call.run (app.layout sha256) app.containerId crypto legacy).final s os)
  | delete {contents : ContainerContents} {s : FsState TxnRam}
      (h : ContainerHistory A sha256 app crypto legacy contents s) (os : List Outcome)
      (hos : ∀ o ∈ os, A o) (hok : (fileObjectContainerDelete (app.layout sha256) app.containerId
        crypto legacy).result s os = .ok ()) :
      ContainerHistory A sha256 app crypto legacy .empty
        ((fileObjectContainerDelete (app.layout sha256) app.containerId crypto legacy).final s os)
  | other {contents : ContainerContents} {s s' : FsState TxnRam}
      (h : ContainerHistory A sha256 app crypto legacy contents s)
      (hsame : ∀ fid, ContainerFid (app.layout sha256) app.containerId fid →
        s'.files fid = s.files fid) :
      ContainerHistory A sha256 app crypto legacy contents s'

section Proofs

variable {layout : FileObjectContainerLayout} {containerId : UInt32}
  {crypto : FileObjectContainerCrypto} {legacy : Option FileObjectContainerCrypto}

/-- A file that an object of the container may have its record in. -/
def RecordFid (layout : FileObjectContainerLayout) (containerId : UInt32) (fid : ℕ) : Prop :=
  ∃ object, layout.descriptorValid containerId object = true ∧
    layout.recordFid containerId object = .ok fid

/-- No record file is there that is not one of the current manifest's. -/
def NoOrphans (layout : FileObjectContainerLayout) (containerId : UInt32) (files : Files)
    (current : Option (Fin 2 × FileObjectManifest)) : Prop :=
  ∀ fid, RecordFid layout containerId fid → files fid ≠ none →
    CurrentRecord layout containerId current fid

/-- **The refinement**: the container is at a manifest of the right generation with the right data,
and has no orphans where `exact` is the case. -/
structure ContentsAre (layout : FileObjectContainerLayout) (containerId : UInt32)
    (crypto : FileObjectContainerCrypto) (exact : Prop) (contents : ContainerContents)
    (files : Files) (val : UInt16 × UInt16 → Bytes)
    (current : Option (Fin 2 × FileObjectManifest)) : Prop where
  is : ContainerIs layout containerId crypto files val current
  generation_eq : (currentGeneration current).toNat = contents.generation
  previous_eq : ∀ slot manifest, current = some (slot, manifest) →
    manifest.previousGeneration.toNat + 1 = contents.generation
  data_eq : ∀ key, currentData current val key = contents.objects key
  noOrphans : exact → NoOrphans layout containerId files current

variable {Allowed : FileObjectContainerWrite → Prop} {val : UInt16 × UInt16 → Bytes}
  {current : Option (Fin 2 × FileObjectManifest)} {s s₁ : FsState TxnRam}
  {next : FileObjectManifest} {candidates : Fin 2 → Option FileObjectManifest}
  {contents : ContainerContents}

/-- A completed clean-up leaves no orphans where there were none before. -/
theorem NoOrphans.of_retires (spec : ContainerLayoutSpec layout containerId Allowed)
    {s' : FsState TxnRam} (hcurrent : ContainerIs layout containerId crypto s.files val current)
    (h : NoOrphans layout containerId s.files current)
    (hbefore : BeforeRetire layout containerId current s s₁ next candidates)
    (hretires : RetiresUnreferenced layout containerId candidates next s₁ s') :
    NoOrphans layout containerId s'.files (some (targetSlot current, next)) := by
  intro fid hfid hpresent
  obtain ⟨object, hvalid, hrecord⟩ := hfid
  have hpresent₁ : s₁.files fid ≠ none := fun hnone ↦ hpresent (hretires.shrunk.none hnone)
  rcases hbefore.present fid (.inr ⟨object, hvalid, hrecord⟩) hpresent₁ with hold | hnew | hmanifest
  · -- a record there was before is one of the current manifest's, and the clean-up saw to it
    obtain ⟨object', hobject', hrecord'⟩ := h fid ⟨object, hvalid, hrecord⟩ hold
    rcases current with - | ⟨slot, manifest⟩
    · cases hobject'
    · have hallocated := (ContainerHolds.records hcurrent object' hobject').allocated
      rcases hretires.gone slot manifest (hbefore.candidate_eq slot manifest rfl) object' hobject'
        hallocated fid hrecord' with hgone | hnamed
      · exact absurd hgone hpresent
      · exact hnamed
  · exact hnew
  · exact absurd hmanifest (spec.record_ne_manifest object fid _ hvalid hrecord)

/-- A call that took place keeps the refinement. -/
theorem ContentsAre.call (spec : ContainerLayoutSpec layout containerId Allowed) {exact : Prop}
    {s' : FsState TxnRam} {val' : UInt16 × UInt16 → Bytes} {call : ContainerCall}
    (hat : ContentsAre layout containerId crypto exact contents s.files val current)
    (hcommitted : CallCommitted layout containerId crypto current val call s'.files val' next)
    (hbefore : BeforeRetire layout containerId current s s₁ next candidates)
    (hretires : exact → RetiresUnreferenced layout containerId candidates next s₁ s') :
    ContentsAre layout containerId crypto exact (contents.after call) s'.files val'
      (some (targetSlot current, next)) := by
  refine ⟨hcommitted.holds, ?_, ?_, fun key ↦ ?_, fun hexact ↦ ?_⟩
  · rw [ContainerContents.after, ← hat.generation_eq]
    exact hcommitted.generation_eq
  · rintro _ _ ⟨⟩
    rw [hcommitted.previous_eq, hat.generation_eq]
    rfl
  · rw [hcommitted.data_eq, ContainerContents.after, funext hat.data_eq]
  · exact (hat.noOrphans hexact).of_retires spec hat.is hbefore (hretires hexact)

/-- The refinement is about the container's files only. -/
theorem ContentsAre.congr {exact : Prop} {files files' : Files}
    (hat : ContentsAre layout containerId crypto exact contents files val current)
    (hsame : ∀ fid, ContainerFid layout containerId fid → files' fid = files fid) :
    ContentsAre layout containerId crypto exact contents files' val current := by
  refine ⟨hat.is.congr (fun slot ↦ hsame _ (.inl ⟨slot, rfl⟩))
    fun fid hfid ↦ hsame fid (hat.is.containerFid hfid), hat.generation_eq, hat.previous_eq,
    hat.data_eq, fun hexact fid hfid hpresent ↦ ?_⟩
  rw [hsame fid (.inr hfid)] at hpresent
  exact hat.noOrphans hexact fid hfid hpresent

/-- Every history keeps the refinement. -/
theorem ContainerHistory.contentsAre {A : Outcome → Prop} {sha256 : Bytes → Bytes}
    {app : ContainerApplication} (h : ContainerHistory A sha256 app crypto legacy contents s) :
    ∃ val current, ContentsAre (app.layout sha256) app.containerId crypto
      (app.sweeps = true ∧ ∀ o, A o → o = .ok) contents s.files val current := by
  have spec := app.spec sha256
  induction h with
  | fresh h =>
    refine ⟨fun _ ↦ [], none, fun slot ↦ ?_, rfl, nofun, fun _ ↦ rfl, fun _ fid hfid hpresent ↦ ?_⟩
    · rw [SlotEmpty, h _ (.inl ⟨slot, rfl⟩)]
      rfl
    · exact absurd (h fid (.inr hfid)) hpresent
  | @call contents s h call os hos hwrites hok ih =>
    obtain ⟨val, current, hat⟩ := ih
    have hclean : CleanupOk (app.layout sha256) app.containerId A True
        fun candidates next _ s s' ↦ app.sweeps = true ∧ (∀ o, A o → o = .ok) →
          RetiresUnreferenced (app.layout sha256) app.containerId candidates next s s' := by
      refine ⟨spec.cleanupOk.activate, fun candidates next currentSlot slot s₁ hcandidates ↦ ?_⟩
      have hretire := spec.retire A candidates next currentSlot slot s₁ hcandidates
      by_cases hexact : app.sweeps = true ∧ ∀ o, A o → o = .ok
      · have hsweeps := app.layoutSweeps sha256 hexact.1 candidates next currentSlot slot s₁
          hcandidates
        exact wp_mono (wp_anti hsweeps hexact.2 hretire) (fun _ _ h _ ↦ h)
          fun _ _ _ ↦ .of_prop trivial
      · exact wp_mono hretire (fun _ _ _ h ↦ absurd h hexact) fun _ _ _ ↦ .of_prop trivial
    have hfresh : CallFresh (app.layout sha256) app.containerId crypto (fun _ ↦ False) current
        s.files call := fun _ _ _ _ _ _ _ _ ↦ id
    have hcall := @wp_containerCall _ _ crypto legacy _ _ _ spec A (fun _ ↦ False) s _
      (fun _ ↦ False.elim) hat.is call hwrites hfresh hclean
    rcases run_of_wp hcall hos with
      ⟨-, -, val', next, hcommitted, candidates, s₁, hbefore, hretires⟩ | ⟨e, he, -⟩
    · exact ⟨val', _, hat.call spec hcommitted hbefore hretires⟩
    · rw [hok] at he
      cases he
  | delete h os hos hok ih =>
    obtain ⟨val, current, hat⟩ := ih
    have hdeleted := final_of_result_ok (wp_fileObjectContainerDelete spec hat.is) hok
    refine ⟨fun _ ↦ [], none, hdeleted.absent, rfl, nofun, fun _ ↦ rfl,
      fun hexact fid hfid hpresent ↦ ?_⟩
    rcases hdeleted.shrunk fid (.inr hfid) with hsame | hnone
    · rw [hsame] at hpresent
      have hgone := hdeleted.records fid (hat.noOrphans hexact fid hfid hpresent)
      exact absurd (hsame.symm.trans hgone) hpresent
    · exact absurd hnone hpresent
  | other h hsame ih =>
    obtain ⟨val, current, hat⟩ := ih
    exact ⟨val, current, hat.congr hsame⟩

end Proofs

end PicoAll
