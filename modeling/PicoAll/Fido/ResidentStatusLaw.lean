import PicoAll.Fido.ResidentStatusSlot

/-!
# The status of a resident credential only grows

Once a credential is revoked, or its expiry is recorded, no later operation but its deletion makes it
usable again: in every order, with the keys at hand or not, at any time of the clock, and with
failures and power cuts anywhere. An update of the status changes nothing else of the credential; if
it is interrupted the container may be lost, with all of its objects.

An operation of the flash that takes effect and reports an error all the same is left out here. A
deletion of the slot that does not run to its end is not part of the past of a credential, and the key
of its container is one key throughout.
-/

namespace PicoAll

open FaultProgram BigEndian

/-! ### What an update of the status changes -/

section Update

variable {sha256 : Bytes → Bytes} {crypto : FileObjectContainerCrypto} {C : CredentialContext}
  {slot : UInt8} {A : Outcome → Prop} {s : FsState TxnRam} {files files' : Files}
  {val val' : UInt16 × UInt16 → Bytes} {current current' : Option (Fin 2 × FileObjectManifest)}

theorem ResidentLinked.objectSize (h : ResidentLinked sha256 crypto slot files val current)
    (objectType : UInt16) (legacy : Option FileObjectContainerCrypto) :
    fileObjectContainerObjectSize (residentContainerLayout sha256) slot.toUInt32 files objectType 0
      crypto legacy =
      (readResult (currentData current val (objectType, 0))).map List.length := by
  rw [fileObjectContainerObjectSize]
  rcases current with - | ⟨i, manifest⟩
  · rw [ContainerAbsent.load (residentLayoutSpec slot).valid h.is]
    rfl
  obtain ⟨state, hload, hstate⟩ :=
    @ContainerHolds.load _ _ _ legacy _ _ _ _ (residentLayoutSpec slot).valid h.is
  rw [hload, ok_bind, hstate.current_eq, currentData]
  rcases hfind : fileObjectContainerFind manifest objectType 0 with - | object
  · have hnone : ¬(objectType, (0 : UInt16)) ∈
        (currentObjects (some (i, manifest))).map (·.key) := by
      intro hmem
      obtain ⟨object, hobject, hkey⟩ := List.mem_map.mp hmem
      rw [fileObjectContainerFind, List.find?_eq_none] at hfind
      exact hfind object hobject (beq_iff_eq.mpr hkey)
    rw [if_neg hnone]
    rfl
  · obtain ⟨hobject, hkey⟩ := mem_of_containerFind hfind
    have hmem : (objectType, (0 : UInt16)) ∈ (currentObjects (some (i, manifest))).map (·.key) :=
      List.mem_map.mpr ⟨object, hobject, hkey⟩
    have hlength := (ContainerHolds.records h.is object hobject).sizes.length_eq
    rw [hkey] at hlength
    rw [if_pos hmem]
    simp only [readResult, Except.map, hlength]
    rfl

/-- The other objects of the credential are read as before. -/
def OtherObjectsKept (sha256 : Bytes → Bytes) (crypto : FileObjectContainerCrypto) (slot : UInt8)
    (files files' : Files) : Prop :=
  ∀ C, ContextFits sha256 crypto C → ∀ objectType ≠ residentObjectState,
    credentialResidentContainerReadAlloc C files' slot objectType =
      credentialResidentContainerReadAlloc C files slot objectType

/-- **The frame of a status update**: no file of anything else changes, nor does the marker, and the
other objects are as they were, unless the container is lost. -/
structure StatusFrame (sha256 : Bytes → Bytes) (crypto : FileObjectContainerCrypto) (slot : UInt8)
    (files files' : Files) : Prop where
  others : ∀ fid, fid ∉ residentFids slot → files' fid = files fid
  entry : residentEntry files' slot = residentEntry files slot
  objects : OtherObjectsKept sha256 crypto slot files files' ∨
    ContainerDead (residentContainerLayout sha256) slot.toUInt32 crypto files'

theorem StatusFrame.refl : StatusFrame sha256 crypto slot files files :=
  ⟨fun _ _ ↦ rfl, rfl, .inl fun _ _ _ _ ↦ rfl⟩

end Update

/-! ### Histories -/

section Histories

variable (sha256 : Bytes → Bytes) (crypto : FileObjectContainerCrypto) (slot : UInt8)

/-- **A step, as a slot sees it**: an operation that does not delete it, whatever happens to the flash
on the way but for late errors, or something that leaves its files alone, such as a restart. -/
inductive ResidentStep : FsState TxnRam → FsState TxnRam → Prop
  | operation {C : CredentialContext} {operation : ResidentOperation} {s : FsState TxnRam}
      {os : List Outcome} (hC : ContextFits sha256 crypto C) (hne : operation ≠ .delete slot)
      (hos : ∀ o ∈ os, o ≠ .late) : ResidentStep s ((operation.run C).final s os)
  /-- Something else. -/
  | elsewhere {s s' : FsState TxnRam} (hsame : ∀ fid ∈ residentFids slot, s'.files fid = s.files fid) :
      ResidentStep s s'

/-- **What a slot can come to**, from one without a container. -/
inductive ResidentReachable : FsState TxnRam → Prop
  /-- There is no container. -/
  | fresh {s : FsState TxnRam}
      (habsent : ContainerAbsent (residentContainerLayout sha256) slot.toUInt32 s.files) :
      ResidentReachable s
  /-- A step is taken. -/
  | step {s s' : FsState TxnRam} (h : ResidentReachable s)
      (hstep : ResidentStep sha256 crypto slot s s') : ResidentReachable s'
  /-- The slot is deleted. -/
  | deleted {C : CredentialContext} {s : FsState TxnRam} {os : List Outcome}
      (h : ResidentReachable s) (hC : ContextFits sha256 crypto C) (hos : ∀ o ∈ os, o ≠ .late)
      (hok : (credentialResidentDelete C slot).result s os = .ok ()) :
      ResidentReachable ((credentialResidentDelete C slot).final s os)

variable {sha256 crypto slot} {s s' : FsState TxnRam}

/-- Outcomes of operations that report what they did. -/
theorem not_late : ¬(fun o : Outcome ↦ o ≠ .late) .late :=
  fun h ↦ h rfl

theorem ResidentStep.keeps {I : Files → Prop} (hlaw : SlotLaw sha256 crypto slot (· ≠ .late) I)
    (hstep : ResidentStep sha256 crypto slot s s') (hI : I s.files) : I s'.files := by
  rcases hstep with ⟨hC, hne, hos⟩ | hsame
  · rcases run_of_wp (hlaw.run hC hI hne) hos with ⟨_, -, hs'⟩ | ⟨_, -, hs'⟩ <;> exact hs'
  · exact hlaw.congr hsame hI

theorem ResidentReachable.holds (h : ResidentReachable sha256 crypto slot s) :
    SlotHolds sha256 crypto slot StateSound s.files := by
  induction h with
  | fresh habsent =>
    refine .inr ⟨fun _ ↦ [], none, ⟨habsent, fun _ _ _ hnone ↦ ?_⟩, fun _ hdata ↦ ?_⟩
    · cases hnone
    · cases hdata
  | step _ hstep ih => exact hstep.keeps (slotLaw_sound not_late) ih
  | deleted _ hC hos hok ih =>
    rcases run_of_wp (wp_credentialResidentDelete (A := (· ≠ .late)) not_late hC ih) hos with
      ⟨_, -, hs'⟩ | ⟨_, herror, -⟩
    · exact hs'
    · rw [hok] at herror
      cases herror

/-- **A credential that is not usable stays so.** -/
theorem ResidentBarred.keeps (h : ResidentBarred sha256 crypto slot s.files)
    (hsteps : Relation.ReflTransGen (ResidentStep sha256 crypto slot) s s') :
    ResidentBarred sha256 crypto slot s'.files := by
  induction hsteps with
  | refl => exact h
  | tail _ hstep ih => exact hstep.keeps (slotLaw_barred not_late) ih

end Histories

end PicoAll
