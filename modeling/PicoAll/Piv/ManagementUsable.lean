import PicoAll.Piv.ManagementLaw

/-!
# That the holder of the key is granted the status

The metadata say the algorithm that a challenge can be asked for with, and the key has to have its
length. This is kept by every step in which the key and its metadata are written both or neither, and
it is what the holder needs.
-/

namespace PicoAll.Piv

open FaultProgram

variable {K : Type} {C : PivCrypto} {disk : MgmDisk} {os : List Outcome}

/-! ### The key and its metadata -/

/-- The metadata name an algorithm for keys of the length. -/
def MetadataFit (metadata : Bytes) (length : ℕ) : Prop :=
  3 ≤ metadata.length ∧ mgmKeyLength (metadata.getD 0 0) = some length

/-- A key that can be read is one that the metadata fit. -/
def MgmDisk.Usable (disk : MgmDisk) : Prop :=
  ∀ key, disk.key = some key → MetadataFit disk.metadata key.length

theorem MgmDisk.Usable.of_none (h : disk.key = none) : disk.Usable := by
  intro key hkey
  rw [h] at hkey
  cases hkey

/-- A key that is stored with metadata that fit it. -/
theorem usable_stored {key metadata : Bytes} {dekPwpiv : Bool} (h : MetadataFit metadata key.length) :
    MgmDisk.Usable ⟨some (.marker (some key)), metadata, dekPwpiv⟩ := by
  intro key' hkey'
  cases hkey'
  exact h

/-! ### SET MANAGEMENT KEY -/

theorem setMgmkeyRequest_fit {ram : PivRam} {p1 p2 : UInt8} {data : Bytes} {request : SetMgmkeyRequest}
    (h : setMgmkeyRequest ram p1 p2 data = .ok request) (old : Bytes) (behind : UInt8) :
    MetadataFit (request.metadata old behind) request.key.length := by
  unfold setMgmkeyRequest at h
  dsimp only at h
  split_ifs at h with hp1 hshort hmgm hp2 hwrong hlength htouch
  all_goals
    cases h
    refine ⟨by simp [SetMgmkeyRequest.metadata], ?_⟩
    have hkeyLength : (data.drop 3).length = (data.getD 2 0).toNat := by
      rw [List.length_drop]
      omega
    rw [hkeyLength]
    exact not_not.1 fun hne ↦ hwrong (.inr hne)

/-- Both writes take effect or neither. -/
def SetMgmkeyTogether (disk : MgmDisk) (os : List Outcome) : Prop :=
  Lands os → Succeeds os ∧ disk.metadata ≠ [] ∧ Lands os.tail

theorem cmdSetMgmkey_usable (h : disk.Usable) (ram : PivRam) (p1 p2 : UInt8) (data : Bytes)
    (behind : UInt8) (htogether : ∀ request, setMgmkeyRequest ram p1 p2 data = .ok request →
      SetMgmkeyTogether disk os) :
    ((cmdSetMgmkey ram p1 p2 data behind).final disk os).Usable := by
  unfold cmdSetMgmkey
  rw [final_liftExcept_bind]
  rcases hrequest : setMgmkeyRequest ram p1 p2 data with sw | request
  · exact h
  dsimp only
  unfold putManagementKey
  rw [final_perform_bind]
  by_cases htakes : Lands os
  · obtain ⟨hsucceeds, hmetadata, hwritten⟩ := htogether request hrequest htakes
    rw [if_pos hsucceeds, final_getState_bind, if_neg hmetadata, putMgmMetadata, final_perform,
      if_pos hwritten]
    exact usable_stored (setMgmkeyRequest_fit hrequest disk.metadata behind)
  · rw [if_neg (mt Succeeds.lands htakes), if_neg htakes]
    exact h

/-! ### MOVE KEY -/

/-- Where the metadata go, the key goes too. -/
def DeletedTogether (os : List Outcome) : Prop :=
  Lands os → Succeeds os ∧ Lands os.tail

theorem deleteManagementKey_key (htakes : Lands os) :
    (deleteManagementKey.final disk os).key = none := by
  unfold deleteManagementKey
  rw [final_getState_bind]
  split
  · rw [final_perform_bind]
    by_cases hsucceeds : Succeeds os
    · rw [if_pos hsucceeds, final_perform]
      split <;> rfl
    · rw [if_neg hsucceeds, if_pos htakes]
      rfl
  · rw [final_perform, if_pos htakes]
    rfl

/-- What a move deletes. -/
theorem delete_usable (h : disk.Usable) (htogether : DeletedTogether os) :
    ((deleteMgmMetadata >>= fun _ ↦ deleteManagementKey).final disk os).Usable := by
  unfold deleteMgmMetadata
  rw [final_perform_bind]
  by_cases htakes : Lands os
  · obtain ⟨hsucceeds, hdeleted⟩ := htogether htakes
    rw [if_pos hsucceeds]
    exact .of_none (deleteManagementKey_key hdeleted)
  · rw [if_neg (mt Succeeds.lands htakes), if_neg htakes]
    exact h

/-- The outcomes of the deletions; a copy comes first, unless the key goes nowhere. -/
def MoveTogether (target : UInt8) (os : List Outcome) : Prop :=
  if target = 0xff then DeletedTogether os else Succeeds os → DeletedTogether os.tail

theorem cmdMoveManagementKey_usable (h : disk.Usable) (ram : PivRam) (target : UInt8)
    (htogether : MoveTogether target os) :
    ((cmdMoveManagementKey ram target).final disk os).Usable := by
  unfold cmdMoveManagementKey
  split
  · exact h
  split
  · exact h
  unfold copyManagementKey
  by_cases htarget : target = 0xff
  · rw [MoveTogether, if_pos htarget] at htogether
    rw [if_pos htarget]
    exact delete_usable h htogether
  · rw [MoveTogether, if_neg htarget] at htogether
    rw [if_neg htarget, bind_assoc, final_getState_bind]
    split
    · exact h
    · rw [writeOthers, final_perform_bind]
      split
      next hsucceeds => exact delete_usable h (htogether hsucceeds)
      · split <;> exact h

/-! ### RESET and the first set-up -/

/-- Of the management key, after what is deleted before it: where the metadata go, the key goes. -/
def ResetTogether (os : List Outcome) : Prop :=
  Succeeds os → Lands os.tail → Lands os.tail.tail

theorem writeOthers_usable (h : disk.Usable) (sw : UInt16) {m : Unit → MgmProg Unit}
    (hm : ∀ os, ((m ()).final disk os).Usable) (os : List Outcome) :
    ((writeOthers sw >>= m).final disk os).Usable := by
  rw [writeOthers, final_perform_bind]
  split
  · exact hm os.tail
  · split <;> exact h

/-- Without a key everything else may be done. -/
theorem resetRest_usable (h : disk.key = none) (os : List Outcome) :
    ((do
      writeOthers swExecError
      perform swExecError fun disk ↦ { disk with dekPwpiv := false }
      writeOthers swExecError : MgmProg Unit).final disk os).Usable := by
  refine writeOthers_usable (.of_none h) _ (fun os ↦ ?_) os
  rw [final_perform_bind]
  split
  · rw [writeOthers, final_perform]
    split <;> exact .of_none h
  · split <;> exact .of_none h

theorem cmdPivReset_usable (h : disk.Usable) (blocked : Bool) (htogether : ResetTogether os) :
    ((cmdPivReset blocked).final disk os).Usable := by
  unfold cmdPivReset
  split
  · exact h
  rw [writeOthers, final_perform_bind]
  by_cases hsucceeds : Succeeds os
  · rw [if_pos hsucceeds]
    unfold deleteMgmMetadata
    rw [final_caught_bind]
    split
    · exact h
    have htakes := htogether hsucceeds
    rw [final_perform_bind]
    by_cases hdeleted : Lands os.tail.tail
    · -- The key goes, whatever has become of its metadata.
      split
      · by_cases hnoted : Succeeds os.tail
        · rw [if_pos hnoted, if_neg Bool.false_ne_true]
          exact resetRest_usable rfl _
        · rw [if_neg hnoted, if_pos rfl]
          exact .of_none rfl
      · exact .of_none rfl
    · rw [if_neg (mt Succeeds.lands hdeleted), if_neg hdeleted,
        if_neg fun hmetadata ↦ hdeleted (htakes hmetadata)]
      exact h
  · rw [if_neg hsucceeds]
    split <;> exact h

/-- After the wrapped key: both writes take effect or neither. -/
def SetUpTogether (os : List Outcome) : Prop :=
  ¬IsCut os → (Lands os.tail ↔ ¬IsCut os.tail ∧ Lands os.tail.tail)

/-- The start-up leaves a usable key. -/
theorem scanFilesPiv_usable (h : disk.Usable)
    (htogether : disk.dekPwpiv = false → SetUpTogether os) :
    (scanFilesPiv.final disk os).Usable := by
  unfold scanFilesPiv
  rw [final_getState_bind]
  by_cases hdek : disk.dekPwpiv = true
  · rw [if_pos hdek]
    exact h
  have hdek : disk.dekPwpiv = false := by simpa using hdek
  rw [hdek, if_neg Bool.false_ne_true, final_ignored_bind]
  by_cases hcut : IsCut os
  · rw [if_pos hcut]
    exact h
  rw [if_neg hcut]
  have hkept : MgmDisk.Usable
      (if Lands os then { disk with dekPwpiv := true } else disk) := by
    split <;> exact h
  have hboth := htogether hdek hcut
  unfold putManagementKey putMgmMetadata
  rw [final_ignored_bind, final_ignored]
  by_cases hkeyCut : IsCut os.tail
  · rw [if_pos hkeyCut]
    exact hkept
  rw [if_neg hkeyCut]
  by_cases htakes : Lands os.tail
  · rw [if_pos htakes, if_pos (hboth.1 htakes).2]
    exact usable_stored ⟨by decide, by decide⟩
  · rw [if_neg htakes, if_neg fun hmetadata ↦ htakes (hboth.2 ⟨hkeyCut, hmetadata⟩)]
    exact hkept

end PicoAll.Piv
