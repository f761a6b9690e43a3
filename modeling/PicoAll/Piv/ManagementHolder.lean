import PicoAll.Piv.ManagementUsable

/-!
# The holder of the management key

The holder asks for a challenge and answers with its encryption. With metadata that fit the key, the
algorithm that they name is one with which this succeeds.
-/

namespace PicoAll.Piv

open FaultProgram BigEndian List Option

variable {K : Type} {C : PivCrypto} {env : AuthEnv} {ram : PivRam} {store : PivStore K} {algo : UInt8}
  {key : Bytes}

/-! ### The template -/

variable {value : Bytes} {mgm : MgmFile} (tag : UInt8)

theorem encodeTlv_short (h : value.length < 128) :
    encodeTlv tag value = [tag, UInt8.ofNat value.length] ++ value := by
  rw [encodeTlv, tlvFormatLen_of_lt (by omega), if_pos h]
  simp [beBytes]

theorem authTemplate_eq (h : value.length < 120) :
    authTemplate tag value = encodeTlv 0x7c (encodeTlv tag value) := by
  have hlength : (encodeTlv tag value).length = value.length + 2 := by
    rw [encodeTlv_short tag (by omega)]
    simp
  rw [encodeTlv_short 0x7c (by omega), hlength, encodeTlv_short tag (by omega), authTemplate]
  rfl

theorem tlvItems_encodeTlv {tag : UInt8} (htag : tag &&& 0x1f ≠ 0x1f) (h : value.length ≤ 0xffff) :
    tlvItems (encodeTlv tag value) = [⟨tag.toNat, value, []⟩] := by
  have hwalk := tlvWalk_encodeTlv htag h []
  rw [append_nil] at hwalk
  rw [tlvItems_of_walk hwalk]
  rfl

/-- What is put into a template is found in it. -/
theorem tlvFindTag_authTemplate (h : value.length < 120) :
    tlvFindTag 0x7c (authTemplate tag value) = some (encodeTlv tag value) := by
  have hlength : (encodeTlv tag value).length ≤ 0xffff := by
    rw [encodeTlv_short tag (by omega)]
    simp
    omega
  rw [authTemplate_eq tag h, tlvFindTag, tlvFind, tlvItems_encodeTlv (by decide) hlength]
  rfl

theorem pivFirstAuthOperation_encodeTlv (h : value.length < 120) (hvalue : value ≠ []) :
    pivFirstAuthOperation (encodeTlv 0x82 value) = some (0x82, value) := by
  rw [pivFirstAuthOperation, tlvItems_encodeTlv (by decide) (by omega)]
  simp [hvalue]

/-! ### The two steps -/

/-- What the holder sends for a challenge that was shown. -/
def holderAnswer (C : PivCrypto) (algo : UInt8) (key response : Bytes) : Bytes :=
  authTemplate 0x82 (mgmEncrypt C algo key (response.drop 4))

/-- The request for a challenge. -/
def holderRequest : Bytes :=
  [0x7c, 0x02, 0x81, 0x00]

theorem challengeLength_pos (algo : UInt8) : 0 < challengeLength algo := by
  unfold challengeLength
  split <;> decide

/-- A key of the right length is not refused. -/
theorem mgmRefusal_none (hkey : mgm.key = some key) (hlength : mgmKeyLength algo = some key.length) :
    mgmRefusal mgm algo = none := by
  have hkeyLength : mgm.keyLength = some key.length := by
    cases mgm with
    | marker stored =>
      change stored = some key at hkey
      rw [hkey]
      rfl
    | plain stored =>
      unfold MgmFile.key at hkey
      dsimp only at hkey
      split at hkey
      next hshort =>
        cases hkey
        rw [MgmFile.keyLength, min_eq_left hshort]
      · cases hkey
  rw [mgmRefusal, hlength, hkeyLength]
  dsimp only
  rw [if_neg (by simp)]

/-- The ciphers take a key of the right length. -/
theorem mgmCrypt_decrypt (hkey : mgm.key = some key) (hlength : mgmKeyLength algo = some key.length)
    (hcrypt : env.cryptFails = false) (block : Bytes) (hblock : block.length = challengeLength algo) :
    mgmCrypt C env algo mgm block false = some (mgmDecrypt C algo key block) := by
  have htake (n : ℕ) (h : challengeLength algo = n) : block.take n = block :=
    take_of_length_le (h ▸ hblock.le)
  rw [mgmCrypt, hkey]
  dsimp only
  rw [hcrypt, if_neg Bool.false_ne_true, mgmDecrypt]
  by_cases halgo : algo = pivAlgo3des
  · have hkeyLength : key.length = 24 := by
      rw [halgo] at hlength
      exact (Option.some.inj hlength).symm
    rw [if_pos halgo, if_pos halgo, if_pos hkeyLength, if_neg Bool.false_ne_true,
      htake 8 (if_pos halgo)]
  · have hkeyLength : key.length = 16 ∨ key.length = 24 ∨ key.length = 32 := by
      unfold mgmKeyLength at hlength
      split_ifs at hlength <;> simp only [Option.some.injEq] at hlength <;> omega
    rw [if_neg halgo, if_neg halgo, if_pos hkeyLength, if_neg Bool.false_ne_true,
      htake 16 (if_neg halgo)]

/-- With metadata that fit, the checks of the management key pass. -/
theorem authPinChecks_holder {data : Bytes} (hmgm : store.mgm = some mgm)
    (hkey : mgm.key = some key) (hfit : MetadataFit (store.metadata efPivKeyCardmgm) key.length)
    (hdata : data.headD 0 = 0x7c) :
    authPinChecks ram store ((store.metadata efPivKeyCardmgm).getD 0 0) efPivKeyCardmgm data =
      .ok () := by
  have hguarded : pinGuarded efPivKeyCardmgm = false := by decide
  have hstored : ¬(efPivKeyCardmgm = efPivKeyCardmgm ∧ some mgm = none) := by simp
  have hlength : ¬(store.metadata efPivKeyCardmgm).length < 3 := not_lt.2 hfit.1
  unfold authPinChecks
  rw [if_neg (not_not.2 hdata), hmgm, if_neg hstored, if_neg hlength, if_pos rfl, bind_some,
    mgmRefusal_none hkey hfit.2]
  exact if_neg fun h ↦ absurd h.2.2 Bool.false_ne_true

/-- The request passes where it answers a challenge, or with a touch and the algorithm of the
metadata. -/
theorem authRequest_ok {data template : Bytes} {tag : ℕ}
    (htemplate : tlvFindTag 0x7c data = some template) (hne : template ≠ [])
    (hfirst : pivFirstAuthOperation template = some (tag, value))
    (hpasses : ram.mgmChallengeKind ≠ .none ∧ tag = 0x82 ∧ value ≠ [] ∨ env.touched = true ∧
      algo = (store.metadata efPivKeyCardmgm).getD 0 0) :
    authRequest env ram store algo efPivKeyCardmgm data = .ok ⟨template, tag, value⟩ := by
  unfold authRequest
  rw [htemplate]
  dsimp only [getD_some]
  rw [if_neg hne, hfirst]
  dsimp only
  obtain ⟨hkind, htag, hvalue⟩ | ⟨htouched, halgo⟩ := hpasses
  · have hanswering : (efPivKeyCardmgm = efPivKeyCardmgm ∧ ram.mgmChallengeKind ≠ .none) ∧
        (tag = 0x80 ∨ tag = 0x82) ∧ value ≠ [] := ⟨⟨rfl, hkind⟩, .inr htag, hvalue⟩
    rw [if_neg fun h ↦ h.2.1 hanswering, if_neg fun h ↦ h.2.2 hanswering,
      if_neg fun h ↦ h.2.2 hanswering]
  · rw [htouched, halgo, if_neg fun h ↦ absurd h.2.2 (by simp), if_neg fun h ↦ h.2.1 rfl,
      if_neg fun h ↦ h.1 rfl]

/-- A challenge is issued to whoever asks. -/
theorem holder_request (hmgm : store.mgm = some mgm) (hkey : mgm.key = some key)
    (hfit : MetadataFit (store.metadata efPivKeyCardmgm) key.length) (htouched : env.touched = true)
    (halgo : algo = (store.metadata efPivKeyCardmgm).getD 0 0) :
    cmdPivAuthenticate C env ram store algo efPivKeyCardmgm holderRequest =
      requestChallenge env algo ram := by
  have hchecks : authPinChecks ram store algo efPivKeyCardmgm holderRequest = .ok () :=
    halgo ▸ authPinChecks_holder hmgm hkey hfit rfl
  have hrequest : authRequest env ram store algo efPivKeyCardmgm holderRequest =
      .ok ⟨[0x81, 0x00], 0x81, []⟩ :=
    authRequest_ok (by decide) (by decide) (by decide) (.inr ⟨htouched, halgo⟩)
  rw [cmdPivAuthenticate, hchecks, hrequest]
  dsimp only
  rw [if_pos rfl, hmgm]
  dsimp only
  rw [authenticateManagement, if_neg (by simp), if_pos (by simp), authenticateMgm, if_neg (by simp),
    if_pos (by simp)]

/-- The answer of the holder is accepted. -/
theorem holder_answer (hmgm : store.mgm = some mgm) (hkey : mgm.key = some key)
    (hfit : MetadataFit (store.metadata efPivKeyCardmgm) key.length)
    (halgo : algo = (store.metadata efPivKeyCardmgm).getD 0 0) (hcrypt : env.cryptFails = false)
    (hkind : ram.mgmChallengeKind = .single) (hsame : ram.mgmChallengeAlgo = algo)
    (hlength : ram.mgmChallenge.length = mgmChallengeSize) :
    cmdPivAuthenticate C env ram store algo efPivKeyCardmgm
        (authTemplate 0x82 (mgmEncrypt C algo key (ram.mgmChallenge.take (challengeLength algo)))) =
      ⟨swOk, [], { clearMgmChallenge ram with hasMgm := true }, false⟩ := by
  set value := mgmEncrypt C algo key (ram.mgmChallenge.take (challengeLength algo)) with hvalue
  have hvalueLength : value.length = challengeLength algo := length_mgmEncrypt ..
  have hle := challengeLength_le algo
  have hpos := challengeLength_pos algo
  have hshort : value.length < 120 := by
    rw [hvalueLength]
    exact hle.trans_lt (by decide)
  have hne : value ≠ [] := ne_nil_of_length_pos (hvalueLength ▸ hpos)
  have hchecks : authPinChecks ram store algo efPivKeyCardmgm (authTemplate 0x82 value) = .ok () :=
    halgo ▸ authPinChecks_holder hmgm hkey hfit rfl
  have hrequest : authRequest env ram store algo efPivKeyCardmgm (authTemplate 0x82 value) =
      .ok ⟨encodeTlv 0x82 value, 0x82, value⟩ :=
    authRequest_ok (tlvFindTag_authTemplate 0x82 hshort) (by simp [encodeTlv])
      (pivFirstAuthOperation_encodeTlv hshort hne) (.inl ⟨by simp [hkind], rfl, hne⟩)
  rw [cmdPivAuthenticate, hchecks, hrequest]
  dsimp only
  rw [if_pos rfl, hmgm]
  dsimp only
  rw [authenticateManagement, if_neg (by simp), if_neg (by simp), if_pos rfl, authenticateMgm,
    if_neg (by simp), if_neg (by simp), if_neg (by simp), if_pos (by simp [hne]), answerChallenge]
  have hvalid : ram.mgmChallengeKind = .single ∧ ram.mgmChallengeAlgo = algo ∧
      value.length = challengeLength algo ∧ (none : Option Bytes) = none ∧
      (none : Option Bytes) = none := ⟨hkind, hsame, hvalueLength, rfl, rfl⟩
  have hchallenge : (ram.mgmChallenge.take (challengeLength algo)).length = challengeLength algo := by
    rw [length_take, hlength, min_eq_left hle]
  have hcipher : mgmCrypt C env algo mgm value false =
      some (ram.mgmChallenge.take (challengeLength algo)) := by
    rw [mgmCrypt_decrypt hkey (halgo ▸ hfit.2) hcrypt value hvalueLength, hvalue,
      mgmDecrypt_mgmEncrypt hchallenge]
  dsimp only [getD_some]
  rw [if_neg (not_not.2 hvalid), hcipher]
  dsimp only
  rw [if_neg (not_not.2 (take_of_length_le hchallenge.le))]

/-! ### Availability -/

/-- There is an algorithm with which the holder of the stored key is granted the status: the holder
asks for a challenge, touches the device where this is asked for, and sends its encryption. -/
def MgmState.Available (C : PivCrypto) (s : MgmState K) : Prop :=
  ∀ key, s.disk.key = some key → ∃ algo, ∀ env env' : AuthEnv,
    env.touched = true → env'.cryptFails = false →
      let issued := cmdPivAuthenticate C env s.ram s.store algo efPivKeyCardmgm holderRequest
      let answered := cmdPivAuthenticate C env' issued.ram s.store algo efPivKeyCardmgm
        (holderAnswer C algo key issued.response)
      issued.sw = swOk ∧ answered.sw = swOk ∧ answered.ram.hasMgm = true

/-- A key that its metadata fit is available to its holder, whatever the session. -/
theorem MgmDisk.Usable.available {s : MgmState K} (h : s.disk.Usable) : s.Available C := by
  intro key hkey
  obtain ⟨mgm, hstored, hkey'⟩ := bind_eq_some_iff.1 hkey
  have hmgm : s.store.mgm = some mgm := hstored
  have hfit : MetadataFit (s.store.metadata efPivKeyCardmgm) key.length := h key hkey
  refine ⟨(s.store.metadata efPivKeyCardmgm).getD 0 0, fun env env' htouched hcrypt ↦ ?_⟩
  dsimp only
  set algo := (s.store.metadata efPivKeyCardmgm).getD 0 0 with halgo
  rw [holder_request hmgm hkey' hfit htouched halgo]
  have hresponse : holderAnswer C algo key (requestChallenge env algo s.ram).response =
      authTemplate 0x82 (mgmEncrypt C algo key
        ((requestChallenge env algo s.ram).ram.mgmChallenge.take (challengeLength algo))) := rfl
  rw [hresponse, holder_answer hmgm hkey' hfit halgo hcrypt rfl rfl]
  · exact ⟨rfl, rfl, rfl⟩
  · have hle := challengeLength_le algo
    have hrandom := env.length_random
    simp [requestChallenge, issueMgmChallenge]
    omega

/-! ### Runs -/

/-- The commands that write the management key and its metadata write both or neither. -/
def WrittenTogether (s : MgmState K) : MgmEvent K → Prop
  | .setMgmkey p1 p2 data _ os =>
    ∀ request, setMgmkeyRequest s.ram p1 p2 data = .ok request → SetMgmkeyTogether s.disk os
  | .move target _ _ os => s.ram.hasMgm = true → MoveTogether target os
  | .reset blocked _ _ os os' => blocked = true → ResetTogether os ∧ SetUpTogether os'
  | .session os => s.disk.dekPwpiv = false → SetUpTogether os
  | _ => True

variable {s : MgmState K} {event : MgmEvent K}

theorem run_disk (s : MgmState K) (m : MgmProg Unit) (os : List Outcome) :
    (s.run m os).disk = m.final s.disk os := by
  unfold MgmState.run
  split <;> rfl

theorem usable_reset (h : s.disk.Usable) {blocked : Bool} {keys : UInt8 → Option K}
    {slotMetadata : UInt8 → Bytes} {os os' : List Outcome}
    (htogether : WrittenTogether s (.reset blocked keys slotMetadata os os')) :
    (MgmEvent.apply C s (.reset blocked keys slotMetadata os os')).disk.Usable := by
  cases blocked with
  | false => exact h
  | true =>
    obtain ⟨hreset, hsetUp⟩ := htogether rfl
    have hdeleted := cmdPivReset_usable h true hreset
    unfold MgmEvent.apply
    dsimp only
    rw [← run_disk] at hdeleted
    split
    · exact scanFilesPiv_usable hdeleted fun _ ↦ hsetUp
    · exact hdeleted

/-- A step that writes both or neither leaves a key that its metadata fit. -/
theorem usable_apply (h : s.disk.Usable) (htogether : WrittenTogether s event) :
    (event.apply C s).disk.Usable := by
  cases event with
  | authenticate => exact h
  | setMgmkey p1 p2 data behind os =>
    show (s.run _ os).disk.Usable
    rw [run_disk]
    exact cmdSetMgmkey_usable h s.ram p1 p2 data behind htogether
  | move target keys slotMetadata os =>
    show (s.run _ os).disk.Usable
    rw [run_disk]
    by_cases hmgm : s.ram.hasMgm = true
    · exact cmdMoveManagementKey_usable h s.ram target (htogether hmgm)
    · rw [cmdMoveManagementKey, if_pos (by simpa using hmgm)]
      exact h
  | reset => exact usable_reset h htogether
  | other => exact h
  | session os => exact scanFilesPiv_usable h htogether

theorem usable_steps (h : s.disk.Usable) (events : List (MgmEvent K))
    (htogether : ∀ step ∈ mgmSteps C s events, WrittenTogether step.1 step.2) :
    ∀ step ∈ mgmSteps C s events, step.1.Available C ∧ (step.2.apply C step.1).Available C := by
  induction events generalizing s with
  | nil => exact fun step hstep ↦ by cases hstep
  | cons event events ih =>
    obtain ⟨hhead, htail⟩ := forall_mem_cons.1 htogether
    have hnext := usable_apply (C := C) h hhead
    exact forall_mem_cons.2 ⟨⟨h.available, hnext.available⟩, ih hnext htail⟩

/-- From a device on which the applet never started: every step of every run grants the status and
shows its ciphers soundly; and in a run whose steps write the management key and its metadata both or
neither, the holder of the stored key can always be granted the status. -/
theorem mgm_authentication_law (C : PivCrypto) (keys : UInt8 → Option K)
    (slotMetadata : UInt8 → Bytes) (events : List (MgmEvent K)) :
    (∀ step ∈ mgmSteps C (mgmStateFresh keys slotMetadata) events, MgmSound C step.1 step.2) ∧
      ((∀ step ∈ mgmSteps C (mgmStateFresh keys slotMetadata) events,
          WrittenTogether step.1 step.2) →
        ∀ step ∈ mgmSteps C (mgmStateFresh keys slotMetadata) events,
          step.1.Available C ∧ (step.2.apply C step.1).Available C) :=
  ⟨MgmTold.steps (.of_none rfl) events, usable_steps (.of_none rfl) events⟩

/-! ### Examples -/

/-- The device is touched, and the ciphers can be set up. -/
def holderEnv : AuthEnv :=
  ⟨List.replicate 16 0x2a, rfl, true, false, .failed⟩

/-- A step of the holder of a key of AES-192. -/
def holderEvent (data : Bytes) : MgmEvent Unit :=
  .authenticate holderEnv pivAlgoAes192 efPivKeyCardmgm data

/-- The first set-up, and the status is granted to the holder of the default key. -/
def grantedEvents : List (MgmEvent Unit) :=
  [.session [], holderEvent holderRequest,
    holderEvent (authTemplate 0x82 (List.replicate 16 0x2a))]

/-- A new key of AES-128 is set. -/
def setAes128Event : MgmEvent Unit :=
  .setMgmkey 0xff 0xff ([pivAlgoAes128, efPivKeyCardmgm, 16] ++ List.replicate 16 0x11) 0xff []

/-- No keys and no metadata of other slots. -/
def freshState : MgmState Unit :=
  mgmStateFresh (fun _ ↦ none) fun _ ↦ []

/-- The default key was proved. -/
def grantedState : MgmState Unit :=
  grantedEvents.foldl (fun s event ↦ event.apply plainPivCrypto s) freshState

/-- The new key is available to its holder. -/
theorem mgm_authentication_law_set :
    (setAes128Event.apply plainPivCrypto grantedState).Available plainPivCrypto := by
  refine ((mgm_authentication_law plainPivCrypto _ _ (grantedEvents ++ [setAes128Event])).2 ?_
    (grantedState, setAes128Event) (mem_of_getLast? rfl)).2
  refine forall_mem_cons.2 ⟨fun _ _ ↦ by decide, forall_mem_cons.2 ⟨trivial,
    forall_mem_cons.2 ⟨trivial, forall_mem_cons.2 ⟨fun _ _ _ ↦ ?_, fun _ h ↦ by cases h⟩⟩⟩⟩
  exact ⟨trivial, by decide +kernel, trivial⟩

/-- Without metadata there is no algorithm to ask for a challenge with. -/
theorem not_available (key : Bytes) (hkey : s.disk.key = some key) (hmetadata : s.disk.metadata = []) :
    ¬s.Available C := by
  intro havailable
  obtain ⟨algo, hholder⟩ := havailable key hkey
  obtain ⟨mgm, hmgm, -⟩ := bind_eq_some_iff.1 hkey
  have hstored : ¬(efPivKeyCardmgm = efPivKeyCardmgm ∧ s.store.mgm = none) := by
    change ¬(_ ∧ s.disk.mgm = none)
    simp [hmgm]
  have hshort : (s.store.metadata efPivKeyCardmgm).length < 3 := by
    change s.disk.metadata.length < 3
    rw [hmetadata]
    decide
  have hchecks : authPinChecks s.ram s.store algo efPivKeyCardmgm holderRequest =
      .error swReferenceNotFound := by
    rw [authPinChecks, if_neg (by decide), if_neg hstored, if_pos hshort]
  obtain ⟨hissued, -⟩ := hholder holderEnv holderEnv rfl rfl
  rw [cmdPivAuthenticate, hchecks] at hissued
  have hrefused : swReferenceNotFound = swOk := hissued
  exact absurd hrefused (by decide)

/-- The management key is moved away with its metadata, and in the same session a new one is set: the
key is written, its metadata are not, and nobody is granted the status any more. -/
theorem set_after_move_unavailable :
    ¬ ∀ (C : PivCrypto) (keys : UInt8 → Option Unit) (slotMetadata : UInt8 → Bytes)
      (events : List (MgmEvent Unit)),
      ∀ step ∈ mgmSteps C (mgmStateFresh keys slotMetadata) events,
        MgmSound C step.1 step.2 ∧ (step.2.apply C step.1).Available C := by
  intro hall
  have hlast := (hall plainPivCrypto (fun _ ↦ none) (fun _ ↦ [])
    (grantedEvents ++ [.move 0xff (fun _ ↦ none) (fun _ ↦ []) [], setAes128Event]) _
    (mem_of_getLast? rfl)).2
  refine not_available (List.replicate 16 0x11) ?_ ?_ hlast
  · rfl
  · rfl

end PicoAll.Piv
