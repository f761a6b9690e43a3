import PicoAll.Piv.ManagementAnswer

/-!
# Who is granted the management status

In every run, the management status is granted only to an answer that the holder of the stored key
computes for the challenge issued last in the session, and each challenge is accepted once at most; the
card encrypts only challenges of its own, or what was sent with an accepted answer. And as long as the
key and its metadata are written together, the holder of the key can be granted the status.
-/

namespace PicoAll.Piv

open FaultProgram

variable {K : Type}

/-! ### What is said of a step -/

/-- The tag and the value of what is answered. -/
def authAnswer (data : Bytes) : Option (ℕ × Bytes) :=
  pivFirstAuthOperation ((tlvFindTag 0x7c data).getD [])

/-- The challenge is answered with what the holder of the key makes of what was shown: the challenge
where its encryption was shown, and its encryption where it was shown itself. -/
def MgmIssue.AnsweredBy (C : PivCrypto) (issue : MgmIssue) (key data : Bytes) : Prop :=
  issue.kind = .mutual ∧ authAnswer data = some (0x80, issue.challenge) ∨
    issue.kind = .single ∧
      authAnswer data = some (0x82, mgmEncrypt C issue.algo key issue.challenge)

/-- The key that is stored. -/
def MgmDisk.key (disk : MgmDisk) : Option Bytes :=
  disk.mgm.bind MgmFile.key

/-- The status is granted only for the last challenge, which is then accepted for good. -/
def GrantedSoundly (C : PivCrypto) (s : MgmState K) (event : MgmEvent K) : Prop :=
  s.ram.hasMgm = false → (event.apply C s).ram.hasMgm = true →
    ∃ env data issue key, event = .authenticate env issue.algo efPivKeyCardmgm data ∧
      s.issued = some issue ∧ s.disk.key = some key ∧ issue.AnsweredBy C key data ∧
      (event.apply C s).issued = none

/-- What the card shows of its ciphers: nothing, or the encryption of a fresh challenge, or such a
challenge, or the encryption of what came with an answer that was accepted in this step. -/
inductive RevealedSoundly (C : PivCrypto) (env : AuthEnv) (s : MgmState K) (algo : UInt8)
    (reply : AuthReply) : Prop where
  | nothing (h : reply.response = [])
  | witness (key : Bytes) (hkey : s.disk.key = some key)
      (h : reply.response = authTemplate 0x80 (mgmEncrypt C algo key (env.challenge algo)))
      (hissued : s.issuedAfter efPivKeyCardmgm reply = some ⟨.mutual, algo, env.challenge algo⟩)
  | challenge (h : reply.response = authTemplate 0x81 (env.challenge algo))
      (hissued : s.issuedAfter efPivKeyCardmgm reply = some ⟨.single, algo, env.challenge algo⟩)
  | proved (key chosen : Bytes) (hkey : s.disk.key = some key)
      (h : reply.response = authTemplate 0x82 (mgmEncrypt C algo key chosen))
      (hbefore : s.ram.hasMgm = false) (hgranted : reply.ram.hasMgm = true)

/-- A step grants and reveals as it should. -/
def MgmSound (C : PivCrypto) (s : MgmState K) (event : MgmEvent K) : Prop :=
  GrantedSoundly C s event ∧
    ∀ env algo data, event = .authenticate env algo efPivKeyCardmgm data →
      RevealedSoundly C env s algo (cmdPivAuthenticate C env s.ram s.store algo efPivKeyCardmgm data)

/-! ### The command -/

variable {C : PivCrypto} {env : AuthEnv} {ram : PivRam} {store : PivStore K} {algo keyRef : UInt8}
  {data : Bytes} {sw : UInt16} {request : AuthRequest}

theorem mgmRefusal_ne_ok {mgm : MgmFile} (h : mgmRefusal mgm algo = some sw) : sw ≠ swOk := by
  unfold mgmRefusal at h
  split at h
  · cases h
    decide
  split at h
  · cases h
    decide
  split at h
  · cases h
    decide
  · cases h

theorem authPinChecks_ne_ok (h : authPinChecks ram store algo keyRef data = .error sw) :
    sw ≠ swOk := by
  unfold authPinChecks at h
  split at h
  · cases h
    decide
  split at h
  · cases h
    decide
  split at h
  · cases h
    decide
  split at h
  next hrefusal =>
    cases h
    split at hrefusal
    · obtain ⟨mgm, -, hmgm⟩ := Option.bind_eq_some_iff.1 hrefusal
      exact mgmRefusal_ne_ok hmgm
    · cases hrefusal
  split at h
  · cases h
    decide
  · cases h

theorem authRequest_ne_ok (h : authRequest env ram store algo keyRef data = .error sw) :
    sw ≠ swOk := by
  unfold authRequest at h
  dsimp only at h
  split at h
  · cases h
    decide
  split at h
  · cases h
    decide
  split_ifs at h <;> cases h <;> decide

/-- The request is read from the data. -/
theorem authRequest_answer (h : authRequest env ram store algo keyRef data = .ok request) :
    authAnswer data = some (request.tag, request.value) := by
  unfold authRequest at h
  dsimp only at h
  split at h
  · cases h
  split at h
  · cases h
  next hfirst =>
    split_ifs at h
    cases h
    exact hfirst

/-- With the management key, the command is refused or it is one of the cases. -/
theorem cmdPivAuthenticate_answer (C : PivCrypto) (env : AuthEnv) (ram : PivRam) (store : PivStore K)
    (algo : UInt8) (data : Bytes) :
    (cmdPivAuthenticate C env ram store algo efPivKeyCardmgm data).Refuses ram ∨
      ∃ mgm tag value, store.mgm = some mgm ∧ authAnswer data = some (tag, value) ∧
        MgmAnswer C env algo mgm tag value ram
          (cmdPivAuthenticate C env ram store algo efPivKeyCardmgm data) := by
  unfold cmdPivAuthenticate
  rcases hchecks : authPinChecks ram store algo efPivKeyCardmgm data with sw | ⟨⟩
  · exact .inl ⟨authPinChecks_ne_ok hchecks, rfl, rfl, .inl rfl⟩
  rcases hrequest : authRequest env ram store algo efPivKeyCardmgm data with sw | request
  · exact .inl ⟨authRequest_ne_ok hrequest, rfl, rfl, .inl rfl⟩
  dsimp only
  rcases hmgm : store.mgm with _ | mgm
  · refine .inl ⟨?_, rfl, rfl, .inl rfl⟩
    show swMemoryFailure ≠ swOk
    decide
  · exact .inr ⟨mgm, _, _, rfl, authRequest_answer hrequest, authenticateManagement_answer⟩

theorem operatePrivate_ram {outcome : PrivateOutcome} {ecdh : Bool} {metadata : Bytes} :
    ∃ hasPwpiv, (operatePrivate outcome ecdh metadata ram).ram = { ram with hasPwpiv := hasPwpiv } := by
  cases outcome with
  | notLoaded => exact ⟨ram.hasPwpiv, rfl⟩
  | peerRefused => exact ⟨ram.hasPwpiv, rfl⟩
  | failed => exact ⟨ram.hasPwpiv, rfl⟩
  | done response =>
    unfold operatePrivate
    dsimp only
    split
    · exact ⟨false, rfl⟩
    · exact ⟨ram.hasPwpiv, rfl⟩

/-- With another key, the command has nothing to do with the management key. -/
theorem cmdPivAuthenticate_ram (C : PivCrypto) (env : AuthEnv) (ram : PivRam) (store : PivStore K)
    (algo : UInt8) (data : Bytes) (hkeyRef : keyRef ≠ efPivKeyCardmgm) :
    ∃ hasPwpiv, (cmdPivAuthenticate C env ram store algo keyRef data).ram =
      { ram with hasPwpiv := hasPwpiv } := by
  unfold cmdPivAuthenticate
  split
  · exact ⟨ram.hasPwpiv, rfl⟩
  split
  · exact ⟨ram.hasPwpiv, rfl⟩
  rw [if_neg hkeyRef]
  unfold authenticatePrivate
  split
  · exact ⟨ram.hasPwpiv, rfl⟩
  · exact operatePrivate_ram

/-! ### The invariant -/

/-- A pending challenge is the one that was issued last, and the status is not granted meanwhile. -/
def MgmTold (s : MgmState K) : Prop :=
  s.ram.mgmChallengeKind ≠ .none →
    s.issued = some ⟨s.ram.mgmChallengeKind, s.ram.mgmChallengeAlgo,
        s.ram.mgmChallenge.take (challengeLength s.ram.mgmChallengeAlgo)⟩ ∧
      s.ram.hasMgm = false

variable {s : MgmState K}

theorem MgmTold.of_none (h : s.ram.mgmChallengeKind = .none) : MgmTold s :=
  fun hkind ↦ absurd h hkind

variable {reply : AuthReply}

theorem issuedAfter_refuses (h : reply.sw ≠ swOk) : s.issuedAfter keyRef reply = s.issued :=
  if_neg fun hok ↦ h hok.2

variable {kind : MgmChallengeKind}

theorem issuedAfter_issues (h : reply.Issues env algo kind) (hkind : kind ≠ .none) :
    s.issuedAfter efPivKeyCardmgm reply = some ⟨kind, algo, env.challenge algo⟩ := by
  rw [MgmState.issuedAfter, if_pos ⟨rfl, h.sw⟩, if_neg (h.kind ▸ hkind), h.kind, h.sameAlgo,
    h.challenge]

theorem issuedAfter_accepts (h : reply.Accepts algo kind ram) :
    s.issuedAfter efPivKeyCardmgm reply = none := by
  rw [MgmState.issuedAfter, if_pos ⟨rfl, h.sw⟩, if_pos h.ended]

/-- A pending challenge of the kind is the last one of the session. -/
theorem MgmTold.pending (h : MgmTold s) (haccepts : reply.Accepts algo kind s.ram)
    (hkind : kind ≠ .none) :
    s.issued = some ⟨kind, algo, s.ram.mgmChallenge.take (challengeLength algo)⟩ ∧
      s.ram.hasMgm = false := by
  have htold := h (haccepts.kind ▸ hkind)
  rwa [haccepts.kind, haccepts.sameAlgo] at htold

/-- What the invariant says of GENERAL AUTHENTICATE with the management key. -/
theorem MgmTold.authenticate_management (h : MgmTold s) (env : AuthEnv) (algo : UInt8) (data : Bytes) :
    MgmTold (MgmEvent.apply C s (.authenticate env algo efPivKeyCardmgm data)) ∧
      MgmSound C s (.authenticate env algo efPivKeyCardmgm data) := by
  set reply := cmdPivAuthenticate C env s.ram s.store algo efPivKeyCardmgm data with hreply
  have hafter : MgmEvent.apply C s (.authenticate env algo efPivKeyCardmgm data) =
      { s with ram := reply.ram, issued := s.issuedAfter efPivKeyCardmgm reply } := rfl
  -- It is enough to look at the reply.
  suffices hcases :
      MgmTold { s with ram := reply.ram, issued := s.issuedAfter efPivKeyCardmgm reply } ∧
      (s.ram.hasMgm = false → reply.ram.hasMgm = true →
        ∃ issue key, algo = issue.algo ∧ s.issued = some issue ∧ s.disk.key = some key ∧
          issue.AnsweredBy C key data ∧ s.issuedAfter efPivKeyCardmgm reply = none) ∧
      RevealedSoundly C env s algo reply by
    obtain ⟨htold, hgranted, hrevealed⟩ := hcases
    refine ⟨hafter ▸ htold, fun hbefore hgrant ↦ ?_, fun env' algo' data' hevent ↦ ?_⟩
    · obtain ⟨issue, key, rfl, hissued, hkey, hanswered, hnone⟩ := hgranted hbefore hgrant
      exact ⟨env, data, issue, key, rfl, hissued, hkey, hanswered, hnone⟩
    · cases hevent
      exact hrevealed
  have hrefused (hrefuses : reply.Refuses s.ram) :
      MgmTold { s with ram := reply.ram, issued := s.issuedAfter efPivKeyCardmgm reply } := by
    obtain hsame | hnone := hrefuses.kept
    · rw [issuedAfter_refuses hrefuses.sw, hsame]
      exact h
    · exact .of_none hnone
  have hungranted (hrefuses : reply.Refuses s.ram) (hbefore : s.ram.hasMgm = false) :
      reply.ram.hasMgm ≠ true := by
    rw [hrefuses.hasMgm, hbefore]
    exact Bool.false_ne_true
  obtain hrefuses | ⟨mgm, tag, value, hmgm, hanswer, hcase⟩ :=
    cmdPivAuthenticate_answer C env s.ram s.store algo data
  · exact ⟨hrefused hrefuses, fun hbefore hgrant ↦ absurd hgrant (hungranted hrefuses hbefore),
      .nothing hrefuses.response⟩
  have hstored {key : Bytes} (hkey : mgm.key = some key) : s.disk.key = some key := by
    change s.disk.mgm = some mgm at hmgm
    rw [MgmDisk.key, hmgm]
    exact hkey
  cases hcase with
  | refused hrefuses =>
    exact ⟨hrefused hrefuses, fun hbefore hgrant ↦ absurd hgrant (hungranted hrefuses hbefore),
      .nothing hrefuses.response⟩
  | witness key hkey hissues hresponse =>
    have hissued := issuedAfter_issues (s := s) hissues (by decide)
    refine ⟨fun _ ↦ ⟨?_, hissues.hasMgm⟩, fun _ hgrant ↦ ?_, .witness key (hstored hkey) hresponse hissued⟩
    · dsimp only
      rw [hissued, hissues.kind, hissues.sameAlgo, hissues.challenge]
    · rw [hissues.hasMgm] at hgrant
      cases hgrant
  | challenge hissues hresponse =>
    have hissued := issuedAfter_issues (s := s) hissues (by decide)
    refine ⟨fun _ ↦ ⟨?_, hissues.hasMgm⟩, fun _ hgrant ↦ ?_, .challenge hresponse hissued⟩
    · dsimp only
      rw [hissued, hissues.kind, hissues.sameAlgo, hissues.challenge]
    · rw [hissues.hasMgm] at hgrant
      cases hgrant
  | mutualAnswer key chosen hkey haccepts htag hvalue hresponse =>
    obtain ⟨hissued, hbefore⟩ := h.pending haccepts (by decide)
    refine ⟨.of_none haccepts.ended, fun _ _ ↦ ?_,
      .proved key chosen (hstored hkey) hresponse hbefore haccepts.hasMgm⟩
    rw [htag, hvalue] at hanswer
    exact ⟨_, key, rfl, hissued, hstored hkey, .inl ⟨rfl, hanswer⟩, issuedAfter_accepts haccepts⟩
  | singleAnswer key hkey haccepts htag hvalue hresponse =>
    obtain ⟨hissued, hbefore⟩ := h.pending haccepts (by decide)
    refine ⟨.of_none haccepts.ended, fun _ _ ↦ ?_, .nothing hresponse⟩
    rw [htag, hvalue] at hanswer
    exact ⟨_, key, rfl, hissued, hstored hkey, .inr ⟨rfl, hanswer⟩, issuedAfter_accepts haccepts⟩

/-- With another key nothing is granted and no challenge is touched. -/
theorem MgmTold.authenticate_private (h : MgmTold s) (env : AuthEnv) (algo : UInt8) (data : Bytes)
    (hkeyRef : keyRef ≠ efPivKeyCardmgm) :
    MgmTold (MgmEvent.apply C s (.authenticate env algo keyRef data)) ∧
      MgmSound C s (.authenticate env algo keyRef data) := by
  obtain ⟨hasPwpiv, hram⟩ := cmdPivAuthenticate_ram C env s.ram s.store algo data hkeyRef
  have hissued (reply : AuthReply) : s.issuedAfter keyRef reply = s.issued :=
    if_neg fun hmgm ↦ hkeyRef hmgm.1
  have hafter : MgmEvent.apply C s (.authenticate env algo keyRef data) =
      { s with ram := { s.ram with hasPwpiv := hasPwpiv } } := by
    unfold MgmEvent.apply
    dsimp only
    rw [hissued, hram]
  refine ⟨hafter ▸ h, fun hbefore hgrant ↦ ?_, fun env' algo' data' hevent ↦ ?_⟩
  · rw [hafter] at hgrant
    exact absurd (hbefore.symm.trans hgrant) Bool.false_ne_true
  · cases hevent
    exact absurd rfl hkeyRef

/-- A step that grants nothing, and is not GENERAL AUTHENTICATE, is sound. -/
theorem MgmSound.of_not_granted {event : MgmEvent K}
    (hgrant : (event.apply C s).ram.hasMgm = true → s.ram.hasMgm = true)
    (hevent : ∀ env algo data, event ≠ .authenticate env algo efPivKeyCardmgm data) :
    MgmSound C s event :=
  ⟨fun hbefore hafter ↦ absurd (hbefore.symm.trans (hgrant hafter)) Bool.false_ne_true,
    fun env algo data h ↦ absurd h (hevent env algo data)⟩

theorem run_kind (s : MgmState K) (m : MgmProg Unit) (os : List Outcome) :
    (s.run m os).ram.mgmChallengeKind = .none := by
  unfold MgmState.run
  split <;> rfl

theorem run_hasMgm {m : MgmProg Unit} {os : List Outcome}
    (h : (s.run m os).ram.hasMgm = true) : s.ram.hasMgm = true := by
  unfold MgmState.run at h
  split at h
  · cases h
  · exact h

/-- Every step keeps the invariant and is sound. -/
theorem MgmTold.step (h : MgmTold s) (event : MgmEvent K) :
    MgmTold (event.apply C s) ∧ MgmSound C s event := by
  cases event with
  | authenticate env p1 p2 data =>
    by_cases hp2 : p2 = efPivKeyCardmgm
    · rw [hp2]
      exact h.authenticate_management env p1 data
    · exact h.authenticate_private env p1 data hp2
  | setMgmkey p1 p2 data behind os =>
    exact ⟨.of_none (run_kind s _ os), .of_not_granted run_hasMgm fun _ _ _ hevent ↦ by cases hevent⟩
  | move target keys slotMetadata os =>
    exact ⟨.of_none (run_kind s _ os), .of_not_granted run_hasMgm fun _ _ _ hevent ↦ by cases hevent⟩
  | reset blocked keys slotMetadata os os' =>
    refine ⟨.of_none ?_, .of_not_granted (fun hgrant ↦ ?_) fun _ _ _ hevent ↦ by cases hevent⟩
    · unfold MgmEvent.apply
      dsimp only
      split
      · rfl
      · exact run_kind s _ os
    · unfold MgmEvent.apply at hgrant
      dsimp only at hgrant
      split at hgrant
      · cases hgrant
      · exact run_hasMgm hgrant
  | other ends hasPwpiv keys slotMetadata =>
    refine ⟨?_, .of_not_granted (fun hgrant ↦ ?_) fun _ _ _ hevent ↦ by cases hevent⟩
    · cases ends with
      | true => exact .of_none rfl
      | false => exact h
    · cases ends with
      | true => exact hgrant
      | false => exact hgrant
  | session os =>
    exact ⟨.of_none rfl, .of_not_granted (fun hgrant ↦ by cases hgrant) fun _ _ _ hevent ↦ by
      cases hevent⟩

/-- In every run from a state with the invariant, every step is sound. -/
theorem MgmTold.steps (h : MgmTold s) (events : List (MgmEvent K)) :
    ∀ step ∈ mgmSteps C s events, MgmSound C step.1 step.2 := by
  induction events generalizing s with
  | nil => exact fun step hstep ↦ by cases hstep
  | cons event events ih =>
    obtain ⟨htold, hsound⟩ := h.step (C := C) event
    exact List.forall_mem_cons.2 ⟨hsound, ih htold⟩

end PicoAll.Piv
