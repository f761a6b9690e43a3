import PicoAll.Fido.GetAssertion
import PicoAll.Lib.StatefulWalk

/-!
# What an assertion and its walk return

The static variables of `cbor_get_assertion.c` refine a walk over the credentials that are still to
come (`StatefulWalk`): whoever has the channel of the request gets them one by one, in descending
order of `board_creation`, as long as no call is late (`cborGetNextAssertion_refines`).

The order is that of the clock since power-up, and the first `MAX_CREDENTIAL_COUNT_IN_LIST`
credentials of the relying party that load are all that is looked at.
-/

namespace PicoAll

open StatefulWalk AssertionDevice Nat Option

/-! ### The walk -/

/-- An assertion that is still to be made. -/
structure PendingAssertion where
  request : AssertionRequest
  flags : UInt8
  number : ℕ
  cred : Credential

/-- The response to a further call. -/
def PendingAssertion.respond (X : AssertionCrypto) (D : AssertionDevice) (p : PendingAssertion) :
    Except AssertionError AssertionResponse :=
  assertionRespond X D p.request p.flags p.number true p.cred

/-- The assertions to be made, of these credentials. -/
def pendingAssertions (request : AssertionRequest) (flags : UInt8) (number : ℕ)
    (creds : List Credential) : List PendingAssertion :=
  creds.map fun cred ↦ ⟨request, flags, number, cred⟩

/-- A further call, as the walk sees it. -/
def AssertionDevice.call (D : AssertionDevice) : Call UInt32 AssertionDevice :=
  ⟨D.channel, D.millis, D.millisTimer, D⟩

/-- What a call returns for what comes of it. -/
def assertionAnswer : Outcome AssertionError AssertionResponse →
    Except AssertionError AssertionResponse
  | .refused => .error .notAllowed
  | .failed e => .error e
  | .item response => .ok response

theorem assertionAnswer_ofExcept (r : Except AssertionError AssertionResponse) :
    assertionAnswer (.ofExcept r) = r := by
  rcases r with e | response
  · rfl
  · rfl

namespace GnaState

/-- A walk is pending. -/
def Pending (s : GnaState) : Prop :=
  s.counter < s.number

instance (s : GnaState) : Decidable s.Pending :=
  inferInstanceAs (Decidable (s.counter < s.number))

/-- A walk that is pending has its request and all of its credentials. -/
def Valid (s : GnaState) : Prop :=
  s.Pending → s.data.isSome ∧ s.creds.length = s.number

/-- The walk that the variables stand for. -/
def walk (s : GnaState) : Option (Walk UInt32 PendingAssertion) :=
  if s.Pending then
    s.data.bind fun request ↦ Walk.ofList s.channel s.timer
      (pendingAssertions request s.flags s.number (s.creds.drop s.counter))
  else none

variable {s : GnaState}

theorem walk_of_not_pending (h : ¬ s.Pending) : s.walk = none :=
  if_neg h

theorem walk_of_pending {request : AssertionRequest} (h : s.Pending) (hdata : s.data = some request) :
    s.walk = Walk.ofList s.channel s.timer
      (pendingAssertions request s.flags s.number (s.creds.drop s.counter)) := by
  rw [walk, if_pos h, hdata]
  rfl

/-- The walk is there exactly if it is pending. -/
theorem walk_eq_none_iff (hs : s.Valid) : s.walk = none ↔ ¬ s.Pending := by
  refine ⟨fun h hpending ↦ ?_, walk_of_not_pending⟩
  obtain ⟨hdata, hlength⟩ := hs hpending
  obtain ⟨request, hdata⟩ := isSome_iff_exists.mp hdata
  obtain ⟨cred, creds, hcreds⟩ := List.exists_cons_of_length_pos
    (show 0 < (s.creds.drop s.counter).length by
      rw [List.length_drop, hlength]; exact Nat.sub_pos_of_lt hpending)
  rw [walk_of_pending hpending hdata, hcreds] at h
  cases h

/-- Whose walk it is, and when it was last moved. -/
theorem of_walk_eq_some {w : Walk UInt32 PendingAssertion} (h : s.walk = some w) :
    s.channel = w.owner ∧ s.timer = w.timer := by
  rw [walk] at h
  split_ifs at h
  obtain ⟨request, -, h⟩ := bind_eq_some_iff.mp h
  exact Walk.ofList_eq_some h

end GnaState

theorem not_pending_resetGnaState : ¬ resetGnaState.Pending :=
  not_lt_zero 0

theorem walk_resetGnaState : resetGnaState.walk = none :=
  GnaState.walk_of_not_pending not_pending_resetGnaState

theorem valid_resetGnaState : resetGnaState.Valid :=
  fun h ↦ absurd h not_pending_resetGnaState

section Walk

variable {X : AssertionCrypto} {D : AssertionDevice} {s : GnaState}

/-- Without a walk, from another channel and after the timeout a call is refused. -/
theorem cborGetNextAssertion_refused
    (h : ¬ s.Pending ∨ s.channel ≠ D.channel ∨ statefulWalkIdleMs ≤ D.millis - s.timer) :
    cborGetNextAssertion X D s = (.error .notAllowed, resetGnaState) := by
  rw [cborGetNextAssertion]
  by_cases hchannel : s.channel ≠ D.channel
  · rw [if_pos hchannel]
  · by_cases hcounter : s.number ≤ s.counter
    · rw [if_neg hchannel, if_pos hcounter]
    · rw [if_neg hchannel, if_neg hcounter, if_pos]
      exact (h.resolve_left (not_not.mpr (Nat.lt_of_not_le hcounter))).resolve_left hchannel

/-- Any error ends the walk. -/
theorem cborGetNextAssertion_error {e : AssertionError}
    (h : (cborGetNextAssertion X D s).1 = .error e) :
    (cborGetNextAssertion X D s).2 = resetGnaState := by
  by_cases hrefused : ¬ s.Pending ∨ s.channel ≠ D.channel ∨ statefulWalkIdleMs ≤ D.millis - s.timer
  · rw [cborGetNextAssertion_refused hrefused]
  · simp only [not_or, not_not, GnaState.Pending, UInt32.not_le] at hrefused
    obtain ⟨hpending, hchannel, hidle⟩ := hrefused
    rw [cborGetNextAssertion, if_neg (fun hne ↦ hne hchannel), if_neg (not_le.mpr hpending),
      if_neg (UInt32.not_le.mpr hidle)] at h ⊢
    rcases hdata : s.data with _ | request
    · rfl
    · rw [hdata] at h
      dsimp only at h ⊢
      rcases hanswer : assertionRespond X D request s.flags s.number true
          (s.creds.getD s.counter blankCredential) with e' | response
      · rfl
      · rw [hanswer] at h
        cases h

/-- A call from the channel of the walk and in time is answered with the next credential. -/
theorem cborGetNextAssertion_pending {request : AssertionRequest} {cred : Credential}
    {creds : List Credential} (h : s.Pending) (hchannel : s.channel = D.channel)
    (hidle : D.millis - s.timer < statefulWalkIdleMs) (hdata : s.data = some request)
    (hcreds : s.creds.drop s.counter = cred :: creds) :
    cborGetNextAssertion X D s =
      match assertionRespond X D request s.flags s.number true cred with
      | .error e => (.error e, resetGnaState)
      | .ok response =>
        (.ok response, if s.counter + 1 = s.number then resetGnaState
          else { s with timer := D.millisTimer, counter := s.counter + 1 }) := by
  have hget : s.creds.getD s.counter blankCredential = cred := by
    rw [List.getD_eq_getElem?_getD, ← List.head?_drop, hcreds]
    rfl
  rw [cborGetNextAssertion, if_neg (fun hne ↦ hne hchannel), if_neg (not_le.mpr h),
    if_neg (UInt32.not_le.mpr hidle), hdata]
  subst hget
  rfl

/-- **The variables refine the walk**: a call answers as the walk does, and moves it on. -/
theorem cborGetNextAssertion_refines (hs : s.Valid) :
    let step := next statefulWalkIdleMs (PendingAssertion.respond X) D.call s.walk
    (cborGetNextAssertion X D s).1 = assertionAnswer step.1 ∧
      (cborGetNextAssertion X D s).2.walk = step.2 ∧ (cborGetNextAssertion X D s).2.Valid := by
  by_cases hpending : s.Pending
  · obtain ⟨hdata, hlength⟩ := hs hpending
    obtain ⟨request, hdata⟩ := isSome_iff_exists.mp hdata
    obtain ⟨cred, creds, hcreds⟩ := List.exists_cons_of_length_pos
      (show 0 < (s.creds.drop s.counter).length by
        rw [List.length_drop, hlength]; exact Nat.sub_pos_of_lt hpending)
    by_cases hlate : s.channel ≠ D.channel ∨ statefulWalkIdleMs ≤ D.millis - s.timer
    · rw [cborGetNextAssertion_refused (.inr hlate), s.walk_of_pending hpending hdata, hcreds,
        pendingAssertions, List.map_cons, next_refused (hlate.imp_left Ne.symm)]
      exact ⟨rfl, walk_resetGnaState, valid_resetGnaState⟩
    · obtain ⟨hchannel, hidle⟩ := not_or.mp hlate
      have hchannel := not_not.mp hchannel
      have hidle := UInt32.not_le.mp hidle
      rw [cborGetNextAssertion_pending hpending hchannel hidle hdata hcreds,
        s.walk_of_pending hpending hdata, hcreds, pendingAssertions, List.map_cons,
        next_prompt hchannel.symm hidle]
      simp only [PendingAssertion.respond, call]
      rcases assertionRespond X D request s.flags s.number true cred with e | response
      · exact ⟨rfl, walk_resetGnaState, valid_resetGnaState⟩
      · have hrest : s.creds.drop (s.counter + 1) = creds := by
          rw [← List.tail_drop, hcreds]
          rfl
        have hlen : creds.length = s.number - (s.counter + 1) := by
          rw [← hrest, List.length_drop, hlength]
        refine ⟨rfl, ?_⟩
        split_ifs with hlast
        · rw [hlast, Nat.sub_self, List.length_eq_zero_iff] at hlen
          rw [hlen]
          exact ⟨walk_resetGnaState, valid_resetGnaState⟩
        · have hmore : s.counter + 1 < s.number := lt_of_le_of_ne hpending hlast
          refine ⟨?_, fun _ ↦ ⟨hdata ▸ rfl, hlength⟩⟩
          rw [GnaState.walk_of_pending
            (s := { s with timer := D.millisTimer, counter := s.counter + 1 }) hmore hdata, hrest]
          rfl
  · rw [cborGetNextAssertion_refused (.inl hpending), s.walk_of_not_pending hpending]
    exact ⟨rfl, walk_resetGnaState, valid_resetGnaState⟩

end Walk

/-! ### The credentials -/

section Credentials

variable {X : AssertionCrypto} {D : AssertionDevice} {request : AssertionRequest} {flags : UInt8}

/-- The resident credentials of a relying party that load, in the order of their slots. -/
def usableCredentials [FileDeletion] (C : CredentialContext) (files : Files)
    (rpIdHash : Vector UInt8 32) : List Credential :=
  ((residentSlots.filter (assertionSlot C files rpIdHash)).filterMap
    (assertionCredential C files rpIdHash)).map (·.2)

/-- Those an assertion may use: what the flags admit of the first ones. -/
def admittedCredentials [FileDeletion] (C : CredentialContext) (files : Files)
    (rpIdHash : Vector UInt8 32) (flags : UInt8) : List Credential :=
  ((usableCredentials C files rpIdHash).take maxCredentialCountInList).filter
    (assertionAdmits flags)

theorem assertionLoaded_eq [FileDeletion] {rpIdHash : Vector UInt8 32} :
    assertionLoaded D rpIdHash =
      (usableCredentials D.context D.files rpIdHash).take maxCredentialCountInList := by
  rw [assertionLoaded, discoverableCredentials, List.map_take]
  rfl

/-- Nothing is moved where nothing is admitted. -/
theorem assertionMoved_of_nil {loaded : List Credential}
    (h : loaded.filter (assertionAdmits flags) = []) : assertionMoved flags loaded = false := by
  rw [assertionMoved, List.any_eq_false]
  exact fun cred hmem ↦ List.filter_eq_nil_iff.mp h cred ((List.dropWhile_sublist _).mem hmem)

variable {creds : List Credential}

theorem assertionSort_perm : (assertionSort creds).Perm creds :=
  ExchangeSort.exchangeSort_perm

theorem assertionSort_sorted :
    (assertionSort creds).Pairwise fun a b ↦ b.boardCreation ≤ a.boardCreation :=
  ExchangeSort.exchangeSort_sorted

/-- The user is verified exactly if the request has a token. -/
theorem assertionChecks_flags (h : assertionChecks X D request = .ok flags) :
    flags = if request.pinUvAuthParam.isSome then fido2AutFlagUv else 0 := by
  simp only [assertionChecks, except_bind_eq_ok] at h
  obtain ⟨_, -, _, -, f, hverify, _, -, hf⟩ := h
  obtain rfl := Except.ok.inj hf
  rw [assertionVerification] at hverify
  rcases hparam : request.pinUvAuthParam with _ | param
  · simp only [hparam, ite_error_eq_ok] at hverify
    exact (Except.ok.inj hverify.2.2).symm
  · simp only [hparam, ite_error_eq_ok] at hverify
    exact (Except.ok.inj hverify.2.2.2.2).symm

/-- The only thing that can go wrong with the touch is that there is none. -/
theorem assertionPresence_error {touched : Bool} {e : AssertionError}
    (h : assertionPresence D request flags touched = .error e) : e = .operationDenied := by
  rw [assertionPresence] at h
  split_ifs at h <;> exact (Except.error.inj h).symm

/-- A response names its credential, and the first one how many there are, if there are several. -/
theorem assertionRespond_names {number : ℕ} {again : Bool} {cred : Credential}
    {response : AssertionResponse}
    (h : assertionRespond X D request flags number again cred = .ok response) :
    response.credentialId = cred.residentId.getD (X.deriveResident (cred.id.getD [])) ∧
      response.numberOfCredentials = if 1 < number ∧ again = false then some number else none := by
  simp only [assertionRespond, except_bind_eq_ok] at h
  obtain ⟨_, -, ⟨_, _⟩, -, _, -, _, -, _, -, hresponse⟩ := h
  rw [← Except.ok.inj hresponse]
  exact ⟨rfl, rfl⟩

end Credentials

/-! ### Messages -/

section Answer

variable {X : AssertionCrypto} {D : AssertionDevice} {s : GnaState} {request : AssertionRequest}
  {flags flags' : UInt8} {cred : Credential} {creds : List Credential}

/-- The variables after a request that was answered. -/
def gnaAnswered (D : AssertionDevice) (request : AssertionRequest) (flags : UInt8)
    (creds : List Credential) : GnaState :=
  if 1 < creds.length then
    { creds, counter := 1, number := creds.length, flags, timer := D.millisTimer,
      channel := D.channel, data := some request }
  else resetGnaState

theorem valid_gnaAnswered : (gnaAnswered D request flags creds).Valid := by
  rw [gnaAnswered]
  split_ifs with h
  · exact fun _ ↦ ⟨rfl, rfl⟩
  · exact valid_resetGnaState

/-- What is pending then are the credentials behind the first. -/
theorem walk_gnaAnswered :
    (gnaAnswered D request flags (cred :: creds)).walk =
      Walk.ofList D.channel D.millisTimer
        (pendingAssertions request flags (cred :: creds).length creds) := by
  rw [gnaAnswered]
  split_ifs with h
  · exact GnaState.walk_of_pending h rfl
  · rw [show creds = [] from List.length_eq_zero_iff.mp
      (le_zero.mp (le_of_succ_le_succ (not_lt.mp h)))]
    exact walk_resetGnaState

theorem answerAssertion_nil :
    ∃ e, (e = .noCredentials ∨ e = .operationDenied) ∧
      answerAssertion X D s request flags false [] = some (.error e) := by
  rw [answerAssertion]
  rcases htouch : assertionPresence D request flags D.checkUserPresence with e | f
  · exact ⟨e, .inr (assertionPresence_error htouch), rfl⟩
  · exact ⟨_, .inl rfl, rfl⟩

theorem answerAssertion_cons {moved : Bool}
    (htouch : assertionPresence D request flags (D.checkUserPresenceForCredential cred.requireButton)
      = .ok flags')
    (hblob : request.extensions.largeBlobKey ≠ some false) (hfreed : creds ≠ [] ∨ moved = false) :
    answerAssertion X D resetGnaState request flags moved (cred :: creds) =
      some ((assertionRespond X D request flags' (cred :: creds).length false cred).map
        (·, gnaAnswered D request flags' (cred :: creds))) := by
  rw [answerAssertion, htouch]
  dsimp only
  rw [if_neg hblob, gnaAnswered]
  split_ifs with hnumber
  · rfl
  · rw [hfreed.resolve_left fun hne ↦ hnumber (succ_lt_succ (List.length_pos_iff.mpr hne))]
    rfl

end Answer

section Messages

variable [FileDeletion] {X : AssertionCrypto} {D : AssertionDevice} {s : GnaState}
  {request : AssertionRequest} {flags : UInt8}

theorem getAssertion_eq (hchecks : assertionChecks X D request = .ok flags) :
    getAssertion X D s (.ok request) =
      answerAssertion X D s request flags
        (assertionMoved flags (assertionLoaded D (X.sha256 request.rpId)))
        (assertionSort ((assertionLoaded D (X.sha256 request.rpId)).filter (assertionAdmits flags))) := by
  rw [getAssertion]
  rw [hchecks]

variable {devices : List AssertionDevice}

/-- **Further calls answer as the walk does.** -/
theorem gnaRun_next_refines (hs : s.Valid) :
    let calls := run statefulWalkIdleMs (PendingAssertion.respond X) (devices.map call) s.walk
    ∃ s', gnaRun X (devices.map (·, .getNextAssertion)) s =
        some (calls.1.map (some ∘ assertionAnswer), s') ∧ s'.walk = calls.2 ∧ s'.Valid := by
  induction devices generalizing s with
  | nil => exact ⟨s, rfl, rfl, hs⟩
  | cons D devices ih =>
    obtain ⟨hanswer, hwalk, hvalid⟩ := @cborGetNextAssertion_refines X D s hs
    obtain ⟨s', hrun, hwalks, hvalids⟩ := ih hvalid
    rw [hwalk] at hrun hwalks
    refine ⟨s', ?_, hwalks, hvalids⟩
    show (gnaRun X (devices.map (·, .getNextAssertion)) (cborGetNextAssertion X D s).2 >>= _) = _
    rw [hrun]
    exact congrArg (fun a ↦ some (some a :: _, s')) hanswer

/-- **A walk from its start**: further calls on the channel, none late, are answered with the
credentials behind the first in their order, and the walk ends with the last. -/
theorem gnaRun_gnaAnswered {cred : Credential} {rest : List Credential}
    (hprompt : Prompt statefulWalkIdleMs D.channel D.millisTimer (devices.map call))
    (hlength : devices.length ≤ rest.length)
    (hanswer : ∀ p ∈ devices.zip rest,
      (assertionRespond X p.1 request flags (cred :: rest).length true p.2).isOk) :
    ∃ s', gnaRun X (devices.map (·, .getNextAssertion))
        (gnaAnswered D request flags (cred :: rest)) = some ((devices.zip rest).map
          (fun p ↦ some (assertionRespond X p.1 request flags (cred :: rest).length true p.2)), s') ∧
      (s'.Pending ↔ devices.length < rest.length) ∧
      (s'.Pending → s'.channel = D.channel ∧
        s'.timer = lastTimer D.millisTimer (devices.map call)) := by
  obtain ⟨s', hmessages, hwalk, hvalid⟩ := @gnaRun_next_refines _ X
    (gnaAnswered D request flags (cred :: rest)) devices valid_gnaAnswered
  have hzip : (devices.map call).zip
      (pendingAssertions request flags (cred :: rest).length rest) =
        (devices.zip rest).map (Prod.map call (⟨request, flags, (cred :: rest).length, ·⟩)) :=
    List.zip_map
  have hlen : (devices.map call).length ≤
      (pendingAssertions request flags (cred :: rest).length rest).length := by
    rw [List.length_map, pendingAssertions, List.length_map]
    exact hlength
  have hrun : run statefulWalkIdleMs (PendingAssertion.respond X)
      (devices.map call) (Walk.ofList D.channel D.millisTimer
        (pendingAssertions request flags (cred :: rest).length rest)) = _ :=
    run_prompt hprompt hlen <| by
      rw [hzip]
      intro p hp
      obtain ⟨q, hq, rfl⟩ := List.mem_map.mp hp
      exact hanswer q hq
  rw [walk_gnaAnswered, hrun] at hmessages hwalk
  refine ⟨s', hmessages.trans (congrArg (fun answers ↦ some (answers, s')) ?_), ?_,
    fun hpending ↦ ?_⟩
  · rw [hzip, List.map_map, List.map_map]
    exact List.map_congr_left fun p _ ↦
      congrArg some (assertionAnswer_ofExcept (assertionRespond X p.1 request flags _ true p.2))
  · rw [← not_iff_not, ← GnaState.walk_eq_none_iff hvalid, hwalk, Walk.ofList_eq_none,
      List.drop_eq_nil_iff, pendingAssertions, List.length_map, List.length_map, not_lt]
  · rcases hw : s'.walk with _ | w
    · exact absurd hpending ((GnaState.walk_eq_none_iff hvalid).mp hw)
    · have hs := GnaState.of_walk_eq_some hw
      rw [hwalk] at hw
      have hl := Walk.ofList_eq_some hw
      exact ⟨hs.1.trans hl.1.symm, hs.2.trans hl.2.symm⟩

end Messages

/-! ### The law -/

section Law

variable [FileDeletion]

/-- **The selection and the walk.** Whatever the variables are: a request is answered with the first of
the credentials it admits, in descending order of `board_creation`, and says how many there are; the
calls that follow on its channel, none late, return the others in that order; a call that has no
walk, comes from another channel or is late is refused, and it ends the walk, as does any error and
any other command of `CTAPHID_CBOR`. Left out is a single credential that is admitted behind one that
is not. -/
theorem get_assertion_walk_law (X : AssertionCrypto) (s : GnaState) :
    (∀ D request flags, assertionChecks X D request = .ok flags →
      flags = (if request.pinUvAuthParam.isSome then fido2AutFlagUv else 0) ∧
      ∃ creds : List Credential,
        creds.Perm (admittedCredentials D.context D.files (X.sha256 request.rpId) flags) ∧
        creds.Pairwise (fun a b ↦ b.boardCreation ≤ a.boardCreation) ∧
        (creds = [] → ∃ e, (e = .noCredentials ∨ e = .operationDenied) ∧
          cborParseAssertion X D s (.getAssertion (.ok request)) =
            some (some (.error e), resetGnaState)) ∧
        ∀ cred rest, creds = cred :: rest → ∀ flags', assertionPresence D request flags
            (D.checkUserPresenceForCredential cred.requireButton) = .ok flags' →
          request.extensions.largeBlobKey ≠ some false →
          rest ≠ [] ∨ assertionMoved flags ((usableCredentials D.context D.files
            (X.sha256 request.rpId)).take maxCredentialCountInList) = false →
          ∃ s₁, cborParseAssertion X D s (.getAssertion (.ok request)) =
              some (some (assertionRespond X D request flags' creds.length false cred), s₁) ∧
            ∀ response, assertionRespond X D request flags' creds.length false cred = .ok response →
              response.credentialId = cred.residentId.getD (X.deriveResident (cred.id.getD [])) ∧
              response.numberOfCredentials =
                (if 1 < creds.length then some creds.length else none) ∧
              ∀ devices : List AssertionDevice,
                Prompt statefulWalkIdleMs D.channel D.millisTimer (devices.map call) →
                devices.length ≤ rest.length →
                (∀ p ∈ devices.zip rest,
                  (assertionRespond X p.1 request flags' creds.length true p.2).isOk) →
                ∃ s₂, gnaRun X (devices.map (·, .getNextAssertion)) s₁ =
                    some ((devices.zip rest).map (fun p ↦
                      some (assertionRespond X p.1 request flags' creds.length true p.2)), s₂) ∧
                  (s₂.Pending ↔ devices.length < rest.length) ∧
                  (s₂.Pending → s₂.channel = D.channel ∧
                    s₂.timer = lastTimer D.millisTimer (devices.map call))) ∧
    (∀ D : AssertionDevice,
      ¬ s.Pending ∨ s.channel ≠ D.channel ∨ statefulWalkIdleMs ≤ D.millis - s.timer →
      cborParseAssertion X D s .getNextAssertion =
        some (some (.error .notAllowed), resetGnaState)) ∧
    (∀ D message e s', cborParseAssertion X D s message = some (some (.error e), s') →
      s' = resetGnaState) ∧
    (∀ D, cborParseAssertion X D s .other = some (none, resetGnaState)) ∧
    ¬ resetGnaState.Pending := by
  refine ⟨fun D request flags hchecks ↦ ⟨assertionChecks_flags hchecks,
    assertionSort ((assertionLoaded D (X.sha256 request.rpId)).filter (assertionAdmits flags)), ?_,
    assertionSort_sorted, ?_, ?_⟩, ?_, ?_, fun _ ↦ rfl, not_pending_resetGnaState⟩
  · rw [assertionLoaded_eq]
    exact assertionSort_perm
  -- none is admitted
  · intro hnil
    obtain ⟨e, he, hanswer⟩ := @answerAssertion_nil X D resetGnaState request flags
    refine ⟨e, he, ?_⟩
    have hfilter := List.nil_perm.mp (hnil ▸ assertionSort_perm)
    rw [cborParseAssertion, cborGetAssertion, getAssertion_eq hchecks, hnil,
      assertionMoved_of_nil hfilter, hanswer]
    rfl
  -- the first is answered, and the others are pending
  · intro cred rest hcons flags' htouch hblob hfreed
    rw [← assertionLoaded_eq] at hfreed
    rw [cborParseAssertion, cborGetAssertion, getAssertion_eq hchecks, hcons,
      answerAssertion_cons htouch hblob hfreed]
    rcases hrespond : assertionRespond X D request flags' (cred :: rest).length false cred
      with e | response
    · exact ⟨resetGnaState, rfl, fun response hresponse ↦ nomatch hresponse⟩
    · refine ⟨gnaAnswered D request flags' (cred :: rest), rfl, ?_⟩
      rintro _ ⟨rfl⟩
      obtain ⟨hid, hnumber⟩ := assertionRespond_names hrespond
      refine ⟨hid, ?_, fun devices hprompt hlength hanswer ↦
        gnaRun_gnaAnswered hprompt hlength hanswer⟩
      rw [hnumber]
      simp only [and_true]
  · intro D h
    rw [cborParseAssertion, cborGetNextAssertion_refused h]
  · intro D message e s' h
    cases message with
    | getAssertion parsed =>
      rw [cborParseAssertion, cborGetAssertion, Option.map_map] at h
      obtain ⟨r, -, heq⟩ := Option.map_eq_some_iff.mp h
      rcases r with e' | ⟨response, s''⟩
      · exact (Prod.ext_iff.mp heq).2.symm
      · cases heq
    | getNextAssertion =>
      obtain ⟨hanswer, rfl⟩ := Prod.ext_iff.mp (Option.some.inj h)
      exact cborGetNextAssertion_error (Option.some.inj hanswer)
    | other => cases h
    | outside => cases h

end Law

/-! ### More credentials than are looked at -/

/-- Cryptography for an example run. -/
def exampleAssertionCrypto : AssertionCrypto where
  cbor := plainCbor
  sha256 _ := .replicate 32 7
  deriveLargeBlobKey _ := none
  deriveResident credId := List.replicate credResidentLen 9 ++ credId
  hmacSecret _ _ _ := .error .invalidParameter

/-- Formats in which the last byte of a credential id numbers the credentials in the order of their
creation, each in a power cycle of its own and sooner after its start than the one before. -/
def exampleTimedCodec : CredentialCodec where
  credentialLoad credId _ := .ok { blankCredential with
    id := some credId, present := true, boardCreation := 1000 - (credId.getLastD 0).toNat,
    rtcCreation := 1700000000 + (credId.getLastD 0).toNat }
  credentialParseMetadata _ := .error .failed
  credentialVerify _ _ _ := .ok ()
  credentialDeriveResident _ := .error .failed
  credentialSilentTag _ _ := .error .failed
  credentialImportCheck _ := .error .failed

/-- A device with credentials of an earlier firmware in its first slots. -/
def exampleAssertionDevice (number : ℕ) : AssertionDevice where
  context :=
    { sha256 := fun _ ↦ [], codec := exampleTimedCodec, primary := none, legacy := none, rtc := none }
  files fid := if 0xcf00 ≤ fid ∧ fid < 0xcf00 + number then
    some (List.replicate 32 7 ++ credProto ++ [.ofNat (fid - 0xcf00)]) else none
  channel := 5
  millis := 100
  millisTimer := 200
  checkUserPresence := true
  checkUserPresenceForCredential _ := true
  pinSet := false
  alwaysUv := false
  keydevUnlocked := true
  verify _ _ _ := false
  userVerified := false
  userPresent := false
  permissions := 0
  tokenRpIdHash := none
  bumpSignCounter := some 1
  sign _ _ _ _ := .ok [3]

/-- A request with nothing in it but what has to be there. -/
def exampleAssertionRequest : AssertionRequest where
  rpId := [0x61]
  clientDataHash := .replicate 32 1
  extensions := ⟨none, none, none, none, false⟩
  options := noOptions
  pinUvAuthParam := none
  pinUvAuthProtocol := none
  rpId_ne_nil := List.cons_ne_nil _ _
  pinUvAuthProtocol_mem _ h := absurd h (Option.not_mem_none _)

/-- **The list is bounded, the order is that of the board's clock**, and only commands of
`CTAPHID_CBOR` end a walk: of 17 credentials 16 are counted, the first one returned is of those the
one that was created first, and a message of another kind leaves its walk pending. -/
theorem assertion_seventeen_credentials :
    let D := exampleAssertionDevice 17
    let usable := usableCredentials D.context D.files (.replicate 32 7)
    let answered := cborParseAssertion exampleAssertionCrypto D gnaPowerUp
      (.getAssertion (.ok exampleAssertionRequest))
    (usable.filter (assertionAdmits 0)).length = 17 ∧
      answered.bind (fun a ↦ a.1.bind fun r ↦ r.toOption.bind (·.numberOfCredentials)) = some 16 ∧
      answered.bind (fun a ↦ a.2.creds.head?.map (·.rtcCreation)) = some 1700000000 ∧
      answered.bind (fun a ↦ a.2.creds.getLast?.map (·.rtcCreation)) = some 1700000015 ∧
      ∃ s ∈ answered.bind (fun a ↦ cborParseAssertion exampleAssertionCrypto D a.2 .outside),
        s.2.Pending := by
  decide +kernel

end PicoAll
