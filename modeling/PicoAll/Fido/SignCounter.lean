import PicoAll.Lib.ByteBuffer

/-!
# The signature counter

`fido.c`, `cbor_make_credential.c`, `cbor_get_assertion.c`, `cmd_authenticate.c`: one counter for all
credentials, in the file `EF_COUNTER`. A command that signs counts it up, writes it, and signs with
what it has written; the write reaches the flash later. An assertion of an imported credential does
not touch it and carries zero.

Of a command only what concerns the counter is here: whether it fails before it gets there, and
whether it fails afterwards. Along a run in which no power cut comes before the counter has reached
the flash, and which ends before the counter does, the counters of the credentials that are not
imported increase (`sign_counters_increase`).
-/

namespace PicoAll

open BigEndian ByteBuffer Option List

/-- `EF_COUNTER`: what the commands read and write, and what is in the flash. -/
structure CounterFile where
  /-- The content that `file_get_data` gives. -/
  content : Bytes
  /-- The content in the flash. -/
  flash : Bytes
  deriving DecidableEq

def getSignCounter (file : CounterFile) : UInt32 :=
  .ofNat (leNat (file.content.take 4))

/-- `bump_sign_counter`, where `put` says whether `file_put_data` succeeds. `none` is an error. -/
def bumpSignCounter (file : CounterFile) (put : Bool) : Option UInt32 × CounterFile :=
  if file.content.length ≠ 4 then
    (none, file)
  else
    let next := getSignCounter file + 1
    if put then
      (some next, { file with content := leBytes 4 next.toNat })
    else
      (none, file)

/-- What concerns the counter in `scan_files_fido`: a file without data gets a zero. -/
def scanCounterFile (file : CounterFile) (put : Bool) : CounterFile :=
  if file.content = [] ∧ put then { file with content := leBytes 4 0 } else file

/-- The commands. -/
inductive SignCommand where
  /-- `cbor_make_credential`. -/
  | makeCredential
  /-- `cbor_get_assertion`, whose credential may be imported. -/
  | getAssertion (imported : Bool)
  /-- `cbor_get_next_assertion`, which is `cbor_get_assertion` with the next credential. -/
  | getNextAssertion (imported : Bool)
  /-- `cmd_register`, whose signature is not over a counter. -/
  | u2fRegister
  /-- `cmd_authenticate`. -/
  | u2fAuthenticate
  deriving DecidableEq

/-- The commands that leave the counter as it is, and what they sign over in its place. -/
def SignCommand.uncounted : SignCommand → Option (Option UInt32)
  | getAssertion true | getNextAssertion true => some (some 0)
  | u2fRegister => some none
  | _ => none

/-- The signature is one of an imported credential. -/
def SignCommand.imported : SignCommand → Bool
  | getAssertion imported | getNextAssertion imported => imported
  | _ => false

/-- How a command goes, apart from the counter. -/
structure SignOutcome where
  /-- It passes everything before the counter. -/
  before : Bool
  /-- `file_put_data` succeeds. -/
  put : Bool
  /-- It passes everything after the counter, and the response is sent. -/
  after : Bool

/-- A command: the counter in the signature that is sent. -/
def signCommand (file : CounterFile) (command : SignCommand) (outcome : SignOutcome) :
    Option UInt32 × CounterFile :=
  if !outcome.before then
    (none, file)
  else
    match command.uncounted with
    | some counter => (if outcome.after then counter else none, file)
    | none =>
      let (counter, file) := bumpSignCounter file outcome.put
      (if outcome.after then counter else none, file)

/-- What happens. -/
inductive SignEvent where
  /-- A command. -/
  | sign (command : SignCommand) (outcome : SignOutcome)
  /-- What has been written reaches the flash. -/
  | flush
  /-- The power is lost and comes back; `put` says whether `scan_files_fido` can write. -/
  | powerCut (put : Bool)

/-- The counter in the signature that an event sends, with the command; and the file after it. -/
def SignEvent.step (file : CounterFile) : SignEvent → Option (SignCommand × UInt32) × CounterFile
  | sign command outcome =>
    let (counter, file) := signCommand file command outcome
    (counter.map (command, ·), file)
  | flush => (none, { file with flash := file.content })
  | powerCut put => (none, scanCounterFile { file with content := file.flash } put)

/-- The counters that are sent in a run, in order. -/
def signRun : CounterFile → List SignEvent → List (SignCommand × UInt32)
  | _, [] => []
  | file, event :: events => (event.step file).1.toList ++ signRun (event.step file).2 events

/-- What may be asked of an event: power cuts come when the file has reached the flash, and the
counter is not at its end when a command counts it up. -/
def SignEvent.Safe (file : CounterFile) : SignEvent → Prop
  | sign _ _ => (getSignCounter file).toNat ≠ 2 ^ 32 - 1
  | flush => True
  | powerCut _ => file.flash = file.content

/-- All events of a run are safe where they happen. -/
def SignSafe : CounterFile → List SignEvent → Prop
  | _, [] => True
  | file, event :: events => event.Safe file ∧ SignSafe (event.step file).2 events

instance (file : CounterFile) (event : SignEvent) : Decidable (event.Safe file) :=
  match event with
  | .sign _ _ => inferInstanceAs (Decidable ((getSignCounter file).toNat ≠ 2 ^ 32 - 1))
  | .flush => inferInstanceAs (Decidable True)
  | .powerCut _ => inferInstanceAs (Decidable (file.flash = file.content))

instance SignSafe.decidable : (file : CounterFile) → (events : List SignEvent) →
    Decidable (SignSafe file events)
  | _, [] => inferInstanceAs (Decidable True)
  | file, event :: events =>
    have := decidable (event.step file).2 events
    inferInstanceAs (Decidable (event.Safe file ∧ SignSafe (event.step file).2 events))

variable {file : CounterFile} {command : SignCommand} {outcome : SignOutcome} {file' : CounterFile}

/-- **The counter is counted up by one**, and what is returned is what has been written. -/
theorem bumpSignCounter_some {put : Bool} {counter : UInt32}
    (h : bumpSignCounter file put = (some counter, file'))
    (hsafe : (getSignCounter file).toNat ≠ 2 ^ 32 - 1) :
    (getSignCounter file).toNat < counter.toNat ∧ getSignCounter file' = counter := by
  rw [bumpSignCounter] at h
  split_ifs at h
  · cases h
  · cases h
    have hlt := (getSignCounter file).toNat_lt
    have hnext : (getSignCounter file + 1).toNat = (getSignCounter file).toNat + 1 := by
      rw [UInt32.toNat_add, Nat.mod_eq_of_lt (by simp only [UInt32.reduceToNat]; omega)]
      rfl
    refine ⟨by omega, ?_⟩
    show UInt32.ofNat (leNat ((leBytes 4 _).take 4)) = _
    rw [take_of_length_le (length_leBytes _ _).le, leNat_leBytes (by omega),
      UInt32.ofNat_toNat]
  · cases h

theorem bumpSignCounter_none {put : Bool} (h : bumpSignCounter file put = (none, file')) :
    file' = file := by
  rw [bumpSignCounter] at h
  split_ifs at h <;> cases h <;> rfl

/-- **A command**: the counter does not go back, and what is sent for a credential that is not
imported is above what it was and is what it is. -/
theorem signCommand_counter {sent : Option UInt32}
    (h : signCommand file command outcome = (sent, file'))
    (hsafe : (getSignCounter file).toNat ≠ 2 ^ 32 - 1) :
    (getSignCounter file).toNat ≤ (getSignCounter file').toNat ∧
      ∀ counter ∈ sent, if command.imported then counter = 0
        else (getSignCounter file).toNat < counter.toNat ∧ getSignCounter file' = counter := by
  have hnone : ∀ counter ∈ (none : Option UInt32), if command.imported then counter = 0
      else (getSignCounter file).toNat < counter.toNat ∧ getSignCounter file' = counter :=
    fun _ hmem ↦ absurd hmem (by simp)
  rw [signCommand] at h
  by_cases hbefore : (!outcome.before) = true
  · rw [if_pos hbefore] at h
    cases h
    exact ⟨le_rfl, hnone⟩
  rw [if_neg hbefore] at h
  rcases huncounted : command.uncounted with - | carried
  · have himported : command.imported = false := by
      cases command with
      | getAssertion imported | getNextAssertion imported =>
        cases imported
        · rfl
        · cases huncounted
      | makeCredential | u2fRegister | u2fAuthenticate => rfl
    rw [huncounted] at h
    rcases hbump : bumpSignCounter file outcome.put with ⟨counter | counter, file''⟩
    · rw [hbump] at h
      cases h
      rw [bumpSignCounter_none hbump]
      exact ⟨le_rfl, fun _ hmem ↦ absurd hmem (by simp)⟩
    · obtain ⟨hlt, hread⟩ := bumpSignCounter_some hbump hsafe
      rw [hbump] at h
      cases h
      refine ⟨by rw [hread]; exact hlt.le, fun c hc ↦ ?_⟩
      have hcounter : counter = c := by
        rw [mem_def] at hc
        split_ifs at hc
        exact Option.some.inj hc
      rw [if_neg (by rw [himported]; exact Bool.false_ne_true), ← hcounter]
      exact ⟨hlt, hread⟩
  · rw [huncounted] at h
    cases h
    refine ⟨le_rfl, fun c hc ↦ ?_⟩
    rw [mem_def] at hc
    split_ifs at hc
    cases command with
    | getAssertion imported | getNextAssertion imported =>
      cases imported
      · cases huncounted
      · cases huncounted
        exact (Option.some.inj hc).symm
    | u2fRegister =>
      cases huncounted
      cases hc
    | makeCredential | u2fAuthenticate => cases huncounted

/-- **One event.** -/
theorem SignEvent.step_counter (event : SignEvent) (hsafe : event.Safe file) :
    (getSignCounter file).toNat ≤ (getSignCounter (event.step file).2).toNat ∧
      ∀ sent ∈ (event.step file).1,
        if sent.1.imported then sent.2 = 0
        else (getSignCounter file).toNat < sent.2.toNat ∧
          getSignCounter (event.step file).2 = sent.2 := by
  cases event with
  | sign command outcome =>
    obtain ⟨hle, hsent⟩ := @signCommand_counter file command outcome _ _ rfl hsafe
    refine ⟨hle, fun sent hmem ↦ ?_⟩
    obtain ⟨counter, hcounter, rfl⟩ := map_eq_some_iff.mp hmem
    exact hsent counter hcounter
  | flush => exact ⟨le_rfl, fun _ hmem ↦ absurd hmem (by simp [step])⟩
  | powerCut put =>
    have hsame : ({ file with content := file.flash } : CounterFile) = file := by
      have hflash : file.flash = file.content := hsafe
      cases file
      exact congrArg (CounterFile.mk · _) hflash
    refine ⟨?_, fun _ hmem ↦ absurd hmem (by simp [step])⟩
    show _ ≤ (getSignCounter (scanCounterFile { file with content := file.flash } put)).toNat
    rw [hsame, scanCounterFile]
    split_ifs with hempty
    · rw [getSignCounter, hempty.1]
      exact Nat.zero_le _
    · exact le_rfl

/-- What is sent in a run is above where the counter was. -/
theorem signRun_lt {events : List SignEvent} (hsafe : SignSafe file events)
    {sent : SignCommand × UInt32} (hmem : sent ∈ signRun file events) :
    if sent.1.imported then sent.2 = 0 else (getSignCounter file).toNat < sent.2.toNat := by
  induction events generalizing file with
  | nil => cases hmem
  | cons event events ih =>
    obtain ⟨hle, hstep⟩ := event.step_counter hsafe.1
    rcases mem_append.mp hmem with hfirst | hrest
    · have h := hstep sent (mem_toList.mp hfirst)
      split_ifs at h ⊢
      · exact h
      · exact h.1
    · have h := ih hsafe.2 hrest
      split_ifs at h ⊢
      · exact h
      · exact hle.trans_lt h

/-- **The counter increases.** In every run in which no power cut comes before the counter has
reached the flash and the counter is not at its end, the counters that are sent for credentials that
are not imported are strictly increasing, whatever fails; imported credentials carry zero. -/
theorem sign_counters_increase {events : List SignEvent} (hsafe : SignSafe file events) :
    ((signRun file events).filter fun sent ↦ !sent.1.imported).Pairwise
        (fun earlier later ↦ earlier.2 < later.2) ∧
      ∀ sent ∈ signRun file events, sent.1.imported = true → sent.2 = 0 := by
  constructor
  · induction events generalizing file with
    | nil => exact .nil
    | cons event events ih =>
      obtain ⟨-, hstep⟩ := event.step_counter hsafe.1
      rw [signRun, filter_append]
      refine pairwise_append.mpr ⟨?_, ih hsafe.2, fun earlier hearlier later hlater ↦ ?_⟩
      · exact pairwise_toList.filter _
      · -- What is sent now is what the counter is, and everything later is above that.
        obtain ⟨hearlier, hown⟩ := mem_filter.mp hearlier
        obtain ⟨hlater, hown'⟩ := mem_filter.mp hlater
        have hnow := hstep earlier (mem_toList.mp hearlier)
        have hlt := signRun_lt hsafe.2 hlater
        rw [if_neg (by simpa using hown)] at hnow
        rw [if_neg (by simpa using hown'), hnow.2] at hlt
        exact UInt32.lt_iff_toNat_lt.mpr hlt
  · intro sent hmem himported
    have h := signRun_lt hsafe hmem
    rwa [if_pos himported] at h

/-- A counter that has never been used. -/
def freshCounterFile : CounterFile :=
  ⟨leBytes 4 0, leBytes 4 0⟩

/-- A credential is made and used once; the counters are one and two. -/
theorem sign_counters_increase_twice :
    let events : List SignEvent := [.sign .makeCredential ⟨true, true, true⟩, .flush,
      .powerCut true, .sign (.getAssertion false) ⟨true, true, true⟩]
    SignSafe freshCounterFile events ∧
      ((signRun freshCounterFile events).filter fun sent ↦ !sent.1.imported).Pairwise
        (fun earlier later ↦ earlier.2 < later.2) := by
  intro events
  have hsafe : SignSafe freshCounterFile events := by decide +kernel
  exact ⟨hsafe, (sign_counters_increase hsafe).1⟩

/-- What is sent is not increasing when an imported credential is used after another one; when the
power is lost after a response and before the counter has reached the flash; and when the counter is
at its end. -/
theorem sign_counters_not_increasing :
    let ok : SignOutcome := ⟨true, true, true⟩
    let sent (file : CounterFile) (events : List SignEvent) :=
      (signRun file events).map fun sent ↦ sent.2
    sent freshCounterFile [.sign (.getAssertion false) ok, .sign (.getAssertion true) ok] =
        [1, 0] ∧
      sent freshCounterFile [.sign .u2fAuthenticate ok, .powerCut true, .sign .u2fAuthenticate ok] =
        [1, 1] ∧
      sent ⟨leBytes 4 (2 ^ 32 - 2), leBytes 4 (2 ^ 32 - 2)⟩
        [.sign .makeCredential ok, .sign .makeCredential ok] = [.ofNat (2 ^ 32 - 1), 0] := by
  decide +kernel

end PicoAll
