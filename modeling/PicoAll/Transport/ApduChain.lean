import PicoAll.Transport.Apdu

/-!
# Command chaining

A run feeds commands to `process_apdu`, each while some application is selected. The chain there is
at any time is that of the commands before it: the last commands of the run are its segments
(`ChainOf`). So whatever is handed on has the data of its own segments and nothing else, and a chain
that nothing interrupts arrives as a whole (`apdu_chaining`).
-/

namespace PicoAll

open List

/-- A command and the application that is selected when it comes. -/
abbrev ApduEvent := Option ApduApp × ApduCommand

/-- A command and what became of it. -/
abbrev ApduRecord := ApduCommand × ApduOutcome

/-- A run of commands, with what became of each. -/
def apduRun (chain : ApduChain) : List ApduEvent → List ApduRecord
  | [] => []
  | (app, cmd) :: events =>
    (cmd, (processApdu app cmd chain).2) :: apduRun (processApdu app cmd chain).1 events

/-- The state after a run. -/
def apduChainAfter (chain : ApduChain) : List ApduEvent → ApduChain
  | [] => chain
  | (app, cmd) :: events => apduChainAfter (processApdu app cmd chain).1 events

/-- The data of some commands, one after the other. -/
def apduData (records : List ApduRecord) : Bytes :=
  records.flatMap fun record ↦ record.1.data

/-- The data that is handed on. -/
def ApduOutcome.data? : ApduOutcome → Option Bytes
  | .status _ => none
  | .select data => some data
  | .handler _ data _ => some data

/-- The commands that are segments of a chain with a header. -/
def SegmentsOf (header : ApduHeader) (records : List ApduRecord) : Prop :=
  ∀ record ∈ records, record.1.header.chained = true ∧ record.1.header.unchained = header ∧
    record.2 = .status swOk

variable {app : Option ApduApp} {cmd : ApduCommand} {chain : ApduChain} {header : ApduHeader}
  {data : Bytes} {ne : ℕ}

/-! ### One command -/

/-- A header without the chaining bit has no chaining bit to lose. -/
theorem ApduHeader.unchained_of_not_chained (h : header.chained = false) :
    header.unchained = header := by
  have hbit : ∀ n : Fin 256, (UInt8.ofNat n &&& 0x10 != 0) = false →
      UInt8.ofNat n &&& ~~~0x10 = UInt8.ofNat n := by
    decide +kernel
  obtain ⟨cla, ins, p1, p2⟩ := header
  have hcla := hbit ⟨cla.toNat, cla.toNat_lt⟩
  simp only [UInt8.ofNat_toNat] at hcla
  rw [unchained, hcla h]

theorem dispatchApdu_data? {data' : Bytes}
    (h : (dispatchApdu app header data ne).data? = some data') : data' = data := by
  rw [dispatchApdu] at h
  split_ifs at h <;> cases h <;> rfl

/-- **What becomes of a command.** It is refused and the chain dropped; or it is a segment of the
chain, and its data is kept; or it is the last one of the chain, or has nothing to do with it, and is
dispatched. -/
theorem processApdu_cases (app : Option ApduApp) (cmd : ApduCommand) (chain : ApduChain) :
    ((processApdu app cmd chain).1.isChaining = false ∧
        ∃ sw, (processApdu app cmd chain).2 = .status sw) ∨
      (cmd.header.chained = true ∧
        (chain.openWith cmd.header.unchained).chainHeader = cmd.header.unchained ∧
        processApdu app cmd chain = (⟨true, cmd.header.unchained,
          (chain.openWith cmd.header.unchained).chainBuf ++ cmd.data⟩, .status swOk)) ∨
      (cmd.header.chained = false ∧ (processApdu app cmd chain).1.isChaining = false ∧
        ((processApdu app cmd chain).2 = dispatchApdu app cmd.header cmd.data cmd.ne ∨
          chain.isChaining = true ∧ cmd.header = chain.chainHeader ∧ cmd.header.isSelect = false ∧
            (processApdu app cmd chain).2 =
              dispatchApdu app cmd.header (chain.chainBuf ++ cmd.data) cmd.ne)) := by
  rcases hchained : cmd.header.chained with - | -
  · have hheader := cmd.header.unchained_of_not_chained hchained
    rw [processApdu, hchained, hheader]
    rcases hchaining : chain.isChaining with - | -
    · exact .inr (.inr ⟨rfl, hchaining, .inl rfl⟩)
    · rcases hselect : cmd.header.isSelect with - | -
      · by_cases hsame : cmd.header = chain.chainHeader
        · by_cases hroom : chain.chainBuf.length + cmd.data.length ≥ chainBufSize
          · refine .inl ?_
            simp [hsame, hroom, ApduChain.drop]
          · refine .inr (.inr ⟨rfl, ?_, .inr ⟨rfl, hsame, rfl, ?_⟩⟩)
            · simp [hsame, hroom, ApduChain.drop]
            · simp [← hsame, hroom]
        · refine .inl ?_
          simp [hsame, ApduChain.drop]
      · exact .inr (.inr ⟨rfl, rfl, .inl rfl⟩)
  · rw [processApdu, hchained]
    by_cases hother : chain.isChaining = true ∧ cmd.header.unchained ≠ chain.chainHeader
    · refine .inl ?_
      simp [hother.1, hother.2, ApduChain.drop]
    · have hopen : (chain.openWith cmd.header.unchained).chainHeader = cmd.header.unchained := by
        rw [ApduChain.openWith]
        split_ifs with hchaining
        · exact (not_not.mp fun hne ↦ hother ⟨hchaining, hne⟩).symm
        · rfl
      have hcond : (chain.isChaining && cmd.header.unchained != chain.chainHeader) = false := by
        simpa using hother
      simp only [hcond, Bool.false_eq_true, if_false, if_true]
      split_ifs with hroom
      · exact .inl ⟨rfl, _, rfl⟩
      · exact .inr (.inl ⟨trivial, hopen, by rw [hopen]⟩)

/-! ### Runs -/

theorem apduRun_append (chain : ApduChain) (events events' : List ApduEvent) :
    apduRun chain (events ++ events') =
      apduRun chain events ++ apduRun (apduChainAfter chain events) events' := by
  induction events generalizing chain with
  | nil => rfl
  | cons event events ih =>
    obtain ⟨app, cmd⟩ := event
    show (cmd, _) :: apduRun _ (events ++ events') = _
    rw [ih]
    rfl

/-- **The chain there is** after some commands: its segments are the last of them. -/
def ChainOf (records : List ApduRecord) (chain : ApduChain) : Prop :=
  chain.isChaining = true →
    ∃ before segments, records = before ++ segments ∧ SegmentsOf chain.chainHeader segments ∧
      chain.chainBuf = apduData segments

variable {records : List ApduRecord}

theorem ChainOf.of_not_chaining (h : chain.isChaining = false) : ChainOf records chain :=
  fun htrue ↦ absurd htrue (by rw [h]; decide)

/-- Each command leaves the chain that of the commands before it and itself. -/
theorem ChainOf.step (h : ChainOf records chain) (app : Option ApduApp) (cmd : ApduCommand) :
    ChainOf (records ++ [(cmd, (processApdu app cmd chain).2)]) (processApdu app cmd chain).1 := by
  rcases processApdu_cases app cmd chain with ⟨hdropped, -⟩ | ⟨hchained, hheader, heq⟩ |
    ⟨-, hdropped, -⟩
  · exact .of_not_chaining hdropped
  · rw [heq]
    intro _
    -- the segments so far, if there is a chain, and this one
    obtain ⟨before, segments, hrecords, hsegments, hbuf⟩ : ∃ before segments,
        records = before ++ segments ∧ SegmentsOf cmd.header.unchained segments ∧
          (chain.openWith cmd.header.unchained).chainBuf = apduData segments := by
      rw [ApduChain.openWith] at hheader ⊢
      split_ifs at hheader ⊢ with hchaining
      · rw [← hheader]
        exact h hchaining
      · exact ⟨records, [], (append_nil _).symm, nofun, rfl⟩
    refine ⟨before, segments ++ [(cmd, .status swOk)], ?_, ?_, ?_⟩
    · rw [hrecords, append_assoc]
    · intro record hrecord
      rcases mem_append.mp hrecord with hmem | hmem
      · exact hsegments record hmem
      · cases mem_singleton.mp hmem
        exact ⟨hchained, rfl, rfl⟩
    · rw [hbuf, apduData, apduData, flatMap_append, flatMap_singleton]
  · exact .of_not_chaining hdropped

/-- What a command hands on has the data of the segments before it, and of itself. -/
theorem ChainOf.handed_on (h : ChainOf records chain) {data : Bytes}
    (hdata : (processApdu app cmd chain).2.data? = some data) :
    ∃ before segments, records = before ++ segments ∧ SegmentsOf cmd.header segments ∧
      data = apduData segments ++ cmd.data := by
  rcases processApdu_cases app cmd chain with ⟨-, sw, hstatus⟩ | ⟨-, -, heq⟩ |
    ⟨-, -, halone | ⟨hchaining, hheader, -, hjoined⟩⟩
  · rw [hstatus] at hdata
    cases hdata
  · rw [heq] at hdata
    cases hdata
  · rw [halone] at hdata
    exact ⟨records, [], (append_nil _).symm, nofun, dispatchApdu_data? hdata⟩
  · rw [hjoined] at hdata
    obtain ⟨before, segments, hrecords, hsegments, hbuf⟩ := h hchaining
    refine ⟨before, segments, hrecords, hheader ▸ hsegments, ?_⟩
    rw [dispatchApdu_data? hdata, hbuf]

/-- In a run, whatever is handed on has the data of its own segments. -/
theorem ChainOf.run (h : ChainOf records chain) (events : List ApduEvent)
    {before after : List ApduRecord} {outcome : ApduOutcome} {data : Bytes}
    (hrun : apduRun chain events = before ++ (cmd, outcome) :: after)
    (hdata : outcome.data? = some data) :
    ∃ before' segments, records ++ before = before' ++ segments ∧ SegmentsOf cmd.header segments ∧
      data = apduData segments ++ cmd.data := by
  induction events generalizing chain records before with
  | nil => cases before <;> cases hrun
  | cons event events ih =>
    obtain ⟨app, cmd₀⟩ := event
    rcases before with - | ⟨record, before⟩
    · cases hrun
      rw [append_nil]
      exact h.handed_on hdata
    · obtain ⟨rfl, hrest⟩ := cons_eq_cons.mp hrun
      have hnext := ih (h.step app cmd₀) hrest
      rwa [append_assoc] at hnext

/-! ### A chain that nothing interrupts -/

/-- The segments of a chain are collected. -/
theorem apduRun_segments (segments : List ApduEvent) {chain : ApduChain}
    (hchain : chain.isChaining = true → chain.chainHeader = header)
    (hsegments : ∀ segment ∈ segments, segment.2.header.chained = true ∧
      segment.2.header.unchained = header)
    (hfits : (chain.openWith header).chainBuf.length +
      (segments.flatMap fun segment ↦ segment.2.data).length < chainBufSize) :
    apduRun chain segments = segments.map (fun segment ↦ (segment.2, .status swOk)) ∧
      (segments ≠ [] → apduChainAfter chain segments = ⟨true, header,
        (chain.openWith header).chainBuf ++ segments.flatMap fun segment ↦ segment.2.data⟩) := by
  induction segments generalizing chain with
  | nil => exact ⟨rfl, nofun⟩
  | cons segment segments ih =>
    obtain ⟨app, cmd⟩ := segment
    obtain ⟨hchained, hheader⟩ : cmd.header.chained = true ∧ cmd.header.unchained = header :=
      hsegments _ (mem_cons_self ..)
    rw [flatMap_cons, length_append] at hfits
    change _ + (cmd.data.length + _) < _ at hfits
    have hprocess : processApdu app cmd chain =
        (⟨true, header, (chain.openWith header).chainBuf ++ cmd.data⟩, .status swOk) := by
      have hopen : (chain.openWith header).chainHeader = header := by
        rw [ApduChain.openWith]
        split_ifs with hchaining
        · exact hchain hchaining
        · rfl
      have hcond : (chain.isChaining && header != chain.chainHeader) = false := by
        simpa using fun hchaining ↦ (hchain hchaining).symm
      rw [processApdu]
      simp only [hheader, hchained, hcond, hopen, Bool.false_eq_true, if_false, if_true]
      rw [if_neg (by omega)]
    obtain ⟨hrun, hafter⟩ := @ih (processApdu app cmd chain).1 (fun _ ↦ by rw [hprocess])
      (fun segment hmem ↦ hsegments segment (mem_cons_of_mem _ hmem)) (by
        rw [hprocess]
        show ((chain.openWith header).chainBuf ++ cmd.data).length + _ < _
        rw [length_append]
        omega)
    refine ⟨?_, fun _ ↦ ?_⟩
    · show (cmd, (processApdu app cmd chain).2) :: apduRun (processApdu app cmd chain).1 segments = _
      rw [hrun, hprocess]
      rfl
    · show apduChainAfter (processApdu app cmd chain).1 segments = _
      rcases segments with - | ⟨segment, segments⟩
      · rw [hprocess, flatMap_cons, flatMap_nil, append_nil]
        rfl
      · rw [hafter (cons_ne_nil segment segments), hprocess]
        show ApduChain.mk true header (((chain.openWith header).chainBuf ++ cmd.data) ++ _) =
          ApduChain.mk true header ((chain.openWith header).chainBuf ++ (cmd.data ++ _))
        rw [append_assoc]
        rfl

/-- The last command of a chain. -/
theorem processApdu_last {app : ApduApp} (happ : app.hasProcessApdu = true)
    (hchained : cmd.header.chained = false) (hselect : cmd.header.isSelect = false)
    (hcla : cmd.header.cla &&& 0x0c = 0 ∨ app.supportsSecureMessaging = true)
    (hchain : chain.isChaining = true → chain.chainHeader = cmd.header)
    (hfits : chain.isChaining = true → chain.chainBuf.length + cmd.data.length < chainBufSize) :
    (processApdu (some app) cmd chain).1.isChaining = false ∧
      (processApdu (some app) cmd chain).2 = .handler cmd.header
        (if chain.isChaining then chain.chainBuf ++ cmd.data else cmd.data) cmd.ne := by
  have hdispatch (data : Bytes) (ne : ℕ) :
      dispatchApdu (some app) cmd.header data ne = .handler cmd.header data ne := by
    have hmessaging : (!cmd.header.chained && cmd.header.cla &&& 0x0c != 0 &&
        !((some app).any fun app ↦ app.supportsSecureMessaging)) = false := by
      rcases hcla with h | h <;> simp [h]
    rw [dispatchApdu, hmessaging, hselect]
    simp [happ]
  have hheader := cmd.header.unchained_of_not_chained hchained
  rw [processApdu, hchained, hheader, hselect]
  rcases hchaining : chain.isChaining with - | -
  · exact ⟨hchaining, hdispatch _ _⟩
  · have hsame := hchain hchaining
    have hroom := hfits hchaining
    have hcond : (true && (false || cmd.header != chain.chainHeader)) = false := by
      rw [hsame]
      simp
    simp only [hcond, Bool.false_eq_true, if_false, if_true]
    rw [if_neg (by omega)]
    exact ⟨rfl, hdispatch _ _⟩

/-- **Command chaining.** Segments of one header and a last command of that header, the data of which
fits the buffer, are handed to the handler once, with the last header and all of the data, unless
the command is a SELECT or one the application does not support secure messaging for. In every run,
what is handed on has the data of the segments right before it that have its header, and its own.
And while there is a chain, a command of another header drops it and is refused, or is a SELECT and
dispatched by itself; and so does a command of its header whose data does not fit.

The data are put together where those of the last command lie, in the receive buffer of the
interface. In `ccid_rx` a total of 2034 to 2037 bytes (with an extended length from 2032 on) runs over
the pointers behind it; what the handler is given is the same. -/
theorem apdu_chaining :
    (∀ (app : ApduApp) (chain : ApduChain) (segments : List ApduEvent) (last : ApduCommand),
      chain.isChaining = false → app.hasProcessApdu = true → last.header.chained = false →
      last.header.isSelect = false →
      (last.header.cla &&& 0x0c = 0 ∨ app.supportsSecureMessaging = true) →
      (∀ segment ∈ segments, segment.2.header.chained = true ∧
        segment.2.header.unchained = last.header) →
      (segments.flatMap fun segment ↦ segment.2.data).length + last.data.length < chainBufSize →
      apduRun chain (segments ++ [(some app, last)]) =
        segments.map (fun segment ↦ (segment.2, .status swOk)) ++
          [(last, .handler last.header
            ((segments.flatMap fun segment ↦ segment.2.data) ++ last.data) last.ne)]) ∧
    (∀ (chain : ApduChain) (events : List ApduEvent) (before after : List ApduRecord)
      (cmd : ApduCommand) (outcome : ApduOutcome) (data : Bytes), chain.isChaining = false →
      apduRun chain events = before ++ (cmd, outcome) :: after → outcome.data? = some data →
      ∃ before' segments, before = before' ++ segments ∧ SegmentsOf cmd.header segments ∧
        data = apduData segments ++ cmd.data) ∧
    ∀ (app : Option ApduApp) (cmd : ApduCommand) (chain : ApduChain), chain.isChaining = true →
      (cmd.header.unchained ≠ chain.chainHeader →
        (processApdu app cmd chain).1.isChaining = false ∧
          ((processApdu app cmd chain).2 = .status swLastChainExpected ∨
            cmd.header.isSelect = true ∧ (processApdu app cmd chain).2 =
              dispatchApdu app cmd.header cmd.data cmd.ne)) ∧
      (cmd.header.unchained = chain.chainHeader →
        cmd.header.isSelect = false ∨ cmd.header.chained = true →
        chainBufSize ≤ chain.chainBuf.length + cmd.data.length →
        processApdu app cmd chain = (chain.drop, .status swWrongLength)) := by
  refine ⟨?_, ?_, ?_⟩
  · intro app chain segments last hchain happ hchained hselect hcla hsegments hfits
    have hopen : chain.openWith last.header = ⟨false, last.header, []⟩ := by
      rw [ApduChain.openWith, hchain]
      rfl
    obtain ⟨hrun, hafter⟩ := apduRun_segments segments
      (fun h ↦ absurd h (by rw [hchain]; decide)) hsegments (by
        rw [hopen]
        show 0 + _ < _
        omega)
    rw [hopen] at hafter
    rw [apduRun_append, hrun]
    show _ ++ [(last, (processApdu (some app) last (apduChainAfter chain segments)).2)] = _
    congr
    rcases segments with - | ⟨segment, segments⟩
    · rw [apduChainAfter, (processApdu_last happ hchained hselect hcla
        (fun h ↦ absurd h (by rw [hchain]; decide)) fun h ↦ absurd h (by rw [hchain]; decide)).2,
        hchain]
      rfl
    · rw [hafter (cons_ne_nil segment segments)]
      exact (processApdu_last happ hchained hselect hcla (fun _ ↦ rfl) fun _ ↦ hfits).2
  · intro chain events before after cmd outcome data hchain hrun hdata
    exact @ChainOf.run cmd chain [] (.of_not_chaining hchain) events before after outcome data hrun
      hdata
  · intro app cmd chain hchaining
    constructor
    · intro hne
      have hother : (cmd.header.unchained != chain.chainHeader) = true := by simpa using hne
      rw [processApdu, hchaining, hother]
      rcases cmd.header.chained with - | -
      · rcases cmd.header.isSelect with - | -
        · exact ⟨rfl, .inl rfl⟩
        · exact ⟨rfl, .inr ⟨rfl, rfl⟩⟩
      · exact ⟨rfl, .inl rfl⟩
    · intro hsame hkind hfull
      have hother : (cmd.header.unchained != chain.chainHeader) = false := by simpa using hsame
      have hopen : chain.openWith cmd.header.unchained = chain := if_pos hchaining
      rw [processApdu, hchaining, hother]
      rcases hchained : cmd.header.chained with - | -
      · rw [hkind.resolve_right (by rw [hchained]; decide)]
        exact if_pos hfull
      · show (if (chain.openWith cmd.header.unchained).chainBuf.length + cmd.data.length ≥
            chainBufSize then _ else _) = _
        rw [hopen, if_pos hfull]

/-- An application for examples. -/
def apduToyApp : ApduApp :=
  ⟨true, false⟩

def apduNoChain : ApduChain :=
  ⟨false, ⟨0, 0, 0, 0⟩, []⟩

/-- A SELECT that is spread over two commands selects by the data of the last one. -/
theorem apdu_chained_select_loses_segment :
    let events : List ApduEvent := [(some apduToyApp, ⟨⟨0x10, 0xa4, 4, 0⟩, [0xa0, 0], 0⟩),
      (some apduToyApp, ⟨⟨0, 0xa4, 4, 0⟩, [6], 256⟩)]
    apduRun apduNoChain events = [(⟨⟨0x10, 0xa4, 4, 0⟩, [0xa0, 0], 0⟩, .status swOk),
      (⟨⟨0, 0xa4, 4, 0⟩, [6], 256⟩, .select [6])] := by
  decide +kernel

/-- A PUT DATA that is spread over three commands, the second of which is empty. -/
theorem apdu_chaining_put_data :
    apduRun apduNoChain [(some apduToyApp, ⟨⟨0x10, 0xdb, 0x3f, 0xff⟩, [1, 2], 0⟩),
        (none, ⟨⟨0x10, 0xdb, 0x3f, 0xff⟩, [], 256⟩),
        (some apduToyApp, ⟨⟨0, 0xdb, 0x3f, 0xff⟩, [3], 0⟩)] =
      [(⟨⟨0x10, 0xdb, 0x3f, 0xff⟩, [1, 2], 0⟩, .status swOk),
        (⟨⟨0x10, 0xdb, 0x3f, 0xff⟩, [], 256⟩, .status swOk),
        (⟨⟨0, 0xdb, 0x3f, 0xff⟩, [3], 0⟩, .handler ⟨0, 0xdb, 0x3f, 0xff⟩ [1, 2, 3] 0)] :=
  apdu_chaining.1 apduToyApp apduNoChain [(some apduToyApp, ⟨⟨0x10, 0xdb, 0x3f, 0xff⟩, [1, 2], 0⟩),
    (none, ⟨⟨0x10, 0xdb, 0x3f, 0xff⟩, [], 256⟩)] ⟨⟨0, 0xdb, 0x3f, 0xff⟩, [3], 0⟩ rfl rfl
    (by decide +kernel) (by decide +kernel) (by decide +kernel) (by decide +kernel)
    (by decide +kernel)

end PicoAll
