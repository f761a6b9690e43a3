import PicoAll.Transport.HidSend

/-!
# While the worker is at work

A request is executed by the worker on the other core, and meanwhile frames come in. For a CBOR
request the driver has a flag, `hid_cbor_active`: while it is set a frame does nothing but ask for a
busy reply, except that a `CTAPHID_CANCEL` of the request's channel cancels it. There is no flag for
a `CTAPHID_MSG`, and its request is kept only as long as no frame comes in.

`Busy` says what the driver has of the request, `BusyEvent` what may happen, and `BusyRun` what has
become of it after a run: the request is the same, and so is the response but for what the worker
writes.
-/

namespace PicoAll

open BigEndian ByteBuffer Fragments List

/-- The driver while the worker has a request of a channel. -/
structure Busy (c : UInt32) (s : Hid) : Prop where
  cid_eq : s.ctapReq.cid = c
  cbor : s.cborActive = true → s.reqIsLast = true ∧ s.threadType = 2
  msg : s.cborActive = false → s.threadType = 1 ∧ s.cancelPending = false
  isNk : s.isNk = false
  time : s.lastPacketTime = 0
  rPtr_eq : s.rPtr = 0
  wPtr_eq : s.wPtr = 0
  size_eq : s.sendBufferSize = 0

/-- The request is the same. -/
structure RequestKept (s s' : Hid) : Prop where
  active_eq : s'.cborActive = s.cborActive
  packet_eq : s'.packet = s.packet
  request_eq : s'.cborRequest = s.cborRequest
  reqIsLast_eq : s'.reqIsLast = s.reqIsLast
  threadType_eq : s'.threadType = s.threadType
  isNk_eq : s'.isNk = s.isNk
  time_eq : s'.lastPacketTime = s.lastPacketTime
  rPtr_eq : s'.rPtr = s.rPtr
  wPtr_eq : s'.wPtr = s.wPtr
  size_eq : s'.sendBufferSize = s.sendBufferSize

/-- It has been cancelled, or not, as before, and no frame has come in. -/
structure CancelKept (s s' : Hid) : Prop where
  pending_eq : s'.cancelPending = s.cancelPending
  button_eq : s'.cancelButton = s.cancelButton
  rx_eq : s'.rx = s.rx

/-- Where the response ends at most: keepalives have their frame behind it. -/
def Hid.responseEnd (s : Hid) : ℕ :=
  if s.threadType = 1 then usbBufferSize else keepaliveOffset

variable {env : HidEnv} {s s' s'' : Hid} {f : CtapFrame} {now : UInt32} {button ok : Bool}
  {t : HidTick} {c : UInt32} {e : HidEvent} {es : List HidEvent}

/-! ### What keeps a request -/

theorem RequestKept.refl (s : Hid) : RequestKept s s :=
  ⟨rfl, rfl, rfl, rfl, rfl, rfl, rfl, rfl, rfl, rfl⟩

theorem RequestKept.trans (h : RequestKept s s') (h' : RequestKept s' s'') : RequestKept s s'' :=
  ⟨h'.active_eq.trans h.active_eq, h'.packet_eq.trans h.packet_eq,
    h'.request_eq.trans h.request_eq, h'.reqIsLast_eq.trans h.reqIsLast_eq,
    h'.threadType_eq.trans h.threadType_eq, h'.isNk_eq.trans h.isNk_eq, h'.time_eq.trans h.time_eq,
    h'.rPtr_eq.trans h.rPtr_eq, h'.wPtr_eq.trans h.wPtr_eq, h'.size_eq.trans h.size_eq⟩

theorem CancelKept.refl (s : Hid) : CancelKept s s :=
  ⟨rfl, rfl, rfl⟩

theorem CancelKept.trans (h : CancelKept s s') (h' : CancelKept s' s'') : CancelKept s s'' :=
  ⟨h'.pending_eq.trans h.pending_eq, h'.button_eq.trans h.button_eq, h'.rx_eq.trans h.rx_eq⟩

theorem RequestKept.ctapReq_eq (h : RequestKept s s') (hrx : s.reqIsLast = false → s'.rx = s.rx) :
    s'.ctapReq = s.ctapReq := by
  rw [Hid.ctapReq, Hid.ctapReq, h.reqIsLast_eq, h.packet_eq]
  split_ifs with hlast
  · rfl
  · exact hrx (by simpa using hlast)

theorem Busy.congr (h : Busy c s) (hkept : RequestKept s s') (hcancel : CancelKept s s') :
    Busy c s' :=
  ⟨(congrArg (·.cid) (hkept.ctapReq_eq fun _ ↦ hcancel.rx_eq)).trans h.cid_eq,
    by rw [hkept.active_eq, hkept.reqIsLast_eq, hkept.threadType_eq]; exact h.cbor,
    by rw [hkept.active_eq, hcancel.pending_eq, hkept.threadType_eq]; exact h.msg,
    hkept.isNk_eq.trans h.isNk, hkept.time_eq.trans h.time, hkept.rPtr_eq.trans h.rPtr_eq,
    hkept.wPtr_eq.trans h.wPtr_eq, hkept.size_eq.trans h.size_eq⟩

/-- A request with the flag does not depend on the frames that come in. -/
theorem Busy.congr_active (h : Busy c s) (hactive : s.cborActive = true) (hkept : RequestKept s s') :
    Busy c s' := by
  obtain ⟨hlast, hthread⟩ := h.cbor hactive
  refine ⟨(congrArg (·.cid) (hkept.ctapReq_eq fun hnot ↦ absurd (hlast.symm.trans hnot)
      (by decide))).trans h.cid_eq, fun _ ↦ ⟨hkept.reqIsLast_eq.trans hlast,
        hkept.threadType_eq.trans hthread⟩, fun hnot ↦ ?_, hkept.isNk_eq.trans h.isNk,
    hkept.time_eq.trans h.time, hkept.rPtr_eq.trans h.rPtr_eq, hkept.wPtr_eq.trans h.wPtr_eq,
    hkept.size_eq.trans h.size_eq⟩
  rw [hkept.active_eq, hactive] at hnot
  exact absurd hnot (by decide)

theorem driverWriteHid_request :
    RequestKept s (driverWriteHid ok f s) ∧ CancelKept s (driverWriteHid ok f s) := by
  unfold driverWriteHid
  split_ifs <;> constructor <;> constructor <;> rfl

theorem writeKeepalive_request :
    RequestKept s (writeKeepalive now ok s) ∧ CancelKept s (writeKeepalive now ok s) := by
  unfold writeKeepalive driverWriteHid
  split_ifs <;> constructor <;> constructor <;> rfl

theorem putKeepalive_request :
    RequestKept s (putKeepalive button s) ∧ CancelKept s (putKeepalive button s) :=
  ⟨by constructor <;> rfl, ⟨rfl, rfl, rfl⟩⟩

theorem sendKeepalive_request :
    RequestKept s (sendKeepalive now button ok s) ∧ CancelKept s (sendKeepalive now button ok s) := by
  unfold sendKeepalive
  split_ifs
  · exact ⟨.refl s, .refl s⟩
  · exact ⟨.refl s, .refl s⟩
  · obtain ⟨hput, hput'⟩ : RequestKept s (putKeepalive button s) ∧ _ := putKeepalive_request
    obtain ⟨hwrite, hwrite'⟩ : RequestKept _ (writeKeepalive now ok (putKeepalive button s)) ∧ _ :=
      writeKeepalive_request
    exact ⟨hput.trans hwrite, hput'.trans hwrite'⟩

theorem hidBusy_request : RequestKept s (hidBusy f s) ∧ CancelKept s (hidBusy f s) := by
  unfold hidBusy
  split_ifs <;> constructor <;> constructor <;> rfl

theorem hidCancel_request : RequestKept s (hidCancel f s) := by
  unfold hidCancel
  split_ifs <;> constructor <;> rfl

theorem taskBusy_request : RequestKept s (taskBusy ok s) ∧ CancelKept s (taskBusy ok s) := by
  unfold taskBusy driverWriteHid
  cases s.busyResponse with
  | none => exact ⟨.refl s, .refl s⟩
  | some f =>
    split_ifs <;> constructor <;> constructor <;> rfl

/-- No time runs out. -/
theorem Busy.nopacket (h : Busy c s) : driverProcessUsbNopacketHid now s = s := by
  rw [driverProcessUsbNopacketHid_eq, Hid.timedOut, h.time]
  rfl

/-! ### One event -/

/-- What happens while the worker is at work: anything but that it finishes, if the request has the
flag, and else no frame comes in. -/
inductive BusyEvent (active : Bool) : HidEvent → Prop where
  | frame (now : UInt32) (button ok : Bool) (f : CtapFrame) (h : active = true) :
      BusyEvent active (.frame now button ok f)
  | task (t : HidTick) (h : ∀ size sw, t.status ≠ .finished size sw) : BusyEvent active (.task t)
  | complete : BusyEvent active .complete
  | worker (off : ℕ) (bytes : Bytes) : BusyEvent active (.worker off bytes)

/-- A `CTAPHID_CANCEL` without data for a request. -/
def cancels (c : UInt32) (cmd : UInt8) : HidEvent → Bool
  | .frame _ _ _ f => f.isCancel && f.msgLen = 0 && cmd = ctaphidCbor && f.cid = c
  | _ => false

def workerWrite (tx : TxBuffer) : HidEvent → TxBuffer
  | .worker off bytes => tx.write off bytes
  | _ => tx

/-- What a part of an event does, for a request of a channel: the request and the response stay, and
what is sent is a keepalive of the request or the busy reply. -/
structure TaskStep (c : UInt32) (s s' : Hid) : Prop where
  kept : RequestKept s s'
  cancel : CancelKept s s'
  response : slice s'.tx.1 0 s.responseEnd = slice s.tx.1 0 s.responseEnd
  busy : ∀ f, s'.busyResponse = some f → s.busyResponse = some f
  sent : ∃ new, s'.sent = s.sent ++ new ∧
    ∀ f ∈ new, f.isKeepalive = true ∧ f.cid = c ∨ s.busyResponse = some f

theorem TaskStep.quiet (hkept : RequestKept s s') (hcancel : CancelKept s s') (htx : s'.tx = s.tx)
    (hbusy : s'.busyResponse = s.busyResponse) (hsent : s'.sent = s.sent) : TaskStep c s s' :=
  ⟨hkept, hcancel, by rw [htx], fun f hf ↦ hbusy ▸ hf,
    [], hsent.trans (append_nil _).symm, fun f hf ↦ absurd hf not_mem_nil⟩

theorem TaskStep.refl (s : Hid) : TaskStep c s s :=
  .quiet (.refl s) (.refl s) rfl rfl rfl

theorem RequestKept.responseEnd_eq (h : RequestKept s s') : s'.responseEnd = s.responseEnd := by
  rw [Hid.responseEnd, Hid.responseEnd, h.threadType_eq]

theorem TaskStep.trans (h : TaskStep c s s') (h' : TaskStep c s' s'') : TaskStep c s s'' := by
  obtain ⟨new, hnew, hall⟩ := h.sent
  obtain ⟨new', hnew', hall'⟩ := h'.sent
  have hresponse := h'.response
  rw [h.kept.responseEnd_eq] at hresponse
  refine ⟨h.kept.trans h'.kept, h.cancel.trans h'.cancel, hresponse.trans h.response,
    fun f hf ↦ h.busy f (h'.busy f hf), new ++ new', ?_, fun f hf ↦ ?_⟩
  · rw [hnew', hnew, append_assoc]
  · rcases mem_append.mp hf with hf | hf
    · exact hall f hf
    · exact (hall' f hf).imp_right (h.busy f)

theorem TaskStep.write (hf : f.isKeepalive = true ∧ f.cid = c ∨ s.busyResponse = some f) :
    TaskStep c s (driverWriteHid ok f s) := by
  obtain ⟨hkept, hcancel⟩ : RequestKept s (driverWriteHid ok f s) ∧ _ := driverWriteHid_request
  by_cases hwrite : s.lastWriteResult = .pending
  · rw [driverWriteHid_of_pending hwrite]
    exact .refl s
  cases ok with
  | true =>
    rw [driverWriteHid_true hwrite] at hkept hcancel ⊢
    exact ⟨hkept, hcancel, rfl, fun g hg ↦ hg, [f], rfl, fun g hg ↦ mem_singleton.mp hg ▸ hf⟩
  | false =>
    rw [driverWriteHid_false hwrite] at hkept hcancel ⊢
    exact .quiet hkept hcancel rfl rfl rfl

/-- A keepalive is sent on the channel of the request, and its frame is behind the response. -/
theorem Busy.sendKeepalive (h : Busy c s) : TaskStep c s (sendKeepalive now button ok s) := by
  obtain ⟨data, hframe⟩ := ofBytes_putKeepalive button s
  rw [h.cid_eq] at hframe
  unfold PicoAll.sendKeepalive
  split_ifs with hthread
  · exact .refl s
  · exact .refl s
  · have hend : s.responseEnd = keepaliveOffset := if_neg fun h ↦ hthread (.inl h)
    have hput : TaskStep c s (putKeepalive button s) := by
      refine ⟨putKeepalive_request.1, putKeepalive_request.2, ?_, fun f hf ↦ hf,
        [], (append_nil _).symm, fun f hf ↦ absurd hf not_mem_nil⟩
      exact (putKeepalive_below le_rfl).slice_eq _ _ (by omega)
    have htime : ∀ time, TaskStep c (putKeepalive button s)
        { putKeepalive button s with lastKeepaliveTime := time } := fun time ↦
      .quiet (by constructor <;> rfl) ⟨rfl, rfl, rfl⟩ rfl rfl rfl
    refine hput.trans ((htime _).trans (TaskStep.write (.inl ?_)))
    rw [hframe]
    exact ⟨isKeepalive_padded _ _, rfl⟩

theorem taskBusy_step : TaskStep c s (taskBusy ok s) := by
  have hrequest : RequestKept s (taskBusy ok s) ∧ CancelKept s (taskBusy ok s) := taskBusy_request
  unfold taskBusy at hrequest ⊢
  cases hresponse : s.busyResponse with
  | none => exact .refl s
  | some f =>
    rw [hresponse] at hrequest
    dsimp only at hrequest ⊢
    by_cases hwrite : s.lastWriteResult = .pending
    · rw [if_pos hwrite]
      exact .refl s
    rw [if_neg hwrite] at hrequest ⊢
    obtain ⟨hkept, hcancel, hslice, hbusy, hsent⟩ : TaskStep c s (driverWriteHid ok f s) :=
      .write (.inr hresponse)
    cases ok with
    | true => exact ⟨hrequest.1, hrequest.2, hslice, fun g hg ↦ absurd hg (by simp), hsent⟩
    | false => exact ⟨hrequest.1, hrequest.2, hslice, hbusy, hsent⟩

theorem taskBusy_tx : (taskBusy ok s).tx = s.tx := by
  unfold taskBusy driverWriteHid
  cases s.busyResponse with
  | none => rfl
  | some f =>
    split_ifs <;> rfl

theorem Busy.taskStatus (h : Busy c s) (ht : ∀ size sw, t.status ≠ .finished size sw) :
    TaskStep c s (taskStatus t s) := by
  unfold PicoAll.taskStatus
  cases hstatus : t.status with
  | none => exact .refl s
  | blocked => exact h.sendKeepalive
  | finished size sw => exact absurd hstatus (ht size sw)

theorem Busy.taskWrite (h : Busy c s) : taskWrite ok s = s :=
  if_neg fun hwrite ↦ absurd hwrite.1 (by rw [h.rPtr_eq, h.wPtr_eq]; omega)

/-- A call of the task while the worker is at work. -/
theorem Busy.task (h : Busy c s) (ht : ∀ size sw, t.status ≠ .finished size sw) :
    TaskStep c s (hidTask t s) := by
  have hbusy : TaskStep c s (taskBusy t.busyOk s) := taskBusy_step
  have h' : Busy c (taskBusy t.busyOk s) := h.congr hbusy.kept hbusy.cancel
  have hstatus := h'.taskStatus ht
  rw [hidTask, h.nopacket, (h'.congr hstatus.kept hstatus.cancel).taskWrite]
  exact hbusy.trans hstatus

theorem Busy.frame (h : Busy c s) (hactive : s.cborActive = true) :
    hidStep env s (.frame now button ok f) =
      if f.isCancel then hidCancel f { s with rx := f } else hidBusy f { s with rx := f } := by
  have hrx : Busy c { s with rx := f } :=
    h.congr_active hactive (by constructor <;> rfl)
  show tudHidSetReportCb env now button ok f s = _
  rw [tudHidSetReportCb, driverProcessUsbPacketHid]
  by_cases hcancel : f.isCancel = true
  · rw [if_pos hcancel, if_pos hcancel, if_pos rfl, (hrx.congr_active hactive hidCancel_request).nopacket]
  · rw [if_neg hcancel, if_neg hcancel, if_pos hactive, if_pos rfl,
      (hrx.congr_active hactive hidBusy_request.1).nopacket]

theorem hidWritten_step (hsize : s.sendBufferSize = 0) : TaskStep c s (hidWritten f s) := by
  unfold hidWritten
  split_ifs
  · have hleft : s.sendBufferSize - min (reportSize f) s.sendBufferSize = s.sendBufferSize := by
      omega
    exact .quiet ⟨rfl, rfl, rfl, rfl, rfl, rfl, rfl, rfl, rfl, hleft⟩ ⟨rfl, rfl, rfl⟩ rfl rfl rfl
  · exact .refl s

/-- A report that goes out finds nothing to go on with. -/
theorem Busy.reportSent (h : Busy c s) : TaskStep c s (hidReportSent f s) := by
  have hwritten : TaskStep c s (hidWritten f s) := hidWritten_step h.size_eq
  have hbusy := h.congr hwritten.kept hwritten.cancel
  unfold hidReportSent
  generalize hidWritten f s = s' at hwritten hbusy ⊢
  have hadvance : hidAdvance f s' = s' ∨ hidAdvance f s' = { s' with rPtr := s'.rPtr + 64 } := by
    unfold hidAdvance
    split_ifs with h₁ h₂
    · exact absurd h₂ (by rw [hbusy.size_eq]; omega)
    · exact .inr rfl
    · exact .inl rfl
  refine hwritten.trans ?_
  obtain hsame | hmoved := hadvance
  · rw [hsame, if_pos (by rw [hbusy.rPtr_eq, hbusy.wPtr_eq])]
    exact .quiet ⟨rfl, rfl, rfl, rfl, rfl, rfl, rfl, hbusy.rPtr_eq.symm, hbusy.wPtr_eq.symm, rfl⟩
      ⟨rfl, rfl, rfl⟩ rfl rfl rfl
  · rw [hmoved, if_pos (by rw [hbusy.wPtr_eq]; exact Nat.zero_le _)]
    exact .quiet ⟨rfl, rfl, rfl, rfl, rfl, rfl, rfl, hbusy.rPtr_eq.symm, hbusy.wPtr_eq.symm, rfl⟩
      ⟨rfl, rfl, rfl⟩ rfl rfl rfl

theorem Busy.complete (h : Busy c s) : TaskStep c s (tudHidReportCompleteCb s) := by
  unfold tudHidReportCompleteCb
  cases s.report with
  | none => exact .refl s
  | some req =>
    have hsame : TaskStep c s { s with report := none } :=
      .quiet (by constructor <;> rfl) ⟨rfl, rfl, rfl⟩ rfl rfl rfl
    split_ifs
    · exact .quiet (by constructor <;> rfl) ⟨rfl, rfl, rfl⟩ rfl rfl rfl
    · exact hsame.trans (h.congr hsame.kept hsame.cancel).reportSent

/-! ### Runs -/

/-- The busy reply to a frame that has come in. -/
def IsBusyReply (es : List HidEvent) (f : CtapFrame) : Prop :=
  ∃ now button ok g, HidEvent.frame now button ok g ∈ es ∧ g.isInit = true ∧
    f = ctapErrorFrame g.cid ctap1ErrChannelBusy

/-- The driver when some events have happened since a request became active. -/
structure BusyRun (c : UInt32) (s₀ : Hid) (es : List HidEvent) (s : Hid) : Prop where
  kept : RequestKept s₀ s
  rx_eq : s₀.cborActive = false → s.rx = s₀.rx
  pending_eq : s.cancelPending = (s₀.cancelPending || es.any (cancels c s₀.packet.lastCmd))
  button_eq : s.cancelButton = (s₀.cancelButton || es.any (cancels c s₀.packet.lastCmd))
  response : slice s.tx.1 0 s₀.responseEnd = slice (es.foldl workerWrite s₀.tx).1 0 s₀.responseEnd
  busy : ∀ f, s.busyResponse = some f → s₀.busyResponse = some f ∨ IsBusyReply es f
  sent : ∃ new, s.sent = s₀.sent ++ new ∧ ∀ f ∈ new,
    f.isKeepalive = true ∧ f.cid = c ∨ s₀.busyResponse = some f ∨ IsBusyReply es f

theorem IsBusyReply.concat (h : IsBusyReply es f) (e : HidEvent) : IsBusyReply (es ++ [e]) f := by
  obtain ⟨now, button, ok, g, hg, hinit, hf⟩ := h
  exact ⟨now, button, ok, g, mem_append_left _ hg, hinit, hf⟩

theorem busyRun_nil (c : UInt32) (s : Hid) : BusyRun c s [] s :=
  ⟨.refl s, fun _ ↦ rfl, (Bool.or_false _).symm, (Bool.or_false _).symm, rfl, fun _ hf ↦ .inl hf,
    [], (append_nil _).symm, fun _ hf ↦ absurd hf not_mem_nil⟩

theorem any_concat (p : HidEvent → Bool) (es : List HidEvent) (e : HidEvent) :
    (es ++ [e]).any p = (es.any p || p e) := by
  rw [any_append, any_cons, any_nil, Bool.or_false]

variable {s₀ : Hid}

/-- An event that does no more than a call of the task. -/
theorem BusyRun.taskStep (h : BusyRun c s₀ es s) (hstep : TaskStep c s s')
    (hcancel : ∀ c cmd, cancels c cmd e = false) (hwrite : ∀ tx, workerWrite tx e = tx) :
    BusyRun c s₀ (es ++ [e]) s' := by
  have hresponse := hstep.response
  rw [h.kept.responseEnd_eq] at hresponse
  obtain ⟨new, hnew, hall⟩ := h.sent
  obtain ⟨new', hnew', hall'⟩ := hstep.sent
  refine ⟨h.kept.trans hstep.kept, fun hnot ↦ hstep.cancel.rx_eq.trans (h.rx_eq hnot), ?_, ?_, ?_,
    fun f hf ↦ ?_, new ++ new', ?_, fun f hf ↦ ?_⟩
  · rw [hstep.cancel.pending_eq, h.pending_eq, any_concat, hcancel, Bool.or_false]
  · rw [hstep.cancel.button_eq, h.button_eq, any_concat, hcancel, Bool.or_false]
  · rw [hresponse, h.response, foldl_append, foldl_cons, foldl_nil, hwrite]
  · exact (h.busy f (hstep.busy f hf)).imp_right (·.concat e)
  · rw [hnew', hnew, append_assoc]
  · rcases mem_append.mp hf with hf | hf
    · exact (hall f hf).imp_right fun hreply ↦ hreply.imp_right (·.concat e)
    · exact (hall' f hf).imp_right fun hbusy ↦ (h.busy f hbusy).imp_right (·.concat e)

/-- A cancellation, for a request that is active. -/
theorem Busy.hidCancel (h : Busy c s) (hactive : s.cborActive = true) (hf : f.isCancel = true)
    (now : UInt32) (button ok : Bool) :
    hidCancel f s =
      { s with
        cancelPending := s.cancelPending || cancels c s.packet.lastCmd (.frame now button ok f)
        cancelButton := s.cancelButton || cancels c s.packet.lastCmd (.frame now button ok f) } := by
  have hcid : s.packet.lastReq.cid = c := by
    rw [← h.cid_eq, Hid.ctapReq, if_pos (h.cbor hactive).1]
  have hiff : cancels c s.packet.lastCmd (.frame now button ok f) = true ↔
      f.msgLen = 0 ∧ s.cborActive = true ∧ s.packet.lastCmd = ctaphidCbor ∧
        f.cid = s.packet.lastReq.cid := by
    rw [cancels, hf, hactive, hcid]
    simp [and_assoc]
  unfold PicoAll.hidCancel
  by_cases hcancel : cancels c s.packet.lastCmd (.frame now button ok f) = true
  · rw [if_pos (hiff.mp hcancel), hcancel, Bool.or_true, Bool.or_true]
  · rw [if_neg fun hcond ↦ hcancel (hiff.mpr hcond), Bool.eq_false_iff.mpr hcancel, Bool.or_false,
      Bool.or_false]

/-- A frame that is not a cancellation. -/
theorem cancels_of_not_isCancel {cmd : UInt8} (hf : ¬ f.isCancel = true) :
    cancels c cmd (.frame now button ok f) = false := by
  rw [cancels, Bool.eq_false_iff.mpr hf]
  rfl

section

variable (h : BusyRun c s₀ es s)
include h

theorem BusyRun.sent_concat (e : HidEvent) :
    ∃ new, s.sent = s₀.sent ++ new ∧ ∀ f ∈ new,
      f.isKeepalive = true ∧ f.cid = c ∨ s₀.busyResponse = some f ∨ IsBusyReply (es ++ [e]) f := by
  obtain ⟨new, hnew, hall⟩ := h.sent
  exact ⟨new, hnew, fun f hf ↦ (hall f hf).imp_right fun hreply ↦ hreply.imp_right (·.concat e)⟩

theorem BusyRun.cancel (hbusy : Busy c s) (hactive : s.cborActive = true) (hf : f.isCancel = true) :
    BusyRun c s₀ (es ++ [.frame now button ok f]) (hidCancel f s) := by
  have hpacket := h.kept.packet_eq
  have hkept : RequestKept s (PicoAll.hidCancel f s) := hidCancel_request
  rw [hbusy.hidCancel hactive hf now button ok] at hkept ⊢
  refine ⟨h.kept.trans hkept, h.rx_eq, ?_, ?_, ?_, fun g hg ↦ (h.busy g hg).imp_right (·.concat _),
    h.sent_concat _⟩
  · rw [any_concat, ← Bool.or_assoc, ← h.pending_eq, hpacket]
  · rw [any_concat, ← Bool.or_assoc, ← h.button_eq, hpacket]
  · rw [foldl_append]
    exact h.response

/-- A frame that is refused as busy. -/
theorem BusyRun.busyFrame (hf : ¬ f.isCancel = true) :
    BusyRun c s₀ (es ++ [.frame now button ok f]) (hidBusy f s) := by
  obtain ⟨hkept, hcancel⟩ : RequestKept s (hidBusy f s) ∧ CancelKept s (hidBusy f s) :=
    hidBusy_request
  have htx : (hidBusy f s).tx = s.tx ∧ (hidBusy f s).sent = s.sent := by
    unfold hidBusy
    split_ifs <;> exact ⟨rfl, rfl⟩
  have hresponse : ∀ g, (hidBusy f s).busyResponse = some g →
      s.busyResponse = some g ∨ f.isInit = true ∧ g = ctapErrorFrame f.cid ctap1ErrChannelBusy :=
    fun g ↦ by
      unfold hidBusy
      split_ifs with hinit
      · exact fun hg ↦ .inr ⟨hinit.1, (Option.some.inj hg).symm⟩
      · exact .inl
  refine ⟨h.kept.trans hkept, fun hnot ↦ hcancel.rx_eq.trans (h.rx_eq hnot), ?_, ?_, ?_,
    fun g hg ↦ ?_, ?_⟩
  · rw [hcancel.pending_eq, h.pending_eq, any_concat, cancels_of_not_isCancel hf, Bool.or_false]
  · rw [hcancel.button_eq, h.button_eq, any_concat, cancels_of_not_isCancel hf, Bool.or_false]
  · rw [htx.1, foldl_append]
    exact h.response
  · obtain hold | ⟨hinit, rfl⟩ := hresponse g hg
    · exact (h.busy g hold).imp_right (·.concat _)
    · exact .inr ⟨now, button, ok, f, by simp, hinit, rfl⟩
  · rw [htx.2]
    exact h.sent_concat _

theorem BusyRun.frame (hbusy : Busy c s) (hactive : s₀.cborActive = true) :
    BusyRun c s₀ (es ++ [.frame now button ok f]) (hidStep env s (.frame now button ok f)) := by
  have hsame : RequestKept s { s with rx := f } :=
    ⟨rfl, rfl, rfl, rfl, rfl, rfl, rfl, rfl, rfl, rfl⟩
  have hactive' : s.cborActive = true := h.kept.active_eq.trans hactive
  have hrx : BusyRun c s₀ es { s with rx := f } :=
    ⟨h.kept.trans hsame, fun hnot ↦ absurd (hactive.symm.trans hnot) (by decide), h.pending_eq,
      h.button_eq, h.response, h.busy, h.sent⟩
  rw [hbusy.frame hactive']
  split_ifs with hcancel
  · exact hrx.cancel (hbusy.congr_active hactive' hsame) hactive' hcancel
  · exact hrx.busyFrame hcancel

end

/-- What a write leaves at the start of a buffer depends on no more than that of the buffer. -/
theorem slice_write_congr {a b : TxBuffer} {off l : ℕ} {bytes : Bytes}
    (h : slice a.1 0 l = slice b.1 0 l) (hl : l ≤ usbBufferSize) :
    slice (a.write off bytes).1 0 l = slice (b.write off bytes).1 0 l := by
  have hget : ∀ i < l, a.1[i]? = b.1[i]? := fun i hi ↦ by
    have hi' : (slice a.1 0 l)[i]? = (slice b.1 0 l)[i]? := by rw [h]
    rwa [getElem?_slice, getElem?_slice, if_pos hi, if_pos hi, Nat.zero_add] at hi'
  refine ext_getElem? fun i ↦ ?_
  rw [getElem?_slice, getElem?_slice, Nat.zero_add]
  split_ifs with hi
  · rw [TxBuffer.getElem?_write (by omega), TxBuffer.getElem?_write (by omega), hget i hi]
  · rfl

theorem BusyRun.worker (h : BusyRun c s₀ es s) (off : ℕ) (bytes : Bytes) :
    BusyRun c s₀ (es ++ [.worker off bytes]) { s with tx := s.tx.write off bytes } := by
  have hend : s₀.responseEnd ≤ usbBufferSize := by
    unfold Hid.responseEnd
    split_ifs <;> decide
  refine ⟨h.kept.trans ⟨rfl, rfl, rfl, rfl, rfl, rfl, rfl, rfl, rfl, rfl⟩, h.rx_eq, ?_, ?_, ?_,
    fun g hg ↦ (h.busy g hg).imp_right (·.concat _), h.sent_concat _⟩
  · rw [any_concat]
    exact h.pending_eq.trans (Bool.or_false _ ▸ rfl)
  · rw [any_concat]
    exact h.button_eq.trans (Bool.or_false _ ▸ rfl)
  · rw [foldl_append]
    exact slice_write_congr h.response hend

/-- **One event while the worker is at work.** -/
theorem BusyRun.step (h : BusyRun c s₀ es s) (hbusy : Busy c s) (he : BusyEvent s₀.cborActive e) :
    BusyRun c s₀ (es ++ [e]) (hidStep env s e) := by
  cases he with
  | frame now button ok f hactive => exact h.frame hbusy hactive
  | task t ht => exact h.taskStep (hbusy.task ht) (fun _ _ ↦ rfl) fun _ ↦ rfl
  | complete => exact h.taskStep hbusy.complete (fun _ _ ↦ rfl) fun _ ↦ rfl
  | worker off bytes => exact h.worker off bytes

theorem hidRun_concat (s : Hid) (es : List HidEvent) (e : HidEvent) :
    hidRun env s (es ++ [e]) = hidStep env (hidRun env s es) e := by
  rw [hidRun, foldl_append]
  rfl

/-- What is left of the request in a run is a request. -/
theorem BusyRun.toBusy (h : BusyRun c s₀ es s) (h₀ : Busy c s₀)
    (hes : ∀ e ∈ es, BusyEvent s₀.cborActive e) : Busy c s := by
  cases hactive : s₀.cborActive with
  | true => exact h₀.congr_active hactive h.kept
  | false =>
    rw [hactive] at hes
    have hnone : es.any (cancels c s₀.packet.lastCmd) = false := by
      refine any_eq_false.mpr fun e he ↦ ?_
      cases hes e he with
      | frame now button ok f hfalse => exact absurd hfalse (by decide)
      | task => exact Bool.false_ne_true
      | complete => exact Bool.false_ne_true
      | worker => exact Bool.false_ne_true
    have hpending := h.pending_eq
    have hbutton := h.button_eq
    rw [hnone, Bool.or_false] at hpending hbutton
    exact h₀.congr h.kept ⟨hpending, hbutton, h.rx_eq hactive⟩

/-- **A run while the worker is at work.** -/
theorem Busy.run (h : Busy c s) (hes : ∀ e ∈ es, BusyEvent s.cborActive e) :
    BusyRun c s es (hidRun env s es) := by
  induction es using List.reverseRecOn with
  | nil => exact busyRun_nil c s
  | append_singleton es e ih =>
    have hes' : ∀ e' ∈ es, BusyEvent s.cborActive e' := fun e' he' ↦
      hes e' (mem_append_left _ he')
    have hrun := ih hes'
    rw [hidRun_concat]
    exact hrun.step (hrun.toBusy h hes') (hes e (by simp))

end PicoAll
