import PicoAll.Transport.HidBusy

/-!
# Busy isolation

The other two thirds of what `HidBusy` begins: how a request gets to the worker, from any state that
the driver can be in, and what becomes of the response when the worker has finished.

A request with the flag `hid_cbor_active` is isolated from all frames, and its response goes out on
its channel and with its command (`hid_busy_isolation`). A `CTAPHID_MSG` has no flag: the next frame
takes its place, and gets its response (`hid_msg_response_misdirected`).
-/

namespace PicoAll

open BigEndian ByteBuffer Fragments List Option

variable {env : HidEnv} {s s' s'' : Hid} {f : CtapFrame} {now : UInt32} {button ok : Bool}
  {t : HidTick} {c : UInt32} {es : List HidEvent} {size : ℕ} {sw : UInt16}

/-! ### What holds in any state -/

/-- A report is on its way exactly while a write is pending, a busy reply is one, and only a request
with the flag is cancelled. -/
structure HidSound (s : Hid) : Prop where
  pending_iff : s.lastWriteResult = .pending ↔ s.report ≠ none
  inflight : s.busyInflight = true → s.report ≠ none
  busy : ∀ f, s.busyResponse = some f → ∃ c, f = ctapErrorFrame c ctap1ErrChannelBusy
  cancel : s.cancelPending = true → s.cborActive = true

open HidSound

theorem HidSound.congr (h : HidSound s) (hwrite : s'.lastWriteResult = s.lastWriteResult)
    (hreport : s'.report = s.report) (hinflight : s'.busyInflight = s.busyInflight)
    (hbusy : s'.busyResponse = s.busyResponse) (hpending : s'.cancelPending = s.cancelPending)
    (hactive : s'.cborActive = s.cborActive) : HidSound s' := by
  refine ⟨?_, ?_, ?_, ?_⟩
  · rw [hwrite, hreport]
    exact h.pending_iff
  · rw [hinflight, hreport]
    exact h.inflight
  · rw [hbusy]
    exact h.busy
  · rw [hpending, hactive]
    exact h.cancel

theorem HidSound.write (h : HidSound s) : HidSound (driverWriteHid ok f s) := by
  by_cases hwrite : s.lastWriteResult = .pending
  · rw [driverWriteHid_of_pending hwrite]
    exact h
  cases ok with
  | true =>
    rw [driverWriteHid_true hwrite]
    exact ⟨⟨fun _ ↦ some_ne_none f, fun _ ↦ rfl⟩, fun _ ↦ some_ne_none f, h.busy,
      h.cancel⟩
  | false =>
    rw [driverWriteHid_false hwrite]
    exact ⟨⟨fun hp ↦ absurd hp (by simp), fun hne ↦ absurd (h.pending_iff.mpr hne) hwrite⟩,
      h.inflight, h.busy, h.cancel⟩

theorem HidSound.ctapError {error : UInt8} (h : HidSound s) : HidSound (ctapError error s) :=
  h.congr rfl rfl rfl rfl rfl rfl

theorem HidSound.replyNow (h : HidSound s) : HidSound (replyNow ok f s) := by
  have hrespond : HidSound (s.respond f) := h.congr rfl rfl rfl rfl rfl rfl
  have hwrite : HidSound (driverWriteHid ok f (s.respond f)) := hrespond.write
  exact hwrite.congr rfl rfl rfl rfl rfl rfl

theorem HidSound.contHid {offset : ℕ} (h : HidSound s) :
    HidSound (Hid.driverExecFinishedContHid size offset s) := by
  unfold Hid.driverExecFinishedContHid
  exact h.congr rfl rfl rfl rfl rfl rfl

theorem HidSound.execFinishedSend (h : HidSound s) : HidSound (execFinishedSend size sw s) := by
  unfold PicoAll.execFinishedSend
  split_ifs
  · exact h
  · exact h.ctapError
  · exact contHid (h.congr rfl rfl rfl rfl rfl rfl)
  · exact h.contHid

theorem HidSound.driverExecFinishedHid (h : HidSound s) :
    HidSound (driverExecFinishedHid size sw s) := by
  unfold PicoAll.driverExecFinishedHid
  split_ifs with hpending
  · exact execFinishedSend
      ⟨h.pending_iff, h.inflight, h.busy, fun hp ↦ absurd hp (by decide : ¬ (false = true))⟩
  · exact execFinishedSend ⟨h.pending_iff, h.inflight, h.busy, fun hp ↦ absurd hp hpending⟩

theorem HidSound.sendKeepalive (h : HidSound s) : HidSound (sendKeepalive now button ok s) := by
  unfold PicoAll.sendKeepalive
  split_ifs
  · exact h
  · exact h
  · exact write (h.congr rfl rfl rfl rfl rfl rfl)

theorem HidSound.nopacket (h : HidSound s) : HidSound (driverProcessUsbNopacketHid now s) := by
  unfold driverProcessUsbNopacketHid
  split_ifs
  · have herror : HidSound (PicoAll.ctapError ctap1ErrMsgTimeout s) := h.ctapError
    exact herror.congr rfl rfl rfl rfl rfl rfl
  · exact h

theorem HidSound.hidCancel (h : HidSound s) : HidSound (hidCancel f s) := by
  unfold PicoAll.hidCancel
  split_ifs with hcancel
  · exact ⟨h.pending_iff, h.inflight, h.busy, fun _ ↦ hcancel.2.1⟩
  · exact h

theorem HidSound.hidBusy (h : HidSound s) : HidSound (hidBusy f s) := by
  unfold PicoAll.hidBusy
  split_ifs
  · exact ⟨h.pending_iff, h.inflight, fun g hg ↦ ⟨f.cid, (Option.some.inj hg).symm⟩, h.cancel⟩
  · exact h

theorem HidSound.hidWink (h : HidSound s) : HidSound (hidWink ok s) := by
  unfold PicoAll.hidWink
  split_ifs
  · exact h.ctapError
  · exact replyNow (h.congr rfl rfl rfl rfl rfl rfl)

theorem HidSound.hidPing (h : HidSound s) : HidSound (hidPing ok s) := by
  unfold PicoAll.hidPing
  split_ifs
  · have hcopied : HidSound (copyToResponse s.packet.data (s.hand s.packet.lastCmd s.payload)) :=
      h.congr rfl rfl rfl rfl rfl rfl
    exact hcopied.driverExecFinishedHid.congr rfl rfl rfl rfl rfl rfl
  · exact replyNow (h.congr rfl rfl rfl rfl rfl rfl)

theorem HidSound.hidLock (h : HidSound s) : HidSound (hidLock now ok s) := by
  unfold PicoAll.hidLock
  dsimp only
  split_ifs
  · exact h.ctapError
  · exact h.ctapError
  · exact h.ctapError
  all_goals exact replyNow (h.congr rfl rfl rfl rfl rfl rfl)

theorem HidSound.apduAnswered {answer : ApduAnswer} (h : HidSound s) :
    HidSound (apduAnswered answer s) := by
  unfold PicoAll.apduAnswered
  split
  · exact h.congr rfl rfl rfl rfl rfl rfl
  · exact contHid (h.congr rfl rfl rfl rfl rfl rfl)

theorem HidSound.hidMsg (h : HidSound s) : HidSound (hidMsg env s).1 := by
  have hanswered : ∀ nk, HidSound (PicoAll.apduAnswered (env.apduProcess s.payload s.tx)
      { s.hand s.packet.lastCmd s.payload with isNk := nk, threadType := 1 }) := fun nk ↦
    apduAnswered (h.congr rfl rfl rfl rfl rfl rfl)
  unfold PicoAll.hidMsg
  dsimp only
  split_ifs
  · exact (hanswered _).congr rfl rfl rfl rfl rfl rfl
  · exact (hanswered _).congr rfl rfl rfl rfl rfl rfl

theorem HidSound.hidCbor (h : HidSound s) : HidSound (hidCbor now button ok s).1 := by
  unfold PicoAll.hidCbor
  dsimp only
  split_ifs
  · exact ctapError (h.congr rfl rfl rfl rfl rfl rfl)
  · have hprocess : HidSound { (cborProcess { s with
        threadType := 2, cancelButton := false }).finishPacket with lastKeepaliveTime := 0 } :=
      h.congr rfl rfl rfl rfl rfl rfl
    generalize ({ (cborProcess { s with
        threadType := 2, cancelButton := false }).finishPacket with
      lastKeepaliveTime := 0 } : Hid) = s₁ at hprocess ⊢
    have hsent : HidSound (PicoAll.sendKeepalive now button ok s₁) := hprocess.sendKeepalive
    exact ⟨hsent.pending_iff, hsent.inflight, hsent.busy, fun _ ↦ rfl⟩

theorem HidSound.hidDispatch (h : HidSound s) : HidSound (hidDispatch env now button ok s).1 := by
  unfold PicoAll.hidDispatch
  split_ifs
  · exact replyNow (h.congr rfl rfl rfl rfl rfl rfl)
  · exact h.hidWink
  · exact h.hidPing
  · exact h.hidLock
  · exact replyNow (h.congr rfl rfl rfl rfl rfl rfl)
  · exact replyNow (h.congr rfl rfl rfl rfl rfl rfl)
  · exact replyNow (h.congr rfl rfl rfl rfl rfl rfl)
  · exact h.hidMsg
  · exact h.hidCbor
  · exact h.ctapError
  · exact h

theorem HidSound.packet (h : HidSound s) :
    HidSound (driverProcessUsbPacketHid env now button ok s).1 := by
  unfold driverProcessUsbPacketHid
  split_ifs
  · exact h.hidCancel
  · exact h.hidBusy
  · exact h.congr rfl rfl rfl rfl rfl rfl
  · have hinit : HidSound { driverInitHid s with lastPacketTime := now } :=
      h.congr rfl rfl rfl rfl rfl rfl
    dsimp only
    cases haccept : hidAccept now { driverInitHid s with lastPacketTime := now } with
    | error error => exact hinit.ctapError
    | ok s' =>
      refine hidDispatch ?_
      obtain ⟨-, rfl, -⟩ | ⟨-, -, ⟨-, rfl⟩ | ⟨-, rfl⟩⟩ := hidAccept_ok haccept
      · exact hinit.congr rfl rfl rfl rfl rfl rfl
      · exact hinit.congr rfl rfl rfl rfl rfl rfl
      · exact hinit

theorem HidSound.taskBusy (h : HidSound s) : HidSound (taskBusy ok s) := by
  unfold PicoAll.taskBusy
  cases s.busyResponse with
  | none => exact h
  | some f =>
    dsimp only
    by_cases hwrite : s.lastWriteResult = .pending
    · rw [if_pos hwrite]
      exact h
    rw [if_neg hwrite]
    have hsent : HidSound (driverWriteHid ok f s) := h.write
    cases ok with
    | true =>
      rw [driverWriteHid_true hwrite] at hsent ⊢
      exact ⟨hsent.pending_iff, fun _ ↦ some_ne_none f, fun g hg ↦ absurd hg (by simp),
        h.cancel⟩
    | false => exact ⟨hsent.pending_iff, fun hi ↦ absurd hi (by simp), hsent.busy, hsent.cancel⟩

theorem HidSound.task (h : HidSound s) : HidSound (hidTask t s) := by
  have hbusy : HidSound (PicoAll.taskBusy t.busyOk (driverProcessUsbNopacketHid t.now s)) :=
    h.nopacket.taskBusy
  have hstatus : HidSound (taskStatus t
      (PicoAll.taskBusy t.busyOk (driverProcessUsbNopacketHid t.now s))) := by
    unfold taskStatus
    cases t.status with
    | none => exact hbusy
    | blocked => exact hbusy.sendKeepalive
    | finished size sw => exact hbusy.driverExecFinishedHid
  unfold hidTask taskWrite
  split_ifs
  · exact hstatus.write
  · exact hstatus

/-- What a report that has gone out changes of the way to the host. -/
theorem hidReportSent_way : (hidReportSent f s).report = s.report ∧
    (hidReportSent f s).busyInflight = s.busyInflight ∧
    (hidReportSent f s).busyResponse = s.busyResponse ∧
    (hidReportSent f s).cancelPending = s.cancelPending ∧
    (hidReportSent f s).cborActive = s.cborActive ∧
    (hidReportSent f s).lastWriteResult ≠ .pending := by
  have hwritten : (hidWritten f s).lastWriteResult ≠ .pending := by
    unfold hidWritten
    split_ifs with hpending
    · exact fun hp ↦ absurd hp (by simp)
    · exact hpending
  have hsame : (hidWritten f s).report = s.report ∧ (hidWritten f s).busyInflight = s.busyInflight ∧
      (hidWritten f s).busyResponse = s.busyResponse ∧
      (hidWritten f s).cancelPending = s.cancelPending ∧
      (hidWritten f s).cborActive = s.cborActive := by
    unfold hidWritten
    split_ifs <;> exact ⟨rfl, rfl, rfl, rfl, rfl⟩
  obtain ⟨hreport, hinflight, hbusy, hpending, hactive⟩ := hsame
  unfold hidReportSent hidAdvance hidContinue
  generalize hidWritten f s = s' at *
  dsimp only
  split_ifs <;> exact ⟨hreport, hinflight, hbusy, hpending, hactive, hwritten⟩

theorem HidSound.complete (h : HidSound s) : HidSound (tudHidReportCompleteCb s) := by
  unfold tudHidReportCompleteCb
  cases s.report with
  | none => exact h
  | some req =>
    split_ifs with hinflight
    · exact ⟨⟨fun hp ↦ absurd hp (by simp), fun hne ↦ absurd rfl hne⟩, fun hi ↦ absurd hi (by simp),
        h.busy, h.cancel⟩
    · obtain ⟨hreport, hinflight', hbusy, hpending, hactive, hwrite⟩ :
        (hidReportSent req { s with report := none }).report = none ∧ _ := hidReportSent_way
      refine ⟨⟨fun hp ↦ absurd hp hwrite, fun hne ↦ absurd hreport hne⟩, fun hi ↦ ?_, ?_, ?_⟩
      · rw [hinflight'] at hi
        exact absurd hi hinflight
      · rw [hbusy]
        exact h.busy
      · rw [hpending, hactive]
        exact h.cancel

theorem HidSound.step (h : HidSound s) (e : HidEvent) : HidSound (hidStep env s e) := by
  cases e with
  | frame now button ok f =>
    have hrx : HidSound { s with rx := f } := h.congr rfl rfl rfl rfl rfl rfl
    have hpacket : HidSound (driverProcessUsbPacketHid env now button ok { s with rx := f }).1 :=
      hrx.packet
    show HidSound (tudHidSetReportCb env now button ok f s)
    unfold tudHidSetReportCb
    dsimp only
    split_ifs
    · exact hpacket.nopacket
    · exact hpacket
  | task t => exact h.task
  | complete => exact h.complete
  | worker off bytes => exact h.congr rfl rfl rfl rfl rfl rfl

/-- **In any state.** -/
theorem hidSound_run (es : List HidEvent) : HidSound (hidRun env hidPowerUp es) := by
  induction es using List.reverseRecOn with
  | nil =>
    show HidSound hidPowerUp
    exact ⟨⟨fun hp ↦ absurd hp (by decide), fun hne ↦ absurd rfl hne⟩,
      fun hi ↦ absurd hi (by decide), fun f hf ↦ absurd hf (by simp [hidPowerUp]),
      fun hp ↦ absurd hp (by decide)⟩
  | append_singleton es e ih =>
    rw [hidRun_concat]
    exact ih.step e

/-! ### How a request gets to the worker -/

/-- A frame has completed a request of its channel, and it has been handed to the worker. -/
structure Started (f : CtapFrame) (s s' : Hid) : Prop where
  busy : Busy f.cid s'
  cmd : isMessageCommand s'.packet.lastCmd
  pending : s'.cancelPending = false
  button : s'.cborActive = true → s'.cancelButton = false
  handed : ∃ payload, s'.handed = s.handed ++ [⟨f.cid, s'.packet.lastCmd, payload⟩] ∧
    (s'.cborActive = true → s'.cborRequest = (s'.packet.lastCmd, payload))

/-- The driver as `driver_init_hid` leaves it. -/
structure Fresh (s : Hid) : Prop where
  active : s.cborActive = false
  pending : s.cancelPending = false
  reqIsLast : s.reqIsLast = false
  isNk : s.isNk = false
  rPtr_eq : s.rPtr = 0
  wPtr_eq : s.wPtr = 0
  size_eq : s.sendBufferSize = 0

/-- A message that is handed to the worker. -/
theorem Fresh.hidCbor (h : Fresh s) (hrx : s.rx.cid = f.cid) (hcid : s.packet.lastReq.cid = f.cid)
    (hcmd : isMessageCommand s.packet.lastCmd) (hstart : 0 < (hidCbor now button ok s).2) :
    Started f s (hidCbor now button ok s).1 := by
  unfold PicoAll.hidCbor at hstart ⊢
  split_ifs at hstart ⊢ with hlen
  · exact absurd hstart (Nat.lt_irrefl 0)
  generalize hs' : ({ (cborProcess { s with threadType := 2, cancelButton := false }).finishPacket with
      lastKeepaliveTime := 0 } : Hid) = s'
  obtain ⟨hkept, hcancel⟩ : RequestKept s' (PicoAll.sendKeepalive now button ok s') ∧ _ :=
    sendKeepalive_request
  have hhanded : PacketKept s' (PicoAll.sendKeepalive now button ok s') := sendKeepalive_kept
  have hpacket : (PicoAll.sendKeepalive now button ok s').packet.lastCmd = s.packet.lastCmd := by
    rw [hkept.packet_eq, ← hs']
    rfl
  refine ⟨⟨?_, fun _ ↦ ⟨rfl, ?_⟩, fun hnot ↦ absurd hnot (by simp [cborStarted]), ?_, ?_, ?_, ?_, ?_⟩,
    ?_, ?_, fun _ ↦ ?_, s.payload, ?_, fun _ ↦ ?_⟩
  all_goals subst hs'
  · exact (congrArg (·.lastReq.cid) hkept.packet_eq).trans hcid
  · exact hkept.threadType_eq
  · exact hkept.isNk_eq.trans h.isNk
  · exact hkept.time_eq
  · exact hkept.rPtr_eq.trans h.rPtr_eq
  · exact hkept.wPtr_eq.trans h.wPtr_eq
  · exact hkept.size_eq.trans h.size_eq
  · exact hpacket ▸ hcmd
  · exact hcancel.pending_eq.trans h.pending
  · exact hcancel.button_eq
  · refine hhanded.handed_eq.trans ?_
    show s.handed ++ [⟨s.rx.cid, s.packet.lastCmd, s.payload⟩] = s.handed ++ [⟨f.cid, _, s.payload⟩]
    rw [hrx]
    exact congrArg (fun cmd ↦ s.handed ++ [⟨f.cid, cmd, s.payload⟩]) hpacket.symm
  · refine hkept.request_eq.trans ?_
    exact congrArg (fun cmd ↦ (cmd, s.payload)) hpacket.symm

theorem hidMsg_lastCmd : (hidMsg env s).1.packet.lastCmd = s.packet.lastCmd := by
  have hanswered : ∀ nk, (apduAnswered (env.apduProcess s.payload s.tx)
      { s.hand s.packet.lastCmd s.payload with isNk := nk, threadType := 1 }).packet = s.packet :=
    fun nk ↦ apduAnswered_kept.packet_eq
  unfold hidMsg
  dsimp only
  split_ifs
  · exact congrArg (·.lastCmd) (hanswered _)
  · exact congrArg (·.lastCmd) (hanswered _)

theorem Fresh.hidMsg (h : Fresh s) (hrx : s.rx.cid = f.cid)
    (hcmd : isMessageCommand s.packet.lastCmd) (hotp : s.packet.lastCmd ≠ ctaphidOtp)
    (hstart : 0 < (hidMsg env s).2) : Started f s (hidMsg env s).1 := by
  unfold PicoAll.hidMsg at hstart ⊢
  dsimp only at hstart ⊢
  split_ifs at hstart ⊢ with hsent
  swap
  · exact absurd hstart (Nat.lt_irrefl 0)
  rw [apduAnswered, (env.apduProcess s.payload s.tx).next_eq hsent]
  refine ⟨⟨?_, fun hactive ↦ ?_, fun _ ↦ ⟨rfl, h.pending⟩, ?_, rfl, h.rPtr_eq, h.wPtr_eq, h.size_eq⟩,
    hcmd, h.pending, fun hactive ↦ ?_, s.payload, ?_, fun hactive ↦ ?_⟩
  · show (if s.reqIsLast then _ else s.rx).cid = f.cid
    rw [h.reqIsLast]
    exact hrx
  · exact absurd (h.active.symm.trans hactive) (by decide)
  · show (s.isNk || decide (s.packet.lastCmd = ctaphidOtp)) = false
    rw [h.isNk, decide_eq_false hotp]
    rfl
  · exact absurd (h.active.symm.trans hactive) (by decide)
  · show s.handed ++ [⟨s.rx.cid, s.packet.lastCmd, s.payload⟩] = _
    rw [hrx]
    rfl
  · exact absurd (h.active.symm.trans hactive) (by decide)

/-- Only a message and a CBOR request are for the worker. -/
theorem hidDispatch_worker : (hidDispatch env now button ok s).2 = 0 ∨
    ((s.packet.lastCmd = ctaphidMsg ∨ s.packet.lastCmd = ctaphidOtp) ∧
      hidDispatch env now button ok s = hidMsg env s) ∨
    ((s.packet.lastCmd = ctaphidCbor ∨ s.packet.lastCmd ≥ ctaphidVendorFirst) ∧
      hidDispatch env now button ok s = hidCbor now button ok s) := by
  unfold hidDispatch
  split_ifs with h₁ h₂ h₃ h₄ h₅ h₆ h₇ hmsg hcbor
  · exact .inl rfl
  · exact .inl rfl
  · exact .inl rfl
  · exact .inl rfl
  · exact .inl rfl
  · exact .inl rfl
  · exact .inl rfl
  · exact .inr (.inl ⟨hmsg.1, rfl⟩)
  · exact .inr (.inr ⟨hcbor.1, rfl⟩)
  · exact .inl rfl
  · exact .inl rfl

theorem Fresh.hidDispatch (h : Fresh s) (hrx : s.rx.cid = f.cid)
    (hcid : s.packet.lastReq.cid = f.cid)
    (hotp : (hidDispatch env now button ok s).1.packet.lastCmd ≠ ctaphidOtp)
    (hstart : 0 < (hidDispatch env now button ok s).2) :
    Started f s (hidDispatch env now button ok s).1 := by
  obtain hnone | ⟨hmsg, heq⟩ | ⟨hcbor, heq⟩ :
    (PicoAll.hidDispatch env now button ok s).2 = 0 ∨ _ := hidDispatch_worker
  · omega
  · have hcmd : isMessageCommand s.packet.lastCmd :=
      hmsg.elim (fun hc ↦ .inr (.inr (.inl hc))) fun hc ↦ .inr (.inr (.inr (.inl hc)))
    rw [heq] at hotp hstart ⊢
    rw [hidMsg_lastCmd] at hotp
    exact h.hidMsg hrx hcmd hotp hstart
  · have hcmd : isMessageCommand s.packet.lastCmd := .inr (.inr (.inr (.inr hcbor)))
    rw [heq] at hstart ⊢
    exact h.hidCbor hrx hcid hcmd hstart

variable {trace : List PacketStep}

/-- A frame that is for the worker is the last one of its message. -/
theorem driverProcessUsbPacketHid_worker (hinv : PacketInv trace s.packet) :
    (driverProcessUsbPacketHid env now button ok { s with rx := f }).2 = 0 ∨
      s.cborActive = false ∧ ∃ packet : MsgPacket, packet.lastReq = f ∧
        driverProcessUsbPacketHid env now button ok { s with rx := f } =
          hidDispatch env now button ok { s.incoming now f with packet := packet } := by
  unfold driverProcessUsbPacketHid
  by_cases hcancel : f.isCancel = true
  · rw [if_pos hcancel]
    exact .inl rfl
  rw [if_neg hcancel]
  by_cases hactive : s.cborActive = true
  · rw [if_pos hactive]
    exact .inl rfl
  rw [if_neg hactive]
  by_cases hstray : ¬ f.isInit = true ∧ s.packet.len = 0
  · rw [if_pos hstray]
    exact .inl rfl
  rw [if_neg hstray]
  rcases haccept : hidAccept now (s.incoming now f) with error | s''
  · refine .inl ?_
    simp only [Hid.incoming] at haccept
    simp only [haccept]
  · have hincoming := haccept
    simp only [Hid.incoming] at hincoming
    simp only [hincoming]
    obtain ⟨-, rfl, -⟩ | ⟨hinit, -, ⟨-, rfl⟩ | ⟨-, rfl⟩⟩ := hidAccept_ok haccept
    · exact .inr ⟨by simpa using hactive, .start now f, rfl, rfl⟩
    · exact .inr ⟨by simpa using hactive, s.packet.append f, rfl, rfl⟩
    · -- a frame of another channel is not the last one of a message
      have hlen : 0 < s.packet.len := by
        have hinit' : f.isInit = false := hinit
        simp only [hinit', Bool.false_eq_true, not_false_eq_true, true_and] at hstray
        omega
      rw [hidDispatch_incomplete hinit hlen (hinv hlen).2]
      exact .inl rfl

/-- **How a request gets to the worker.** -/
theorem HidSound.started (h : HidSound s) (hinv : PacketInv trace s.packet)
    (hotp : (driverProcessUsbPacketHid env now button ok { s with rx := f }).1.packet.lastCmd ≠ ctaphidOtp)
    (hstart : 0 < (driverProcessUsbPacketHid env now button ok { s with rx := f }).2) :
    Started f s (driverProcessUsbPacketHid env now button ok { s with rx := f }).1 := by
  obtain hnone | ⟨hidle, packet, hreq, heq⟩ :
    (driverProcessUsbPacketHid env now button ok { s with rx := f }).2 = 0 ∨ _ :=
      driverProcessUsbPacketHid_worker hinv
  · omega
  rw [heq] at hotp hstart ⊢
  have hpending : s.cancelPending = false := by
    by_contra hp
    exact absurd (hidle.symm.trans (h.cancel (by simpa using hp))) (by decide)
  have hfresh : Fresh { s.incoming now f with packet := packet } :=
    ⟨hidle, hpending, rfl, rfl, rfl, rfl, rfl⟩
  obtain ⟨hbusy, hcmd, hpending', hbutton, hhanded⟩ :=
    hfresh.hidDispatch rfl (congrArg (·.cid) hreq) hotp hstart
  exact ⟨hbusy, hcmd, hpending', hbutton, hhanded⟩

/-! ### The response -/

/-- The response to a request of a channel. -/
def answerMessage (c : UInt32) (cmd : UInt8) (cancelled : Bool) (size : ℕ) (tx : TxBuffer) :
    HidMessage :=
  ⟨c, cmd, if cancelled then [ctaphidKeepaliveCancelStatus] else slice tx.1 7 size⟩

/-- There is a response: the request has been cancelled, or the worker has left one that has room. -/
def HasAnswer (cancelled active : Bool) (size : ℕ) (sw : UInt16) (l : ℕ) : Prop :=
  cancelled = true ∨ 0 < size ∧ (active = true → sw = 0) ∧ size + 7 ≤ l

/-- A frame on a channel that is neither a keepalive nor an error. -/
def isAnswerFrame (c : UInt32) (f : CtapFrame) : Bool :=
  f.cid = c && !f.isKeepalive && f.type ≠ ctaphidError

/-- When the worker has finished its response is in the transmit buffer. If no report of another
response is on its way then, the frames on the channel are those of the response, whatever happens
while it is sent, and they are put together to it when there are no more. -/
structure Answered (env : HidEnv) (m : HidMessage) (s s' : Hid) : Prop where
  sending : Sending m 0 0 s'
  frames : (∀ g, s.report = some g → s.busyInflight = true ∨ g.isKeepalive = true) →
    ∀ es, (∀ e ∈ es, SendEvent (m.payload.length + 7) e) →
      ∃ new, (hidRun env s' es).sent = s.sent ++ new ∧
        (∀ k g, (new.filter (isAnswerFrame m.cid))[k]? = some g → IsFragment m k g) ∧
        ((hidRun env s' es).wPtr ≤ (hidRun env s' es).rPtr →
          reassemble (new.filter (isAnswerFrame m.cid)) = some m)

theorem counts_isAnswerFrame {m : HidMessage} (hcmd : isMessageCommand m.cmd)
    (hlen : m.payload.length ≤ usbBufferSize) : Counts (isAnswerFrame m.cid) m := by
  refine ⟨fun k f hf ↦ ?_, fun f hf ↦ ?_⟩
  · rw [isAnswerFrame, hf.not_isKeepalive hcmd hlen, decide_eq_true hf.cid_eq,
      decide_eq_true (hf.type_ne hcmd hlen).2]
    rfl
  · rw [isAnswerFrame, hf, Bool.not_true, Bool.and_false]
    rfl

theorem isAnswerFrame_ctapErrorFrame (c c' : UInt32) (error : UInt8) :
    isAnswerFrame c (ctapErrorFrame c' error) = false := by
  rw [isAnswerFrame, decide_eq_false (not_not.mpr rfl : ¬ (ctapErrorFrame c' error).type ≠ ctaphidError),
    Bool.and_false]

/-- What the worker has left is handed over. -/
theorem Busy.driverExecFinishedHid (h : Busy c s)
    (hanswer : HasAnswer s.cancelPending s.cborActive size sw s.responseEnd) :
    ∃ n s', driverExecFinishedHid size sw s = Hid.driverExecFinishedContHid n 7 s' ∧
      n + 7 ≤ usbBufferSize ∧ s'.rPtr = 0 ∧ s'.wPtr = 0 ∧
      responseMessage n 7 s' = answerMessage c s.packet.lastCmd s.cancelPending size s.tx ∧
      SameLink s s' ∧ s'.sent = s.sent := by
  have hend : s.responseEnd ≤ usbBufferSize := by
    unfold Hid.responseEnd
    split_ifs <;> decide
  unfold PicoAll.driverExecFinishedHid
  by_cases hpending : s.cancelPending = true
  · -- `apdu.sw` is 0 for a response to a cancelled request
    rw [if_pos hpending]
    refine ⟨1, { cancelResponse s with cborActive := false }, ?_, by decide, h.rPtr_eq, h.wPtr_eq, ?_,
      ⟨rfl, rfl, rfl, rfl, rfl⟩, rfl⟩
    · rw [execFinishedSend, if_neg (by decide), if_neg fun h ↦ h.2 rfl, if_neg]
      show ¬ s.isNk = true
      rw [h.isNk]
      decide
    · rw [answerMessage, if_pos hpending, ← h.cid_eq]
      have hslice : slice (s.tx.write 7 [ctaphidKeepaliveCancelStatus]).1 7 1 = _ :=
        TxBuffer.slice_write (show 7 + [ctaphidKeepaliveCancelStatus].length ≤ usbBufferSize by decide)
      exact congrArg (HidMessage.mk s.ctapReq.cid s.packet.lastCmd) hslice
  · rw [if_neg hpending]
    obtain ⟨hpos, hsw, hroom⟩ := hanswer.resolve_left hpending
    refine ⟨size, { s with cborActive := false }, ?_, by omega, h.rPtr_eq, h.wPtr_eq, ?_,
      ⟨rfl, rfl, rfl, rfl, rfl⟩, rfl⟩
    · rw [execFinishedSend, if_neg (by omega), if_neg, if_neg]
      · show ¬ s.isNk = true
        rw [h.isNk]
        decide
      · rintro ⟨hthread, hne⟩
        cases hactive : s.cborActive with
        | true => exact hne (hsw hactive)
        | false => exact absurd ((h.msg hactive).1.symm.trans hthread) (by decide)
    · rw [answerMessage, if_neg hpending, ← h.cid_eq]
      rfl

/-- **When the worker has finished.** -/
theorem Busy.answered (h : Busy c s) (hsound : HidSound s)
    (hcmd : isMessageCommand s.packet.lastCmd) (ht : t.status = .finished size sw)
    (hanswer : HasAnswer s.cancelPending s.cborActive size sw s.responseEnd) :
    Answered env (answerMessage c s.packet.lastCmd s.cancelPending size s.tx) s (hidTask t s) := by
  have hstep : TaskStep c s (taskBusy t.busyOk s) := taskBusy_step
  have htx : (taskBusy t.busyOk s).tx = s.tx := taskBusy_tx
  have hbusy : Busy c (taskBusy t.busyOk s) := h.congr hstep.kept hstep.cancel
  have hanswer' : HasAnswer (taskBusy t.busyOk s).cancelPending (taskBusy t.busyOk s).cborActive size
      sw (taskBusy t.busyOk s).responseEnd := by
    rw [hstep.cancel.pending_eq, hstep.kept.active_eq, hstep.kept.responseEnd_eq]
    exact hanswer
  obtain ⟨n, s₁, hfinished, hfits, hr, hw, hmessage, hlink, hsent⟩ :=
    hbusy.driverExecFinishedHid hanswer'
  rw [hstep.kept.packet_eq, hstep.cancel.pending_eq, htx] at hmessage
  have htask : hidTask t s = PicoAll.taskWrite t.responseOk (Hid.driverExecFinishedContHid n 7 s₁) := by
    rw [hidTask, h.nopacket, PicoAll.taskStatus, ht]
    exact congrArg (PicoAll.taskWrite t.responseOk) hfinished
  have hsending : Sending (responseMessage n 7 s₁) 0 0 (Hid.driverExecFinishedContHid n 7 s₁) :=
    sending_contHid (by rw [show contOffset 7 = 0 from rfl]; omega) hr hw
  have hlen : (responseMessage n 7 s₁).payload.length = n :=
    length_responseMessage (by rw [show contOffset 7 = 0 from rfl]; omega)
  rw [hmessage] at hsending hlen
  generalize hm : answerMessage c s.packet.lastCmd s.cancelPending size s.tx = m at *
  have hcmd' : isMessageCommand m.cmd := by
    rw [← hm]
    exact hcmd
  have hcounts : Counts (isAnswerFrame m.cid) m := counts_isAnswerFrame hcmd' (by omega)
  refine ⟨?_, fun hreport es hes ↦ ?_⟩
  · rw [htask]
    exact hsending.congr taskWrite_sameBelow
  · obtain ⟨new, hnew, hall⟩ := hstep.sent
    have hskip : new.filter (isAnswerFrame m.cid) = [] := by
      refine filter_eq_nil_iff.mpr fun g hg ↦ ?_
      obtain ⟨hkeepalive, -⟩ | hreply := hall g hg
      · rw [hcounts.keepalive g hkeepalive]
        exact Bool.false_ne_true
      · obtain ⟨c', rfl⟩ := hsound.busy g hreply
        rw [isAnswerFrame_ctapErrorFrame]
        exact Bool.false_ne_true
    have hfree : LinkFree (isAnswerFrame m.cid) s :=
      ⟨hsound.pending_iff, hsound.inflight, hreport, fun g hg ↦ by
        obtain ⟨c', rfl⟩ := hsound.busy g hg
        exact isAnswerFrame_ctapErrorFrame _ _ _, h.time⟩
    have hfree₁ : LinkFree (isAnswerFrame m.cid) (Hid.driverExecFinishedContHid n 7 s₁) := by
      have hbusyFree : LinkFree (isAnswerFrame m.cid) (taskBusy t.busyOk s) := hfree.taskBusy
      exact (hbusyFree.congr hlink).congr ⟨rfl, rfl, rfl, rfl, rfl⟩
    have hsent₁ : (Hid.driverExecFinishedContHid n 7 s₁).sent = s.sent ++ new := by
      exact hsent.trans hnew
    have hstart : SendInv (isAnswerFrame m.cid) m 0 (s.sent ++ new)
        (Hid.driverExecFinishedContHid n 7 s₁) :=
      ⟨[], hsent₁.trans (append_nil _).symm, .ready 0 hsending hfree₁,
        fun k g hg ↦ absurd hg (by simp)⟩
    have hinv : SendInv (isAnswerFrame m.cid) m 0 (s.sent ++ new) (hidRun env (hidTask t s) es) := by
      rw [htask]
      exact sendInv_run (sendInv_taskWrite hstart hcounts) hcmd' hcounts (by simpa using hes)
    obtain ⟨new', hnew', hstate, hfrag⟩ := hinv
    refine ⟨new ++ new', by rw [hnew', append_assoc], ?_, fun hdone ↦ ?_⟩
    · rw [filter_append, hskip, nil_append]
      exact hfrag
    · obtain ⟨hend, hpos⟩ := hstate.at_end hdone
      rw [filter_append, hskip, nil_append]
      exact reassemble_frames hcmd' (by omega) hfrag hpos hend

theorem slice_of_slice_zero {a b : Bytes} {l off len : ℕ} (h : slice a 0 l = slice b 0 l)
    (hle : off + len ≤ l) : slice a off len = slice b off len := by
  refine ext_getElem? fun i ↦ ?_
  have hget : (slice a 0 l)[off + i]? = (slice b 0 l)[off + i]? := by rw [h]
  rw [getElem?_slice, getElem?_slice, Nat.zero_add] at hget
  rw [getElem?_slice, getElem?_slice]
  split_ifs with hi
  · rwa [if_pos (by omega), if_pos (by omega)] at hget
  · rfl

/-- The response is what the worker has written. -/
theorem answerMessage_congr {cmd : UInt8} {cancelled active : Bool} {l : ℕ} {a b : TxBuffer}
    (h : slice a.1 0 l = slice b.1 0 l) (hanswer : HasAnswer cancelled active size sw l) :
    answerMessage c cmd cancelled size a = answerMessage c cmd cancelled size b := by
  rw [answerMessage, answerMessage]
  split_ifs with hcancelled
  · rfl
  · obtain ⟨-, -, hroom⟩ := hanswer.resolve_left hcancelled
    rw [slice_of_slice_zero h (by omega)]

/-- **Busy isolation.** A frame `f` has completed a request that is for the worker, and then anything
happens, if the request has the flag, and anything but frames if it is a `CTAPHID_MSG`. The request is
as it was, and so is the response, but for what the worker has written; the request has been cancelled
just if there has been a `CTAPHID_CANCEL` without data of its channel; all that has been sent are
keepalives of its channel and busy replies to frames that have come in. When the worker has finished,
its response, or that to a cancelled request, is sent on the channel and with the command of the
request. -/
theorem hid_busy_isolation (env : HidEnv) {es₀ es : List HidEvent} {s₀ s s' : Hid}
    (hs₀ : hidRun env hidPowerUp es₀ = s₀)
    (hstart : 0 < (driverProcessUsbPacketHid env now button ok { s₀ with rx := f }).2)
    (hs : hidStep env s₀ (.frame now button ok f) = s) (hotp : s.packet.lastCmd ≠ ctaphidOtp)
    (hes : ∀ e ∈ es, BusyEvent s.cborActive e) (hrun : hidRun env s es = s') :
    (∃ payload, s.handed = s₀.handed ++ [⟨f.cid, s.packet.lastCmd, payload⟩] ∧
        s'.packet = s.packet ∧ s'.ctapReq.cid = f.cid ∧
        (s.cborActive = true → s'.cborRequest = (s.packet.lastCmd, payload)) ∧
        (s.cborActive = false → s'.rx = s.rx)) ∧
      s'.cancelPending = es.any (cancels f.cid s.packet.lastCmd) ∧
      slice s'.tx.1 0 s.responseEnd = slice (es.foldl workerWrite s.tx).1 0 s.responseEnd ∧
      (∃ new, s'.sent = s.sent ++ new ∧ ∀ g ∈ new, g.isKeepalive = true ∧ g.cid = f.cid ∨
        s.busyResponse = some g ∨ IsBusyReply es g) ∧
      ∀ t size sw, t.status = .finished size sw →
        HasAnswer s'.cancelPending s.cborActive size sw s.responseEnd →
        Answered env (answerMessage f.cid s.packet.lastCmd (es.any (cancels f.cid s.packet.lastCmd))
          size (es.foldl workerWrite s.tx)) s' (hidTask t s') := by
  have hstep : hidStep env s₀ (.frame now button ok f) =
      (driverProcessUsbPacketHid env now button ok { s₀ with rx := f }).1 :=
    if_neg (by omega)
  have hsound : HidSound s₀ := hs₀ ▸ hidSound_run es₀
  have hinv : PacketInv (packetTrace env hidPowerUp es₀) s₀.packet := hs₀ ▸ packetInv_powerUp es₀
  obtain ⟨hbusy, hcmd, hpending, -, payload, hhanded, hrequest⟩ : Started f s₀ s := by
    rw [← hs, hstep] at hotp ⊢
    exact hsound.started hinv hotp hstart
  have hrunTo : BusyRun f.cid s es s' := hrun ▸ hbusy.run hes
  have hbusy' : Busy f.cid s' := hrunTo.toBusy hbusy hes
  have hsound' : HidSound s' := by
    have hall : hidRun env hidPowerUp (es₀ ++ .frame now button ok f :: es) = s' := by
      have happend : hidRun env hidPowerUp (es₀ ++ .frame now button ok f :: es) =
          hidRun env (hidStep env (hidRun env hidPowerUp es₀) (.frame now button ok f)) es := by
        rw [hidRun, foldl_append]
        rfl
      rw [happend, hs₀, hs, hrun]
    exact hall ▸ hidSound_run _
  have hcancelled := hrunTo.pending_eq
  rw [hpending, Bool.false_or] at hcancelled
  refine ⟨⟨payload, hhanded, hrunTo.kept.packet_eq, hbusy'.cid_eq, fun hactive ↦
    hrunTo.kept.request_eq.trans (hrequest hactive), hrunTo.rx_eq⟩, hcancelled, hrunTo.response,
    hrunTo.sent, fun t size sw ht hanswer ↦ ?_⟩
  have hcmd' : isMessageCommand s'.packet.lastCmd := hrunTo.kept.packet_eq ▸ hcmd
  have hanswer' : HasAnswer s'.cancelPending s'.cborActive size sw s'.responseEnd := by
    rw [hrunTo.kept.active_eq, hrunTo.kept.responseEnd_eq]
    exact hanswer
  have hdone : Answered env _ s' (hidTask t s') := hbusy'.answered hsound' hcmd' ht hanswer'
  rwa [answerMessage_congr hrunTo.response hanswer, hcancelled, hrunTo.kept.packet_eq] at hdone

/-- A `CTAPHID_CBOR` of one byte. -/
def cborFrame : CtapFrame :=
  .padded 1 ctaphidCbor (beBytes 2 1 ++ [4])

/-- While the worker executes it, another channel and its own come with frames. -/
def busyEvents : List HidEvent :=
  [.complete, .frame 1001 false true (initFrame 2 ctaphidPing 5), .worker 8 [0xa0], .task idleTick,
    .frame 1002 false true (initFrame 2 ctaphidCancel 0), .complete]

/-- A `CTAPHID_GETINFO`, and a frame of another channel, which gets a busy reply. -/
theorem hid_busy_isolation_cbor :
    (hidRun workerEnv hidPowerUp (.frame 1000 false true cborFrame :: busyEvents)).cborRequest =
        (ctaphidCbor, [4]) ∧
      (hidRun workerEnv hidPowerUp (.frame 1000 false true cborFrame :: busyEvents)).sent.map
        (fun g ↦ (g.cid, g.type)) = [(1, ctaphidKeepalive), (2, ctaphidError)] ∧
      Sending ⟨1, ctaphidCbor, [0, 0xa0]⟩ 0 0 (hidTask { idleTick with status := .finished 2 0 }
        (hidRun workerEnv hidPowerUp (.frame 1000 false true cborFrame :: busyEvents))) := by
  have hes : ∀ e ∈ busyEvents,
      BusyEvent (hidStep workerEnv hidPowerUp (.frame 1000 false true cborFrame)).cborActive e := by
    have hactive : (hidStep workerEnv hidPowerUp
        (.frame 1000 false true cborFrame)).cborActive = true := by decide +kernel
    intro e he
    simp only [busyEvents, mem_cons, not_mem_nil, or_false] at he
    obtain rfl | rfl | rfl | rfl | rfl | rfl := he
    · exact .complete
    · exact .frame _ _ _ _ rfl
    · exact .worker _ _
    · exact .task _ fun _ _ ↦ CardStatus.noConfusion
    · exact .frame _ _ _ _ rfl
    · exact .complete
  have hs₀ : hidRun workerEnv hidPowerUp [] = hidPowerUp := rfl
  obtain ⟨-, -, -, -, hanswered⟩ :=
    hid_busy_isolation workerEnv hs₀ (by decide +kernel) rfl (by decide +kernel) hes rfl
  refine ⟨by decide +kernel, by decide +kernel, ?_⟩
  have hdone := hanswered { idleTick with status := .finished 2 0 } 2 0 rfl
    (.inr ⟨by decide, fun _ ↦ rfl, by decide +kernel⟩)
  have hmessage : answerMessage cborFrame.cid
      (hidStep workerEnv hidPowerUp (.frame 1000 false true cborFrame)).packet.lastCmd
      (busyEvents.any (cancels cborFrame.cid
        (hidStep workerEnv hidPowerUp (.frame 1000 false true cborFrame)).packet.lastCmd)) 2
      (busyEvents.foldl workerWrite
        (hidStep workerEnv hidPowerUp (.frame 1000 false true cborFrame)).tx) =
        ⟨1, ctaphidCbor, [0, 0xa0]⟩ := by decide +kernel
  have hcons : hidRun workerEnv hidPowerUp (.frame 1000 false true cborFrame :: busyEvents) =
      hidRun workerEnv (hidStep workerEnv hidPowerUp (.frame 1000 false true cborFrame)) busyEvents :=
    foldl_cons ..
  rw [hcons]
  exact hdone.sending

/-- A `CTAPHID_MSG` of channel 1 is with the worker when channel 2 sends a `CTAPHID_PING`. -/
def interruptedMsg : List HidEvent :=
  [.frame 1000 false true (.padded 1 ctaphidMsg (beBytes 2 5 ++ [0, 3, 0, 0, 0])),
    .frame 1001 false true (initFrame 2 ctaphidPing 5), .complete, .worker 7 [0x90, 0],
    .task { idleTick with status := .finished 2 0x9000 }, .complete]

/-- What the worker has finished for channel 1 is sent as a response of channel 2. -/
theorem hid_msg_response_misdirected :
    (hidRun workerEnv hidPowerUp interruptedMsg).handed.map (fun m ↦ (m.cid, m.cmd)) =
        [(1, ctaphidMsg), (2, ctaphidPing)] ∧
      (hidRun workerEnv hidPowerUp interruptedMsg).sent.map
        (fun g ↦ (g.cid, g.type, g.body.take 4)) =
          [(2, ctaphidPing, [0, 5, 0, 0]), (2, ctaphidPing, [0, 2, 0x90, 0])] := by
  decide +kernel

end PicoAll
