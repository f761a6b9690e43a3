import PicoAll.Transport.HidMessage

/-!
# Reassembly

One packet buffer puts the messages of all channels together. A run of the driver does to it what its
`packetTrace` says: an initialization frame that is accepted starts a packet, a continuation frame of
the same channel goes on with it, and a timeout ends it; every other frame leaves it as it is.

A message is handled when its frames have come in with nothing between them that does anything to
the packet, and it is the message that they are put together to (`hid_message_reassembled`). Some
commands are handled with their initialization frame, whatever length that announces. And a new
initialization frame takes the place of an old packet before it is known whether its command is one
(`hid_unknown_command_drops_packet`).
-/

namespace PicoAll

open BigEndian ByteBuffer Fragments List

/-- What happens to the packet. -/
inductive PacketStep where
  /-- Nothing. -/
  | keep
  /-- A frame starts it. -/
  | start (f : CtapFrame)
  /-- A frame goes on with it. -/
  | next (f : CtapFrame)
  /-- It takes too long. -/
  | timeout
  deriving DecidableEq

/-- No frame has come in for too long. -/
def Hid.timedOut (now : UInt32) (s : Hid) : Bool :=
  0 < s.lastPacketTime && s.lastPacketTime + 500 < now

/-- The driver as it gets to a frame that is not held back. -/
def Hid.incoming (now : UInt32) (f : CtapFrame) (s : Hid) : Hid :=
  { driverInitHid { s with rx := f } with lastPacketTime := now }

/-- What a frame does to the packet. -/
def frameStep (now : UInt32) (f : CtapFrame) (s : Hid) : PacketStep :=
  if f.isCancel ∨ s.cborActive ∨ (¬ f.isInit ∧ s.packet.len = 0) then
    .keep
  else
    match hidAccept now (s.incoming now f) with
    | .error _ => .keep
    | .ok _ =>
      if f.isInit then .start f
      else if s.packet.lastReq.cid = f.cid then .next f
      else .keep

/-- What the clock does to the packet. -/
def timeoutSteps (now : UInt32) (s : Hid) : List PacketStep :=
  if s.timedOut now then [.timeout] else []

/-- What an event does to the packet. -/
def packetSteps (env : HidEnv) (s : Hid) : HidEvent → List PacketStep
  | .frame now button ok f =>
    let result := driverProcessUsbPacketHid env now button ok { s with rx := f }
    frameStep now f s :: if result.2 = 0 then timeoutSteps now result.1 else []
  | .task t => timeoutSteps t.now s
  | _ => []

/-- What a run does to the packet. -/
def packetTrace (env : HidEnv) (s : Hid) : List HidEvent → List PacketStep
  | [] => []
  | e :: es => packetSteps env s e ++ packetTrace env (hidStep env s e) es

variable (trace : List PacketStep)

/-- The last frames that did something to the packet are those of a packet. -/
def FramesEnd (i : CtapFrame) (conts : List CtapFrame) : Prop :=
  ∃ before after, trace = before ++ .start i :: after ∧
    after.filter (· ≠ .keep) = conts.map .next

/-- The commands that are handled with their initialization frame. -/
def firstFrameCommands : List UInt8 :=
  [ctaphidInit, ctaphidUuid, ctaphidVersion, ctaphidAdmin]

/-- A message that is handled after some frames. -/
def HandledAfter (m : HidMessage) : Prop :=
  ∃ i conts, FramesEnd trace i conts ∧
    (reassemble (i :: conts) = some m ∨
      conts = [] ∧ m.cmd ∈ firstFrameCommands ∧ m = ⟨i.cid, i.type, i.initData.take i.msgLen⟩)

/-! ### Traces -/

section Trace

variable {trace : List PacketStep} {i f : CtapFrame} {conts : List CtapFrame}

theorem FramesEnd.start (trace : List PacketStep) (f : CtapFrame) :
    FramesEnd (trace ++ [.start f]) f [] :=
  ⟨trace, [], rfl, rfl⟩

theorem FramesEnd.keep (h : FramesEnd trace i conts) : FramesEnd (trace ++ [.keep]) i conts := by
  obtain ⟨before, after, rfl, hafter⟩ := h
  refine ⟨before, after ++ [.keep], by simp, ?_⟩
  rw [filter_append, hafter]
  exact append_nil _

theorem FramesEnd.next (h : FramesEnd trace i conts) (f : CtapFrame) :
    FramesEnd (trace ++ [.next f]) i (conts ++ [f]) := by
  obtain ⟨before, after, rfl, hafter⟩ := h
  refine ⟨before, after ++ [.next f], by simp, ?_⟩
  rw [filter_append, hafter, map_append]
  rfl

end Trace

/-! ### What leaves the packet as it is -/

/-- The packet is the same, and no message has been handled. -/
structure PacketKept (s s' : Hid) : Prop where
  packet_eq : s'.packet = s.packet
  handed_eq : s'.handed = s.handed

variable {env : HidEnv} {s s' s'' : Hid} {f : CtapFrame} {now : UInt32} {button ok : Bool}

theorem PacketKept.refl (s : Hid) : PacketKept s s :=
  ⟨rfl, rfl⟩

theorem PacketKept.trans (h : PacketKept s s') (h' : PacketKept s' s'') : PacketKept s s'' :=
  ⟨h'.packet_eq.trans h.packet_eq, h'.handed_eq.trans h.handed_eq⟩

theorem driverWriteHid_kept : PacketKept s (driverWriteHid ok f s) := by
  unfold driverWriteHid
  split_ifs <;> exact ⟨rfl, rfl⟩

theorem ctapError_kept {error : UInt8} : PacketKept s (ctapError error s) :=
  ⟨rfl, rfl⟩

theorem sendKeepalive_kept : PacketKept s (sendKeepalive now button ok s) := by
  unfold sendKeepalive
  split_ifs
  · exact .refl s
  · exact .refl s
  · exact ⟨driverWriteHid_kept.packet_eq, driverWriteHid_kept.handed_eq⟩

variable {size : ℕ}

theorem driverExecFinishedContHid_kept {offset : ℕ} :
    PacketKept s (Hid.driverExecFinishedContHid size offset s) := by
  unfold Hid.driverExecFinishedContHid
  exact ⟨rfl, rfl⟩

theorem execFinishedSend_kept {sw : UInt16} : PacketKept s (execFinishedSend size sw s) := by
  unfold execFinishedSend
  split_ifs <;> exact ⟨rfl, rfl⟩

theorem driverExecFinishedHid_kept {sw : UInt16} :
    PacketKept s (driverExecFinishedHid size sw s) := by
  unfold driverExecFinishedHid
  split_ifs
  · exact ⟨execFinishedSend_kept.packet_eq, execFinishedSend_kept.handed_eq⟩
  · exact ⟨execFinishedSend_kept.packet_eq, execFinishedSend_kept.handed_eq⟩

theorem apduAnswered_kept {answer : ApduAnswer} : PacketKept s (apduAnswered answer s) := by
  unfold apduAnswered
  split
  · exact ⟨rfl, rfl⟩
  · exact ⟨driverExecFinishedContHid_kept.packet_eq, driverExecFinishedContHid_kept.handed_eq⟩

theorem hidCancel_kept : PacketKept s (hidCancel f s) := by
  unfold hidCancel
  split_ifs <;> exact ⟨rfl, rfl⟩

theorem hidBusy_kept : PacketKept s (hidBusy f s) := by
  unfold hidBusy
  split_ifs <;> exact ⟨rfl, rfl⟩

theorem taskBusy_kept : PacketKept s (taskBusy ok s) := by
  unfold taskBusy
  split
  · exact .refl s
  · split_ifs
    · exact .refl s
    · exact ⟨driverWriteHid_kept.packet_eq, driverWriteHid_kept.handed_eq⟩
    · exact ⟨driverWriteHid_kept.packet_eq, driverWriteHid_kept.handed_eq⟩

theorem taskStatus_kept {t : HidTick} : PacketKept s (taskStatus t s) := by
  unfold taskStatus
  cases t.status with
  | none => exact .refl s
  | blocked => exact sendKeepalive_kept
  | finished size sw => exact driverExecFinishedHid_kept

theorem taskWrite_kept : PacketKept s (taskWrite ok s) := by
  unfold taskWrite
  split_ifs
  · exact driverWriteHid_kept
  · exact .refl s

theorem hidReportSent_kept : PacketKept s (hidReportSent f s) := by
  have hwritten : PacketKept s (hidWritten f s) := by
    unfold hidWritten
    split_ifs <;> exact ⟨rfl, rfl⟩
  have hadvance : ∀ s, PacketKept s (hidAdvance f s) := fun s ↦ by
    unfold hidAdvance
    split_ifs <;> exact ⟨rfl, rfl⟩
  have hsent := hwritten.trans (hadvance (hidWritten f s))
  unfold hidReportSent
  dsimp only
  split_ifs
  · exact ⟨hsent.packet_eq, hsent.handed_eq⟩
  · exact hsent

theorem tudHidReportCompleteCb_kept : PacketKept s (tudHidReportCompleteCb s) := by
  unfold tudHidReportCompleteCb
  split
  · exact .refl s
  · split_ifs
    · exact ⟨rfl, rfl⟩
    · exact ⟨hidReportSent_kept.packet_eq, hidReportSent_kept.handed_eq⟩

/-! ### Frames -/

theorem CtapFrame.isInit_of_type {c : UInt8} (h : f.type = c) (hc : (c &&& 0x80 == 0x80) = true) :
    f.isInit = true := by
  rw [CtapFrame.isInit, h, hc]

/-- A frame that is accepted starts a packet, or goes on with it, or it is of another channel. -/
theorem hidAccept_ok (h : hidAccept now s = .ok s') :
    (s.rx.isInit = true ∧ s' = { s with packet := .start now s.rx } ∧
      (0 < s.packet.len → ¬ now < s.packet.lastCmdTime + 100 ∨ s.rx.type = ctaphidInit)) ∨
    (s.rx.isInit = false ∧ s.packet.lastSeq = s.rx.type ∧
      (s.packet.lastReq.cid = s.rx.cid ∧ s' = { s with packet := s.packet.append s.rx } ∨
        s.packet.lastReq.cid ≠ s.rx.cid ∧ s' = s)) := by
  unfold hidAccept at h
  dsimp only at h
  split_ifs at h with hchannel hlock hinit hlen hbusy hseq hcid htime
  · refine .inl ⟨hinit, (Except.ok.inj h).symm, fun hpos ↦ ?_⟩
    exact or_iff_not_imp_left.mpr fun hnow ↦ not_not.mp fun htype ↦
      hbusy ⟨hpos, not_not.mp hnow, htype⟩
  · exact .inr ⟨by simpa using hinit, not_not.mp hseq, .inl ⟨hcid, (Except.ok.inj h).symm⟩⟩
  · exact .inr ⟨by simpa using hinit, not_not.mp hseq, .inr ⟨hcid, (Except.ok.inj h).symm⟩⟩

/-- A command whose message is handled when it is complete. -/
def isMessageCommand (c : UInt8) : Prop :=
  c = ctaphidPing ∨ c = ctaphidSync ∨ c = ctaphidMsg ∨ c = ctaphidOtp ∨ c = ctaphidCbor ∨
    c ≥ ctaphidVendorFirst

/-- The packet is done with, and one message may have been handled. -/
inductive PacketFinished (P : HidMessage → Prop) (s s' : Hid) : Prop where
  | dropped (hlen : s'.packet.len = 0) (hhanded : s'.handed = s.handed)
  | handed (m : HidMessage) (hm : P m) (hlen : s'.packet.len = 0)
      (hhanded : s'.handed = s.handed ++ [m]) (htime : s'.lastPacketTime = 0)

/-- What is done with a frame: either the packet stays, or it is done with. -/
inductive Dispatched (P : HidMessage → Prop) (s s' : Hid) : Prop where
  | kept (h : PacketKept s s')
  | finished (h : PacketFinished P s s')

section Dispatch

variable {P : HidMessage → Prop} {m : HidMessage} {g : CtapFrame}

theorem sendKeepalive_lastPacketTime :
    (sendKeepalive now button ok s).lastPacketTime = s.lastPacketTime := by
  unfold sendKeepalive
  split_ifs
  · rfl
  · rfl
  · unfold writeKeepalive driverWriteHid
    split_ifs <;> rfl

theorem PacketFinished.replyNow (hm : P m) (hhanded : s'.handed = s.handed ++ [m]) :
    PacketFinished P s (replyNow ok g s') :=
  .handed m hm rfl (driverWriteHid_kept.handed_eq.trans hhanded) rfl

theorem Dispatched.error {error : UInt8} : Dispatched P s (ctapError error s) :=
  .kept ctapError_kept

theorem hidInit_finished (hm : P ⟨s.rx.cid, ctaphidInit, s.rx.initData.take s.rx.msgLen⟩) :
    PacketFinished P s (hidInit env ok s) :=
  .replyNow hm rfl

theorem hidWink_dispatched (hm : s.rx.msgLen = 0 → P ⟨s.rx.cid, ctaphidWink, []⟩) :
    Dispatched P s (hidWink ok s) := by
  unfold hidWink
  split_ifs with hlen
  · exact .error
  · exact .finished (.replyNow (hm (not_not.mp hlen)) rfl)

theorem hidPing_finished (hm : P ⟨s.rx.cid, s.packet.lastCmd, s.payload⟩) :
    PacketFinished P s (hidPing ok s) := by
  unfold hidPing
  split_ifs
  · exact .handed _ hm rfl driverExecFinishedHid_kept.handed_eq rfl
  · exact .replyNow hm rfl

theorem hidLock_dispatched
    (hm : s.rx.msgLen = 1 → P ⟨s.rx.cid, ctaphidLock, [s.rx.initData.getD 0 0]⟩) :
    Dispatched P s (hidLock now ok s) := by
  unfold hidLock
  dsimp only
  split_ifs with hlen
  · exact .error
  · exact .error
  · exact .error
  all_goals exact .finished (.replyNow (hm (not_not.mp hlen)) rfl)

theorem hidMsg_finished (hm : P ⟨s.rx.cid, s.packet.lastCmd, s.payload⟩) :
    PacketFinished P s (hidMsg env s).1 := by
  unfold hidMsg
  dsimp only
  split_ifs
  · exact .handed _ hm rfl apduAnswered_kept.handed_eq rfl
  · exact .handed _ hm rfl apduAnswered_kept.handed_eq rfl

theorem hidCbor_finished (hm : P ⟨s.rx.cid, s.packet.lastCmd, s.payload⟩) :
    PacketFinished P s (hidCbor now button ok s).1 := by
  unfold hidCbor
  split_ifs
  · exact .dropped rfl rfl
  · generalize hs' : ({ (cborProcess { s with threadType := 2, cancelButton := false }).finishPacket with
        lastKeepaliveTime := 0 } : Hid) = s'
    have hkept : PacketKept s' (sendKeepalive now button ok s') := sendKeepalive_kept
    subst hs'
    exact .handed _ hm (congrArg (·.len) hkept.packet_eq) hkept.handed_eq
      sendKeepalive_lastPacketTime

theorem complete_start : (MsgPacket.start now f).complete = false := by
  unfold MsgPacket.complete MsgPacket.start
  dsimp only
  split_ifs with hlen
  · rw [length_initData]
    exact decide_eq_false fun h ↦ by omega
  · rfl

section

variable (hpacket : s.packet = .start now s.rx)
include hpacket

/-- A message that is complete with its initialization frame has its data in that. -/
theorem messageReady_start :
    s.messageReady = true ↔ s.rx.msgLen ≤ 57 := by
  unfold Hid.messageReady
  rw [hpacket, complete_start, Bool.or_false, decide_eq_true_iff, MsgPacket.start]
  dsimp only
  split_ifs <;> omega

theorem payload_start :
    s.payload = s.rx.initData.take s.rx.msgLen := by
  rw [Hid.payload, hpacket, complete_start, if_neg Bool.false_ne_true]

/-- A command of an initialization frame is handled if it has all of its message, or needs none. -/
theorem hidDispatch_start :
    Dispatched (fun m ↦ m = ⟨s.rx.cid, s.rx.type, s.rx.initData.take s.rx.msgLen⟩ ∧
      (s.rx.msgLen ≤ 57 ∨ m.cmd ∈ firstFrameCommands)) s (hidDispatch env now button ok s).1 := by
  have hcmd : s.packet.lastCmd = s.rx.type := by rw [hpacket]; rfl
  have hready := messageReady_start hpacket
  have hmessage : s.messageReady = true →
      (⟨s.rx.cid, s.packet.lastCmd, s.payload⟩ : HidMessage) =
          ⟨s.rx.cid, s.rx.type, s.rx.initData.take s.rx.msgLen⟩ ∧
        (s.rx.msgLen ≤ 57 ∨ s.packet.lastCmd ∈ firstFrameCommands) :=
    fun h ↦ ⟨by rw [hcmd, payload_start hpacket], .inl (hready.mp h)⟩
  unfold hidDispatch
  split_ifs with h₁ h₂ h₃ h₄ h₅ h₆ h₇ h₈ h₉
  · exact .finished (hidInit_finished ⟨by rw [h₁], .inr (by simp [firstFrameCommands])⟩)
  · exact hidWink_dispatched fun hlen ↦ ⟨by rw [h₂, hlen, take_zero], .inl (by omega)⟩
  · exact .finished (hidPing_finished (hmessage h₃.2))
  · refine hidLock_dispatched fun hlen ↦ ⟨?_, .inl (by omega)⟩
    have hfirst : s.rx.initData.take 1 = [s.rx.initData.getD 0 0] := by
      obtain ⟨a, l, hl⟩ := exists_cons_of_length_pos
        (show 0 < s.rx.initData.length by rw [length_initData]; omega)
      rw [hl]
      rfl
    rw [h₄, hlen, hfirst]
  · exact .finished (.replyNow ⟨by rw [h₅], .inr (by simp [firstFrameCommands])⟩ rfl)
  · exact .finished (.replyNow ⟨by rw [h₆], .inr (by simp [firstFrameCommands])⟩ rfl)
  · exact .finished (.replyNow ⟨by rw [h₇], .inr (by simp [firstFrameCommands])⟩ rfl)
  · exact .finished (hidMsg_finished (hmessage h₈.2))
  · exact .finished (hidCbor_finished (hmessage h₉.2))
  · exact .error
  · exact .kept (.refl s)

end

/-- A continuation frame is not one of a command that is handled with its initialization frame. -/
theorem type_ne_of_not_isInit {c : UInt8} (hinit : f.isInit = false)
    (hc : (c &&& 0x80 == 0x80) = true) : f.type ≠ c := fun h ↦ by
  rw [CtapFrame.isInit_of_type h hc] at hinit
  cases hinit

/-- The last frame of a message. -/
theorem hidDispatch_complete (hinit : s.rx.isInit = false) (hcomplete : s.packet.complete = true)
    (hcmd : isMessageCommand s.packet.lastCmd) :
    PacketFinished (· = ⟨s.rx.cid, s.packet.lastCmd, s.packet.data⟩) s
      (hidDispatch env now button ok s).1 := by
  have hready : s.messageReady = true := by
    rw [Hid.messageReady, hcomplete, Bool.or_true]
  have hmessage : (⟨s.rx.cid, s.packet.lastCmd, s.payload⟩ : HidMessage) =
      ⟨s.rx.cid, s.packet.lastCmd, s.packet.data⟩ := by
    rw [Hid.payload, if_pos hcomplete]
  unfold hidDispatch
  split_ifs with h₁ h₂ h₃ h₄ h₅ h₆ h₇ h₈ h₉ h₁₀
  · exact absurd h₁ (type_ne_of_not_isInit hinit (by decide))
  · exact absurd h₂ (type_ne_of_not_isInit hinit (by decide))
  · exact hidPing_finished hmessage
  · exact absurd h₄ (type_ne_of_not_isInit hinit (by decide))
  · exact absurd h₅ (type_ne_of_not_isInit hinit (by decide))
  · exact absurd h₆ (type_ne_of_not_isInit hinit (by decide))
  · exact absurd h₇ (type_ne_of_not_isInit hinit (by decide))
  · exact hidMsg_finished hmessage
  · exact hidCbor_finished hmessage
  -- no command is left
  all_goals
    obtain hc | hc | hc | hc | hc | hc := hcmd
    · exact absurd ⟨.inl hc, hready⟩ h₃
    · exact absurd ⟨.inr hc, hready⟩ h₃
    · exact absurd ⟨.inl hc, hready⟩ h₈
    · exact absurd ⟨.inr hc, hready⟩ h₈
    · exact absurd ⟨.inl hc, hready⟩ h₉
    · exact absurd ⟨.inr hc, hready⟩ h₉

/-- A continuation frame that is not the last one of a message. -/
theorem hidDispatch_incomplete (hinit : s.rx.isInit = false) (hlen : 0 < s.packet.len)
    (hnot : ¬ (s.packet.complete = true ∧ isMessageCommand s.packet.lastCmd)) :
    hidDispatch env now button ok s = (s, 0) := by
  have hready : s.messageReady = true → ¬ isMessageCommand s.packet.lastCmd := fun h hcmd ↦ by
    rw [Hid.messageReady, decide_eq_false (by omega), Bool.false_or] at h
    exact hnot ⟨h, hcmd⟩
  unfold hidDispatch
  rw [if_neg (type_ne_of_not_isInit hinit (by decide)),
    if_neg (type_ne_of_not_isInit hinit (by decide)),
    if_neg fun h ↦ hready h.2 (h.1.elim .inl fun hc ↦ .inr (.inl hc)),
    if_neg (type_ne_of_not_isInit hinit (by decide)),
    if_neg (type_ne_of_not_isInit hinit (by decide)),
    if_neg (type_ne_of_not_isInit hinit (by decide)),
    if_neg (type_ne_of_not_isInit hinit (by decide)),
    if_neg fun h ↦ hready h.2 (.inr (.inr (h.1.elim .inl fun hc ↦ .inr (.inl hc)))),
    if_neg fun h ↦ hready h.2 (.inr (.inr (.inr (.inr h.1)))), if_neg (by omega)]

end Dispatch

/-! ### The packet in a run -/

/-- The packet is that of some frames. -/
structure Assembling (p : MsgPacket) (i : CtapFrame) (conts : List CtapFrame) : Prop where
  isInit : i.isInit = true
  cmd_eq : i.type = p.lastCmd
  cid_eq : i.cid = p.lastReq.cid
  conts_cid : ∀ f ∈ conts, f.cid = i.cid
  conts_type : conts.map (·.type.toNat) = List.range conts.length
  seq_eq : p.lastSeq.toNat = conts.length
  len_eq : p.len = i.msgLen
  data_eq : p.data = (framesData i conts).take p.len

/-- What is known of the packet after a trace. -/
def PacketInv (p : MsgPacket) : Prop :=
  0 < p.len → (∃ i conts, FramesEnd trace i conts ∧ Assembling p i conts) ∧
    ¬ (p.complete = true ∧ isMessageCommand p.lastCmd)

/-- The sequence number of a continuation frame has only seven bits. -/
theorem CtapFrame.type_lt_of_not_isInit (hinit : f.isInit = false) : f.type.toNat < 128 := by
  have hbyte : ∀ n : Fin 256, (UInt8.ofNat n &&& 0x80 == 0x80) = false → n.1 < 128 := by
    decide +kernel
  refine hbyte ⟨f.type.toNat, f.type.toNat_lt⟩ ?_
  rw [UInt8.ofNat_toNat]
  exact hinit

section Run

variable {p : MsgPacket} {i : CtapFrame} {conts : List CtapFrame} {trace : List PacketStep}
  {m : HidMessage}

theorem PacketInv.of_len_eq_zero (h : p.len = 0) : PacketInv trace p := fun hpos ↦
  absurd hpos (by omega)

theorem Assembling.start (hinit : f.isInit = true) (hlen : 0 < (MsgPacket.start now f).len) :
    Assembling (.start now f) f [] := by
  have hlong : f.msgLen > 57 := by
    by_contra hshort
    rw [MsgPacket.start] at hlen
    dsimp only at hlen
    rw [if_neg hshort] at hlen
    omega
  refine ⟨hinit, rfl, rfl, by simp, rfl, rfl, ?_, ?_⟩
  · rw [MsgPacket.start]
    exact if_pos hlong
  · rw [MsgPacket.start]
    dsimp only
    rw [if_pos hlong, if_pos hlong, framesData, flatMap_nil, append_nil,
      take_of_length_le (by rw [length_initData]; omega)]

/-- The next frame of a packet. -/
theorem Assembling.append (h : Assembling p i conts) (hinit : f.isInit = false)
    (hseq : p.lastSeq = f.type) (hcid : p.lastReq.cid = f.cid) :
    Assembling (p.append f) i (conts ++ [f]) := by
  have htype : f.type.toNat = conts.length := by rw [← hseq, h.seq_eq]
  have hlt := CtapFrame.type_lt_of_not_isInit hinit
  refine ⟨h.isInit, h.cmd_eq, h.cid_eq.trans hcid, fun g hg ↦ ?_, ?_, ?_, h.len_eq, ?_⟩
  · rcases mem_append.mp hg with hg | hg
    · exact h.conts_cid g hg
    · rw [mem_singleton.mp hg, ← hcid, h.cid_eq]
  · rw [map_append, h.conts_type, length_append, length_singleton, range_succ, map_singleton, htype]
  · show (p.lastSeq + 1).toNat = (conts ++ [f]).length
    rw [length_append, length_singleton, UInt8.toNat_add, hseq, htype]
    show (conts.length + 1) % 256 = conts.length + 1
    omega
  · show p.data ++ f.body.take (p.len - p.data.length) = (framesData i (conts ++ [f])).take p.len
    rw [framesData_concat, ← take_append_rest, ← h.data_eq]

/-- A packet that is complete has the message that its frames are put together to. -/
theorem Assembling.reassemble_eq (h : Assembling p i conts) (hcomplete : p.complete = true) :
    reassemble (i :: conts) = some ⟨p.lastReq.cid, p.lastCmd, p.data⟩ := by
  obtain ⟨hlen, -⟩ := of_decide_eq_true hcomplete
  have hdata := congrArg List.length h.data_eq
  rw [length_take] at hdata
  refine reassemble_eq_some.mpr ⟨⟨h.isInit, h.conts_cid, h.conts_type, ?_⟩, ?_⟩
  · rw [← h.len_eq]
    omega
  · rw [h.cid_eq, h.cmd_eq, ← h.len_eq, h.data_eq]

theorem PacketInv.keep (h : PacketInv trace p) : PacketInv (trace ++ [.keep]) p := fun hpos ↦ by
  obtain ⟨⟨i, conts, hend, hasm⟩, hnot⟩ := h hpos
  exact ⟨⟨i, conts, hend.keep, hasm⟩, hnot⟩

/-- A message of one frame, or of a command that needs no more. -/
theorem HandledAfter.start (hinit : f.isInit = true)
    (h : f.msgLen ≤ 57 ∨ f.type ∈ firstFrameCommands) :
    HandledAfter (trace ++ [.start f]) ⟨f.cid, f.type, f.initData.take f.msgLen⟩ := by
  refine ⟨f, [], .start trace f, ?_⟩
  rcases h with hlen | hcmd
  · refine .inl (reassemble_eq_some.mpr ⟨⟨hinit, by simp, rfl, ?_⟩, ?_⟩)
    · rw [length_framesData]
      exact hlen
    · rw [framesData, flatMap_nil, append_nil]
  · exact .inr ⟨rfl, hcmd, rfl⟩

/-- What an event does to the packet and to the messages. -/
structure TraceStep (trace : List PacketStep) (s s' : Hid) : Prop where
  inv : PacketInv trace s'.packet
  handed : s'.handed = s.handed ∨
    ∃ m, s'.handed = s.handed ++ [m] ∧ HandledAfter trace m ∧ s'.lastPacketTime = 0

theorem TraceStep.keep (h : PacketInv trace s.packet) (hkept : PacketKept s s') :
    TraceStep (trace ++ [.keep]) s s' :=
  ⟨hkept.packet_eq ▸ h.keep, .inl hkept.handed_eq⟩

theorem TraceStep.finished {P : HidMessage → Prop} (h : PacketFinished P s s')
    (hP : ∀ m, P m → HandledAfter trace m) : TraceStep trace s s' := by
  cases h with
  | dropped hlen hhanded => exact ⟨.of_len_eq_zero hlen, .inl hhanded⟩
  | handed m hm hlen hhanded htime =>
    exact ⟨.of_len_eq_zero hlen, .inr ⟨m, hhanded, hP m hm, htime⟩⟩

theorem TraceStep.of_handed_eq (h : TraceStep trace s' s'') (hs : s'.handed = s.handed) :
    TraceStep trace s s'' :=
  ⟨h.inv, hs ▸ h.handed⟩

/-- An initialization frame. -/
theorem traceStep_start (hinit : s.rx.isInit = true) :
    TraceStep (trace ++ [.start s.rx]) s
      (hidDispatch env now button ok { s with packet := .start now s.rx }).1 := by
  have hdispatch : Dispatched _ { s with packet := .start now s.rx }
      (hidDispatch env now button ok { s with packet := .start now s.rx }).1 := hidDispatch_start rfl
  cases hdispatch with
  | kept h =>
    refine ⟨fun hpos ↦ ?_, .inl h.handed_eq⟩
    rw [h.packet_eq] at hpos ⊢
    refine ⟨⟨s.rx, [], .start trace s.rx, .start hinit hpos⟩, fun hcomplete ↦ ?_⟩
    exact absurd (hcomplete.1.symm.trans complete_start) (by decide)
  | finished h =>
    refine (TraceStep.finished h fun m ⟨hm, hcmd⟩ ↦ ?_).of_handed_eq rfl
    rw [hm] at hcmd ⊢
    exact .start hinit hcmd

/-- A continuation frame of the packet. -/
theorem traceStep_next (h : PacketInv trace s.packet) (hlen : 0 < s.packet.len)
    (hinit : s.rx.isInit = false) (hseq : s.packet.lastSeq = s.rx.type)
    (hcid : s.packet.lastReq.cid = s.rx.cid) :
    TraceStep (trace ++ [.next s.rx]) s
      (hidDispatch env now button ok { s with packet := s.packet.append s.rx }).1 := by
  obtain ⟨⟨i, conts, hend, hasm⟩, -⟩ := h hlen
  have hasm' := hasm.append hinit hseq hcid
  by_cases hlast : (s.packet.append s.rx).complete = true ∧ isMessageCommand s.packet.lastCmd
  · have hdispatch : PacketFinished _ { s with packet := s.packet.append s.rx }
        (hidDispatch env now button ok { s with packet := s.packet.append s.rx }).1 :=
      hidDispatch_complete hinit hlast.1 hlast.2
    refine (TraceStep.finished hdispatch fun m hm ↦ ?_).of_handed_eq rfl
    refine ⟨i, conts ++ [s.rx], hend.next s.rx, .inl ?_⟩
    rw [hm, hasm'.reassemble_eq hlast.1]
    rfl
  · have hdispatch : hidDispatch env now button ok { s with packet := s.packet.append s.rx } =
        ({ s with packet := s.packet.append s.rx }, 0) :=
      hidDispatch_incomplete hinit hlen hlast
    rw [hdispatch]
    exact ⟨fun _ ↦ ⟨⟨i, conts ++ [s.rx], hend.next s.rx, hasm'⟩, hlast⟩, .inl rfl⟩

/-- What can happen to a frame: it leaves the packet as it is, or it starts the packet, or it goes on
with it. -/
inductive FrameCase (env : HidEnv) (now : UInt32) (button ok : Bool) (f : CtapFrame) (s : Hid) :
    PacketStep → Hid × ℕ → Prop where
  | keep (r : Hid × ℕ) (h : PacketKept s r.1) : FrameCase env now button ok f s .keep r
  | start (hinit : f.isInit = true)
      (hnew : 0 < s.packet.len → ¬ now < s.packet.lastCmdTime + 100 ∨ f.type = ctaphidInit) :
      FrameCase env now button ok f s (.start f)
        (hidDispatch env now button ok { s.incoming now f with packet := .start now f })
  | next (hinit : f.isInit = false) (hlen : 0 < s.packet.len) (hseq : s.packet.lastSeq = f.type)
      (hcid : s.packet.lastReq.cid = f.cid) :
      FrameCase env now button ok f s (.next f)
        (hidDispatch env now button ok { s.incoming now f with packet := s.packet.append f })

/-- **What a frame does**, by cases. -/
theorem frameCase (h : PacketInv trace s.packet) :
    FrameCase env now button ok f s (frameStep now f s)
      (driverProcessUsbPacketHid env now button ok { s with rx := f }) := by
  unfold frameStep driverProcessUsbPacketHid
  by_cases hcancel : f.isCancel = true
  · rw [if_pos (.inl hcancel), if_pos hcancel]
    exact .keep _ ⟨hidCancel_kept.packet_eq, hidCancel_kept.handed_eq⟩
  rw [if_neg hcancel]
  by_cases hactive : s.cborActive = true
  · rw [if_pos (.inr (.inl hactive)), if_pos hactive]
    exact .keep _ ⟨hidBusy_kept.packet_eq, hidBusy_kept.handed_eq⟩
  rw [if_neg hactive]
  by_cases hstray : ¬ f.isInit = true ∧ s.packet.len = 0
  · rw [if_pos (.inr (.inr hstray)), if_pos hstray]
    exact .keep _ ⟨rfl, rfl⟩
  rw [if_neg (by tauto), if_neg hstray]
  show FrameCase env now button ok f s (match hidAccept now (s.incoming now f) with
    | .error _ => .keep
    | .ok _ =>
      if f.isInit then .start f else if s.packet.lastReq.cid = f.cid then .next f else .keep)
    (match hidAccept now (s.incoming now f) with
    | .error error => (ctapError error (s.incoming now f), 0)
    | .ok s'' => hidDispatch env now button ok s'')
  cases haccept : hidAccept now (s.incoming now f) with
  | error error => exact .keep _ ⟨rfl, rfl⟩
  | ok s'' =>
    dsimp only
    obtain ⟨hinit, rfl, hnew⟩ | ⟨hinit, hseq, hchannel⟩ := hidAccept_ok haccept
    · rw [if_pos (show f.isInit = true from hinit)]
      exact .start hinit hnew
    have hinit' : f.isInit = false := hinit
    have hlen : 0 < s.packet.len := by
      rw [hinit'] at hstray
      simp only [Bool.false_eq_true, not_false_eq_true, true_and] at hstray
      omega
    rw [if_neg (by rw [hinit']; exact Bool.false_ne_true)]
    obtain ⟨hcid, rfl⟩ | ⟨hcid, rfl⟩ := hchannel
    · rw [if_pos (show s.packet.lastReq.cid = f.cid from hcid)]
      exact .next hinit' hlen hseq hcid
    · rw [if_neg (show ¬ s.packet.lastReq.cid = f.cid from hcid),
        hidDispatch_incomplete hinit hlen (h hlen).2]
      exact .keep _ ⟨rfl, rfl⟩

/-- **What a frame does.** -/
theorem traceStep_frame (h : PacketInv trace s.packet) :
    TraceStep (trace ++ [frameStep now f s]) s
      (driverProcessUsbPacketHid env now button ok { s with rx := f }).1 := by
  have hcase : FrameCase env now button ok f s _ _ := frameCase h
  have hinv : PacketInv trace (s.incoming now f).packet := h
  generalize frameStep now f s = step at hcase ⊢
  generalize driverProcessUsbPacketHid env now button ok { s with rx := f } = result at hcase ⊢
  cases hcase with
  | keep _ hkept => exact .keep h hkept
  | start hinit hnew =>
    exact (traceStep_start (s := s.incoming now f) hinit).of_handed_eq rfl
  | next hinit hlen hseq hcid => exact (traceStep_next hinv hlen hinit hseq hcid).of_handed_eq rfl

theorem driverProcessUsbNopacketHid_eq (now : UInt32) (s : Hid) :
    driverProcessUsbNopacketHid now s =
      if s.timedOut now then (ctapError ctap1ErrMsgTimeout s).finishPacket else s := by
  simp only [driverProcessUsbNopacketHid, Hid.timedOut, Bool.and_eq_true, decide_eq_true_eq]

/-- What the clock does. -/
theorem traceStep_nopacket (h : PacketInv trace s.packet) :
    PacketInv (trace ++ timeoutSteps now s) (driverProcessUsbNopacketHid now s).packet ∧
      (driverProcessUsbNopacketHid now s).handed = s.handed := by
  rw [driverProcessUsbNopacketHid_eq, timeoutSteps]
  split_ifs
  · exact ⟨.of_len_eq_zero rfl, rfl⟩
  · rw [append_nil]
    exact ⟨h, rfl⟩

theorem timeoutSteps_of_lastPacketTime (h : s.lastPacketTime = 0) : timeoutSteps now s = [] := by
  have htime : s.timedOut now = false := by
    rw [Hid.timedOut, h]
    rfl
  rw [timeoutSteps, htime, if_neg Bool.false_ne_true]

/-- What is known of the packet and of the messages after an event. -/
theorem packetInv_step (h : PacketInv trace s.packet) (e : HidEvent) :
    PacketInv (trace ++ packetSteps env s e) (hidStep env s e).packet ∧
      ∃ ms, (hidStep env s e).handed = s.handed ++ ms ∧
        ∀ m ∈ ms, HandledAfter (trace ++ packetSteps env s e) m := by
  cases e with
  | frame now button ok f =>
    have hframe : TraceStep (trace ++ [frameStep now f s]) s
        (driverProcessUsbPacketHid env now button ok { s with rx := f }).1 := traceStep_frame h
    unfold hidStep tudHidSetReportCb packetSteps
    dsimp only
    generalize driverProcessUsbPacketHid env now button ok { s with rx := f } = result at hframe ⊢
    rw [append_cons]
    split_ifs
    · obtain ⟨hinv, hhanded⟩ := traceStep_nopacket hframe.inv
      refine ⟨hinv, ?_⟩
      rw [hhanded]
      obtain hsame | ⟨m, hm, hafter, htime⟩ := hframe.handed
      · exact ⟨[], by rw [hsame, append_nil], by simp⟩
      · rw [timeoutSteps_of_lastPacketTime htime, append_nil]
        exact ⟨[m], hm, fun m' hm' ↦ mem_singleton.mp hm' ▸ hafter⟩
    · rw [append_nil]
      refine ⟨hframe.inv, ?_⟩
      obtain hsame | ⟨m, hm, hafter, -⟩ := hframe.handed
      · exact ⟨[], by rw [hsame, append_nil], by simp⟩
      · exact ⟨[m], hm, fun m' hm' ↦ mem_singleton.mp hm' ▸ hafter⟩
  | task t =>
    obtain ⟨hinv, hhanded⟩ : PacketInv (trace ++ timeoutSteps t.now s) _ ∧ _ := traceStep_nopacket h
    have hkept : PacketKept (driverProcessUsbNopacketHid t.now s) (hidTask t s) :=
      (taskBusy_kept.trans taskStatus_kept).trans taskWrite_kept
    refine ⟨?_, [], ?_, by simp⟩
    · show PacketInv _ (hidTask t s).packet
      rw [hkept.packet_eq]
      exact hinv
    · show (hidTask t s).handed = _
      rw [hkept.handed_eq, hhanded, append_nil]
  | complete =>
    have hkept : PacketKept s (tudHidReportCompleteCb s) := tudHidReportCompleteCb_kept
    refine ⟨?_, [], ?_, by simp⟩
    · show PacketInv (trace ++ []) (tudHidReportCompleteCb s).packet
      rw [append_nil, hkept.packet_eq]
      exact h
    · show (tudHidReportCompleteCb s).handed = _
      rw [hkept.handed_eq, append_nil]
  | worker off bytes =>
    refine ⟨?_, [], (append_nil _).symm, by simp⟩
    show PacketInv (trace ++ []) s.packet
    rw [append_nil]
    exact h

/-- What is known of the packet after a run. -/
theorem packetInv_run (h : PacketInv trace s.packet) (es : List HidEvent) :
    PacketInv (trace ++ packetTrace env s es) (hidRun env s es).packet := by
  induction es generalizing trace s with
  | nil =>
    rw [packetTrace, append_nil]
    exact h
  | cons e es ih =>
    rw [packetTrace, ← append_assoc]
    exact ih (packetInv_step h e).1

/-- What a frame of another channel does to a packet. -/
theorem packet_other_channel (h : PacketInv trace s.packet) (hcid : f.cid ≠ s.packet.lastReq.cid) :
    (hidStep env s (.frame now button ok f)).packet = s.packet ∨
      .timeout ∈ packetSteps env s (.frame now button ok f) ∨
      (0 < s.packet.len → ¬ now < s.packet.lastCmdTime + 100 ∨ f.type = ctaphidInit) ∧
        frameStep now f s = .start f := by
  have hcase : FrameCase env now button ok f s _ _ := frameCase h
  unfold hidStep tudHidSetReportCb packetSteps
  dsimp only
  generalize frameStep now f s = step at hcase ⊢
  generalize driverProcessUsbPacketHid env now button ok { s with rx := f } = result at hcase ⊢
  cases hcase with
  | keep _ hkept =>
    rw [driverProcessUsbNopacketHid_eq, timeoutSteps]
    split_ifs
    · exact .inr (.inl (by simp))
    · exact .inl hkept.packet_eq
    · exact .inl hkept.packet_eq
  | start hinit hnew => exact .inr (.inr ⟨hnew, rfl⟩)
  | next hinit hlen hseq hchannel => exact absurd hchannel.symm hcid

theorem packetTrace_concat (s : Hid) (es : List HidEvent) (e : HidEvent) :
    packetTrace env s (es ++ [e]) = packetTrace env s es ++ packetSteps env (hidRun env s es) e := by
  induction es generalizing s with
  | nil => exact append_nil _
  | cons e' es ih =>
    rw [cons_append, packetTrace, ih, packetTrace, append_assoc]
    rfl

theorem packetInv_powerUp (es : List HidEvent) :
    PacketInv (packetTrace env hidPowerUp es) (hidRun env hidPowerUp es).packet := by
  have hinv : PacketInv [] hidPowerUp.packet := .of_len_eq_zero rfl
  exact packetInv_run hinv es

end Run

/-- **Messages are reassembled.** A message that is handled in an event has its frames at the end of
the run, in order and with nothing else that concerns the packet, and it is what they are put together
to; only a command of `firstFrameCommands` is handled with its initialization frame alone.

A frame of another channel leaves a packet as it is, unless it is the initialization frame of a new
one: a `CTAPHID_INIT`, or any other once the packet is older than 100 ms. -/
theorem hid_message_reassembled (env : HidEnv) (es : List HidEvent) (e : HidEvent) :
    (∃ ms, (hidStep env (hidRun env hidPowerUp es) e).handed =
        (hidRun env hidPowerUp es).handed ++ ms ∧
      ∀ m ∈ ms, HandledAfter (packetTrace env hidPowerUp (es ++ [e])) m) ∧
    ∀ now button ok f, e = .frame now button ok f →
      0 < (hidRun env hidPowerUp es).packet.len →
      f.cid ≠ (hidRun env hidPowerUp es).packet.lastReq.cid →
      (hidStep env (hidRun env hidPowerUp es) e).packet = (hidRun env hidPowerUp es).packet ∨
        .timeout ∈ packetSteps env (hidRun env hidPowerUp es) e ∨
        frameStep now f (hidRun env hidPowerUp es) = .start f ∧
          (¬ now < (hidRun env hidPowerUp es).packet.lastCmdTime + 100 ∨ f.type = ctaphidInit) := by
  have hinv : PacketInv (packetTrace env hidPowerUp es) (hidRun env hidPowerUp es).packet :=
    packetInv_powerUp es
  refine ⟨?_, fun now button ok f he hlen hcid ↦ ?_⟩
  · rw [packetTrace_concat]
    exact (packetInv_step hinv e).2
  · subst he
    obtain hsame | htime | ⟨hnew, hstart⟩ := packet_other_channel hinv hcid
    · exact .inl hsame
    · exact .inr (.inl htime)
    · exact .inr (.inr ⟨hstart, hnew hlen⟩)

/-- A program that has every APDU for the worker. -/
def workerEnv : HidEnv where
  apduProcess _ tx := ⟨true, tx, none, fun _ ↦ rfl⟩
  versionMajor := picokeysSdkVersionMajor
  versionMinor := picokeysSdkVersionMinor
  serial := List.replicate 8 0

/-- An initialization frame with zeros for its data. -/
def initFrame (cid : UInt32) (cmd : UInt8) (len : ℕ) : CtapFrame :=
  .padded cid cmd (beBytes 2 len)

/-- A `CTAPHID_PING` of 100 bytes, with a frame of another channel between its two, is handled. -/
theorem hid_message_reassembled_ping :
    (hidStep workerEnv (hidRun workerEnv hidPowerUp
        [.frame 1000 false true (initFrame 1 ctaphidPing 100),
          .frame 1050 false true (initFrame 2 ctaphidPing 5)])
      (.frame 1090 false true (.padded 1 0 []))).handed =
        [⟨1, ctaphidPing, List.replicate 100 0⟩] ∧
      HandledAfter (packetTrace workerEnv hidPowerUp
        [.frame 1000 false true (initFrame 1 ctaphidPing 100),
          .frame 1050 false true (initFrame 2 ctaphidPing 5),
          .frame 1090 false true (.padded 1 0 [])]) ⟨1, ctaphidPing, List.replicate 100 0⟩ ∧
      (hidStep workerEnv (hidRun workerEnv hidPowerUp
          [.frame 1000 false true (initFrame 1 ctaphidPing 100)])
        (.frame 1050 false true (initFrame 2 ctaphidPing 5))).packet.len = 100 := by
  have hhanded : (hidStep workerEnv (hidRun workerEnv hidPowerUp
      [.frame 1000 false true (initFrame 1 ctaphidPing 100),
        .frame 1050 false true (initFrame 2 ctaphidPing 5)])
      (.frame 1090 false true (.padded 1 0 []))).handed =
        [⟨1, ctaphidPing, List.replicate 100 0⟩] := by decide +kernel
  refine ⟨hhanded, ?_, ?_⟩
  · obtain ⟨ms, hms, hall⟩ := (hid_message_reassembled workerEnv
      [.frame 1000 false true (initFrame 1 ctaphidPing 100),
        .frame 1050 false true (initFrame 2 ctaphidPing 5)]
      (.frame 1090 false true (.padded 1 0 []))).1
    refine hall _ ?_
    have hnone : (hidRun workerEnv hidPowerUp
        [.frame 1000 false true (initFrame 1 ctaphidPing 100),
          .frame 1050 false true (initFrame 2 ctaphidPing 5)]).handed = [] := by decide +kernel
    rw [hnone, nil_append] at hms
    rw [← hms]
    exact mem_singleton_self _
  · have hother := (hid_message_reassembled workerEnv
      [.frame 1000 false true (initFrame 1 ctaphidPing 100)]
      (.frame 1050 false true (initFrame 2 ctaphidPing 5))).2 1050 false true
      (initFrame 2 ctaphidPing 5) rfl (by decide +kernel) (by decide +kernel)
    obtain hsame | htime | ⟨hstart, -⟩ := hother
    · rw [hsame]
      decide +kernel
    · exact absurd htime (by decide +kernel)
    · exact absurd hstart (by decide +kernel)

/-- A `CTAPHID_UUID` that announces 100 bytes is handled with its initialization frame. And 200 ms
after a `CTAPHID_PING` of 100 bytes has begun on a channel, another channel sends a frame with a
command that there is not: it gets an error, and the packet is gone. -/
theorem hid_unknown_command_drops_packet :
    ((hidStep workerEnv hidPowerUp (.frame 1000 false true (initFrame 1 ctaphidUuid 100))).handed =
        [⟨1, ctaphidUuid, List.replicate 57 0⟩] ∧
      ¬ ∃ i conts, FramesEnd (packetTrace workerEnv hidPowerUp
          [.frame 1000 false true (initFrame 1 ctaphidUuid 100)]) i conts ∧
        reassemble (i :: conts) = some ⟨1, ctaphidUuid, List.replicate 57 0⟩) ∧
    (hidRun workerEnv hidPowerUp
        [.frame 1000 false true (initFrame 1 ctaphidPing 100)]).packet.len = 100 ∧
      (hidRun workerEnv hidPowerUp [.frame 1000 false true (initFrame 1 ctaphidPing 100),
        .frame 1200 false true (initFrame 2 0x85 0)]).packet.len = 0 ∧
      slice (hidRun workerEnv hidPowerUp [.frame 1000 false true (initFrame 1 ctaphidPing 100),
        .frame 1200 false true (initFrame 2 0x85 0)]).tx.1 0 8 =
          [2, 0, 0, 0, ctaphidError, 0, 1, ctap1ErrInvalidCmd] := by
  refine ⟨⟨by decide +kernel, ?_⟩, by decide +kernel, by decide +kernel, by decide +kernel⟩
  rintro ⟨i, conts, ⟨before, after, htrace, hafter⟩, hsome⟩
  have htrace' : packetTrace workerEnv hidPowerUp
      [.frame 1000 false true (initFrame 1 ctaphidUuid 100)] =
        [.start (initFrame 1 ctaphidUuid 100)] := by decide +kernel
  obtain ⟨rfl, hcons⟩ := append_eq_singleton_iff.mp htrace.symm |>.resolve_right
    fun h ↦ absurd h.2 (by simp)
  obtain ⟨hi, rfl⟩ := List.cons.inj hcons
  obtain rfl := PacketStep.start.inj hi
  have hconts : conts = [] := map_eq_nil_iff.mp hafter.symm
  rw [hconts] at hsome
  exact absurd hsome (by decide +kernel)

end PicoAll
