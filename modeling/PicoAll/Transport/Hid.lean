import PicoAll.Transport.ApduResponse

/-!
# CTAPHID

The driver of `hid.c`: reports of 64 bytes carry the frames of messages, from any number of channels,
over one interface. A message comes in as an initialization frame and continuation frames, which one
packet buffer puts together; a response goes out of one transmit buffer, a report at a time.

Everything is in static variables, here the fields of `Hid`. What happens to them are the events of
`HidEvent`: a frame comes in, the task is called, a report has gone out, and the worker on the other
core writes to the response. Each event has the time, and what the rest of the program and the USB
stack answer in it.
-/

namespace PicoAll

open BigEndian ByteBuffer List

/-! ### Frames -/

abbrev hidRptSize : ℕ := 64

abbrev cidBroadcast : UInt32 := 0xffffffff

abbrev ctapMaxPacketSize : ℕ := 64 - 7 + 128 * (64 - 5)

/-- A `CTAPHID_FRAME`. -/
structure CtapFrame where
  /-- The channel. -/
  cid : UInt32
  /-- The command, with bit 7 set, or the sequence number. -/
  type : UInt8
  /-- What comes behind it. -/
  body : Bytes
  length_body : body.length = hidRptSize - 5
  deriving DecidableEq

namespace CtapFrame

/-- A frame with zeros behind its data. -/
def padded (cid : UInt32) (type : UInt8) (data : Bytes) : CtapFrame where
  cid := cid
  type := type
  body := (data ++ List.replicate (hidRptSize - 5) 0).take (hidRptSize - 5)
  length_body := by simp

variable (f : CtapFrame)

/-- `FRAME_TYPE(f) == TYPE_INIT`. -/
def isInit : Bool :=
  f.type &&& 0x80 == 0x80

def msgLen : ℕ :=
  (f.body.getD 0 0).toNat * 256 + (f.body.getD 1 0).toNat

/-- The data of an initialization frame. -/
def initData : Bytes :=
  f.body.drop 2

/-- The bytes of a frame. -/
def toBytes : Bytes :=
  leBytes 4 f.cid.toNat ++ f.type :: f.body

/-- The frame in a report. What is read past the end of a buffer is taken for zero. -/
def ofBytes (bytes : Bytes) : CtapFrame :=
  padded (UInt32.ofNat (leNat (bytes.take 4))) (bytes.getD 4 0) (bytes.drop 5)

end CtapFrame

abbrev ctaphidPing : UInt8 := 0x81
abbrev ctaphidMsg : UInt8 := 0x83
abbrev ctaphidLock : UInt8 := 0x84
abbrev ctaphidInit : UInt8 := 0x86
abbrev ctaphidWink : UInt8 := 0x88
abbrev ctaphidCbor : UInt8 := 0x90
abbrev ctaphidCancel : UInt8 := 0x91
abbrev ctaphidKeepalive : UInt8 := 0xbb
abbrev ctaphidSync : UInt8 := 0xbc
abbrev ctaphidError : UInt8 := 0xbf
abbrev ctaphidVendorFirst : UInt8 := 0xc0
abbrev ctaphidVersion : UInt8 := 0xe1
abbrev ctaphidUuid : UInt8 := 0xe2
abbrev ctaphidOtp : UInt8 := 0xf0
abbrev ctaphidAdmin : UInt8 := 0xf2

abbrev ctap1ErrInvalidCmd : UInt8 := 0x01
abbrev ctap1ErrInvalidParameter : UInt8 := 0x02
abbrev ctap1ErrInvalidLen : UInt8 := 0x03
abbrev ctap1ErrInvalidSeq : UInt8 := 0x04
abbrev ctap1ErrMsgTimeout : UInt8 := 0x05
abbrev ctap1ErrChannelBusy : UInt8 := 0x06
abbrev ctap1ErrInvalidChannel : UInt8 := 0x0b
abbrev ctaphidKeepaliveCancelStatus : UInt8 := 0x2d

variable (cid : UInt32)

/-- A response that is one frame. -/
def ctapResponse (cmd : UInt8) (len : ℕ) (data : Bytes) : CtapFrame :=
  .padded cid cmd (beBytes 2 len ++ data)

def ctapErrorFrame (error : UInt8) : CtapFrame :=
  ctapResponse cid ctaphidError 1 [error]

/-! ### The state -/

theorem TxBuffer.length_write (b : TxBuffer) (off : ℕ) (bytes : Bytes) :
    ((patch b.1 off bytes).take usbBufferSize).length = usbBufferSize := by
  simp only [patch, length_take, length_append, length_drop]
  omega

/-- The bytes of a buffer that are written to it. What goes past the end is not in it. -/
def TxBuffer.write (b : TxBuffer) (off : ℕ) (bytes : Bytes) : TxBuffer :=
  ⟨(patch b.1 off bytes).take usbBufferSize, b.length_write off bytes⟩

variable {b : TxBuffer} {off : ℕ} {bytes : Bytes}

theorem TxBuffer.val_write (h : off + bytes.length ≤ usbBufferSize) :
    (b.write off bytes).1 = patch b.1 off bytes := by
  have hlen : (patch b.1 off bytes).length = b.1.length := length_patch (by rw [b.2]; exact h)
  exact take_of_length_le (by rw [hlen, b.2])

/-- What a write leaves in a buffer. -/
theorem TxBuffer.getElem?_write {i : ℕ} (hi : i < usbBufferSize) :
    (b.write off bytes).1[i]? =
      if off ≤ i ∧ i < off + bytes.length then bytes[i - off]? else b.1[i]? := by
  show ((patch b.1 off bytes).take usbBufferSize)[i]? = _
  rw [getElem?_take_of_lt hi, patch]
  by_cases hoff : off ≤ b.1.length
  · rcases Nat.lt_or_ge i off with hlt | hge
    · rw [append_assoc, getElem?_append_left (by rw [length_take]; omega),
        getElem?_take_of_lt hlt, if_neg (by omega)]
    · have htake : (b.1.take off).length = off := by
        rw [length_take]
        omega
      rw [append_assoc, getElem?_append_right (by omega), htake]
      rcases Nat.lt_or_ge i (off + bytes.length) with hin | hout
      · rw [getElem?_append_left (by omega), if_pos ⟨hge, hin⟩]
      · rw [getElem?_append_right (by omega), getElem?_drop, if_neg (by omega)]
        congr 1
        omega
  · rw [take_of_length_le (by omega), append_assoc,
      getElem?_append_left (by omega), if_neg (by omega)]

theorem TxBuffer.slice_write (h : off + bytes.length ≤ usbBufferSize) :
    slice (b.write off bytes).1 off bytes.length = bytes := by
  rw [val_write h]
  exact slice_patch_self (by rw [b.2]; exact h)

theorem TxBuffer.slice_write_of_disjoint {off' len : ℕ} (h : off + bytes.length ≤ usbBufferSize)
    (hdisjoint : off' + len ≤ off ∨ off + bytes.length ≤ off') :
    slice (b.write off bytes).1 off' len = slice b.1 off' len := by
  rw [val_write h]
  exact slice_patch_of_disjoint (by rw [b.2]; exact h) hdisjoint

/-- `write_status_t`. -/
inductive WriteStatus where
  | unknown
  | pending
  | failed
  | success
  deriving DecidableEq, Repr

/-- `msg_packet`, and the variables that say what it is the packet of. -/
structure MsgPacket where
  len : ℕ
  /-- `data`, as far as `current_len`. -/
  data : Bytes
  lastReq : CtapFrame
  lastCmd : UInt8
  lastSeq : UInt8
  lastCmdTime : UInt32
  deriving DecidableEq

/-- A message as it gets to the code that handles it. -/
structure HidMessage where
  /-- The channel. -/
  cid : UInt32
  /-- The command. -/
  cmd : UInt8
  payload : Bytes
  deriving DecidableEq

/-- The driver. -/
structure Hid where
  packet : MsgPacket
  lastPacketTime : UInt32
  lock : UInt32
  lockCid : UInt32
  nextCid : UInt32
  /-- The frame in `hid_rx`. -/
  rx : CtapFrame
  /-- `ctap_req` is `&last_req`; else it is in `hid_rx`. -/
  reqIsLast : Bool
  /-- The buffer of `hid_tx`. -/
  tx : TxBuffer
  /-- The `w_ptr` of `hid_tx`. -/
  wPtr : ℕ
  /-- The `r_ptr` of `hid_tx`. -/
  rPtr : ℕ
  /-- `ctap_resp`, from the start of the buffer. -/
  resp : ℕ
  sendBufferSize : ℕ
  lastWriteResult : WriteStatus
  /-- The report that is on its way to the host. -/
  report : Option CtapFrame
  /-- `busy_response`, while it is pending. -/
  busyResponse : Option CtapFrame
  /-- `busy_response_inflight`. -/
  busyInflight : Bool
  threadType : UInt8
  /-- The worker that `card_start` has started: 1 is `apdu_thread`, 2 is `cbor_thread`. -/
  worker : Option UInt8
  isNk : Bool
  /-- `hid_cbor_active`. -/
  cborActive : Bool
  /-- `cbor_cmd`, and the `cbor_data` that is in `cbor_request`. -/
  cborRequest : UInt8 × Bytes
  /-- `hid_cancel_pending`. -/
  cancelPending : Bool
  cancelButton : Bool
  lastKeepaliveTime : UInt32
  /-- The reports that the USB stack has taken, to tell what the host gets. -/
  sent : List CtapFrame
  /-- The messages that have been handled. -/
  handed : List HidMessage

/-- What `apdu_process` does, which is either to call for the worker, or to send what is left of a
response. -/
structure ApduAnswer where
  /-- It returns 1. -/
  sent : Bool
  /-- The buffer of `hid_tx`. -/
  tx : TxBuffer
  /-- The arguments of `driver_exec_finished_cont_hid`. -/
  next : Option (ℕ × ℕ)
  next_eq : sent = true → next = none

/-- The rest of the program. -/
structure HidEnv where
  /-- `apdu_process`, for a command and the buffer of the response. -/
  apduProcess : Bytes → TxBuffer → ApduAnswer
  /-- `get_version_major`, or `PICOKEYS_SDK_VERSION_MAJOR`. -/
  versionMajor : UInt8
  /-- `get_version_minor`, or `PICOKEYS_SDK_VERSION_MINOR`. -/
  versionMinor : UInt8
  /-- `pico_serial`. -/
  serial : Bytes

abbrev picokeysSdkVersionMajor : UInt8 := 9
abbrev picokeysSdkVersionMinor : UInt8 := 0

namespace Hid

def ctapReq (s : Hid) : CtapFrame :=
  if s.reqIsLast then s.packet.lastReq else s.rx

/-- Write a frame to the response. -/
def respond (f : CtapFrame) (s : Hid) : Hid :=
  { s with tx := s.tx.write s.resp f.toBytes }

/-- A message is handled. -/
def hand (cmd : UInt8) (payload : Bytes) (s : Hid) : Hid :=
  { s with handed := s.handed ++ [⟨s.rx.cid, cmd, payload⟩] }

/-- The packet is done with. -/
def finishPacket (s : Hid) : Hid :=
  { s with packet := { s.packet with len := 0, data := [] }, lastPacketTime := 0 }

end Hid

/-! ### Sending -/

variable (env : HidEnv) (now : UInt32) (ok : Bool) (s : Hid)

/-- `driver_write_hid`, where the USB stack takes the report if `ok`. -/
def driverWriteHid (f : CtapFrame) (s : Hid) : Hid :=
  if s.lastWriteResult = .pending then
    s
  else if ok then
    { s with lastWriteResult := .pending, report := some f, sent := s.sent ++ [f] }
  else
    { s with lastWriteResult := .failed }

/-- The result of `driver_write_hid` is positive. -/
def writeAccepted : Bool :=
  s.lastWriteResult ≠ .pending && ok

/-- `driver_init_hid`, for the frame in `hid_rx`. -/
def driverInitHid : Hid :=
  { s with
    reqIsLast := false
    resp := 0
    tx := s.tx.write 0 (List.replicate hidRptSize 0)
    isNk := false
    wPtr := 0
    rPtr := 0
    sendBufferSize := 0 }

def ctapError (error : UInt8) (s : Hid) : Hid :=
  { s.respond (ctapErrorFrame s.ctapReq.cid error) with
    wPtr := s.wPtr + hidRptSize
    lastPacketTime := 0 }

/-- Where `send_keepalive` has its frame: in the last bytes of the buffer. -/
abbrev keepaliveOffset : ℕ := usbBufferSize - hidRptSize

/-- Write the frame of a keepalive, which is not cleared before. -/
def putKeepalive (button : Bool) (s : Hid) : Hid :=
  { s with
    tx := (s.tx.write keepaliveOffset
        (leBytes 4 s.ctapReq.cid.toNat ++ [ctaphidKeepalive])).write (keepaliveOffset + 6)
      [1, if button then 2 else 1] }

/-- Send the frame of a keepalive. -/
def writeKeepalive : Hid :=
  driverWriteHid ok (.ofBytes (slice s.tx.1 keepaliveOffset hidRptSize))
    { s with lastKeepaliveTime := if writeAccepted ok s then now else s.lastKeepaliveTime }

def sendKeepalive (button ok : Bool) (s : Hid) : Hid :=
  if s.threadType = 1 ∨ s.cancelButton then
    s
  else if s.lastKeepaliveTime ≠ 0 ∧ now - s.lastKeepaliveTime < 250 then
    s
  else
    writeKeepalive now ok (putKeepalive button s)

/-- A number in a `uint16_t`. -/
def uint16 (n : ℕ) : ℕ :=
  n % 65536

/-- `driver_exec_finished_cont_hid`: the offset without the header, on 16 bits. -/
def contOffset (offset : ℕ) : ℕ :=
  uint16 (offset + 65536 - 7)

def Hid.driverExecFinishedContHid (sizeNext offset : ℕ) (s : Hid) : Hid :=
  { s with
    resp := contOffset offset
    tx := s.tx.write (contOffset offset)
      (leBytes 4 s.ctapReq.cid.toNat ++ s.packet.lastCmd :: beBytes 2 sizeNext)
    sendBufferSize := sizeNext
    wPtr := uint16 (s.wPtr + (sizeNext + 7 + contOffset offset))
    rPtr := s.rPtr + contOffset offset }

/-- The response of a request that is cancelled. -/
def cancelResponse : Hid :=
  { s with
    resp := 0
    tx := s.tx.write 7 [ctaphidKeepaliveCancelStatus]
    cancelPending := false
    cancelButton := false }

/-- Put the status word before a response. -/
def nkResponse (sizeNext : ℕ) (sw : UInt16) (s : Hid) : Hid :=
  { s with tx := s.tx.write 7 (swBytes sw ++ slice s.tx.1 7 (sizeNext - 2)) }

/-- The end of `driver_exec_finished_hid`. -/
def execFinishedSend (sizeNext : ℕ) (sw : UInt16) (s : Hid) : Hid :=
  if sizeNext = 0 then
    s
  else if s.threadType = 2 ∧ sw ≠ 0 then
    ctapError sw.toUInt8 s
  else if s.isNk then
    Hid.driverExecFinishedContHid sizeNext 7 (nkResponse sizeNext sw s)
  else
    Hid.driverExecFinishedContHid sizeNext 7 s

/-- `driver_exec_finished_hid`, with `apdu.sw`. -/
def driverExecFinishedHid (sizeNext : ℕ) (sw : UInt16) (s : Hid) : Hid :=
  if s.cancelPending then
    execFinishedSend 1 0 { cancelResponse s with cborActive := false }
  else
    execFinishedSend sizeNext sw { s with cborActive := false }

/-! ### Frames that come in -/

/-- `allocate_cid`: the next one of `next_cid`. -/
def nextCid : UInt32 :=
  if cid + 1 = 0 ∨ cid + 1 = cidBroadcast then 1 else cid + 1

/-- `allocate_cid`: the channel, and what it leaves in `next_cid`. -/
def allocateCid (next : UInt32) : UInt32 × UInt32 :=
  if next = 0 ∨ next = cidBroadcast then
    (nextCid next, nextCid (nextCid next))
  else
    (next, nextCid next)

namespace MsgPacket

/-- A transaction begins. -/
def start (now : UInt32) (f : CtapFrame) : MsgPacket where
  len := if f.msgLen > 64 - 7 then f.msgLen else 0
  data := if f.msgLen > 64 - 7 then f.initData else []
  lastReq := f
  lastCmd := f.type
  lastSeq := 0
  lastCmdTime := now

/-- A transaction goes on. -/
def append (f : CtapFrame) (p : MsgPacket) : MsgPacket :=
  { p with
    data := p.data ++ f.body.take (p.len - p.data.length)
    lastReq := f
    lastSeq := p.lastSeq + 1 }

/-- The packet has all of its message. -/
def complete (p : MsgPacket) : Bool :=
  p.len = p.data.length ∧ 0 < p.len

end MsgPacket

/-- The checks of a frame, and what they leave in the packet. -/
def hidAccept : Except UInt8 Hid :=
  let f := s.rx
  if f.cid = 0 ∨ (f.cid = cidBroadcast ∧ (¬ f.isInit ∨ f.type ≠ ctaphidInit)) then
    .error ctap1ErrInvalidChannel
  else if now < s.lock ∧ f.cid ≠ s.lockCid ∧
      ¬ (f.cid = cidBroadcast ∧ f.type = ctaphidInit) then
    .error ctap1ErrChannelBusy
  else if f.isInit then
    if f.msgLen > ctapMaxPacketSize then
      .error ctap1ErrInvalidLen
    else if 0 < s.packet.len ∧ now < s.packet.lastCmdTime + 100 ∧ f.type ≠ ctaphidInit then
      .error (if s.packet.lastReq.cid ≠ f.cid then ctap1ErrChannelBusy else ctap1ErrInvalidSeq)
    else
      .ok { s with packet := .start now f }
  else if s.packet.lastSeq ≠ f.type then
    .error ctap1ErrInvalidSeq
  else if s.packet.lastReq.cid = f.cid then
    .ok { s with packet := s.packet.append f }
  else if now < s.packet.lastCmdTime + 100 then
    .error ctap1ErrChannelBusy
  else
    .ok s

/-- The message is complete with the frame, which may be its only one. -/
def Hid.messageReady : Bool :=
  s.packet.len = 0 || s.packet.complete

/-- The message. -/
def Hid.payload : Bytes :=
  if s.packet.complete then s.packet.data else s.rx.initData.take s.rx.msgLen

/-- Answer a message with a frame, which is written at once. -/
def replyNow (f : CtapFrame) (s : Hid) : Hid :=
  (driverWriteHid ok f (s.respond f)).finishPacket

/-- `CTAPHID_INIT`. -/
def hidInit : Hid :=
  let f := s.rx
  let (cid, next) := if f.cid = cidBroadcast then allocateCid s.nextCid else (f.cid, s.nextCid)
  replyNow ok
    (ctapResponse f.cid ctaphidInit 17 (f.initData.take 8 ++ leBytes 4 cid.toNat ++
      [2, env.versionMajor, env.versionMinor, 0, 5]))
    { s.hand ctaphidInit (f.initData.take f.msgLen) with worker := none, nextCid := next }

/-- `CTAPHID_WINK`. -/
def hidWink : Hid :=
  if s.rx.msgLen ≠ 0 then
    ctapError ctap1ErrInvalidLen s
  else
    replyNow ok s.rx (s.hand ctaphidWink [])

/-- Copy bytes to the response. The pointers of `hid_tx` are behind its buffer. -/
def copyToResponse (data : Bytes) (s : Hid) : Hid :=
  let mem := patch (s.tx.1 ++ leBytes 2 s.rPtr ++ leBytes 2 s.wPtr) (s.resp + 7) data
  { s with
    tx := s.tx.write (s.resp + 7) data
    rPtr := leNat (slice mem usbBufferSize 2)
    wPtr := leNat (slice mem (usbBufferSize + 2) 2) }

/-- `CTAPHID_PING` and `CTAPHID_SYNC`. -/
def hidPing : Hid :=
  let s' := s.hand s.packet.lastCmd s.payload
  if s.packet.complete then
    -- `apdu.sw` is 0 when there is no request
    (driverExecFinishedHid s.packet.len 0 (copyToResponse s.packet.data s')).finishPacket
  else
    replyNow ok (ctapResponse s.rx.cid s.packet.lastCmd s.rx.msgLen s.payload) s'

/-- `CTAPHID_LOCK`. -/
def hidLock : Hid :=
  let seconds := s.rx.initData.getD 0 0
  if s.rx.msgLen ≠ 1 then
    ctapError ctap1ErrInvalidLen s
  else if seconds > 10 then
    ctapError ctap1ErrInvalidParameter s
  else if now < s.lock ∧ s.rx.cid ≠ s.lockCid then
    ctapError ctap1ErrChannelBusy s
  else
    replyNow ok (ctapResponse s.rx.cid ctaphidLock 0 [])
      { s.hand ctaphidLock [seconds] with
        lock := if seconds = 0 then 0 else now + seconds.toUInt32 * 1000
        lockCid := if seconds = 0 then 0 else s.rx.cid }

/-- `CTAPHID_UUID`. -/
def hidUuid : Hid :=
  replyNow ok (ctapResponse s.rx.cid ctaphidUuid 16 env.serial)
    (s.hand ctaphidUuid (s.rx.initData.take s.rx.msgLen))

/-- `CTAPHID_VERSION`. -/
def hidVersion : Hid :=
  replyNow ok
    (ctapResponse s.rx.cid ctaphidVersion 4 [picokeysSdkVersionMajor, picokeysSdkVersionMinor])
    (s.hand ctaphidVersion (s.rx.initData.take s.rx.msgLen))

/-- `CTAPHID_ADMIN`. -/
def hidAdmin : Hid :=
  replyNow ok
    (if s.rx.initData.getD 0 0 = 0x80 then
      ctapResponse s.rx.cid ctaphidAdmin 5 [0x00, 0xff, 0xff, 0xff, 0x00]
    else
      ctapResponse s.rx.cid ctaphidAdmin 0 [])
    (s.hand ctaphidAdmin (s.rx.initData.take s.rx.msgLen))

/-- What `apdu_process` leaves of the response. -/
def apduAnswered (answer : ApduAnswer) (s : Hid) : Hid :=
  match answer.next with
  | none => { s with tx := answer.tx }
  | some (sizeNext, offset) =>
    Hid.driverExecFinishedContHid sizeNext offset { s with tx := answer.tx }

/-- `CTAPHID_MSG` and `CTAPHID_OTP`; the result is what `apdu_process` returns. -/
def hidMsg : Hid × ℕ :=
  let answer := env.apduProcess s.payload s.tx
  let s' := apduAnswered answer
    { s.hand s.packet.lastCmd s.payload with
      isNk := s.isNk || s.packet.lastCmd = ctaphidOtp
      threadType := 1 }
  if answer.sent then
    ({ s'.finishPacket with worker := some 1 }, 1)
  else
    (s'.finishPacket, 0)

/-- `cbor_process`, for a request that is not too long. -/
def cborProcess : Hid :=
  { s.hand s.packet.lastCmd s.payload with
    cborRequest := (s.packet.lastCmd, s.payload)
    tx := s.tx.write (s.resp + 7) [0] }

/-- The request is with the worker. -/
def cborStarted : Hid :=
  { s with worker := some 2, cborActive := true, reqIsLast := true }

/-- `CTAPHID_CBOR` and the vendor commands; the result is what `cbor_process` returns. -/
def hidCbor (button ok : Bool) (s : Hid) : Hid × ℕ :=
  let s' := { s with threadType := 2, cancelButton := false }
  if s.payload.length > ctapMaxPacketSize then
    (ctapError ctap1ErrInvalidLen s'.finishPacket, 0)
  else
    let s' := { (cborProcess s').finishPacket with lastKeepaliveTime := 0 }
    (cborStarted (sendKeepalive now button ok s'), 2)

/-- What is done with a frame, and the message if it is complete. The result is `apdu_sent`. -/
def hidDispatch (button ok : Bool) (s : Hid) : Hid × ℕ :=
  if s.rx.type = ctaphidInit then
    (hidInit env ok s, 0)
  else if s.rx.type = ctaphidWink then
    (hidWink ok s, 0)
  else if (s.packet.lastCmd = ctaphidPing ∨ s.packet.lastCmd = ctaphidSync) ∧ s.messageReady then
    (hidPing ok s, 0)
  else if s.rx.type = ctaphidLock then
    (hidLock now ok s, 0)
  else if s.rx.type = ctaphidUuid then
    (hidUuid env ok s, 0)
  else if s.rx.type = ctaphidVersion then
    (hidVersion ok s, 0)
  else if s.rx.type = ctaphidAdmin then
    (hidAdmin ok s, 0)
  else if (s.packet.lastCmd = ctaphidMsg ∨ s.packet.lastCmd = ctaphidOtp) ∧ s.messageReady then
    hidMsg env s
  else if (s.packet.lastCmd = ctaphidCbor ∨ s.packet.lastCmd ≥ ctaphidVendorFirst) ∧
      s.messageReady then
    hidCbor now button ok s
  else if s.packet.len = 0 then
    (ctapError ctap1ErrInvalidCmd s, 0)
  else
    (s, 0)

/-- A frame is a `CTAPHID_CANCEL`. -/
def CtapFrame.isCancel (f : CtapFrame) : Bool :=
  f.isInit && f.type = ctaphidCancel

/-- A `CTAPHID_CANCEL`, which has no response of its own. -/
def hidCancel (f : CtapFrame) (s : Hid) : Hid :=
  if f.msgLen = 0 ∧ s.cborActive ∧ s.packet.lastCmd = ctaphidCbor ∧
      f.cid = s.packet.lastReq.cid then
    { s with cancelPending := true, cancelButton := true }
  else
    s

/-- A frame that comes in while the worker has a request. -/
def hidBusy (f : CtapFrame) (s : Hid) : Hid :=
  if f.isInit ∧ s.busyResponse = none then
    { s with busyResponse := some (ctapErrorFrame f.cid ctap1ErrChannelBusy) }
  else
    s

/-- `driver_process_usb_packet_hid`, for the frame in `hid_rx`. -/
def driverProcessUsbPacketHid (button ok : Bool) (s : Hid) :
    Hid × ℕ :=
  if s.rx.isCancel then
    (hidCancel s.rx s, 0)
  else if s.cborActive then
    (hidBusy s.rx s, 0)
  else
    let s' := { driverInitHid s with lastPacketTime := now }
    if ¬ s.rx.isInit ∧ s.packet.len = 0 then
      ({ s' with lastPacketTime := 0 }, 0)
    else
      match hidAccept now s' with
      | .error error => (ctapError error s', 0)
      | .ok s'' => hidDispatch env now button ok s''

def driverProcessUsbNopacketHid : Hid :=
  if 0 < s.lastPacketTime ∧ s.lastPacketTime + 500 < now then
    (ctapError ctap1ErrMsgTimeout s).finishPacket
  else
    s

def tudHidSetReportCb (button ok : Bool) (f : CtapFrame) (s : Hid) :
    Hid :=
  let result := driverProcessUsbPacketHid env now button ok { s with rx := f }
  if result.2 = 0 then driverProcessUsbNopacketHid now result.1 else result.1

/-! ### The task -/

/-- A report has been sent, and there is more of the response. -/
def hidContinue (req : CtapFrame) (s : Hid) : Hid :=
  let resp := s.resp + (64 - 5)
  let seq := if req.isInit then 0 else (req.type &&& 0x7f) + 1
  { s with
    resp := resp
    tx := s.tx.write resp (leBytes 4 req.cid.toNat ++ [seq])
    rPtr := s.rPtr + (64 - 5) }

/-- What a report takes off `send_buffer_size`. -/
def reportSize (req : CtapFrame) : ℕ :=
  if req.isInit then
    if req.type ≠ ctaphidKeepalive then 64 - 7 else 0
  else
    64 - 5

/-- The report has been sent: `last_write_result` and `send_buffer_size`. -/
def hidWritten (req : CtapFrame) (s : Hid) : Hid :=
  if s.lastWriteResult = .pending then
    { s with
      lastWriteResult := .success
      sendBufferSize := s.sendBufferSize - min (reportSize req) s.sendBufferSize }
  else
    s

/-- Go on with the response behind a report of it. -/
def hidAdvance (req : CtapFrame) (s : Hid) : Hid :=
  if s.lastWriteResult = .success ∧ (¬ req.isInit ∨ req.type ≠ ctaphidKeepalive) then
    if 0 < s.sendBufferSize then hidContinue req s else { s with rPtr := s.rPtr + 64 }
  else
    s

/-- A report that is not a busy reply has been sent. -/
def hidReportSent (req : CtapFrame) (s : Hid) : Hid :=
  let s' := hidAdvance req (hidWritten req s)
  if s'.rPtr ≥ s'.wPtr then { s' with rPtr := 0, wPtr := 0 } else s'

/-- `tud_hid_report_complete_cb`, for the report that is on its way. -/
def tudHidReportCompleteCb : Hid :=
  match s.report with
  | none => s
  | some req =>
    let s' := { s with report := none }
    if s.busyInflight then
      { s' with busyInflight := false, lastWriteResult := .success }
    else
      hidReportSent req s'

/-- What `card_status` says of the worker. -/
inductive CardStatus where
  /-- Nothing. -/
  | none
  /-- It is at work. -/
  | blocked
  /-- It has finished, with `finished_data_size` and `apdu.sw`. -/
  | finished (size : ℕ) (sw : UInt16)
  deriving DecidableEq, Repr

/-- What a call of `hid_task` gets from outside. -/
structure HidTick where
  /-- `board_millis`. -/
  now : UInt32
  /-- `card_status`. -/
  status : CardStatus
  /-- `is_req_button_pending`. -/
  button : Bool
  /-- The USB stack takes a busy reply. -/
  busyOk : Bool
  /-- The USB stack takes a keepalive. -/
  keepaliveOk : Bool
  /-- The USB stack takes a report of the response. -/
  responseOk : Bool
  deriving DecidableEq

/-- Write the busy reply. -/
def taskBusy : Hid :=
  match s.busyResponse with
  | none => s
  | some f =>
    if s.lastWriteResult = .pending then
      s
    else if ok then
      { driverWriteHid ok f s with busyInflight := true, busyResponse := none }
    else
      { driverWriteHid ok f s with busyInflight := false }

/-- Look after the worker. -/
def taskStatus (t : HidTick) (s : Hid) : Hid :=
  match t.status with
  | .none => s
  | .blocked => sendKeepalive t.now t.button t.keepaliveOk s
  | .finished size sw => driverExecFinishedHid size sw s

/-- Write a report of the response. -/
def taskWrite : Hid :=
  if s.rPtr < s.wPtr ∧ s.lastWriteResult ≠ .pending then
    driverWriteHid ok (.ofBytes (slice s.tx.1 s.rPtr hidRptSize)) s
  else
    s

def hidTask (t : HidTick) (s : Hid) : Hid :=
  taskWrite t.responseOk (taskStatus t (taskBusy t.busyOk (driverProcessUsbNopacketHid t.now s)))

/-! ### Runs -/

/-- What happens to the driver. -/
inductive HidEvent where
  /-- A frame comes in; `ok` is whether the USB stack takes a report that is written then. -/
  | frame (now : UInt32) (button ok : Bool) (f : CtapFrame)
  /-- The task is called. -/
  | task (t : HidTick)
  /-- The host has got the report. -/
  | complete
  /-- The worker writes to the response. -/
  | worker (off : ℕ) (bytes : Bytes)
  deriving DecidableEq

/-- One event. -/
def hidStep : HidEvent → Hid
  | .frame now button ok f => tudHidSetReportCb env now button ok f s
  | .task t => hidTask t s
  | .complete => tudHidReportCompleteCb s
  | .worker off bytes => { s with tx := s.tx.write off bytes }

def hidRun (es : List HidEvent) : Hid :=
  es.foldl (hidStep env) s

/-- The driver after power-up. -/
def hidPowerUp : Hid where
  packet := ⟨0, [], .padded 0 0 [], 0, 0, 0⟩
  lastPacketTime := 0
  lock := 0
  lockCid := 0
  nextCid := 1
  rx := .padded 0 0 []
  reqIsLast := false
  tx := .cleared
  wPtr := 0
  rPtr := 0
  resp := 0
  sendBufferSize := 0
  lastWriteResult := .unknown
  report := none
  busyResponse := none
  busyInflight := false
  threadType := 0
  worker := none
  isNk := false
  cborActive := false
  cborRequest := (0, [])
  cancelPending := false
  cancelButton := false
  lastKeepaliveTime := 0
  sent := []
  handed := []

end PicoAll
