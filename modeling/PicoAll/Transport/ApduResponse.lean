import PicoAll.Transport.Apdu
import PicoAll.Lib.ByteBuffer

/-!
# Response chaining

A handler writes its response to the buffer that the transport sends from, and `apdu_finish` puts the
status word behind it. If the response is longer than the command allows, `apdu_next` sends a part of
it: the status `61xx` goes over the bytes that come next, which are kept aside, and a GET RESPONSE
puts them back and goes on from there.

Where a response lies in the buffer, and what is sent of it, is the business of the transport. The
smart card driver puts a header of ten bytes before the part it sends, the HID driver one of seven;
the latter also clears the start of the buffer for every frame that comes in, and takes the place of
the part from the start of the buffer, where `apdu_process` counts from the start of the response.

Over the smart card interface the parts put together are the response. Over HID they are not, once
there is more than one (`apdu_responses_chained`).
-/

namespace PicoAll

open BigEndian ByteBuffer

abbrev usbBufferSize : ℕ := 2048

/-- A buffer that responses are sent from. -/
abbrev TxBuffer := { tx : Bytes // tx.length = usbBufferSize }

theorem TxBuffer.length_cleared : (List.replicate usbBufferSize 0 : Bytes).length = usbBufferSize :=
  List.length_replicate

/-- A buffer that nothing has been written to. -/
def TxBuffer.cleared : TxBuffer :=
  ⟨List.replicate usbBufferSize 0, TxBuffer.length_cleared⟩

/-- The transports. -/
inductive Transport where
  /-- `ITF_CCID` or `ITF_WCID`. -/
  | ccid
  /-- `ITF_HID`, for a `CTAPHID_MSG`. -/
  | hid
  deriving DecidableEq, Repr

/-- What a transport repeats in the header of a response. -/
structure ResponseTag where
  /-- `bSeq`. -/
  seq : UInt8
  /-- `ccid_status`. -/
  status : UInt8
  cid : UInt32
  /-- `last_cmd`. -/
  cmd : UInt8

/-- Where the response of a handler starts, which is after a header. -/
def Transport.rdata : Transport → ℕ
  | ccid => 10
  | hid => 7

/-- The header of a response. -/
def Transport.header (t : Transport) (tag : ResponseTag) (size : ℕ) : Bytes :=
  match t with
  | ccid => [0x80] ++ leBytes 4 size ++ [0, tag.seq, tag.status, 0, 0]
  | hid => leBytes 4 tag.cid.toNat ++ [tag.cmd] ++ beBytes 2 size

/-- What the driver does to the buffer when a command comes in. -/
def Transport.arrive (t : Transport) (tx : Bytes) : Bytes :=
  match t with
  | ccid => tx
  | hid => patch tx 0 (List.replicate 64 0)

/-- What `apdu.c` has of a response. -/
structure ApduResponse where
  /-- The buffer; `rdata` is at the transport's place in it. -/
  tx : Bytes
  sw : UInt16
  rlen : ℕ
  /-- `rdata_gr`, from `rdata` on. -/
  rdataGr : ℕ
  /-- `rdata_bk`: its two bytes. -/
  rdataBk : Bytes
  responsePending : Bool

/-- The bytes of a status word. -/
def swBytes (sw : UInt16) : Bytes :=
  beBytes 2 sw.toNat

/-- The bytes of the status `61xx`, with the number of bytes left. -/
def swRemaining (n : ℕ) : Bytes :=
  [0x61, if n ≥ 256 then 0 else UInt8.ofNat n]

section Response

variable (t : Transport) (tag : ResponseTag)

def apduFinish (s : ApduResponse) : ApduResponse :=
  { s with tx := patch s.tx (t.rdata + s.rlen) (swBytes s.sw) }

/-- The status `61xx` goes over what comes next, at `gr`, with `n` bytes left. -/
def apduMark (gr n : ℕ) (s : ApduResponse) : ApduResponse :=
  { s with
    tx := patch s.tx (t.rdata + gr) (swRemaining n)
    rdataGr := gr
    rdataBk := slice s.tx (t.rdata + gr) 2
    responsePending := true }

/-- `apdu_next`: the next part of a response, for GET RESPONSE. -/
def apduNext (ne : ℕ) (s : ApduResponse) : ℕ × ApduResponse :=
  if s.sw ≠ 0 then
    if s.rlen ≤ ne then
      ((s.rlen + 2) % 65536, { s with responsePending := false })
    else
      ((ne + 2) % 65536, { apduMark t ne (s.rlen - ne) s with rlen := s.rlen - ne })
  else
    (0, { s with responsePending := false })

def apduLimitResponse (sizeNext maxSize : ℕ) (s : ApduResponse) : ℕ × ApduResponse :=
  if s.sw = 0 ∨ maxSize < 2 ∨ sizeNext ≤ maxSize then
    (sizeNext, s)
  else
    let ne := maxSize - 2
    if s.rlen ≤ ne then (sizeNext, s)
    else (maxSize, { apduMark t ne (s.rlen - ne) s with rlen := s.rlen - ne })

/-! ### The drivers -/

abbrev ccidMaxXfrBlockDataSize : ℕ := usbBufferSize - 10

/-- `driver_exec_finished_cont_ccid`: what is sent. -/
def driverExecFinishedContCcid (sizeNext offset : ℕ) (s : ApduResponse) : Bytes × ApduResponse :=
  let limited :=
    if offset = 0 then apduLimitResponse .ccid sizeNext ccidMaxXfrBlockDataSize s
    else (min sizeNext ccidMaxXfrBlockDataSize, s)
  let tx := patch limited.2.tx offset (Transport.ccid.header tag limited.1)
  (slice tx (offset + 10) limited.1, { limited.2 with tx })

/-- `driver_exec_finished_cont_hid`: what is sent. There is nothing to be said of a header or a
response outside of the buffer. -/
def driverExecFinishedContHid (sizeNext offset : ℕ) (s : ApduResponse) :
    Option Bytes × ApduResponse :=
  let offset := (offset + 65536 - 7) % 65536
  if offset + 7 + sizeNext ≤ s.tx.length then
    let tx := patch s.tx offset (Transport.hid.header tag sizeNext)
    (some (slice tx (offset + 7) sizeNext), { s with tx })
  else
    (none, s)

/-- The end of a command: `driver_exec_finished_ccid` and `driver_exec_finished_hid`. -/
def driverExecFinished (sizeNext : ℕ) (s : ApduResponse) : Option Bytes × ApduResponse :=
  match t with
  | .ccid =>
    let sent := driverExecFinishedContCcid tag sizeNext 0 s
    (some sent.1, sent.2)
  | .hid =>
    let sent := driverExecFinishedContHid tag sizeNext 7 s
    (sent.1, { sent.2 with sw := 0 })

/-- The end of a GET RESPONSE. -/
def driverExecFinishedCont (sizeNext offset : ℕ) (s : ApduResponse) :
    Option Bytes × ApduResponse :=
  match t with
  | .ccid =>
    let sent := driverExecFinishedContCcid tag sizeNext offset s
    (some sent.1, sent.2)
  | .hid => driverExecFinishedContHid tag sizeNext offset s

/-! ### Commands -/

/-- A command that allows `ne` bytes, to which the handler responds with `body` and a status word. -/
def apduRespond (tx : Bytes) (ne : ℕ) (body : Bytes) (sw : UInt16) : Option Bytes × ApduResponse :=
  let handled : ApduResponse :=
    ⟨patch (t.arrive tx) t.rdata body, sw, body.length, 0, [], false⟩
  let next := apduNext t ne (apduFinish t handled)
  driverExecFinished t tag next.1 next.2

/-- `apdu_process` for a GET RESPONSE that allows `ne` bytes, while there is something left. -/
def apduGetResponse (ne : ℕ) (s : ApduResponse) : Option Bytes × ApduResponse :=
  let restored := { s with tx := patch (t.arrive s.tx) (t.rdata + s.rdataGr) s.rdataBk }
  if s.rlen ≤ ne then
    let sent := driverExecFinishedCont t tag ((s.rlen + 2) % 65536) s.rdataGr restored
    (sent.1, { sent.2 with sw := 0, rlen := 0, rdataGr := 0, responsePending := false })
  else
    let marked := apduMark t (s.rdataGr + ne) (s.rlen - ne) restored
    let sent := driverExecFinishedCont t tag ((ne + 2) % 65536) s.rdataGr marked
    (sent.1, { sent.2 with rlen := (sent.2.rlen + 65536 - ne) % 65536, responsePending := true })

end Response

/-- A GET RESPONSE. -/
structure GetResponse where
  /-- What the transport repeats in the response. -/
  tag : ResponseTag
  /-- The buffer that comes in. -/
  buffer : Bytes
  /-- The command that it holds. -/
  cmd : ApduCommand
  parse_eq : apduParse buffer = some cmd
  ins_eq : cmd.header.ins = 0xc0

/-- What GET RESPONSEs are answered with, as long as there is something left. -/
def apduGetResponses (t : Transport) (s : ApduResponse) : List GetResponse → List (Option Bytes)
  | [] => []
  | get :: gets =>
    if s.responsePending then
      let sent := apduGetResponse t get.tag get.cmd.ne s
      sent.1 :: apduGetResponses t sent.2 gets
    else
      []

/-- A response of a handler, with room for the status word behind it. -/
structure HandlerResponse (t : Transport) where
  /-- The data. -/
  body : Bytes
  /-- The status word. -/
  sw : UInt16
  sw_ne : sw ≠ 0
  fits : t.rdata + body.length + 2 ≤ usbBufferSize

/-- All that is sent for a command and the GET RESPONSEs after it. -/
def apduResponses {t : Transport} (tag : ResponseTag) (tx : TxBuffer) (ne : ℕ)
    (response : HandlerResponse t) (gets : List GetResponse) : List (Option Bytes) :=
  let sent := apduRespond t tag tx.1 ne response.body response.sw
  sent.1 :: apduGetResponses t sent.2 gets

end PicoAll
