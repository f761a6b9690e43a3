import PicoAll.Transport.ApduResponse

/-!
# Reassembly over the smart card interface

The bytes of all messages go into one buffer, behind what is there. After each read the driver looks
at one message: it handles it if all of it is there, and puts its pointers back to the start when
nothing is left. A second message of the same read waits for the next one, what is left of a message
when the buffer is full is dropped, and a length that is too great puts the pointers back in the
middle of the message.

So the messages come out whole, once and in order, over every run in which no read completes two
messages, finds the buffer full, or brings the header of a message that is too long
(`ccid_reassembly_law`).

Handling a message is taken to leave `ccid_rx` alone. It does unless it ends a chain of commands: the
data of a chain are put together behind the header of the last message (`apdu.c`), over what has come
in there, and 2034 to 2037 bytes of them reach `r_ptr` and `w_ptr`.
-/

namespace PicoAll

open BigEndian ByteBuffer List

/-! ### Messages -/

/-- `dwLength`. -/
def ccidDwLength (message : Bytes) : ℕ :=
  leNat ((message.drop 1).take 4)

/-- A message: a header of ten bytes, and as many bytes as it says. -/
abbrev CcidMessage :=
  { bytes : Bytes // 10 ≤ bytes.length ∧ bytes.length = ccidDwLength bytes + 10 }

/-- No whole message is there. -/
def CcidIncomplete (bytes : Bytes) : Prop :=
  bytes.length < 10 ∨ bytes.length < ccidDwLength bytes + 10

instance (bytes : Bytes) : Decidable (CcidIncomplete bytes) :=
  inferInstanceAs (Decidable (_ ∨ _))

/-! ### The driver -/

/-- What the driver does with what it gets. -/
inductive CcidEvent where
  /-- A message is handled. -/
  | message (bytes : Bytes)
  /-- A message is answered with `6F00`, for its length. -/
  | invalidLength (seq : UInt8)
  deriving DecidableEq

/-- `ccid_rx`, and what the driver has done. -/
structure CcidRx where
  /-- The bytes of `buffer` before `w_ptr`. -/
  buffer : Bytes := []
  rPtr : ℕ := 0
  /-- What the driver has done. -/
  events : List CcidEvent := []
  deriving DecidableEq

variable (s : CcidRx)

/-- The bytes from `r_ptr` to `w_ptr`. -/
def CcidRx.unread : Bytes :=
  s.buffer.drop s.rPtr

/-- `r_ptr = w_ptr = 0`. -/
def CcidRx.reset : CcidRx :=
  { s with buffer := [], rPtr := 0 }

/-- `driver_process_usb_packet_ccid`: the message at the start of the buffer, once it is whole. -/
def driverProcessUsbPacketCcid : CcidRx :=
  if s.unread.length ≥ 10 then
    if ccidDwLength s.unread > usbBufferSize - 10 then
      { s.reset with events := s.events ++ [.invalidLength (s.unread.getD 6 0)] }
    else if ccidDwLength s.unread ≤ s.unread.length - 10 then
      let moved := { s with rPtr := s.rPtr + (ccidDwLength s.unread + 10) }
      let moved := if moved.rPtr ≥ moved.buffer.length then moved.reset else moved
      { moved with
        events := s.events ++ [.message (s.unread.take (ccidDwLength s.unread + 10))] }
    else
      s
  else
    s

/-- The buffer as it is read into: a full one is emptied. -/
def CcidRx.roomMade : CcidRx :=
  if usbBufferSize - s.buffer.length = 0 then s.reset else s

/-- The body of the loop, when these bytes are read. -/
def ccidRead (bytes : Bytes) : CcidRx :=
  let filled := { s.roomMade with buffer := s.roomMade.buffer ++ bytes }
  let processed := driverProcessUsbPacketCcid filled
  if processed.buffer.length = usbBufferSize ∧ processed.rPtr = 0 then
    processed.reset
  else
    processed

/-- How many bytes are read. -/
def ccidReadLength (available : Bytes) : ℕ :=
  min available.length (usbBufferSize - s.roomMade.buffer.length)

/-- The loop: the reads, each with the state before it, and the state after them. -/
def ccidLoop : ℕ → CcidRx → Bytes → List (CcidRx × Bytes) × CcidRx
  | turns, s, available =>
    let bytes := available.take (ccidReadLength s available)
    let rest := available.drop (ccidReadLength s available)
    match turns with
    | 0 => ([(s, bytes)], ccidRead s bytes)
    | turns + 1 =>
      if rest.length > 0 then
        ((s, bytes) :: (ccidLoop turns (ccidRead s bytes) rest).1,
          (ccidLoop turns (ccidRead s bytes) rest).2)
      else
        ([(s, bytes)], ccidRead s bytes)

/-- `tud_vendor_rx_cb`, with its reads. -/
def tudVendorRxCb (available : Bytes) : List (CcidRx × Bytes) × CcidRx :=
  ccidLoop available.length s available

/-- A run of the callback, over what is available each time. -/
def ccidRun : CcidRx → List Bytes → List (CcidRx × Bytes) × CcidRx
  | s, [] => ([], s)
  | s, available :: later =>
    ((tudVendorRxCb s available).1 ++ (ccidRun (tudVendorRxCb s available).2 later).1,
      (ccidRun (tudVendorRxCb s available).2 later).2)

/-! ### What is to hold, and when -/

/-- A read that finds room, brings no header of a message that is too long, and completes no second
message. -/
structure CcidReadFits (s : CcidRx) (bytes : Bytes) : Prop where
  room : s.buffer.length < usbBufferSize
  short : 10 ≤ (s.unread ++ bytes).length → ccidDwLength (s.unread ++ bytes) ≤ usbBufferSize - 10
  single : ¬CcidIncomplete (s.unread ++ bytes) →
    CcidIncomplete ((s.unread ++ bytes).drop (ccidDwLength (s.unread ++ bytes) + 10))

/-! ### One read -/

/-- What holds of the state when these bytes have come in. -/
structure CcidHolds (received : Bytes) (s : CcidRx) : Prop where
  bound : s.buffer.length ≤ usbBufferSize
  pointer : s.rPtr ≤ s.buffer.length
  incomplete : CcidIncomplete s.unread
  stream : ∃ messages : List CcidMessage, received = messages.flatMap (·.val) ++ s.unread ∧
    s.events = messages.map (.message ·.val)

section Read

variable {s : CcidRx} {received bytes : Bytes}

theorem driverProcessUsbPacketCcid_incomplete (h : CcidIncomplete s.unread)
    (hshort : 10 ≤ s.unread.length → ccidDwLength s.unread ≤ usbBufferSize - 10) :
    driverProcessUsbPacketCcid s = s := by
  rw [driverProcessUsbPacketCcid]
  split_ifs with hheader hlong hall
  · exact absurd (hshort hheader) (not_le.mpr hlong)
  · rcases h with h | h <;> omega
  · rfl
  · rfl

theorem length_unread : s.unread.length = s.buffer.length - s.rPtr :=
  length_drop

/-- **A message that is there** is handled, and the rest stays. -/
theorem driverProcessUsbPacketCcid_complete (h : ¬CcidIncomplete s.unread)
    (hshort : ccidDwLength s.unread ≤ usbBufferSize - 10) :
    let s' := driverProcessUsbPacketCcid s
    s'.events = s.events ++ [.message (s.unread.take (ccidDwLength s.unread + 10))] ∧
      s'.unread = s.unread.drop (ccidDwLength s.unread + 10) ∧
      s'.buffer.length ≤ s.buffer.length ∧ s'.rPtr ≤ s'.buffer.length ∧
      (s'.rPtr = 0 → s'.buffer = []) := by
  obtain ⟨hheader, hall⟩ := not_or.mp h
  have hunread := length_unread (s := s)
  rw [driverProcessUsbPacketCcid, if_pos (by omega), if_neg (by omega), if_pos (by omega)]
  by_cases hend : s.rPtr + (ccidDwLength s.unread + 10) ≥ s.buffer.length
  · simp only [if_pos hend]
    refine ⟨trivial, ?_, Nat.zero_le _, le_rfl, fun _ ↦ rfl⟩
    rw [drop_eq_nil_iff.mpr (by omega)]
    rfl
  · simp only [if_neg hend]
    refine ⟨trivial, ?_, le_rfl, by omega, fun hzero ↦ absurd hzero (by omega)⟩
    rw [CcidRx.unread, CcidRx.unread, drop_drop]

/-- The header of a message says how long it is. -/
theorem ccidDwLength_take {n : ℕ} (h : 5 ≤ n) :
    ccidDwLength (bytes.take n) = ccidDwLength bytes := by
  rw [ccidDwLength, ccidDwLength, drop_take, take_take, Nat.min_eq_left (by omega)]

theorem ccidFirst_spec (h : ¬CcidIncomplete bytes) :
    10 ≤ (bytes.take (ccidDwLength bytes + 10)).length ∧
      (bytes.take (ccidDwLength bytes + 10)).length =
        ccidDwLength (bytes.take (ccidDwLength bytes + 10)) + 10 := by
  obtain ⟨-, hall⟩ := not_or.mp h
  rw [ccidDwLength_take (by omega), length_take_of_le (by omega)]
  omega

/-- The message that is handled. -/
def ccidFirst (bytes : Bytes) (h : ¬CcidIncomplete bytes) : CcidMessage :=
  ⟨bytes.take (ccidDwLength bytes + 10), ccidFirst_spec h⟩

/-- **One read** keeps what holds. -/
theorem CcidHolds.read (h : CcidHolds received s) (hfits : CcidReadFits s bytes)
    (hlen : s.buffer.length + bytes.length ≤ usbBufferSize) :
    CcidHolds (received ++ bytes) (ccidRead s bytes) := by
  obtain ⟨hbound, hpointer, hincomplete, messages, hreceived, hevents⟩ := h
  have hroom : s.roomMade = s := if_neg (by have hroom := hfits.room; omega)
  have hunread : CcidRx.unread { s with buffer := s.buffer ++ bytes } = s.unread ++ bytes :=
    drop_append_of_le_length hpointer
  rw [ccidRead, hroom]
  generalize hfilled : ({ s with buffer := s.buffer ++ bytes } : CcidRx) = filled at *
  have hfilledBuffer : filled.buffer = s.buffer ++ bytes := by rw [← hfilled]
  have hfilledPointer : filled.rPtr = s.rPtr := by rw [← hfilled]
  have hfilledEvents : filled.events = s.events := by rw [← hfilled]
  obtain ⟨-, hshort, hsingle⟩ := hfits
  rw [← hunread] at hshort hsingle
  have hlength := length_unread (s := filled)
  have hstream : received ++ bytes = messages.flatMap (·.val) ++ filled.unread := by
    rw [hreceived, hunread, append_assoc]
  by_cases hwhole : CcidIncomplete filled.unread
  · have hprocessed := driverProcessUsbPacketCcid_incomplete hwhole hshort
    have hend : ¬(filled.buffer.length = usbBufferSize ∧ filled.rPtr = 0) := by
      -- a full buffer holds a whole message
      rintro ⟨hfull, hzero⟩
      have hsize : usbBufferSize = 2048 := rfl
      have hle := hshort (by omega)
      rcases hwhole with hwhole | hwhole <;> omega
    rw [hprocessed, if_neg hend]
    refine ⟨by simpa [hfilledBuffer] using hlen, ?_, hwhole, messages, hstream,
      hfilledEvents.trans hevents⟩
    rw [hfilledBuffer, hfilledPointer, length_append]
    omega
  · have hheader : 10 ≤ filled.unread.length := not_lt.mp (not_or.mp hwhole).1
    obtain ⟨hdone, hrest, hle, hptr, hzero⟩ :=
      driverProcessUsbPacketCcid_complete hwhole (hshort hheader)
    generalize driverProcessUsbPacketCcid filled = processed at *
    have hend : ¬(processed.buffer.length = usbBufferSize ∧ processed.rPtr = 0) := by
      rintro ⟨hfull, hstart⟩
      rw [hzero hstart] at hfull
      cases hfull
    rw [if_neg hend]
    refine ⟨?_, hptr, hrest ▸ hsingle hwhole, messages ++ [ccidFirst filled.unread hwhole], ?_, ?_⟩
    · rw [hfilledBuffer, length_append] at hle
      omega
    · rw [hstream, flatMap_append, append_assoc, hrest]
      simp [ccidFirst]
    · rw [hdone, hfilledEvents, hevents, map_append]
      rfl

end Read

/-! ### Runs -/

section Run

variable {s : CcidRx} {received : Bytes}

/-- **The reads of one callback** keep what holds, and read all that is there. -/
theorem CcidHolds.loop (turns : ℕ) (available : Bytes) (h : CcidHolds received s)
    (hturns : available.length ≤ turns)
    (hfits : ∀ read ∈ (ccidLoop turns s available).1, CcidReadFits read.1 read.2) :
    CcidHolds (received ++ available) (ccidLoop turns s available).2 := by
  induction turns generalizing s received available with
  | zero =>
    obtain rfl := eq_nil_of_length_eq_zero (Nat.le_zero.mp hturns)
    have hread := hfits _ (mem_singleton_self _)
    simpa [ccidLoop] using h.read hread (by simpa using h.bound)
  | succ turns ih =>
    have hread : CcidReadFits s (available.take (ccidReadLength s available)) := by
      refine hfits (s, _) ?_
      rw [ccidLoop]
      split_ifs <;> simp
    have hroom := hread.room
    have hmade : s.roomMade = s := if_neg (by omega)
    have hcount : ccidReadLength s available =
        min available.length (usbBufferSize - s.buffer.length) := by
      rw [ccidReadLength, hmade]
    have htake := length_take_of_le (hcount ▸ min_le_left available.length _ :
      ccidReadLength s available ≤ available.length)
    have hnext := h.read hread (by omega)
    have hsplit := take_append_drop (ccidReadLength s available) available
    rw [ccidLoop] at hfits ⊢
    by_cases hmore : (available.drop (ccidReadLength s available)).length > 0
    · simp only [if_pos hmore] at hfits ⊢
      obtain ⟨-, hlater⟩ := forall_mem_cons.mp hfits
      have hfewer : (available.drop (ccidReadLength s available)).length ≤ turns := by
        rw [length_drop] at hmore ⊢
        omega
      have hdone := ih _ hnext hfewer hlater
      rwa [append_assoc, hsplit] at hdone
    · simp only [if_neg hmore]
      rw [eq_nil_of_length_eq_zero (Nat.eq_zero_of_not_pos hmore), append_nil] at hsplit
      rwa [hsplit] at hnext ⊢

/-- **A run** keeps what holds. -/
theorem CcidHolds.run (chunks : List Bytes) (h : CcidHolds received s)
    (hfits : ∀ read ∈ (ccidRun s chunks).1, CcidReadFits read.1 read.2) :
    CcidHolds (received ++ chunks.flatten) (ccidRun s chunks).2 := by
  induction chunks generalizing s received with
  | nil => simpa [ccidRun] using h
  | cons available later ih =>
    obtain ⟨hnow, hlater⟩ := forall_mem_append.mp hfits
    have hnext := h.loop available.length available le_rfl hnow
    rw [flatten_cons, ← append_assoc]
    exact ih hnext hlater

end Run

end PicoAll
