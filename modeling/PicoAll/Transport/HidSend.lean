import PicoAll.Transport.HidReassembly

/-!
# Sending a response

`driver_exec_finished_cont_hid` puts a header before a response in the transmit buffer, and the task
sends it a report at a time; when one has gone out, the header of the next goes over the last bytes of
what has been sent. In between the buffer's last bytes are used for keepalives, and busy replies go
out by the same way.

`Sending m b k s` says that the buffer has the rest of the message `m` from its `k`-th frame on, and
`SendState` what is on its way to the host. Through tasks, reports that arrive, writes that fail and
are tried again, keepalives and busy replies the frames on the channel are those of the message, in
order (`hid_response_sent`). This is so for a response that fits, and if no report of another response
is on its way when it is handed over (`hid_response_lost`).
-/

namespace PicoAll

open BigEndian ByteBuffer Fragments List Nat Option

/-- The transmit buffer has a message from its `k`-th frame on, and the message begins at `b`. -/
structure Sending (m : HidMessage) (b k : ℕ) (s : Hid) : Prop where
  rPtr_eq : s.rPtr = b + 59 * k
  resp_eq : s.resp = b + 59 * k
  wPtr_eq : s.wPtr = b + m.payload.length + 7
  size_eq : s.sendBufferSize = m.payload.length - fragmentStart k
  fits : b + m.payload.length + 7 ≤ usbBufferSize
  needed : k = 0 ∨ fragmentStart k < m.payload.length
  header : slice s.tx.1 (b + 59 * k) 5 = leBytes 4 m.cid.toNat ++ [fragmentType m k]
  length : k = 0 → slice s.tx.1 (b + 5) 2 = beBytes 2 m.payload.length
  data : slice s.tx.1 (b + 7 + fragmentStart k) (m.payload.length - fragmentStart k) =
    m.payload.drop (fragmentStart k)

/-- A frame does not count as one of a response on its channel. -/
def CtapFrame.isKeepalive (f : CtapFrame) : Bool :=
  f.isInit && f.type = ctaphidKeepalive

theorem isKeepalive_padded (cid : UInt32) (data : Bytes) :
    (CtapFrame.padded cid ctaphidKeepalive data).isKeepalive = true := by
  show (ctaphidKeepalive &&& 0x80 == 0x80 && decide (ctaphidKeepalive = ctaphidKeepalive)) = true
  decide

/-- What is on its way to the host, if it is not a frame of the response. -/
structure LinkFree (p : CtapFrame → Bool) (s : Hid) : Prop where
  pending_iff : s.lastWriteResult = .pending ↔ s.report ≠ none
  inflight : s.busyInflight = true → s.report ≠ none
  report : ∀ f, s.report = some f → s.busyInflight = true ∨ f.isKeepalive = true
  busy : ∀ f, s.busyResponse = some f → p f = false
  time : s.lastPacketTime = 0

/-- A frame of the response is on its way. -/
structure LinkTaken (p : CtapFrame → Bool) (f : CtapFrame) (s : Hid) : Prop where
  pending : s.lastWriteResult = .pending
  inflight : s.busyInflight = false
  report : s.report = some f
  busy : ∀ f, s.busyResponse = some f → p f = false
  time : s.lastPacketTime = 0

/-- How far a response has been sent, when so many of its frames have been taken. -/
inductive SendState (p : CtapFrame → Bool) (m : HidMessage) (b : ℕ) (s : Hid) : ℕ → Prop where
  /-- The next frame is in the buffer. -/
  | ready (k : ℕ) (h : Sending m b k s) (hlink : LinkFree p s) : SendState p m b s k
  /-- It is on its way. -/
  | taken (k : ℕ) (h : Sending m b k s) (f : CtapFrame) (hf : IsFragment m k f)
      (hlink : LinkTaken p f s) : SendState p m b s (k + 1)
  /-- There are no more. -/
  | done (k : ℕ) (hlen : m.payload.length ≤ fragmentStart k) (hpos : 0 < k)
      (hr : s.rPtr = 0) (hw : s.wPtr = 0) (hsize : s.sendBufferSize = 0)
      (hlink : LinkFree p s) : SendState p m b s k

variable {p : CtapFrame → Bool} {m : HidMessage} {b k n : ℕ} {s s' : Hid} {f : CtapFrame}
  {now : UInt32} {button ok : Bool}

/-! ### The frame in the buffer -/

theorem fragmentStart_succ (k : ℕ) : fragmentStart (k + 1) = 57 + 59 * k :=
  rfl

/-- Some bytes less at the start of a slice. -/
theorem drop_slice (data : Bytes) (off len d : ℕ) :
    (slice data off len).drop d = slice data (off + d) (len - d) := by
  rw [slice, slice, drop_take, drop_drop]

/-- **The report that is next is a frame of the message.** -/
theorem Sending.isFragment (h : Sending m b k s) :
    IsFragment m k (.ofBytes (slice s.tx.1 s.rPtr hidRptSize)) := by
  have hfits := h.fits
  have hsplit : slice s.tx.1 s.rPtr hidRptSize =
      leBytes 4 m.cid.toNat ++ fragmentType m k :: slice s.tx.1 (b + 59 * k + 5) 59 := by
    rw [h.rPtr_eq, show hidRptSize = 5 + 59 from rfl, slice_add, h.header, append_assoc]
    rfl
  rw [hsplit, CtapFrame.ofBytes_eq_padded]
  have hdata := h.data
  have hlength := h.length
  have hlen : s.tx.1.length = usbBufferSize := s.tx.2
  cases k with
  | zero =>
    have hbody : slice s.tx.1 (b + 59 * 0 + 5) 59 =
        beBytes 2 m.payload.length ++ (s.tx.1.drop (b + 7)).take 57 := by
      rw [← hlength rfl, show 59 = 2 + 57 from rfl, slice_add]
      rfl
    rw [hbody]
    refine isFragment_first (by simp only [usbBufferSize] at hfits; omega) ?_ hdata.symm
    rw [length_drop, hlen]
    omega
  | succ k =>
    have hneeded := h.needed.resolve_left (succ_ne_zero k)
    refine isFragment_next hneeded ?_ ?_ (r := m.payload.length - fragmentStart (k + 1))
    · rw [length_drop, hlen, fragmentStart_succ]
      omega
    · rw [← hdata, slice, fragmentStart_succ]
      congr 2
      omega

/-! ### What does not concern the response -/

/-- The transmit buffer has the same up to some place. -/
structure SameBelow (l : ℕ) (s s' : Hid) : Prop where
  rPtr_eq : s'.rPtr = s.rPtr
  resp_eq : s'.resp = s.resp
  wPtr_eq : s'.wPtr = s.wPtr
  size_eq : s'.sendBufferSize = s.sendBufferSize
  slice_eq : ∀ off len, off + len ≤ l → slice s'.tx.1 off len = slice s.tx.1 off len

variable {l : ℕ}

theorem SameBelow.of_tx_eq (hr : s'.rPtr = s.rPtr) (hresp : s'.resp = s.resp)
    (hw : s'.wPtr = s.wPtr) (hsize : s'.sendBufferSize = s.sendBufferSize) (htx : s'.tx = s.tx) :
    SameBelow l s s' :=
  ⟨hr, hresp, hw, hsize, fun off len _ ↦ by rw [htx]⟩

/-- The header of a frame that is needed does not go past the end of the message. -/
theorem Sending.header_le (h : Sending m b k s) :
    b + 59 * k + 5 ≤ b + m.payload.length + 7 ∧ fragmentStart k ≤ m.payload.length := by
  cases k with
  | zero => exact ⟨by omega, zero_le _⟩
  | succ k =>
    have hneeded := h.needed.resolve_left (succ_ne_zero k)
    rw [fragmentStart_succ] at hneeded ⊢
    omega

theorem Sending.congr (h : Sending m b k s) (hsame : SameBelow (b + m.payload.length + 7) s s') :
    Sending m b k s' := by
  obtain ⟨hheader, hstart⟩ := h.header_le
  refine ⟨hsame.rPtr_eq.trans h.rPtr_eq, hsame.resp_eq.trans h.resp_eq,
    hsame.wPtr_eq.trans h.wPtr_eq, hsame.size_eq.trans h.size_eq, h.fits, h.needed, ?_, fun hk ↦ ?_,
    ?_⟩
  · rw [hsame.slice_eq _ _ hheader, h.header]
  · rw [hsame.slice_eq _ _ (by omega), h.length hk]
  · rw [hsame.slice_eq _ _ (by omega), h.data]

/-- The way to the host is the same. -/
structure SameLink (s s' : Hid) : Prop where
  lastWriteResult_eq : s'.lastWriteResult = s.lastWriteResult
  report_eq : s'.report = s.report
  inflight_eq : s'.busyInflight = s.busyInflight
  busy_eq : s'.busyResponse = s.busyResponse
  time_eq : s'.lastPacketTime = s.lastPacketTime

theorem LinkFree.congr (h : LinkFree p s) (hsame : SameLink s s') : LinkFree p s' := by
  refine ⟨?_, ?_, ?_, ?_, ?_⟩
  · rw [hsame.lastWriteResult_eq, hsame.report_eq]
    exact h.pending_iff
  · rw [hsame.inflight_eq, hsame.report_eq]
    exact h.inflight
  · rw [hsame.report_eq, hsame.inflight_eq]
    exact h.report
  · rw [hsame.busy_eq]
    exact h.busy
  · rw [hsame.time_eq]
    exact h.time

theorem LinkTaken.congr (h : LinkTaken p f s) (hsame : SameLink s s') : LinkTaken p f s' :=
  ⟨hsame.lastWriteResult_eq.trans h.pending, hsame.inflight_eq.trans h.inflight,
    hsame.report_eq.trans h.report, hsame.busy_eq ▸ h.busy, hsame.time_eq.trans h.time⟩

section

variable (h : SendState p m b s n)
include h

/-- The response is where it was, whatever comes over the way to the host. -/
theorem SendState.congr_link (hsame : SameBelow (b + m.payload.length + 7) s s')
    (hfree : LinkFree p s → LinkFree p s') (htaken : ∀ f, LinkTaken p f s → LinkTaken p f s') :
    SendState p m b s' n := by
  cases h with
  | ready _ h hlink => exact .ready n (h.congr hsame) (hfree hlink)
  | taken k h f hf hlink => exact .taken k (h.congr hsame) f hf (htaken f hlink)
  | done _ hlen hpos hr hw hsize hlink =>
    exact .done n hlen hpos (hsame.rPtr_eq.trans hr) (hsame.wPtr_eq.trans hw)
      (hsame.size_eq.trans hsize) (hfree hlink)

theorem SendState.congr (hsame : SameBelow (b + m.payload.length + 7) s s')
    (hlink : SameLink s s') : SendState p m b s' n :=
  h.congr_link hsame (·.congr hlink) fun _ h ↦ h.congr hlink

theorem SendState.time : s.lastPacketTime = 0 := by
  cases h with
  | ready _ _ hlink => exact hlink.time
  | taken _ _ _ _ hlink => exact hlink.time
  | done _ _ _ _ _ _ hlink => exact hlink.time

theorem SendState.busy : ∀ f, s.busyResponse = some f → p f = false := by
  cases h with
  | ready _ _ hlink => exact hlink.busy
  | taken _ _ _ _ hlink => exact hlink.busy
  | done _ _ _ _ _ _ hlink => exact hlink.busy

end

/-- Nothing is on its way if a report can be written. -/
theorem LinkFree.report_eq_none (h : LinkFree p s)
    (hwrite : s.lastWriteResult ≠ .pending) : s.report = none := by
  by_contra hreport
  exact hwrite (h.pending_iff.mpr hreport)

/-! ### What has been sent -/

/-- The frames that have been sent since then are those of the message, as far as it has been sent,
of those that count. -/
def SendInv (p : CtapFrame → Bool) (m : HidMessage) (b : ℕ) (sent₀ : List CtapFrame) (s : Hid) :
    Prop :=
  ∃ new, s.sent = sent₀ ++ new ∧ SendState p m b s (new.filter p).length ∧
    ∀ k f, (new.filter p)[k]? = some f → IsFragment m k f

/-- The frames of a message count, and keepalives do not. -/
structure Counts (p : CtapFrame → Bool) (m : HidMessage) : Prop where
  fragment : ∀ k f, IsFragment m k f → p f = true
  keepalive : ∀ f, f.isKeepalive = true → p f = false

variable {sent₀ : List CtapFrame}

theorem SendInv.quiet (h : SendInv p m b sent₀ s) (hsent : s'.sent = s.sent)
    (hstate : ∀ n, SendState p m b s n → SendState p m b s' n) : SendInv p m b sent₀ s' := by
  obtain ⟨new, hnew, hold, hfrag⟩ := h
  exact ⟨new, hsent.trans hnew, hstate _ hold, hfrag⟩

/-- A report that does not belong to the response is sent. -/
theorem SendInv.other (h : SendInv p m b sent₀ s) (hsent : s'.sent = s.sent ++ [f])
    (hf : p f = false)
    (hstate : ∀ n, SendState p m b s n → SendState p m b s' n) : SendInv p m b sent₀ s' := by
  obtain ⟨new, hnew, hold, hfrag⟩ := h
  have hframes : (new ++ [f]).filter p = new.filter p := by
    rw [filter_append, filter_singleton, hf]
    exact append_nil _
  refine ⟨new ++ [f], by rw [hsent, hnew, append_assoc], ?_, ?_⟩
  · rw [hframes]
    exact hstate _ hold
  · rw [hframes]
    exact hfrag

theorem isMessageCommand.type {c : UInt8} (h : isMessageCommand c) :
    c &&& 0x80 = 0x80 ∧ c ≠ ctaphidKeepalive ∧ c ≠ ctaphidError := by
  have hbyte : ∀ n : Fin 256, isMessageCommand (UInt8.ofNat n) →
      UInt8.ofNat n &&& 0x80 = 0x80 ∧ UInt8.ofNat n ≠ ctaphidKeepalive ∧
        UInt8.ofNat n ≠ ctaphidError := by
    unfold isMessageCommand
    decide +kernel
  have hc := hbyte ⟨c.toNat, c.toNat_lt⟩
  rw [UInt8.ofNat_toNat] at hc
  exact hc h

/-- A frame of a message has neither the command of a keepalive nor that of an error. -/
theorem IsFragment.type_ne (h : IsFragment m k f) (hcmd : isMessageCommand m.cmd)
    (hlen : m.payload.length ≤ usbBufferSize) :
    f.type ≠ ctaphidKeepalive ∧ f.type ≠ ctaphidError := by
  rw [h.type_eq, fragmentType]
  split_ifs with hk
  · exact hcmd.type.2
  · -- the sequence number is at most 33
    have hneeded := h.needed.resolve_left hk
    obtain ⟨j, rfl⟩ := exists_eq_succ_of_ne_zero hk
    rw [succ_eq_add_one, fragmentStart_succ] at hneeded
    simp only [usbBufferSize] at hlen
    have hnat : (UInt8.ofNat (j.succ - 1)).toNat = j := by
      rw [UInt8.toNat_ofNat']
      omega
    refine ⟨fun hj ↦ ?_, fun hj ↦ ?_⟩
    · rw [hj, show ctaphidKeepalive.toNat = 187 from rfl] at hnat
      omega
    · rw [hj, show ctaphidError.toNat = 191 from rfl] at hnat
      omega

/-- A frame of a message is no keepalive. -/
theorem IsFragment.not_isKeepalive (h : IsFragment m k f) (hcmd : isMessageCommand m.cmd)
    (hlen : m.payload.length ≤ usbBufferSize) : f.isKeepalive = false := by
  rw [CtapFrame.isKeepalive, decide_eq_false (h.type_ne hcmd hlen).1, Bool.and_false]

/-- A frame of the response is sent. -/
theorem SendInv.fragment (h : SendInv p m b sent₀ s) (hcounts : Counts p m)
    (hsent : s'.sent = s.sent ++ [f])
    (hstate : ∀ n, SendState p m b s n → IsFragment m n f ∧ SendState p m b s' (n + 1)) :
    SendInv p m b sent₀ s' := by
  obtain ⟨new, hnew, hold, hfrag⟩ := h
  obtain ⟨hf, hstate'⟩ := hstate _ hold
  have hframes : (new ++ [f]).filter p = new.filter p ++ [f] := by
    rw [filter_append, filter_singleton, hcounts.fragment _ f hf]
    rfl
  refine ⟨new ++ [f], by rw [hsent, hnew, append_assoc], ?_, fun k g hg ↦ ?_⟩
  · rw [hframes, length_append, length_singleton]
    exact hstate'
  · rw [hframes] at hg
    rcases lt_or_ge k (new.filter p).length with hk | hk
    · rw [getElem?_append_left hk] at hg
      exact hfrag k g hg
    · rw [getElem?_append_right hk] at hg
      have hlast : k - (new.filter p).length = 0 := by
        by_contra hne
        rw [getElem?_eq_none (by simp; omega)] at hg
        cases hg
      rw [hlast] at hg
      obtain rfl : f = g := by simpa using hg
      obtain rfl : k = (new.filter p).length := by omega
      exact hf

/-! ### The operations -/

theorem driverWriteHid_of_pending (h : s.lastWriteResult = .pending) : driverWriteHid ok f s = s :=
  if_pos h

theorem driverWriteHid_true (h : s.lastWriteResult ≠ .pending) :
    driverWriteHid true f s =
      { s with lastWriteResult := .pending, report := some f, sent := s.sent ++ [f] } := by
  rw [driverWriteHid, if_neg h, if_pos rfl]

theorem driverWriteHid_false (h : s.lastWriteResult ≠ .pending) :
    driverWriteHid false f s = { s with lastWriteResult := .failed } := by
  rw [driverWriteHid, if_neg h, if_neg Bool.false_ne_true]

theorem LinkFree.failed (h : LinkFree p s) (hwrite : s.lastWriteResult ≠ .pending)
    {inflight : Bool} (hinflight : inflight = true → s.busyInflight = true) :
    LinkFree p { s with lastWriteResult := .failed, busyInflight := inflight } := by
  have hreport := h.report_eq_none hwrite
  refine ⟨⟨fun hp ↦ absurd hp (by simp), fun hne ↦ absurd hreport hne⟩, fun hi ↦
    h.inflight (hinflight hi), fun f hf ↦ ?_, h.busy, h.time⟩
  exact absurd (hreport.symm.trans hf) (by simp)

/-- A write that fails is as if it had not been tried. -/
theorem SendState.failed (h : SendState p m b s n) (hwrite : s.lastWriteResult ≠ .pending)
    {inflight : Bool} (hinflight : inflight = true → s.busyInflight = true) :
    SendState p m b { s with lastWriteResult := .failed, busyInflight := inflight } n := by
  exact h.congr_link (.of_tx_eq rfl rfl rfl rfl rfl) (fun hlink ↦ hlink.failed hwrite hinflight)
    fun f hlink ↦ absurd hlink.pending hwrite

theorem sendInv_nopacket (h : SendInv p m b sent₀ s) :
    SendInv p m b sent₀ (driverProcessUsbNopacketHid now s) := by
  obtain ⟨new, hnew, hold, hfrag⟩ := h
  rw [driverProcessUsbNopacketHid_eq, Hid.timedOut, hold.time]
  exact ⟨new, hnew, hold, hfrag⟩

theorem LinkFree.taskBusy (h : LinkFree p s) : LinkFree p (taskBusy ok s) := by
  unfold PicoAll.taskBusy
  cases s.busyResponse with
  | none => exact h
  | some f =>
    dsimp only
    by_cases hwrite : s.lastWriteResult = .pending
    · rw [if_pos hwrite]
      exact h
    rw [if_neg hwrite]
    cases ok with
    | true =>
      rw [if_pos rfl, driverWriteHid_true hwrite]
      exact ⟨⟨fun _ ↦ some_ne_none f, fun _ ↦ rfl⟩, fun _ ↦ some_ne_none f,
        fun _ _ ↦ .inl rfl, fun _ hnone ↦ absurd hnone (by simp), h.time⟩
    | false =>
      rw [if_neg Bool.false_ne_true, driverWriteHid_false hwrite]
      exact h.failed hwrite fun hfalse ↦ nomatch hfalse

/-- A busy reply, which does not count. -/
theorem sendInv_taskBusy (h : SendInv p m b sent₀ s) : SendInv p m b sent₀ (taskBusy ok s) := by
  have hbusy : ∀ f, s.busyResponse = some f → p f = false := by
    obtain ⟨new, -, hold, -⟩ := h
    exact hold.busy
  have hlink : LinkFree p s → LinkFree p (taskBusy ok s) := fun hlink ↦ hlink.taskBusy
  unfold taskBusy at hlink ⊢
  cases hresponse : s.busyResponse with
  | none => exact h
  | some f =>
    rw [hresponse] at hlink
    dsimp only at hlink ⊢
    by_cases hwrite : s.lastWriteResult = .pending
    · rw [if_pos hwrite]
      exact h
    rw [if_neg hwrite] at hlink ⊢
    cases ok with
    | true =>
      rw [if_pos rfl, driverWriteHid_true hwrite] at hlink ⊢
      exact h.other rfl (hbusy f hresponse) fun n hstate ↦
        hstate.congr_link (.of_tx_eq rfl rfl rfl rfl rfl) hlink fun g hlink ↦
          absurd hlink.pending hwrite
    | false =>
      rw [if_neg Bool.false_ne_true, driverWriteHid_false hwrite]
      exact h.quiet rfl fun n hstate ↦ hstate.failed hwrite fun hfalse ↦ nomatch hfalse

/-- A keepalive does not touch the buffer below its place. -/
theorem putKeepalive_below (hl : l ≤ keepaliveOffset) : SameBelow l s (putKeepalive button s) := by
  refine ⟨rfl, rfl, rfl, rfl, fun off len hle ↦ ?_⟩
  have hlen : (leBytes 4 s.ctapReq.cid.toNat ++ [ctaphidKeepalive]).length = 5 := by
    rfl
  have hoff : off + len ≤ keepaliveOffset := hle.trans hl
  rw [putKeepalive,
    TxBuffer.slice_write_of_disjoint (show keepaliveOffset + 6 + 2 ≤ usbBufferSize by decide)
      (.inl (by omega)),
    TxBuffer.slice_write_of_disjoint (by rw [hlen]; decide) (.inl hoff)]

/-- The frame of a keepalive. -/
theorem ofBytes_putKeepalive (button : Bool) (s : Hid) :
    ∃ data, CtapFrame.ofBytes (slice (putKeepalive button s).tx.1 keepaliveOffset hidRptSize) =
      .padded s.ctapReq.cid ctaphidKeepalive data := by
  have hlen : (leBytes 4 s.ctapReq.cid.toNat ++ [ctaphidKeepalive]).length = 5 := by
    rfl
  have hheader : slice (putKeepalive button s).tx.1 keepaliveOffset 5 =
      leBytes 4 s.ctapReq.cid.toNat ++ [ctaphidKeepalive] := by
    rw [putKeepalive,
      TxBuffer.slice_write_of_disjoint (show keepaliveOffset + 6 + 2 ≤ usbBufferSize by decide)
        (.inl (by decide)), ← hlen]
    exact TxBuffer.slice_write (by rw [hlen]; decide)
  refine ⟨slice (putKeepalive button s).tx.1 (keepaliveOffset + 5) 59, ?_⟩
  rw [show hidRptSize = 5 + 59 from rfl, slice_add, hheader, append_assoc,
    singleton_append, CtapFrame.ofBytes_eq_padded]

/-- The write of a keepalive. -/
theorem SendInv.keepalive (h : SendInv p m b sent₀ s) (hcounts : Counts p m)
    (hf : f.isKeepalive = true) : SendInv p m b sent₀ (driverWriteHid ok f s) := by
  by_cases hwrite : s.lastWriteResult = .pending
  · rw [driverWriteHid_of_pending hwrite]
    exact h
  cases ok with
  | true =>
    rw [driverWriteHid_true hwrite]
    refine h.other rfl (hcounts.keepalive f hf) fun n hstate ↦ ?_
    refine hstate.congr_link (.of_tx_eq rfl rfl rfl rfl rfl) (fun hlink ↦ ?_) fun g hlink ↦
      absurd hlink.pending hwrite
    exact ⟨⟨fun _ ↦ some_ne_none f, fun _ ↦ rfl⟩, fun _ ↦ some_ne_none f,
      fun g hg ↦ .inr (by rw [← Option.some.inj hg, hf]), hlink.busy, hlink.time⟩
  | false =>
    rw [driverWriteHid_false hwrite]
    exact h.quiet rfl fun n hstate ↦ hstate.failed hwrite id

/-- A keepalive, which is not written over the response. -/
theorem sendInv_sendKeepalive (h : SendInv p m b sent₀ s) (hcounts : Counts p m)
    (hfits : b + m.payload.length + 7 ≤ keepaliveOffset) :
    SendInv p m b sent₀ (sendKeepalive now button ok s) := by
  obtain ⟨data, hframe⟩ := ofBytes_putKeepalive button s
  unfold sendKeepalive
  split_ifs
  · exact h
  · exact h
  · refine SendInv.keepalive ?_ hcounts (by rw [hframe, isKeepalive_padded])
    exact h.quiet rfl fun n hstate ↦
      (hstate.congr (putKeepalive_below hfits) (by constructor <;> rfl)).congr
        (.of_tx_eq rfl rfl rfl rfl rfl) (by constructor <;> rfl)

/-- The next frame of the response. -/
theorem sendInv_taskWrite (h : SendInv p m b sent₀ s) (hcounts : Counts p m) :
    SendInv p m b sent₀ (taskWrite ok s) := by
  unfold taskWrite
  by_cases hwrite : s.rPtr < s.wPtr ∧ s.lastWriteResult ≠ .pending
  swap
  · rw [if_neg hwrite]
    exact h
  rw [if_pos hwrite]
  -- something is left, and nothing is on its way: the frame is in the buffer
  have hready : ∀ n, SendState p m b s n → Sending m b n s ∧ LinkFree p s := fun n hstate ↦ by
    cases hstate with
    | ready _ h hlink => exact ⟨h, hlink⟩
    | taken k h f hf hlink => exact absurd hlink.pending hwrite.2
    | done _ hlen hpos hr hw hsize hlink => exact absurd hwrite.1 (by omega)
  cases ok with
  | true =>
    rw [driverWriteHid_true hwrite.2]
    refine h.fragment hcounts rfl fun n hstate ↦ ?_
    obtain ⟨hsending, hlink⟩ := hready n hstate
    refine ⟨hsending.isFragment, .taken n ?_ _ hsending.isFragment ?_⟩
    · exact hsending.congr (.of_tx_eq rfl rfl rfl rfl rfl)
    · have hreport := hlink.report_eq_none hwrite.2
      refine ⟨rfl, ?_, rfl, hlink.busy, hlink.time⟩
      by_contra hinflight
      exact hlink.inflight (by simpa using hinflight) hreport
  | false =>
    rw [driverWriteHid_false hwrite.2]
    exact h.quiet rfl fun n hstate ↦ hstate.failed hwrite.2 id

theorem taskWrite_sameBelow : SameBelow l s (taskWrite ok s) := by
  unfold taskWrite driverWriteHid
  split_ifs <;> exact .of_tx_eq rfl rfl rfl rfl rfl

/-! ### A report has gone out -/

theorem fragmentStart_mono (k : ℕ) : fragmentStart k ≤ fragmentStart (k + 1) := by
  cases k with
  | zero => exact zero_le _
  | succ k =>
    rw [fragmentStart_succ, fragmentStart_succ]
    omega

section

variable (hf : IsFragment m k f)
include hf

/-- A message in the buffer has no more frames than there are sequence numbers. -/
theorem IsFragment.lt (hlen : m.payload.length ≤ usbBufferSize) : k < 128 := by
  cases k with
  | zero => omega
  | succ k =>
    have hneeded := hf.needed.resolve_left (succ_ne_zero k)
    rw [fragmentStart_succ] at hneeded
    simp only [usbBufferSize] at hlen
    omega

/-- The first frame of a message is its initialization frame. -/
theorem IsFragment.isInit_iff (hcmd : isMessageCommand m.cmd)
    (hlen : m.payload.length ≤ usbBufferSize) : f.isInit = decide (k = 0) := by
  have hlt := hf.lt hlen
  rw [CtapFrame.isInit, hf.type_eq, fragmentType]
  by_cases hk : k = 0
  · rw [if_pos hk, decide_eq_true hk, hcmd.type.1]
    decide
  · have hseq : ∀ j : Fin 128, (UInt8.ofNat j &&& 0x80 == 0x80) = false := by decide +kernel
    rw [if_neg hk, decide_eq_false hk]
    exact hseq ⟨k - 1, by omega⟩

/-- What has gone out with a frame. -/
theorem IsFragment.reportSize_eq (hcmd : isMessageCommand m.cmd)
    (hlen : m.payload.length ≤ usbBufferSize) :
    fragmentStart k + reportSize f = fragmentStart (k + 1) := by
  have hinit := hf.isInit_iff hcmd hlen
  cases k with
  | zero =>
    have htype := (hf.type_ne hcmd hlen).1
    have hinit' : f.isInit = true := by
      rw [hinit]
      rfl
    rw [reportSize, if_pos hinit', if_pos htype]
    rfl
  | succ k =>
    rw [reportSize, if_neg (by rw [hinit]; simp), fragmentStart_succ, fragmentStart_succ]
    omega

/-- The sequence number of the next frame. -/
theorem IsFragment.next_type (hcmd : isMessageCommand m.cmd)
    (hlen : m.payload.length ≤ usbBufferSize) :
    (if f.isInit then 0 else (f.type &&& 0x7f) + 1) = fragmentType m (k + 1) := by
  have hlt := hf.lt hlen
  rw [hf.isInit_iff hcmd hlen, hf.type_eq]
  cases k with
  | zero => rfl
  | succ k =>
    have hseq : ∀ j : Fin 128, (UInt8.ofNat j &&& 0x7f) + 1 = UInt8.ofNat (j + 1) := by
      decide +kernel
    exact hseq ⟨k, by omega⟩

end

/-- The report of a frame that is followed by another one. -/
theorem sending_continue (h : Sending m b k s) (hf : IsFragment m k f)
    (hcmd : isMessageCommand m.cmd) (hmore : fragmentStart (k + 1) < m.payload.length)
    (hr : s'.rPtr = s.rPtr) (hresp : s'.resp = s.resp) (hw : s'.wPtr = s.wPtr)
    (hsize : s'.sendBufferSize = m.payload.length - fragmentStart (k + 1)) (htx : s'.tx = s.tx) :
    Sending m b (k + 1) (hidContinue f s') := by
  have hfits := h.fits
  have hlen : m.payload.length ≤ usbBufferSize := by omega
  have hbytes : (leBytes 4 f.cid.toNat ++ [fragmentType m (k + 1)]).length = 5 := by
    rfl
  have hplace : s'.resp + (64 - 5) = b + 59 * (k + 1) := by
    rw [hresp, h.resp_eq]
    omega
  have hmore' : 57 + 59 * k < m.payload.length := hmore
  have hroom : b + 59 * (k + 1) + 5 ≤ usbBufferSize := by omega
  rw [hidContinue, hf.next_type hcmd hlen]
  refine ⟨?_, hplace, hw.trans h.wPtr_eq, hsize, hfits, .inr hmore, ?_,
    fun h0 ↦ absurd h0 (succ_ne_zero k), ?_⟩
  · show s'.rPtr + (64 - 5) = _
    rw [hr, h.rPtr_eq]
    omega
  · show slice (s'.tx.write (s'.resp + (64 - 5)) _).1 _ 5 = _
    rw [hplace, ← hbytes, TxBuffer.slice_write (by rw [hbytes]; exact hroom), hf.cid_eq]
  · show slice (s'.tx.write (s'.resp + (64 - 5)) _).1 _ _ = _
    have hrest := congrArg (List.drop (fragmentStart (k + 1) - fragmentStart k)) h.data
    have hmono := fragmentStart_mono k
    rw [drop_slice, drop_drop] at hrest
    rw [hplace, TxBuffer.slice_write_of_disjoint (by rw [hbytes]; exact hroom)
      (.inr (by rw [hbytes, fragmentStart_succ]; omega)), htx]
    have hoff : b + 7 + fragmentStart k + (fragmentStart (k + 1) - fragmentStart k) =
        b + 7 + fragmentStart (k + 1) := by omega
    have hcount : m.payload.length - fragmentStart k - (fragmentStart (k + 1) - fragmentStart k) =
        m.payload.length - fragmentStart (k + 1) := by omega
    have hdrop : fragmentStart k + (fragmentStart (k + 1) - fragmentStart k) =
        fragmentStart (k + 1) := by omega
    rw [hoff, hcount, hdrop] at hrest
    exact hrest

theorem hidReportSent_keepalive (hf : f.isKeepalive = true) (hpending : s.lastWriteResult = .pending) :
    hidReportSent f s =
      if s.rPtr ≥ s.wPtr then { s with lastWriteResult := .success, rPtr := 0, wPtr := 0 }
      else { s with lastWriteResult := .success } := by
  obtain ⟨hinit, htype⟩ := Bool.and_eq_true_iff.mp hf
  have htype' : f.type = ctaphidKeepalive := of_decide_eq_true htype
  have hsize : reportSize f = 0 := by
    rw [reportSize, if_pos hinit, if_neg (not_not.mpr htype')]
  have hwritten : hidWritten f s = { s with lastWriteResult := .success } := by
    rw [hidWritten, if_pos hpending, hsize, Nat.zero_min, Nat.sub_zero]
  have hadvance : hidAdvance f { s with lastWriteResult := .success } =
      { s with lastWriteResult := .success } :=
    if_neg fun h ↦ h.2.elim (fun hnot ↦ hnot hinit) fun hne ↦ hne htype'
  rw [hidReportSent, hwritten, hadvance]

theorem LinkFree.success (h : LinkFree p s) (hreport : s'.report = none)
    (hinflight : s'.busyInflight = false) (hwrite : s'.lastWriteResult = .success)
    (hbusy : s'.busyResponse = s.busyResponse) (htime : s'.lastPacketTime = s.lastPacketTime) :
    LinkFree p s' := by
  refine ⟨?_, ?_, ?_, hbusy ▸ h.busy, htime.trans h.time⟩
  · rw [hwrite, hreport]
    exact ⟨fun hp ↦ absurd hp (by simp), fun hne ↦ absurd rfl hne⟩
  · rw [hinflight]
    exact fun hfalse ↦ nomatch hfalse
  · rw [hreport]
    exact fun g hg ↦ nomatch hg

/-- A report that is not of the response has gone out. -/
theorem complete_linkFree (h : LinkFree p s) (hptr : s.rPtr < s.wPtr ∨ s.rPtr = 0 ∧ s.wPtr = 0) :
    SameBelow l s (tudHidReportCompleteCb s) ∧ LinkFree p (tudHidReportCompleteCb s) := by
  unfold tudHidReportCompleteCb
  cases hreport : s.report with
  | none => exact ⟨.of_tx_eq rfl rfl rfl rfl rfl, h⟩
  | some g =>
    dsimp only
    by_cases hinflight : s.busyInflight = true
    · rw [if_pos hinflight]
      exact ⟨.of_tx_eq rfl rfl rfl rfl rfl, h.success rfl rfl rfl rfl rfl⟩
    have hinflight' : s.busyInflight = false := by simpa using hinflight
    have hkeepalive : g.isKeepalive = true := (h.report g hreport).resolve_left hinflight
    have hpending : s.lastWriteResult = .pending := h.pending_iff.mpr (by rw [hreport]; simp)
    rw [if_neg hinflight, hidReportSent_keepalive (s := { s with report := none }) hkeepalive hpending]
    dsimp only
    obtain hlt | ⟨hr, hw⟩ := hptr
    · rw [if_neg (by omega)]
      exact ⟨.of_tx_eq rfl rfl rfl rfl rfl, h.success rfl hinflight' rfl rfl rfl⟩
    · rw [if_pos (by omega)]
      exact ⟨.of_tx_eq hr.symm rfl hw.symm rfl rfl, h.success rfl hinflight' rfl rfl rfl⟩

/-- The driver when a frame of the response has gone out, before it goes on with the next one. -/
structure TakenWritten (p : CtapFrame → Bool) (m : HidMessage) (k : ℕ) (s t : Hid) : Prop where
  rPtr_eq : t.rPtr = s.rPtr
  resp_eq : t.resp = s.resp
  wPtr_eq : t.wPtr = s.wPtr
  tx_eq : t.tx = s.tx
  size_eq : t.sendBufferSize = m.payload.length - fragmentStart (k + 1)
  written : t.lastWriteResult = .success
  link : LinkFree p t

theorem takenWritten (h : Sending m b k s) (hf : IsFragment m k f) (hcmd : isMessageCommand m.cmd)
    (hlink : LinkTaken p f s) : TakenWritten p m k s (hidWritten f { s with report := none }) := by
  have hfits := h.fits
  have hlen : m.payload.length ≤ usbBufferSize := by omega
  have hsize := hf.reportSize_eq hcmd hlen
  rw [hidWritten, if_pos hlink.pending]
  refine ⟨rfl, rfl, rfl, rfl, ?_, rfl, ⟨⟨fun hp ↦ absurd hp (by simp), fun hne ↦ absurd rfl hne⟩,
    fun hi ↦ absurd (hlink.inflight.symm.trans hi) (by simp), fun g hg ↦ absurd hg (by simp),
    hlink.busy, hlink.time⟩⟩
  show s.sendBufferSize - min (reportSize f) s.sendBufferSize = _
  rw [h.size_eq]
  omega

/-- A frame of the response has gone out. -/
theorem complete_taken (h : Sending m b k s) (hf : IsFragment m k f) (hcmd : isMessageCommand m.cmd)
    (hlink : LinkTaken p f s) : SendState p m b (tudHidReportCompleteCb s) (k + 1) := by
  have hfits := h.fits
  have hlen : m.payload.length ≤ usbBufferSize := by omega
  have hresponse : ¬ f.isInit = true ∨ f.type ≠ ctaphidKeepalive := by
    have hnot := hf.not_isKeepalive hcmd hlen
    rw [CtapFrame.isKeepalive, Bool.and_eq_false_iff] at hnot
    exact hnot.elim (fun hinit ↦ .inl (by rw [hinit]; simp)) fun htype ↦
      .inr (of_decide_eq_false htype)
  have ht := takenWritten h hf hcmd hlink
  rw [tudHidReportCompleteCb, hlink.report]
  dsimp only
  rw [if_neg (by rw [hlink.inflight]; simp), hidReportSent]
  generalize hidWritten f { s with report := none } = t at ht ⊢
  by_cases hmore : fragmentStart (k + 1) < m.payload.length
  · have hnext := sending_continue h hf hcmd hmore ht.rPtr_eq ht.resp_eq ht.wPtr_eq ht.size_eq
      ht.tx_eq
    have hlt := hnext.header_le.1
    have hr := hnext.rPtr_eq
    have hw := hnext.wPtr_eq
    have hadvance : hidAdvance f t = hidContinue f t := by
      rw [hidAdvance, if_pos ⟨ht.written, hresponse⟩, if_pos (by rw [ht.size_eq]; omega)]
    rw [hadvance]
    rw [if_neg (by omega)]
    exact .ready (k + 1) hnext (ht.link.congr (by constructor <;> rfl))
  · have hr : t.rPtr = b + 59 * k := ht.rPtr_eq.trans h.rPtr_eq
    have hw : t.wPtr = b + m.payload.length + 7 := ht.wPtr_eq.trans h.wPtr_eq
    have hsize : t.sendBufferSize = 0 := by
      rw [ht.size_eq]
      omega
    have hend : fragmentStart (k + 1) = 57 + 59 * k := rfl
    have hadvance : hidAdvance f t = { t with rPtr := t.rPtr + 64 } := by
      rw [hidAdvance, if_pos ⟨ht.written, hresponse⟩, if_neg (by omega)]
    rw [hadvance]
    dsimp only
    rw [if_pos (by omega)]
    exact .done (k + 1) (by omega) (succ_pos k) rfl rfl hsize
      (ht.link.congr (by constructor <;> rfl))

theorem hidReportSent_sent : (hidReportSent f s).sent = s.sent := by
  have hwritten : (hidWritten f s).sent = s.sent := by
    unfold hidWritten
    split_ifs <;> rfl
  have hadvance : (hidAdvance f (hidWritten f s)).sent = (hidWritten f s).sent := by
    unfold hidAdvance
    split_ifs <;> rfl
  unfold hidReportSent
  dsimp only
  split_ifs <;> exact hadvance.trans hwritten

theorem tudHidReportCompleteCb_sent : (tudHidReportCompleteCb s).sent = s.sent := by
  unfold tudHidReportCompleteCb
  split
  · rfl
  · split_ifs
    · rfl
    · exact hidReportSent_sent

/-- A report has gone out. -/
theorem sendInv_complete (h : SendInv p m b sent₀ s) (hcmd : isMessageCommand m.cmd) :
    SendInv p m b sent₀ (tudHidReportCompleteCb s) := by
  refine h.quiet tudHidReportCompleteCb_sent fun n hstate ↦ ?_
  cases hstate with
  | ready _ h hlink =>
    have hheader := h.header_le.1
    have hr := h.rPtr_eq
    have hw := h.wPtr_eq
    obtain ⟨hsame, hlink'⟩ : SameBelow (b + m.payload.length + 7) s _ ∧ _ :=
      complete_linkFree hlink (.inl (by omega))
    exact .ready n (h.congr hsame) hlink'
  | taken k h f hf hlink => exact complete_taken h hf hcmd hlink
  | done _ hlen hpos hr hw hsize hlink =>
    obtain ⟨hsame, hlink'⟩ : SameBelow 0 s _ ∧ _ := complete_linkFree hlink (.inr ⟨hr, hw⟩)
    exact .done n hlen hpos (hsame.rPtr_eq.trans hr) (hsame.wPtr_eq.trans hw)
      (hsame.size_eq.trans hsize) hlink'

/-! ### Runs -/

/-- What may happen while a response is sent that ends at some place of the buffer: reports go out,
the task is called, and requests are cancelled; keepalives only if the response ends before their
place. -/
inductive SendEvent (l : ℕ) : HidEvent → Prop where
  | complete : SendEvent l .complete
  | task (t : HidTick) (h : t.status = .none) : SendEvent l (.task t)
  | keepalive (t : HidTick) (h : t.status = .blocked) (hl : l ≤ keepaliveOffset) :
      SendEvent l (.task t)
  | cancel (now : UInt32) (button ok : Bool) (f : CtapFrame) (h : f.isCancel = true) :
      SendEvent l (.frame now button ok f)

variable {env : HidEnv} {offset : ℕ}

theorem sendInv_cancel (h : SendInv p m b sent₀ s) : SendInv p m b sent₀ (hidCancel f s) := by
  unfold hidCancel
  split_ifs
  · exact h.quiet rfl fun n hstate ↦
      hstate.congr (.of_tx_eq rfl rfl rfl rfl rfl) (by constructor <;> rfl)
  · exact h

/-- **One event.** -/
theorem sendInv_step {e : HidEvent} (h : SendInv p m b sent₀ s) (hcmd : isMessageCommand m.cmd)
    (hcounts : Counts p m) (he : SendEvent (b + m.payload.length + 7) e) : SendInv p m b sent₀
      (hidStep env s e) := by
  cases he with
  | complete => exact sendInv_complete h hcmd
  | task t hstatus =>
    have hbusy : SendInv p m b sent₀ (taskBusy t.busyOk (driverProcessUsbNopacketHid t.now s)) :=
      sendInv_taskBusy (sendInv_nopacket h)
    show SendInv p m b sent₀ (hidTask t s)
    rw [hidTask, taskStatus, hstatus]
    exact sendInv_taskWrite hbusy hcounts
  | keepalive t hstatus hl =>
    have hbusy : SendInv p m b sent₀ (taskBusy t.busyOk (driverProcessUsbNopacketHid t.now s)) :=
      sendInv_taskBusy (sendInv_nopacket h)
    show SendInv p m b sent₀ (hidTask t s)
    rw [hidTask, taskStatus, hstatus]
    exact sendInv_taskWrite (sendInv_sendKeepalive hbusy hcounts hl) hcounts
  | cancel now button ok f hcancel =>
    have hrx : SendInv p m b sent₀ { s with rx := f } := h.quiet rfl fun n hstate ↦
      hstate.congr (.of_tx_eq rfl rfl rfl rfl rfl) (by constructor <;> rfl)
    have hprocess : driverProcessUsbPacketHid env now button ok { s with rx := f } =
        (hidCancel f { s with rx := f }, 0) := if_pos hcancel
    show SendInv p m b sent₀ (tudHidSetReportCb env now button ok f s)
    rw [tudHidSetReportCb, hprocess]
    exact sendInv_nopacket (sendInv_cancel hrx)

theorem sendInv_run {es : List HidEvent} (h : SendInv p m b sent₀ s) (hcmd : isMessageCommand m.cmd)
    (hcounts : Counts p m) (hes : ∀ e ∈ es, SendEvent (b + m.payload.length + 7) e) :
    SendInv p m b sent₀ (hidRun env s es) := by
  induction es generalizing s with
  | nil => exact h
  | cons e es ih =>
    exact ih (sendInv_step h hcmd hcounts (hes e mem_cons_self)) fun e' he' ↦
      hes e' (mem_cons_of_mem e he')

/-- A frame on a channel that is not a keepalive. -/
def isResponseFrame (c : UInt32) (f : CtapFrame) : Bool :=
  f.cid = c && !f.isKeepalive

/-- The frames of a response, without what else is sent on its channel. -/
def responseFrames (c : UInt32) (fs : List CtapFrame) : List CtapFrame :=
  fs.filter (isResponseFrame c)

theorem counts_isResponseFrame (hcmd : isMessageCommand m.cmd)
    (hlen : m.payload.length ≤ usbBufferSize) : Counts (isResponseFrame m.cid) m := by
  refine ⟨fun k f hf ↦ ?_, fun f hf ↦ ?_⟩
  · rw [isResponseFrame, hf.not_isKeepalive hcmd hlen, decide_eq_true hf.cid_eq]
    rfl
  · rw [isResponseFrame, hf]
    exact Bool.and_false _

/-- A response can be handed over: it fits the buffer, the buffer is not in use, and nothing is on
its way or waits to be sent on the channel. -/
structure HandOver (n offset : ℕ) (s : Hid) : Prop where
  fits : contOffset offset + n + 7 ≤ usbBufferSize
  cmd : isMessageCommand s.packet.lastCmd
  rPtr_eq : s.rPtr = 0
  wPtr_eq : s.wPtr = 0
  link : LinkFree (isResponseFrame s.ctapReq.cid) s

/-- The response that is handed over. -/
def responseMessage (n offset : ℕ) (s : Hid) : HidMessage :=
  ⟨s.ctapReq.cid, s.packet.lastCmd, slice s.tx.1 (contOffset offset + 7) n⟩

theorem length_responseMessage (hfits : contOffset offset + n + 7 ≤ usbBufferSize) :
    (responseMessage n offset s).payload.length = n :=
  length_slice (by rw [s.tx.2]; omega)

/-- A response that is handed over is in the buffer. -/
theorem sending_contHid (hfits : contOffset offset + n + 7 ≤ usbBufferSize) (hr : s.rPtr = 0)
    (hwPtr : s.wPtr = 0) : Sending (responseMessage n offset s) (contOffset offset) 0
      (Hid.driverExecFinishedContHid n offset s) := by
  have hpayload : (responseMessage n offset s).payload.length = n := length_responseMessage hfits
  have hw : uint16 (s.wPtr + (n + 7 + contOffset offset)) = contOffset offset + n + 7 := by
    rw [hwPtr, uint16]
    simp only [usbBufferSize] at hfits
    omega
  unfold Hid.driverExecFinishedContHid
  have hlen : (leBytes 4 s.ctapReq.cid.toNat ++ s.packet.lastCmd :: beBytes 2 n).length = 7 := by
    rw [length_append, length_leBytes, length_cons, length_beBytes]
  have hroom : contOffset offset +
      (leBytes 4 s.ctapReq.cid.toNat ++ s.packet.lastCmd :: beBytes 2 n).length ≤ usbBufferSize := by
    omega
  have hheader := TxBuffer.slice_write (b := s.tx) hroom
  have hbehind : slice (s.tx.write (contOffset offset)
      (leBytes 4 s.ctapReq.cid.toNat ++ s.packet.lastCmd :: beBytes 2 n)).1
      (contOffset offset + 7) n = slice s.tx.1 (contOffset offset + 7) n :=
    TxBuffer.slice_write_of_disjoint hroom (.inr (by rw [hlen]))
  generalize s.tx.write (contOffset offset) _ = tx at hheader hbehind ⊢
  rw [hlen, show 7 = 5 + 2 from rfl, slice_add, append_cons] at hheader
  obtain ⟨hfirst, hsecond⟩ := append_inj hheader (by
    rw [length_slice (by rw [tx.2]; omega), length_append, length_leBytes]
    rfl)
  refine ⟨?_, ?_, ?_, ?_, ?_, .inl rfl, ?_, fun _ ↦ ?_, ?_⟩
  · show s.rPtr + contOffset offset = _
    omega
  · show contOffset offset = _
    omega
  · show uint16 (s.wPtr + (n + 7 + contOffset offset)) = _
    rw [hw, hpayload]
  · show n = _ - 0
    rw [hpayload, Nat.sub_zero]
  · rw [hpayload]
    exact hfits
  · rw [show contOffset offset + 59 * 0 = contOffset offset by omega, fragmentType, if_pos rfl]
    exact hfirst
  · rw [hpayload]
    exact hsecond
  · rw [fragmentStart, Nat.add_zero, hpayload, Nat.sub_zero, drop_zero]
    exact hbehind

/-- Frames that are enough for a message are put together to it. -/
theorem reassemble_frames {fs : List CtapFrame} (hcmd : isMessageCommand m.cmd)
    (hlen : m.payload.length ≤ usbBufferSize) (hfrag : ∀ k f, fs[k]? = some f → IsFragment m k f)
    (hpos : 0 < fs.length) (hall : m.payload.length ≤ fragmentStart fs.length) :
    reassemble fs = some m := by
  obtain ⟨i, conts, rfl⟩ := exists_cons_of_length_pos hpos
  have hlast : conts.length < 128 := by
    have hget : (i :: conts)[conts.length]? = some ((i :: conts)[conts.length]) :=
      getElem?_eq_getElem (by simp)
    exact (hfrag _ _ hget).lt hlen
  exact reassemble_of_isFragment hcmd.type.1 (hfrag 0 i rfl)
    (fun k f hf ↦ hfrag (k + 1) f (by rw [getElem?_cons_succ, hf])) (by omega) hall

theorem SendState.at_end (h : SendState p m b s n) (hend : s.wPtr ≤ s.rPtr) :
    m.payload.length ≤ fragmentStart n ∧ 0 < n := by
  cases h with
  | ready _ h hlink =>
    have hheader := h.header_le.1
    rw [h.rPtr_eq, h.wPtr_eq] at hend
    omega
  | taken k h f hf hlink =>
    have hheader := h.header_le.1
    rw [h.rPtr_eq, h.wPtr_eq] at hend
    omega
  | done _ hlen hpos => exact ⟨hlen, hpos⟩

/-- The next frame is sent if the USB stack takes it. -/
theorem SendState.next {t : HidTick} (h : SendState p m b s n) (hstatus : t.status = .none)
    (hok : t.responseOk = true) (hleft : s.rPtr < s.wPtr) (hwrite : s.lastWriteResult ≠ .pending)
    (hbusy : s.busyResponse = none) :
    ∃ f, (hidTask t s).sent = s.sent ++ [f] ∧ IsFragment m n f := by
  cases h with
  | ready _ h hlink =>
    have htask : hidTask t s = taskWrite true s := by
      rw [hidTask, taskStatus, hstatus, hok, driverProcessUsbNopacketHid_eq, Hid.timedOut,
        hlink.time]
      show taskWrite true (taskBusy t.busyOk s) = taskWrite true s
      rw [taskBusy, hbusy]
    refine ⟨_, ?_, h.isFragment⟩
    rw [htask, taskWrite, if_pos ⟨hleft, hwrite⟩, driverWriteHid_true hwrite]
  | taken k h f hf hlink => exact absurd hlink.pending hwrite
  | done _ hlen hpos hr hw hsize hlink => exact absurd hleft (by omega)

/-- **A response is sent.** Whatever happens while it is sent, the frames that the host gets on its
channel, keepalives apart, are the frames of the response in order, and when there is nothing left to
send they are put together to it. As long as there is something left, and nothing on its way, a call of
the task sends the next frame if the USB stack takes it. -/
theorem hid_response_sent (env : HidEnv) {n offset : ℕ} {s s' : Hid} (h : HandOver n offset s)
    {es : List HidEvent} (hes : ∀ e ∈ es, SendEvent (contOffset offset + n + 7) e)
    (hrun : hidRun env (Hid.driverExecFinishedContHid n offset s) es = s') :
    ∃ new, s'.sent = s.sent ++ new ∧
      (∀ k f, (responseFrames s.ctapReq.cid new)[k]? = some f →
        IsFragment (responseMessage n offset s) k f) ∧
      (s'.wPtr ≤ s'.rPtr →
        reassemble (responseFrames s.ctapReq.cid new) = some (responseMessage n offset s)) ∧
      ∀ t : HidTick, t.status = .none → t.responseOk = true → s'.rPtr < s'.wPtr →
        s'.lastWriteResult ≠ .pending → s'.busyResponse = none →
        ∃ f, (hidTask t s').sent = s'.sent ++ [f] ∧
          IsFragment (responseMessage n offset s) (responseFrames s.ctapReq.cid new).length f := by
  have hpayload : (responseMessage n offset s).payload.length = n := length_responseMessage h.fits
  have hlen : (responseMessage n offset s).payload.length ≤ usbBufferSize := by
    have hfits := h.fits
    omega
  have hstart : SendInv (isResponseFrame s.ctapReq.cid) (responseMessage n offset s)
      (contOffset offset) s.sent (Hid.driverExecFinishedContHid n offset s) := by
    refine ⟨[], ?_, .ready 0 (sending_contHid h.fits h.rPtr_eq h.wPtr_eq) ?_, fun k f hf ↦
      nomatch hf⟩
    · unfold Hid.driverExecFinishedContHid
      exact (append_nil _).symm
    · unfold Hid.driverExecFinishedContHid
      exact h.link.congr (by constructor <;> rfl)
  have hinv : SendInv (isResponseFrame s.ctapReq.cid) (responseMessage n offset s)
    (contOffset offset) s.sent
      (hidRun env (Hid.driverExecFinishedContHid n offset s) es) :=
    sendInv_run hstart h.cmd (counts_isResponseFrame h.cmd hlen) (by rw [hpayload]; exact hes)
  rw [hrun] at hinv
  obtain ⟨new, hnew, hstate, hfrag⟩ := hinv
  refine ⟨new, hnew, hfrag, fun hend ↦ ?_, fun t hstatus hok hleft hwrite hbusy ↦ ?_⟩
  · obtain ⟨hall, hpos⟩ := hstate.at_end hend
    exact reassemble_frames h.cmd hlen hfrag hpos hall
  · exact hstate.next hstatus hok hleft hwrite hbusy

/-- A `CTAPHID_MSG` has come in since power-up, and the worker has written a response of 100 bytes. -/
def hidWithResponse : Hid :=
  hidRun workerEnv hidPowerUp
    [.frame 1000 false true (initFrame 1 ctaphidMsg 5), .worker 7 (List.replicate 100 5)]

/-- A call of the task in which the USB stack takes everything. -/
def idleTick : HidTick :=
  ⟨1000, .none, false, true, true, true⟩

/-- A write that fails and two that do not. -/
def retriedSends : List HidEvent :=
  [.task { idleTick with responseOk := false }, .task idleTick, .complete, .task idleTick, .complete]

theorem hid_response_sent_msg :
    ∃ new, (hidRun workerEnv (Hid.driverExecFinishedContHid 100 7 hidWithResponse)
        retriedSends).sent = hidWithResponse.sent ++ new ∧
      reassemble (responseFrames 1 new) = some ⟨1, ctaphidMsg, List.replicate 100 5⟩ := by
  have hreport : hidWithResponse.report = none := by decide +kernel
  have hbusy : hidWithResponse.busyResponse = none := by decide +kernel
  have hnone : ∀ f, (none : Option CtapFrame) ≠ some f := fun f ↦ (some_ne_none f).symm
  have hfree : LinkFree (isResponseFrame hidWithResponse.ctapReq.cid) hidWithResponse :=
    ⟨by decide +kernel, by decide +kernel, fun f hf ↦ absurd (hreport.symm.trans hf) (hnone f),
      fun f hf ↦ absurd (hbusy.symm.trans hf) (hnone f), by decide +kernel⟩
  have hand : HandOver 100 7 hidWithResponse :=
    ⟨by decide, .inr (.inr (.inl (by decide +kernel))), by decide +kernel, by decide +kernel, hfree⟩
  have hsends : ∀ e ∈ retriedSends, SendEvent (contOffset 7 + 100 + 7) e := fun e he ↦ by
    simp only [retriedSends, mem_cons, not_mem_nil, or_false] at he
    obtain rfl | rfl | rfl | rfl | rfl := he
    · exact .task _ rfl
    · exact .task _ rfl
    · exact .complete
    · exact .task _ rfl
    · exact .complete
  have hcid : hidWithResponse.ctapReq.cid = 1 := by decide +kernel
  have hmessage : responseMessage 100 7 hidWithResponse = ⟨1, ctaphidMsg, List.replicate 100 5⟩ := by
    decide +kernel
  obtain ⟨new, hnew, -, hall, -⟩ := hid_response_sent workerEnv hand hsends rfl
  exact ⟨new, hnew, hall (by decide +kernel)⟩

/-- A `CTAPHID_PING` of five bytes is handled, but its response is not sent: the USB stack does not
take the report, and there is no other try. -/
theorem hid_response_lost :
    (hidRun workerEnv hidPowerUp
        [.frame 1000 false false (initFrame 1 ctaphidPing 5), .task idleTick, .complete,
          .task idleTick]).handed = [⟨1, ctaphidPing, [0, 0, 0, 0, 0]⟩] ∧
      (hidRun workerEnv hidPowerUp
        [.frame 1000 false false (initFrame 1 ctaphidPing 5), .task idleTick, .complete,
          .task idleTick]).sent = [] ∧
      (hidRun workerEnv hidPowerUp
        [.frame 1000 false false (initFrame 1 ctaphidPing 5), .task idleTick, .complete,
          .task idleTick]).wPtr = 0 ∧
      -- a report that is on its way takes the place of the first frame
      (hidRun workerEnv hidPowerUp
        [.frame 1000 false true (initFrame 2 ctaphidInit 8),
          .frame 1001 false true (initFrame 1 ctaphidPing 100),
          .frame 1002 false true (.padded 1 0 []), .complete, .task idleTick, .complete,
          .task idleTick]).sent.map (fun f ↦ (f.cid, f.type)) = [(2, ctaphidInit), (2, 0)] ∧
      -- a response that does not fit goes over the pointers of the buffer
      (hidRun workerEnv hidPowerUp
        (.frame 1000 false true (.padded 1 ctaphidPing (beBytes 2 2045 ++ List.replicate 57 255)) ::
          (List.range 34).map (fun k ↦
            .frame 1000 false true (.padded 1 (UInt8.ofNat k) (List.replicate 59 255))) ++
          [.task idleTick, .complete, .task idleTick])).sent = [] := by
  decide +kernel

end PicoAll
