import PicoAll.Transport.ApduResponse

/-!
# The parts of a response

What is left of a response after some parts is in the buffer, once the bytes under the status are put
back (`ResponsePending`); every GET RESPONSE over the smart card interface sends the next part of it
and keeps that so. Over HID the first GET RESPONSE already goes wrong.
-/

namespace PicoAll

open BigEndian ByteBuffer Transport List Nat

variable {t : Transport} {tag : ResponseTag} {sw : UInt16} {rest : Bytes} {s : ApduResponse}
  {ne k : ℕ} {tx : Bytes}

/-! ### What is to be sent -/

/-- **A response in parts**: each is the next part of the body and the number of bytes left after it,
and the last one is the rest and the status word. -/
def ResponseChained (sw : UInt16) : Bytes → List (Option Bytes) → Prop
  | _, [] => True
  | rest, sent :: sents =>
    (sent = some (rest ++ swBytes sw) ∧ sents = []) ∨
      ∃ part left, rest = part ++ left ∧ left ≠ [] ∧
        sent = some (part ++ swRemaining left.length) ∧ ResponseChained sw left sents

/-- The parts of a response, for commands that allow so many bytes. -/
def responseParts (sw : UInt16) : Bytes → List ℕ → List Bytes
  | _, [] => []
  | rest, ne :: nes =>
    if rest.length ≤ ne then [rest ++ swBytes sw]
    else (rest.take ne ++ swRemaining (rest.length - ne)) :: responseParts sw (rest.drop ne) nes

theorem responseParts_chained (sw : UInt16) (rest : Bytes) (nes : List ℕ) :
    ResponseChained sw rest ((responseParts sw rest nes).map some) := by
  induction nes generalizing rest with
  | nil => trivial
  | cons ne nes ih =>
    rw [responseParts]
    split_ifs with hle
    · exact .inl ⟨rfl, rfl⟩
    · have hleft : (rest.drop ne).length = rest.length - ne := length_drop
      refine .inr ⟨rest.take ne, rest.drop ne, (take_append_drop ne rest).symm, ?_, ?_, ih _⟩
      · exact ne_nil_of_length_pos (by omega)
      · rw [hleft]

/-! ### Parts of the buffer -/

@[simp]
theorem length_swBytes (sw : UInt16) : (swBytes sw).length = 2 :=
  length_beBytes ..

@[simp]
theorem length_swRemaining (n : ℕ) : (swRemaining n).length = 2 :=
  rfl

@[simp]
theorem length_header (t : Transport) (tag : ResponseTag) (size : ℕ) :
    (t.header tag size).length = t.rdata := by
  cases t <;> simp [header, rdata]

/-- The rest of a response in a buffer. -/
structure RestAt (t : Transport) (sw : UInt16) (tx : Bytes) (k : ℕ) (rest : Bytes) : Prop where
  length_eq : tx.length = usbBufferSize
  fits : t.rdata + k + rest.length + 2 ≤ usbBufferSize
  bytes : slice tx (t.rdata + k) (rest.length + 2) = rest ++ swBytes sw

namespace RestAt

variable (h : RestAt t sw tx k rest)

include h

/-- The header does not touch the rest. -/
theorem slice_header (tag : ResponseTag) (size : ℕ) :
    slice (patch tx k (t.header tag size)) (k + t.rdata) (rest.length + 2) = rest ++ swBytes sw := by
  have hlen := h.length_eq
  have hfits := h.fits
  rw [slice_patch_of_disjoint (by rw [length_header]; omega) (.inr (by rw [length_header])),
    add_comm k t.rdata, h.bytes]

theorem split (hlt : ne < rest.length) :
    slice tx (t.rdata + k) ne = rest.take ne ∧
      slice tx (t.rdata + (k + ne)) (rest.length - ne + 2) = rest.drop ne ++ swBytes sw := by
  have hlen := h.length_eq
  have hfits := h.fits
  have hbytes := h.bytes
  rw [show rest.length + 2 = ne + (rest.length - ne + 2) by omega, slice_add,
    ← take_append_drop ne rest, append_assoc, take_append_drop] at hbytes
  obtain ⟨hpart, hleft⟩ := append_inj hbytes (by
    rw [length_slice (by omega), length_take]
    omega)
  rw [← add_assoc]
  exact ⟨hpart, hleft⟩

/-- The next part, with the status after it. -/
theorem slice_marked (hlt : ne < rest.length) (tag : ResponseTag) (size : ℕ) :
    slice (patch (patch tx (t.rdata + (k + ne)) (swRemaining (rest.length - ne))) k
        (t.header tag size)) (k + t.rdata) (ne + 2) =
      rest.take ne ++ swRemaining (rest.length - ne) := by
  have hlen := h.length_eq
  have hfits := h.fits
  have hmark : t.rdata + (k + ne) + (swRemaining (rest.length - ne)).length ≤ tx.length := by
    rw [length_swRemaining]
    omega
  rw [slice_patch_of_disjoint (by rw [length_header, length_patch hmark]; omega)
    (.inr (by rw [length_header])), add_comm k t.rdata, ← add_assoc,
    ← length_swRemaining (rest.length - ne), slice_patch_end (by omega),
    (h.split hlt).1]

/-- What is left is there when the bytes under the status are put back. -/
theorem left (hlt : ne < rest.length) (tag : ResponseTag) (size : ℕ) :
    RestAt t sw (patch (patch (patch tx (t.rdata + (k + ne)) (swRemaining (rest.length - ne))) k
        (t.header tag size)) (t.rdata + (k + ne)) (slice tx (t.rdata + (k + ne)) 2)) (k + ne)
      (rest.drop ne) := by
  have hlen := h.length_eq
  have hfits := h.fits
  have hmark : t.rdata + (k + ne) + (swRemaining (rest.length - ne)).length ≤ tx.length := by
    rw [length_swRemaining]
    omega
  have hheader : k + (t.header tag size).length ≤
      (patch tx (t.rdata + (k + ne)) (swRemaining (rest.length - ne))).length := by
    rw [length_header, length_patch hmark]
    omega
  have hslice : (slice tx (t.rdata + (k + ne)) 2).length = 2 := length_slice (by omega)
  have hdrop : (rest.drop ne).length = rest.length - ne := length_drop
  refine ⟨?_, ?_, ?_⟩
  · rw [length_patch (by rw [hslice, length_patch hheader, length_patch hmark]; omega),
      length_patch hheader, length_patch hmark, hlen]
  · omega
  · rw [hdrop, add_comm _ 2, slice_patch_slice (by omega)
      (by rw [length_patch hheader, length_patch hmark]; omega), add_comm 2, (h.split hlt).2]
    rw [slice_patch_of_disjoint hheader (.inr (by rw [length_header]; omega)),
      slice_patch_of_disjoint hmark (.inr (by rw [length_swRemaining]))]

end RestAt

/-! ### The smart card interface -/

/-- **What is left of a response**: it is in the buffer once the bytes under the status are put
back. -/
structure ResponsePending (t : Transport) (sw : UInt16) (rest : Bytes) (s : ApduResponse) :
    Prop where
  pending : s.responsePending = true
  rlen_eq : s.rlen = rest.length
  restAt : RestAt t sw (patch s.tx (t.rdata + s.rdataGr) s.rdataBk) s.rdataGr rest

/-- A part that the interface takes is sent as it is. -/
theorem driverExecFinishedCont_ccid {size : ℕ} (hsize : size ≤ ccidMaxXfrBlockDataSize) :
    driverExecFinishedCont .ccid tag size k s =
      (some (slice (patch s.tx k (ccid.header tag size)) (k + 10) size),
        { s with tx := patch s.tx k (ccid.header tag size) }) := by
  have hlimit : apduLimitResponse .ccid size ccidMaxXfrBlockDataSize s = (size, s) :=
    if_pos (.inr (.inr hsize))
  rw [driverExecFinishedCont, driverExecFinishedContCcid, hlimit, min_eq_left hsize]
  split_ifs <;> rfl

/-- **A GET RESPONSE** over the smart card interface sends the next part, and leaves what comes after
it. -/
theorem ResponsePending.getResponse (h : ResponsePending .ccid sw rest s) (tag : ResponseTag)
    (ne : ℕ) :
    if rest.length ≤ ne then
      (apduGetResponse .ccid tag ne s).1 = some (rest ++ swBytes sw) ∧
        (apduGetResponse .ccid tag ne s).2.responsePending = false
    else
      (apduGetResponse .ccid tag ne s).1 = some (rest.take ne ++ swRemaining (rest.length - ne)) ∧
        ResponsePending .ccid sw (rest.drop ne) (apduGetResponse .ccid tag ne s).2 := by
  have hrest := h.restAt
  have hfits := hrest.fits
  simp only [usbBufferSize, rdata] at hfits
  rw [apduGetResponse, h.rlen_eq]
  dsimp only
  split_ifs with hle
  · have hsize : (rest.length + 2) % 65536 = rest.length + 2 := mod_eq_of_lt (by omega)
    have hmax : rest.length + 2 ≤ ccidMaxXfrBlockDataSize := by
      simp only [ccidMaxXfrBlockDataSize, usbBufferSize]
      omega
    rw [hsize, driverExecFinishedCont_ccid hmax]
    exact ⟨congrArg some (hrest.slice_header _ _), rfl⟩
  · have hlt : ne < rest.length := by omega
    have hsize : (ne + 2) % 65536 = ne + 2 := mod_eq_of_lt (by omega)
    have hmax : ne + 2 ≤ ccidMaxXfrBlockDataSize := by
      simp only [ccidMaxXfrBlockDataSize, usbBufferSize]
      omega
    rw [hsize, driverExecFinishedCont_ccid hmax]
    refine ⟨congrArg some (hrest.slice_marked hlt _ _), rfl, ?_, hrest.left hlt _ _⟩
    show (rest.length + 65536 - ne) % 65536 = _
    rw [length_drop]
    omega

/-- Once the last part has been sent, no GET RESPONSE is answered with a part. -/
theorem apduGetResponses_done (h : s.responsePending = false) (gets : List GetResponse) :
    apduGetResponses t s gets = [] := by
  rcases gets with - | ⟨get, gets⟩
  · rfl
  · rw [apduGetResponses, h]
    rfl

/-- The GET RESPONSEs over the smart card interface send the parts. -/
theorem ResponsePending.getResponses (gets : List GetResponse) {rest : Bytes} {s : ApduResponse}
    (h : ResponsePending .ccid sw rest s) :
    apduGetResponses .ccid s gets =
      (responseParts sw rest (gets.map fun get ↦ get.cmd.ne)).map some := by
  induction gets generalizing rest s with
  | nil => rfl
  | cons get gets ih =>
    have hget := h.getResponse get.tag get.cmd.ne
    rw [apduGetResponses, if_pos h.pending, map_cons, responseParts]
    split_ifs at hget ⊢ with hle
    · obtain ⟨hsent, hdone⟩ := hget
      show (apduGetResponse .ccid get.tag get.cmd.ne s).1 :: apduGetResponses _ _ _ = _
      rw [hsent, apduGetResponses_done hdone]
      rfl
    · obtain ⟨hsent, hpending⟩ := hget
      show (apduGetResponse .ccid get.tag get.cmd.ne s).1 :: apduGetResponses _ _ _ = _
      rw [hsent, ih hpending]
      rfl

/-! ### The response to the command itself -/

theorem length_arrive {tx : Bytes} (h : tx.length = usbBufferSize) :
    (t.arrive tx).length = usbBufferSize := by
  cases t with
  | ccid => exact h
  | hid =>
    rw [arrive, length_patch, h]
    rw [h, length_replicate]
    decide

/-- The response of a handler is in the buffer. -/
theorem RestAt.handled (tx : TxBuffer) (response : HandlerResponse t) :
    RestAt t response.sw (patch (patch (t.arrive tx.1) t.rdata response.body)
      (t.rdata + response.body.length) (swBytes response.sw)) 0 response.body := by
  have hfits := response.fits
  have hlen : (t.arrive tx.1).length = usbBufferSize := length_arrive tx.2
  have hbody : t.rdata + response.body.length ≤ (t.arrive tx.1).length := by omega
  have hsw : t.rdata + response.body.length + (swBytes response.sw).length ≤
      (patch (t.arrive tx.1) t.rdata response.body).length := by
    rw [length_patch hbody, length_swBytes]
    omega
  refine ⟨by rw [length_patch hsw, length_patch hbody, hlen], by omega, ?_⟩
  rw [add_zero, ← length_swBytes response.sw, slice_patch_end hsw, slice_patch_self hbody]

/-- A part that the buffer holds is sent as it is, after the header. -/
theorem driverExecFinished_eq {size : ℕ} (hsize : t.rdata + size ≤ usbBufferSize)
    (hlen : s.tx.length = usbBufferSize) :
    driverExecFinished t tag size s =
      (some (slice (patch s.tx 0 (t.header tag size)) (0 + t.rdata) size),
        { s with
          tx := patch s.tx 0 (t.header tag size)
          sw := match t with | .ccid => s.sw | .hid => 0 }) := by
  cases t with
  | ccid =>
    have hmax : size ≤ ccidMaxXfrBlockDataSize := by
      simp only [ccidMaxXfrBlockDataSize]
      simp only [rdata] at hsize
      omega
    exact driverExecFinishedCont_ccid hmax
  | hid =>
    simp only [rdata] at hsize
    rw [driverExecFinished, driverExecFinishedContHid, if_pos (by omega)]
    rfl

/-- The first part of a response, and what is left after it. -/
theorem apduRespond_spec (tag : ResponseTag) (tx : TxBuffer) (ne : ℕ)
    (response : HandlerResponse t) :
    if response.body.length ≤ ne then
      (apduRespond t tag tx.1 ne response.body response.sw).1 =
          some (response.body ++ swBytes response.sw) ∧
        (apduRespond t tag tx.1 ne response.body response.sw).2.responsePending = false
    else
      (apduRespond t tag tx.1 ne response.body response.sw).1 =
          some (response.body.take ne ++ swRemaining (response.body.length - ne)) ∧
        ResponsePending t response.sw (response.body.drop ne)
          (apduRespond t tag tx.1 ne response.body response.sw).2 := by
  have hfits := response.fits
  have hrest := RestAt.handled tx response
  have hlen := hrest.length_eq
  rw [apduRespond, apduFinish, apduNext]
  rw [if_pos response.sw_ne]
  split_ifs with hle
  · have hsize : (response.body.length + 2) % 65536 = response.body.length + 2 :=
      mod_eq_of_lt (by simp only [usbBufferSize] at hfits; omega)
    rw [hsize, driverExecFinished_eq (by omega) hlen]
    exact ⟨congrArg some (hrest.slice_header _ _), rfl⟩
  · have hlt : ne < response.body.length := by omega
    have hsize : (ne + 2) % 65536 = ne + 2 :=
      mod_eq_of_lt (by simp only [usbBufferSize] at hfits; omega)
    have hmarked := hrest.slice_marked hlt tag (ne + 2)
    have hleft := hrest.left hlt tag (ne + 2)
    rw [zero_add] at hmarked hleft
    rw [hsize, driverExecFinished_eq (by omega) (by
      show (patch _ (t.rdata + ne) (swRemaining _)).length = _
      rw [length_patch (by rw [hlen, length_swRemaining]; omega), hlen])]
    exact ⟨congrArg some hmarked, rfl, length_drop.symm, hleft⟩

/-! ### HID -/

def zeroResponse {n : ℕ} (hn : t.rdata + n + 2 ≤ usbBufferSize) : HandlerResponse t where
  body := List.replicate n 0
  sw := swOk
  sw_ne := by decide
  fits := by rwa [List.length_replicate]

/-- Some zeros of a response in the HID buffer, but for those the status is over. -/
structure ZerosLeft (n k : ℕ) (s : ApduResponse) : Prop where
  length_eq : s.tx.length = usbBufferSize
  fits : 7 + n + 2 ≤ usbBufferSize
  lt : k < n
  rdataGr_eq : s.rdataGr = k
  rlen_eq : s.rlen = n - k
  length_bk : s.rdataBk.length = 2
  bk_eq : ∀ i, i < 2 → k + i < n → s.rdataBk[i]? = some 0
  tx_eq : ∀ i, i < n → i ≠ k → i ≠ k + 1 → s.tx[7 + i]? = some 0

/-- The state after the first part of a response of zeros. -/
theorem zerosLeft_apduRespond (tx : TxBuffer) {n : ℕ}
    (hn : hid.rdata + n + 2 ≤ usbBufferSize) (hlt : ne < n) :
    ZerosLeft n ne (apduRespond .hid tag tx.1 ne (zeroResponse hn).body (zeroResponse hn).sw).2 := by
  have hrest := RestAt.handled tx (zeroResponse hn)
  obtain ⟨full, hfull⟩ : ∃ full, full = patch (patch (hid.arrive tx.1) hid.rdata
    (zeroResponse hn).body) (hid.rdata + (zeroResponse hn).body.length)
    (swBytes (zeroResponse hn).sw) := ⟨_, rfl⟩
  have hbody : (zeroResponse hn).body.length = n := length_replicate
  rw [← hfull] at hrest
  have hlen := hrest.length_eq
  -- the body itself
  have hzero : ∀ i, i < n → full[7 + i]? = some 0 := by
    intro i hi
    have hslice := congrArg (fun bytes ↦ bytes[i]?) hrest.bytes
    simp only [getElem?_slice, hbody] at hslice
    rw [if_pos (by omega), getElem?_append_left (by omega)] at hslice
    show full[hid.rdata + 0 + i]? = _
    rw [hslice]
    exact getElem?_replicate_of_lt hi
  rw [apduRespond, apduFinish, apduNext]
  dsimp only
  rw [if_pos (zeroResponse hn).sw_ne, if_neg (by omega), ← hfull]
  simp only [usbBufferSize, rdata] at hn
  have hmark : 7 + ne + (swRemaining (n - ne)).length ≤ full.length := by
    rw [hlen, length_swRemaining]
    simp only [usbBufferSize]
    omega
  have hmarked : (patch full (7 + ne) (swRemaining (n - ne))).length = usbBufferSize := by
    rw [length_patch hmark, hlen]
  have hsize : (ne + 2) % 65536 = ne + 2 := mod_eq_of_lt (by omega)
  have hheader (tag : ResponseTag) (size : ℕ) : 0 + (hid.header tag size).length ≤
      (patch full (7 + ne) (swRemaining (n - ne))).length := by
    rw [length_header, hmarked]
    decide
  rw [hsize, hbody, driverExecFinished_eq (by simp only [usbBufferSize, rdata]; omega) hmarked]
  refine ⟨(length_patch (hheader ..)).trans hmarked, hn, hlt, rfl, rfl, ?_, ?_, ?_⟩
  · exact length_slice (by rw [hlen]; simp only [usbBufferSize, rdata]; omega)
  · intro i hi hin
    show (slice full (7 + ne) 2)[i]? = _
    rw [getElem?_slice, if_pos hi, add_assoc]
    exact hzero _ hin
  · intro i hi hne hne'
    show (patch (patch full (7 + ne) (swRemaining (n - ne))) 0 _)[7 + i]? = _
    rw [getElem?_patch (hheader ..), length_header, if_neg (by simp only [rdata]; omega),
      getElem?_patch hmark, if_neg (by rw [length_swRemaining]; omega)]
    exact hzero i hi

/-- **The next GET RESPONSE over HID** sends nothing there is to be said of, or has a zero where the
status is to be. -/
theorem ZerosLeft.getResponse {n : ℕ} (h : ZerosLeft n k s) (tag : ResponseTag) (ne : ℕ) :
    (apduGetResponse .hid tag ne s).1 = none ∨
      ∃ sent, (apduGetResponse .hid tag ne s).1 = some sent ∧
        sent.length = min ne (n - k) + 2 ∧ sent[min ne (n - k)]? = some 0 := by
  have hlen := h.length_eq
  have hfits := h.fits
  have hlt := h.lt
  simp only [usbBufferSize] at hlen hfits
  obtain ⟨restored, hrestored⟩ : ∃ restored, restored = patch (hid.arrive s.tx)
    (hid.rdata + s.rdataGr) s.rdataBk := ⟨_, rfl⟩
  have harrive : (hid.arrive s.tx).length = 2048 := length_arrive h.length_eq
  have hbk : 7 + k + s.rdataBk.length ≤ (hid.arrive s.tx).length := by
    rw [h.length_bk]
    omega
  have hlenRestored : restored.length = 2048 := by
    rw [hrestored, h.rdataGr_eq]
    exact (length_patch hbk).trans harrive
  -- what the zero is found at lies before the end of the body
  have hzero {i : ℕ} (hi : i < n) : restored[7 + i]? = some 0 := by
    rw [hrestored, h.rdataGr_eq]
    show (patch _ (7 + k) _)[_]? = _
    rw [getElem?_patch hbk, h.length_bk]
    split_ifs with hin
    · have hbit := h.bk_eq (7 + i - (7 + k)) (by omega) (by omega)
      exact hbit
    · rw [arrive, getElem?_patch (by rw [length_replicate]; omega), length_replicate]
      split_ifs with hclear
      · exact getElem?_replicate_of_lt (by omega)
      · exact h.tx_eq i hi (by omega) (by omega)
  have hsent (tx : Bytes) (size : ℕ) (s₁ : ApduResponse) (htx : s₁.tx = tx) (hlenTx : tx.length = 2048)
      (hsize : k + size ≤ 2048) (hmin : size = min ne (n - k) + 2)
      (hat : 7 ≤ k → tx[k + min ne (n - k)]? = some 0) :
      (driverExecFinishedCont .hid tag size k s₁).1 = none ∨
        ∃ sent, (driverExecFinishedCont .hid tag size k s₁).1 = some sent ∧
          sent.length = min ne (n - k) + 2 ∧ sent[min ne (n - k)]? = some 0 := by
    rw [driverExecFinishedCont, driverExecFinishedContHid]
    split_ifs with hin
    · rw [htx, hlenTx] at hin
      have hk : 7 ≤ k := by omega
      have hoffset : (k + 65536 - 7) % 65536 = k - 7 := by omega
      rw [hoffset, htx]
      have hheader : k - 7 + (hid.header tag size).length ≤ tx.length := by
        rw [length_header, hlenTx]
        simp only [rdata]
        omega
      refine .inr ⟨_, rfl, ?_, ?_⟩
      · rw [length_slice (by rw [length_patch hheader]; omega), hmin]
      · rw [getElem?_slice, if_pos (by omega), getElem?_patch hheader, length_header,
          if_neg (by simp only [rdata]; omega), Nat.sub_add_cancel hk]
        exact hat hk
    · exact .inl rfl
  rw [apduGetResponse, ← hrestored, h.rlen_eq]
  split_ifs with hle
  · have hmin : min ne (n - k) = n - k := min_eq_right hle
    rw [h.rdataGr_eq]
    refine hsent restored _ _ rfl hlenRestored (by omega) (by omega) fun hk ↦ ?_
    have hat := @hzero (k + (n - k) - 7) (by omega)
    rwa [show 7 + (k + (n - k) - 7) = k + min ne (n - k) by omega] at hat
  · have hmin : min ne (n - k) = ne := min_eq_left (by omega)
    have hmark : 7 + (k + ne) + (swRemaining (n - k - ne)).length ≤ restored.length := by
      rw [length_swRemaining]
      omega
    rw [h.rdataGr_eq]
    refine hsent (patch restored (7 + (k + ne)) (swRemaining (n - k - ne))) _ _ rfl
      ((length_patch hmark).trans hlenRestored) (by omega) (by omega) fun hk ↦ ?_
    rw [getElem?_patch hmark, if_neg (by omega)]
    have hat := @hzero (k + ne - 7) (by omega)
    rwa [show 7 + (k + ne - 7) = k + min ne (n - k) by omega] at hat

/-- What is sent by a GET RESPONSE over HID is no part of a response of zeros. -/
theorem not_responseChained_of_zero {m : ℕ} {sent : Bytes} {rest : Bytes}
    {sents : List (Option Bytes)} (hlen : sent.length = m + 2) (hzero : sent[m]? = some 0) :
    ¬ ResponseChained swOk rest (some sent :: sents) := by
  rintro (⟨hlast, -⟩ | ⟨part, left, -, -, hpart, -⟩)
  · cases hlast
    rw [length_append, length_swBytes] at hlen
    rw [getElem?_append_right (by omega), show m - rest.length = 0 by omega] at hzero
    cases hzero
  · cases hpart
    rw [length_append, length_swRemaining] at hlen
    rw [getElem?_append_right (by omega), show m - part.length = 0 by omega] at hzero
    cases hzero

/-- **Response chaining.** For a response of `n` bytes, a command that allows `ne` of them and the
GET RESPONSEs that come after it, what is sent is the response in parts, whatever the response, if
and only if the transport is the smart card interface, or the command allows the response as a whole,
or no GET RESPONSE comes. -/
theorem apdu_responses_chained (t : Transport) (n ne : ℕ) (gets : List GetResponse)
    (hn : t.rdata + n + 2 ≤ usbBufferSize) :
    (∀ (tag : ResponseTag) (tx : TxBuffer) (response : HandlerResponse t),
      response.body.length = n →
      ResponseChained response.sw response.body (apduResponses tag tx ne response gets)) ↔
    t = .ccid ∨ n ≤ ne ∨ gets = [] := by
  constructor
  · intro h
    by_contra! hnot
    obtain ⟨ht, hlt, hgets⟩ := hnot
    obtain rfl : t = .hid := by
      cases t with
      | ccid => exact absurd rfl ht
      | hid => rfl
    obtain ⟨get, gets, rfl⟩ := exists_cons_of_ne_nil hgets
    have hchained := h ⟨0, 0, 0, 0⟩ ⟨List.replicate usbBufferSize 0, length_replicate⟩
      (zeroResponse hn) length_replicate
    obtain ⟨tx, htx⟩ : ∃ tx : TxBuffer,
      tx = ⟨List.replicate usbBufferSize 0, length_replicate⟩ := ⟨_, rfl⟩
    have hspec := apduRespond_spec ⟨0, 0, 0, 0⟩ tx ne (zeroResponse hn)
    have hbody : (zeroResponse hn).body.length = n := length_replicate
    rw [if_neg (by omega)] at hspec
    obtain ⟨hfirst, hpending⟩ := hspec
    rw [← htx, apduResponses] at hchained
    rw [hfirst, apduGetResponses, if_pos hpending.pending] at hchained
    rcases hchained with ⟨-, hnil⟩ | ⟨part, left, -, -, -, hrest⟩
    · cases hnil
    · dsimp only at hrest
      rcases (zerosLeft_apduRespond tx hn hlt).getResponse get.tag get.cmd.ne with
        hnone | ⟨sent, hsent, hlen, hzero⟩
      · rw [hnone] at hrest
        rcases hrest with ⟨hsome, -⟩ | ⟨part', left', -, -, hsome, -⟩ <;> cases hsome
      · rw [hsent] at hrest
        exact not_responseChained_of_zero hlen hzero hrest
  · intro hcond tag tx response hbody
    have hspec := apduRespond_spec tag tx ne response
    rw [apduResponses]
    by_cases hle : response.body.length ≤ ne
    · rw [if_pos hle] at hspec
      obtain ⟨hfirst, hdone⟩ := hspec
      rw [hfirst, apduGetResponses_done hdone]
      exact .inl ⟨rfl, rfl⟩
    · rw [if_neg hle] at hspec
      obtain ⟨hfirst, hpending⟩ := hspec
      have hleft : (response.body.drop ne).length = response.body.length - ne := length_drop
      rw [hfirst, ← hleft]
      refine .inr ⟨_, _, (take_append_drop ne response.body).symm,
        ne_nil_of_length_pos (by omega), rfl, ?_⟩
      rcases hcond with rfl | hle' | rfl
      · rw [hpending.getResponses]
        exact responseParts_chained ..
      · omega
      · trivial

/-- A tag for examples. -/
def apduToyTag : ResponseTag :=
  ⟨1, 0, 2, 0x83⟩

/-- A buffer for examples. -/
def apduToyBuffer : TxBuffer :=
  .cleared

/-- A GET RESPONSE that allows ten bytes. -/
def apduToyGet : GetResponse where
  tag := apduToyTag
  buffer := [0, 0xc0, 0, 0, 10]
  cmd := ⟨⟨0, 0xc0, 0, 0⟩, [], 10⟩
  parse_eq := rfl
  ins_eq := rfl

/-- A response of twenty bytes. -/
def apduToyResponse (t : Transport) : HandlerResponse t where
  body := (List.range' 1 20).map UInt8.ofNat
  sw := swOk
  sw_ne := by decide
  fits := by cases t <;> decide

/-- Of twenty bytes over HID, the second GET RESPONSE brings two, among zeros, and no status. -/
theorem apdu_responses_hid :
    apduResponses apduToyTag apduToyBuffer 10 (apduToyResponse .hid) [apduToyGet] =
        [some [1, 2, 3, 4, 5, 6, 7, 8, 9, 10, 0x61, 10],
          some [0, 0, 0, 0, 0, 0, 0, 11, 12, 0, 0, 0]] ∧
      ¬ ResponseChained swOk (apduToyResponse .hid).body
        (apduResponses apduToyTag apduToyBuffer 10 (apduToyResponse .hid) [apduToyGet]) := by
  have hresponses : apduResponses apduToyTag apduToyBuffer 10 (apduToyResponse .hid) [apduToyGet] =
      [some [1, 2, 3, 4, 5, 6, 7, 8, 9, 10, 0x61, 10],
        some [0, 0, 0, 0, 0, 0, 0, 11, 12, 0, 0, 0]] := by
    decide +kernel
  refine ⟨hresponses, ?_⟩
  rw [hresponses]
  rintro (⟨-, hnil⟩ | ⟨part, left, -, -, -, hrest⟩)
  · cases hnil
  · exact @not_responseChained_of_zero 10 _ left _ rfl rfl hrest

/-- The same response over the smart card interface. -/
theorem apdu_responses_chained_ccid :
    ResponseChained swOk (apduToyResponse .ccid).body
      (apduResponses apduToyTag apduToyBuffer 10 (apduToyResponse .ccid) [apduToyGet]) :=
  (apdu_responses_chained .ccid 20 10 [apduToyGet] (by decide)).mpr (.inl rfl) apduToyTag
    apduToyBuffer (apduToyResponse .ccid) rfl

end PicoAll
