import PicoAll.Lib.Fragments
import PicoAll.Transport.Hid

/-!
# The messages of CTAPHID

What the frames of a message are, whichever side sends them: an initialization frame with the command
and the length, and continuation frames numbered from 0, on one channel. `reassemble` puts a message
together, and `IsFragment` says what the frames of a given message are; frames that are as many as
the message needs are put together to that message (`reassemble_of_isFragment`).
-/

namespace PicoAll

open BigEndian ByteBuffer Fragments List

/-- The data of frames, in the order in which they come. -/
def framesData (i : CtapFrame) (conts : List CtapFrame) : Bytes :=
  i.initData ++ conts.flatMap (·.body)

/-- Put a message together from its frames. -/
def reassemble : List CtapFrame → Option HidMessage
  | [] => none
  | i :: conts =>
    if i.isInit ∧ (∀ f ∈ conts, f.cid = i.cid) ∧
        conts.map (·.type.toNat) = List.range conts.length ∧
        i.msgLen ≤ (framesData i conts).length then
      some ⟨i.cid, i.type, (framesData i conts).take i.msgLen⟩
    else
      none

/-- Where the data of a frame is in the message. -/
def fragmentStart : ℕ → ℕ
  | 0 => 0
  | k + 1 => 57 + 59 * k

/-- The type of a frame of a message. -/
def fragmentType (m : HidMessage) (k : ℕ) : UInt8 :=
  if k = 0 then m.cmd else UInt8.ofNat (k - 1)

/-- A frame is the `k`-th one of a message. Behind the end of the message it may have anything. -/
structure IsFragment (m : HidMessage) (k : ℕ) (f : CtapFrame) : Prop where
  cid_eq : f.cid = m.cid
  type_eq : f.type = fragmentType m k
  msgLen_eq : k = 0 → f.msgLen = m.payload.length
  needed : k = 0 ∨ fragmentStart k < m.payload.length
  data : Agrees (if k = 0 then f.initData else f.body) (m.payload.drop (fragmentStart k))

variable {m : HidMessage} {i f : CtapFrame} {conts fs : List CtapFrame}

theorem body_length (f : CtapFrame) : f.body.length = 59 :=
  f.length_body

@[simp]
theorem length_initData (f : CtapFrame) : f.initData.length = 57 := by
  rw [CtapFrame.initData, length_drop, body_length]

theorem length_framesData (i : CtapFrame) (conts : List CtapFrame) :
    (framesData i conts).length = fragmentStart (conts.length + 1) := by
  rw [framesData, length_append, length_initData, fragmentStart]
  congr 1
  induction conts with
  | nil => rfl
  | cons f conts ih =>
    rw [flatMap_cons, length_append, ih, body_length, length_cons]
    omega

theorem framesData_concat (i : CtapFrame) (conts : List CtapFrame) (f : CtapFrame) :
    framesData i (conts ++ [f]) = framesData i conts ++ f.body := by
  rw [framesData, framesData, flatMap_append, append_assoc]
  simp only [flatMap_cons, flatMap_nil, append_nil]

/-- The frames of a message, and what they say. -/
theorem reassemble_eq_some :
    reassemble (i :: conts) = some m ↔
      (i.isInit = true ∧ (∀ f ∈ conts, f.cid = i.cid) ∧
        conts.map (·.type.toNat) = List.range conts.length ∧
        i.msgLen ≤ (framesData i conts).length) ∧
      m = ⟨i.cid, i.type, (framesData i conts).take i.msgLen⟩ := by
  rw [reassemble]
  split_ifs with h
  · exact ⟨fun hm ↦ ⟨h, (Option.some.inj hm).symm⟩, fun hm ↦ by rw [hm.2]⟩
  · exact ⟨fun hm ↦ absurd hm (by simp), fun hm ↦ absurd hm.1 h⟩

/-- The data of the frames of a message agrees with the message. -/
theorem agrees_framesData (hinit : IsFragment m 0 i)
    (hconts : ∀ k f, conts[k]? = some f → IsFragment m (k + 1) f) :
    Agrees (framesData i conts) m.payload := by
  induction conts using List.reverseRecOn with
  | nil =>
    have hdata := hinit.data
    rw [framesData, flatMap_nil, append_nil]
    exact hdata
  | append_singleton conts f ih =>
    have hprefix : ∀ k g, conts[k]? = some g → IsFragment m (k + 1) g := fun k g hg ↦ by
      obtain ⟨hk, -⟩ := List.getElem?_eq_some_iff.mp hg
      exact hconts k g (by rw [getElem?_append_left hk, hg])
    have hlast : IsFragment m (conts.length + 1) f :=
      hconts _ f (by rw [getElem?_append_right le_rfl, Nat.sub_self]; rfl)
    have hdata := hlast.data
    rw [framesData_concat]
    refine (ih hprefix).append ?_
    rw [length_framesData]
    exact hdata

/-- **Enough frames of a message are put together to the message.** -/
theorem reassemble_of_isFragment (hcmd : m.cmd &&& 0x80 = 0x80) (hinit : IsFragment m 0 i)
    (hconts : ∀ k f, conts[k]? = some f → IsFragment m (k + 1) f) (hle : conts.length ≤ 128)
    (hlen : m.payload.length ≤ fragmentStart (conts.length + 1)) :
    reassemble (i :: conts) = some m := by
  have hmsgLen : i.msgLen = m.payload.length := hinit.msgLen_eq rfl
  have hlength := length_framesData i conts
  have hdata := agrees_framesData hinit hconts
  rw [reassemble_eq_some]
  refine ⟨⟨?_, fun f hf ↦ ?_, ?_, by omega⟩, ?_⟩
  · rw [CtapFrame.isInit, hinit.type_eq, fragmentType, if_pos rfl, hcmd]
    rfl
  · obtain ⟨k, hk⟩ := mem_iff_getElem?.mp hf
    rw [(hconts k f hk).cid_eq, hinit.cid_eq]
  · refine ext_getElem (by simp) fun k hk hk' ↦ ?_
    rw [length_map] at hk
    have hfrag := hconts k conts[k] (getElem?_eq_getElem hk)
    rw [getElem_map, getElem_range, hfrag.type_eq, fragmentType, if_neg (Nat.succ_ne_zero k)]
    show k % 256 = k
    omega
  · rw [hmsgLen, hdata.take_eq (by omega), hinit.cid_eq, hinit.type_eq]
    rfl

/-! ### Frames of a message -/

section Fragment

variable {xs : Bytes} {k : ℕ}

/-- The bytes of a frame are read as the frame. -/
theorem CtapFrame.ofBytes_eq_padded (cid : UInt32) (type : UInt8) (data : Bytes) :
    ofBytes (leBytes 4 cid.toNat ++ type :: data) = padded cid type data := by
  have hlen : (leBytes 4 cid.toNat).length = 4 := length_leBytes 4 cid.toNat
  have hcid : UInt32.ofNat (leNat (leBytes 4 cid.toNat)) = cid := by
    rw [leNat_leBytes (show cid.toNat < 256 ^ 4 from cid.toNat_lt), UInt32.ofNat_toNat]
  have hdrop : (leBytes 4 cid.toNat ++ type :: data).drop 5 = data := by
    rfl
  have htype : (leBytes 4 cid.toNat ++ type :: data).getD 4 0 = type := by
    rfl
  rw [ofBytes, take_left' hlen, hcid, hdrop, htype]

theorem CtapFrame.initData_padded (cid : UInt32) (type : UInt8) (n : ℕ) (data : Bytes) :
    (padded cid type (beBytes 2 n ++ data)).initData =
      (data ++ List.replicate (hidRptSize - 5) 0).take 57 :=
  rfl

theorem CtapFrame.msgLen_padded {n : ℕ} (hn : n < 65536) (cid : UInt32) (type : UInt8)
    (data : Bytes) : (padded cid type (beBytes 2 n ++ data)).msgLen = n := by
  show (UInt8.ofNat (n / 256 ^ 1)).toNat * 256 + (UInt8.ofNat (n / 256 ^ 0)).toNat = n
  rw [UInt8.toNat_ofNat', UInt8.toNat_ofNat']
  omega

/-- The first frame of a message. -/
theorem isFragment_first (hlen : m.payload.length < 65536) (hle : m.payload.length ≤ xs.length)
    (hpayload : m.payload = xs.take m.payload.length) :
    IsFragment m 0 (.padded m.cid m.cmd (beBytes 2 m.payload.length ++ xs.take 57)) := by
  refine ⟨rfl, rfl, fun _ ↦ CtapFrame.msgLen_padded hlen _ _ _, .inl rfl, ?_⟩
  exact hpayload ▸ Agrees.filled xs _ hle

/-- Another frame of a message. -/
theorem isFragment_next {r : ℕ} (hneeded : fragmentStart (k + 1) < m.payload.length)
    (hle : r ≤ xs.length) (hpayload : m.payload.drop (fragmentStart (k + 1)) = xs.take r) :
    IsFragment m (k + 1) (.padded m.cid (UInt8.ofNat k) (xs.take 59)) := by
  refine ⟨rfl, rfl, fun h ↦ absurd h (Nat.succ_ne_zero k), .inr hneeded, ?_⟩
  rw [if_neg (Nat.succ_ne_zero k), hpayload]
  exact Agrees.filled xs _ hle

end Fragment

end PicoAll
