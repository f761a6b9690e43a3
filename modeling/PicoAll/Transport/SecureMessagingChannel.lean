import PicoAll.Transport.SecureMessaging

/-!
# The secure messaging channel

What a MAC covers, without the buffer that it is put together in: the counter, the header of the
command in a block of its own and the data objects with an odd tag, padded (`smMacInput`). The
header is covered when both bits of the class that indicate secure messaging are set; with one of
them it is not, and the command is accepted whatever its header says.

`sm_verify` accepts a command if its last object `8E` is such a MAC, under the counter plus one
(`smVerify_ok_iff`). A message put together in the usual order — the data, one more object, the
MAC — is read again for what it was (`SmMessage`).
-/

namespace PicoAll

open BigEndian Padding List Option

/-! ### What a MAC covers -/

variable (C : SmCipher) (items : List TlvItem) (ssc : ℕ) (header : ApduHeader)

/-- The header, if the class says that it is authenticated. -/
def ApduHeader.authenticated : Option ApduHeader :=
  if header.cla &&& 0xc = 0xc then some header else none

/-- A header, as a string. -/
def ApduHeader.bytes : Bytes :=
  [header.cla, header.ins, header.p1, header.p2]

/-- What a MAC is taken over. -/
def smMacInput (header : Option ApduHeader) (objects : Bytes) : Bytes :=
  beBytes 16 ssc ++ (header.map fun header ↦ pad 16 header.bytes).getD [] ++
    if objects = [] then [] else pad 16 objects

def smDataObject (item : TlvItem) : Bytes :=
  (if item.tag < 256 then [] else beBytes 1 (item.tag / 256)) ++
    encodeTlv (UInt8.ofNat item.tag) item.value

/-- The data objects that are covered: those with an odd tag. -/
def smDataObjects : Bytes :=
  (items.filter fun item ↦ item.tag % 2 = 1).flatMap smDataObject

/-- The data objects as `sm_verify` writes them, with one byte for the tag. -/
def smObjects : Bytes :=
  (items.filter fun item ↦ item.tag % 2 = 1).flatMap fun item ↦
    encodeTlv (UInt8.ofNat item.tag) item.value

/-- The MAC that is sent along: the last object `8E`. -/
def smSentMac : Option Bytes :=
  ((items.filter fun item ↦ item.tag = 0x8e).getLast?).map TlvItem.value

/-- Whether the tags of the covered objects have one byte. -/
def SmShortTags : Prop :=
  ∀ item ∈ items, item.tag % 2 = 1 → item.tag < 256

/-- What `sm_verify` takes the MAC of a command over. -/
def smCommandInput (cmd : ApduCommand) : Bytes :=
  smMacInput ssc cmd.header.authenticated (smObjects (tlvItems cmd.data))

/-- A MAC, as it is sent. -/
def smMac (kmac input : Bytes) : Bytes :=
  (C.cmac kmac input).take 8

/-- Whether a command fits into the buffer that its MAC is taken over. -/
def SmFits (cmd : ApduCommand) : Prop :=
  cmd.data.length / 16 * 16 + (if cmd.header.authenticated.isSome then 16 else 0) ≤
      usbBufferSize ∧
    (smCommandInput 0 cmd).length ≤ usbBufferSize

/-- A session that has been set up with AES. -/
structure SmSession.Established (s : SmSession) : Prop where
  active : s.active = true
  blocksize : s.blocksize = 16

/-- The session with the next counter. -/
def SmSession.next (s : SmSession) : SmSession :=
  { s with ssc := s.ssc + 1 }

variable {s : SmSession} {cmd : ApduCommand} {m : SmMessage}

theorem SmSession.Established.next (h : s.Established) : s.next.Established :=
  ⟨h.active, h.blocksize⟩

theorem established_smDeriveAllKeys (kenc kmac : Bytes) (s : SmSession) :
    (smDeriveAllKeys kenc kmac (smSetProtocol .aes s)).Established :=
  ⟨rfl, rfl⟩

theorem length_smMacInput (ssc ssc' : ℕ) (header : Option ApduHeader) (objects : Bytes) :
    (smMacInput ssc header objects).length = (smMacInput ssc' header objects).length := by
  simp [smMacInput]

/-- **The counter is covered**: inputs under different counters are different. -/
theorem smMacInput_ne {ssc ssc' : ℕ} (h : ssc < 256 ^ 16) (h' : ssc' < 256 ^ 16)
    (hne : ssc ≠ ssc') (header header' : Option ApduHeader) (objects objects' : Bytes) :
    smMacInput ssc header objects ≠ smMacInput ssc' header' objects' := by
  intro heq
  rw [smMacInput, smMacInput, append_assoc, append_assoc] at heq
  have hssc : beBytes 16 ssc = beBytes 16 ssc' := (append_inj heq (by simp)).1
  have hnat := congrArg beNat hssc
  rw [beNat_beBytes h, beNat_beBytes h'] at hnat
  exact hne hnat

theorem smDataObjects_eq {items : List TlvItem} (h : SmShortTags items) :
    smDataObjects items = smObjects items := by
  refine flatMap_congr fun item hitem ↦ ?_
  obtain ⟨hmem, hodd⟩ := mem_filter.mp hitem
  rw [smDataObject, if_pos (h item hmem (by simpa using hodd)), nil_append]

/-! ### `sm_verify` -/

variable (tag : UInt8)

theorem length_encodeTlv (value : Bytes) :
    (encodeTlv tag value).length = 1 + (tlvFormatLen value.length).length + value.length := by
  rw [encodeTlv, length_append, length_cons]
  omega

theorem smObjects_cons (item : TlvItem) (items : List TlvItem) :
    smObjects (item :: items) =
      (if item.tag % 2 = 1 then encodeTlv (UInt8.ofNat item.tag) item.value else []) ++
        smObjects items := by
  by_cases hodd : item.tag % 2 = 1 <;> simp [smObjects, hodd]

theorem smSentMac_cons (item : TlvItem) (items : List TlvItem) :
    smSentMac (item :: items) =
      (smSentMac items).or (if item.tag = 0x8e then some item.value else none) := by
  by_cases htag : item.tag = 0x8e
  · rw [smSentMac, smSentMac, filter_cons_of_pos (by simpa using htag), getLast?_cons, if_pos htag]
    generalize List.getLast? _ = last
    cases last <;> rfl
  · rw [smSentMac, smSentMac, filter_cons_of_neg (by simpa using htag), if_neg htag, or_none]

/-- The loop of `sm_verify`: it writes the objects that are covered, if there is room for them. -/
theorem foldlM_smVerifyItem (acc : SmVerifyAcc) (hroom : acc.input.length ≤ usbBufferSize) :
    items.foldlM smVerifyItem acc =
      if acc.input.length + (smObjects items).length ≤ usbBufferSize then
        some ⟨acc.input ++ smObjects items, acc.someAdded || smObjects items != [],
          (smSentMac items).or acc.mac⟩
      else none := by
  induction items generalizing acc with
  | nil => simp [smObjects, smSentMac, hroom]
  | cons item items ih =>
    have hmac : (if item.tag = 0x8e then some item.value else acc.mac) =
        (if item.tag = 0x8e then some item.value else none).or acc.mac := by
      split_ifs <;> rfl
    rw [foldlM_cons, smVerifyItem, hmac, smObjects_cons, smSentMac_cons, Option.or_assoc]
    by_cases hodd : item.tag % 2 = 1
    · have hlen := length_encodeTlv (UInt8.ofNat item.tag) item.value
      rw [if_pos hodd, if_pos hodd, length_append, ← hlen]
      by_cases hfit : (encodeTlv (UInt8.ofNat item.tag) item.value).length >
          usbBufferSize - acc.input.length
      · rw [if_pos hfit, if_neg (by omega)]
        rfl
      · have hne : (encodeTlv (UInt8.ofNat item.tag) item.value ++ smObjects items != []) = true := by
          simp [encodeTlv]
        rw [if_neg hfit, hne]
        show List.foldlM _ _ _ = _
        rw [ih _ (by simp only [length_append]; omega)]
        simp [append_assoc, Nat.add_assoc]
    · rw [if_neg hodd, if_neg hodd]
      exact ih ⟨acc.input, acc.someAdded, _⟩ hroom

/-- What stands before the objects. -/
theorem smMacInput_nil :
    beBytes 16 ssc ++ (if header.cla &&& 0xc = 0xc then smHeaderBlock 16 header else []) =
      smMacInput ssc header.authenticated [] := by
  rw [smMacInput, ApduHeader.authenticated, if_pos rfl, append_nil]
  split_ifs <;> rfl

theorem length_smMacInput_nil :
    (smMacInput ssc header.authenticated []).length =
      16 + if header.authenticated.isSome then 16 else 0 := by
  rcases header.authenticated with - | header
  · simp [smMacInput]
  · simp [smMacInput, length_pad, ApduHeader.bytes]

/-- The padding is put behind all that has been written, which comes to the same. -/
theorem marked_smMacInput {objects : Bytes} (h : objects ≠ []) :
    marked (smMacInput ssc header.authenticated [] ++ objects)
        (16 - (smMacInput ssc header.authenticated [] ++ objects).length % 16 - 1) =
      smMacInput ssc header.authenticated objects := by
  have hlen := length_smMacInput_nil ssc header
  have hmod : (smMacInput ssc header.authenticated [] ++ objects).length % 16 =
      objects.length % 16 := by
    rw [length_append, hlen]
    split_ifs <;> omega
  have hzeros : 16 - objects.length % 16 - 1 = 16 - 1 - objects.length % 16 := by
    omega
  rw [hmod, hzeros, marked, smMacInput, smMacInput, if_pos rfl, if_neg h, pad, marked,
    append_nil, append_assoc]

/-- Whether there is room for the objects and for the padding behind them. -/
theorem smMacInput_fits_iff (objects : Bytes) :
    (smMacInput ssc header.authenticated objects).length ≤ usbBufferSize ↔
      (smMacInput ssc header.authenticated []).length + objects.length ≤ usbBufferSize ∧
        (objects ≠ [] →
          16 - (smMacInput ssc header.authenticated [] ++ objects).length % 16 ≤
            usbBufferSize - (smMacInput ssc header.authenticated [] ++ objects).length) := by
  by_cases h : objects = []
  · simp [h]
  · rw [← marked_smMacInput ssc header h, length_marked, length_append]
    simp only [ne_eq, h, not_false_eq_true, forall_const, usbBufferSize]
    omega

/-- The counter is counted up by one, or not at all. -/
theorem smVerify_session (s : SmSession) (cmd : ApduCommand) :
    (smVerify C s cmd).1 = s ∨ (smVerify C s cmd).1 = s.next := by
  fun_cases smVerify C s cmd <;> first | exact .inl rfl | exact .inr rfl

theorem smVerify_session_of_ok {C : SmCipher} (h : (smVerify C s cmd).2 = .ok ()) :
    (smVerify C s cmd).1 = s.next := by
  revert h
  fun_cases smVerify C s cmd <;> intro h <;> first | rfl | cases h

/-- **What `sm_verify` accepts**: a command that fits and that carries its MAC under the counter
plus one. -/
theorem smVerify_ok_iff (hs : s.Established) (cmd : ApduCommand) :
    (smVerify C s cmd).2 = .ok () ↔
      SmFits cmd ∧ s.ssc + 1 < 256 ^ 16 ∧
        smSentMac (tlvItems cmd.data) =
          some (smMac C s.kmac (smCommandInput (s.ssc + 1) cmd)) := by
  have hauth : cmd.header.authenticated.isSome = decide (cmd.header.cla &&& 0xc = 0xc) := by
    rw [ApduHeader.authenticated]
    split_ifs with h <;> simp [h]
  have hmod : cmd.data.length / 16 * 16 % 16 = 0 := Nat.mul_mod_left ..
  have hbase := length_smMacInput_nil (s.ssc + 1) cmd.header
  have hfold := foldlM_smVerifyItem (tlvItems cmd.data)
    ⟨smMacInput (s.ssc + 1) cmd.header.authenticated [], false, none⟩
    (by rw [hbase]; split_ifs <;> decide)
  have hfits := smMacInput_fits_iff (s.ssc + 1) cmd.header (smObjects (tlvItems cmd.data))
  have hlen : (smCommandInput 0 cmd).length = (smCommandInput (s.ssc + 1) cmd).length :=
    length_smMacInput ..
  have hinput : (if (smObjects (tlvItems cmd.data) != []) = true then
        marked (smMacInput (s.ssc + 1) cmd.header.authenticated [] ++ smObjects (tlvItems cmd.data))
          (16 - (smMacInput (s.ssc + 1) cmd.header.authenticated [] ++
            smObjects (tlvItems cmd.data)).length % 16 - 1)
      else smMacInput (s.ssc + 1) cmd.header.authenticated [] ++ smObjects (tlvItems cmd.data)) =
      smCommandInput (s.ssc + 1) cmd := by
    rw [smCommandInput]
    split_ifs with hnil
    · exact marked_smMacInput _ _ (by simpa using hnil)
    · rw [show smObjects (tlvItems cmd.data) = [] by simpa using hnil, append_nil]
  rw [SmFits, hlen, hauth]
  simp only [smVerify, hs.blocksize, hmod, smMacInput_nil, hfold, decide_eq_true_eq, ne_eq,
    not_true_eq_false, if_false, Bool.false_or, or_none, ge_iff_le, gt_iff_lt,
    ← not_le (a := 256 ^ 16)]
  by_cases hpre : usbBufferSize < cmd.data.length / 16 * 16 +
      if cmd.header.cla &&& 0xc = 0xc then 16 else 0
  · simp only [if_pos hpre, reduceCtorEq, not_le.mpr hpre, false_and]
  by_cases hssc : 256 ^ 16 ≤ s.ssc + 1
  · simp only [if_neg hpre, hssc, if_true, reduceCtorEq, not_true_eq_false, false_and, and_false]
  by_cases hroom : (smMacInput (s.ssc + 1) cmd.header.authenticated []).length +
      (smObjects (tlvItems cmd.data)).length ≤ usbBufferSize
  swap
  · have hlong : ¬(smCommandInput (s.ssc + 1) cmd).length ≤ usbBufferSize := fun h ↦
      hroom (hfits.mp h).1
    simp only [if_neg hpre, if_neg hssc, if_neg hroom, reduceCtorEq, hlong, and_false, false_and]
  simp only [if_neg hpre, if_neg hssc, if_pos hroom, hinput]
  have hroom' : ((smObjects (tlvItems cmd.data) != []) = true ∧
      usbBufferSize - (smMacInput (s.ssc + 1) cmd.header.authenticated [] ++
          smObjects (tlvItems cmd.data)).length <
        16 - (smMacInput (s.ssc + 1) cmd.header.authenticated [] ++
          smObjects (tlvItems cmd.data)).length % 16) ↔
      ¬(smCommandInput (s.ssc + 1) cmd).length ≤ usbBufferSize := by
    rw [smCommandInput, hfits, bne_iff_ne]
    simp only [hroom, true_and, Classical.not_imp, not_le]
  simp only [hroom', not_lt.mp hpre, hssc, true_and, not_false_eq_true]
  rcases smSentMac (tlvItems cmd.data) with - | mac
  · simp
  have hlength : (smMac C s.kmac (smCommandInput (s.ssc + 1) cmd)).length = 8 := by
    rw [smMac, length_take, C.length_cmac]
    rfl
  simp only [map_some, getD_some, Option.some.injEq]
  split_ifs with hmac hlong heq
  · exact iff_of_true rfl ⟨hlong, heq.symm⟩
  · exact iff_of_false (by simp) fun h ↦ heq h.2.symm
  · exact iff_of_false (by simp) fun h ↦ hlong h.1
  · refine iff_of_false (by simp) fun h ↦ hmac ?_
    rw [h.2, hlength]

/-! ### `sm_unwrap` -/

/-- The command that `sm_unwrap` leaves when it accepts one. -/
def smPlainCommand (s : SmSession) (cmd : ApduCommand) (body : Option Bytes) :
    ApduCommand :=
  { cmd with
    data := (body.map fun body ↦
      smRemovePadding (C.aesDecrypt s.kenc (smUpdateIv C s) body)).getD []
    ne := smGetLe cmd.data }

/-- The two steps of `sm_unwrap`: the MAC, then the encrypted data. -/
theorem smUnwrap_eq (hs : s.Established) (hcla : smIndicator cmd.header ≠ 0) :
    smUnwrap C s cmd =
      match (smVerify C s cmd).2, smCryptogram 16 cmd.data with
      | .error e, _ => ((smVerify C s cmd).1, cmd, .error e)
      | .ok _, .error e => (s.next, { cmd with ne := smGetLe cmd.data }, .error e)
      | .ok _, .ok body => (s.next, smPlainCommand C s.next cmd body, .ok ()) := by
  have hsession := @smVerify_session_of_ok s cmd C
  rw [smUnwrap, if_neg hcla, if_neg (by simp [hs.active, hs.blocksize])]
  rcases hverify : smVerify C s cmd with ⟨s', e | ⟨⟨⟩⟩⟩
  · rfl
  · obtain rfl : s' = s.next := by
      rw [hverify] at hsession
      exact hsession rfl
    have hblock : s.next.blocksize = 16 := hs.blocksize
    simp only [hblock]
    rcases smCryptogram 16 cmd.data with e | - | body <;> rfl

/-- A command is accepted. -/
def SmAccepts (s : SmSession) (cmd : ApduCommand) : Prop :=
  (smUnwrap C s cmd).2.2 = .ok ()

/-- **What `sm_unwrap` accepts**: a command that `sm_verify` accepts and whose encrypted data are
well formed. -/
theorem smAccepts_iff (hs : s.Established) (hcla : smIndicator cmd.header ≠ 0) :
    SmAccepts C s cmd ↔
      (smVerify C s cmd).2 = .ok () ∧ ∃ body, smCryptogram 16 cmd.data = .ok body := by
  rw [SmAccepts, smUnwrap_eq C hs hcla]
  rcases (smVerify C s cmd).2 with e | ⟨⟨⟩⟩ <;>
    rcases smCryptogram 16 cmd.data with e' | body <;> simp

theorem smUnwrap_of_ok (hs : s.Established) (hcla : smIndicator cmd.header ≠ 0)
    (hverify : (smVerify C s cmd).2 = .ok ()) {body : Option Bytes}
    (hbody : smCryptogram 16 cmd.data = .ok body) :
    smUnwrap C s cmd = (s.next, smPlainCommand C s.next cmd body, .ok ()) := by
  rw [smUnwrap_eq C hs hcla, hverify, hbody]

/-- The counter is counted up by one, or not at all. -/
theorem smUnwrap_session (s : SmSession) (cmd : ApduCommand) :
    (smUnwrap C s cmd).1 = s ∨ (smUnwrap C s cmd).1 = s.next := by
  have hverify := smVerify_session C s cmd
  fun_cases smUnwrap C s cmd <;> simp_all

/-! ### Messages -/

/-- An object that may be left out. -/
def encodeOption (value : Option Bytes) : Bytes :=
  (value.map (encodeTlv tag)).getD []

/-- A protected message: an object with the data, one more object, and the MAC. -/
structure SmMessage where
  /-- The tag of the data. -/
  tag : UInt8
  /-- The value of the data, if there are any. -/
  body : Option Bytes
  /-- The tag of the other object. -/
  tag' : UInt8
  /-- Its value, if it is there. -/
  other : Option Bytes
  /-- The value of the object `8E`. -/
  mac : Bytes

/-- The objects that the MAC covers. -/
def SmMessage.objects (m : SmMessage) : Bytes :=
  encodeOption m.tag m.body ++ encodeOption m.tag' m.other

/-- A message, as it is sent. -/
def SmMessage.bytes (m : SmMessage) : Bytes :=
  m.objects ++ encodeTlv 0x8e m.mac

/-- The tags of a message: the data are in an `87` or an `85`, the other object is neither. -/
structure SmMessage.WellTagged (m : SmMessage) : Prop where
  tag : m.tag = 0x87 ∨ m.tag = 0x85
  tag' : m.tag' = 0x97 ∨ m.tag' = 0x99
  objects : m.objects.length ≤ usbBufferSize
  mac : m.mac.length = 8

theorem tlvItems_encodeTlv {tag : UInt8} {value : Bytes} (htag : tag &&& 0x1f ≠ 0x1f)
    (hlen : value.length ≤ 0xffff) (rest : Bytes) :
    tlvItems (encodeTlv tag value ++ rest) = ⟨tag.toNat, value, rest⟩ :: tlvItems rest :=
  tlvItems_of_walk (tlvWalk_encodeTlv htag hlen rest)

theorem tlvItems_encodeOption {tag : UInt8} {value : Option Bytes} (htag : tag &&& 0x1f ≠ 0x1f)
    (hlen : (encodeOption tag value).length ≤ usbBufferSize) (rest : Bytes) :
    tlvItems (encodeOption tag value ++ rest) =
      (value.map fun value ↦ ⟨tag.toNat, value, rest⟩).toList ++ tlvItems rest := by
  rcases value with - | value
  · rfl
  · rw [encodeOption, map_some, getD_some, length_encodeTlv, usbBufferSize] at hlen
    exact tlvItems_encodeTlv htag (by omega) rest

section

variable (h : m.WellTagged)
include h

theorem SmMessage.WellTagged.tlvItems :
    PicoAll.tlvItems m.bytes =
      (m.body.map fun body ↦
        ⟨m.tag.toNat, body, encodeOption m.tag' m.other ++ encodeTlv 0x8e m.mac⟩).toList ++
      (m.other.map fun other ↦ ⟨m.tag'.toNat, other, encodeTlv 0x8e m.mac⟩).toList ++
      [⟨0x8e, m.mac, []⟩] := by
  have hobjects := h.objects
  rw [SmMessage.objects, length_append] at hobjects
  have htag : m.tag &&& 0x1f ≠ 0x1f := by
    rcases h.tag with h | h <;> rw [h] <;> decide
  have htag' : m.tag' &&& 0x1f ≠ 0x1f := by
    rcases h.tag' with h | h <;> rw [h] <;> decide
  have hmac : PicoAll.tlvItems (encodeTlv 0x8e m.mac) = [⟨0x8e, m.mac, []⟩] := by
    have hlen : m.mac.length ≤ 0xffff := by
      rw [h.mac]
      decide
    have hitems := @tlvItems_encodeTlv 0x8e m.mac (by decide) hlen []
    rwa [append_nil] at hitems
  rw [SmMessage.bytes, SmMessage.objects, append_assoc,
    tlvItems_encodeOption htag (by omega), tlvItems_encodeOption htag' (by omega), hmac,
    append_assoc]

/-- What is covered of a message is all but the MAC. -/
theorem SmMessage.WellTagged.smObjects :
    PicoAll.smObjects (PicoAll.tlvItems m.bytes) = m.objects := by
  have htag : m.tag.toNat % 2 = 1 := by
    rcases h.tag with h | h <;> rw [h] <;> rfl
  have htag' : m.tag'.toNat % 2 = 1 := by
    rcases h.tag' with h | h <;> rw [h] <;> rfl
  rw [h.tlvItems, SmMessage.objects]
  rcases m with ⟨tag, - | body, tag', - | other, mac⟩ <;>
    simp_all [PicoAll.smObjects, encodeOption]

theorem SmMessage.WellTagged.smSentMac :
    PicoAll.smSentMac (PicoAll.tlvItems m.bytes) = some m.mac := by
  rw [h.tlvItems, PicoAll.smSentMac, filter_append, filter_cons_of_pos (by simp),
    filter_nil, getLast?_append]
  rfl

theorem SmMessage.WellTagged.length_bytes :
    m.bytes.length = m.objects.length + 10 := by
  have hlen : (tlvFormatLen 8).length = 1 := rfl
  rw [SmMessage.bytes, length_append, length_encodeTlv, h.mac, hlen]

/-- The rough check before the MAC input is put together is implied by the one while it is. -/
theorem SmMessage.WellTagged.precheck {header : ApduHeader}
    (hfits : (smMacInput 0 header.authenticated m.objects).length ≤ usbBufferSize) :
    m.bytes.length / 16 * 16 + (if header.authenticated.isSome then 16 else 0) ≤
      usbBufferSize := by
  have hroom := ((smMacInput_fits_iff 0 header m.objects).mp hfits).1
  have hbase := length_smMacInput_nil 0 header
  rw [h.length_bytes]
  rw [hbase] at hroom
  split_ifs at hroom ⊢ <;> omega

end

/-- A message is accepted by `sm_verify` if its MAC is right. -/
theorem smVerify_message (hs : s.Established) (h : m.WellTagged) (header : ApduHeader) (ne : ℕ)
    (hssc : s.ssc + 1 < 256 ^ 16)
    (hfits : (smMacInput 0 header.authenticated m.objects).length ≤ usbBufferSize)
    (hmac : m.mac = smMac C s.kmac (smMacInput s.next.ssc header.authenticated m.objects)) :
    (smVerify C s ⟨header, m.bytes, ne⟩).2 = .ok () := by
  refine (smVerify_ok_iff C hs _).mpr ⟨⟨?_, ?_⟩, hssc, ?_⟩
  · exact h.precheck hfits
  · rwa [smCommandInput, h.smObjects]
  · rw [smCommandInput, h.smObjects, h.smSentMac, hmac]
    rfl

theorem foldlM_smBodyItem_other {acc : SmBody}
    (h : ∀ item ∈ items, item.tag ≠ 0x87 ∧ item.tag ≠ 0x85) :
    items.foldlM smBodyItem acc = .ok acc := by
  induction items with
  | nil => rfl
  | cons item items ih =>
    obtain ⟨hitem, hitems⟩ := forall_mem_cons.mp h
    rw [foldlM_cons, smBodyItem, if_neg hitem.1, if_neg hitem.2]
    exact ih hitems

/-- Behind the data there are no other data. -/
theorem SmMessage.WellTagged.not_data (h : m.WellTagged) :
    ∀ item ∈ (m.other.map fun other ↦
        (⟨m.tag'.toNat, other, encodeTlv 0x8e m.mac⟩ : TlvItem)).toList ++ [⟨0x8e, m.mac, []⟩],
      item.tag ≠ 0x87 ∧ item.tag ≠ 0x85 := by
  have htag' : m.tag'.toNat ≠ 0x87 ∧ m.tag'.toNat ≠ 0x85 := by
    rcases h.tag' with h | h <;> rw [h] <;> decide
  rcases m.other with - | other <;> simp [htag']

/-- A message without data. -/
theorem SmMessage.WellTagged.smCryptogram_none (h : m.WellTagged) (hbody : m.body = none) :
    smCryptogram 16 m.bytes = .ok none := by
  rw [smCryptogram, h.tlvItems, hbody, map_none, toList_none, nil_append,
    foldlM_smBodyItem_other _ h.not_data]
  rfl

/-- The value of an object with encrypted data. -/
def smBodyValue (body : Bytes) : Bytes :=
  if tag = 0x87 then 0x1 :: body else body

/-- The encrypted data of a message are found again. -/
theorem SmMessage.WellTagged.smCryptogram_some (h : m.WellTagged) {body : Bytes}
    (hpos : body.length ≠ 0) (hmod : body.length % 16 = 0)
    (hbody : m.body = some (smBodyValue m.tag body)) :
    smCryptogram 16 m.bytes = .ok (some body) := by
  rw [smCryptogram, h.tlvItems, hbody, append_assoc, map_some, toList_some,
    singleton_append, foldlM_cons]
  rcases h.tag with htag | htag
  · rw [htag]
    show (List.foldlM smBodyItem _ _ >>= _) = _
    rw [foldlM_smBodyItem_other _ h.not_data]
    simp [smBodyValue, hpos, hmod, bind, Except.bind, pure, Except.pure]
  · rw [htag]
    show (List.foldlM smBodyItem _ _ >>= _) = _
    rw [foldlM_smBodyItem_other _ h.not_data]
    simp [smBodyValue, hpos, hmod, bind, Except.bind, pure, Except.pure]

theorem SmMessage.WellTagged.smGetLe (h : m.WellTagged) (htag' : m.tag' = 0x97) :
    PicoAll.smGetLe m.bytes = beNat (m.other.getD []) % 65536 := by
  have htag : m.tag.toNat ≠ 0x97 := by
    rcases h.tag with h | h <;> rw [h] <;> decide
  rw [PicoAll.smGetLe, h.tlvItems, htag']
  rcases m.body with - | body <;> rcases m.other with - | other <;> simp [htag] <;> rfl

end PicoAll
