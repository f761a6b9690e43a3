import PicoAll.Lib.BigEndian

/-!
# The TLV walker

`tlv.c` reads a buffer as a sequence of items: a tag of one byte, or of two when the low five bits
of the first are all set; a length of one byte, or of two behind `0x81`, or of three behind `0x82`;
and a value. The walker keeps a pointer into the buffer, which here is the rest of the buffer it
points to.

An item that `tlv_format_len` has written under a one-byte tag is read back (`tlvWalk_encodeTlv`),
so a concatenation of such items is walked item by item, to its end (`tlvItems_of_walk`,
`tlvEnd_of_walk`). Under a tag whose low five bits are all set it is not: the walker takes the first
byte of the length for the second byte of the tag.
-/

namespace PicoAll

open BigEndian Nat List

/-- An item the walker stopped at: `tlv_item_t`, and the pointer `p` behind it. -/
structure TlvItem where
  tag : ℕ
  value : Bytes
  /-- What is left of the buffer. -/
  rest : Bytes
  deriving DecidableEq, Repr

/-- The tag of an item: one byte, or two when the low five bits of the first are all set. -/
def tlvTag : Bytes → Option (ℕ × Bytes)
  | [] => none
  | b :: bs =>
    if b &&& 0x1f = 0x1f then
      match bs with
      | [] => none
      | b' :: bs' => some (b.toNat * 256 + b'.toNat, bs')
    else
      some (b.toNat, bs)

/-- The length of an item. A tag that ends the buffer has length zero. -/
def tlvLength : Bytes → Option (ℕ × Bytes)
  | [] => some (0, [])
  | b :: bs =>
    if b = 0x82 then
      match bs with
      | b₁ :: b₂ :: bs' => some (b₁.toNat * 256 + b₂.toNat, bs')
      | _ => none
    else if b = 0x81 then
      match bs with
      | [] => none
      | b₁ :: bs' => some (b₁.toNat, bs')
    else
      some (b.toNat, bs)

variable (bs : Bytes)

/-- `tlv_walk`: the next item, or none at the end and at a malformed one. -/
def tlvWalk : Option TlvItem :=
  match tlvTag bs with
  | none => none
  | some (tag, bs) =>
    match tlvLength bs with
    | none => none
    | some (len, bs) => if len > bs.length then none else some ⟨tag, bs.take len, bs.drop len⟩

/-- `tlv_format_len`, whose argument is 16 bits wide. -/
def tlvFormatLen (len : ℕ) : Bytes :=
  if len % 65536 < 128 then
    beBytes 1 (len % 65536)
  else if len % 65536 < 256 then
    0x81 :: beBytes 1 (len % 65536)
  else
    0x82 :: beBytes 2 (len % 65536)

/-- `tlv_len_tag`, whose result is 16 bits wide. -/
def tlvLenTag (tag len : ℕ) : ℕ :=
  (1 + (tlvFormatLen len).length + len % 65536 + if tag > 0xff then 1 else 0) % 65536

/-- `while (tlv_walk(..))`: the items of a buffer, each of which takes a byte at least. -/
def tlvItemsFuel : ℕ → Bytes → List TlvItem
  | 0, _ => []
  | fuel + 1, bs =>
    match tlvWalk bs with
    | none => []
    | some item => item :: tlvItemsFuel fuel item.rest

/-- The items the walker stops at. -/
def tlvItems : List TlvItem :=
  tlvItemsFuel bs.length bs

/-- The item that `tlv_find_tag` finds. -/
def tlvFind (tag : ℕ) (bs : Bytes) : Option TlvItem :=
  (tlvItems bs).find? fun item ↦ item.tag = tag

def tlvFindTag (tag : ℕ) (bs : Bytes) : Option Bytes :=
  (tlvFind tag bs).map TlvItem.value

/-- Where the value of an item of a buffer begins. -/
def tlvOffset (item : TlvItem) : ℕ :=
  bs.length - item.rest.length - item.value.length

/-- What the walker has not walked over when it stops. -/
def tlvEndFuel : ℕ → Bytes → Bytes
  | 0, bs => bs
  | fuel + 1, bs =>
    match tlvWalk bs with
    | none => bs
    | some item => tlvEndFuel fuel item.rest

/-- What the walker leaves of a buffer: nothing if it traverses it completely. -/
def tlvEnd : Bytes :=
  tlvEndFuel bs.length bs

/-- An item, as the writers put it together. -/
def encodeTlv (tag : UInt8) (value : Bytes) : Bytes :=
  tag :: tlvFormatLen value.length ++ value

/-! ### Reading an item back -/

variable {len : ℕ} {item : TlvItem}

theorem tlvFormatLen_of_lt (h : len ≤ 0xffff) :
    tlvFormatLen len =
      if len < 128 then beBytes 1 len
      else if len < 256 then 0x81 :: beBytes 1 len
      else 0x82 :: beBytes 2 len := by
  rw [tlvFormatLen, mod_eq_of_lt (by omega)]

theorem length_tlvFormatLen (h : len ≤ 0xffff) :
    (tlvFormatLen len).length = if len < 128 then 1 else if len < 256 then 2 else 3 := by
  rw [tlvFormatLen_of_lt h]
  split_ifs <;> simp

/-- The length bytes are read back. -/
theorem tlvLength_tlvFormatLen (h : len ≤ 0xffff) (rest : Bytes) :
    tlvLength (tlvFormatLen len ++ rest) = some (len, rest) := by
  rw [tlvFormatLen_of_lt h]
  split_ifs with h₁ h₂
  · have hbyte : UInt8.ofNat len ≠ 0x82 ∧ UInt8.ofNat len ≠ 0x81 := by
      constructor <;> intro heq <;> have := congrArg UInt8.toNat heq <;>
        simp [mod_eq_of_lt (show len < 256 by omega)] at this <;> omega
    simp [beBytes, tlvLength, hbyte.1, hbyte.2, mod_eq_of_lt (show len < 256 by omega)]
  · simp [beBytes, tlvLength, mod_eq_of_lt h₂]
  · have hhigh : len / 256 < 256 := by omega
    simp only [beBytes, cons_append, nil_append, tlvLength, if_true]
    simp
    omega

/-- **Reading back**: an item under a one-byte tag is read as it was written. -/
theorem tlvWalk_encodeTlv {tag : UInt8} {value : Bytes} (htag : tag &&& 0x1f ≠ 0x1f)
    (hlen : value.length ≤ 0xffff) (rest : Bytes) :
    tlvWalk (encodeTlv tag value ++ rest) = some ⟨tag.toNat, value, rest⟩ := by
  have hlength : tlvLength (tlvFormatLen value.length ++ value ++ rest) =
      some (value.length, value ++ rest) := by
    rw [append_assoc, tlvLength_tlvFormatLen hlen]
  simp only [tlvWalk, encodeTlv, cons_append, tlvTag, if_neg htag, hlength]
  simp

/-! ### The loop -/

theorem length_tlvTag {bs rest : Bytes} {tag : ℕ} (h : tlvTag bs = some (tag, rest)) :
    rest.length < bs.length := by
  revert h
  fun_cases tlvTag bs <;> intro h <;> cases h <;> grind

theorem length_tlvLength {bs rest : Bytes} (h : tlvLength bs = some (len, rest)) :
    rest.length ≤ bs.length := by
  revert h
  fun_cases tlvLength bs <;> intro h <;> cases h <;> grind

/-- Every item takes a byte at least. -/
theorem length_tlvWalk {bs : Bytes} (h : tlvWalk bs = some item) :
    item.rest.length < bs.length := by
  rw [tlvWalk] at h
  rcases htag : tlvTag bs with - | ⟨tag, bs₁⟩ <;> simp only [htag] at h
  · cases h
  rcases hlength : tlvLength bs₁ with - | ⟨len, bs₂⟩ <;> simp only [hlength] at h
  · cases h
  have h₁ := length_tlvTag htag
  have h₂ := length_tlvLength hlength
  split_ifs at h
  obtain rfl := Option.some.inj h
  rw [length_drop]
  omega

/-- Fuel beyond the length of the buffer makes no difference. -/
theorem tlvItemsFuel_add (extra : ℕ) (bs : Bytes) (fuel : ℕ) (h : bs.length ≤ fuel) :
    tlvItemsFuel (fuel + extra) bs = tlvItemsFuel fuel bs := by
  induction fuel generalizing bs with
  | zero =>
    obtain rfl := eq_nil_of_length_eq_zero (le_zero.mp h)
    cases extra <;> rfl
  | succ fuel ih =>
    rw [add_right_comm, tlvItemsFuel, tlvItemsFuel]
    rcases hwalk : tlvWalk bs with - | item
    · rfl
    · have hlt := length_tlvWalk hwalk
      show item :: _ = item :: _
      rw [ih _ (by omega)]

theorem tlvEndFuel_add (extra : ℕ) (bs : Bytes) (fuel : ℕ) (h : bs.length ≤ fuel) :
    tlvEndFuel (fuel + extra) bs = tlvEndFuel fuel bs := by
  induction fuel generalizing bs with
  | zero =>
    obtain rfl := eq_nil_of_length_eq_zero (le_zero.mp h)
    cases extra <;> rfl
  | succ fuel ih =>
    rw [add_right_comm, tlvEndFuel, tlvEndFuel]
    rcases hwalk : tlvWalk bs with - | item
    · rfl
    · have hlt := length_tlvWalk hwalk
      exact ih _ (by omega)

theorem tlvItems_of_walk {bs : Bytes} (h : tlvWalk bs = some item) :
    tlvItems bs = item :: tlvItems item.rest := by
  obtain ⟨extra, hextra⟩ := Nat.exists_eq_add_of_lt (length_tlvWalk h)
  rw [tlvItems, hextra, tlvItemsFuel, h]
  show item :: _ = item :: _
  rw [tlvItemsFuel_add extra item.rest _ le_rfl, tlvItems]

theorem tlvEnd_of_walk {bs : Bytes} (h : tlvWalk bs = some item) :
    tlvEnd bs = tlvEnd item.rest := by
  obtain ⟨extra, hextra⟩ := Nat.exists_eq_add_of_lt (length_tlvWalk h)
  rw [tlvEnd, hextra, tlvEndFuel, h]
  show tlvEndFuel (item.rest.length + extra) item.rest = _
  rw [tlvEndFuel_add extra item.rest _ le_rfl, tlvEnd]

end PicoAll
