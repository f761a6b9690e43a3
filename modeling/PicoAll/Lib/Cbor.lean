import PicoAll.Lib.BigEndian

/-!
# CBOR, item by item

An encoder appends one item after the other to a buffer of a fixed size, and a parser walks a buffer
with a cursor: it reads the item at the cursor, enters a map and leaves it at its end. The bytes of
the items are a parameter (`CborCodec`); what is used of them is that an item that was written is
read back, whatever follows it (`CborCodec.Lawful`).

A program that parses a map has a loop over its entries, which here is `CborCodec.mapLoop`: a body
reads one entry and changes a state. That a run of entries takes the loop from one state to another
(`CborCodec.Reads`) is put together entry by entry, and `CborCodec.Reads.loop` is what the loop makes
of a map that ends behind them.

`plainCbor` is a codec of this kind.
-/

open BigEndian List Nat Option

/-- An item of a CBOR stream. A map or an array is opened by an item of its own, with its number of
entries, or closed by a `stop`. -/
inductive CborToken where
  | uint (n : ℕ)
  /-- The number `-1 - n`. -/
  | nint (n : ℕ)
  | bytes (b : Bytes)
  | text (b : Bytes)
  | array (len : Option ℕ)
  | map (len : Option ℕ)
  | tag (n : ℕ)
  | bool (b : Bool)
  | other (info : ℕ)
  | stop
  deriving DecidableEq, Repr

/-- The errors of an encoder and of a parser. -/
inductive CborError where
  | improperValue
  | outOfMemory
  | unexpectedEof
  | other (code : ℕ)
  deriving DecidableEq, Repr

/-- The items an encoder is asked for here, with numbers of 64 bits. -/
def CborToken.Written : CborToken → Prop
  | .uint n | .nint n => n < 2 ^ 64
  | .bytes b | .text b => b.length < 2 ^ 64
  | .map none | .bool _ | .stop => True
  | _ => False

/-- The items that are not part of a structure. -/
def CborToken.Scalar : CborToken → Prop
  | .map _ | .array _ | .tag _ | .stop => False
  | _ => True

/-- The item of a signed number, `cbor_encode_int`. -/
def cborInt (i : ℤ) : CborToken :=
  if 0 ≤ i then .uint i.toNat else .nint (-1 - i).toNat

/-- The bytes of the items. -/
structure CborCodec where
  /-- What an encoder appends for an item. -/
  encode : CborToken → Bytes
  /-- The item at the start of a buffer, and what follows it. -/
  decode : Bytes → Except CborError (CborToken × Bytes)
  /-- `cbor_value_advance`: what follows the item at the start of a buffer, with all that is in it. -/
  advance : Bytes → Except CborError Bytes

/-- A codec reads back what it has written. -/
structure CborCodec.Lawful (C : CborCodec) : Prop where
  decode_encode : ∀ t rest, t.Written → C.decode (C.encode t ++ rest) = .ok (t, rest)
  advance_encode : ∀ t rest, t.Written → t.Scalar → C.advance (C.encode t ++ rest) = .ok rest
  encode_ne_nil : ∀ t, t.Written → C.encode t ≠ []
  length_bytes : ∀ b, b.length ≤ (C.encode (.bytes b)).length
  length_text : ∀ b, b.length ≤ (C.encode (.text b)).length

/-- A parser's place in a buffer: what is left of it, and the number of items that are left of the
structure it is in, if that is known. -/
structure CborCursor where
  rest : Bytes
  left : Option ℕ
  deriving DecidableEq, Repr

namespace CborCodec

variable (C : CborCodec)

/-- The bytes of some items. -/
def bytesOf (ts : List CborToken) : Bytes :=
  ts.flatMap C.encode

/-- An encoder with a buffer of a fixed size, behind what it has already written: it stops at the
first item that does not fit. -/
def writeFrom (capacity : ℕ) (buffer : Bytes) : List CborToken → Except CborError Bytes
  | [] => .ok buffer
  | t :: ts =>
    if buffer.length + (C.encode t).length ≤ capacity then
      writeFrom capacity (buffer ++ C.encode t) ts
    else .error .outOfMemory

/-- An encoder with a buffer of a fixed size. -/
def write (capacity : ℕ) (ts : List CborToken) : Except CborError Bytes :=
  C.writeFrom capacity [] ts

/-- The item at the cursor, and the cursor behind it. -/
def next (c : CborCursor) : Except CborError (CborToken × CborCursor) := do
  let (t, rest) ← C.decode c.rest
  .ok (t, ⟨rest, c.left.map (· - 1)⟩)

/-- `cbor_value_at_end`. -/
def atEnd (c : CborCursor) : Bool :=
  match c.left with
  | some n => n == 0
  | none => match C.decode c.rest with
    | .ok (.stop, _) => true
    | _ => false

/-- `cbor_value_advance`. -/
def skip (c : CborCursor) : Except CborError CborCursor := do
  let rest ← C.advance c.rest
  .ok ⟨rest, c.left.map (· - 1)⟩

/-- `cbor_value_leave_container`: what follows the structure. -/
def leave (c : CborCursor) : Except CborError Bytes :=
  match c.left with
  | some _ => .ok c.rest
  | none => (C.decode c.rest).map Prod.snd

/-- The entries of a structure, one after the other. There are no more of them than bytes. -/
def mapLoop {σ : Type} (body : σ → CborCursor → Except CborError (σ × CborCursor)) :
    ℕ → σ → CborCursor → Except CborError (σ × CborCursor)
  | 0, s, c => if C.atEnd c then .ok (s, c) else .error .unexpectedEof
  | fuel + 1, s, c =>
    if C.atEnd c then .ok (s, c)
    else do
      let (s, c) ← body s c
      mapLoop body fuel s c

/-- A map is opened at the cursor, and its entries are read. -/
def enterMap {σ : Type} (body : σ → CborCursor → Except CborError (σ × CborCursor)) (s : σ)
    (c : CborCursor) : Except CborError (σ × CborCursor) := do
  let (t, c) ← C.next c
  match t with
  | .map len => C.mapLoop body c.rest.length s ⟨c.rest, len.map (2 * ·)⟩
  | _ => .error .improperValue

/-- A map at the cursor, which is left again. -/
def readMap {σ : Type} (body : σ → CborCursor → Except CborError (σ × CborCursor)) (s : σ)
    (c : CborCursor) : Except CborError (σ × CborCursor) := do
  let (s, inner) ← C.enterMap body s c
  let rest ← C.leave inner
  .ok (s, ⟨rest, c.left.map (· - 1)⟩)

/-- `CBOR_FIELD_GET_UINT`. -/
def getUint (c : CborCursor) : Except CborError (ℕ × CborCursor) := do
  let (t, c) ← C.next c
  match t with
  | .uint n => .ok (n, c)
  | _ => .error .improperValue

/-- `CBOR_FIELD_GET_INT`, the number as 64 bits hold it. -/
def getInt (c : CborCursor) : Except CborError (ℤ × CborCursor) := do
  let (t, c) ← C.next c
  match t with
  | .uint n => .ok ((n : ℤ).bmod (2 ^ 64), c)
  | .nint n => .ok ((-1 - n : ℤ).bmod (2 ^ 64), c)
  | _ => .error .improperValue

/-- `CBOR_FIELD_GET_BYTES`. -/
def getBytes (c : CborCursor) : Except CborError (Bytes × CborCursor) := do
  let (t, c) ← C.next c
  match t with
  | .bytes b => .ok (b, c)
  | _ => .error .improperValue

/-- `CBOR_FIELD_GET_TEXT`. -/
def getText (c : CborCursor) : Except CborError (Bytes × CborCursor) := do
  let (t, c) ← C.next c
  match t with
  | .text b => .ok (b, c)
  | _ => .error .improperValue

/-- `CBOR_FIELD_GET_BOOL`. -/
def getBool (c : CborCursor) : Except CborError (Bool × CborCursor) := do
  let (t, c) ← C.next c
  match t with
  | .bool b => .ok (b, c)
  | _ => .error .improperValue

/-- `CBOR_FIELD_GET_KEY_TEXT`: a text of at most 64 bytes, as a C string. -/
def getKeyText (c : CborCursor) : Except CborError (Bytes × CborCursor) := do
  let (t, c) ← C.getText c
  if t.length ≤ 64 then .ok (t.takeWhile (· != 0), c) else .error .outOfMemory

/-! ### What is written -/

variable {C}

@[simp]
theorem bytesOf_nil : C.bytesOf [] = [] :=
  rfl

theorem bytesOf_cons (t : CborToken) (ts : List CborToken) :
    C.bytesOf (t :: ts) = C.encode t ++ C.bytesOf ts :=
  flatMap_cons

theorem bytesOf_append (ts us : List CborToken) :
    C.bytesOf (ts ++ us) = C.bytesOf ts ++ C.bytesOf us :=
  flatMap_append

variable {ts : List CborToken}

theorem length_bytesOf_of_mem {t : CborToken} (h : t ∈ ts) :
    (C.encode t).length ≤ (C.bytesOf ts).length := by
  rw [bytesOf, length_flatMap]
  exact single_le_sum (fun _ _ ↦ zero_le _) _ (mem_map_of_mem h)

theorem writeFrom_eq_ok {capacity : ℕ} {buffer out : Bytes}
    (h : C.writeFrom capacity buffer ts = .ok out) :
    out = buffer ++ C.bytesOf ts ∧ (buffer.length ≤ capacity → out.length ≤ capacity) := by
  induction ts generalizing buffer with
  | nil =>
    cases h
    exact ⟨(append_nil _).symm, id⟩
  | cons t ts ih =>
    rw [writeFrom] at h
    split_ifs at h with hfits
    obtain ⟨hout, hlength⟩ := ih h
    refine ⟨by rw [hout, bytesOf_cons, append_assoc], fun _ ↦ hlength ?_⟩
    rw [length_append]
    exact hfits

/-- **What an encoder has written** is all of its items, and they fit. -/
theorem write_eq_ok {capacity : ℕ} {out : Bytes} (h : C.write capacity ts = .ok out) :
    out = C.bytesOf ts ∧ out.length ≤ capacity := by
  obtain ⟨hout, hlength⟩ := writeFrom_eq_ok h
  exact ⟨hout, hlength (zero_le _)⟩

/-! ### What is read -/

namespace Lawful

variable (hC : C.Lawful) {t : CborToken} {rest : Bytes}
include hC

theorem next (ht : t.Written) : C.next ⟨C.encode t ++ rest, none⟩ = .ok (t, ⟨rest, none⟩) := by
  simp only [CborCodec.next, hC.decode_encode t rest ht, bind, Except.bind, map_none]

theorem getUint {n : ℕ} (hn : n < 2 ^ 64) :
    C.getUint ⟨C.encode (.uint n) ++ rest, none⟩ = .ok (n, ⟨rest, none⟩) := by
  rw [CborCodec.getUint, hC.next (t := .uint n) hn]
  rfl

variable {b : Bytes}

theorem getBytes (hb : b.length < 2 ^ 64) :
    C.getBytes ⟨C.encode (.bytes b) ++ rest, none⟩ = .ok (b, ⟨rest, none⟩) := by
  rw [CborCodec.getBytes, hC.next (t := .bytes b) hb]
  rfl

theorem getText (hb : b.length < 2 ^ 64) :
    C.getText ⟨C.encode (.text b) ++ rest, none⟩ = .ok (b, ⟨rest, none⟩) := by
  rw [CborCodec.getText, hC.next (t := .text b) hb]
  rfl

theorem getBool {b : Bool} :
    C.getBool ⟨C.encode (.bool b) ++ rest, none⟩ = .ok (b, ⟨rest, none⟩) := by
  rw [CborCodec.getBool, hC.next (t := .bool b) trivial]
  rfl

theorem getInt {i : ℤ} (hlow : -2 ^ 63 ≤ i) (hhigh : i < 2 ^ 63) :
    C.getInt ⟨C.encode (cborInt i) ++ rest, none⟩ = .ok (i, ⟨rest, none⟩) := by
  by_cases hi : 0 ≤ i
  · have hmod : (i.toNat : ℤ).bmod (2 ^ 64) = i := by
      rw [Int.toNat_of_nonneg hi]
      exact Int.bmod_eq_of_le (by norm_num; omega) (by norm_num; omega)
    rw [cborInt, if_pos hi, CborCodec.getInt, hC.next (t := .uint i.toNat)
      (by show i.toNat < 2 ^ 64; omega)]
    exact congrArg (fun j : ℤ ↦ Except.ok (j, CborCursor.mk rest none)) hmod
  · have hmod : (-1 - ((-1 - i).toNat : ℤ)).bmod (2 ^ 64) = i := by
      rw [Int.toNat_of_nonneg (by omega), show -1 - (-1 - i) = i by ring]
      exact Int.bmod_eq_of_le (by norm_num; omega) (by norm_num; omega)
    rw [cborInt, if_neg hi, CborCodec.getInt, hC.next (t := .nint (-1 - i).toNat)
      (by show (-1 - i).toNat < 2 ^ 64; omega)]
    exact congrArg (fun j : ℤ ↦ Except.ok (j, CborCursor.mk rest none)) hmod

theorem getKeyText (hb : b.length ≤ 64) :
    C.getKeyText ⟨C.encode (.text b) ++ rest, none⟩
      = .ok (b.takeWhile (· != 0), ⟨rest, none⟩) := by
  have hlength : b.length < 2 ^ 64 := hb.trans_lt (by norm_num)
  rw [CborCodec.getKeyText, hC.getText hlength]
  exact if_pos hb

theorem skip (ht : t.Written) (hscalar : t.Scalar) :
    C.skip ⟨C.encode t ++ rest, none⟩ = .ok ⟨rest, none⟩ := by
  simp only [CborCodec.skip, hC.advance_encode t rest ht hscalar, bind, Except.bind,
    map_none]

theorem atEnd_stop : C.atEnd ⟨C.encode .stop ++ rest, none⟩ = true := by
  simp only [atEnd, hC.decode_encode .stop rest trivial]

theorem atEnd_of_ne (ht : t.Written) (hne : t ≠ .stop) :
    C.atEnd ⟨C.encode t ++ rest, none⟩ = false := by
  simp only [atEnd, hC.decode_encode t rest ht]
  cases t <;> simp_all

end Lawful

/-! ### The loop over a map -/

section Reads

variable {σ : Type} {body : σ → CborCursor → Except CborError (σ × CborCursor)}
  {s s' s'' : σ} {ts us : List CborToken}

/-- Some items take the loop from one state to another. -/
def Reads (C : CborCodec) (body : σ → CborCursor → Except CborError (σ × CborCursor)) (s : σ)
    (ts : List CborToken) (s' : σ) : Prop :=
  ∃ n ≤ (C.bytesOf ts).length, ∀ fuel rest,
    C.mapLoop body (n + fuel) s ⟨C.bytesOf ts ++ rest, none⟩ = C.mapLoop body fuel s' ⟨rest, none⟩

theorem Reads.nil : C.Reads body s [] s :=
  ⟨0, le_rfl, fun fuel rest ↦ by rw [zero_add]; rfl⟩

theorem Reads.append (h : C.Reads body s ts s') (h' : C.Reads body s' us s'') :
    C.Reads body s (ts ++ us) s'' := by
  obtain ⟨n, hn, hrun⟩ := h
  obtain ⟨n', hn', hrun'⟩ := h'
  refine ⟨n + n', ?_, fun fuel rest ↦ ?_⟩
  · rw [bytesOf_append, length_append]
    omega
  · rw [bytesOf_append, append_assoc, add_assoc, hrun, hrun']

/-- One entry: the body reads it, and it does not look like the end of the map. -/
theorem Reads.entry (hC : C.Lawful) {t : CborToken} (ht : t.Written) (hne : t ≠ .stop)
    (hbody : ∀ rest, body s ⟨C.bytesOf (t :: ts) ++ rest, none⟩ = .ok (s', ⟨rest, none⟩)) :
    C.Reads body s (t :: ts) s' := by
  refine ⟨1, ?_, fun fuel rest ↦ ?_⟩
  · have hpos := length_pos_iff.mpr (hC.encode_ne_nil t ht)
    rw [bytesOf_cons, length_append]
    omega
  · have hend : C.atEnd ⟨C.bytesOf (t :: ts) ++ rest, none⟩ = false := by
      rw [bytesOf_cons, append_assoc]
      exact hC.atEnd_of_ne ht hne
    rw [add_comm, mapLoop, hend, hbody rest]
    rfl

variable {rest : Bytes}

/-- **The loop over a map that ends behind its entries.** -/
theorem Reads.loop (hC : C.Lawful) (h : C.Reads body s ts s') {fuel : ℕ}
    (hfuel : (C.bytesOf ts).length ≤ fuel) :
    C.mapLoop body fuel s ⟨C.bytesOf ts ++ (C.encode .stop ++ rest), none⟩
      = .ok (s', ⟨C.encode .stop ++ rest, none⟩) := by
  obtain ⟨n, hn, hrun⟩ := h
  obtain ⟨k, rfl⟩ := Nat.exists_eq_add_of_le (hn.trans hfuel)
  rw [hrun]
  cases k with
  | zero => rw [mapLoop, hC.atEnd_stop, if_pos rfl]
  | succ k => rw [mapLoop, hC.atEnd_stop, if_pos rfl]

theorem Reads.enterMap (hC : C.Lawful) (h : C.Reads body s ts s') :
    C.enterMap body s ⟨C.bytesOf (.map none :: ts ++ [.stop]) ++ rest, none⟩
      = .ok (s', ⟨C.encode .stop ++ rest, none⟩) := by
  have hsplit : C.bytesOf (.map none :: ts ++ [.stop]) ++ rest
      = C.encode (.map none) ++ (C.bytesOf ts ++ (C.encode .stop ++ rest)) := by
    simp [bytesOf_cons, bytesOf_append]
  rw [CborCodec.enterMap, hsplit, hC.next (t := .map none) trivial]
  exact h.loop hC (by rw [length_append]; omega)

/-- **A map is read** with its end. -/
theorem Reads.readMap (hC : C.Lawful) (h : C.Reads body s ts s') :
    C.readMap body s ⟨C.bytesOf (.map none :: ts ++ [.stop]) ++ rest, none⟩
      = .ok (s', ⟨rest, none⟩) := by
  have hleave : C.leave ⟨C.encode .stop ++ rest, none⟩ = .ok rest := by
    simp only [leave, hC.decode_encode .stop rest trivial, Except.map]
  rw [CborCodec.readMap, h.enterMap hC]
  simp only [bind, Except.bind, hleave, map_none]

end Reads

end CborCodec

/-! ### A codec -/

/-- The first bytes of an item: its major type and a number, in as few bytes as it takes. -/
def cborHead (major n : ℕ) : Bytes :=
  if n < 24 then [.ofNat (major * 32 + n)]
  else if n < 2 ^ 8 then .ofNat (major * 32 + 24) :: beBytes 1 n
  else if n < 2 ^ 16 then .ofNat (major * 32 + 25) :: beBytes 2 n
  else if n < 2 ^ 32 then .ofNat (major * 32 + 26) :: beBytes 4 n
  else .ofNat (major * 32 + 27) :: beBytes 8 n

/-- The major type of an item, its number, if it has one, and what follows. -/
def cborHeadOf : Bytes → Except CborError (ℕ × Option ℕ × Bytes)
  | [] => .error .unexpectedEof
  | b :: rest =>
    let major := b.toNat / 32
    let info := b.toNat % 32
    if info < 24 then .ok (major, some info, rest)
    else if info < 28 then
      let width := 2 ^ (info - 24)
      if rest.length < width then .error .unexpectedEof
      else .ok (major, some (beNat (rest.take width)), rest.drop width)
    else if info = 31 then .ok (major, none, rest)
    else .error .improperValue

/-- The bytes of an item. -/
def plainCborEncode : CborToken → Bytes
  | .uint n => cborHead 0 n
  | .nint n => cborHead 1 n
  | .bytes b => cborHead 2 b.length ++ b
  | .text b => cborHead 3 b.length ++ b
  | .array (some n) => cborHead 4 n
  | .array none => [0x9F]
  | .map (some n) => cborHead 5 n
  | .map none => [0xBF]
  | .tag n => cborHead 6 n
  | .bool false => [0xF4]
  | .bool true => [0xF5]
  | .other info => cborHead 7 info
  | .stop => [0xFF]

/-- The item of a major type with its number, if it has one. Strings in chunks are not read. -/
def plainCborItem : ℕ → Option ℕ → Bytes → Except CborError (CborToken × Bytes)
  | 0, some n, rest => .ok (.uint n, rest)
  | 1, some n, rest => .ok (.nint n, rest)
  | 2, some n, rest =>
    if rest.length < n then .error .unexpectedEof else .ok (.bytes (rest.take n), rest.drop n)
  | 3, some n, rest =>
    if rest.length < n then .error .unexpectedEof else .ok (.text (rest.take n), rest.drop n)
  | 4, number, rest => .ok (.array number, rest)
  | 5, number, rest => .ok (.map number, rest)
  | 6, some n, rest => .ok (.tag n, rest)
  | 7, some 20, rest => .ok (.bool false, rest)
  | 7, some 21, rest => .ok (.bool true, rest)
  | 7, some n, rest => .ok (.other n, rest)
  | 7, none, rest => .ok (.stop, rest)
  | _, _, _ => .error .improperValue

/-- The item at the start of a buffer. -/
def plainCborDecode (data : Bytes) : Except CborError (CborToken × Bytes) := do
  let (major, number, rest) ← cborHeadOf data
  plainCborItem major number rest

/-- What follows the item at the start of a buffer. Structures are not skipped. -/
def plainCborAdvance (data : Bytes) : Except CborError Bytes := do
  let (t, rest) ← plainCborDecode data
  match t with
  | .array _ | .map _ | .tag _ | .stop => .error .improperValue
  | _ => .ok rest

/-- Numbers in as few bytes as they take, and strings in one piece. -/
def plainCbor : CborCodec where
  encode := plainCborEncode
  decode := plainCborDecode
  advance := plainCborAdvance

variable {major : ℕ}

theorem cborHeadOf_byte {info : ℕ} (hmajor : major < 8) (hinfo : info < 32) (rest : Bytes) :
    cborHeadOf (.ofNat (major * 32 + info) :: rest) =
      if info < 24 then .ok (major, some info, rest)
      else if info < 28 then
        if rest.length < 2 ^ (info - 24) then .error .unexpectedEof
        else .ok (major, some (beNat (rest.take (2 ^ (info - 24)))), rest.drop (2 ^ (info - 24)))
      else if info = 31 then .ok (major, none, rest)
      else .error .improperValue := by
  have hbyte : (UInt8.ofNat (major * 32 + info)).toNat = major * 32 + info :=
    UInt8.toNat_ofNat_of_lt' (by show major * 32 + info < 256; omega)
  have hdiv : (major * 32 + info) / 32 = major := by omega
  have hmod : (major * 32 + info) % 32 = info := by omega
  simp only [cborHeadOf, hbyte, hdiv, hmod]

/-- The first bytes of an item are read back. -/
theorem cborHeadOf_cborHead {n : ℕ} (hmajor : major < 8) (hn : n < 2 ^ 64) (rest : Bytes) :
    cborHeadOf (cborHead major n ++ rest) = .ok (major, some n, rest) := by
  have hwide (info width : ℕ) (hinfo : 24 ≤ info) (hinfo' : info < 28)
      (hwidth : 2 ^ (info - 24) = width) (hfits : n < 256 ^ width) :
      cborHeadOf (.ofNat (major * 32 + info) :: (beBytes width n ++ rest))
        = .ok (major, some n, rest) := by
    rw [cborHeadOf_byte hmajor (by omega), if_neg (by omega), if_pos hinfo', hwidth,
      if_neg (by simp), take_left' (length_beBytes _ _), drop_left' (length_beBytes _ _),
      beNat_beBytes hfits]
  rw [cborHead]
  split_ifs with h24 h8 h16 h32
  · rw [singleton_append, cborHeadOf_byte hmajor (by omega), if_pos h24]
  · exact hwide 24 1 le_rfl (by norm_num) rfl (by omega)
  · exact hwide 25 2 (by norm_num) (by norm_num) rfl (by omega)
  · exact hwide 26 4 (by norm_num) (by norm_num) rfl (by omega)
  · exact hwide 27 8 (by norm_num) (by norm_num) rfl (by omega)

theorem cborHead_ne_nil (major n : ℕ) : cborHead major n ≠ [] := by
  rw [cborHead]
  split_ifs <;> exact cons_ne_nil _ _

theorem plainCborDecode_head {n : ℕ} (hmajor : major < 8) (hn : n < 2 ^ 64) (rest : Bytes) :
    plainCborDecode (cborHead major n ++ rest) = plainCborItem major (some n) rest := by
  rw [plainCborDecode, cborHeadOf_cborHead hmajor hn]
  rfl

theorem plainCborDecode_string {b : Bytes} (hmajor : major < 8) (hb : b.length < 2 ^ 64)
    (rest : Bytes) :
    plainCborDecode (cborHead major b.length ++ b ++ rest)
      = plainCborItem major (some b.length) (b ++ rest) := by
  rw [append_assoc, plainCborDecode_head hmajor hb]

theorem plainCbor_decode_encode (t : CborToken) (rest : Bytes) (ht : t.Written) :
    plainCborDecode (plainCborEncode t ++ rest) = .ok (t, rest) := by
  cases t with
  | uint n => exact plainCborDecode_head (by norm_num) ht rest
  | nint n => exact plainCborDecode_head (by norm_num) ht rest
  | bytes b =>
    rw [plainCborEncode, plainCborDecode_string (by norm_num) ht, plainCborItem, if_neg (by simp),
      take_left, drop_left]
  | text b =>
    rw [plainCborEncode, plainCborDecode_string (by norm_num) ht, plainCborItem, if_neg (by simp),
      take_left, drop_left]
  | array len => exact absurd ht id
  | map len =>
    cases len with
    | none => rfl
    | some n => exact absurd ht id
  | tag n => exact absurd ht id
  | bool b => cases b <;> rfl
  | other info => exact absurd ht id
  | stop => rfl

theorem plainCborEncode_ne_nil (t : CborToken) (ht : t.Written) : plainCborEncode t ≠ [] := by
  cases t with
  | uint n => exact cborHead_ne_nil 0 n
  | nint n => exact cborHead_ne_nil 1 n
  | bytes b => exact append_ne_nil_of_left_ne_nil (cborHead_ne_nil 2 _) _
  | text b => exact append_ne_nil_of_left_ne_nil (cborHead_ne_nil 3 _) _
  | array len => exact absurd ht id
  | map len =>
    cases len with
    | none => exact cons_ne_nil _ _
    | some n => exact absurd ht id
  | tag n => exact absurd ht id
  | bool b => cases b <;> exact cons_ne_nil _ _
  | other info => exact absurd ht id
  | stop => exact cons_ne_nil _ _

/-- **The plain codec** reads back what it has written. -/
theorem plainCbor_lawful : plainCbor.Lawful where
  decode_encode := plainCbor_decode_encode
  advance_encode t rest ht hscalar := by
    show plainCborAdvance (plainCborEncode t ++ rest) = _
    rw [plainCborAdvance, plainCbor_decode_encode t rest ht]
    cases t <;> first | rfl | exact absurd hscalar id
  encode_ne_nil := plainCborEncode_ne_nil
  length_bytes b := by
    show b.length ≤ (cborHead 2 b.length ++ b).length
    rw [length_append]
    omega
  length_text b := by
    show b.length ≤ (cborHead 3 b.length ++ b).length
    rw [length_append]
    omega
