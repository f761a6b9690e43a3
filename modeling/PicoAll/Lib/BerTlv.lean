import PicoAll.Lib.BigEndian

/-!
# Tagged values under the basic encoding rules

The definite form: a tag, the octets of a length, and as many bytes as the length says. A length
below 128 is one octet; a greater one, and any that is written longer than it has to be, is an octet
that says how many octets of a big-endian number follow.

`BerItems bs items` says that a string of bytes is made of these items and of nothing else. A value
has many encodings, but none is shorter than two bytes and the value (`BerItems.length_le`).
-/

namespace PicoAll

open BigEndian List UInt8

/-! ### Reading -/

/-- The further octets of a tag: all but the last have their highest bit set. -/
def berTagMore : ℕ → Bytes → Option (ℕ × Bytes)
  | _, [] => none
  | tag, b :: bs =>
    if 128 ≤ b.toNat then berTagMore (tag * 256 + b.toNat) bs else some (tag * 256 + b.toNat, bs)

def berTag : Bytes → Option (ℕ × Bytes)
  | [] => none
  | b :: bs => if b.toNat % 32 = 31 then berTagMore b.toNat bs else some (b.toNat, bs)

/-- A definite length. -/
def berLength : Bytes → Option (ℕ × Bytes)
  | [] => none
  | b :: bs =>
    if b.toNat < 128 then
      some (b.toNat, bs)
    else if b.toNat = 128 ∨ bs.length < b.toNat - 128 then
      none
    else
      some (beNat (bs.take (b.toNat - 128)), bs.drop (b.toNat - 128))

/-- A tag and a value. -/
abbrev BerItem :=
  ℕ × Bytes

/-- The first item, and what is behind it. -/
def berItem (bs : Bytes) : Option (BerItem × Bytes) := do
  let (tag, bs) ← berTag bs
  let (len, bs) ← berLength bs
  if len ≤ bs.length then some ((tag, bs.take len), bs.drop len) else none

/-- The items that a string of bytes is made of. -/
inductive BerItems : Bytes → List BerItem → Prop
  | nil : BerItems [] []
  | cons {bs rest : Bytes} {item : BerItem} {items : List BerItem}
    (hitem : berItem bs = some (item, rest)) (hrest : BerItems rest items) :
    BerItems bs (item :: items)

/-! ### Encodings -/

/-- The octets of a length. -/
inductive BerLength : Bytes → ℕ → Prop
  | short (b : UInt8) (h : b.toNat < 128) : BerLength [b] b.toNat
  | long (b : UInt8) (octets : Bytes) (h : b.toNat = 128 + octets.length) (hne : octets ≠ []) :
    BerLength (b :: octets) (beNat octets)

section Reading

variable {bs rest v : Bytes} {tag n : ℕ} {items items' : List BerItem}

theorem berLength_eq_some : berLength bs = some (n, rest) ↔
    ∃ octets, BerLength octets n ∧ bs = octets ++ rest := by
  constructor
  · intro h
    rcases bs with - | ⟨b, bs⟩
    · cases h
    rw [berLength] at h
    split_ifs at h with hshort hlong
    · obtain ⟨rfl, rfl⟩ := Prod.mk.inj (Option.some.inj h)
      exact ⟨[b], .short b hshort, rfl⟩
    · obtain ⟨hzero, hlen⟩ := not_or.mp hlong
      obtain ⟨rfl, rfl⟩ := Prod.mk.inj (Option.some.inj h)
      have htake : (bs.take (b.toNat - 128)).length = b.toNat - 128 :=
        length_take_of_le (by omega)
      refine ⟨b :: bs.take (b.toNat - 128), .long b _ (by omega) ?_, ?_⟩
      · rw [← length_pos_iff]
        omega
      · rw [cons_append, take_append_drop]
  · rintro ⟨octets, hoctets, rfl⟩
    cases hoctets with
    | short b h => exact if_pos h
    | long b octets h hne =>
      have hpos := length_pos_iff.mpr hne
      have hcount : b.toNat - 128 = octets.length := by omega
      rw [cons_append, berLength, if_neg (by omega), if_neg (by simp; omega), hcount,
        take_left, drop_left]

/-- A one-octet tag. -/
theorem berTag_cons {b : UInt8} (h : b.toNat % 32 ≠ 31) : berTag (b :: bs) = some (b.toNat, bs) :=
  if_neg h

theorem le_of_berTagMore (h : berTagMore tag bs = some (n, rest)) : tag * 256 ≤ n := by
  induction bs generalizing tag with
  | nil => cases h
  | cons b bs ih =>
    rw [berTagMore] at h
    split_ifs at h
    · exact (Nat.le_add_right ..).trans ((Nat.le_mul_of_pos_right _ (by decide)).trans (ih h))
    · obtain ⟨rfl, -⟩ := Prod.mk.inj (Option.some.inj h)
      exact Nat.le_add_right ..

/-- A tag below 256 is one octet. -/
theorem berTag_eq_some (h : berTag bs = some (tag, rest)) (htag : tag < 256) :
    ∃ b : UInt8, b.toNat = tag ∧ bs = b :: rest := by
  rcases bs with - | ⟨b, bs⟩
  · cases h
  rw [berTag] at h
  split_ifs at h with hmore
  · have hle := le_of_berTagMore h
    omega
  · obtain ⟨rfl, rfl⟩ := Prod.mk.inj (Option.some.inj h)
    exact ⟨b, rfl, rfl⟩

/-- **An item that is encoded is read.** -/
theorem berItem_append {b : UInt8} (hb : b.toNat % 32 ≠ 31) {octets : Bytes}
    (h : BerLength octets v.length) :
    berItem (b :: (octets ++ (v ++ rest))) = some ((b.toNat, v), rest) := by
  rw [berItem, berTag_cons hb]
  simp [berLength_eq_some.mpr ⟨octets, h, rfl⟩]

/-- **An item that is read**, with a tag below 256, is encoded there. -/
theorem berItem_eq_some (h : berItem bs = some ((tag, v), rest)) (htag : tag < 256) :
    ∃ (b : UInt8) (octets : Bytes), b.toNat = tag ∧ BerLength octets v.length ∧
      bs = b :: (octets ++ (v ++ rest)) := by
  obtain ⟨⟨tag', bs'⟩, htag', h⟩ := Option.bind_eq_some_iff.mp h
  obtain ⟨⟨len, bs''⟩, hlen, h⟩ := Option.bind_eq_some_iff.mp h
  simp only [Option.ite_none_right_eq_some, Option.some.injEq, Prod.mk.injEq] at h
  obtain ⟨hle, ⟨rfl, rfl⟩, rfl⟩ := h
  obtain ⟨b, hb, rfl⟩ := berTag_eq_some htag' htag
  obtain ⟨octets, hoctets, rfl⟩ := berLength_eq_some.mp hlen
  refine ⟨b, octets, hb, ?_, by rw [take_append_drop]⟩
  rwa [length_take_of_le hle]

theorem BerLength.pos {octets : Bytes} (h : BerLength octets n) : 0 < octets.length := by
  cases h <;> simp

/-- **No encoding is shorter** than two bytes and the value, for each item. -/
theorem BerItems.length_le (h : BerItems bs items) (htags : ∀ item ∈ items, item.1 < 256) :
    (items.map fun item ↦ 2 + item.2.length).sum ≤ bs.length := by
  induction h with
  | nil => simp
  | cons hitem _ ih =>
    obtain ⟨htag, htags⟩ := forall_mem_cons.mp htags
    obtain ⟨b, octets, -, hoctets, rfl⟩ := berItem_eq_some hitem htag
    have hpos := hoctets.pos
    have hle := ih htags
    simp only [map_cons, sum_cons, length_cons, length_append]
    omega

end Reading

/-! ### Plain encodings -/

/-- An item as it is encoded. -/
structure BerPiece where
  /-- The tag. -/
  head : UInt8
  /-- The octets of the length. -/
  octets : Bytes
  value : Bytes

variable (piece : BerPiece)

/-- The bytes of an item. -/
def BerPiece.bytes : Bytes :=
  piece.head :: (piece.octets ++ piece.value)

/-- The item itself. -/
def BerPiece.item : BerItem :=
  (piece.head.toNat, piece.value)

/-- The encoding is a short one, or one with a single further octet, and the tag is not one that
could be taken for a part of a length. -/
inductive BerPiece.Plain : BerPiece → Prop
  | short (head : UInt8) (value : Bytes) (hhead : 0x82 ≤ head.toNat) (htag : head.toNat % 32 ≠ 31)
    (hlen : value.length < 128) : Plain ⟨head, [.ofNat value.length], value⟩
  | long (head : UInt8) (value : Bytes) (hhead : 0x83 ≤ head.toNat) (htag : head.toNat % 32 ≠ 31)
    (hlen : value.length < 256) : Plain ⟨head, [0x81, .ofNat value.length], value⟩

theorem BerPiece.length_bytes :
    piece.bytes.length = 1 + piece.octets.length + piece.value.length := by
  simp [bytes]
  omega

section Plain

variable {piece : BerPiece} {pieces : List BerPiece} {before : Bytes}

theorem BerPiece.Plain.berLength (h : piece.Plain) : BerLength piece.octets piece.value.length := by
  cases h with
  | short head value hhead htag hlen =>
    have hnat : (UInt8.ofNat value.length).toNat = value.length := Nat.mod_eq_of_lt (by omega)
    have hshort := BerLength.short (.ofNat value.length) (by omega)
    rwa [hnat] at hshort
  | long head value hhead htag hlen =>
    have hnat : beNat [UInt8.ofNat value.length] = value.length := by
      simp [beNat, Nat.mod_eq_of_lt hlen]
    have hlong := BerLength.long 0x81 [.ofNat value.length] rfl (by simp)
    rwa [hnat] at hlong

theorem BerPiece.Plain.tag (h : piece.Plain) : piece.head.toNat % 32 ≠ 31 := by
  cases h with
  | short head value hhead htag hlen => exact htag
  | long head value hhead htag hlen => exact htag

/-- **Plain encodings are read.** -/
theorem BerItems.of_pieces (h : ∀ piece ∈ pieces, piece.Plain) :
    BerItems (pieces.flatMap (·.bytes)) (pieces.map (·.item)) := by
  induction pieces with
  | nil => exact .nil
  | cons piece pieces ih =>
    obtain ⟨hpiece, hpieces⟩ := forall_mem_cons.mp h
    refine .cons ?_ (ih hpieces)
    rw [flatMap_cons, BerPiece.bytes, cons_append, append_assoc]
    exact berItem_append hpiece.tag hpiece.berLength

/-- A number whose octets end in these is at least the first of them. -/
theorem beNat_append_cons_ge (before rest : Bytes) (b : UInt8) :
    b.toNat * 256 ^ rest.length ≤ beNat (before ++ b :: rest) := by
  induction before with
  | nil =>
    rw [nil_append, beNat_cons]
    exact Nat.le_add_right ..
  | cons c before ih =>
    rw [cons_append, beNat_cons]
    exact ih.trans (Nat.le_add_left ..)

/-- A plain length with its tag is not the end of another length of the same value. -/
theorem BerPiece.Plain.head_ne (h : piece.Plain) {octets : Bytes} {b : UInt8}
    (hoctets : BerLength octets piece.value.length) (hbefore : before ≠ []) :
    before ++ piece.head :: piece.octets ≠ b :: octets := by
  intro heq
  obtain ⟨c, before, rfl⟩ := exists_cons_of_ne_nil hbefore
  have hend : octets = before ++ piece.head :: piece.octets := (List.cons.inj heq).2.symm
  have hpos := h.berLength.pos
  generalize hn : piece.value.length = n at hoctets
  cases hoctets with
  | short d hd =>
    have hlen := congrArg List.length hend
    simp only [length_append, length_cons, length_nil] at hlen
    omega
  | long d octets hd hne =>
    rcases before with - | ⟨c', before⟩
    · -- the tag would be the octet that counts the octets of the length
      obtain ⟨rfl, rfl⟩ := List.cons.inj hend
      cases h with
      | short head value hhead htag hlen => exact absurd hd (by simp; omega)
      | long head value hhead htag hlen => exact absurd hd (by simp; omega)
    · -- the tag would be a digit of the length, which is too great then
      obtain ⟨rfl, rfl⟩ := List.cons.inj hend
      have hge := beNat_append_cons_ge before piece.octets piece.head
      cases h with
      | short head value hhead htag hlen =>
        simp only [append_eq, length_cons, length_nil] at hge hn
        omega
      | long head value hhead htag hlen =>
        simp only [append_eq, length_cons, length_nil] at hge hn
        omega

/-- The first octet of a plain length is not its tag. -/
theorem BerPiece.Plain.octets_ne (h : piece.Plain) (octets : Bytes) :
    piece.octets ≠ piece.head :: octets := by
  intro heq
  cases h with
  | short head value hhead htag hlen =>
    have hhead' : (UInt8.ofNat value.length).toNat = head.toNat :=
      congrArg UInt8.toNat (List.cons.inj heq).1
    rw [toNat_ofNat', Nat.mod_eq_of_lt (by omega)] at hhead'
    omega
  | long head value hhead htag hlen =>
    have hhead' : 0x81 = head.toNat := congrArg UInt8.toNat (List.cons.inj heq).1
    omega

theorem sum_min_le_of_items {bs : Bytes} (h : BerItems bs (pieces.map (·.item))) :
    (pieces.map fun piece ↦ 2 + piece.value.length).sum ≤ bs.length := by
  have hle := h.length_le fun item hitem ↦ by
    obtain ⟨piece, -, rfl⟩ := mem_map.mp hitem
    exact toNat_lt _
  rwa [map_map] at hle

/-- **Nothing can be put before plain encodings** that would be read as a part of them. -/
theorem BerItems.append_pieces (h : ∀ piece ∈ pieces, piece.Plain)
    (hlen : (pieces.flatMap (·.bytes)).length ≤
      (pieces.map fun piece ↦ 2 + piece.value.length).sum + 1) (hbefore : before ≠ []) :
    ¬BerItems (before ++ pieces.flatMap (·.bytes)) (pieces.map (·.item)) := by
  induction pieces generalizing before with
  | nil =>
    intro hitems
    rw [flatMap_nil, append_nil] at hitems
    cases hitems
    exact hbefore rfl
  | cons piece pieces ih =>
    intro hitems
    obtain ⟨hpiece, hpieces⟩ := forall_mem_cons.mp h
    have hpos := hpiece.berLength.pos
    rw [map_cons, sum_cons, flatMap_cons, length_append, piece.length_bytes] at hlen
    rw [flatMap_cons, map_cons] at hitems
    generalize hbs : before ++ (piece.bytes ++ pieces.flatMap (·.bytes)) = bs at hitems
    cases hitems with
    | @cons _ rest _ _ hitem hrest =>
    obtain ⟨b, octets, hb, hoctets, rfl⟩ := berItem_eq_some hitem (toNat_lt _)
    have hrestLen := sum_min_le_of_items hrest
    have hsuffix : pieces.flatMap (·.bytes) <:+ b :: (octets ++ (piece.value ++ rest)) :=
      ⟨before ++ piece.bytes, by rw [append_assoc, hbs]⟩
    have hsuffix' : rest <:+ b :: (octets ++ (piece.value ++ rest)) :=
      ⟨b :: (octets ++ piece.value), by simp⟩
    rcases lt_trichotomy rest.length (pieces.flatMap (·.bytes)).length with hlt | heq | hgt
    · -- the rest begins at the length of the next item, which its tag cannot be
      rcases pieces with - | ⟨next, pieces⟩
      · cases hlt
      obtain ⟨hnext, -⟩ := forall_mem_cons.mp hpieces
      have hlen' : rest.length + 1 = ((next :: pieces).flatMap (·.bytes)).length := by omega
      have hrest' := suffix_of_suffix_length_le hsuffix' hsuffix hlt.le
      rw [flatMap_cons, BerPiece.bytes, cons_append] at hrest' hlen'
      obtain hall | htail := suffix_cons_iff.mp hrest'
      · rw [hall] at hlen'
        omega
      rw [length_cons] at hlen'
      obtain rfl := htail.eq_of_length (by omega)
      generalize hread : next.octets ++ next.value ++ pieces.flatMap (·.bytes) = read at hrest
      cases hrest with
      | cons hitem' _ =>
      obtain ⟨b', octets', hb', -, rfl⟩ := berItem_eq_some hitem' (toNat_lt _)
      obtain ⟨c, octets'', hoctets''⟩ :=
        exists_cons_of_ne_nil (length_pos_iff.mp hnext.berLength.pos)
      rw [hoctets''] at hread
      have hc : c = next.head :=
        (List.cons.inj hread).1.trans (UInt8.toNat_inj.mp hb')
      exact hnext.octets_ne octets'' (hc ▸ hoctets'')
    · -- the values are at the same place, so that the lengths end there together
      obtain rfl := (suffix_of_suffix_length_le hsuffix' hsuffix heq.le).eq_of_length heq
      refine hpiece.head_ne hoctets hbefore (b := b) ?_
      refine append_cancel_right (?_ : _ ++ (piece.value ++ pieces.flatMap (·.bytes)) = _)
      rw [cons_append, ← hbs, BerPiece.bytes]
      simp
    · obtain ⟨between, rfl⟩ := suffix_of_suffix_length_le hsuffix hsuffix' hgt.le
      refine ih hpieces (by omega) ?_ hrest
      rintro rfl
      simp at hgt

end Plain

end PicoAll
