import PicoAll.Fido.OathRecord
import PicoAll.Lib.BoundedRead

/-!
# The TLV walker inside its buffer

`tlv_walk` moves a pointer through a buffer and hands out a pointer and a length for each value. Here
the pointer is what it is in `tlv.c`, an offset from the beginning of the buffer, and each byte the
walker looks at is a read that has to be inside the buffer. Whatever is in the buffer and wherever
the pointer is, the walker reads nothing outside it, hands out nothing outside it, and stops after
as many turns as there are bytes at most (`tlvLoop_spec`); what it hands out is the list of items of
`Fs/Tlv.lean`.

What `tlv_append` writes under a tag is read back under that tag just if the first byte of the tag
says how many there are, its low five bits being set in a tag of two bytes and not all set in a tag of
one (`tlvTagWellFormed`).
-/

namespace PicoAll

open BigEndian ByteBuffer BoundedRead List Option Nat

/-- `tlv_item_t`: the value is an offset and a length. -/
structure TlvSpan where
  tag : ℕ
  /-- Where the value begins. -/
  offset : ℕ
  /-- How long it is. -/
  len : ℕ
  deriving DecidableEq, Repr

variable (data : Bytes)

/-- The tag and the bytes of the value. -/
def TlvSpan.read (span : TlvSpan) : ℕ × Bytes :=
  (span.tag, slice data span.offset span.len)

/-- `tlv_walk` reading the tag: the pointer behind it, and the tag unless the buffer ends first. -/
def tlvReadTag (p : ℕ) : BoundedRead (ℕ × Option ℕ) := do
  let b ← byte data p
  if b &&& 0x1f = 0x1f then
    if p + 1 ≥ data.length then
      return (p + 1, none)
    else
      let b' ← byte data (p + 1)
      return (p + 2, some (b.toNat * 256 + b'.toNat))
  else
    return (p + 1, some b.toNat)

/-- `tlv_walk` reading the length. A tag that ends the buffer has length zero. -/
def tlvReadLength (p : ℕ) : BoundedRead (ℕ × Option ℕ) :=
  if p ≥ data.length then
    return (p, some 0)
  else do
    let b ← byte data p
    if b = 0x82 then
      if data.length - (p + 1) < 2 then
        return (p + 1, none)
      else
        let b₁ ← byte data (p + 1)
        let b₂ ← byte data (p + 2)
        return (p + 3, some (b₁.toNat * 256 + b₂.toNat))
    else if b = 0x81 then
      if p + 1 ≥ data.length then
        return (p + 1, none)
      else
        let b₁ ← byte data (p + 1)
        return (p + 2, some b₁.toNat)
    else
      return (p + 1, some b.toNat)

/-- `tlv_walk`: the pointer `p`, which may be `NULL` and may be anywhere, is an offset from the
beginning of the buffer. Gives the pointer as it is left, and the item if there is one. -/
def tlvWalkAt (p : Option ℤ) : BoundedRead (ℤ × Option TlvSpan) :=
  let p := p.getD 0
  if p < 0 ∨ p ≥ data.length then
    return (p, none)
  else do
    let (q, tag) ← tlvReadTag data p.toNat
    match tag with
    | none => return (q, none)
    | some tag =>
      let (q, len) ← tlvReadLength data q
      match len with
      | none => return (q, none)
      | some len =>
        if len > data.length - q then
          return (q, none)
        else
          return (q + len, some ⟨tag, q, len⟩)

/-- `while (tlv_walk(..))`, for a number of turns: the items, and where the pointer is when the walker
has stopped. -/
def tlvLoop (data : Bytes) : ℕ → Option ℤ → BoundedRead (List TlvSpan × Option ℤ)
  | 0, _ => return ([], none)
  | turns + 1, p => do
    let (p, span) ← tlvWalkAt data p
    match span with
    | none => return ([], some p)
    | some span =>
      let (spans, stopped) ← tlvLoop data turns (some p)
      return (span :: spans, stopped)

/-! ### One turn -/

section Turn

variable {data rest : Bytes} {p : ℕ}

/-- A tag is read as from the rest of the buffer. -/
theorem tlvReadTag_spec {b : UInt8} (h : PointsTo data p (b :: rest)) :
    ∃ q, tlvReadTag data p = some (q, (tlvTag (b :: rest)).map Prod.fst) ∧
      ∀ tag rest', tlvTag (b :: rest) = some (tag, rest') → PointsTo data q rest' := by
  rw [tlvReadTag, h.byte]
  by_cases hb : b &&& 0x1f = 0x1f
  · rcases rest with - | ⟨b', rest⟩
    · have hend := h.next.nil
      exact ⟨p + 1, by simp [tlvTag, hb, hend.ge], fun tag rest' htag ↦ by simp [tlvTag, hb] at htag⟩
    · have hlt := h.next.lt
      refine ⟨p + 2, ?_, fun tag rest' htag ↦ ?_⟩
      · simp [tlvTag, hb, not_le.mpr hlt, h.next.byte]
      · obtain ⟨-, rfl⟩ : b.toNat * 256 + b'.toNat = tag ∧ rest = rest' := by
          simpa [tlvTag, hb] using htag
        exact h.next.next
  · refine ⟨p + 1, by simp [tlvTag, hb], fun tag rest' htag ↦ ?_⟩
    obtain ⟨-, rfl⟩ : b.toNat = tag ∧ rest = rest' := by simpa [tlvTag, hb] using htag
    exact h.next

/-- A length is read as from the rest of the buffer. -/
theorem tlvReadLength_spec (h : PointsTo data p rest) :
    ∃ q, tlvReadLength data p = some (q, (tlvLength rest).map Prod.fst) ∧
      ∀ len rest', tlvLength rest = some (len, rest') → PointsTo data q rest' := by
  rw [tlvReadLength]
  rcases rest with - | ⟨b, rest⟩
  · refine ⟨p, by simp [tlvLength, h.nil], fun len rest' hlen ↦ ?_⟩
    obtain ⟨-, rfl⟩ : 0 = len ∧ [] = rest' := by simpa [tlvLength] using hlen
    exact h
  rw [if_neg (not_le.mpr h.lt), h.byte]
  have hlength := h.next.length
  by_cases hlong : b = 0x82
  · rcases rest with - | ⟨b₁, - | ⟨b₂, rest⟩⟩
    · exact ⟨p + 1, by simp [tlvLength, hlong, hlength], fun len rest' hlen ↦ by
        simp [tlvLength, hlong] at hlen⟩
    · exact ⟨p + 1, by simp [tlvLength, hlong, hlength], fun len rest' hlen ↦ by
        simp [tlvLength, hlong] at hlen⟩
    · have hfits : ¬data.length - (p + 1) < 2 := by
        rw [hlength, length_cons, length_cons]
        omega
      refine ⟨p + 3, by simp [tlvLength, hlong, hfits, h.next.byte, h.next.next.byte],
        fun len rest' hlen ↦ ?_⟩
      obtain ⟨-, rfl⟩ : b₁.toNat * 256 + b₂.toNat = len ∧ rest = rest' := by
        simpa [tlvLength, hlong] using hlen
      exact h.next.next.next
  by_cases hmiddle : b = 0x81
  · rcases rest with - | ⟨b₁, rest⟩
    · exact ⟨p + 1, by simp [tlvLength, hmiddle, hlength], fun len rest' hlen ↦ by
        simp [tlvLength, hmiddle] at hlen⟩
    · have hlt := h.next.lt
      refine ⟨p + 2, by simp [tlvLength, hmiddle, not_le.mpr hlt, h.next.byte],
        fun len rest' hlen ↦ ?_⟩
      obtain ⟨-, rfl⟩ : b₁.toNat = len ∧ rest = rest' := by simpa [tlvLength, hmiddle] using hlen
      exact h.next.next
  · refine ⟨p + 1, by simp [tlvLength, hlong, hmiddle], fun len rest' hlen ↦ ?_⟩
    obtain ⟨-, rfl⟩ : b.toNat = len ∧ rest = rest' := by simpa [tlvLength, hlong, hmiddle] using hlen
    exact h.next

/-- What one turn of the walker leaves: an item inside the buffer, with the pointer behind it. -/
structure TlvStep (data rest : Bytes) (item : TlvItem) (span : TlvSpan) (q : ℕ) : Prop where
  walk : tlvWalk rest = some item
  read : span.read data = (item.tag, item.value)
  end_eq : span.offset + span.len = q
  points : PointsTo data q item.rest

/-- **One turn**: the walker reads inside the buffer, and what it comes to is the next item of the rest
of the buffer. -/
theorem tlvWalkAt_spec (h : PointsTo data p rest) :
    (∃ q, tlvWalkAt data (some p) = some (q, none) ∧ tlvWalk rest = none ∧
      (rest = [] → q = data.length)) ∨
    ∃ (item : TlvItem) (span : TlvSpan) (q : ℕ),
      tlvWalkAt data (some p) = some ((q : ℤ), some span) ∧ TlvStep data rest item span q := by
  rcases rest with - | ⟨b, rest⟩
  · refine .inl ⟨p, ?_, rfl, fun _ ↦ by rw [h.nil]⟩
    rw [tlvWalkAt, getD_some, if_pos (.inr (by rw [h.nil]))]
    rfl
  have hin : ¬((p : ℤ) < 0 ∨ (p : ℤ) ≥ data.length) := by
    have := h.lt
    omega
  rw [tlvWalkAt, getD_some, if_neg hin, Int.toNat_natCast]
  obtain ⟨q, hq, htag⟩ := tlvReadTag_spec h
  rw [hq]
  rcases ht : tlvTag (b :: rest) with - | ⟨tag, rest₁⟩
  · exact .inl ⟨q, rfl, by rw [tlvWalk, ht], by simp⟩
  obtain ⟨r, hr, hlen⟩ := tlvReadLength_spec (htag tag rest₁ ht)
  rcases hl : tlvLength rest₁ with - | ⟨len, rest₂⟩
  · refine .inl ⟨r, ?_, by simp [tlvWalk, ht, hl], by simp⟩
    simp [hr, hl]
  have hpoints := hlen len rest₂ hl
  have hfits : data.length - r = rest₂.length := by
    rw [hpoints.length]
    omega
  by_cases hgt : len > rest₂.length
  · refine .inl ⟨r, ?_, by simp [tlvWalk, ht, hl, hgt], by simp⟩
    simp [hr, hl, hfits, hgt]
  · refine .inr ⟨⟨tag, rest₂.take len, rest₂.drop len⟩, ⟨tag, r, len⟩, r + len, ?_, ?_⟩
    · simp [hr, hl, hfits, hgt]
    · exact ⟨by simp [tlvWalk, ht, hl, hgt], by rw [TlvSpan.read, hpoints.slice], rfl,
        hpoints.skip (not_lt.mp hgt)⟩

end Turn

/-! ### The loop -/

/-- The pointer that is `NULL` is put to the beginning of the buffer. -/
theorem tlvLoop_none (turns : ℕ) : tlvLoop data turns none = tlvLoop data turns (some 0) := by
  cases turns <;> rfl

/-- **The loop**: with a turn for each byte and one more the walker stops, having read inside the
buffer only. It has handed out the items of the buffer, each of them inside it. -/
theorem tlvLoop_spec {data rest : Bytes} {turns p : ℕ} (h : PointsTo data p rest)
    (hturns : rest.length < turns) :
    ∃ spans q, tlvLoop data turns (some p) = some (spans, some q) ∧
      spans.map (·.read data) = tlvPairs rest ∧
      (∀ span ∈ spans, span.offset + span.len ≤ data.length) ∧
      (tlvEnd rest = [] → q = data.length) := by
  induction turns generalizing p rest with
  | zero => exact absurd hturns (not_lt_zero _)
  | succ turns ih =>
    rw [tlvLoop]
    rcases tlvWalkAt_spec h with ⟨q, hq, hwalk, hend⟩ | ⟨item, span, q, hq, hstep⟩
    · refine ⟨[], q, by rw [hq]; rfl, ?_, nofun, fun hnil ↦ ?_⟩
      · rw [map_nil, tlvPairs, tlvItems_of_walk_none hwalk, map_nil]
      · rw [tlvEnd_of_walk_none hwalk] at hnil
        exact mod_cast hend hnil
    · have hshort := length_tlvWalk hstep.walk
      obtain ⟨spans, q', hloop, hread, hinside, hend⟩ := ih hstep.points (by omega)
      refine ⟨span :: spans, q', by rw [hq]; simp [hloop], ?_, ?_, ?_⟩
      · rw [map_cons, hread, hstep.read, tlvPairs_of_walk hstep.walk]
      · intro span' hspan'
        rcases mem_cons.mp hspan' with rfl | hspan'
        · rw [hstep.end_eq]
          exact hstep.points.le_length
        · exact hinside span' hspan'
      · rw [tlvEnd_of_walk hstep.walk]
        exact hend

/-- A turn reads inside the buffer wherever the pointer is, and so does what it hands out lie. -/
theorem tlvWalkAt_inside (p : Option ℤ) :
    ∃ q item, tlvWalkAt data p = some (q, item) ∧
      ∀ span, item = some span → span.offset + span.len ≤ data.length ∧ q = span.offset + span.len := by
  obtain ⟨z, hz⟩ : ∃ z, tlvWalkAt data p = tlvWalkAt data (some z) ∧ p.getD 0 = z :=
    ⟨p.getD 0, by cases p <;> rfl, rfl⟩
  rw [hz.1]
  by_cases hout : z < 0 ∨ z ≥ data.length
  · exact ⟨z, none, by rw [tlvWalkAt, getD_some, if_pos hout]; rfl, nofun⟩
  rw [not_or] at hout
  obtain ⟨i, rfl⟩ := Int.eq_ofNat_of_zero_le (Int.not_lt.mp hout.1)
  have hi : i ≤ data.length := by omega
  rcases tlvWalkAt_spec (PointsTo.of_le hi) with ⟨q, hq, -, -⟩ | ⟨item, span, q, hq, hstep⟩
  · exact ⟨q, none, hq, nofun⟩
  · refine ⟨q, some span, hq, ?_⟩
    rintro _ ⟨rfl⟩
    exact ⟨hstep.end_eq.le.trans hstep.points.le_length, by rw [← hstep.end_eq]; push_cast; rfl⟩

/-! ### Writing -/

/-- What is written under a tag: both are as wide as the writers' arguments. -/
structure TlvEntry where
  tag : UInt16
  value : Bytes
  length_le : value.length ≤ 0xffff

/-- What an entry is read back as. -/
def TlvEntry.pair (entry : TlvEntry) : ℕ × Bytes :=
  (entry.tag.toNat, entry.value)

/-- Entries written one behind the other with `tlv_append`. -/
def tlvWrite (entries : List TlvEntry) : Bytes :=
  entries.flatMap fun entry ↦ tlvAppend entry.tag.toNat entry.value

/-- The first byte of a tag says how many bytes it has: its low five bits are all set just if there are
two. -/
def tlvTagWellFormed (tag : UInt16) : Bool :=
  if tag.toNat > 0xff then tag.toNat / 256 % 32 == 31 else tag.toNat % 32 != 31

theorem lowBits_eq_iff (b : UInt8) : b &&& 0x1f = 0x1f ↔ b.toNat % 32 = 31 := by
  rw [← UInt8.toNat_inj, UInt8.toNat_and, show (0x1f : UInt8).toNat = 2 ^ 5 - 1 from rfl,
    and_two_pow_sub_one_eq_mod]
  exact Iff.rfl

/-- The tags that the walker can find are those whose first byte says how many there are. -/
theorem tlvTagWellFormed_iff (tag : UInt16) :
    tlvTagWellFormed tag = true ↔ ∃ tagBytes, TlvTagField tag.toNat tagBytes := by
  have hlt := tag.toNat_lt
  have hbyte : ∀ n, n < 256 → (UInt8.ofNat n).toNat = n := fun n hn ↦ by
    rw [UInt8.toNat_ofNat', mod_eq_of_lt hn]
  constructor
  · rw [tlvTagWellFormed]
    split_ifs with htwo <;> intro h
    · have hhigh := hbyte (tag.toNat / 256) (by omega)
      have hlow := hbyte (tag.toNat % 256) (by omega)
      have hfield := TlvTagField.two (.ofNat (tag.toNat / 256)) (.ofNat (tag.toNat % 256))
        ((lowBits_eq_iff _).mpr (by rw [hhigh]; exact beq_iff_eq.mp h))
      rw [hhigh, hlow, div_add_mod'] at hfield
      exact ⟨_, hfield⟩
    · have hone := hbyte tag.toNat (by omega)
      have hfield := TlvTagField.one (.ofNat tag.toNat) fun hbits ↦ by
        rw [lowBits_eq_iff, hone] at hbits
        exact bne_iff_ne.mp h hbits
      rw [hone] at hfield
      exact ⟨_, hfield⟩
  · rintro ⟨tagBytes, hfield⟩
    rw [tlvTagWellFormed]
    generalize tag.toNat = n at hfield
    cases hfield with
    | one b h =>
      rw [ne_eq, lowBits_eq_iff] at h
      rw [if_neg (by have := b.toNat_lt; omega)]
      exact bne_iff_ne.mpr h
    | two b b' h =>
      rw [lowBits_eq_iff] at h
      have hb' := b'.toNat_lt
      rw [if_pos (by omega), show (b.toNat * 256 + b'.toNat) / 256 = b.toNat by omega]
      exact beq_iff_eq.mpr h

/-- Everything that is written under well-formed tags is read back, up to the end of the buffer. -/
theorem tlvWrite_prefix {entries : List TlvEntry}
    (h : ∀ entry ∈ entries, tlvTagWellFormed entry.tag = true) :
    TlvPrefix (tlvWrite entries) (entries.map TlvEntry.pair) := by
  have hpairs : ∀ pair ∈ entries.map TlvEntry.pair,
      (∃ tagBytes, TlvTagField pair.1 tagBytes) ∧ pair.2.length ≤ 0xffff := by
    intro pair hpair
    obtain ⟨entry, hentry, rfl⟩ := mem_map.mp hpair
    exact ⟨(tlvTagWellFormed_iff entry.tag).mp (h entry hentry), entry.length_le⟩
  have hwhole := tlvPrefix_append hpairs
  rwa [flatMap_map] at hwhole

/-- What `while (tlv_walk(..))` visits of a buffer, and where its pointer is in the end. -/
def tlvVisits : BoundedRead (List (ℕ × Bytes) × Option ℤ) := do
  let (spans, stopped) ← tlvLoop data (data.length + 1) none
  return (spans.map (·.read data), stopped)

/-- **Agreement of the writer and the walker, and safety of the walker.** What is written is visited
entry by entry, up to the end of the buffer, just if the first byte of every tag says how many bytes
the tag has. Whatever the buffer and the pointer are, a turn reads inside the buffer only and hands out
a value inside it, and a loop over the buffer stops. -/
theorem tlv_walk_agrees :
    (∀ entries : List TlvEntry,
      tlvVisits (tlvWrite entries) =
          some (entries.map TlvEntry.pair, some ((tlvWrite entries).length : ℤ)) ↔
        ∀ entry ∈ entries, tlvTagWellFormed entry.tag = true) ∧
    (∀ (data : Bytes) (p : Option ℤ), ∃ q item, tlvWalkAt data p = some (q, item) ∧
      ∀ span, item = some span → span.offset + span.len ≤ data.length ∧
        q = span.offset + span.len) ∧
    ∀ data : Bytes, ∃ spans q, tlvLoop data (data.length + 1) none = some (spans, some q) ∧
      ∀ span ∈ spans, span.offset + span.len ≤ data.length := by
  have hloop : ∀ data : Bytes, ∃ spans q,
      tlvLoop data (data.length + 1) none = some (spans, some q) ∧
      spans.map (·.read data) = tlvPairs data ∧
      (∀ span ∈ spans, span.offset + span.len ≤ data.length) ∧
      (tlvEnd data = [] → q = data.length) := fun data ↦ by
    exact tlvLoop_spec (PointsTo.start data) (lt_succ_self _)
  refine ⟨fun entries ↦ ⟨fun hvisits entry hentry ↦ ?_, fun h ↦ ?_⟩, tlvWalkAt_inside, fun data ↦ ?_⟩
  · -- a tag that the walker has found is well formed
    obtain ⟨spans, q, hspans, hread, -, -⟩ := hloop (tlvWrite entries)
    simp only [tlvVisits, hspans, Option.bind_eq_bind, Option.bind_some, Option.pure_def,
      Option.some.injEq, Prod.mk.injEq] at hvisits
    have hpair : entry.pair ∈ tlvPairs (tlvWrite entries) := by
      rw [← hread, hvisits.1]
      exact mem_map_of_mem hentry
    obtain ⟨item, hitem, hpair⟩ := mem_map.mp hpair
    have hfield := (tlvItems_field hitem).1
    rw [show item.tag = entry.tag.toNat from congrArg Prod.fst hpair] at hfield
    exact (tlvTagWellFormed_iff entry.tag).mpr hfield
  · obtain ⟨spans, q, hspans, hread, -, hend⟩ := hloop (tlvWrite entries)
    have hwhole := tlvWrite_prefix h
    rw [hwhole.pairs_eq] at hread
    rw [tlvVisits, hspans, ← hread, hend hwhole.end_eq]
    rfl
  · obtain ⟨spans, q, hspans, -, hinside, -⟩ := hloop data
    exact ⟨spans, q, hspans, hinside⟩

/-- A tag of one byte whose low five bits are all set takes the length for its second byte. -/
theorem tlv_short_tag_misread :
    ∃ entries : List TlvEntry, tlvVisits (tlvWrite entries) ≠
      some (entries.map TlvEntry.pair, some ((tlvWrite entries).length : ℤ)) :=
  ⟨[⟨0x1f, [], by decide⟩], by decide⟩

end PicoAll
