import PicoAll.Fs.Tlv
import PicoAll.Lib.ByteBuffer

/-!
# Editing a TLV list in place

What the walker makes of a buffer after a part of it is replaced. A header reads whatever stands
behind it (`TlvHeader`), and so does a list of whole items (`TlvPrefix`), so an item that was found can
be given another value, of its length or under another header, and every other item stays what it was
(`TlvContext`).
-/

namespace PicoAll

open BigEndian ByteBuffer List Nat

variable {bs : Bytes} {item : TlvItem} {tag len : ℕ}

/-- The tags and the values of the items. -/
def tlvPairs (bs : Bytes) : List (ℕ × Bytes) :=
  (tlvItems bs).map fun item ↦ (item.tag, item.value)

theorem tlvItems_of_walk_none (h : tlvWalk bs = none) : tlvItems bs = [] := by
  rw [tlvItems]
  rcases bs with - | ⟨b, bs⟩
  · rfl
  · rw [length_cons, tlvItemsFuel, h]

theorem tlvEnd_of_walk_none (h : tlvWalk bs = none) : tlvEnd bs = bs := by
  rw [tlvEnd]
  rcases bs with - | ⟨b, bs⟩
  · rfl
  · rw [length_cons, tlvEndFuel, h]

theorem tlvPairs_of_walk (h : tlvWalk bs = some item) :
    tlvPairs bs = (item.tag, item.value) :: tlvPairs item.rest := by
  rw [tlvPairs, tlvItems_of_walk h]
  rfl

/-- Item by item, up to where the walker stops. -/
theorem tlv_induction {P : Bytes → Prop} (stop : ∀ bs, tlvWalk bs = none → P bs)
    (walk : ∀ bs item, tlvWalk bs = some item → P item.rest → P bs) (bs : Bytes) : P bs := by
  induction hn : bs.length using Nat.strong_induction_on generalizing bs with
  | _ n ih =>
    rcases h : tlvWalk bs with - | item
    · exact stop bs h
    · exact walk bs item h (ih _ (hn ▸ length_tlvWalk h) _ rfl)

/-- `tlv_find_tag` looks at the tags and the values only. -/
theorem tlvFindTag_eq (tag : ℕ) (bs : Bytes) :
    tlvFindTag tag bs = ((tlvPairs bs).find? (·.1 = tag)).map (·.2) := by
  rw [tlvFindTag, tlvFind, tlvPairs, find?_map, Option.map_map]
  rfl

/-! ### Headers -/

/-- The bytes of a tag. -/
inductive TlvTagField : ℕ → Bytes → Prop
  | one (b : UInt8) (h : b &&& 0x1f ≠ 0x1f) : TlvTagField b.toNat [b]
  | two (b b' : UInt8) (h : b &&& 0x1f = 0x1f) : TlvTagField (b.toNat * 256 + b'.toNat) [b, b']

/-- The bytes of a length. -/
inductive TlvLengthField : ℕ → Bytes → Prop
  | short (b : UInt8) (h : b ≠ 0x81 ∧ b ≠ 0x82) : TlvLengthField b.toNat [b]
  | middle (b : UInt8) : TlvLengthField b.toNat [0x81, b]
  | long (b b' : UInt8) : TlvLengthField (b.toNat * 256 + b'.toNat) [0x82, b, b']

/-- The bytes of a tag and a length. -/
inductive TlvHeader : ℕ → ℕ → Bytes → Prop
  | mk {tag len : ℕ} {tagBytes lengthBytes : Bytes} (htag : TlvTagField tag tagBytes)
      (hlen : TlvLengthField len lengthBytes) : TlvHeader tag len (tagBytes ++ lengthBytes)

theorem TlvTagField.read {tagBytes : Bytes} (h : TlvTagField tag tagBytes) (tail : Bytes) :
    tlvTag (tagBytes ++ tail) = some (tag, tail) := by
  cases h with
  | one b h => simp [tlvTag, h]
  | two b b' h => simp [tlvTag, h]

theorem TlvLengthField.read {lengthBytes : Bytes} (h : TlvLengthField len lengthBytes)
    (tail : Bytes) : tlvLength (lengthBytes ++ tail) = some (len, tail) := by
  cases h with
  | short b h => simp [tlvLength, h.1, h.2]
  | middle b => simp [tlvLength]
  | long b b' => simp [tlvLength]

/-- A header is read whatever stands behind it. -/
theorem TlvHeader.walk {header : Bytes} (h : TlvHeader tag len header) {tail : Bytes}
    (hle : len ≤ tail.length) :
    tlvWalk (header ++ tail) = some ⟨tag, tail.take len, tail.drop len⟩ := by
  cases h with
  | mk htag hlen =>
    simp only [append_assoc, tlvWalk, htag.read, hlen.read]
    exact if_neg (not_lt.mpr hle)

theorem tlvTag_field {rest : Bytes} (h : tlvTag bs = some (tag, rest)) :
    ∃ tagBytes, bs = tagBytes ++ rest ∧ TlvTagField tag tagBytes := by
  rcases bs with - | ⟨b, bs⟩
  · cases h
  rw [tlvTag.eq_def] at h
  dsimp only at h
  split_ifs at h with hb
  · rcases bs with - | ⟨b', bs⟩
    · cases h
    · obtain ⟨rfl, rfl⟩ : b.toNat * 256 + b'.toNat = tag ∧ bs = rest := by simpa using h
      exact ⟨[b, b'], rfl, .two b b' hb⟩
  · obtain ⟨rfl, rfl⟩ : b.toNat = tag ∧ bs = rest := by simpa using h
    exact ⟨[b], rfl, .one b hb⟩

/-- There are bytes of a length, unless the tag ends the buffer. -/
theorem tlvLength_field {rest : Bytes} (h : tlvLength bs = some (len, rest)) (hne : bs ≠ []) :
    ∃ lengthBytes, bs = lengthBytes ++ rest ∧ TlvLengthField len lengthBytes := by
  rcases bs with - | ⟨b, bs⟩
  · exact absurd rfl hne
  rw [tlvLength.eq_def] at h
  dsimp only at h
  split_ifs at h with hlong hmiddle
  · rcases bs with - | ⟨b₁, - | ⟨b₂, bs⟩⟩
    · cases h
    · cases h
    · obtain ⟨rfl, rfl⟩ : b₁.toNat * 256 + b₂.toNat = len ∧ bs = rest := by simpa using h
      exact ⟨[b, b₁, b₂], rfl, hlong ▸ .long b₁ b₂⟩
  · rcases bs with - | ⟨b₁, bs⟩
    · cases h
    · obtain ⟨rfl, rfl⟩ : b₁.toNat = len ∧ bs = rest := by simpa using h
      exact ⟨[b, b₁], rfl, hmiddle ▸ .middle b₁⟩
  · obtain ⟨rfl, rfl⟩ : b.toNat = len ∧ bs = rest := by simpa using h
    exact ⟨[b], rfl, .short b ⟨hmiddle, hlong⟩⟩

/-- What `tlv_format_len` writes is the bytes of a length. -/
theorem tlvFormatLen_field (h : len ≤ 0xffff) : TlvLengthField len (tlvFormatLen len) := by
  have hbyte : ∀ n, n < 256 → (UInt8.ofNat n).toNat = n := fun n hn ↦ by
    rw [UInt8.toNat_ofNat', mod_eq_of_lt hn]
  rw [tlvFormatLen_of_lt h]
  split_ifs with h₁ h₂
  · have hlong : ∀ b : UInt8, 128 ≤ b.toNat → UInt8.ofNat len ≠ b := by
      rintro b hb rfl
      rw [hbyte len (by omega)] at hb
      omega
    have hfield := TlvLengthField.short (UInt8.ofNat len) ⟨hlong 0x81 (by decide), hlong 0x82 (by decide)⟩
    rw [hbyte len (by omega)] at hfield
    simpa [beBytes] using hfield
  · have hfield := TlvLengthField.middle (UInt8.ofNat len)
    rw [hbyte len h₂] at hfield
    simpa [beBytes] using hfield
  · have hfield := TlvLengthField.long (UInt8.ofNat (len / 256)) (UInt8.ofNat len)
    rw [hbyte (len / 256) (by omega), UInt8.toNat_ofNat', show len / 256 * 256 + len % 2 ^ 8 = len
      by omega] at hfield
    simpa [beBytes] using hfield

/-- The items that the walker stops at can be written again. -/
theorem tlvItems_field (hitem : item ∈ tlvItems bs) :
    (∃ tagBytes, TlvTagField item.tag tagBytes) ∧ item.value.length ≤ 0xffff := by
  induction bs using tlv_induction with
  | stop bs hwalk =>
    rw [tlvItems_of_walk_none hwalk] at hitem
    exact absurd hitem not_mem_nil
  | walk bs item₀ hwalk ih =>
    rw [tlvItems_of_walk hwalk, mem_cons] at hitem
    rcases hitem with rfl | hitem
    · rw [tlvWalk] at hwalk
      rcases htag : tlvTag bs with - | ⟨tag, bs₁⟩
      · rw [htag] at hwalk
        cases hwalk
      obtain ⟨tagBytes, -, hfield⟩ := tlvTag_field htag
      rcases hlength : tlvLength bs₁ with - | ⟨len, bs₂⟩
      · simp [htag, hlength] at hwalk
      have hlen : len ≤ 0xffff := by
        rcases eq_or_ne bs₁ [] with rfl | hne
        · obtain ⟨rfl, -⟩ : 0 = len ∧ [] = bs₂ := by simpa [tlvLength] using hlength
          omega
        · obtain ⟨lengthBytes, -, hlen⟩ := tlvLength_field hlength hne
          cases hlen with
          | short b => have := b.toNat_lt; omega
          | middle b => have := b.toNat_lt; omega
          | long b b' => have := b.toNat_lt; have := b'.toNat_lt; omega
      simp only [htag, hlength] at hwalk
      split_ifs at hwalk
      obtain rfl := Option.some.inj hwalk
      exact ⟨⟨tagBytes, hfield⟩, by simp only [length_take]; omega⟩
    · exact ih hitem

/-- An item that the walker stops at has a header, unless it is a tag that ends the buffer. -/
theorem tlvWalk_header (h : tlvWalk bs = some item) (hfull : ∀ tagBytes,
    TlvTagField item.tag tagBytes → item.value = [] → item.rest = [] → bs ≠ tagBytes) :
    ∃ header, bs = header ++ (item.value ++ item.rest) ∧
      TlvHeader item.tag item.value.length header := by
  rw [tlvWalk] at h
  rcases htag : tlvTag bs with - | ⟨tag, bs₁⟩
  · rw [htag] at h
    cases h
  rcases hlength : tlvLength bs₁ with - | ⟨len, bs₂⟩
  · simp [htag, hlength] at h
  have hle : len ≤ bs₂.length ∧ item = ⟨tag, bs₂.take len, bs₂.drop len⟩ := by
    simp only [htag, hlength] at h
    split_ifs at h with hlt
    exact ⟨not_lt.mp hlt, (Option.some.inj h).symm⟩
  obtain ⟨hle, rfl⟩ := hle
  obtain ⟨tagBytes, rfl, htagField⟩ := tlvTag_field htag
  have hne : bs₁ ≠ [] := by
    rintro rfl
    obtain ⟨rfl, rfl⟩ : 0 = len ∧ [] = bs₂ := by simpa [tlvLength] using hlength
    exact hfull tagBytes htagField rfl rfl (append_nil _)
  obtain ⟨lengthBytes, rfl, hlengthField⟩ := tlvLength_field hlength hne
  refine ⟨tagBytes ++ lengthBytes, ?_, ?_⟩
  · rw [take_append_drop, append_assoc]
  · rw [length_take, min_eq_left hle]
    exact .mk htagField hlengthField

/-! ### Whole items -/

/-- Items that are read whatever stands behind them. -/
structure TlvPrefix (before : Bytes) (pairs : List (ℕ × Bytes)) : Prop where
  pairs_append : ∀ tail, tlvPairs (before ++ tail) = pairs ++ tlvPairs tail
  end_append : ∀ tail, tlvEnd (before ++ tail) = tlvEnd tail

namespace TlvPrefix

variable {before before' : Bytes} {pairs pairs' : List (ℕ × Bytes)}

theorem nil : TlvPrefix [] [] :=
  ⟨fun _ ↦ rfl, fun _ ↦ rfl⟩

section

variable (h : TlvPrefix before pairs)
include h

theorem append (h' : TlvPrefix before' pairs') :
    TlvPrefix (before ++ before') (pairs ++ pairs') where
  pairs_append tail := by
    rw [append_assoc, h.pairs_append, h'.pairs_append, append_assoc]
  end_append tail := by
    rw [append_assoc, h.end_append, h'.end_append]

/-- The items of the buffer are these, and there is nothing else in it. -/
theorem pairs_eq : tlvPairs before = pairs := by
  simpa [tlvPairs, tlvItems, tlvItemsFuel] using h.pairs_append []

theorem end_eq : tlvEnd before = [] := by
  simpa [tlvEnd, tlvEndFuel] using h.end_append []

/-- What stands behind whole items is made of whole items if all of it is. -/
theorem of_append {rest : Bytes}
    (hall : TlvPrefix (before ++ rest) pairs') : TlvPrefix rest (tlvPairs rest) where
  pairs_append tail := by
    have hpairs := hall.pairs_append tail
    rw [← hall.pairs_eq, h.pairs_append, append_assoc, h.pairs_append, append_assoc]
      at hpairs
    exact append_cancel_left hpairs
  end_append tail := by
    rw [← h.end_append, ← append_assoc]
    exact hall.end_append tail

theorem findTag_append (tag : ℕ) (tail : Bytes) :
    tlvFindTag tag (before ++ tail) = (tlvFindTag tag before).or (tlvFindTag tag tail) := by
  rw [tlvFindTag_eq, tlvFindTag_eq, tlvFindTag_eq, h.pairs_append, h.pairs_eq, find?_append]
  cases pairs.find? (·.1 = tag) <;> rfl

end

end TlvPrefix

theorem TlvHeader.tlvPrefix {header value : Bytes} (h : TlvHeader tag value.length header) :
    TlvPrefix (header ++ value) [(tag, value)] := by
  have hwalk : ∀ tail, tlvWalk (header ++ value ++ tail) = some ⟨tag, value, tail⟩ := by
    intro tail
    rw [append_assoc, h.walk (by simp), take_left, drop_left]
  exact ⟨fun tail ↦ tlvPairs_of_walk (hwalk tail), fun tail ↦ tlvEnd_of_walk (hwalk tail)⟩

/-- The buffer consists of whole items: it ends with none of which only the tag is there. -/
def TlvComplete (bs : Bytes) : Prop :=
  TlvPrefix bs (tlvPairs bs)

theorem TlvPrefix.complete {pairs : List (ℕ × Bytes)} (h : TlvPrefix bs pairs) : TlvComplete bs := by
  rw [TlvComplete, h.pairs_eq]
  exact h

/-- There is no tag alone at the end of whole items. -/
theorem TlvTagField.not_complete {tagBytes : Bytes} (h : TlvTagField tag tagBytes) :
    ¬TlvComplete tagBytes := by
  intro hcomplete
  -- behind the tag, a one is a length for which there is no value
  have hwalk : tlvWalk (tagBytes ++ [1]) = none := by
    rw [tlvWalk, h.read]
    rfl
  have hend := (tlvEnd_of_walk_none hwalk).symm.trans (hcomplete.end_append [1])
  exact absurd (congrArg List.length hend) (by simp [show tlvEnd [1] = [] from by decide])

/-- An item of whole items has a header. -/
theorem TlvComplete.header (hcomplete : TlvComplete bs) (h : tlvWalk bs = some item) :
    ∃ header, bs = header ++ (item.value ++ item.rest) ∧
      TlvHeader item.tag item.value.length header := by
  refine tlvWalk_header h ?_
  rintro tagBytes htag - - rfl
  exact htag.not_complete hcomplete

theorem TlvComplete.rest (hcomplete : TlvComplete bs) (h : tlvWalk bs = some item) :
    TlvComplete item.rest := by
  obtain ⟨header, hsplit, hheader⟩ := hcomplete.header h
  rw [← append_assoc] at hsplit
  rw [TlvComplete, hsplit] at hcomplete
  exact hheader.tlvPrefix.of_append hcomplete

/-! ### Around an item -/

/-- An item in its buffer: what stands before it, and its header. -/
structure TlvContext (bs : Bytes) (item : TlvItem) (before header : Bytes) : Prop where
  split : bs = before ++ header ++ item.value ++ item.rest
  whole : TlvPrefix before (tlvPairs before)
  header : TlvHeader item.tag item.value.length header
  first : ∀ pair ∈ tlvPairs before, pair.1 ≠ item.tag

/-- The first item that `p` is true of stands behind whole items that it is false of, unless it is a
tag that ends the buffer. -/
theorem tlvItems_find_split {p : ℕ × Bytes → Bool}
    (h : (tlvItems bs).find? (fun item ↦ p (item.tag, item.value)) = some item)
    (hfull : item.value ++ item.rest ≠ [] ∨ TlvComplete bs) :
    p (item.tag, item.value) = true ∧ ∃ before header,
      bs = before ++ header ++ item.value ++ item.rest ∧ TlvPrefix before (tlvPairs before) ∧
        TlvHeader item.tag item.value.length header ∧ ∀ pair ∈ tlvPairs before, p pair = false := by
  induction bs using tlv_induction with
  | stop bs hwalk =>
    rw [tlvItems_of_walk_none hwalk] at h
    cases h
  | walk bs item₀ hwalk ih =>
    rw [tlvItems_of_walk hwalk, find?_cons] at h
    split at h
    · rename_i hp
      obtain rfl := Option.some.inj h
      obtain ⟨header, hsplit, hheader⟩ : ∃ header, bs = header ++ (item₀.value ++ item₀.rest) ∧
          TlvHeader item₀.tag item₀.value.length header := by
        rcases hfull with hfull | hcomplete
        · exact tlvWalk_header hwalk fun _ _ hvalue hrest ↦ absurd (by rw [hvalue, hrest]; rfl) hfull
        · exact hcomplete.header hwalk
      refine ⟨hp, [], header, ?_, .nil, hheader, fun _ h ↦ absurd h not_mem_nil⟩
      simpa [append_assoc] using hsplit
    · rename_i hp
      obtain ⟨hitem, before, header, hsplit, hwhole, hheader, hbefore⟩ :=
        ih h (hfull.imp id (·.rest hwalk))
      have hrest : item₀.rest ≠ [] := by
        intro hnil
        rw [hnil] at h
        simp [tlvItems, tlvItemsFuel] at h
      obtain ⟨header₀, hsplit₀, hheader₀⟩ := tlvWalk_header hwalk fun _ _ _ hnil ↦ absurd hnil hrest
      have hwhole₀ := hheader₀.tlvPrefix.append hwhole
      refine ⟨hitem, header₀ ++ item₀.value ++ before, header, ?_, hwhole₀.complete, hheader,
        fun pair hpair ↦ ?_⟩
      · rw [hsplit₀, hsplit]
        simp only [append_assoc]
      · rw [hwhole₀.pairs_eq, mem_append, mem_singleton] at hpair
        rcases hpair with rfl | hpair
        · exact hp
        · exact hbefore pair hpair

/-- An item that is found has a context, unless it is a tag that ends the buffer. -/
theorem tlvFind_context (h : tlvFind tag bs = some item)
    (hfull : item.value ++ item.rest ≠ [] ∨ TlvComplete bs) :
    item.tag = tag ∧ ∃ before header, TlvContext bs item before header := by
  obtain ⟨htag, before, header, hsplit, hwhole, hheader, hbefore⟩ :=
    tlvItems_find_split (p := fun pair ↦ pair.1 = tag) h hfull
  replace htag : item.tag = tag := of_decide_eq_true htag
  exact ⟨htag, before, header, hsplit, hwhole, hheader, fun pair hpair ↦
    htag ▸ of_decide_eq_false (hbefore pair hpair)⟩

namespace TlvContext

variable {before header : Bytes}

theorem offset (h : TlvContext bs item before header) :
    tlvOffset bs item = (before ++ header).length := by
  rw [tlvOffset, h.split]
  simp only [length_append]
  omega

variable {header' : Bytes} {value' : Bytes}

section

variable (h : TlvContext bs item before header)
include h

/-- Another header and another value. -/
theorem pairs_replace {rest' : Bytes} (hheader : TlvHeader item.tag value'.length header') :
    tlvPairs (before ++ header' ++ value' ++ rest') =
      tlvPairs before ++ (item.tag, value') :: tlvPairs rest' := by
  rw [append_assoc before, (h.whole.append hheader.tlvPrefix).pairs_append, append_assoc]
  rfl

/-- The item that is found is the new one, and the others stay what they were. -/
theorem findTag_replace (hheader : TlvHeader item.tag value'.length header') (tag : ℕ) :
    tlvFindTag tag (before ++ header' ++ value' ++ item.rest) =
      if tag = item.tag then some value' else tlvFindTag tag bs := by
  rw [tlvFindTag_eq, h.pairs_replace hheader, find?_append]
  split_ifs with htag
  · have hnone : (tlvPairs before).find? (·.1 = tag) = none :=
      find?_eq_none.mpr fun pair hpair ↦ by simpa [htag] using h.first pair hpair
    rw [hnone, find?_cons_of_pos (by simp [htag])]
    rfl
  · have hbs : tlvPairs bs = tlvPairs before ++ (item.tag, item.value) :: tlvPairs item.rest := by
      conv_lhs => rw [h.split, h.pairs_replace h.header]
    rw [tlvFindTag_eq, hbs, find?_append, find?_cons_of_neg (by simpa using Ne.symm htag),
      find?_cons_of_neg (by simpa using Ne.symm htag)]

/-- Whole items stay whole items. -/
theorem complete_replace (hcomplete : TlvComplete bs)
    (hheader : TlvHeader item.tag value'.length header') :
    TlvComplete (before ++ header' ++ value' ++ item.rest) := by
  have hprefix := h.whole.append h.header.tlvPrefix
  have hrest : TlvComplete item.rest := by
    rw [TlvComplete, h.split, append_assoc before] at hcomplete
    exact hprefix.of_append hcomplete
  rw [append_assoc before]
  exact ((h.whole.append hheader.tlvPrefix).append hrest).complete

theorem walk :
    tlvWalk (header ++ (item.value ++ item.rest)) = some item := by
  rw [h.header.walk (by simp), take_left, drop_left]

/-- Of two lists of whole items before an item with a tag, where neither has the tag, neither is
longer. -/
private theorem before_le {item' : TlvItem} {before' : Bytes}
    (h' : TlvContext bs item' before' header') (htag : item'.tag = item.tag)
    (hle : before.length ≤ before'.length) : before = before' := by
  have hsplit : before ++ (header ++ (item.value ++ item.rest)) =
      before' ++ (header' ++ (item'.value ++ item'.rest)) := by
    rw [← append_assoc, ← append_assoc, ← h.split, ← append_assoc, ← append_assoc, ← h'.split]
  obtain ⟨x, rfl⟩ : ∃ x, before' = before ++ x :=
    ⟨before'.drop before.length, by
      conv_lhs => rw [← take_append_drop before.length before']
      congr 1
      have := congrArg (List.take before.length) hsplit
      rwa [take_left, take_append_of_le_length hle, eq_comm] at this⟩
  rw [append_assoc, append_cancel_left_eq] at hsplit
  have hx := h.whole.of_append h'.whole
  -- an item in `x` would be the first one behind `before`, and have the tag
  have hpairs := tlvPairs_of_walk h.walk
  rw [hsplit, hx.pairs_append] at hpairs
  have hnone : tlvPairs x = [] := by
    rcases hnil : tlvPairs x with - | ⟨pair, pairs⟩
    · rfl
    · rw [hnil, cons_append, List.cons.injEq] at hpairs
      refine absurd ?_ (h'.first pair ?_)
      · rw [hpairs.1, htag]
      · rw [h.whole.pairs_append, hnil]
        exact mem_append_right _ (mem_cons_self ..)
  have hwalk : tlvWalk x = none := by
    rcases hwalk : tlvWalk x with - | item₀
    · rfl
    · rw [tlvPairs_of_walk hwalk] at hnone
      cases hnone
  rw [(tlvEnd_of_walk_none hwalk).symm.trans hx.end_eq, append_nil]

/-- An item with a value that has a context is the one that is found. -/
theorem find (hvalue : item.value ≠ []) : tlvFind item.tag bs = some item := by
  have hfound := h.findTag_replace h.header item.tag
  rw [← h.split, if_pos rfl] at hfound
  obtain ⟨item', hfind, hvalue'⟩ := Option.map_eq_some_iff.mp hfound
  have hfull : item'.value ++ item'.rest ≠ [] := fun hnil ↦
    hvalue (hvalue' ▸ (append_eq_nil_iff.mp hnil).1)
  obtain ⟨htag, before', header', h'⟩ := tlvFind_context hfind (.inl hfull)
  obtain rfl : before = before' := by
    rcases le_total before.length before'.length with hle | hle
    · exact h.before_le h' htag hle
    · exact (h'.before_le h htag.symm hle).symm
  have hsplit : header ++ (item.value ++ item.rest) = header' ++ (item'.value ++ item'.rest) := by
    refine (append_right_inj before).mp ?_
    rw [← append_assoc, ← append_assoc, ← h.split, ← append_assoc, ← append_assoc, ← h'.split]
  rw [hfind, ← h'.walk, ← hsplit, h.walk]

end

end TlvContext

end PicoAll
