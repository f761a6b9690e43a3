import PicoAll.Hsm.KeyCounter

/-!
# Key usage counters bound the results

The metadata of a key with another counter differs from it in the four bytes of the counter only
(`HasCounter.withCounter`), and an item of `EF_META` is written in its place whatever else is in the
file (`metaFind_metaAddContent`). A command that has a result decrements the counter, and the others
leave it (`KeyHeld.step`); so a careful run has no more results than the counter says
(`key_counter_bounds`).
-/

namespace PicoAll

open FaultProgram BigEndian ByteBuffer List Option Bool

/-! ### An item of the metadata file in its place -/

/-- What `metaItem` asks of an item. -/
def isMetaOf (fid : UInt16) (pair : ℕ × Bytes) : Bool :=
  decide (2 ≤ pair.2.length) && decide (beNat (pair.2.take 2) = fid.toNat)

theorem metaItem_eq (content : Bytes) (fid : UInt16) :
    metaItem content fid =
      (tlvItems content).find? fun item ↦ isMetaOf fid (item.tag, item.value) := by
  simp only [metaItem, isMetaOf]

/-- The search looks at the values only. -/
theorem metaFind_eq (content : Bytes) (fid : UInt16) :
    metaFind content fid = ((tlvPairs content).find? (isMetaOf fid)).map fun pair ↦ pair.2.drop 2 := by
  rw [metaFind, metaItem_eq, tlvPairs, find?_map, Option.map_map]
  rfl

/-- **Data of the same length is written in its place**, whatever the file is otherwise. -/
theorem metaFind_metaAddContent {content data old : Bytes} {fid : UInt16}
    (h : metaFind content fid = some old) (hlen : data.length = old.length) (fid' : UInt16) :
    metaFind (metaAddContent content fid data) fid' =
      if fid' = fid then some data else metaFind content fid' := by
  obtain ⟨item, hitem, rfl⟩ := map_eq_some_iff.mp h
  have hfind := hitem
  rw [metaItem_eq] at hfind
  have hof := find?_some hfind
  have htwo : 2 ≤ item.value.length := by
    rw [isMetaOf, and_eq_true, decide_eq_true_eq] at hof
    exact hof.1
  have hfull : item.value ++ item.rest ≠ [] := fun hnil ↦ by
    rw [append_eq_nil_iff] at hnil
    rw [hnil.1] at htwo
    cases htwo
  obtain ⟨-, before, header, hsplit, hwhole, hheader, hbefore⟩ :=
    tlvItems_find_split (p := isMetaOf fid) hfind (.inl hfull)
  rw [length_drop] at hlen
  -- the new content differs from the old one in the value of the item
  let value' := item.value.take 2 ++ data
  have hvalue' : value'.length = item.value.length := by
    rw [length_append, length_take, hlen]
    omega
  have hcontent : metaAddContent content fid data = before ++ header ++ value' ++ item.rest := by
    rw [metaAddContent, hitem]
    dsimp only
    rw [if_pos hlen.symm]
    have hoff : content.length - item.rest.length - item.value.length + 2 =
        (before ++ header ++ item.value.take 2).length := by
      rw [hsplit]
      simp only [length_append, length_take]
      omega
    have hcut : content =
        before ++ header ++ item.value.take 2 ++ (item.value.drop 2 ++ item.rest) := by
      conv_lhs => rw [hsplit, ← take_append_drop 2 item.value]
      simp only [append_assoc]
    rw [hoff, hcut, take_left]
    simp only [value', append_assoc]
  have hpairs {value : Bytes} (hvalue : value.length = item.value.length) :
      tlvPairs (before ++ header ++ value ++ item.rest) =
        tlvPairs before ++ (item.tag, value) :: tlvPairs item.rest := by
    rw [append_assoc before,
      (hwhole.append (TlvHeader.tlvPrefix (hvalue ▸ hheader))).pairs_append, append_assoc]
    rfl
  have htake : value'.take 2 = item.value.take 2 := by
    rw [take_left' (by rw [length_take]; omega)]
  have hsame (fid : UInt16) : isMetaOf fid (item.tag, value') = isMetaOf fid (item.tag, item.value) := by
    simp only [isMetaOf, hvalue', htake]
  rw [metaFind_eq, hcontent, hpairs hvalue', find?_append]
  split_ifs with hfid
  · subst hfid
    have hnone : (tlvPairs before).find? (isMetaOf fid') = none :=
      find?_eq_none.mpr fun pair hpair ↦ by rw [hbefore pair hpair]; decide
    rw [hnone, find?_cons_of_pos (by rw [hsame]; exact hof)]
    show some (value'.drop 2) = some data
    rw [drop_left' (by rw [length_take]; omega)]
  · have hother : isMetaOf fid' (item.tag, item.value) = false := by
      rw [isMetaOf, and_eq_true, decide_eq_true_eq, decide_eq_true_eq] at hof
      rw [isMetaOf, and_eq_false_iff, decide_eq_false_iff_not, decide_eq_false_iff_not]
      exact .inr fun heq ↦ hfid (UInt16.toNat_inj.mp (heq.symm.trans hof.2))
    rw [find?_cons_of_neg (by rw [hsame, hother]; decide), metaFind_eq, hsplit, hpairs rfl,
      find?_append, find?_cons_of_neg (by rw [hother]; decide)]

/-! ### The counter in its metadata -/

variable {md before header value rest : Bytes} {n c : ℕ}

/-- Where a counter stands. -/
structure CounterSplit (md before header value rest : Bytes) : Prop where
  context : TlvContext md ⟨tagKeyCounter, value, rest⟩ before header
  find : tlvFind tagKeyCounter md = some ⟨tagKeyCounter, value, rest⟩
  four : 4 ≤ value.length

theorem HasCounter.split (h : HasCounter md n) :
    ∃ before header value rest, CounterSplit md before header value rest := by
  obtain ⟨⟨tag, value, rest⟩, hfind, hfour, -⟩ := h.item
  have hfull : value ++ rest ≠ [] := fun hnil ↦ by
    rw [append_eq_nil_iff] at hnil
    exact absurd (hnil.1 ▸ hfour : 4 ≤ ([] : Bytes).length) (by decide)
  obtain ⟨htag, before, header, hcontext⟩ := tlvFind_context hfind (.inl hfull)
  obtain rfl : tag = tagKeyCounter := htag
  exact ⟨before, header, value, rest, hcontext, hfind, hfour⟩

namespace CounterSplit

variable (h : CounterSplit md before header value rest)

include h

theorem itemUint32_eq : itemUint32 md ⟨tagKeyCounter, value, rest⟩ = beNat (value.take 4) := by
  have hdrop : md.drop (before ++ header).length = value ++ rest := by
    conv_lhs => rw [h.context.split]
    rw [append_assoc (before ++ header), drop_left]
  rw [itemUint32, h.context.offset, hdrop, append_assoc, take_append_of_le_length h.four]

/-- The bytes of the counter are replaced. -/
theorem withCounter_eq (c : ℕ) :
    withCounter md c = before ++ header ++ (beBytes 4 c ++ value.drop 4) ++ rest := by
  have hsplit : md = (before ++ header) ++ (value.take 4 ++ (value.drop 4 ++ rest)) := by
    conv_lhs => rw [h.context.split, ← take_append_drop 4 value]
    simp only [append_assoc]
  have hfour : (value.take 4).length = 4 := by
    rw [length_take, Nat.min_eq_left h.four]
  rw [withCounter, h.find]
  dsimp only
  rw [h.context.offset, patch, length_beBytes, hsplit, take_left, ← drop_drop,
    drop_left, drop_left' hfour]
  simp only [append_assoc]

theorem length_value' (c : ℕ) : (beBytes 4 c ++ value.drop 4).length = value.length := by
  have hfour := h.four
  rw [length_append, length_beBytes, length_drop]
  omega

theorem header' (c : ℕ) : TlvHeader tagKeyCounter (beBytes 4 c ++ value.drop 4).length header := by
  rw [h.length_value']
  exact h.context.header

/-- The counter stands where it stood. -/
theorem withCounter (c : ℕ) :
    CounterSplit (withCounter md c) before header (beBytes 4 c ++ value.drop 4) rest := by
  have hcontext : TlvContext (PicoAll.withCounter md c)
      ⟨tagKeyCounter, beBytes 4 c ++ value.drop 4, rest⟩ before header :=
    ⟨h.withCounter_eq c, h.context.whole, h.header' c, h.context.first⟩
  have hfour : 4 ≤ (beBytes 4 c ++ value.drop 4).length := by
    rw [h.length_value']
    exact h.four
  refine ⟨hcontext, hcontext.find fun hnil ↦ ?_, hfour⟩
  exact absurd (hnil ▸ hfour : 4 ≤ ([] : Bytes).length) (by decide)

theorem length_withCounter (c : ℕ) : (PicoAll.withCounter md c).length = md.length := by
  rw [h.withCounter_eq]
  conv_rhs => rw [h.context.split]
  simp only [length_append, ← h.length_value' c]

end CounterSplit

namespace HasCounter

variable (h : HasCounter md n)

include h

theorem lt : n < 2 ^ 32 := by
  obtain ⟨item, -, -, rfl⟩ := h.item
  have hlt := beNat_lt ((md.drop (tlvOffset md item) ++ List.replicate 4 0).take 4)
  have hlen : ((md.drop (tlvOffset md item) ++ List.replicate 4 0).take 4).length = 4 := by
    rw [length_take, length_append, length_replicate]
    omega
  rw [hlen] at hlt
  exact hlt

/-- Another counter in the place of the counter. -/
theorem withCounter (hc : c < 2 ^ 32) : HasCounter (withCounter md c) c := by
  obtain ⟨before, header, value, rest, hsplit⟩ := h.split
  have hsplit' := hsplit.withCounter c
  refine ⟨⟨_, hsplit'.find, hsplit'.four, ?_⟩, ?_⟩
  · rw [hsplit'.itemUint32_eq, take_left' (length_beBytes 4 c), beNat_beBytes hc]
  · rw [hsplit.length_withCounter]
    exact h.fits

theorem withCounter_withCounter (c c' : ℕ) :
    PicoAll.withCounter (PicoAll.withCounter md c) c' = PicoAll.withCounter md c' := by
  obtain ⟨before, header, value, rest, hsplit⟩ := h.split
  rw [(hsplit.withCounter c).withCounter_eq, drop_left' (length_beBytes 4 c), hsplit.withCounter_eq]

theorem length_withCounter (c : ℕ) : (PicoAll.withCounter md c).length = md.length := by
  obtain ⟨before, header, value, rest, hsplit⟩ := h.split
  exact hsplit.length_withCounter c

/-- **The other tags keep their values.** -/
theorem findTag_withCounter {tag : ℕ} (htag : tag ≠ tagKeyCounter) (c : ℕ) :
    tlvFindTag tag (PicoAll.withCounter md c) = tlvFindTag tag md := by
  obtain ⟨before, header, value, rest, hsplit⟩ := h.split
  rw [hsplit.withCounter_eq]
  exact (hsplit.context.findTag_replace (hsplit.header' c) tag).trans (if_neg htag)

/-- What is stored when the counter is decremented. -/
theorem patch_eq (c : ℕ) {item : TlvItem} (hitem : tlvFind tagKeyCounter md = some item) :
    (patch md (tlvOffset md item) (beBytes 4 c)).take md.length = PicoAll.withCounter md c := by
  have heq : patch md (tlvOffset md item) (beBytes 4 c) = PicoAll.withCounter md c := by
    rw [PicoAll.withCounter, hitem]
  rw [heq]
  exact take_of_length_le (h.length_withCounter c).le

end HasCounter

/-! ### A key and its counter -/

variable {A : Outcome → Prop} {C : KeyCrypto} {id j : UInt8} {format : KeyFormat} {d d' : KeyDevice}
  {f : KeyFile} {a : Option Bytes}

theorem keyFid_inj : keyFid j = keyFid id ↔ j = id := by
  refine ⟨fun h ↦ ?_, fun h ↦ h ▸ rfl⟩
  rw [keyFid, keyFid, add_right_inj] at h
  exact UInt8.toUInt16_inj.mp h

/-- A marker is not empty. -/
theorem fileHasData_of_marker (h : isKeyMarker id a = true) : fileHasData a = true := by
  rw [isKeyMarker, decide_eq_true_eq] at h
  rw [h]
  rfl

/-- A sealed record is not a marker. -/
theorem not_isKeyMarker_seal (C : KeyCrypto) (id : UInt8) (key : Bytes) :
    isKeyMarker id (some (C.sealRecord key)) = false := by
  rw [isKeyMarker, decide_eq_false_iff_not, some_inj]
  intro h
  exact absurd (h ▸ C.sealRecord_length key) (by simp [containerMarker])

theorem fileHasData_seal (C : KeyCrypto) (key : Bytes) :
    fileHasData (some (C.sealRecord key)) = true := by
  rw [fileHasData_some]
  intro h
  exact absurd (h ▸ C.sealRecord_length key) (by simp)

theorem hsmKeySearch_eq_some (h : hsmKeySearch d j = some f) : f = .legacy j ∨ f = .object j := by
  rw [hsmKeySearch] at h
  split_ifs at h
  · exact .inr (Option.some.inj h).symm
  · exact .inl (Option.some.inj h).symm

namespace KeyHeld

variable (h : KeyHeld id md format c d)

include h

theorem of_files (hfiles : d'.files = d.files) : KeyHeld id md format c d' := by
  have hread (g : KeyFile) : d'.read g = d.read g := congrFun (congrArg WriteBack.view hfiles) g
  refine ⟨by rw [hread]; exact h.counter, h.found.of_files hfiles, ?_⟩
  have hplaced := h.placed
  cases format with
  | legacy =>
    obtain ⟨hlegacy, hobject, hprivate, hdata⟩ := hplaced
    exact ⟨hlegacy.of_files hfiles, hobject.of_files hfiles, hprivate.of_files hfiles,
      hdata.imp (·.of_files hfiles) (·.of_files hfiles)⟩
  | container => exact ⟨hplaced.1, hplaced.2.of_files hfiles⟩

/-- The format is read off the marker. -/
theorem isKeyMarker_eq : isKeyMarker id (d.read (.object id)) = (format = .container : Bool) := by
  have hplaced := h.placed
  cases format with
  | legacy => exact hplaced.2.1.read
  | container => exact hplaced.2.read

theorem keyMetadataFile_eq : keyMetadataFile d id = format.metadataFile id := by
  rw [keyMetadataFile, h.isKeyMarker_eq]
  cases format <;> rfl

variable (hmd : HasCounter md n)

include hmd

theorem metadataFind_eq : hsmKeyMetadataFind d id = some (withCounter md c) := by
  have hcounter := h.counter
  rw [hsmKeyMetadataFind, h.isKeyMarker_eq]
  cases format with
  | legacy =>
    obtain ⟨content, hread, hfind⟩ := hcounter
    rw [KeyFormat.metadataFile] at hread
    rw [if_neg (by decide), hread]
    exact hfind
  | container =>
    rw [KeyFormat.HasMetadata, KeyFormat.metadataFile] at hcounter
    obtain ⟨item, -, hfour, -⟩ := hmd.item
    obtain ⟨before, header, value, rest, hsplit⟩ := hmd.split
    have hpos : 0 < md.length := by
      rw [hsplit.context.split]
      have := hsplit.four
      simp only [length_append]
      omega
    rw [if_pos (by decide), hcounter, filter_some_pos]
    rw [hmd.length_withCounter]
    exact decide_eq_true ⟨hpos, hmd.fits⟩

theorem keyCounterItem_eq (hc : c < 2 ^ 32) : ∃ item, keyCounterItem d id = some (withCounter md c, item) ∧
    tlvFind tagKeyCounter (withCounter md c) = some item ∧ itemUint32 (withCounter md c) item = c := by
  obtain ⟨item, hfind, -, hitem⟩ := (hmd.withCounter hc).item
  refine ⟨item, ?_, hfind, hitem⟩
  rw [keyCounterItem, h.metadataFind_eq hmd]
  show (tlvFind tagKeyCounter (withCounter md c)).bind _ = _
  rw [hfind]
  rfl

theorem getKeyCounter_eq (hc : c < 2 ^ 32) : getKeyCounter d id = c := by
  obtain ⟨item, hitem, -, hvalue⟩ := h.keyCounterItem_eq hmd hc
  rw [getKeyCounter, hitem]
  exact hvalue

end KeyHeld

/-! ### Writes -/

/-- A write that leaves a key and its counter what they are. -/
structure HarmlessWrite (id : UInt8) (md : Bytes) (format : KeyFormat) (c : ℕ) (f : KeyFile)
    (a : Option Bytes) : Prop where
  metadata : f = format.metadataFile id → format.HasMetadata id (withCounter md c) a
  legacy : format = .legacy → f = .legacy id ∨ f = .object id →
    isKeyMarker id a = false ∧ fileHasData a = true
  object : format = .container → f ≠ .object id
  privateKey : format = .legacy → f ≠ .privateKey id

namespace KeyHeld

variable (h : KeyHeld id md format c d)

include h

theorem attempted (f : KeyFile) : KeyHeld id md format c (d.attempted f) :=
  h.of_files rfl

/-- A write that moves the counter to `c'`. -/
theorem written_counter {c' : ℕ} (hc' : c' < 2 ^ 32) (hw : HarmlessWrite id md format c' f a)
    (hf : f ≠ format.metadataFile id → c' = c) : KeyHeld id md format c' (d.written f a) := by
  refine ⟨?_, h.found.written fun hfile ↦ ⟨c', hc', hw.metadata hfile.symm⟩, ?_⟩
  · rcases eq_or_ne (format.metadataFile id) f with hfile | hfile
    · rw [hfile, Device.read_written_self]
      exact hw.metadata hfile.symm
    · rw [Device.read_written_of_ne hfile, hf hfile.symm]
      exact h.counter
  · have hplaced := h.placed
    cases format with
    | legacy =>
      obtain ⟨hlegacy, hobject, hprivate, hdata⟩ := hplaced
      refine ⟨hlegacy.written fun hfile ↦ (hw.legacy rfl (.inl hfile.symm)).1,
        hobject.written fun hfile ↦ (hw.legacy rfl (.inr hfile.symm)).1,
        hprivate.written fun hfile ↦ absurd hfile.symm (hw.privateKey rfl), hdata.imp ?_ ?_⟩
      · exact fun hdata ↦ hdata.written fun hfile ↦ (hw.legacy rfl (.inl hfile.symm)).2
      · exact fun hdata ↦ hdata.written fun hfile ↦ (hw.legacy rfl (.inr hfile.symm)).2
    | container =>
      exact ⟨hplaced.1, hplaced.2.written fun hfile ↦ absurd hfile.symm (hw.object rfl)⟩

theorem written (hc : c < 2 ^ 32) (hw : HarmlessWrite id md format c f a) :
    KeyHeld id md format c (d.written f a) :=
  h.written_counter hc hw fun _ ↦ rfl

theorem synced (f : KeyFile) : KeyHeld id md format c (d.synced f) := by
  refine ⟨h.counter, h.found.synced f, ?_⟩
  have hplaced := h.placed
  cases format with
  | legacy =>
    obtain ⟨hlegacy, hobject, hprivate, hdata⟩ := hplaced
    exact ⟨hlegacy.synced f, hobject.synced f, hprivate.synced f,
      hdata.imp (·.synced f) (·.synced f)⟩
  | container => exact ⟨hplaced.1, hplaced.2.synced f⟩

end KeyHeld

namespace HarmlessWrite

theorem of_ne (hmetadata : f ≠ format.metadataFile id) (hlegacy : f ≠ .legacy id)
    (hobject : f ≠ .object id) (hprivate : f ≠ .privateKey id) :
    HarmlessWrite id md format c f a where
  metadata h := absurd h hmetadata
  legacy _ h := absurd h (not_or.mpr ⟨hlegacy, hobject⟩)
  object _ := hobject
  privateKey _ := hprivate

/-- A record in the place of a key. -/
theorem sealRecord {key : Bytes} (hf : f = .legacy j ∨ f = .object j)
    (hobject : format = .container → f ≠ .object id) :
    HarmlessWrite id md format c f (some (C.sealRecord key)) where
  metadata h := by rcases hf with rfl | rfl <;> cases format <;> cases h
  legacy _ _ := ⟨not_isKeyMarker_seal C id key, fileHasData_seal C key⟩
  object := hobject
  privateKey _ h := by rcases hf with rfl | rfl <;> cases h

end HarmlessWrite

/-! ### What is done before the counter is decremented -/

/-- A key, its counter and what the decrement depends on are what they were in `d₀`. -/
structure KeyCalm (id : UInt8) (md : Bytes) (format : KeyFormat) (c : ℕ) (d₀ d : KeyDevice) :
    Prop where
  held : KeyHeld id md format c d
  lt : c < 2 ^ 32
  outcome : d.outcome (format.metadataFile id) = d₀.outcome (format.metadataFile id)
  user : d.ram.isUserAuthenticated = d₀.ram.isUserAuthenticated
  session : d.ram.hasSession = d₀.ram.hasSession

theorem ne_metadataFile (hmeta : f ≠ .fileMeta) (hmetadata : f ≠ .metadata id) :
    f ≠ format.metadataFile id := by
  cases format
  · exact hmeta
  · exact hmetadata

theorem ne_metadataFile_of_key (hf : f = .legacy j ∨ f = .object j) :
    f ≠ format.metadataFile id := by
  rcases hf with rfl | rfl <;> exact ne_metadataFile (by simp) (by simp)

/-- If the key is in the container of file `f`, the container may be updated. -/
def ContainerOpen (id : UInt8) (format : KeyFormat) (f : KeyFile) (d : KeyDevice) : Prop :=
  f = .object id → format = .container → d.ram.isUserAuthenticated = true ∧ d.ram.hasSession = true

/-- What the commands do with a key keeps it calm. -/
abbrev KeepsCalm (id : UInt8) (md : Bytes) (format : KeyFormat) (c : ℕ) (d₀ : KeyDevice)
    {α : Type} (m : KeyProg α) : Prop :=
  Keeps (KeyCalm id md format c d₀) (fun _ ↦ True) m

namespace KeyCalm

variable {d₀ : KeyDevice} {err : UInt16} {key data : Bytes} {g : KeyRam → KeyRam}

theorem of_ram (h : KeyCalm id md format c d₀ d)
    (huser : ∀ ram, (g ram).isUserAuthenticated = ram.isUserAuthenticated)
    (hsession : ∀ ram, (g ram).hasSession = ram.hasSession) :
    KeyCalm id md format c d₀ (d.setRam g) :=
  ⟨h.held.of_files rfl, h.lt, h.outcome, (huser _).trans h.user, (hsession _).trans h.session⟩

theorem attempted (h : KeyCalm id md format c d₀ d) (hf : f ≠ format.metadataFile id) :
    KeyCalm id md format c d₀ (d.attempted f) :=
  ⟨h.held.attempted f, h.lt, (Device.outcome_attempted_of_ne hf.symm).trans h.outcome, h.user,
    h.session⟩

theorem keeps_put (hw : HarmlessWrite id md format c f a) (hf : f ≠ format.metadataFile id) :
    KeepsCalm id md format c d₀ (put err f a) :=
  .put (fun _ h ↦ h.attempted hf) fun _ h ↦ ⟨h.held.written h.lt hw, h.lt,
    (Device.outcome_written_of_ne hf.symm).trans h.outcome, h.user, h.session⟩

theorem keeps_sync (hf : f ≠ format.metadataFile id) :
    KeepsCalm id md format c d₀ (sync err f) := by
  intro A d h
  have hattempted := h.attempted hf
  have hsynced : KeyCalm id md format c d₀ (d.synced f) :=
    ⟨h.held.synced f, h.lt, hattempted.outcome, h.user, h.session⟩
  exact wp_sync (fun _ ↦ ⟨hsynced, trivial⟩) (fun _ ↦ hattempted) (fun _ ↦ hsynced)
    fun _ ↦ hattempted

theorem keeps_containerPut (hw : HarmlessWrite id md format c f (some data))
    (hf : f ≠ format.metadataFile id) : KeepsCalm id md format c d₀ (containerPut f data) :=
  .get fun _ ↦ .ite (fun _ ↦ .bind (keeps_put hw hf) fun _ _ ↦ keeps_sync hf) fun _ ↦ .fail _

theorem keeps_mkekStoreFile (hw : HarmlessWrite id md format c f (some (C.sealRecord key)))
    (hf : f ≠ format.metadataFile id) : KeepsCalm id md format c d₀ (mkekStoreFile C f key) :=
  .get fun _ ↦ .ite (fun _ ↦ keeps_put hw hf) fun _ ↦ .fail _

theorem keeps_mkekLoadFile (hw : ∀ key, HarmlessWrite id md format c f (some (C.sealRecord key)))
    (hf : f ≠ format.metadataFile id) : KeepsCalm id md format c d₀ (mkekLoadFile C f) := by
  refine .get fun d ↦ ?_
  rcases d.read f with - | record
  · exact .fail _
  · dsimp only
    rcases (if d.ram.hasSession then C.openRecord record else none) with - | key
    · exact .fail _
    · exact .bind (.ite (fun _ ↦ .pure trivial) fun _ ↦ keeps_mkekStoreFile (hw key) hf)
        fun _ _ ↦ .pure trivial

/-- A marker is not written over when a key is loaded, and a key in a container is not loaded without
a session. -/
theorem keeps_mkekLoadKeyFile (hf : f = .legacy j ∨ f = .object j) :
    Keeps (KeyCalm id md format c d₀) (fun _ ↦ ContainerOpen id format f d₀)
      (mkekLoadKeyFile C j f) := by
  intro A d h
  refine wp_get ?_
  refine wp_ite (fun _ ↦ ?_) fun hmarker ↦ wp_refuse h fun _ ↦ ?_
  · by_cases hauth : (d.ram.isUserAuthenticated && d.ram.hasSession) = true
    · rw [if_pos hauth]
      rcases d.read (.privateKey j) with - | key
      · exact wp_fail h
      · rw [and_eq_true, h.user, h.session] at hauth
        exact wp_pure ⟨h, fun _ _ ↦ hauth⟩
    · rw [if_neg hauth]
      exact wp_fail h
  · have hother : format = .container → f ≠ .object id := by
      rintro rfl rfl
      obtain rfl : j = id := by rcases hf with hf | hf <;> cases hf; rfl
      exact hmarker h.held.isKeyMarker_eq
    exact wp_mono (keeps_mkekLoadFile (fun key ↦ .sealRecord hf hother) (ne_metadataFile_of_key hf) A d h)
      (fun _ _ h ↦ ⟨h.1, fun hobject hformat ↦ absurd hobject (hother hformat)⟩) fun _ _ h ↦ h

theorem keeps_requireSw {w : UInt16} {b : Bool} : KeepsCalm id md format c d₀ (requireSw w b) :=
  .ite (fun _ ↦ .pure trivial) fun _ ↦ .fail _

theorem keeps_modifyRam (huser : ∀ ram, (g ram).isUserAuthenticated = ram.isUserAuthenticated)
    (hsession : ∀ ram, (g ram).hasSession = ram.hasSession) :
    KeepsCalm id md format c d₀ (modifyState (·.setRam g)) :=
  fun _ _ h ↦ wp_modifyState ⟨h.of_ram huser hsession, trivial⟩

theorem keeps_liftExcept {α : Type} {x : Except UInt16 α} :
    KeepsCalm id md format c d₀ (FaultProgram.liftExcept x) :=
  .liftExcept fun _ _ ↦ trivial

/-- A key in a file is stored there again. -/
theorem existing_legacy (h : KeyHeld id md .legacy c d)
    (hboth : ¬(fileHasData (d.read (.legacy id)) && fileHasData (d.read (.object id))) = true) :
    isKeyMarker id ((hsmKeySearch d id).bind d.read) = false ∧
      fileHasData ((hsmKeySearch d id).bind d.read) = true ∧ d.read (.privateKey id) = none := by
  obtain ⟨hlegacy, hobject, hprivate, hdata⟩ := h.placed
  replace hdata : fileHasData (d.read (.legacy id)) = true ∨ fileHasData (d.read (.object id)) = true :=
    hdata.imp (·.read) (·.read)
  refine ⟨?_, ?_, hprivate.read⟩
  · rcases hsearch : hsmKeySearch d id with - | f
    · rfl
    · rcases hsmKeySearch_eq_some hsearch with rfl | rfl
      · exact hlegacy.read
      · exact hobject.read
  · rw [hsmKeySearch, if_neg hboth]
    by_cases hobjectData : fileHasData (d.read (.object id)) = true
    · rw [if_pos hobjectData]
      exact hobjectData
    · have hlegacyData := hdata.resolve_right hobjectData
      obtain ⟨content, hread, -⟩ := fileHasData_eq_true.mp hlegacyData
      rw [if_neg hobjectData, if_pos (by rw [hread]; rfl)]
      exact hlegacyData

/-- A key in a container is stored there again. -/
theorem existing_container (h : KeyHeld id md .container c d)
    (hboth : ¬(fileHasData (d.read (.legacy id)) && fileHasData (d.read (.object id))) = true) :
    id ≠ 0 ∧ isKeyMarker id ((hsmKeySearch d id).bind d.read) = true := by
  obtain ⟨hid, hmarker⟩ := h.placed
  refine ⟨hid, ?_⟩
  rw [hsmKeySearch, if_neg hboth, if_pos (fileHasData_of_marker hmarker.read)]
  exact hmarker.read

/-- **Storing a derived key**, also in the place of a key with a counter. -/
theorem keeps_hsmStoreKeys (key : Bytes) (dest : UInt8) :
    KeepsCalm id md format c d₀ (hsmStoreKeys C key dest) := by
  intro A d h
  refine wp_get (wp_refuse h fun hboth ↦ ?_)
  refine wp_ite (fun hcontainer ↦ ?_) fun hcontainer ↦ ?_
  · have hprivate : format = .legacy → KeyFile.privateKey dest ≠ .privateKey id := by
      rintro rfl heq
      obtain rfl := KeyFile.privateKey.inj heq
      obtain ⟨hmarker, hdata, hnone⟩ := existing_legacy h.held hboth
      rw [hmarker, hdata, hnone] at hcontainer
      exact absurd hcontainer.2 (by decide)
    have hother : KeyFile.privateKey dest ≠ format.metadataFile id :=
      ne_metadataFile (by simp) (by simp)
    have hwrite : HarmlessWrite id md format c (.privateKey dest) (some key) :=
      ⟨fun heq ↦ absurd heq hother, by simp, by simp, hprivate⟩
    refine wp_then (keeps_containerPut hwrite hother A d h) fun _ d₁ h₁ ↦ ?_
    refine wp_return ⟨h₁.1, trivial⟩ fun hmarker ↦ ?_
    have hdest : dest ≠ id := by
      rintro rfl
      cases format with
      | legacy => exact hprivate rfl rfl
      | container => exact hmarker h.held.isKeyMarker_eq
    have hother : KeyFile.object dest ≠ format.metadataFile id := ne_metadataFile (by simp) (by simp)
    exact keeps_containerPut (.of_ne hother (by simp) (by simpa using hdest) (by simp)) hother A d₁ h₁.1
  · rcases hopen : hsmKeyOpenOrCreate d dest with - | f
    · exact wp_fail h
    have hf : f = .legacy dest ∨ f = .object dest := by
      rw [hsmKeyOpenOrCreate] at hopen
      split_ifs at hopen <;> grind
    have hobject : format = .container → f ≠ .object id := by
      rintro rfl rfl
      obtain rfl : dest = id := by rcases hf with hf | hf <;> cases hf; rfl
      obtain ⟨hid, hmarker⟩ := existing_container h.held hboth
      exact hcontainer ⟨hid, .inl hmarker⟩
    have hother : KeyFile.prkd dest ≠ format.metadataFile id := ne_metadataFile (by simp) (by simp)
    exact (Keeps.bind (keeps_mkekStoreFile (.sealRecord hf hobject) (ne_metadataFile_of_key hf))
      fun _ _ ↦ keeps_put (.of_ne hother (by simp) (by simp) (by simp)) hother) A d h

section Responses

variable (hf : f = .legacy j ∨ f = .object j)

include hf

variable {touched : Bool}

theorem keeps_signatureResponse {p2 : UInt8} (hhd : p2 = algoHd → ContainerOpen id format f d₀) :
    Keeps (KeyCalm id md format c d₀) (fun _ ↦ ContainerOpen id format f d₀)
      (signatureResponse C j f p2 data touched) := by
  refine .ite (fun _ ↦ .bind keeps_requireSw fun _ _ ↦ .bind (keeps_mkekLoadKeyFile hf) fun _ hopen ↦
    .weaken keeps_liftExcept fun _ _ ↦ hopen) fun _ ↦ .ite (fun hp2 ↦ ?_) fun _ ↦ .fail _
  exact .get fun _ ↦ .bind keeps_liftExcept fun _ _ ↦
    .bind (keeps_modifyRam (fun _ ↦ rfl) fun _ ↦ rfl) fun _ _ ↦ .pure (hhd hp2)

theorem keeps_decryptResponse {p2 : UInt8} :
    Keeps (KeyCalm id md format c d₀) (fun _ ↦ ContainerOpen id format f d₀)
      (decryptResponse C j f p2 data touched) := by
  refine .ite (fun _ ↦ .bind keeps_requireSw fun _ _ ↦ .bind (keeps_mkekLoadKeyFile hf) fun _ hopen ↦
    .weaken keeps_liftExcept fun _ _ ↦ hopen) fun _ ↦ .ite (fun _ ↦ ?_) fun _ ↦ .fail _
  refine .bind keeps_requireSw fun _ _ ↦ .bind (keeps_mkekLoadKeyFile hf) fun _ hopen ↦
    .bind keeps_liftExcept fun agreed _ ↦ .get fun d ↦ ?_
  rcases findXkek d agreed.1 with - | n
  · exact .fail _
  · have hother : KeyFile.dkek n ≠ format.metadataFile id := ne_metadataFile (by simp) (by simp)
    exact .bind (keeps_mkekStoreFile (.of_ne hother (by simp) (by simp) (by simp)) hother)
      fun _ _ ↦ .pure hopen

theorem keeps_deriveResponse {dest : UInt8} :
    Keeps (KeyCalm id md format c d₀) (fun _ ↦ ContainerOpen id format f d₀)
      (deriveResponse C j f dest data touched) :=
  .bind keeps_requireSw fun _ _ ↦ .bind keeps_requireSw fun _ _ ↦ .bind keeps_requireSw fun _ _ ↦
    .bind (keeps_mkekLoadKeyFile hf) fun _ hopen ↦ .bind keeps_liftExcept fun derived _ ↦
    .bind (keeps_hsmStoreKeys derived dest) fun _ _ ↦ .pure hopen

theorem keeps_cipherResponse {algo : UInt8} :
    Keeps (KeyCalm id md format c d₀) (fun _ ↦ ContainerOpen id format f d₀)
      (cipherResponse C j f algo data) :=
  .bind (keeps_mkekLoadKeyFile hf) fun _ hopen ↦ .bind keeps_requireSw fun _ _ ↦
    .bind keeps_requireSw fun _ _ ↦ .weaken keeps_liftExcept fun _ _ ↦ hopen

end Responses

end KeyCalm

/-! ### The decrement -/

section Decrement

variable (h : KeyHeld id md format c d) (hc : c < 2 ^ 32)

include h hc

/-- What is written when another key is used. -/
theorem KeyHeld.keeps_decrement_ne (hj : j ≠ id) :
    wp A (decrementKeyCounter j) (fun _ d' ↦ KeyHeld id md format c d')
      (fun _ d' ↦ KeyHeld id md format c d') d := by
  have hput {f : KeyFile} {a : Option Bytes} {err : UInt16} (hw : HarmlessWrite id md format c f a) :
      wp A (put err f a) (fun _ d' ↦ KeyHeld id md format c d')
        (fun _ d' ↦ KeyHeld id md format c d') d :=
    wp_put (fun _ ↦ h.written hc hw) (fun _ ↦ h.attempted f) (fun _ ↦ h.written hc hw)
      fun _ ↦ h.attempted f
  refine wp_get ?_
  rcases hitem : keyCounterItem d j with - | ⟨metadata, item⟩
  · exact wp_pure h
  refine wp_onError (wp_bind (wp_mono (Q := fun _ d' ↦ KeyHeld id md format c d')
    (E := fun _ d' ↦ KeyHeld id md format c d') ?_ (fun _ _ h' ↦ wp_pure h') fun e d' h' ↦ ?_))
  · refine wp_ite (fun _ ↦ wp_get (wp_ite (fun _ ↦ ?_) fun _ ↦ wp_fail h)) fun hmarker ↦ wp_get ?_
    · have hother : KeyFile.metadata j ≠ format.metadataFile id :=
        ne_metadataFile (by simp) (by simpa using hj)
      refine wp_then (hput (.of_ne hother (by simp) (by simp) (by simp))) fun _ d₁ h₁ ↦ ?_
      exact wp_sync (fun _ ↦ h₁.synced _) (fun _ ↦ h₁.attempted _) (fun _ ↦ h₁.synced _)
        fun _ ↦ h₁.attempted _
    · rcases hread : d.read .fileMeta with - | content
      · exact wp_fail h
      refine wp_refuse h fun _ ↦ hput ⟨fun hfile ↦ ?_, by simp, by simp, by simp⟩
      cases format with
      | container => cases hfile
      | legacy =>
        -- the item of this key stays what it is
        obtain ⟨content', hcontent', hfind'⟩ := h.counter
        obtain rfl := Option.some.inj (hread.symm.trans hcontent')
        have hfind : metaFind content (keyFid j) = some metadata := by
          rw [keyCounterItem, hsmKeyMetadataFind, if_neg hmarker, hread] at hitem
          obtain ⟨metadata', hmetadata', hitem⟩ := bind_eq_some_iff.mp hitem
          obtain ⟨item', -, hitem⟩ := bind_eq_some_iff.mp hitem
          obtain ⟨rfl, -⟩ := Prod.mk.inj (Option.some.inj hitem)
          exact hmetadata'
        refine ⟨_, rfl, ?_⟩
        rw [metaFind_metaAddContent hfind, if_neg fun heq ↦ hj (keyFid_inj.mp heq).symm]
        · exact hfind'
        · have hoff : tlvOffset metadata item ≤ metadata.length := by rw [tlvOffset]; omega
          rw [length_take, patch]
          simp only [length_append, length_take, length_drop, length_beBytes]
          omega
  · rcases e with r | -
    · exact wp_pure h'
    · exact h'

/-- **The decrement**, when the write is not refused. -/
theorem KeyHeld.wp_decrement (hmd : HasCounter md n) (hpos : c ≠ 0)
    (hout : d.outcome (format.metadataFile id) ≠ .fail)
    (hauth : format = .container → d.ram.isUserAuthenticated = true ∧ d.ram.hasSession = true) :
    wp A (decrementKeyCounter id) (fun _ d' ↦ KeyHeld id md format (c - 1) d')
      (fun e d' ↦ e = .cut ∧ (KeyHeld id md format c d' ∨ KeyHeld id md format (c - 1) d')) d := by
  have hlt : c - 1 < 2 ^ 32 := by omega
  obtain ⟨item, hitem, hfind, hvalue⟩ := h.keyCounterItem_eq hmd hc
  have hval : (c + (2 ^ 32 - 1)) % 2 ^ 32 = c - 1 := by omega
  refine wp_get ?_
  rw [hitem]
  dsimp only
  rw [hvalue, hval, (hmd.withCounter hc).patch_eq (c - 1) hfind, hmd.withCounter_withCounter]
  -- the one write there is takes effect, or the power is lost in it
  have hput {a : Option Bytes} {err : UInt16}
      (hw : HarmlessWrite id md format (c - 1) (format.metadataFile id) a) :
      wp A (put err (format.metadataFile id) a) (fun _ d' ↦ KeyHeld id md format (c - 1) d')
        (fun e d' ↦ KeyHeld id md format (c - 1) d' ∨ e = .cut ∧ KeyHeld id md format c d') d := by
    have hwritten := h.written_counter hlt hw fun hne ↦ absurd rfl hne
    exact wp_put (fun _ ↦ hwritten) (fun hfail ↦ absurd hfail hout) (fun _ ↦ .inl hwritten)
      fun _ ↦ .inr ⟨rfl, h.attempted _⟩
  refine wp_onError (wp_bind (wp_mono (Q := fun _ d' ↦ KeyHeld id md format (c - 1) d')
    (E := fun e d' ↦ KeyHeld id md format (c - 1) d' ∨ e = .cut ∧ KeyHeld id md format c d') ?_
    (fun _ _ h' ↦ wp_pure h') fun e d' h' ↦ ?_))
  · rw [h.isKeyMarker_eq]
    cases format with
    | legacy =>
      obtain ⟨content, hread, hcontent⟩ := h.counter
      rw [KeyFormat.metadataFile] at hread
      refine wp_ite (fun hfalse ↦ nomatch hfalse) fun _ ↦ wp_get ?_
      rw [hread]
      have hlen : (withCounter md (c - 1)).length = (withCounter md c).length := by
        rw [hmd.length_withCounter, hmd.length_withCounter]
      refine wp_ite (fun hlong ↦ ?_) fun _ ↦
        hput ⟨fun _ ↦ ⟨_, rfl, ?_⟩, by simp [KeyFormat.metadataFile], by simp,
        by simp [KeyFormat.metadataFile]⟩
      · rw [hmd.length_withCounter] at hlong
        exact absurd hmd.fits (by omega)
      · rw [metaFind_metaAddContent hcontent hlen, if_pos rfl]
    | container =>
      obtain ⟨huser, hsession⟩ := hauth rfl
      refine wp_ite (fun _ ↦ wp_get ?_) fun hfalse ↦ absurd (by decide) hfalse
      rw [huser, hsession, if_pos (by decide)]
      refine wp_then (hput ⟨fun _ ↦ rfl, by simp, by simp [KeyFormat.metadataFile], by simp⟩)
        fun _ d₁ h₁ ↦ ?_
      exact wp_sync (fun _ ↦ h₁.synced _) (fun _ ↦ .inl (h₁.attempted _))
        (fun _ ↦ .inl (h₁.synced _)) fun _ ↦ .inl (h₁.attempted _)
  · rcases e with r | -
    · exact wp_pure (h'.resolve_right fun hcut ↦ by simp at hcut)
    · exact ⟨rfl, h'.symm.imp_left (·.2)⟩

end Decrement

/-! ### Commands -/

section Commands

variable {data : Bytes} {touched withData : Bool} {purpose : UInt8} {m : KeyFile → KeyProg Bytes}

/-- What the commands that use a key have in common. -/
def useKey (d : KeyDevice) (id purpose : UInt8) (withData : Bool) (m : KeyFile → KeyProg Bytes) :
    KeyProg Bytes := do
  let f ← FaultProgram.liftExcept (usableKey d id purpose withData)
  counted id (m f)

theorem usableKey_eq_ok (h : usableKey d j purpose withData = .ok f) :
    hsmKeySearch d j = some f ∧ getKeyCounter d j ≠ 0 := by
  rw [usableKey] at h
  rcases hsearch : hsmKeySearch d j with - | g
  · rw [hsearch] at h
    cases h
  · rw [hsearch] at h
    dsimp only at h
    split_ifs at h with hdata hcounter hpurpose
    exact ⟨congrArg some (Except.ok.inj h), hcounter⟩

/-- **A use of the key.** -/
theorem KeyHeld.wp_useKey (h : KeyHeld id md format c d) (hc : c < 2 ^ 32) (hmd : HasCounter md n)
    (hout : d.outcome (format.metadataFile id) ≠ .fail)
    (hm : ∀ f, f = .legacy id ∨ f = .object id → Keeps (KeyCalm id md format c d)
      (fun _ ↦ ContainerOpen id format f d) (m f)) :
    wp A (useKey d id purpose withData m) (fun _ d' ↦ c ≠ 0 ∧ KeyHeld id md format (c - 1) d')
      (fun e d' ↦ KeyHeld id md format c d' ∨ e = .cut ∧ KeyHeld id md format (c - 1) d') d := by
  refine wp_lift (fun f hf ↦ ?_) fun _ _ ↦ .inl h
  obtain ⟨hsearch, hpos⟩ := usableKey_eq_ok hf
  rw [h.getKeyCounter_eq hmd hc] at hpos
  have hobject : format = .container → f = .object id := by
    rintro rfl
    have hdata := fileHasData_of_marker h.placed.2.read
    rw [hsmKeySearch, hdata, if_pos rfl, Bool.and_true] at hsearch
    split_ifs at hsearch
    exact (Option.some.inj hsearch).symm
  refine wp_seq (hm f (hsmKeySearch_eq_some hsearch) A d ⟨h, hc, rfl, rfl, rfl⟩)
    (fun _ d₁ h₁ ↦ ?_) fun _ _ h₁ ↦ .inl h₁.held
  obtain ⟨hcalm, hopen⟩ := h₁
  refine wp_seq (hcalm.held.wp_decrement hcalm.lt hmd hpos (hcalm.outcome ▸ hout)
    fun hformat ↦ ?_) (fun _ _ h₂ ↦ wp_pure ⟨hpos, h₂⟩) fun e d₂ h₂ ↦ ?_
  · rw [hcalm.user, hcalm.session]
    exact hopen (hobject hformat) hformat
  · obtain ⟨rfl, hheld | hheld⟩ := h₂
    · exact .inl hheld
    · exact .inr ⟨rfl, hheld⟩

/-- A use of another key. -/
theorem KeyHeld.wp_useKey_ne (h : KeyHeld id md format c d) (hc : c < 2 ^ 32) (hj : j ≠ id)
    (hm : ∀ f, f = .legacy j ∨ f = .object j → Keeps (KeyCalm id md format c d)
      (fun _ ↦ ContainerOpen id format f d) (m f)) :
    wp A (useKey d j purpose withData m) (fun _ d' ↦ KeyHeld id md format c d')
      (fun _ d' ↦ KeyHeld id md format c d') d := by
  refine wp_lift (fun f hf ↦ ?_) fun _ _ ↦ h
  refine wp_seq (hm f (hsmKeySearch_eq_some (usableKey_eq_ok hf).1) A d
    ⟨h, hc, rfl, rfl, rfl⟩) (fun _ d₁ h₁ ↦ ?_) fun _ _ h₁ ↦ h₁.held
  exact wp_then (h₁.1.held.keeps_decrement_ne h₁.1.lt hj) fun _ _ h₂ ↦ wp_pure h₂

theorem wp_requireSw {w : UInt16} {b : Bool} {Q : Unit → KeyDevice → Prop}
    {E : Exit UInt16 → KeyDevice → Prop} (htrue : b = true → Q () d) (hfalse : E (.code w) d) :
    wp A (requireSw w b) Q E d :=
  wp_ite (fun hb ↦ wp_pure (htrue hb)) fun _ ↦ wp_fail hfalse

variable {command : KeyCommand}

/-- **A command that uses the key**: its counter is decremented if there is a result, and, if the
power is lost, maybe. -/
theorem KeyHeld.wp_run (h : KeyHeld id md format c d) (hc : c < 2 ^ 32) (hmd : HasCounter md n)
    (htarget : command.target d.ram.hdKeytype = some id)
    (hout : d.outcome (format.metadataFile id) ≠ .fail)
    (hhd : command.usesHd = true → format = .container → d.ram.hasSession = true) :
    wp A (command.run C) (fun _ d' ↦ c ≠ 0 ∧ KeyHeld id md format (c - 1) d')
      (fun e d' ↦ KeyHeld id md format c d' ∨ e = .cut ∧ KeyHeld id md format (c - 1) d') d := by
  cases command with
  | session => cases htarget
  | signature j p2 data touched =>
    obtain rfl := Option.some.inj htarget
    refine wp_get (wp_bind (wp_requireSw (fun huser ↦ ?_) (.inl h)))
    refine h.wp_useKey hc hmd hout fun f hf ↦ KeyCalm.keeps_signatureResponse hf ?_
    exact fun hp2 _ hformat ↦ ⟨huser, hhd (decide_eq_true hp2) hformat⟩
  | decryptAsym j p2 data touched =>
    obtain rfl := Option.some.inj htarget
    refine wp_get (wp_bind (wp_requireSw (fun _ ↦ ?_) (.inl h)))
    exact h.wp_useKey hc hmd hout fun f hf ↦ KeyCalm.keeps_decryptResponse hf
  | deriveAsym j dest data touched =>
    obtain rfl := Option.some.inj htarget
    refine wp_get (wp_bind (wp_requireSw (fun _ ↦ ?_) (.inl h)))
    exact h.wp_useKey hc hmd hout fun f hf ↦ KeyCalm.keeps_deriveResponse hf
  | cipherSym j algo data touched =>
    obtain ⟨hzero, htarget⟩ := ite_none_right_eq_some.mp htarget
    obtain rfl := Option.some.inj htarget
    refine wp_get (wp_bind (wp_requireSw (fun _ ↦ wp_bind (wp_requireSw (fun _ ↦
      wp_ite (fun _ ↦ ?_) fun hne ↦ absurd hzero hne) (.inl h))) (.inl h)))
    exact h.wp_useKey hc hmd hout fun f hf ↦ KeyCalm.keeps_cipherResponse hf

/-- A command that does not use the key. -/
theorem KeyHeld.wp_run_ne (h : KeyHeld id md format c d) (hc : c < 2 ^ 32)
    (htarget : command.target d.ram.hdKeytype ≠ some id) :
    wp A (command.run C) (fun _ d' ↦ KeyHeld id md format c d')
      (fun _ d' ↦ KeyHeld id md format c d') d := by
  have hobject {j : UInt8} {f : KeyFile} (hj : j ≠ id) (hf : f = .legacy j ∨ f = .object j) :
      f ≠ .object id := by
    rcases hf with rfl | rfl <;> simp [hj]
  cases command with
  | session => exact wp_bind (wp_modifyState (wp_pure (h.of_files rfl)))
  | signature j p2 data touched =>
    have hj : j ≠ id := fun heq ↦ htarget (congrArg some heq)
    refine wp_get (wp_bind (wp_requireSw (fun _ ↦ ?_) h))
    exact h.wp_useKey_ne hc hj fun f hf ↦ KeyCalm.keeps_signatureResponse hf
      fun _ heq ↦ absurd heq (hobject hj hf)
  | decryptAsym j p2 data touched =>
    have hj : j ≠ id := fun heq ↦ htarget (congrArg some heq)
    refine wp_get (wp_bind (wp_requireSw (fun _ ↦ ?_) h))
    exact h.wp_useKey_ne hc hj fun f hf ↦ KeyCalm.keeps_decryptResponse hf
  | deriveAsym j dest data touched =>
    have hj : j ≠ id := fun heq ↦ htarget (congrArg some heq)
    refine wp_get (wp_bind (wp_requireSw (fun _ ↦ ?_) h))
    exact h.wp_useKey_ne hc hj fun f hf ↦ KeyCalm.keeps_deriveResponse hf
  | cipherSym j algo data touched =>
    refine wp_get (wp_bind (wp_requireSw (fun _ ↦ wp_bind (wp_requireSw (fun _ ↦
      wp_ite (fun hzero ↦ ?_) fun _ ↦ ?_) h)) h))
    · have hj : j ≠ id := fun heq ↦ htarget ((if_pos hzero).trans (congrArg some heq))
      exact h.wp_useKey_ne hc hj fun f hf ↦ KeyCalm.keeps_cipherResponse hf
    · exact wp_lift (fun _ _ ↦ wp_bind (wp_modifyState (wp_pure (h.of_files rfl)))) fun _ _ ↦ h

end Commands

/-! ### Runs -/

/-- What is found after a loss of power. -/
theorem KeyHeld.powerCut {ram : KeyRam} {keep : KeyFile → ℕ} (h : KeyHeld id md format c d) :
    ∃ c' < 2 ^ 32, KeyHeld id md format c' ⟨d.files.powerCut keep, d.faults, ram⟩ := by
  obtain ⟨c', hc', hfound⟩ := h.found.powerCut keep
  have hsynced {f : KeyFile} {P : Option Bytes → Prop} (h : d.Always f P) :
      Device.Always (⟨d.files.powerCut keep, d.faults, ram⟩ : KeyDevice) f P :=
    .of_synced (h.powerCut keep) rfl
  refine ⟨c', hc', hfound, hsynced h.found, ?_⟩
  have hplaced := h.placed
  cases format with
  | legacy =>
    obtain ⟨hlegacy, hobject, hprivate, hdata⟩ := hplaced
    exact ⟨hsynced hlegacy, hsynced hobject, hsynced hprivate, hdata.imp hsynced hsynced⟩
  | container => exact ⟨hplaced.1, hsynced hplaced.2⟩

theorem KeyHeld.flush {g : KeyFile} (h : KeyHeld id md format c d) :
    KeyHeld id md format c { d with files := d.files.flush g } := by
  have hflush {f : KeyFile} {P : Option Bytes → Prop} (h : d.Always f P) :
      Device.Always ({ d with files := d.files.flush g } : KeyDevice) f P :=
    h.flush rfl rfl
  refine ⟨h.counter, hflush h.found, ?_⟩
  have hplaced := h.placed
  cases format with
  | legacy =>
    obtain ⟨hlegacy, hobject, hprivate, hdata⟩ := hplaced
    exact ⟨hflush hlegacy, hflush hobject, hflush hprivate, hdata.imp hflush hflush⟩
  | container => exact ⟨hplaced.1, hflush hplaced.2⟩

/-- **One event.** -/
theorem KeyHeld.step {event : KeyEvent} {left : ℕ} (h : KeyHeld id md format c d) (hc : c < 2 ^ 32)
    (hmd : HasCounter md n) (hle : c ≤ left) (hcare : KeyCareful id d event) :
    ∃ c' < 2 ^ 32, KeyHeld id md format c' ((keyMachine C).step d event).2 ∧
      c' + keyResult C id d event ≤ left := by
  cases event with
  | flush g =>
    refine ⟨c, hc, ?_, hle⟩
    rw [Machine.step]
    split_ifs
    · exact h
    · exact h.flush
  | reboot keep =>
    obtain ⟨c', hc', h'⟩ : ∃ c' < 2 ^ 32, KeyHeld id md format c'
        ⟨d.files.powerCut keep, d.faults, (keyMachine C).restart d.ram⟩ := h.powerCut
    have hcounter : getKeyCounter { d with files := d.files.powerCut keep } id ≤ getKeyCounter d id :=
      hcare
    have hview : KeyHeld id md format c' { d with files := d.files.powerCut keep } := h'.of_files rfl
    rw [hview.getKeyCounter_eq hmd hc', h.getKeyCounter_eq hmd hc] at hcounter
    exact ⟨c', hc', h', hcounter.trans hle⟩
  | command command faults =>
    have hfaults : KeyHeld id md format c { d with faults := faults } := h.of_files rfl
    by_cases htarget : command.target d.ram.hdKeytype = some id
    · obtain ⟨hout, hhd⟩ := hcare htarget
      rw [h.keyMetadataFile_eq] at hout
      rw [h.isKeyMarker_eq] at hhd
      show ∃ c' < 2 ^ 32, _ ∧ c' + (if command.target d.ram.hdKeytype = some id then
        resultCount ((keyMachine C).step d (.command command faults)).1 else 0) ≤ left
      rw [if_pos htarget]
      refine Machine.step_command (M := keyMachine C) (P := fun reply d' ↦ ∃ c' < 2 ^ 32,
        KeyHeld id md format c' d' ∧ c' + resultCount reply ≤ left)
        (fun _ ↦ ⟨c, hc, h, hle⟩) (fun _ ↦ hfaults.wp_run hc hmd htarget hout
          fun husesHd hformat ↦ hhd husesHd (decide_eq_true hformat)) ?_ ?_ ?_
      · rintro b d' ⟨hpos, hd'⟩
        exact ⟨c - 1, by omega, hd', show c - 1 + 1 ≤ left by omega⟩
      · intro r d' hd'
        exact ⟨c, hc, hd'.resolve_right fun hcut ↦ by simp at hcut, hle⟩
      · rintro d' (hd' | ⟨-, hd'⟩)
        · exact ⟨c, hc, hd'.of_files rfl, hle⟩
        · exact ⟨c - 1, by omega, hd'.of_files rfl, show c - 1 + 0 ≤ left by omega⟩
    · show ∃ c' < 2 ^ 32, _ ∧ c' + (if command.target d.ram.hdKeytype = some id then
        resultCount ((keyMachine C).step d (.command command faults)).1 else 0) ≤ left
      rw [if_neg htarget]
      refine ⟨c, hc, ?_, hle⟩
      exact Machine.step_command (M := keyMachine C) (P := fun _ d' ↦ KeyHeld id md format c d')
        (fun _ ↦ h) (fun _ ↦ hfaults.wp_run_ne hc htarget) (fun _ _ h ↦ h) (fun _ _ h ↦ h)
        fun _ h ↦ h.of_files rfl

/-- **A run.** -/
theorem KeyHeld.run (events : List KeyEvent) {left : ℕ} (h : KeyHeld id md format c d)
    (hc : c < 2 ^ 32) (hmd : HasCounter md n) (hle : c ≤ left)
    (hcare : CarefulKeyRun C id d events) :
    keyResults C id d events ≤ left ∧
      CounterKept id md (left - keyResults C id d events) ((keyMachine C).run d events) := by
  induction events generalizing c d left with
  | nil =>
    refine ⟨Nat.zero_le _, c, hle, h.metadataFind_eq hmd, hmd.withCounter hc, fun tag htag ↦ ?_⟩
    exact hmd.findTag_withCounter htag c
  | cons event events ih =>
    obtain ⟨hevent, hevents⟩ := hcare
    obtain ⟨c', hc', hd', hle'⟩ := h.step (C := C) hc hmd hle hevent
    obtain ⟨hresults, hkept⟩ := ih hd' hc' (le_tsub_of_add_le_right hle') hevents
    rw [keyResults]
    refine ⟨by omega, ?_⟩
    rwa [← Nat.sub_sub]

/-- **A usage counter bounds the results** of every careful run, the four bytes that are read and
written are its own, and the other metadata is kept. -/
theorem key_counter_bounds (d₀ : KeyDevice) (events : List KeyEvent) (hmd : HasCounter md n)
    (hstart : KeyHeld id md format n d₀) (hcare : CarefulKeyRun C id d₀ events) :
    keyResults C id d₀ events ≤ n ∧
      CounterKept id md (n - keyResults C id d₀ events) ((keyMachine C).run d₀ events) :=
  hstart.run events hmd.lt hmd le_rfl hcare

/-! Runs on a key in a file -/

/-- A cryptography that hides nothing. -/
def openKeyCrypto : KeyCrypto where
  openRecord := some
  isAead _ := true
  sealRecord key := key ++ List.replicate 9 0
  prkd _ key := key
  sign _ _ data := .ok data
  signHd _ data := .ok data
  decrypt _ _ data := .ok data
  exchange _ data := .ok (data, data)
  derive key _ := .ok key
  cipher _ _ data := .ok data
  cipherHd _ _ data := .ok (data, 0)
  sealRecord_length key := by simp

/-- A device with a key and its metadata. -/
def keyDevice (metadata : Bytes) : KeyDevice where
  files :=
    { view f := match f with
        | .legacy 1 => some [1]
        | .fileMeta => some (metaEntry 1 (keyFid 1) metadata)
        | _ => none
      stale _ := [] }
  faults _ := []
  ram := ⟨false, false, 0, false⟩

/-- A PIN is presented. -/
def keyLogin : KeyEvent :=
  .command (.session true true 0) fun _ ↦ []

/-- A signature, with something done to the first write of the metadata. -/
def keySignature (o : Outcome) : KeyEvent :=
  .command (.signature 1 0x70 [7] true) fun _ ↦ [o]

/-- Two signatures, between which the power is lost. -/
theorem key_counter_bounds_two :
    keyResults openKeyCrypto 1 (keyDevice [0x90, 4, 0, 0, 0, 2])
        [keyLogin, keySignature .ok, .flush .fileMeta, .reboot fun _ ↦ 1, keyLogin,
          keySignature .late, keySignature .ok] ≤ 2 :=
  (key_counter_bounds (keyDevice [0x90, 4, 0, 0, 0, 2])
    [keyLogin, keySignature .ok, .flush .fileMeta, .reboot fun _ ↦ 1, keyLogin, keySignature .late,
      keySignature .ok]
    ⟨⟨⟨0x90, [0, 0, 0, 2], []⟩, by decide +kernel⟩, by decide⟩
    (show KeyHeld 1 [0x90, 4, 0, 0, 0, 2] .legacy 2 _ from
      ⟨⟨_, rfl, by decide +kernel⟩, .of_synced ⟨2, by decide, _, rfl, by decide +kernel⟩ rfl,
      .of_synced (by decide +kernel) rfl, .of_synced (by decide +kernel) rfl,
      .of_synced (by decide +kernel) rfl, .inl (.of_synced (by decide +kernel) rfl)⟩)
    ⟨fun h ↦ absurd h (by decide), fun _ ↦ ⟨by decide +kernel, fun h ↦ nomatch h⟩, trivial,
      show getKeyCounter _ _ ≤ _ by decide +kernel, fun h ↦ absurd h (by decide),
      fun _ ↦ ⟨by decide +kernel, fun h ↦ nomatch h⟩,
      fun _ ↦ ⟨by decide +kernel, fun h ↦ nomatch h⟩, trivial⟩).1

/-- A counter of one does not stop a second signature when the decrement is refused, or when it is
lost with the power; and a counter of one byte has the algorithms of the key overwritten, or is read
and written beyond the metadata. -/
theorem key_counter_outlived :
    keyResults openKeyCrypto 1 (keyDevice [0x90, 4, 0, 0, 0, 1])
        [keyLogin, keySignature .fail, keySignature .fail] = 2 ∧
      keyResults openKeyCrypto 1 (keyDevice [0x90, 4, 0, 0, 0, 1])
        [keyLogin, keySignature .ok, .reboot fun _ ↦ 1, keyLogin, keySignature .ok] = 2 ∧
      (hsmKeyMetadataFind ((keyMachine openKeyCrypto).run (keyDevice [0x90, 1, 5, 0x91, 1, 0x70])
        [keyLogin, keySignature .ok]) 1).bind (tlvFindTag tagKeyPurpose) = some [0x6f] ∧
      (tlvFind tagKeyCounter [0x90, 1, 5]).map (tlvOffset [0x90, 1, 5] · + 4) = some 6 := by
  decide +kernel

end PicoAll
