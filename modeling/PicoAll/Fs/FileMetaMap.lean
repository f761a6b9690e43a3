import PicoAll.Fs.FileMeta
import PicoAll.Lib.ListMap

/-!
# File metadata is a map

What the metadata file is for: it maps file ids to data. `MetaEntry` is an item that the walker
reads back as it was written, and the file is at a map (`MetaFileIs`) if it is a concatenation of
such items, one for each file id of the map. The calls keep this, whatever becomes of the writes
they make (`meta_file_is_map`), where `MetaAddKeeps` holds of every `meta_add`:

* the low five bits of the file id are not all set, so that the tag made from it is of one byte;
* an item that is written for the first time, or in the place of one of another length, is not
  longer than the 16 bits that its length is computed in;
* the length takes the same number of bytes as that of the item replaced.

The other additions lose the entry (`meta_add_loses_entry`).
-/

namespace PicoAll

open BigEndian FaultProgram ListMap List

/-- An item that is read back as it was written. -/
structure MetaEntry where
  tag : UInt8
  /-- The file id. -/
  fid : UInt16
  /-- The metadata. -/
  data : Bytes
  /-- The tag is of one byte. -/
  tag_short : tag &&& 0x1f ≠ 0x1f
  /-- The length is a 16-bit number. -/
  data_fits : data.length + 2 ≤ UINT16_MAX

open MetaEntry

variable (e : MetaEntry)

/-- The value of the item. -/
def MetaEntry.value : Bytes :=
  beBytes 2 e.fid.toNat ++ e.data

/-- The item in the file. -/
def MetaEntry.encode : Bytes :=
  encodeTlv e.tag e.value

@[simp]
theorem MetaEntry.length_value : e.value.length = e.data.length + 2 := by
  simp [value, Nat.add_comm]

theorem MetaEntry.encode_eq : e.encode = metaEntry e.tag e.fid e.data := by
  rw [encode, encodeTlv, metaEntry, e.length_value, value]

theorem MetaEntry.length_encode :
    e.encode.length = 1 + (tlvFormatLen (e.data.length + 2)).length + (e.data.length + 2) := by
  simp [encode, encodeTlv]
  omega

theorem MetaEntry.tlvWalk_encode (rest : Bytes) :
    tlvWalk (e.encode ++ rest) = some ⟨e.tag.toNat, e.value, rest⟩ :=
  tlvWalk_encodeTlv e.tag_short (e.length_value.trans_le e.data_fits) rest

/-! ### Searching the items -/

/-- The search looks at the items one by one. -/
theorem metaItem_encode (rest : Bytes) (fid : UInt16) :
    metaItem (e.encode ++ rest) fid =
      if e.fid = fid then some ⟨e.tag.toNat, e.value, rest⟩ else metaItem rest fid := by
  have htake : beNat (e.value.take 2) = e.fid.toNat := by
    rw [value, take_left' (length_beBytes 2 _)]
    exact beNat_beBytes e.fid.toNat_lt
  rw [metaItem, tlvItems_of_walk (e.tlvWalk_encode rest), find?_cons]
  simp only [htake, length_value, Nat.le_add_left, decide_true, Bool.true_and]
  split_ifs with h
  · simp [h]
  · have hne : e.fid.toNat ≠ fid.toNat := fun heq ↦ h (UInt16.toNat_inj.mp heq)
    simp [hne, metaItem]

/-- The item of an entry that is the only one with its file id. -/
theorem metaItem_flatMap {pre post : List MetaEntry} {e : MetaEntry}
    (h : ∀ e' ∈ pre, e'.fid ≠ e.fid) :
    metaItem ((pre ++ e :: post).flatMap encode) e.fid =
      some ⟨e.tag.toNat, e.value, post.flatMap encode⟩ := by
  induction pre with
  | nil => rw [nil_append, flatMap_cons, metaItem_encode, if_pos rfl]
  | cons e' pre ih =>
    rw [cons_append, flatMap_cons, metaItem_encode, if_neg (h e' (mem_cons_self ..))]
    exact ih fun e'' he'' ↦ h e'' (mem_cons_of_mem _ he'')

theorem metaItem_flatMap_none {es : List MetaEntry} {fid : UInt16} (h : ∀ e ∈ es, e.fid ≠ fid) :
    metaItem (es.flatMap encode) fid = none := by
  induction es with
  | nil => rfl
  | cons e es ih =>
    rw [flatMap_cons, metaItem_encode, if_neg (h e (mem_cons_self ..))]
    exact ih fun e' he' ↦ h e' (mem_cons_of_mem _ he')

/-- The walker traverses a concatenation of items completely. -/
theorem tlvEnd_flatMap (es : List MetaEntry) : tlvEnd (es.flatMap encode) = [] := by
  induction es with
  | nil => rfl
  | cons e es ih =>
    rw [flatMap_cons, tlvEnd_of_walk (e.tlvWalk_encode _)]
    exact ih

/-- The search finds what the map says. -/
theorem metaFind_flatMap {m : UInt16 → Option Bytes} {es : List MetaEntry}
    (h : Represents fid data m es) (fid : UInt16) : metaFind (es.flatMap encode) fid = m fid := by
  rcases hm : m fid with - | data
  · rw [metaFind, metaItem_flatMap_none (h.key_ne hm)]
    rfl
  · obtain ⟨pre, e, post, rfl, rfl, rfl, hpre⟩ := h.split hm
    rw [metaFind, metaItem_flatMap hpre]
    show some (e.value.drop 2) = some e.data
    rw [value, drop_left' (length_beBytes 2 _)]

/-! ### Editing the items

In what follows the content is that of some entries, `e` is one of them and `item` its item. -/

def MetaEntry.item (post : List MetaEntry) : TlvItem :=
  ⟨e.tag.toNat, e.value, post.flatMap encode⟩

section Edit

variable (pre post : List MetaEntry) (e : MetaEntry)

theorem flatMap_encode_split : (pre ++ e :: post).flatMap encode =
    pre.flatMap encode ++ (e.encode ++ post.flatMap encode) := by
  simp

/-- `meta_delete` leaves the other items. -/
theorem metaWithout_flatMap :
    metaWithout ((pre ++ e :: post).flatMap encode) (e.item post) =
      (pre ++ post).flatMap encode := by
  have hlen := e.length_encode
  have htpos : ((pre ++ e :: post).flatMap encode).length -
      (post.flatMap encode).length - e.value.length -
        (tlvFormatLen e.value.length).length - 1 = (pre.flatMap encode).length := by
    rw [flatMap_encode_split]
    simp only [length_append, length_value]
    omega
  rw [metaWithout]
  dsimp only [item]
  rw [htpos, flatMap_encode_split, take_left, flatMap_append]

/-- An addition of the same length overwrites the data. -/
theorem metaAddContent_same {data : Bytes} (h : data.length = e.data.length)
    (hitem : metaItem ((pre ++ e :: post).flatMap encode) e.fid = some (e.item post)) :
    metaAddContent ((pre ++ e :: post).flatMap encode) e.fid data =
      (pre ++ { e with data, data_fits := h ▸ e.data_fits } :: post).flatMap encode := by
  let head := e.tag :: tlvFormatLen (e.data.length + 2) ++ beBytes 2 e.fid.toNat
  have hvalue : e.value.length - 2 = data.length := by
    rw [e.length_value, h, Nat.add_sub_cancel]
  have hcontent (d : Bytes) : pre.flatMap encode ++ (metaEntry e.tag e.fid d ++
      post.flatMap encode) = pre.flatMap encode ++
        (e.tag :: tlvFormatLen (d.length + 2) ++ beBytes 2 e.fid.toNat) ++
          (d ++ post.flatMap encode) := by
    simp [metaEntry]
  have hsplit : (pre ++ e :: post).flatMap encode =
      pre.flatMap encode ++ head ++ (e.data ++ post.flatMap encode) := by
    rw [flatMap_encode_split, e.encode_eq, hcontent]
  have htpos : ((pre ++ e :: post).flatMap encode).length -
      (post.flatMap encode).length - e.value.length + 2 =
        (pre.flatMap encode ++ head).length := by
    rw [hsplit]
    simp only [head, length_append, length_value, length_cons, length_beBytes]
    omega
  rw [metaAddContent, hitem]
  dsimp only [item]
  rw [if_pos hvalue, htpos, hsplit, take_left, flatMap_encode_split, encode_eq, hcontent]
  simp only [head, h, append_assoc]

/-- An addition of another length, whose length field has the same size, moves the item to the
end. -/
theorem metaAddContent_realloc {data : Bytes} (h : data.length ≠ e.data.length)
    (hold : e.data.length ≤ 65529)
    (hsize : (tlvFormatLen (e.data.length + 2)).length = (tlvFormatLen (data.length + 2)).length)
    (hitem : metaItem ((pre ++ e :: post).flatMap encode) e.fid = some (e.item post)) :
    metaAddContent ((pre ++ e :: post).flatMap encode) e.fid data =
      (pre ++ post).flatMap encode ++ metaEntry e.fid.toUInt8 e.fid data := by
  let before := pre.flatMap encode
  let behind := post.flatMap encode
  let content := (pre ++ e :: post).flatMap encode
  have hvalue : ¬ e.value.length - 2 = data.length := by
    exact h.symm
  have hfmt : (tlvFormatLen (e.data.length + 2)).length ≤ 3 := by
    rw [length_tlvFormatLen e.data_fits]
    split_ifs <;> simp
  have hcontent : content = before ++ (e.encode ++ behind) := flatMap_encode_split pre post e
  have hlen := congrArg List.length hcontent
  simp only [length_append, e.length_encode] at hlen
  have hlenTag : tlvLenTag e.tag.toNat e.value.length =
      1 + (tlvFormatLen (e.data.length + 2)).length + (e.data.length + 2) := by
    have htag := e.tag.toNat_lt
    rw [tlvLenTag, e.length_value, if_neg (by omega)]
    omega
  have htpos : content.length - behind.length - tlvLenTag e.tag.toNat e.value.length =
      before.length := by
    omega
  have hentry : (metaEntry e.fid.toUInt8 e.fid data).length =
      1 + (tlvFormatLen (data.length + 2)).length + (data.length + 2) := by
    simp [metaEntry]
    omega
  -- the size accounts for the item, as its length field takes as many bytes as before
  have hefSize : content.length + data.length - (e.value.length - 2) =
      (before ++ behind ++ metaEntry e.fid.toUInt8 e.fid data).length := by
    rw [e.length_value, length_append, length_append, hentry]
    omega
  have hmoved : content.take before.length = before := by
    rw [hcontent, take_left]
  rw [metaAddContent, hitem]
  dsimp only
  rw [if_neg (by exact hvalue), metaRealloc]
  dsimp only [item]
  rw [htpos, hmoved, hefSize, ← length_append, append_assoc (before ++ behind),
    take_left, take_left, flatMap_append]

end Edit

/-- An addition of a new file id appends. -/
theorem metaAddContent_append {content : Bytes} {fid : UInt16} {data : Bytes}
    (hitem : metaItem content fid = none) (hlen : data.length ≤ 65529) :
    metaAddContent content fid data = content ++ metaEntry (fid.toUInt8 &&& 0x1f) fid data := by
  have htag : fid.toNat &&& 0x1f ≤ 0x1f := Nat.and_le_right
  have hfmt : (tlvFormatLen (data.length + 2)).length ≤ 3 := by
    rw [length_tlvFormatLen (by omega)]
    split_ifs <;> simp
  have hlenTag : tlvLenTag (fid.toNat &&& 0x1f) (data.length + 2) =
      (metaEntry (fid.toUInt8 &&& 0x1f) fid data).length := by
    rw [tlvLenTag, if_neg (by omega)]
    simp only [metaEntry, length_append, length_cons, length_beBytes]
    omega
  rw [metaAddContent, hitem]
  rw [hlenTag, ← length_append, take_length]

/-! ### Runs -/

/-- The metadata of the files. -/
abbrev MetaMap := UInt16 → Option Bytes

/-- The content is that of entries, one for each file id of the map. -/
def MetaFileIs (m : MetaMap) (content : Bytes) : Prop :=
  ∃ es, content = es.flatMap encode ∧ Represents fid data m es

/-- The additions that `meta_add` gets right. -/
def MetaAddKeeps (m : MetaMap) (fid : UInt16) (data : Bytes) : Prop :=
  fid.toUInt8 &&& 0x1f ≠ 0x1f ∧
    match m fid with
    | none => data.length ≤ 65529
    | some old => data.length = old.length ∨ (old.length ≤ 65529 ∧ data.length ≤ 65533 ∧
        (tlvFormatLen (old.length + 2)).length = (tlvFormatLen (data.length + 2)).length)

instance (m : MetaMap) (fid : UInt16) (data : Bytes) : Decidable (MetaAddKeeps m fid data) :=
  match h : m fid with
  | none => decidable_of_iff (fid.toUInt8 &&& 0x1f ≠ 0x1f ∧ data.length ≤ 65529)
      (by simp [MetaAddKeeps, h])
  | some old => decidable_of_iff (fid.toUInt8 &&& 0x1f ≠ 0x1f ∧ (data.length = old.length ∨
      (old.length ≤ 65529 ∧ data.length ≤ 65533 ∧
        (tlvFormatLen (old.length + 2)).length = (tlvFormatLen (data.length + 2)).length)))
      (by simp [MetaAddKeeps, h])

variable {ρ : Type} {m : MetaMap} {s : FsState ρ} {content : Bytes} {fid : UInt16} {data : Bytes}

theorem MetaFileIs.nil : MetaFileIs (fun _ ↦ none) [] :=
  ⟨[], rfl, .nil⟩

/-- An addition is the update of the map. -/
theorem MetaFileIs.add (h : MetaFileIs m content) (hkeeps : MetaAddKeeps m fid data) :
    MetaFileIs (Function.update m fid (some data)) (metaAddContent content fid data) := by
  obtain ⟨es, rfl, hes⟩ := h
  obtain ⟨htag, hlen⟩ := hkeeps
  rcases hm : m fid with - | old <;> simp only [hm] at hlen
  · -- a new file id
    have hshort : fid.toUInt8 &&& 0x1f &&& 0x1f ≠ 0x1f := by
      rwa [UInt8.and_assoc, show (0x1f : UInt8) &&& 0x1f = 0x1f from rfl]
    have hfits : data.length + 2 ≤ 0xffff := by omega
    let e : MetaEntry := ⟨fid.toUInt8 &&& 0x1f, fid, data, hshort, hfits⟩
    rw [metaAddContent_append (metaItem_flatMap_none (hes.key_ne hm)) hlen]
    refine ⟨es ++ [e], ?_, ?_⟩
    · rw [flatMap_append, flatMap_singleton, e.encode_eq]
    · exact Represents.insert (e := e) ((append_nil es).symm ▸ hes) hm
  · obtain ⟨pre, e, post, rfl, rfl, rfl, hpre⟩ := hes.split hm
    have hitem : metaItem ((pre ++ e :: post).flatMap encode) e.fid =
        some (e.item post) := metaItem_flatMap hpre
    rcases eq_or_ne data.length e.data.length with hsame | hother
    · rw [metaAddContent_same pre post e hsame hitem]
      let e' : MetaEntry := { e with data, data_fits := hsame ▸ e.data_fits }
      exact ⟨pre ++ e' :: post, rfl, hes.replace e' rfl rfl⟩
    · obtain ⟨hold, hnew, hsize⟩ := hlen.resolve_left hother
      have hfits : data.length + 2 ≤ 0xffff := by omega
      let e' : MetaEntry := ⟨e.fid.toUInt8, e.fid, data, htag, hfits⟩
      rw [metaAddContent_realloc pre post e hother hold hsize hitem]
      refine ⟨pre ++ post ++ [e'], ?_, ?_⟩
      · rw [@List.flatMap_append _ _ (pre ++ post) [e'], flatMap_singleton, e'.encode_eq]
      · exact hes.replace e' rfl (append_nil _).symm

/-- Whatever becomes of its write, `meta_add` leaves the old content or the new one, and it does not
report success unless it leaves the new one. -/
theorem wp_metaAdd (hs : s.files efMeta = some content) :
    wp (fun _ ↦ True) (metaAdd fid data)
      (fun _ s' ↦ s' = s.setFile efMeta (some (metaAddContent content fid data)))
      (fun _ s' ↦ s' = s ∨ s' = s.setFile efMeta (some (metaAddContent content fid data))) s := by
  refine wp_refuse (.inl rfl) fun _ ↦ wp_bind (wp_fileSearch ?_)
  rw [hs]
  exact wp_onError (wp_filePutData rfl (fun _ ↦ wp_fail (.inl rfl)) (fun _ ↦ wp_fail (.inr rfl))
    fun _ ↦ .inl rfl)

/-- The same of `meta_delete`, of which the new content is that of the map without the file id. -/
theorem wp_metaDelete (hs : s.files efMeta = some content) (h : MetaFileIs m content) :
    ∃ content', MetaFileIs (Function.update m fid none) content' ∧
      wp (fun _ ↦ True) (metaDelete fid) (fun _ s' ↦ s' = s.setFile efMeta (some content'))
        (fun _ s' ↦ s' = s ∨ s' = s.setFile efMeta (some content')) s := by
  obtain ⟨es, rfl, hes⟩ := h
  rcases hm : m fid with - | data
  · refine ⟨_, ⟨es, rfl, ?_⟩, ?_⟩
    · rwa [← hm, Function.update_eq_self]
    · rw [metaDelete]
      refine wp_bind (wp_fileSearch ?_)
      rw [hs]
      dsimp only
      rw [metaItem_flatMap_none (hes.key_ne hm)]
      refine wp_pure ?_
      rw [← hs, FsState.setFile_get]
  · obtain ⟨pre, e, post, rfl, rfl, rfl, hpre⟩ := hes.split hm
    have hitem : metaItem ((pre ++ e :: post).flatMap encode) e.fid =
        some (e.item post) := metaItem_flatMap hpre
    refine ⟨_, ⟨pre ++ post, rfl, hes.erase⟩, ?_⟩
    refine wp_bind (wp_fileSearch ?_)
    rw [hs]
    dsimp only
    rw [hitem]
    dsimp only
    rw [metaWithout_flatMap]
    refine wp_ite (fun hzero ↦ ?_) fun _ ↦ wp_onError (wp_filePutData rfl
      (fun _ ↦ wp_fail (.inl rfl)) (fun _ ↦ wp_fail (.inr rfl)) fun _ ↦ .inl rfl)
    -- the only item: the file is cleared
    have hnil : (pre ++ post).flatMap encode = [] := by
      refine eq_nil_of_length_eq_zero ?_
      have hlen := e.length_encode
      rw [flatMap_encode_split, show (e.item post).value = e.value from rfl, e.length_value] at hzero
      rw [flatMap_append]
      simp only [length_append] at hzero ⊢
      omega
    rw [hnil]
    exact wp_perform rfl (fun _ ↦ .inl rfl) (fun _ ↦ .inr rfl) fun _ ↦ .inl rfl

/-- The call has taken effect: it reports success, or the files are not what they were. -/
def TookEffect (call : FsProg ρ Unit) (s : FsState ρ) (os : List Outcome) : Prop :=
  call.result s os = .ok () ∨ (call.final s os).files ≠ s.files

/-- The runs from an empty metadata file in which every `meta_add` is one that it gets right, with
what the calls have made of the map. The writes may fail; a call that does not take effect leaves
the files as they were, and nobody else writes the metadata file. -/
inductive MetaRun : MetaMap → FsState ρ → Prop
  | empty {s : FsState ρ} (h : s.files efMeta = some []) : MetaRun (fun _ ↦ none) s
  | add {m : MetaMap} {s : FsState ρ} (h : MetaRun m s) (fid : UInt16) (data : Bytes)
      (hkeeps : MetaAddKeeps m fid data) (os : List Outcome)
      (heffect : TookEffect (metaAdd fid data) s os) :
      MetaRun (Function.update m fid (some data)) ((metaAdd fid data).final s os)
  | delete {m : MetaMap} {s : FsState ρ} (h : MetaRun m s) (fid : UInt16) (os : List Outcome)
      (heffect : TookEffect (metaDelete fid) s os) :
      MetaRun (Function.update m fid none) ((metaDelete fid).final s os)
  | other {m : MetaMap} {s s' : FsState ρ} (h : MetaRun m s)
      (hsame : s'.files efMeta = s.files efMeta) : MetaRun m s'

/-- What a call that took effect leaves. -/
theorem TookEffect.files_eq {call : FsProg ρ Unit} {os : List Outcome} {content' : Bytes}
    (heffect : TookEffect call s os)
    (h : wp (fun _ ↦ True) call (fun _ s' ↦ s' = s.setFile efMeta (some content'))
      (fun _ s' ↦ s' = s ∨ s' = s.setFile efMeta (some content')) s) :
    (call.final s os).files efMeta = some content' := by
  have hset : (s.setFile efMeta (some content')).files efMeta = some content' := by simp
  have hall : ∀ o ∈ os, True := fun _ _ ↦ trivial
  rcases run_of_wp h hall with ⟨-, -, heq⟩ | ⟨r, hr, heq | heq⟩
  · rw [heq, hset]
  · exfalso
    rcases heffect with hok | hne
    · rw [hr] at hok
      cases hok
    · exact hne (congrArg FsState.files heq)
  · rw [heq, hset]

theorem MetaRun.fileIs (h : MetaRun m s) :
    ∃ content, s.files efMeta = some content ∧ MetaFileIs m content := by
  induction h with
  | empty h => exact ⟨[], h, .nil⟩
  | add h fid data hkeeps os heffect ih =>
    obtain ⟨content, hs, his⟩ := ih
    exact ⟨_, heffect.files_eq (wp_metaAdd hs), his.add hkeeps⟩
  | delete h fid os heffect ih =>
    obtain ⟨content, hs, his⟩ := ih
    obtain ⟨content', his', hwp⟩ : ∃ content', MetaFileIs (Function.update _ fid none) content' ∧ _ :=
      wp_metaDelete hs his
    exact ⟨content', heffect.files_eq hwp, his'⟩
  | other h hsame ih => rwa [hsame]

/-- **File metadata is a map.** In every run whose additions are such that `meta_add` gets them
right, `meta_find` finds what was last added for a file id and not deleted since, and nothing for
the others; the file is a concatenation of items, and the walker traverses it completely. -/
theorem meta_file_is_map (h : MetaRun m s) :
    ∃ content, s.files efMeta = some content ∧ (∀ fid, metaFind content fid = m fid) ∧
      (∃ es : List MetaEntry, content = es.flatMap MetaEntry.encode) ∧ tlvEnd content = [] := by
  obtain ⟨content, hs, es, rfl, hes⟩ := h.fileIs
  exact ⟨_, hs, metaFind_flatMap hes, ⟨es, rfl⟩, tlvEnd_flatMap es⟩

/-- An empty metadata file. -/
def metaToyState : FsState Unit :=
  ⟨fun fid ↦ if fid = efMeta then some [] else none, ()⟩

/-- The state after some additions, whose writes succeed. -/
def metaToyAfter (adds : List (UInt16 × Bytes)) : FsState Unit :=
  adds.foldl (fun s add ↦ (metaAdd add.1 add.2).final s []) metaToyState

/-- Additions that go wrong: of a file id whose low five bits are all set, such as that of the HSM
key 31; of data whose length takes more bytes than that of the old data; and of data whose length
takes fewer, which leaves a byte behind that the next entry is lost to. -/
theorem meta_add_loses_entry :
    ((metaAdd 0xcc1f [1, 2, 3]).result metaToyState [] = .ok () ∧
      ∃ content, (metaToyAfter [(0xcc1f, [1, 2, 3])]).files efMeta = some content ∧
        metaFind content 0xcc1f = none) ∧
      (∃ content, (metaToyAfter [(1, List.replicate 100 7), (1, List.replicate 200 8)]).files efMeta =
        some content ∧ metaFind content 1 = none) ∧
      ∃ content, (metaToyAfter [(1, List.replicate 200 8), (1, List.replicate 100 7),
        (2, [9])]).files efMeta = some content ∧ metaFind content 2 = none := by
  refine ⟨⟨by decide +kernel, ?_⟩, ?_, ?_⟩
  · exact ⟨[0x1f, 5, 0xcc, 0x1f, 1, 2, 3], by decide +kernel, by decide +kernel⟩
  · exact ⟨[1, 0x81, 202, 0, 1] ++ List.replicate 199 8, by decide +kernel, by decide +kernel⟩
  · exact ⟨[1, 102, 0, 1] ++ List.replicate 100 7 ++ [8, 2, 3, 0, 2, 9], by decide +kernel,
      by decide +kernel⟩

/-- What the additions below make of the map. -/
def metaToyMap : MetaMap :=
  Function.update (Function.update (Function.update (fun _ ↦ none) 1 (some [5])) 1 (some [6, 7]))
    0x21 (some [8])

theorem metaToyRun : MetaRun metaToyMap (metaToyAfter [(1, [5]), (1, [6, 7]), (0x21, [8])]) := by
  have hempty : MetaRun (fun _ ↦ none) metaToyState := .empty rfl
  have hfirst := hempty.add 1 [5] (by decide +kernel) [] (.inl (by decide +kernel))
  have hsecond := hfirst.add 1 [6, 7] (by decide +kernel) [] (.inl (by decide +kernel))
  exact hsecond.add 0x21 [8] (by decide +kernel) [] (.inl (by decide +kernel))

/-- An addition, one of another length for the same file id, and one for a file id with the same
low bits. -/
theorem meta_file_is_map_three :
    ∃ content, (metaToyAfter [(1, [5]), (1, [6, 7]), (0x21, [8])]).files efMeta = some content ∧
      (∀ fid, metaFind content fid = metaToyMap fid) ∧
      (∃ es : List MetaEntry, content = es.flatMap MetaEntry.encode) ∧ tlvEnd content = [] :=
  meta_file_is_map metaToyRun

end PicoAll
