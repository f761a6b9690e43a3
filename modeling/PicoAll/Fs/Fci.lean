import PicoAll.Lib.BerTlv

/-!
# The template of a selected file

`file_process_fci` describes a file by nested tagged values. The outer lengths are patched when the
rest is there, each into one byte, which is the length of a value only below 128; metadata that do
not fit in a byte are left out; and a function that gives the size of the data may write something
of its own between a length and its value. `file_process_fci_law` says when the template is right.
-/

namespace PicoAll

open BigEndian List

/-! ### Files -/

/-- What the table of files says of one: `file_entry_t`. -/
structure FciEntry where
  type : UInt8
  efStructure : UInt8
  /-- The array that `name` points to. -/
  name : Option Bytes

/-- What `data` stands for: stored data, or a function. -/
structure FciData where
  /-- `file_get_size`. -/
  size : UInt32
  /-- What the function puts behind the response when it is asked for the size. -/
  written : Bytes
  /-- What the function returns. -/
  value : ℤ
  fits : written.length ≤ 2048

/-- A file, with its metadata. -/
structure FciFile where
  fid : UInt16
  /-- `file_static_entry`. -/
  entry : Option FciEntry
  data : Option FciData
  /-- `meta_find`. -/
  metadata : Bytes
  /-- The array of the name holds it. -/
  holds : ∀ table ∈ entry, ∀ name ∈ table.name,
    (if fid = 0x0000 then 1 else 2) + min (name.headD 0).toNat 16 ≤ name.length

namespace FciFile

variable (file : FciFile)

/-- `file_get_type`: `FILE_TYPE_WORKING_EF` for a file that is not in the table. -/
def type : UInt8 :=
  match file.entry with
  | some entry => entry.type
  | none => 0x01

/-- The structure: `FILE_EF_TRANSPARENT` for a file that is not in the table. -/
def efStructure : UInt8 :=
  match file.entry with
  | some entry => entry.efStructure
  | none => 0x01

def nameArray : Option Bytes :=
  file.entry.bind (·.name)

/-- Is the type one with `FILE_DATA_FUNC`? -/
def isFunction : Bool :=
  file.type &&& 0x80 = 0x80

/-- The part of the name that is in the template. -/
def nameOf (name : Bytes) : Bytes :=
  (name.drop (if file.fid = 0x0000 then 1 else 2)).take (min (name.headD 0).toNat 16)

/-- The byte under `0x82`. -/
def descriptor : UInt8 :=
  if file.type &&& 0x02 ≠ 0 then 0x08
  else if file.type &&& 0x01 ≠ 0 then file.efStructure &&& 0x7
  else if file.type &&& 0x04 ≠ 0 then 0x38
  else 0

/-- The size, with what a function has written before it. -/
def sizeBytes : Bytes :=
  match file.data with
  | none => [0, 0]
  | some data =>
    if file.isFunction then
      data.written ++ beBytes 2 (data.value % 65536).toNat
    else
      beBytes 2 (if data.size.toNat > 0xFFFF then 0xFFFF else data.size.toNat)

/-- The part with the name. -/
def nameBytes : Bytes :=
  match file.nameArray with
  | none => []
  | some name => [0x84, .ofNat (min (name.headD 0).toNat 16)] ++ file.nameOf name

/-- The part with the metadata. -/
def metadataBytes : Bytes :=
  if 0 < file.metadata.length ∧ file.metadata.length ≤ 0xFF then
    [0xA5, 0x81, .ofNat file.metadata.length] ++ file.metadata
  else
    []

def fileProcessFci (fmd : Bool) : Bytes :=
  let res := (if fmd then [0x6f, 0x00] else []) ++ [0x62, 0x00] ++ [0x81, 2] ++ file.sizeBytes ++
    [0x82, 1, file.descriptor] ++ [0x83, 2] ++ beBytes 2 file.fid.toNat ++ file.nameBytes ++
    [0x8A, 0x01, 0x05] ++ file.metadataBytes
  let res := res.set 1 (.ofNat (res.length - 2))
  if fmd then res.set 3 (.ofNat (res.length - 4)) else res

/-! ### What is to hold -/

/-- The size of the file. -/
def size : ℤ :=
  match file.data with
  | none => 0
  | some data => if file.isFunction then data.value else data.size.toNat

/-- The attributes behind the size, and the metadata. -/
def attributes : List BerItem :=
  [(0x82, [file.descriptor]), (0x83, beBytes 2 file.fid.toNat)] ++
    (file.nameArray.toList.map fun name ↦ (0x84, file.nameOf name)) ++ [(0x8A, [0x05])] ++
    if file.metadata = [] then [] else [(0xA5, file.metadata)]

/-- **The template is right**: it is made of whole nested values, which are the attributes of the
file and its metadata. -/
def FciRight (fmd : Bool) : Prop :=
  ∃ content size, (beNat size : ℤ) = file.size ∧
    BerItems content ((0x81, size) :: file.attributes) ∧
    if fmd then
      ∃ template, BerItems (file.fileProcessFci fmd) [(0x6f, template)] ∧
        BerItems template [(0x62, content)]
    else
      BerItems (file.fileProcessFci fmd) [(0x62, content)]

/-! ### When it holds -/

/-- The length of all the values. -/
def contentLength : ℕ :=
  14 + (match file.nameArray with
    | none => 0
    | some name => 2 + (file.nameOf name).length) +
  if file.metadata = [] then 0 else 3 + file.metadata.length

/-- **The values are shorter than 128 bytes**, the size is one of two bytes, and a function that
gives it writes nothing. -/
structure FciFits (fmd : Bool) : Prop where
  length : file.contentLength + (if fmd then 2 else 0) < 128
  size : 0 ≤ file.size ∧ file.size < 65536
  written : ∀ data ∈ file.data, file.isFunction → data.written = []

/-! ### The values behind the size -/

section Tail

variable {file}

theorem length_nameOf {name : Bytes} (h : name ∈ file.nameArray) :
    (file.nameOf name).length = min (name.headD 0).toNat 16 := by
  obtain ⟨table, htable, hname⟩ := Option.bind_eq_some_iff.mp h
  have hfits := file.holds table htable name hname
  rw [nameOf, length_take, length_drop]
  omega

/-- The values behind the size, as they are encoded. -/
def pieces (file : FciFile) : List BerPiece :=
  [⟨0x82, [1], [file.descriptor]⟩, ⟨0x83, [2], beBytes 2 file.fid.toNat⟩] ++
    (file.nameArray.toList.map fun name ↦
      ⟨0x84, [.ofNat (file.nameOf name).length], file.nameOf name⟩) ++
    [⟨0x8A, [1], [0x05]⟩] ++
    if file.metadata = [] then []
    else [⟨0xA5, [0x81, .ofNat file.metadata.length], file.metadata⟩]

theorem pieces_items : file.pieces.map (·.item) = file.attributes := by
  rw [pieces, attributes]
  rcases file.nameArray with - | name
  · split_ifs <;> rfl
  · split_ifs <;> rfl

theorem pieces_plain (h : file.metadata.length < 256) : ∀ piece ∈ file.pieces, piece.Plain := by
  intro piece hpiece
  simp only [pieces, mem_append, mem_cons, not_mem_nil, or_false, mem_map,
    Option.mem_toList] at hpiece
  rcases hpiece with (((rfl | rfl) | ⟨name, hname, rfl⟩) | rfl) | hmetadata
  · exact .short 0x82 [file.descriptor] (by decide) (by decide) (by simp)
  · have hlen := length_beBytes 2 file.fid.toNat
    have hplain := BerPiece.Plain.short 0x83 (beBytes 2 file.fid.toNat) (by decide) (by decide)
      (by omega)
    rwa [hlen] at hplain
  · have hlen := length_nameOf hname
    exact .short 0x84 (file.nameOf name) (by decide) (by decide) (by omega)
  · exact .short 0x8A [0x05] (by decide) (by decide) (by simp)
  · split_ifs at hmetadata with hempty
    · cases hmetadata
    · rw [mem_singleton] at hmetadata
      rw [hmetadata]
      exact .long 0xA5 file.metadata (by decide) (by decide) h

/-- What is written behind the size, if the metadata are short enough. -/
theorem pieces_bytes (h : file.metadata.length < 256) : file.pieces.flatMap (·.bytes) =
    [0x82, 1, file.descriptor] ++ [0x83, 2] ++ beBytes 2 file.fid.toNat ++ file.nameBytes ++
      [0x8A, 0x01, 0x05] ++ file.metadataBytes := by
  have hname : (file.nameArray.toList.map fun name ↦ (⟨0x84,
      [.ofNat (file.nameOf name).length], file.nameOf name⟩ : BerPiece)).flatMap (·.bytes) =
        file.nameBytes := by
    rw [nameBytes]
    rcases hname : file.nameArray with - | name
    · rfl
    · simp [BerPiece.bytes, length_nameOf hname]
  have hmetadata : (if file.metadata = [] then []
      else [(⟨0xA5, [0x81, .ofNat file.metadata.length], file.metadata⟩ : BerPiece)]).flatMap
        (·.bytes) = file.metadataBytes := by
    rw [metadataBytes]
    by_cases hempty : file.metadata = []
    · simp [hempty]
    · rw [if_neg hempty, if_pos ⟨length_pos_iff.mpr hempty, by omega⟩]
      simp [BerPiece.bytes]
  rw [pieces, flatMap_append, flatMap_append, flatMap_append, hname, hmetadata]
  simp [BerPiece.bytes]

theorem length_pieces_bytes : 4 + (file.pieces.flatMap (·.bytes)).length = file.contentLength := by
  rw [pieces, contentLength]
  rcases file.nameArray with - | name
  · split_ifs
    · simp [BerPiece.length_bytes]
    · simp [BerPiece.length_bytes]
      omega
  · split_ifs
    · simp [BerPiece.length_bytes]
      omega
    · simp [BerPiece.length_bytes]
      omega

end Tail

/-! ### The outer lengths -/

/-- A value whose length is put into one byte is read just if it is shorter than 128 bytes. -/
theorem berItems_outer {b : UInt8} (hb : b.toNat % 32 ≠ 31) {first : UInt8} {rest content : Bytes}
    (hfirst : first.toNat = 0x62 ∨ first.toNat = 0x81) (hlen : rest.length + 1 < 0x6200) :
    BerItems (b :: .ofNat (rest.length + 1) :: first :: rest) [(b.toNat, content)] ↔
      rest.length + 1 < 128 ∧ content = first :: rest := by
  constructor
  · intro h
    cases h with
    | cons hitem hrest =>
    cases hrest
    obtain ⟨b', octets, -, hoctets, hbytes⟩ := berItem_eq_some hitem (UInt8.toNat_lt b)
    rw [append_nil] at hbytes
    have hbytes' := (List.cons.inj hbytes).2
    have hall := congrArg List.length hbytes'
    generalize hn : content.length = n at hoctets
    cases hoctets with
    | short d hd =>
      obtain ⟨rfl, rfl⟩ := List.cons.inj hbytes'
      rw [length_cons] at hn
      exact ⟨by omega, rfl⟩
    | long d octets hd hne =>
      obtain ⟨rfl, hrest⟩ := List.cons.inj hbytes'
      obtain ⟨c, octets, rfl⟩ := exists_cons_of_ne_nil hne
      obtain rfl := (List.cons.inj hrest).1
      rw [beNat_cons] at hn
      simp only [length_append, length_cons] at hall
      rcases octets with - | ⟨c', octets⟩
      · simp [beNat] at hn hd hall
        omega
      · -- with two octets the length would be greater than all the bytes there are
        have hpow : 256 ^ 1 ≤ 256 ^ (c' :: octets).length :=
          Nat.pow_le_pow_right (by decide) (by simp)
        have hge := Nat.mul_le_mul_left first.toNat hpow
        omega
  · rintro ⟨hlt, rfl⟩
    refine .cons ?_ .nil
    have hoctets := BerLength.short (.ofNat (rest.length + 1)) (by simp; omega)
    rw [UInt8.toNat_ofNat', Nat.mod_eq_of_lt (by omega)] at hoctets
    have hitem := @berItem_append [] (first :: rest) b hb _ hoctets
    rwa [append_nil] at hitem

/-- Everything behind the outer heads. -/
def content (file : FciFile) : Bytes :=
  [0x81, 2] ++ file.sizeBytes ++ [0x82, 1, file.descriptor] ++ [0x83, 2] ++
    beBytes 2 file.fid.toNat ++ file.nameBytes ++ [0x8A, 0x01, 0x05] ++ file.metadataBytes

theorem fileProcessFci_eq (fmd : Bool) : file.fileProcessFci fmd =
    if fmd then 0x6f :: .ofNat (file.content.length + 2) :: 0x62 :: .ofNat file.content.length ::
      file.content
    else 0x62 :: .ofNat file.content.length :: file.content := by
  have hres : (if fmd then [0x6f, 0x00] else []) ++ [0x62, 0x00] ++ [0x81, 2] ++ file.sizeBytes ++
      [0x82, 1, file.descriptor] ++ [0x83, 2] ++ beBytes 2 file.fid.toNat ++ file.nameBytes ++
      [0x8A, 0x01, 0x05] ++ file.metadataBytes =
        (if fmd then [0x6f, 0x00] else []) ++ [0x62, 0x00] ++ file.content := by
    simp [content]
  cases fmd <;> rfl

/-! ### The size -/

/-- What a function has written. -/
def written (file : FciFile) : Bytes :=
  match file.data with
  | none => []
  | some data => if file.isFunction then data.written else []

/-- The size that is announced. -/
def sizeValue (file : FciFile) : ℕ :=
  match file.data with
  | none => 0
  | some data =>
    if file.isFunction then (data.value % 65536).toNat
    else if data.size.toNat > 0xFFFF then 0xFFFF else data.size.toNat

theorem sizeBytes_eq : file.sizeBytes = file.written ++ beBytes 2 file.sizeValue := by
  have hzero : beBytes 2 0 = [0, 0] := rfl
  rw [sizeBytes, written, sizeValue]
  rcases file.data with - | data
  · exact hzero.symm
  · cases file.isFunction <;> rfl

theorem sizeValue_lt : file.sizeValue < 65536 := by
  rw [sizeValue]
  rcases file.data with - | data
  · exact Nat.zero_lt_succ _
  · simp only
    split_ifs <;> omega

/-- The size that is announced is the size, if it is one of two bytes. -/
theorem sizeValue_eq_iff :
    (file.sizeValue : ℤ) = file.size ↔ 0 ≤ file.size ∧ file.size < 65536 := by
  rw [sizeValue, size]
  rcases file.data with - | data
  · simp
  · simp only
    split_ifs <;> omega

theorem length_written_le : file.written.length ≤ 2048 := by
  rw [written]
  rcases file.data with - | data
  · simp
  · simp only
    split_ifs
    · exact data.fits
    · simp

theorem written_eq_nil_iff :
    file.written = [] ↔ ∀ data ∈ file.data, file.isFunction → data.written = [] := by
  rw [written]
  rcases file.data with - | data
  · simp
  · by_cases hfunction : file.isFunction = true
    · simp [hfunction]
    · simp [hfunction]

/-! ### The law -/

/-- What is behind the size. -/
def tail (file : FciFile) : Bytes :=
  [0x82, 1, file.descriptor] ++ [0x83, 2] ++ beBytes 2 file.fid.toNat ++ file.nameBytes ++
    [0x8A, 0x01, 0x05] ++ file.metadataBytes

theorem content_eq :
    file.content = 0x81 :: 2 :: (file.written ++ beBytes 2 file.sizeValue ++ file.tail) := by
  rw [content, sizeBytes_eq]
  simp [tail]

theorem length_tail_le : file.tail.length ≤ 286 := by
  have hname : file.nameBytes.length ≤ 18 := by
    rw [nameBytes]
    rcases hname : file.nameArray with - | name
    · simp
    · have hlen := length_nameOf hname
      simp only [length_append, length_cons, length_nil]
      omega
  have hmetadata : file.metadataBytes.length ≤ 258 := by
    rw [metadataBytes]
    split_ifs with h
    · simp only [length_append, length_cons, length_nil]
      omega
    · simp
  simp only [tail, length_append, length_cons, length_nil, length_beBytes]
  omega

theorem length_content : file.content.length = 4 + file.written.length + file.tail.length := by
  rw [content_eq]
  simp
  omega

/-- The outer values are read just if everything is shorter than 128 bytes. -/
theorem outer_iff (fmd : Bool) (content : Bytes) :
    (if fmd then
      ∃ template, BerItems (file.fileProcessFci fmd) [(0x6f, template)] ∧
        BerItems template [(0x62, content)]
    else
      BerItems (file.fileProcessFci fmd) [(0x62, content)]) ↔
      file.content.length + (if fmd then 2 else 0) < 128 ∧ content = file.content := by
  have hwritten := file.length_written_le
  have htail := file.length_tail_le
  have hcontent := file.length_content
  obtain ⟨rest, hrest⟩ : ∃ rest, file.content = 0x81 :: rest := ⟨_, file.content_eq⟩
  have hlen : file.content.length = rest.length + 1 := by rw [hrest, length_cons]
  have hinner := @berItems_outer 0x62 (by decide) 0x81 rest content (.inr rfl) (by omega)
  rw [← hlen, ← hrest] at hinner
  cases fmd with
  | false => exact hinner
  | true =>
    have houter (template : Bytes) := @berItems_outer 0x6f (by decide) 0x62
      (.ofNat file.content.length :: file.content) template (.inl rfl) (by simp; omega)
    constructor
    · rintro ⟨template, htemplate, hitems⟩
      obtain ⟨hlt, rfl⟩ := (houter template).mp htemplate
      exact ⟨by simpa using hlt, (hinner.mp hitems).2⟩
    · rintro ⟨hlt, rfl⟩
      exact ⟨_, (houter _).mpr ⟨hlt, rfl⟩, hinner.mpr ⟨by omega, rfl⟩⟩

theorem metadata_lt (h : file.contentLength < 128) : file.metadata.length < 256 := by
  rw [contentLength] at h
  split_ifs at h with hempty
  · simp [hempty]
  · omega

theorem mem_attributes_metadata (h : file.metadata ≠ []) :
    (0xA5, file.metadata) ∈ file.attributes := by
  simp [attributes, h]

theorem attributes_tag_lt : ∀ item ∈ file.attributes, item.1 < 256 := by
  intro item hitem
  rw [← pieces_items] at hitem
  obtain ⟨piece, -, rfl⟩ := mem_map.mp hitem
  exact piece.head.toNat_lt

/-- The plain encodings have one octet more than they need, at most. -/
theorem length_pieces_bytes_le : (file.pieces.flatMap (·.bytes)).length ≤
    (file.pieces.map fun piece ↦ 2 + piece.value.length).sum + 1 := by
  rw [pieces]
  rcases file.nameArray with - | name
  · split_ifs
    · simp [BerPiece.length_bytes]
    · simp [BerPiece.length_bytes]
      omega
  · split_ifs
    · simp [BerPiece.length_bytes]
    · simp [BerPiece.length_bytes]
      omega

/-- What is read as the size and the attributes is two bytes and the attributes. -/
theorem exists_size {size : Bytes} (h : BerItems file.content ((0x81, size) :: file.attributes)) :
    size.length = 2 ∧ ∃ rest, BerItems rest file.attributes ∧
      file.written ++ beBytes 2 file.sizeValue ++ file.tail = size ++ rest := by
  generalize hcontent : file.content = content at h
  cases h with
  | cons hitem hrest =>
  obtain ⟨b, octets, -, hoctets, rfl⟩ := berItem_eq_some hitem (by decide)
  rw [content_eq] at hcontent
  have hbytes := (List.cons.inj hcontent).2
  generalize hn : size.length = n at hoctets
  cases hoctets with
  | short d hd =>
    obtain ⟨rfl, hrest'⟩ := List.cons.inj hbytes
    exact ⟨rfl, _, hrest, hrest'⟩
  | long d octets hd hne =>
    obtain ⟨rfl, -⟩ := List.cons.inj hbytes
    have hd' : 2 = 128 + octets.length := hd
    omega

/-- Nothing but the size that fits, and no byte of a function, may be before the other values. -/
theorem inner_iff (h : file.content.length < 128) :
    (∃ size, (beNat size : ℤ) = file.size ∧
      BerItems file.content ((0x81, size) :: file.attributes)) ↔
      file.metadata.length < 256 ∧ (0 ≤ file.size ∧ file.size < 65536) ∧ file.written = [] := by
  rw [← sizeValue_eq_iff]
  constructor
  · rintro ⟨size, hsize, hitems⟩
    obtain ⟨hlen, rest, hrest, hbytes⟩ := exists_size file hitems
    have hle := hrest.length_le file.attributes_tag_lt
    have hrestLen : rest.length < 128 := by
      have hall := congrArg List.length hbytes
      have hcontent := file.length_content
      simp only [length_append, length_beBytes] at hall
      omega
    have hmetadata : file.metadata.length < 256 := by
      rcases eq_or_ne file.metadata [] with hempty | hne
      · simp [hempty]
      · have hmem := mem_map_of_mem (f := fun item : BerItem ↦ 2 + item.2.length)
          (file.mem_attributes_metadata hne)
        have hsum := single_le_sum (fun _ _ ↦ Nat.zero_le _) _ hmem
        simp only at hsum
        omega
    have hwidth := length_beBytes 2 file.sizeValue
    have hbetween : rest = (file.written ++ beBytes 2 file.sizeValue).drop 2 ++ file.tail := by
      rw [← drop_append_of_le_length (by rw [length_append]; omega), hbytes, ← hlen, drop_left]
    have htail : file.tail = file.pieces.flatMap (·.bytes) := (pieces_bytes hmetadata).symm
    rw [hbetween, htail, ← pieces_items] at hrest
    have hnone : (file.written ++ beBytes 2 file.sizeValue).drop 2 = [] := by
      by_contra hne
      exact BerItems.append_pieces (pieces_plain hmetadata) file.length_pieces_bytes_le hne hrest
    have hwritten : file.written = [] := by
      have hle := drop_eq_nil_iff.mp hnone
      rw [length_append] at hle
      exact eq_nil_of_length_eq_zero (by omega)
    rw [hwritten, nil_append] at hbytes
    have hsize' := (append_inj hbytes (hwidth.trans hlen.symm)).1
    rw [← hsize', beNat_beBytes file.sizeValue_lt] at hsize
    exact ⟨hmetadata, hsize, hwritten⟩
  · rintro ⟨hmetadata, hsize, hwritten⟩
    refine ⟨beBytes 2 file.sizeValue, ?_, ?_⟩
    · rw [beNat_beBytes file.sizeValue_lt, hsize]
    · have hoctets : BerLength [2] (beBytes 2 file.sizeValue).length := by
        exact .short 2 (by decide)
      have hitem := @berItem_append file.tail (beBytes 2 file.sizeValue) 0x81 (by decide) _ hoctets
      rw [content_eq, hwritten]
      refine .cons hitem ?_
      rw [tail, ← pieces_bytes hmetadata, ← pieces_items]
      exact .of_pieces (pieces_plain hmetadata)

end FciFile

/-- **The template is right just if** all the values together are shorter than 128 bytes, the size
is one of two bytes, and no function writes between. -/
theorem file_process_fci_law (file : FciFile) (fmd : Bool) :
    file.FciRight fmd ↔ file.FciFits fmd := by
  have hcontent := file.length_content
  have hlength := file.length_pieces_bytes
  constructor
  · rintro ⟨content, size, hsize, hitems, houter⟩
    obtain ⟨hlt, rfl⟩ := (file.outer_iff fmd content).mp houter
    obtain ⟨hmetadata, hrange, hwritten⟩ :=
      (file.inner_iff (by omega)).mp ⟨size, hsize, hitems⟩
    have htail : file.tail = file.pieces.flatMap (·.bytes) := (file.pieces_bytes hmetadata).symm
    rw [htail, hwritten] at hcontent
    exact ⟨by omega, hrange, file.written_eq_nil_iff.mp hwritten⟩
  · rintro ⟨hlt, hrange, hfunction⟩
    have hwritten := file.written_eq_nil_iff.mpr hfunction
    have hmetadata := file.metadata_lt (Nat.lt_of_add_right_lt hlt)
    have htail : file.tail = file.pieces.flatMap (·.bytes) := (file.pieces_bytes hmetadata).symm
    rw [htail, hwritten] at hcontent
    simp only [length_nil] at hcontent
    obtain ⟨size, hsize, hitems⟩ :=
      (file.inner_iff (by omega)).mpr ⟨hmetadata, hrange, hwritten⟩
    exact ⟨file.content, size, hsize, hitems,
      (file.outer_iff fmd file.content).mpr ⟨by omega, rfl⟩⟩

/-- A dynamic file with metadata of 120 bytes, as `meta_add` stores them for any file. -/
def longMetadataFile : FciFile where
  fid := 0xCE00
  entry := none
  data := some ⟨32, [], 0, Nat.zero_le _⟩
  metadata := List.replicate 120 0x41
  holds := fun _ h ↦ absurd h (Option.not_mem_none _)

/-- The length of its template is put into a byte that says that another follows. -/
theorem file_process_fci_long_metadata : ¬longMetadataFile.FciRight false := by
  rintro ⟨content, size, -, -, houter⟩
  have hlt := ((longMetadataFile.outer_iff false content).mp houter).1
  have htail : longMetadataFile.tail.length = 133 := by
    simp [FciFile.tail, FciFile.nameBytes, FciFile.metadataBytes, FciFile.nameArray,
      longMetadataFile]
  rw [longMetadataFile.length_content, htail] at hlt
  omega

end PicoAll
