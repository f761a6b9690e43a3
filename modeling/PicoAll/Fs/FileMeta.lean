import PicoAll.Fs.FileApi
import PicoAll.Fs.Tlv

/-!
# File metadata

`file.c` keeps the metadata of all files in one file, `EF_META`, as a concatenation of TLVs, one for
each file that has metadata. The value of an item is the file id and the metadata; its tag is made
from the low bits of the file id and is not read again. Three functions search the items for an id
in the same way, and edit the file by different code: `meta_delete` cuts the item out, `meta_add`
overwrites it in place when the length is the same, else cuts it out and writes the new one at the
end, and `meta_add` of a new id appends.
-/

namespace PicoAll

open BigEndian FaultProgram

abbrev efMeta : ℕ := 0xE010

variable {ρ : Type} (content : Bytes) (fid : UInt16)

/-- The loop that the three functions share: the first item with a file id and this one. -/
def metaItem : Option TlvItem :=
  (tlvItems content).find? fun item ↦
    2 ≤ item.value.length && beNat (item.value.take 2) = fid.toNat

/-- `meta_find`, on the content of `EF_META`: what follows the file id. -/
def metaFind : Option Bytes :=
  (metaItem content fid).map fun item ↦ item.value.drop 2

/-- The content without an item: what stands before its tag and what stands behind it. -/
def metaWithout (item : TlvItem) : Bytes :=
  let tagLen := item.value.length
  let p := content.length - item.rest.length
  let tpos := p - tagLen - (tlvFormatLen tagLen).length - 1
  content.take tpos ++ item.rest

/-- `meta_delete`, up to `flash_commit`. -/
def metaDelete : FsProg ρ Unit := do
  match ← fileSearch efMeta with
  | none => fail .fileNotFound
  | some content =>
    match metaItem content fid with
    | none => pure ()
    | some item =>
      let tagLen := item.value.length
      let newLen := content.length - 1 - tagLen - (tlvFormatLen tagLen).length
      if newLen = 0 then
        flashClearFile efMeta
      else
        onError (filePutData efMeta (metaWithout content item)) fun _ ↦ fail .execError

/-- An item as `meta_add` writes it, its length a 16-bit number. -/
def metaEntry (tag : UInt8) (fid : UInt16) (data : Bytes) : Bytes :=
  tag :: tlvFormatLen (data.length + 2) ++ (beBytes 2 fid.toNat ++ data)

/-- The content with an item of another length in the place of `item`: the items behind it are moved
down, the buffer is enlarged if the data got longer, and the item is written behind them. The size
accounts for the data and not for the length bytes, and a byte beyond it is lost. What `realloc`
adds to the buffer is taken to be zero. -/
def metaRealloc (item : TlvItem) (fid : UInt16) (data : Bytes) : Bytes :=
  let tagLen := item.value.length
  let p := content.length - item.rest.length
  let tpos := p - tlvLenTag item.tag tagLen
  let metaOffset := tpos + item.rest.length
  let moved := content.take tpos ++ item.rest ++ content.drop metaOffset
  let efSize := content.length + data.length - (tagLen - 2)
  let grown := moved ++ List.replicate (data.length - (tagLen - 2)) 0
  let entry := metaEntry fid.toUInt8 fid data
  (grown.take metaOffset ++ entry ++ grown.drop (metaOffset + entry.length)).take efSize

/-- What `meta_add` makes of the content. -/
def metaAddContent (data : Bytes) : Bytes :=
  match metaItem content fid with
  | some item =>
    if item.value.length - 2 = data.length then
      let p := content.length - item.rest.length
      content.take (p - item.value.length + 2) ++ data ++ item.rest
    else
      metaRealloc content item fid data
  | none =>
    let entry := metaEntry (fid.toUInt8 &&& 0x1f) fid data
    (content ++ entry).take (content.length + tlvLenTag (fid.toNat &&& 0x1f) (data.length + 2))

def metaAdd (data : Bytes) : FsProg ρ Unit := do
  if data.length > UINT16_MAX then
    fail .nullParam
  else
    match ← fileSearch efMeta with
    | none => fail .fileNotFound
    | some content =>
      onError (filePutData efMeta (metaAddContent content fid data)) fun _ ↦ fail .execError

/-! ### Deleting a file -/

/-- The metadata part of `file_delete_no_commit_parts`: no `EF_META` is no error. -/
def metadataDelete (fid : ℕ) : FsProg ρ (Except Status Unit) :=
  onError (do
      metaDelete (.ofNat fid)
      return .ok ())
    fun r ↦ pure (if r = .fileNotFound then .ok () else .error r)

/-- `file_delete_no_commit`, of a file that is there: its metadata, its content and, unless it is a
static one, its entry. What becomes of the metadata is reported last. -/
def fileDeleteWithMetadata (static : ℕ → Bool) (fid : ℕ) : FsProg ρ Unit := do
  let metadata ← metadataDelete fid
  fileDeleteNoCommit static fid
  liftExcept metadata

end PicoAll
