import PicoAll.Lib.OpenAddressing

/-!
# The index of the dynamic files

`file.c`: the files that are not in the table of an application are found through an index in RAM, a
table with open addressing. A slot has the id of a file and its namespace; the ids 0 and 0xffff say
that it is empty, or that its file has been deleted.

The index forgets everything before the flash is scanned, and then has the records of the flash; in
between, files are made and deleted in the namespace that is selected. Where a file's data is, and
what becomes of it, is not modelled here. Which ids the applications have in their tables is a
parameter, and so is which namespaces there are.

In every state the index is a map (`dynamic_index_is_map`), but that a search for the id 0xffff finds
the slots of deleted files.
-/

namespace PicoAll

open OpenAddressing

abbrev dynamicFileSlots : ℕ := 2309

abbrev maxDynamicFiles : ℕ := 2048

abbrev fileNamespaceCount : UInt16 := 4

abbrev dynamicFidEmpty : UInt16 := 0x0000

abbrev dynamicFidDeleted : UInt16 := 0xffff

/-- A slot of `dynamic_file`. -/
structure DynamicFile where
  fid : UInt16
  namespaceId : UInt16
  deriving DecidableEq, Repr

/-- The index. -/
structure DynamicIndex where
  activeNamespace : UInt16
  dynamicFiles : UInt16
  dynamicFile : Fin dynamicFileSlots → DynamicFile

/-- What `file_search` and `file_new` return. -/
inductive FileHandle where
  /-- An entry of an application's table. -/
  | entry
  /-- A slot of the index. -/
  | dynamic (slot : Fin dynamicFileSlots)
  deriving DecidableEq

/-- A namespace and an id in it. -/
abbrev FileId := UInt16 × UInt16

def dynamicHash (id : FileId) : Fin dynamicFileSlots :=
  ⟨((id.2.toUInt32 ||| (id.1.toUInt32 <<< 16)) * 40503).toNat % dynamicFileSlots,
    Nat.mod_lt _ (by decide)⟩

def dynamicHashStep (fid : UInt16) : ℕ :=
  1 + fid.toNat * 97 % (dynamicFileSlots - 1)

/-- The next slot that is probed for an id. -/
def dynamicNext (id : FileId) : Fin dynamicFileSlots → Fin dynamicFileSlots :=
  advance (dynamicHashStep id.2)

section Calls

variable (hasEntry : FileId → Bool) (registered : UInt16 → Bool) (s : DynamicIndex) (fid : UInt16)

def searchDynamicFile : Option (Fin dynamicFileSlots) :=
  search (dynamicNext (s.activeNamespace, fid))
    (fun slot ↦ (s.dynamicFile slot).fid == dynamicFidEmpty)
    (fun slot ↦ (s.dynamicFile slot).fid == fid &&
      (s.dynamicFile slot).namespaceId == s.activeNamespace)
    dynamicFileSlots (dynamicHash (s.activeNamespace, fid))

def findDynamicSlot : Option (Fin dynamicFileSlots) :=
  findSlot (dynamicNext (s.activeNamespace, fid))
    (fun slot ↦ (s.dynamicFile slot).fid == dynamicFidEmpty)
    (fun slot ↦ (s.dynamicFile slot).fid == dynamicFidDeleted)
    dynamicFileSlots none (dynamicHash (s.activeNamespace, fid))

/-- `file_search`. -/
def dynamicFileSearch : Option FileHandle :=
  if hasEntry (s.activeNamespace, fid) then some .entry
  else (searchDynamicFile s fid).map .dynamic

/-- Change a slot. -/
def DynamicIndex.setSlot (slot : Fin dynamicFileSlots) (file : DynamicFile) : DynamicIndex :=
  { s with dynamicFile := Function.update s.dynamicFile slot file }

/-- `file_new`. -/
def dynamicFileNew : Option FileHandle × DynamicIndex :=
  match dynamicFileSearch hasEntry s fid with
  | some file => (some file, s)
  | none =>
    if fid = dynamicFidEmpty ∨ fid = dynamicFidDeleted ∨
        maxDynamicFiles ≤ s.dynamicFiles.toNat then
      (none, s)
    else
      match findDynamicSlot s fid with
      | none => (none, s)
      | some slot =>
        (some (.dynamic slot),
          { s.setSlot slot ⟨fid, s.activeNamespace⟩ with dynamicFiles := s.dynamicFiles + 1 })

/-- Whether a slot has a file. -/
def DynamicFile.isFile (file : DynamicFile) : Bool :=
  file.fid != dynamicFidEmpty && file.fid != dynamicFidDeleted

/-- `delete_dynamic_file`, of a slot; whether it returns `PICOKEYS_OK`. -/
def deleteDynamicFile (slot : Fin dynamicFileSlots) : Bool × DynamicIndex :=
  let file := s.dynamicFile slot
  if !file.isFile then (false, s)
  else
    (true, { s.setSlot slot { file with fid := dynamicFidDeleted } with
      dynamicFiles := s.dynamicFiles - 1 })

/-- `file_delete`, of a file that is in the index; `cleared` says whether `flash_clear_file`
succeeds. -/
def dynamicFileDelete (cleared : Bool) (slot : Fin dynamicFileSlots) : DynamicIndex :=
  if cleared then (deleteDynamicFile s slot).2 else s

def fileNamespaceSelect (id : UInt16) : DynamicIndex :=
  if fileNamespaceCount ≤ id ∨ registered id = false then s else { s with activeNamespace := id }

def clearIndex : DynamicIndex :=
  { s with dynamicFile := fun _ ↦ ⟨dynamicFidEmpty, 0⟩, dynamicFiles := 0 }

/-- `scan_region_internal`, for a record, if the record is one that the scan does not stop at. -/
def scanRecord (id : FileId) : Option DynamicIndex :=
  if fileNamespaceCount ≤ id.1 ∨ registered id.1 = false ∨ id.2 = dynamicFidEmpty ∨
      id.2 = dynamicFidDeleted then
    none
  else
    let selected := fileNamespaceSelect registered s id.1
    let found :=
      if hasEntry (selected.activeNamespace, id.2) then selected
      else (dynamicFileNew hasEntry selected id.2).2
    some (fileNamespaceSelect registered found s.activeNamespace)

/-- The records of a region, up to one that the scan stops at. -/
def scanRecords : List FileId → DynamicIndex → DynamicIndex
  | [], s => s
  | id :: ids, s =>
    match scanRecord hasEntry registered s id with
    | none => s
    | some s' => scanRecords ids s'

/-- `file_scan_flash`: the regions, one after the other, and again after a recovery. -/
def fileScanFlash (regions : List (List FileId)) : DynamicIndex :=
  regions.foldl (fun s ids ↦ scanRecords hasEntry registered ids s) (clearIndex s)

/-- A step of the loop of `file_initialize_flash`. -/
def initializeSlot (slot : Fin dynamicFileSlots) : DynamicIndex :=
  let file := s.dynamicFile slot
  if file.namespaceId == s.activeNamespace && file.isFile then
    { s.setSlot slot { file with fid := dynamicFidDeleted } with
      dynamicFiles := if s.dynamicFiles ≠ 0 then s.dynamicFiles - 1 else s.dynamicFiles }
  else
    s

def fileInitializeFlash (hard : Bool) : DynamicIndex :=
  if !hard then s else (List.finRange dynamicFileSlots).foldl initializeSlot s

end Calls

end PicoAll
