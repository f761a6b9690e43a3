import PicoAll.Lib.BigEndian
import PicoAll.Lib.FaultProgram

/-!
# The file interface the object stores are written against

The object stores see the file layer as a map from file ids to contents, in the active namespace,
reached through five calls: `file_search`, `file_new`, `file_put_data`, `file_delete_no_commit` and
`flash_commit_sync`. Each of them can be refused, can report an error after having taken effect, and
can be preceded by a power loss; a single file write is atomic.

A file id is *absent* (`none`) or present with a content; a file that `file_new` has created and
nothing has been written to is present with the empty content, and `file_has_data` is false of it.
-/

namespace PicoAll

open FaultProgram

/-- The return codes of `picokeys.h` other than `PICOKEYS_OK`. -/
inductive Status where
  | noMemory
  | memoryFatal
  | nullParam
  | fileNotFound
  | blocked
  | noLogin
  | execError
  | wrongLength
  | wrongData
  | wrongDkek
  | wrongSignature
  | wrongPadding
  | verificationFailed
  | staleHandle
  deriving DecidableEq, Repr

/-- `UINT16_MAX`. -/
abbrev UINT16_MAX : ℕ := 0xffff

/-- `UINT32_MAX`. -/
abbrev UINT32_MAX : ℕ := 0xffffffff

/-- The files of the active namespace. -/
abbrev Files := ℕ → Option Bytes

def fileHasData (file : Option Bytes) : Bool :=
  match file with
  | some (_ :: _) => true
  | _ => false

@[simp]
theorem fileHasData_none : fileHasData none = false :=
  rfl

theorem fileHasData_some {c : Bytes} : fileHasData (some c) = true ↔ c ≠ [] := by
  cases c <;> simp [fileHasData]

theorem fileHasData_eq_true {file : Option Bytes} :
    fileHasData file = true ↔ ∃ c, file = some c ∧ c ≠ [] := by
  match file with
  | none => simp
  | some c => simp [fileHasData_some]

/-- `file_read_at`: the bytes of a content at an offset, refused outside it. -/
def fileReadAt (content : Bytes) (offset len : ℕ) : Except Status Bytes :=
  if offset > content.length ∨ len > content.length - offset then
    .error .nullParam
  else
    .ok ((content.drop offset).take len)

variable (files : Files) (fid : ℕ)

/-- Change one file. -/
def Files.set (content : Option Bytes) : Files :=
  fun f ↦ if f = fid then content else files f

@[simp]
theorem Files.set_self (content : Option Bytes) : files.set fid content fid = content := by
  simp [Files.set]

theorem Files.set_of_ne {fid f : ℕ} (content : Option Bytes) (h : f ≠ fid) :
    files.set fid content f = files f := by
  simp [Files.set, h]

@[simp]
theorem Files.set_set (c c' : Option Bytes) : (files.set fid c).set fid c' = files.set fid c' := by
  funext f
  by_cases h : f = fid <;> simp [Files.set, h]

@[simp]
theorem Files.set_get : files.set fid (files fid) = files := by
  funext f
  by_cases h : f = fid <;> simp [Files.set, h]

/-- The files together with whatever tables the component on top of them keeps in RAM. -/
structure FsState (ρ : Type) where
  /-- The files of the active namespace. -/
  files : Files
  /-- The RAM tables. -/
  ram : ρ

variable {ρ : Type}

/-- Change one file of a state. -/
def FsState.setFile (s : FsState ρ) (fid : ℕ) (content : Option Bytes) : FsState ρ :=
  { s with files := s.files.set fid content }

@[simp]
theorem FsState.files_setFile (s : FsState ρ) (fid : ℕ) (content : Option Bytes) :
    (s.setFile fid content).files = s.files.set fid content :=
  rfl

@[simp]
theorem FsState.setFile_setFile (s : FsState ρ) (fid : ℕ) (c c' : Option Bytes) :
    (s.setFile fid c).setFile fid c' = s.setFile fid c' := by
  simp [FsState.setFile]

@[simp]
theorem FsState.setFile_get (s : FsState ρ) (fid : ℕ) : s.setFile fid (s.files fid) = s := by
  simp [FsState.setFile]

/-- There is a first slot, where there are some. -/
instance neZeroTwo : NeZero 2 := ⟨by decide⟩

@[inherit_doc neZeroTwo]
instance neZeroFour : NeZero 4 := ⟨by decide⟩

/-- A program over the files that returns a status code when it fails. -/
abbrev FsProg (ρ α : Type) := Prog (FsState ρ) Status α

def fileSearch : FsProg ρ (Option Bytes) := do
  return (← getState).files fid

/-- `file_delete_no_commit`: a dynamic file disappears, a static one keeps its entry. `static` is
`file_search_by_fid(fid, NULL, SPECIFY_ANY)` of the active namespace's table. -/
def fileDeleteNoCommit (static : ℕ → Bool) (fid : ℕ) : FsProg ρ Unit :=
  perform .execError (·.setFile fid (if static fid then some [] else none))

/-- `file_new`: the file if it exists, else a fresh one without data. -/
def fileNew : FsProg ρ Unit := do
  match ← fileSearch fid with
  | some _ => return
  | none => perform .noMemory (·.setFile fid (some []))

def filePutData (data : Bytes) : FsProg ρ Unit :=
  perform .noMemory (·.setFile fid (some data))

/-- `flash_clear_file`: the file loses its content. -/
def flashClearFile : FsProg ρ Unit :=
  perform .execError (·.setFile fid (some []))

/-- `flash_commit_sync`, as its callers use it: `false` becomes `PICOKEYS_ERR_MEMORY_FATAL`. -/
def flashCommitSync : FsProg ρ Unit :=
  perform .memoryFatal id

/-! ### Rules for the file calls -/

variable {A : Outcome → Prop} {E : Exit Status → FsState ρ → Prop} {s : FsState ρ}

theorem wp_fileSearch {fid : ℕ} {Q : Option Bytes → FsState ρ → Prop} (h : Q (s.files fid) s) :
    wp A (fileSearch fid) Q E s :=
  wp_get (wp_pure h)

variable {Q : Unit → FsState ρ → Prop}

theorem wp_fileDeleteNoCommit {static : ℕ → Bool} {fid : ℕ}
    (hok : Q () (s.setFile fid (if static fid then some [] else none)))
    (hfail : A .fail → E (.code .execError) s)
    (hlate : A .late → E (.code .execError) (s.setFile fid (if static fid then some [] else none)))
    (hcut : A .cut → E .cut s) : wp A (fileDeleteNoCommit static fid) Q E s :=
  wp_perform hok hfail hlate hcut

theorem wp_fileNew {fid : ℕ} (hsome : ∀ c, s.files fid = some c → Q () s)
    (hnone : s.files fid = none → Q () (s.setFile fid (some [])))
    (hfail : A .fail → s.files fid = none → E (.code .noMemory) s)
    (hlate : A .late → s.files fid = none → E (.code .noMemory) (s.setFile fid (some [])))
    (hcut : A .cut → s.files fid = none → E .cut s) : wp A (fileNew fid) Q E s := by
  refine wp_bind (wp_fileSearch ?_)
  rcases hf : s.files fid with - | c
  · exact wp_perform (hnone hf) (hfail · hf) (hlate · hf) (hcut · hf)
  · exact wp_pure (hsome c hf)

theorem wp_filePutData {fid : ℕ} {data : Bytes} (hok : Q () (s.setFile fid (some data)))
    (hfail : A .fail → E (.code .noMemory) s)
    (hlate : A .late → E (.code .noMemory) (s.setFile fid (some data))) (hcut : A .cut → E .cut s) :
    wp A (filePutData fid data) Q E s :=
  wp_perform hok hfail hlate hcut

theorem wp_flashCommitSync (hok : Q () s) (hcode : E (.code .memoryFatal) s)
    (hcut : A .cut → E .cut s) : wp A flashCommitSync Q E s :=
  wp_perform hok (fun _ ↦ hcode) (fun _ ↦ hcode) hcut

end PicoAll
