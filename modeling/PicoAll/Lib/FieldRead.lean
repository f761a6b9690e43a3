import PicoAll.Lib.BigEndian

/-!
# Records of fixed widths, in both directions

`Fields.encode` lays fields out one behind the other and `beField` reads them back. Here is the other
direction: the fields that are read off a byte string by a list of widths (`Fields.read`) are laid out
as the bytes they were read from (`encode_read`), so that a fixed format has one encoding for each
value and one value for each encoding; and two records of the same widths whose values fit are equal
as soon as their bytes are (`encode_inj`).
-/

namespace BigEndian

open List

namespace Fields

/-- The fields of a byte string, by their widths. -/
def read : List ℕ → Bytes → Fields
  | [], _ => []
  | w :: ws, data => (w, beNat (data.take w)) :: read ws (data.drop w)

theorem encode_cons (f : ℕ × ℕ) (fs : Fields) : encode (f :: fs) = beBytes f.1 f.2 ++ encode fs :=
  flatMap_cons

/-- **What is read is what is there.** -/
theorem encode_read {ws : List ℕ} {data : Bytes} (h : ws.sum ≤ data.length) :
    (read ws data).encode = data.take ws.sum := by
  induction ws generalizing data with
  | nil => rfl
  | cons w ws ih =>
    rw [sum_cons] at h
    have hw : (data.take w).length = w := length_take_of_le (by omega)
    have hfield := beBytes_beNat (data.take w)
    rw [hw] at hfield
    rw [read, encode_cons, hfield, ih (by rw [length_drop]; omega), sum_cons, take_add]

/-- Every value fits its width. -/
def Fits (fs : Fields) : Prop :=
  ∀ f ∈ fs, f.2 < 256 ^ f.1

/-- A record whose values fit is read back as it is, whatever follows. -/
theorem read_encode {fs : Fields} (h : fs.Fits) (rest : Bytes) :
    read fs.widths (fs.encode ++ rest) = fs := by
  induction fs with
  | nil => rfl
  | cons f fs ih =>
    obtain ⟨w, v⟩ := f
    have hv : v < 256 ^ w := h _ (mem_cons_self ..)
    have hfits : Fits fs := fun f hf ↦ h f (mem_cons_of_mem _ hf)
    show read (w :: widths fs) (encode ((w, v) :: fs) ++ rest) = _
    rw [encode_cons, append_assoc, read, take_left' (length_beBytes w v),
      drop_left' (length_beBytes w v), beNat_beBytes hv, ih hfits]

/-- The fields stand in the data, one behind the other from an offset on. -/
def At (data : Bytes) : ℕ → Fields → Prop
  | _, [] => True
  | off, (w, v) :: fs => beField data off w = v ∧ At data (off + w) fs

/-- A record whose values fit stands where it is laid out. By induction on the fields. -/
theorem at_append {fs : Fields} (h : fs.Fits) (pre rest : Bytes) :
    At (pre ++ (fs.encode ++ rest)) pre.length fs := by
  induction fs generalizing pre with
  | nil => trivial
  | cons f fs ih =>
    obtain ⟨w, v⟩ := f
    have hfits : Fits fs := fun f hf ↦ h f (mem_cons_of_mem _ hf)
    have hrest := ih hfits (pre ++ beBytes w v)
    rw [append_assoc, length_append, length_beBytes] at hrest
    rw [encode_cons, append_assoc]
    exact ⟨beField_append rfl (h _ (mem_cons_self ..)), hrest⟩

/-- **Every field is read back from its offset**, whatever follows the record. -/
theorem at_encode {fs : Fields} (h : fs.Fits) (rest : Bytes) : At (fs.encode ++ rest) 0 fs :=
  at_append h [] rest

/-- **Equal bytes are equal records.** -/
theorem encode_inj {fs gs : Fields} (hw : fs.widths = gs.widths) (hf : fs.Fits) (hg : gs.Fits)
    (h : fs.encode = gs.encode) : fs = gs := by
  have hread := read_encode hf []
  rw [h, hw] at hread
  exact hread.symm.trans (read_encode hg [])

end Fields

end BigEndian
