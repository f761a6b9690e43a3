import PicoAll.Fs.FlashRecords

/-!
# What the flash reports of itself

Every write and deletion keeps the pools chains of records, with the variables of the files pointing
to them (`Holds`). The number of files and the lowest address agree with what a scan finds
(`Accounted`) as long as no persistent file is made or deleted, which is counted although the scan
does not, and no record that is taken out is the lowest, since `last_base` only falls
(`flash_accounting_law`).
-/

namespace PicoAll

open LinkedChain List Function Nat Bool

namespace FlashRecords

variable {registered : UInt16 → Bool} {B : FlashBounds}
  {isPersistent : FlashFile registered → Bool}

/-! ### Records and their places -/

/-- The sizes of the records, by their addresses. -/
def sizeAt (B : FlashBounds) (flash : Flash) (b : ℕ) : ℕ :=
  flashRecordSize B (flash.record b)

theorem flashSizeOf_pos {extended : Bool} {size : ℕ} : 0 < flashSizeOf B extended size := by
  rw [flashSizeOf]
  have h : fileRecordIdSize = 4 := rfl
  omega

theorem flashRecordSize_mono {r r' : FlashRecord} (hext : r'.extended = r.extended)
    (hlen : r'.data.length ≤ r.data.length) : flashRecordSize B r' ≤ flashRecordSize B r := by
  rw [flashRecordSize, flashRecordSize, hext]
  exact Nat.add_le_add_left hlen _

/-- The addresses of a pool. -/
def InPool (B : FlashBounds) (persistent : Bool) (x : ℕ) : Prop :=
  B.startp persistent ≤ x ∧ x ≤ B.endp persistent

theorem startp_pos (p : Bool) : 0 < B.startp p := by
  cases p with
  | false => exact B.startDataPool_pos
  | true => exact (zero_le _).trans_lt B.data_lt_rom

theorem startp_le_endp (p : Bool) : B.startp p ≤ B.endp p := by
  cases p with
  | false => exact B.data_le
  | true => exact B.rom_le

/-- The pools have no address in common. -/
theorem not_inPool {p q : Bool} {x : ℕ} (h : InPool B q x) (hne : q ≠ p) : ¬ InPool B p x := by
  have hlt := B.data_lt_rom
  cases p with
  | false =>
    rw [eq_true_of_not_eq_false hne] at h
    exact fun hp ↦ absurd (h.1.trans hp.2) (not_le.mpr hlt)
  | true =>
    rw [eq_false_of_not_eq_true hne] at h
    exact fun hp ↦ absurd (hp.1.trans h.2) (not_le.mpr hlt)

theorem file_mk (file : FlashFile registered) (extended : Bool) (data : Bytes) :
    (FlashRecord.mk file.id extended data).file registered = some file := by
  rw [FlashRecord.file, dif_pos ⟨file.registered_fst, file.ne_empty, file.ne_deleted⟩]

/-! ### Pools -/

section Pools

variable {flash flash' : Flash} {p q : Bool} {l l₁ l₂ : List ℕ} {a b : ℕ}

theorem PoolIs.inPool (h : PoolIs B isPersistent flash p l) (hb : b ∈ B.endp p :: l) :
    InPool B p b := by
  rcases mem_cons.mp hb with rfl | hb
  · exact ⟨startp_le_endp p, le_rfl⟩
  · exact ⟨h.below.bottom_le hb, (h.below.lt hb).le⟩

theorem PoolIs.ne_zero (h : PoolIs B isPersistent flash p l) (hb : b ∈ l) : b ≠ 0 :=
  pos_iff_ne_zero.mp ((startp_pos p).trans_le (h.below.bottom_le hb))

/-- What is written to one pool leaves the other as it is. -/
theorem PoolIs.frame (h : PoolIs B isPersistent flash q l) (hne : q ≠ p)
    (hagree : ∀ x, ¬ InPool B p x → flash'.next x = flash.next x ∧ flash'.prev x = flash.prev x ∧
      flash'.record x = flash.record x) : PoolIs B isPersistent flash' q l := by
  have hout : ∀ b ∈ B.endp q :: l, ¬ InPool B p b := fun b hb ↦ not_inPool (h.inPool hb) hne
  have hrecord : ∀ b ∈ l, flash'.record b = flash.record b :=
    fun b hb ↦ (hagree b (hout b (mem_cons_of_mem _ hb))).2.2
  refine ⟨h.linked.congr (fun b hb ↦ (hagree b (hout b hb)).1)
    fun b hb ↦ (hagree b (hout b (mem_cons_of_mem _ hb))).2.1,
    h.below.mono fun b hb ↦ ?_, fun b hb ↦ ?_⟩
  · rw [hrecord b hb]
    exact ⟨flashSizeOf_pos, le_rfl⟩
  · rw [hrecord b hb]
    exact h.files b hb

/-- A place for a record: behind the first records of a chain, and above the next. -/
structure Gap (B : FlashBounds) (flash : Flash) (p : Bool) (l₁ l₂ : List ℕ) (a size : ℕ) : Prop where
  fits : a + size ≤ lastOf (B.endp p) l₁
  bottom : B.startp p ≤ a
  above : ∀ b ∈ l₂.head?, b + sizeAt B flash b ≤ a

variable {r : FlashRecord} {file : FlashFile registered}

section

variable (h : PoolIs B isPersistent flash p (l₁ ++ l₂))
include h

theorem PoolIs.notMem_gap
    (hgap : Gap B flash p l₁ l₂ a (flashRecordSize B r)) : a ∉ B.endp p :: (l₁ ++ l₂) :=
  h.below.notMem_gap ((Nat.lt_add_of_pos_right flashSizeOf_pos).trans_le hgap.fits)
    fun b hb ↦ (Nat.lt_add_of_pos_right flashSizeOf_pos).trans_le (hgap.above b hb)

/-- **A record that is published** is in the chain. -/
theorem PoolIs.publish (hgap : Gap B flash p l₁ l₂ a (flashRecordSize B r))
    (hfile : r.file registered = some file) (hp : isPersistent file = p) :
    PoolIs B isPersistent (publishRecord flash (lastOf (B.endp p) l₁) a r) p (l₁ ++ a :: l₂) := by
  have ha := h.notMem_gap hgap
  have hrecord : ∀ b ∈ l₁ ++ l₂,
      (publishRecord flash (lastOf (B.endp p) l₁) a r).record b = flash.record b := by
    intro b hb
    have hba : b ≠ a := fun he ↦ ha (he ▸ mem_cons_of_mem _ hb)
    exact update_of_ne hba _ _
  have hself : (publishRecord flash (lastOf (B.endp p) l₁) a r).record a = r :=
    update_self _ _ _
  refine ⟨h.linked.insert h.below.nodup ha fun b hb ↦ h.ne_zero hb, ?_, fun b hb ↦ ?_⟩
  · refine Below.insert (h.below.mono fun b hb ↦ ?_) ?_ flashSizeOf_pos (fun b hb ↦ ?_) hgap.bottom
    · rw [hrecord b hb]
      exact ⟨flashSizeOf_pos, le_rfl⟩
    · rw [hself]
      exact hgap.fits
    · rw [hrecord b (mem_append_right _ (mem_of_mem_head? hb))]
      exact hgap.above b hb
  · rcases mem_append.mp hb with hb | hb
    · rw [hrecord b (mem_append_left _ hb)]
      exact h.files b (mem_append_left _ hb)
    · rcases mem_cons.mp hb with rfl | hb
      · rw [hself]
        exact ⟨file, hfile, hp⟩
      · rw [hrecord b (mem_append_right _ hb)]
        exact h.files b (mem_append_right _ hb)

/-- The other pool does not notice. -/
theorem PoolIs.publish_other {l' : List ℕ} (hgap : Gap B flash p l₁ l₂ a (flashRecordSize B r))
    (hq : PoolIs B isPersistent flash q l') (hne : q ≠ p) :
    PoolIs B isPersistent (publishRecord flash (lastOf (B.endp p) l₁) a r) q l' := by
  refine hq.frame hne fun x hx ↦ ?_
  have hmem : lastOf (B.endp p) l₁ ∈ B.endp p :: (l₁ ++ l₂) :=
    mem_cons.mpr ((mem_cons.mp lastOf_mem).imp_right (mem_append_left _))
  have hlast := h.inPool hmem
  have ha : InPool B p a := ⟨hgap.bottom, (le_add_right _ _).trans (hgap.fits.trans hlast.2)⟩
  have hxa : x ≠ a := fun he ↦ hx (he ▸ ha)
  have hxlast : x ≠ lastOf (B.endp p) l₁ := fun he ↦ hx (he ▸ hlast)
  refine ⟨(link_of_ne hxlast).trans (link_of_ne hxa), ?_, update_of_ne hxa _ _⟩
  show relink _ _ _ x = _
  rw [h.linked.next_lastOf]
  cases l₂ with
  | nil => exact (relink_zero _ _).symm ▸ link_of_ne hxa
  | cons b l₂ =>
    have hxb : x ≠ b := fun he ↦ hx (he ▸ h.inPool
      (mem_cons_of_mem _ (mem_append_right _ mem_cons_self)))
    exact (relink_of_ne hxb).trans (link_of_ne hxa)

end

theorem unlinkRecord_file {base : ℕ} :
    ((unlinkRecord flash base).record b).file registered = (flash.record b).file registered := by
  show (Function.update flash.record base _ b).file registered = _
  by_cases hb : b = base
  · subst hb
    rw [update_self]
    rfl
  · rw [update_of_ne hb]

/-- **A record that is cleared** is out of the chain. -/
theorem PoolIs.unlink (h : PoolIs B isPersistent flash p (l₁ ++ a :: l₂)) :
    PoolIs B isPersistent (unlinkRecord flash a) p (l₁ ++ l₂) := by
  have hsub : ∀ b ∈ l₁ ++ l₂, b ∈ l₁ ++ a :: l₂ := fun b hb ↦
    mem_append.mpr ((mem_append.mp hb).imp_right (mem_cons_of_mem _))
  have hrecord : ∀ b ∈ l₁ ++ l₂, (unlinkRecord flash a).record b = flash.record b := by
    intro b hb
    have hba : b ≠ a := by
      rintro rfl
      exact (nodup_cons.mp (nodup_middle.mp (nodup_cons.mp h.below.nodup).2)).1 hb
    exact update_of_ne hba _ _
  refine ⟨h.linked.erase h.below.nodup fun b hb ↦ h.ne_zero hb,
    h.below.erase.mono fun b hb ↦ ?_, fun b hb ↦ ?_⟩
  · rw [hrecord b hb]
    exact ⟨flashSizeOf_pos, le_rfl⟩
  · rw [hrecord b hb]
    exact h.files b (hsub b hb)

theorem PoolIs.unlink_other {l' : List ℕ} (h : PoolIs B isPersistent flash p (l₁ ++ a :: l₂))
    (hq : PoolIs B isPersistent flash q l') (hne : q ≠ p) :
    PoolIs B isPersistent (unlinkRecord flash a) q l' := by
  refine hq.frame hne fun x hx ↦ ?_
  have hmem : lastOf (B.endp p) l₁ ∈ B.endp p :: (l₁ ++ a :: l₂) :=
    mem_cons.mpr ((mem_cons.mp lastOf_mem).imp_right (mem_append_left _))
  have hxa : x ≠ a := fun he ↦ hx (he ▸ h.inPool
    (mem_cons_of_mem _ (mem_append_right _ mem_cons_self)))
  have hxlast : x ≠ lastOf (B.endp p) l₁ := fun he ↦ hx (he ▸ h.inPool hmem)
  refine ⟨(link_of_ne hxa).trans ?_, (link_of_ne hxa).trans ?_, update_of_ne hxa _ _⟩
  · rw [h.linked.prev_lastOf]
    exact link_of_ne hxlast
  · rw [h.linked.next_mid]
    cases l₂ with
    | nil => exact congrFun (relink_zero _ _) x
    | cons b l₂ =>
      exact relink_of_ne fun he ↦ hx (he ▸ h.inPool (mem_cons_of_mem _
        (mem_append_right _ (mem_cons_of_mem _ mem_cons_self))))

theorem overwriteRecord_file {base : ℕ} {data : Bytes} :
    ((overwriteRecord flash base data).record b).file registered =
      (flash.record b).file registered := by
  show (Function.update flash.record base _ b).file registered = _
  by_cases hb : b = base
  · subst hb
    rw [update_self]
    rfl
  · rw [update_of_ne hb]

/-- A record may get shorter where it is. -/
theorem PoolIs.overwrite {data : Bytes} (h : PoolIs B isPersistent flash q l)
    (hlen : data.length ≤ (flash.record a).data.length) :
    PoolIs B isPersistent (overwriteRecord flash a data) q l := by
  refine ⟨h.linked, h.below.mono fun b _ ↦ ⟨flashSizeOf_pos, ?_⟩, fun b hb ↦ ?_⟩
  · show flashRecordSize B (Function.update flash.record a _ b) ≤ _
    by_cases hba : b = a
    · subst hba
      rw [update_self]
      exact flashRecordSize_mono rfl hlen
    · rw [update_of_ne hba]
  · rw [overwriteRecord_file]
    exact h.files b hb

/-! ### Allocation -/

/-- What the loop finds is a gap. -/
theorem allocateLoop_gap {start size fuel top publishAt : ℕ}
    (hlinked : Linked flash.next flash.prev top l) (hbelow : Below (sizeAt B flash) start top l)
    (hpos : 0 < start) (h : allocateLoop B flash start size fuel top = some (publishAt, a)) :
    ∃ l₁ l₂, l = l₁ ++ l₂ ∧ publishAt = lastOf top l₁ ∧ a + size ≤ lastOf top l₁ ∧ start ≤ a ∧
      ∀ b ∈ l₂.head?, b + sizeAt B flash b ≤ a := by
  induction fuel generalizing top l with
  | zero => cases h
  | succ fuel ih =>
    rw [allocateLoop] at h
    dsimp only at h
    split_ifs at h with hroom hbroken hgap hend
    · -- the gap behind this link is large enough
      obtain ⟨rfl, rfl⟩ := Prod.ext_iff.mp (Option.some.inj h)
      refine ⟨[], l, rfl, rfl, ?_, hgap.2, fun b hb ↦ ?_⟩
      · show top - size + size ≤ top
        omega
      · cases l with
        | nil => cases hb
        | cons c l =>
          obtain rfl := Option.some.inj hb
          have hc : flash.next top = c := hlinked.1
          have hne : c ≠ 0 := (hpos.trans_le hbelow.2.2.le).ne'
          rw [hc, gapStart, if_pos hne] at hgap
          exact hgap.1
    · cases l with
      | nil => exact absurd hlinked hend
      | cons c l =>
        obtain ⟨hc, -, hl⟩ := hlinked
        rw [hc] at h
        obtain ⟨l₁, l₂, rfl, hlast, hrest⟩ := ih hl hbelow.2.2 h
        exact ⟨c :: l₁, l₂, rfl, hlast, hrest⟩

theorem allocateFreeAddr_gap {size publishAt : ℕ} (h : PoolIs B isPersistent flash p l)
    (halloc : allocateFreeAddr B flash size p = some (publishAt, a)) :
    ∃ l₁ l₂, l = l₁ ++ l₂ ∧ publishAt = lastOf (B.endp p) l₁ ∧
      Gap B flash p l₁ l₂ a (flashSizeOf B (decide (flashFileExtendedLength ≤ size)) size) := by
  rw [allocateFreeAddr] at halloc
  split_ifs at halloc
  obtain ⟨l₁, l₂, hl, hlast, hfits, hbottom, habove⟩ :=
    allocateLoop_gap h.linked h.below (startp_pos p) halloc
  exact ⟨l₁, l₂, hl, hlast, hfits, hbottom, habove⟩

end Pools

/-! ### Files -/

section Files

/-- The pools are these chains, and what a file points to is a record of it in its pool. -/
structure Holds (B : FlashBounds) (isPersistent : FlashFile registered → Bool) (flash : Flash)
    (file : FlashFile registered → Option ℕ) (pools : Bool → List ℕ) : Prop where
  pool : ∀ p, PoolIs B isPersistent flash p (pools p)
  file : ∀ f b, file f = some b → b ∈ pools (isPersistent f) ∧
    (flash.record b).file registered = some f

variable {flash : Flash} {file : FlashFile registered → Option ℕ} {pools : Bool → List ℕ}
  {f : FlashFile registered} {l₁ l₂ : List ℕ} {a b : ℕ}

section

variable (h : Holds B isPersistent flash file pools)
include h

/-- The record of one file is not that of another. -/
theorem Holds.ne {f' : FlashFile registered} {b' : ℕ}
    (hb : file f = some b) (hb' : file f' = some b') (hne : f' ≠ f) : b' ≠ b := by
  rintro rfl
  exact hne (Option.some.inj ((h.file f' b' hb').2.symm.trans (h.file f b' hb).2))

/-- A record is taken out of its pool. -/
theorem Holds.unlink (hb : file f = some b) (hsplit : pools (isPersistent f) = l₁ ++ b :: l₂) :
    Holds B isPersistent (unlinkRecord flash b) (Function.update file f none)
      (Function.update pools (isPersistent f) (l₁ ++ l₂)) := by
  have hpool := hsplit ▸ h.pool (isPersistent f)
  refine ⟨fun p ↦ ?_, fun f' b' hb' ↦ ?_⟩
  · by_cases hp : p = isPersistent f
    · subst hp
      rw [update_self]
      exact hpool.unlink
    · rw [update_of_ne hp]
      exact hpool.unlink_other (h.pool p) hp
  · by_cases hf : f' = f
    · rw [hf, update_self] at hb'
      cases hb'
    · rw [update_of_ne hf] at hb'
      obtain ⟨hmem, hrecord⟩ := h.file f' b' hb'
      refine ⟨?_, unlinkRecord_file.trans hrecord⟩
      by_cases hp : isPersistent f' = isPersistent f
      · rw [hp, update_self]
        rw [hp, hsplit] at hmem
        refine mem_append.mpr ((mem_append.mp hmem).imp_right fun hm ↦ ?_)
        exact (mem_cons.mp hm).resolve_left (h.ne hb hb' hf)
      · rw [update_of_ne hp]
        exact hmem

/-- A record is published in a gap of its pool. -/
theorem Holds.publish {r : FlashRecord} {p : Bool}
    (hsplit : pools p = l₁ ++ l₂) (hgap : Gap B flash p l₁ l₂ a (flashRecordSize B r))
    (hr : r.file registered = some f) (hp : isPersistent f = p) :
    Holds B isPersistent (publishRecord flash (lastOf (B.endp p) l₁) a r) file
      (Function.update pools p (l₁ ++ a :: l₂)) := by
  have hpool := hsplit ▸ h.pool p
  refine ⟨fun q ↦ ?_, fun f' b' hb' ↦ ?_⟩
  · by_cases hq : q = p
    · subst hq
      rw [update_self]
      exact hpool.publish hgap hr hp
    · rw [update_of_ne hq]
      exact hpool.publish_other hgap (h.pool q) hq
  · obtain ⟨hmem, hrecord⟩ := h.file f' b' hb'
    have hne : b' ≠ a := by
      by_cases hq : isPersistent f' = p
      · rintro rfl
        rw [hq, hsplit] at hmem
        exact hpool.notMem_gap hgap (mem_cons_of_mem _ hmem)
      · rintro rfl
        have hin := (h.pool (isPersistent f')).inPool (mem_cons_of_mem _ hmem)
        refine not_inPool hin hq ⟨hgap.bottom, ?_⟩
        exact (le_add_right _ _).trans (hgap.fits.trans
          (hpool.inPool (mem_cons.mpr ((mem_cons.mp lastOf_mem).imp_right (mem_append_left _)))).2)
    refine ⟨?_, ?_⟩
    · by_cases hq : isPersistent f' = p
      · rw [hq, update_self]
        rw [hq, hsplit] at hmem
        exact mem_append.mpr ((mem_append.mp hmem).imp_right (mem_cons_of_mem _))
      · rw [update_of_ne hq]
        exact hmem
    · show (Function.update flash.record a r b').file registered = some f'
      rw [update_of_ne hne]
      exact hrecord

theorem Holds.point (ha : a ∈ pools (isPersistent f))
    (hr : (flash.record a).file registered = some f) :
    Holds B isPersistent flash (Function.update file f (some a)) pools := by
  refine ⟨h.pool, fun f' b' hb' ↦ ?_⟩
  by_cases hf : f' = f
  · subst hf
    rw [update_self] at hb'
    obtain rfl := Option.some.inj hb'
    exact ⟨ha, hr⟩
  · rw [update_of_ne hf] at hb'
    exact h.file f' b' hb'

theorem Holds.overwrite {data : Bytes} (hlen : data.length ≤ (flash.record b).data.length) :
    Holds B isPersistent (overwriteRecord flash b data) file pools :=
  ⟨fun p ↦ (h.pool p).overwrite hlen, fun f b' hb' ↦
    ⟨(h.file f b' hb').1, overwriteRecord_file.trans (h.file f b' hb').2⟩⟩

end

end Files

/-! ### Counting -/

section Counting

variable {s : FlashState registered} {pools : Bool → List ℕ} {file : FlashFile registered}

/-- The variables are as a scan of this chain would leave them. -/
def Accounted (B : FlashBounds) (s : FlashState registered) (l : List ℕ) : Prop :=
  s.numFiles = l.length ∧ s.lastBase = lastOf (B.endp false) l

/-- A file that has a record loses it. -/
theorem clearFile_holds {b : ℕ} (h : Holds B isPersistent s.flash s.file pools)
    (hb : s.file file = some b) :
    ∃ l₁ l₂, pools (isPersistent file) = l₁ ++ b :: l₂ ∧
      Holds B isPersistent (flashClearFile s file).flash (flashClearFile s file).file
        (Function.update pools (isPersistent file) (l₁ ++ l₂)) ∧
      (flashClearFile s file).lastBase = s.lastBase ∧
      (flashClearFile s file).numFiles = s.numFiles - 1 := by
  obtain ⟨l₁, l₂, hsplit⟩ := append_of_mem (h.file file b hb).1
  have hholds := h.unlink hb hsplit
  rw [flashClearFile, hb]
  refine ⟨l₁, l₂, hsplit, hholds, rfl, ?_⟩
  show (if 0 < s.numFiles then s.numFiles - 1 else s.numFiles) = s.numFiles - 1
  split_ifs <;> omega

/-- **A record that is cleared** is counted off, and the lowest address is still right if it was not
the lowest. What other files have stays in its pool. -/
theorem clearFile_accounted (h : Holds B isPersistent s.flash s.file pools)
    (hacc : Accounted B s (pools false))
    (hlow : ∀ b, s.file file = some b → isPersistent file = false ∧ s.lastBase < b) :
    ∃ pools', Holds B isPersistent (flashClearFile s file).flash (flashClearFile s file).file pools' ∧
      Accounted B (flashClearFile s file) (pools' false) ∧
      ∀ p, ∀ c ∈ pools p, s.file file ≠ some c → c ∈ pools' p := by
  rcases hb : s.file file with _ | b
  · rw [flashClearFile, hb]
    exact ⟨pools, h, hacc, fun p c hc _ ↦ hc⟩
  · obtain ⟨hp, hlt⟩ := hlow b hb
    obtain ⟨l₁, l₂, hsplit, hholds, hlast, hnum⟩ := clearFile_holds h hb
    rw [hp] at hsplit hholds
    refine ⟨_, hholds, ?_, fun p c hc hne ↦ ?_⟩
    · rw [Accounted, update_self, hlast, hnum]
      obtain ⟨hn, hl⟩ := hacc
      rw [hsplit] at hn hl
      refine ⟨?_, ?_⟩
      · rw [hn, length_append, length_append, length_cons]
        omega
      · rw [hl] at hlt
        exact hl.trans (lastOf_erase hlt).symm
    · by_cases hpf : p = false
      · subst hpf
        rw [hsplit] at hc
        refine mem_append.mpr ((mem_append.mp hc).imp_right fun hm ↦ ?_)
        exact (mem_cons.mp hm).resolve_left fun he ↦ hne (congrArg some he.symm)
      · rw [update_of_ne hpf]
        exact hc

variable {newData : Bytes} {l₁ l₂ : List ℕ} {a : ℕ}

/-- The record of a write that moves the file. -/
def movedRecord (file : FlashFile registered) (newData : Bytes) : FlashRecord :=
  ⟨file.id, decide (flashFileExtendedLength ≤ newData.length), newData⟩

/-- The state in which the new record is published, and the old one is still there. -/
def publishedState (s : FlashState registered) (file : FlashFile registered) (newData : Bytes)
    (publishAt newAddr : ℕ) : FlashState registered :=
  { s with
    flash := publishRecord s.flash publishAt newAddr (movedRecord file newData)
    lastBase := if newAddr < s.lastBase then newAddr else s.lastBase
    numFiles := s.numFiles + 1 }

theorem publishedState_holds (h : Holds B isPersistent s.flash s.file pools)
    (hsplit : pools (isPersistent file) = l₁ ++ l₂)
    (hgap : Gap B s.flash (isPersistent file) l₁ l₂ a
      (flashRecordSize B (movedRecord file newData))) :
    Holds B isPersistent (publishedState s file newData (lastOf (B.endp (isPersistent file)) l₁) a).flash
      s.file (Function.update pools (isPersistent file) (l₁ ++ a :: l₂)) :=
  h.publish hsplit hgap (file_mk file _ _) rfl

/-- A record that is published in the data pool is counted. -/
theorem publishedState_accounted (h : Holds B isPersistent s.flash s.file pools)
    (hacc : Accounted B s (pools false)) (hp : isPersistent file = false)
    (hsplit : pools (isPersistent file) = l₁ ++ l₂)
    (hgap : Gap B s.flash (isPersistent file) l₁ l₂ a
      (flashRecordSize B (movedRecord file newData))) :
    Accounted B (publishedState s file newData (lastOf (B.endp (isPersistent file)) l₁) a)
      (l₁ ++ a :: l₂) := by
  have hbelow := (publishedState_holds h hsplit hgap).pool (isPersistent file)
  rw [update_self] at hbelow
  obtain ⟨hn, hl⟩ := hacc
  rw [hp] at hsplit hbelow
  rw [hsplit] at hn hl
  refine ⟨?_, ?_⟩
  · show s.numFiles + 1 = _
    rw [hn, length_append, length_append, length_cons]
    omega
  · show (if a < s.lastBase then a else s.lastBase) = _
    rw [lastOf_insert hbelow.below, ← hl]
    split_ifs with hlt
    · exact (min_eq_right hlt.le).symm
    · exact (min_eq_left (not_lt.mp hlt)).symm

/-- The state after a write that moves the file. -/
def movedState (s : FlashState registered) (file : FlashFile registered) (newData : Bytes)
    (publishAt newAddr : ℕ) : FlashState registered :=
  let s' := flashClearFile (publishedState s file newData publishAt newAddr) file
  { s' with file := Function.update s'.file file (some newAddr) }

/-- **A file that is moved**: the counts stay right if a persistent file had a record before, and if
the record that a file of the data pool had was not the lowest. -/
theorem movedState_accounted (h : Holds B isPersistent s.flash s.file pools)
    (hacc : Accounted B s (pools false)) (hsplit : pools (isPersistent file) = l₁ ++ l₂)
    (hgap : Gap B s.flash (isPersistent file) l₁ l₂ a
      (flashRecordSize B (movedRecord file newData)))
    (hrom : isPersistent file = true → s.file file ≠ none)
    (hdata : isPersistent file = false → ∀ b, s.file file = some b → min s.lastBase a < b) :
    ∃ pools', Holds B isPersistent
        (movedState s file newData (lastOf (B.endp (isPersistent file)) l₁) a).flash
        (movedState s file newData (lastOf (B.endp (isPersistent file)) l₁) a).file pools' ∧
      Accounted B (movedState s file newData (lastOf (B.endp (isPersistent file)) l₁) a)
        (pools' false) := by
  have hpublished := publishedState_holds h hsplit hgap
  have hnotin : ∀ b, s.file file = some b → b ≠ a := by
    rintro b hb rfl
    have hmem := (h.file file b hb).1
    rw [hsplit] at hmem
    exact (hsplit ▸ h.pool (isPersistent file)).notMem_gap hgap (mem_cons_of_mem _ hmem)
  have hmem : a ∈ Function.update pools (isPersistent file) (l₁ ++ a :: l₂) (isPersistent file) := by
    rw [update_self]
    exact mem_append_right _ mem_cons_self
  have hrecord : ∀ s' : FlashState registered,
      (s' = flashClearFile (publishedState s file newData
        (lastOf (B.endp (isPersistent file)) l₁) a) file) →
      (s'.flash.record a).file registered = some file := by
    rintro s' rfl
    rw [flashClearFile]
    have hself : ((publishedState s file newData (lastOf (B.endp (isPersistent file)) l₁) a).flash
        |>.record a) = movedRecord file newData := update_self _ _ _
    rcases hb : (publishedState s file newData
        (lastOf (B.endp (isPersistent file)) l₁) a).file file with _ | b
    · rw [hself]
      exact file_mk file _ _
    · refine unlinkRecord_file.trans ?_
      rw [hself]
      exact file_mk file _ _
  rcases eq_false_or_eq_true (isPersistent file) with hp | hp
  · obtain ⟨b, hb⟩ := Option.ne_none_iff_exists'.mp (hrom hp)
    obtain ⟨m₁, m₂, hm, hholds, hlast, hnum⟩ := clearFile_holds hpublished hb
    have hstay : a ∈ m₁ ++ m₂ := by
      rw [hm] at hmem
      refine mem_append.mpr ((mem_append.mp hmem).imp_right fun hmem ↦ ?_)
      exact (mem_cons.mp hmem).resolve_left (hnotin b hb).symm
    rw [update_idem] at hholds
    refine ⟨_, hholds.point ?_ (hrecord _ rfl), ?_⟩
    · rw [update_self]
      exact hstay
    · have hother : Function.update pools (isPersistent file) (m₁ ++ m₂) false = pools false := by
        rw [hp]
        exact update_of_ne Bool.false_ne_true _ _
      rw [hother]
      obtain ⟨hn, hl⟩ := hacc
      -- the persistent pool is above the other
      have hle : s.lastBase ≤ a := by
        have hend := (h.pool false).below.lastOf_le
        have hbottom := hgap.bottom
        have hlt := B.data_lt_rom
        rw [hp] at hbottom
        rw [hl]
        exact hend.trans (hlt.le.trans hbottom)
      refine ⟨hnum.trans hn, hlast.trans ?_⟩
      show (if a < s.lastBase then a else s.lastBase) = _
      rw [if_neg (not_lt.mpr hle), hl]
  · have hcounted := publishedState_accounted h hacc hp hsplit hgap
    have hlow : ∀ b, s.file file = some b → isPersistent file = false ∧
        (publishedState s file newData (lastOf (B.endp (isPersistent file)) l₁) a).lastBase < b := by
      refine fun b hb ↦ ⟨hp, lt_of_eq_of_lt ?_ (hdata hp b hb)⟩
      show (if a < s.lastBase then a else s.lastBase) = _
      split_ifs with hlt
      · exact (min_eq_right hlt.le).symm
      · exact (min_eq_left (not_lt.mp hlt)).symm
    have hlist : Function.update pools (isPersistent file) (l₁ ++ a :: l₂) false = l₁ ++ a :: l₂ := by
      rw [hp, update_self]
    obtain ⟨pools', hholds, hacc', hstay⟩ :=
      clearFile_accounted hpublished (hlist.symm ▸ hcounted) hlow
    exact ⟨pools', hholds.point (hstay _ a hmem fun hb ↦ hnotin a hb rfl) (hrecord _ rfl), hacc'⟩

end Counting

/-! ### Writing -/

section Writing

variable {s : FlashState registered} {pools : Bool → List ℕ} {file : FlashFile registered}
  {data newData : Bytes} {offset base publishAt newAddr : ℕ} {part : Bool}

/-- A file that is moved gets an address that is allocated. -/
theorem moveFile_eq_move {flash : Flash} {d : Bytes}
    (h : moveFile B isPersistent flash file d = .move newData publishAt newAddr) :
    allocateFreeAddr B flash newData.length (isPersistent file) = some (publishAt, newAddr) := by
  rw [moveFile] at h
  rcases halloc : allocateFreeAddr B flash d.length (isPersistent file) with _ | ⟨at', addr⟩
  · rw [halloc] at h
    cases h
  · rw [halloc] at h
    obtain ⟨rfl, rfl, rfl⟩ := FlashWritePlan.move.inj h
    exact halloc

theorem moveFile_ne_inPlace {flash : Flash} {d : Bytes} :
    moveFile B isPersistent flash file d ≠ .inPlace base newData := by
  intro h
  rw [moveFile] at h
  rcases halloc : allocateFreeAddr B flash d.length (isPersistent file) with _ | ⟨at', addr⟩
  · rw [halloc] at h
    cases h
  · rw [halloc] at h
    cases h

/-- What is written in place is not longer than what was there. -/
theorem flashWritePlan_inPlace
    (h : flashWritePlan B isPersistent s file data offset part = .inPlace base newData) :
    newData.length ≤ (s.flash.record base).data.length := by
  rw [flashWritePlan] at h
  split_ifs at h with hlen hoffset
  rcases hb : s.file file with _ | b
  · rw [hb] at h
    exact absurd h moveFile_ne_inPlace
  · have hdata : fileData s file = (s.flash.record b).data := by rw [fileData, hb]
    rw [hb, hdata] at h
    dsimp only at h
    split_ifs at h with hpart
    · obtain ⟨rfl, rfl⟩ := FlashWritePlan.inPlace.inj h
      rw [writtenData]
      rcases hpart with ⟨hp, hend⟩ | ⟨hp, hle, -⟩
      · rw [if_pos hp, length_append, length_append, length_take, length_drop]
        omega
      · rw [hp, if_neg Bool.false_ne_true]
        exact hle
    · exact absurd h moveFile_ne_inPlace

theorem flashWritePlan_move
    (h : flashWritePlan B isPersistent s file data offset part = .move newData publishAt newAddr) :
    allocateFreeAddr B s.flash newData.length (isPersistent file) = some (publishAt, newAddr) := by
  rw [flashWritePlan] at h
  split_ifs at h with hlen hoffset
  rcases hb : s.file file with _ | b
  · rw [hb] at h
    exact moveFile_eq_move h
  · rw [hb] at h
    dsimp only at h
    split_ifs at h with hpart
    exact moveFile_eq_move h

/-- What a write has to do with the counts: a persistent file is not made by it, and the record that
a file of the data pool had is not the lowest. -/
def KeepsAccount (isPersistent : FlashFile registered → Bool) (s : FlashState registered)
    (file : FlashFile registered) : FlashWritePlan → Prop
  | .move _ _ newAddr =>
    (isPersistent file = true → s.file file ≠ none) ∧
      (isPersistent file = false → ∀ b, s.file file = some b → min s.lastBase newAddr < b)
  | _ => True

/-- **A write** keeps the pools, and the counts if it is not one that goes wrong. -/
theorem flashWrite_accounted (h : Holds B isPersistent s.flash s.file pools)
    (hacc : Accounted B s (pools false))
    (hkeep : KeepsAccount isPersistent s file
      (flashWritePlan B isPersistent s file data offset part)) :
    ∃ pools', Holds B isPersistent
        (flashWriteDataToFileInternal B isPersistent s file data offset part).2.flash
        (flashWriteDataToFileInternal B isPersistent s file data offset part).2.file pools' ∧
      Accounted B (flashWriteDataToFileInternal B isPersistent s file data offset part).2
        (pools' false) := by
  rw [flashWriteDataToFileInternal]
  rcases hplan : flashWritePlan B isPersistent s file data offset part with
    e | ⟨base, newData⟩ | ⟨newData, publishAt, newAddr⟩
  · exact ⟨pools, h, hacc⟩
  · exact ⟨pools, h.overwrite (flashWritePlan_inPlace hplan), hacc⟩
  · obtain ⟨l₁, l₂, hsplit, rfl, hgap⟩ :=
      allocateFreeAddr_gap (h.pool (isPersistent file)) (flashWritePlan_move hplan)
    rw [hplan] at hkeep
    exact movedState_accounted h hacc hsplit hgap hkeep.1 hkeep.2

end Writing

/-! ### Scanning -/

section Scanning

variable (indexed : FlashFile registered → Bool) {s : FlashState registered} {p : Bool}
  {pools : Bool → List ℕ} {l : List ℕ} {a b fuel : ℕ} {file : FlashFile registered}

theorem scanRegionLoop_zero : scanRegionLoop B indexed p fuel 0 s = s := by
  cases fuel with
  | zero => rfl
  | succ fuel => rw [scanRegionLoop, if_pos rfl]

/-- A record of a chain passes the checks. -/
theorem scanRegionLoop_succ (hlinked : Linked s.flash.next s.flash.prev a (b :: l))
    (hbelow : Below (sizeAt B s.flash) (B.startp p) a (b :: l)) (ha : a ≤ B.endp p)
    (hfile : (s.flash.record b).file registered = some file) :
    scanRegionLoop B indexed p (fuel + 1) b s =
      scanRegionLoop B indexed p fuel (s.flash.next b) (scanFound indexed p s b file) := by
  obtain ⟨-, hprev, hl⟩ := hlinked
  have hsize : b + flashSizeOf B (s.flash.record b).extended (s.flash.record b).data.length ≤
      B.endp p := hbelow.1.trans ha
  have hstart : B.startp p ≤ b := hbelow.2.2.le
  have hpos := startp_pos (B := B) p
  have hnext : s.flash.next b = 0 ∨ B.startp p ≤ s.flash.next b ∧ s.flash.next b < b := by
    cases l with
    | nil => exact .inl hl
    | cons c l =>
      rw [hl.1]
      exact .inr ⟨hbelow.2.2.bottom_le mem_cons_self, hbelow.2.2.lt mem_cons_self⟩
  have hab : b < a := hbelow.lt mem_cons_self
  have hmin : flashSizeOf B false 0 + (s.flash.record b).data.length ≤
      flashSizeOf B (s.flash.record b).extended (s.flash.record b).data.length := by
    rw [flashSizeOf, flashSizeOf]
    split_ifs <;> simp_all
  have hheader : flashSizeOf B (s.flash.record b).extended (s.flash.record b).data.length =
      flashSizeOf B (s.flash.record b).extended 0 + (s.flash.record b).data.length := by
    rw [flashSizeOf, flashSizeOf, add_zero]
  rw [scanRegionLoop]
  dsimp only
  rw [if_neg (by omega), if_neg (by omega), hfile]
  dsimp only
  rw [hprev, if_neg (by omega)]
  split_ifs with hend
  · rw [hend, scanRegionLoop_zero indexed]
  · rfl

/-- **The scan finds a chain**: its records, with the lowest address among them. -/
theorem scanRegionLoop_spec (hlinked : Linked s.flash.next s.flash.prev a l)
    (hbelow : Below (sizeAt B s.flash) (B.startp p) a l) (ha : a ≤ B.endp p)
    (hfiles : ∀ b ∈ l, ∃ file, (s.flash.record b).file registered = some file ∧
      isPersistent file = p)
    (hfuel : l.length < fuel) (hlast : p = false → s.lastBase = a) :
    let s' := scanRegionLoop B indexed p fuel (s.flash.next a) s
    s'.flash = s.flash ∧ s'.numFiles = (if p then s.numFiles else s.numFiles + l.length) ∧
      s'.lastBase = (if p then s.lastBase else lastOf a l) ∧
      ∀ f b, s'.file f = some b → s.file f = some b ∨
        b ∈ l ∧ (s.flash.record b).file registered = some f ∧ isPersistent f = p := by
  induction l generalizing a fuel s with
  | nil =>
    rw [hlinked, scanRegionLoop_zero]
    refine ⟨rfl, (ite_self _).symm, ?_, fun f b hb ↦ .inl hb⟩
    split_ifs with hp
    · rfl
    · exact hlast (eq_false_of_not_eq_true hp)
  | cons b l ih =>
    obtain ⟨file, hfile, hp⟩ := hfiles b mem_cons_self
    cases fuel with
    | zero => cases hfuel
    | succ fuel =>
      rw [hlinked.1, scanRegionLoop_succ indexed hlinked hbelow ha hfile]
      have hba : b < a := hbelow.lt mem_cons_self
      obtain ⟨hflash, hnum, hlow, hfound⟩ := ih (s := scanFound indexed p s b file) (a := b)
        hlinked.2.2 hbelow.2.2 (hba.le.trans ha)
        (fun c hc ↦ hfiles c (mem_cons_of_mem _ hc)) (lt_of_succ_lt_succ hfuel)
        fun hpf ↦ by
          show (if p = false ∧ b < s.lastBase then b else s.lastBase) = b
          rw [hlast hpf, if_pos ⟨hpf, hba⟩]
      refine ⟨hflash, hnum.trans ?_, hlow.trans ?_, fun f c hc ↦ ?_⟩
      · cases p with
        | true => rfl
        | false => exact add_right_comm _ _ _
      · cases p with
        | true => rfl
        | false => rfl
      · rcases hfound f c hc with hs | ⟨hmem, hrest⟩
        · by_cases hindexed : indexed file = true
          · have hs : Function.update s.file file (some b) f = some c := by
              rw [scanFound, if_pos hindexed] at hs
              exact hs
            by_cases hf : f = file
            · subst hf
              rw [update_self] at hs
              obtain rfl := Option.some.inj hs
              exact .inr ⟨mem_cons_self, hfile, hp⟩
            · rw [update_of_ne hf] at hs
              exact .inl hs
          · rw [scanFound, if_neg hindexed] at hs
            exact .inl hs
        · exact .inr ⟨mem_cons_of_mem _ hmem, hrest⟩

/-- A pool is scanned. -/
theorem scanRegion_spec {l : List ℕ} (h : PoolIs B isPersistent s.flash p l) :
    let s' := scanRegion B indexed p s
    s'.flash = s.flash ∧ s'.numFiles = (if p then s.numFiles else l.length) ∧
      s'.lastBase = (if p then s.lastBase else lastOf (B.endp false) l) ∧
      ∀ f b, s'.file f = some b → s.file f = some b ∨
        b ∈ l ∧ (s.flash.record b).file registered = some f ∧ isPersistent f = p := by
  have hfuel : l.length < B.endp p + 1 :=
    lt_succ_of_le ((le_add_left _ _).trans h.below.length_le)
  cases p with
  | true =>
    exact scanRegionLoop_spec indexed h.linked h.below le_rfl h.files hfuel nofun
  | false =>
    obtain ⟨hflash, hnum, hrest⟩ := scanRegionLoop_spec indexed
      (s := { s with lastBase := B.endDataPool, numFiles := 0 }) h.linked h.below le_rfl h.files
      hfuel fun _ ↦ rfl
    exact ⟨hflash, hnum.trans (zero_add _), hrest⟩

/-- **A scan of chains** finds them, and leaves the variables as they should be. -/
theorem fileScanFlash_spec (h : ∀ p, PoolIs B isPersistent s.flash p (pools p)) :
    let s' := fileScanFlash B indexed s
    Holds B isPersistent s'.flash s'.file pools ∧ Accounted B s' (pools false) := by
  obtain ⟨hflash, -, -, hfile⟩ := scanRegion_spec indexed
    (s := { s with file := fun _ ↦ none }) (h true)
  have hpool : PoolIs B isPersistent
      (scanRegion B indexed true { s with file := fun _ ↦ none }).flash false (pools false) := by
    rw [hflash]
    exact h false
  obtain ⟨hflash', hnum, hlast, hfile'⟩ := scanRegion_spec indexed hpool
  refine ⟨⟨fun p ↦ ?_, fun f b hb ↦ ?_⟩, hnum, hlast⟩
  · rw [fileScanFlash, hflash', hflash]
    exact h p
  · rw [fileScanFlash, hflash', hflash]
    rcases hfile' f b hb with hb | ⟨hmem, hrecord, hp⟩
    · rcases hfile f b hb with hb | ⟨hmem, hrecord, hp⟩
      · cases hb
      · exact ⟨hp ▸ hmem, hrecord⟩
    · rw [hflash] at hrecord
      exact ⟨hp ▸ hmem, hrecord⟩

end Scanning

/-! ### The law -/

section Law

variable {s : FlashState registered} {pools : Bool → List ℕ}

/-- What an event has to do with the counts. A file that is deleted is one of the data pool, and not
the lowest there. -/
def EventKeepsAccount (B : FlashBounds) (isPersistent : FlashFile registered → Bool)
    (s : FlashState registered) : FlashEvent B isPersistent → Prop
  | .write file data =>
    KeepsAccount isPersistent s file (flashWritePlan B isPersistent s file data 0 false)
  | .writeOffset file data offset =>
    KeepsAccount isPersistent s file (flashWritePlan B isPersistent s file data offset true)
  | .clear file => ∀ b, s.file file = some b → isPersistent file = false ∧ s.lastBase < b
  | .reboot _ _ => True

/-- Every event of a run keeps the counts. -/
def RunKeepsAccount (B : FlashBounds) (isPersistent : FlashFile registered → Bool) :
    FlashState registered → List (FlashEvent B isPersistent) → Prop
  | _, [] => True
  | s, e :: es => EventKeepsAccount B isPersistent s e ∧
    RunKeepsAccount B isPersistent (flashAfter B isPersistent s e) es

/-- The state after some events. -/
def flashRun (B : FlashBounds) (isPersistent : FlashFile registered → Bool)
    (s : FlashState registered) (es : List (FlashEvent B isPersistent)) : FlashState registered :=
  es.foldl (flashAfter B isPersistent) s

/-- The state is sound, and accounted for. -/
def Sound (B : FlashBounds) (isPersistent : FlashFile registered → Bool)
    (s : FlashState registered) : Prop :=
  ∃ pools, Holds B isPersistent s.flash s.file pools ∧ Accounted B s (pools false)

theorem sound_flashBoot (image : FlashImage B isPersistent)
    (indexed : FlashFile registered → Bool) :
    Sound B isPersistent (flashBoot B isPersistent image indexed) := by
  obtain ⟨pools, hpools⟩ := Classical.axiom_of_choice image.pools
  exact ⟨pools, fileScanFlash_spec indexed hpools⟩

/-- One event. -/
theorem Sound.after {e : FlashEvent B isPersistent} (h : Sound B isPersistent s)
    (hkeep : EventKeepsAccount B isPersistent s e) :
    Sound B isPersistent (flashAfter B isPersistent s e) := by
  obtain ⟨pools, hholds, hacc⟩ := h
  cases e with
  | write file data => exact flashWrite_accounted hholds hacc hkeep
  | writeOffset file data offset => exact flashWrite_accounted hholds hacc hkeep
  | clear file =>
    obtain ⟨pools', hholds', hacc', -⟩ := clearFile_accounted hholds hacc hkeep
    exact ⟨pools', hholds', hacc'⟩
  | reboot image indexed => exact sound_flashBoot image indexed

theorem Sound.run {es : List (FlashEvent B isPersistent)} (h : Sound B isPersistent s)
    (hkeep : RunKeepsAccount B isPersistent s es) :
    Sound B isPersistent (flashRun B isPersistent s es) := by
  induction es generalizing s with
  | nil => exact h
  | cons e es ih => exact ih (h.after hkeep.1) hkeep.2

end Law

end FlashRecords

end PicoAll
