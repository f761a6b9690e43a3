import PicoAll.Lib.FaultProgram

/-!
# Files behind a write-back cache

A write changes at once what a program reads back, and the medium some time later. Until then a loss
of power may bring back any of the older contents, of each file on its own: nothing is assumed about
the order in which the files reach the medium.

`WriteBack` is the cache, `Device` adds what the environment does to the writes of each file and the
memory that a loss of power clears. The outcomes of the writes are queued for each file, so that
what is asked of the writes of one file says nothing about those of another.
-/

namespace FaultProgram

open Function List

/-- Files of contents `α`, as they are read and as the medium may still have them. -/
structure WriteBack (ι α : Type) where
  /-- The content that is read. -/
  view : ι → α
  /-- The older contents that the medium may still have, the latest first. -/
  stale : ι → List α

namespace WriteBack

variable {ι α : Type} [DecidableEq ι]

/-- Write a file. -/
def write (c : WriteBack ι α) (i : ι) (a : α) : WriteBack ι α where
  view := Function.update c.view i a
  stale := Function.update c.stale i (c.view i :: c.stale i)

/-- A file reaches the medium. -/
def flush (c : WriteBack ι α) (i : ι) : WriteBack ι α :=
  { c with stale := Function.update c.stale i [] }

/-- All files reach the medium. -/
def flushAll (c : WriteBack ι α) : WriteBack ι α :=
  { c with stale := fun _ ↦ [] }

/-- The power is lost: of each file what is `keep` contents back is found, the present one if there
are not so many. -/
def powerCut (c : WriteBack ι α) (keep : ι → ℕ) : WriteBack ι α where
  view i := (c.view i :: c.stale i).getD (keep i) (c.view i)
  stale _ := []

@[simp]
theorem write_view_self (c : WriteBack ι α) (i : ι) (a : α) : (c.write i a).view i = a :=
  update_self ..

variable {c : WriteBack ι α} {i : ι}

theorem write_view_of_ne {j : ι} {a : α} (h : j ≠ i) : (c.write i a).view j = c.view j :=
  update_of_ne h ..

theorem write_stale_self (c : WriteBack ι α) (i : ι) (a : α) :
    (c.write i a).stale i = c.view i :: c.stale i :=
  update_self ..

theorem write_stale_of_ne {j : ι} {a : α} (h : j ≠ i) : (c.write i a).stale j = c.stale j :=
  update_of_ne h ..

/-- What may be found after a file has reached the medium could be before. -/
theorem mem_contents_of_flush {j : ι} {a : α} (h : a ∈ (c.flush i).view j :: (c.flush i).stale j) :
    a ∈ c.view j :: c.stale j := by
  rcases eq_or_ne j i with rfl | hne
  · rw [show (c.flush j).stale j = [] from update_self .., mem_singleton] at h
    exact h ▸ mem_cons_self ..
  · rwa [show (c.flush i).stale j = c.stale j from update_of_ne hne ..] at h

omit [DecidableEq ι] in
/-- What is found after a loss of power was in the file before. -/
theorem powerCut_view_mem (c : WriteBack ι α) (keep : ι → ℕ) (i : ι) :
    (c.powerCut keep).view i ∈ c.view i :: c.stale i := by
  show (c.view i :: c.stale i).getD (keep i) (c.view i) ∈ _
  rw [getD_eq_getElem?_getD]
  rcases h : (c.view i :: c.stale i)[keep i]? with - | a
  · exact mem_cons_self ..
  · exact mem_of_getElem? h

omit [DecidableEq ι] in
theorem powerCut_view_of_synced (h : c.stale i = []) (keep : ι → ℕ) :
    (c.powerCut keep).view i = c.view i := by
  simpa [h] using c.powerCut_view_mem keep i

end WriteBack

/-- A device: its files, what the environment does to the next writes of each, and its memory. -/
structure Device (ι α ρ : Type) where
  files : WriteBack ι α
  /-- The outcomes of the writes to come; once they run out, every write succeeds. -/
  faults : ι → List Outcome
  /-- The memory. -/
  ram : ρ

namespace Device

variable {ι α ρ : Type} [DecidableEq ι]

/-- What is read from a file. -/
def read (d : Device ι α ρ) (i : ι) : α :=
  d.files.view i

/-- The outcome of the next write of a file. -/
def outcome (d : Device ι α ρ) (i : ι) : Outcome :=
  (d.faults i).headD .ok

/-- The next write of a file is over. -/
def attempted (d : Device ι α ρ) (i : ι) : Device ι α ρ :=
  { d with faults := Function.update d.faults i (d.faults i).tail }

/-- A file is written. -/
def written (d : Device ι α ρ) (i : ι) (a : α) : Device ι α ρ :=
  { d.attempted i with files := d.files.write i a }

/-- All files reach the medium, and the next write of a file is over. -/
def synced (d : Device ι α ρ) (i : ι) : Device ι α ρ :=
  { d.attempted i with files := d.files.flushAll }

/-- The memory changes. -/
def setRam (d : Device ι α ρ) (f : ρ → ρ) : Device ι α ρ :=
  { d with ram := f d.ram }

variable {i : ι}

theorem outcome_attempted_of_ne {d : Device ι α ρ} {j : ι} (h : j ≠ i) :
    (d.attempted i).outcome j = d.outcome j := by
  rw [outcome, show (d.attempted i).faults j = d.faults j from update_of_ne h ..]
  rfl

theorem outcome_written_of_ne {d : Device ι α ρ} {j : ι} {a : α} (h : j ≠ i) :
    (d.written i a).outcome j = d.outcome j :=
  outcome_attempted_of_ne h

@[simp]
theorem read_written_self (d : Device ι α ρ) (i : ι) (a : α) : (d.written i a).read i = a :=
  d.files.write_view_self i a

theorem read_written_of_ne {d : Device ι α ρ} {j : ι} {a : α} (h : j ≠ i) :
    (d.written i a).read j = d.read j :=
  WriteBack.write_view_of_ne h

@[simp]
theorem read_synced (d : Device ι α ρ) (i j : ι) : (d.synced i).read j = d.read j :=
  rfl

omit [DecidableEq ι] in
@[simp]
theorem ram_setRam (d : Device ι α ρ) (f : ρ → ρ) : (d.setRam f).ram = f d.ram :=
  rfl

/-- The writes of a file are left alone. -/
def Undisturbed (d : Device ι α ρ) (i : ι) : Prop :=
  ∀ o ∈ d.faults i, o = .ok

omit [DecidableEq ι] in
theorem Undisturbed.outcome_eq {d : Device ι α ρ} (h : d.Undisturbed i) : d.outcome i = .ok := by
  unfold outcome
  rcases hq : d.faults i with - | ⟨o, os⟩
  · rfl
  · exact h o (hq ▸ mem_cons_self ..)

theorem Undisturbed.attempted {d : Device ι α ρ} (h : d.Undisturbed i) (j : ι) :
    (d.attempted j).Undisturbed i := by
  intro o ho
  change o ∈ Function.update d.faults j (d.faults j).tail i at ho
  rcases eq_or_ne i j with rfl | hij
  · rw [update_self] at ho
    exact h o (mem_of_mem_tail ho)
  · rw [update_of_ne hij] at ho
    exact h o ho

end Device

/-! ### Programs over a device -/

variable {ι α ρ ε : Type} [DecidableEq ι]

/-- Write a file, reporting `err` when it goes wrong. -/
def put (err : ε) (i : ι) (a : α) : Prog (Device ι α ρ) ε Unit :=
  fun w ↦
    match w.state.outcome i with
    | .ok => (.ok (), { w with state := w.state.written i a })
    | .fail => (.error (.code err), { w with state := w.state.attempted i })
    | .late => (.error (.code err), { w with state := w.state.written i a })
    | .cut => (.error .cut, { w with state := w.state.attempted i })

variable {A : Outcome → Prop} {E : Exit ε → Device ι α ρ → Prop} {d : Device ι α ρ}
  {Q : Unit → Device ι α ρ → Prop}

theorem wp_put {err : ε} {i : ι} {a : α} (hok : d.outcome i = .ok → Q () (d.written i a))
    (hfail : d.outcome i = .fail → E (.code err) (d.attempted i))
    (hlate : d.outcome i = .late → E (.code err) (d.written i a))
    (hcut : d.outcome i = .cut → E .cut (d.attempted i)) : wp A (put err i a) Q E d := by
  intro os hos
  rcases hout : d.outcome i with _ | _ | _ | _ <;>
    simp only [Prog.exec, ExceptT.run, StateT.run, put, hout]
  · exact ⟨hos, hok hout⟩
  · exact ⟨hos, hfail hout⟩
  · exact ⟨hos, hlate hout⟩
  · exact ⟨hos, hcut hout⟩

/-- The caller goes on whether the write succeeded or not. -/
def putIgnoring (err : ε) (i : ι) (a : α) : Prog (Device ι α ρ) ε Unit :=
  onError (put err i a) fun _ ↦ pure ()

theorem wp_putIgnoring {err : ε} {i : ι} {a : α}
    (hwritten : d.outcome i = .ok ∨ d.outcome i = .late → Q () (d.written i a))
    (hfail : d.outcome i = .fail → Q () (d.attempted i))
    (hcut : d.outcome i = .cut → E .cut (d.attempted i)) : wp A (putIgnoring err i a) Q E d :=
  wp_onError (wp_put (fun h ↦ hwritten (.inl h)) (fun h ↦ wp_pure (hfail h))
    (fun h ↦ wp_pure (hwritten (.inr h))) hcut)

/-- All files reach the medium, reporting `err` when it goes wrong. What becomes of it is queued with
the writes of `i`. -/
def sync (err : ε) (i : ι) : Prog (Device ι α ρ) ε Unit :=
  fun w ↦
    match w.state.outcome i with
    | .ok => (.ok (), { w with state := w.state.synced i })
    | .fail => (.error (.code err), { w with state := w.state.attempted i })
    | .late => (.error (.code err), { w with state := w.state.synced i })
    | .cut => (.error .cut, { w with state := w.state.attempted i })

theorem wp_sync {err : ε} {i : ι} (hok : d.outcome i = .ok → Q () (d.synced i))
    (hfail : d.outcome i = .fail → E (.code err) (d.attempted i))
    (hlate : d.outcome i = .late → E (.code err) (d.synced i))
    (hcut : d.outcome i = .cut → E .cut (d.attempted i)) : wp A (sync err i) Q E d := by
  intro os hos
  rcases hout : d.outcome i with _ | _ | _ | _ <;>
    simp only [Prog.exec, ExceptT.run, StateT.run, sync, hout]
  · exact ⟨hos, hok hout⟩
  · exact ⟨hos, hfail hout⟩
  · exact ⟨hos, hlate hout⟩
  · exact ⟨hos, hcut hout⟩

/-- Run `m` and hand on what it returned, an error code included. -/
def resultOf {β : Type} (m : Prog (Device ι α ρ) ε β) : Prog (Device ι α ρ) ε (Except ε β) :=
  onError (do return .ok (← m)) fun r ↦ pure (.error r)

omit [DecidableEq ι] in
theorem wp_resultOf {β : Type} {m : Prog (Device ι α ρ) ε β} {Q : Except ε β → Device ι α ρ → Prop}
    (h : wp A m (fun b d' ↦ Q (.ok b) d') (fun e d' ↦ match e with
      | .code r => Q (.error r) d'
      | .cut => E .cut d') d) : wp A (resultOf m) Q E d := by
  refine wp_onError (wp_seq h (fun b d' hb ↦ wp_pure hb) fun e d' he ↦ ?_)
  rcases e with r | -
  · exact wp_pure he
  · exact he

/-! ### What a program keeps -/

section Keeps

variable {β : Type} {I : Device ι α ρ → Prop} {R : β → Prop}

/-- A write keeps what survives it. -/
theorem Keeps.put {err : ε} {i : ι} {a : α} (hattempted : ∀ d, I d → I (d.attempted i))
    (hwritten : ∀ d, I d → I (d.written i a)) : Preserves I (FaultProgram.put err i a) :=
  fun _ d h ↦ wp_put (fun _ ↦ ⟨hwritten d h, trivial⟩) (fun _ ↦ hattempted d h)
    (fun _ ↦ hwritten d h) fun _ ↦ hattempted d h

theorem Keeps.putIgnoring {err : ε} {i : ι} {a : α} (hattempted : ∀ d, I d → I (d.attempted i))
    (hwritten : ∀ d, I d → I (d.written i a)) : Preserves I (FaultProgram.putIgnoring err i a) :=
  .onError (.put hattempted hwritten) fun _ ↦ .pure trivial

omit [DecidableEq ι] in
theorem Keeps.resultOf {m : Prog (Device ι α ρ) ε β} (hm : Keeps I R m) :
    Preserves I (FaultProgram.resultOf m) := by
  intro A d h
  refine wp_resultOf (wp_mono (hm A d h) (fun _ _ h ↦ ⟨h.1, trivial⟩) fun e d' h ↦ ?_)
  rcases e with r | -
  · exact ⟨h, trivial⟩
  · exact h

end Keeps

end FaultProgram
