import PicoAll.Lib.WriteBack

/-!
# Machines

A `Machine` is a device that runs commands. The environment decides what becomes of the writes of a
command, when a file reaches the medium, and when the power is lost; a loss of power may bring older
contents back.

What is known of every content that may be found of a file (`Device.Always`) survives whatever the
environment does; what is known of a run (`Along.of_step`) follows from what is known of a
step.
-/

namespace FaultProgram

variable {ι α ρ ε κ β : Type}

/-! ### What may be found of a file -/

/-- Whatever may be found of a file satisfies `P`. -/
def Device.Always (d : Device ι α ρ) (i : ι) (P : α → Prop) : Prop :=
  ∀ a ∈ d.files.view i :: d.files.stale i, P a

namespace Device.Always

variable {d d' : Device ι α ρ} {i j : ι} {P P' : α → Prop} {a : α}

theorem read (h : d.Always i P) : P (d.read i) :=
  h _ (List.mem_cons_self ..)

theorem of_files (h : d.Always i P) (hfiles : d'.files = d.files) : d'.Always i P := by
  rw [Always, hfiles]
  exact h

theorem of_synced (h : P (d.read i)) (hstale : d.files.stale i = []) : d.Always i P := by
  intro a ha
  rw [hstale, List.mem_singleton] at ha
  exact ha ▸ h

/-- What is found after a loss of power. -/
theorem powerCut (h : d.Always i P) (keep : ι → ℕ) : P ((d.files.powerCut keep).view i) :=
  h _ (d.files.powerCut_view_mem keep i)

variable [DecidableEq ι]

theorem attempted (h : d.Always i P) (j : ι) : (d.attempted j).Always i P :=
  h.of_files rfl

/-- A write of another file, or of a content that satisfies `P`. -/
theorem written (h : d.Always i P) (ha : i = j → P a) : (d.written j a).Always i P := by
  intro b hb
  rcases eq_or_ne i j with rfl | hij
  · change b ∈ (d.files.write i a).view i :: (d.files.write i a).stale i at hb
    rw [WriteBack.write_view_self, WriteBack.write_stale_self, List.mem_cons] at hb
    rcases hb with rfl | hb
    · exact ha rfl
    · exact h b hb
  · change b ∈ (d.files.write j a).view i :: (d.files.write j a).stale i at hb
    rw [WriteBack.write_view_of_ne hij, WriteBack.write_stale_of_ne hij] at hb
    exact h b hb

theorem synced (h : d.Always i P) (j : ι) : (d.synced j).Always i P :=
  of_synced h.read rfl

theorem flush {files : WriteBack ι α} (h : d.Always i P) (hfiles : d'.files = files.flush j)
    (hd : d.files = files) : d'.Always i P := by
  intro a ha
  rw [hfiles, ← hd] at ha
  exact h a (WriteBack.mem_contents_of_flush ha)

end Device.Always

/-! ### Machines -/

/-- A device that runs commands. -/
structure Machine (ι α ρ ε κ β : Type) where
  /-- What a command does. -/
  command : κ → Prog (Device ι α ρ) ε β
  /-- There is no power. -/
  isOff : ρ → Bool
  /-- The memory when the power has been lost. -/
  powerDown : ρ → ρ
  /-- The memory when it has come back. -/
  restart : ρ → ρ

/-- What happens to a machine. -/
inductive MachineEvent (ι κ : Type) where
  /-- A command. `faults` is what the environment does to the writes of each file. -/
  | command (c : κ) (faults : ι → List Outcome)
  /-- A file reaches the medium. -/
  | flush (i : ι)
  /-- The power is lost, unless it is already, and comes back: of each file what was `keep` contents
  back is found. -/
  | reboot (keep : ι → ℕ)

namespace Machine

variable [DecidableEq ι] (M : Machine ι α ρ ε κ β)

/-- What a program returned, unless the power was lost, and the device then. -/
def perform (m : Prog (Device ι α ρ) ε β) (d : Device ι α ρ) :
    Option (Except ε β) × Device ι α ρ :=
  match m.result d [] with
  | .ok b => (some (.ok b), m.final d [])
  | .error (.code r) => (some (.error r), m.final d [])
  | .error .cut => (none, (m.final d []).setRam M.powerDown)

/-- What is answered, and the device afterwards. -/
def step (d : Device ι α ρ) : MachineEvent ι κ → Option (Except ε β) × Device ι α ρ
  | .command c faults =>
    if M.isOff d.ram then (none, d) else M.perform (M.command c) { d with faults := faults }
  | .flush i => (none, if M.isOff d.ram then d else { d with files := d.files.flush i })
  | .reboot keep =>
    (none, ⟨d.files.powerCut keep, d.faults, M.restart d.ram⟩)

/-- The device after a run. -/
def run : Device ι α ρ → List (MachineEvent ι κ) → Device ι α ρ
  | d, [] => d
  | d, event :: events => run (M.step d event).2 events

/-- Every step of a run meets `P`. -/
def Along (P : Device ι α ρ → MachineEvent ι κ → Prop) :
    Device ι α ρ → List (MachineEvent ι κ) → Prop
  | _, [] => True
  | d, event :: events => P d event ∧ Along P (M.step d event).2 events

variable {M} {m : Prog (Device ι α ρ) ε β} {d : Device ι α ρ}
  {P : Option (Except ε β) → Device ι α ρ → Prop}

variable {Q : β → Device ι α ρ → Prop} {E : Exit ε → Device ι α ρ → Prop}
  {faults : ι → List Outcome}

omit [DecidableEq ι] in
/-- What holds of the answer and of the device after a program. -/
theorem perform_of_wp (h : wp (fun _ ↦ True) m Q E d) (hok : ∀ b d', Q b d' → P (some (.ok b)) d')
    (herror : ∀ r d', E (.code r) d' → P (some (.error r)) d')
    (hcut : ∀ d', E .cut d' → P none (d'.setRam M.powerDown)) :
    P (M.perform m d).1 (M.perform m d).2 := by
  rw [perform]
  rcases run_of_wp h (fun o (_ : o ∈ []) ↦ trivial) with ⟨b, hb, hQ⟩ | ⟨e, he, hE⟩
  · rw [hb]
    exact hok b _ hQ
  · rw [he]
    rcases e with r | -
    · exact herror r _ hE
    · exact hcut _ hE

/-- What holds of the answer and of the device after a command. -/
theorem step_command {c : κ} (hoff : M.isOff d.ram = true → P none d)
    (h : M.isOff d.ram = false → wp (fun _ ↦ True) (M.command c) Q E { d with faults := faults })
    (hok : ∀ b d', Q b d' → P (some (.ok b)) d')
    (herror : ∀ r d', E (.code r) d' → P (some (.error r)) d')
    (hcut : ∀ d', E .cut d' → P none (d'.setRam M.powerDown)) :
    P (M.step d (.command c faults)).1 (M.step d (.command c faults)).2 := by
  rw [step]
  rcases hpower : M.isOff d.ram with - | -
  · exact perform_of_wp (h hpower) hok herror hcut
  · exact hoff hpower

/-- A command that is not answered leaves a device without power. -/
theorem isOff_of_unanswered (hdown : ∀ ram, M.isOff (M.powerDown ram) = true) {c : κ}
    (h : (M.step d (.command c faults)).1 = none) :
    M.isOff (M.step d (.command c faults)).2.ram = true := by
  rw [step] at h ⊢
  split_ifs at h ⊢ with hoff
  · exact hoff
  · rw [perform] at h ⊢
    rcases hresult : (M.command c).result { d with faults := faults } [] with (r | -) | b <;>
      rw [hresult] at h
    · cases h
    · exact hdown _
    · cases h

/-- **What every step does, it does along a run**, as long as an invariant holds. -/
theorem Along.of_step {I : Device ι α ρ → Prop} {P R : Device ι α ρ → MachineEvent ι κ → Prop}
    (hstep : ∀ d event, I d → P d event → I (M.step d event).2 ∧ R d event)
    {events : List (MachineEvent ι κ)} (hI : I d) (h : M.Along P d events) :
    M.Along R d events := by
  induction events generalizing d with
  | nil => trivial
  | cons event events ih =>
    obtain ⟨hnext, hR⟩ := hstep d event hI h.1
    exact ⟨hR, ih hnext h.2⟩

end Machine

end FaultProgram
