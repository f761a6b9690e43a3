import Mathlib

/-!
# Open addressing with tombstones

A table of `n` cells, each empty, deleted or with a live key. A key has its own path through the
table: it starts at a cell and goes on from each cell to a next one. A search follows the path up to
an empty cell (`search`), and a new key goes to the first cell on it that can be had (`findSlot`).

The table is well-formed (`Wf`) if no key is live twice and no empty cell comes before a live key on
its path; deleting a key leaves a tombstone, and keeps that so. In a well-formed table a search finds
exactly the live keys (`Wf.search_eq_some_iff`).

Double hashing gives paths that visit every cell when the step is coprime to the number of cells
(`exists_iterate_advance`).
-/

namespace OpenAddressing

open Function Nat Bool

/-- A cell of a table. -/
inductive Cell (K : Type) where
  | empty
  | deleted
  | live (key : K)
  deriving DecidableEq

/-- Whether a key is live in a cell. -/
def Cell.isLive {K : Type} : Cell K → Bool
  | live _ => true
  | _ => false

variable {K : Type} {n : ℕ}

/-! ### Paths -/

/-- Follow a path for a number of cells, up to an empty one, for the first that is hit. -/
def search (next : Fin n → Fin n) (empty hit : Fin n → Bool) : ℕ → Fin n → Option (Fin n)
  | 0, _ => none
  | fuel + 1, slot =>
    if empty slot then none
    else if hit slot then some slot
    else search next empty hit fuel (next slot)

/-- Follow a path for a number of cells, up to an empty one, for the first that is deleted; if there
is none, it is the empty one. -/
def findSlot (next : Fin n → Fin n) (empty deleted : Fin n → Bool) :
    ℕ → Option (Fin n) → Fin n → Option (Fin n)
  | 0, found, _ => found
  | fuel + 1, found, slot =>
    if empty slot then found.or (some slot)
    else findSlot next empty deleted fuel
      (if deleted slot && found.isNone then some slot else found) (next slot)

variable {next : Fin n → Fin n} {empty hit deleted : Fin n → Bool} {fuel : ℕ} {slot i : Fin n}

/-- **What a search finds** is the first cell of the path that is hit, and no cell up to it is
empty. -/
theorem search_eq_some :
    search next empty hit fuel slot = some i ↔
      ∃ j < fuel, next^[j] slot = i ∧ hit i = true ∧ (∀ j' ≤ j, empty (next^[j'] slot) = false) ∧
        ∀ j' < j, hit (next^[j'] slot) = false := by
  induction fuel generalizing slot with
  | zero => exact ⟨nofun, fun ⟨j, hj, _⟩ ↦ absurd hj (not_lt_zero j)⟩
  | succ fuel ih =>
    rw [search]
    rcases hempty : empty slot with - | -
    · rcases hhit : hit slot with - | -
      · show search next empty hit fuel (next slot) = some i ↔ _
        rw [ih]
        constructor
        · rintro ⟨j, hj, hi, hit', hne, hmiss⟩
          refine ⟨j + 1, by omega, hi, hit', fun j' hj' ↦ ?_, fun j' hj' ↦ ?_⟩
          · cases j' with
            | zero => exact hempty
            | succ j' => exact hne j' (by omega)
          · cases j' with
            | zero => exact hhit
            | succ j' => exact hmiss j' (by omega)
        · rintro ⟨j, hj, hi, hit', hne, hmiss⟩
          cases j with
          | zero =>
            obtain rfl : slot = i := hi
            rw [hhit] at hit'
            cases hit'
          | succ j =>
            exact ⟨j, by omega, hi, hit', fun j' hj' ↦ hne (j' + 1) (by omega),
              fun j' hj' ↦ hmiss (j' + 1) (by omega)⟩
      · show some slot = some i ↔ _
        constructor
        · rintro ⟨⟩
          refine ⟨0, by omega, rfl, hhit, fun j' hj' ↦ ?_, nofun⟩
          obtain rfl : j' = 0 := by omega
          exact hempty
        · rintro ⟨j, hj, hi, -, -, hmiss⟩
          cases j with
          | zero => exact congrArg some hi
          | succ j =>
            have hfirst := hmiss 0 (by omega)
            rw [iterate_zero_apply, hhit] at hfirst
            cases hfirst
    · show none = some i ↔ _
      constructor
      · rintro ⟨⟩
      · rintro ⟨j, hj, -, -, hne, -⟩
        have hfirst := hne 0 (by omega)
        rw [iterate_zero_apply, hempty] at hfirst
        cases hfirst

/-- Something is found if a cell of the path is hit and no cell up to it is empty. -/
theorem search_isSome :
    (search next empty hit fuel slot).isSome = true ↔
      ∃ j < fuel, hit (next^[j] slot) = true ∧ ∀ j' ≤ j, empty (next^[j'] slot) = false := by
  constructor
  · intro h
    obtain ⟨i, hi⟩ := Option.isSome_iff_exists.mp h
    obtain ⟨j, hj, rfl, hhit, hne, -⟩ := search_eq_some.mp hi
    exact ⟨j, hj, hhit, hne⟩
  · rintro ⟨j, hj, hhit, hne⟩
    have hex : ∃ j, hit (next^[j] slot) = true := ⟨j, hhit⟩
    have hle : Nat.find hex ≤ j := Nat.find_min' hex hhit
    refine Option.isSome_iff_exists.mpr ⟨_, search_eq_some.mpr ⟨Nat.find hex, by omega, rfl,
      Nat.find_spec hex, fun j' hj' ↦ hne j' (by omega), fun j' hj' ↦ ?_⟩⟩
    exact eq_false_iff.mpr (Nat.find_min hex hj')

variable {found : Option (Fin n)}

/-- **What is found for a new key** can be had, and no cell before it on the path is empty. -/
theorem findSlot_eq_some (h : findSlot next empty deleted fuel found slot = some i) :
    found = some i ∨ ∃ j < fuel, next^[j] slot = i ∧ (empty i = true ∨ deleted i = true) ∧
      ∀ j' < j, empty (next^[j'] slot) = false := by
  induction fuel generalizing slot found with
  | zero => exact .inl h
  | succ fuel ih =>
    rw [findSlot] at h
    split_ifs at h with hempty hdeleted
    · rcases found with - | found
      · obtain rfl : slot = i := Option.some.inj h
        exact .inr ⟨0, by omega, rfl, .inl hempty, nofun⟩
      · exact .inl h
    all_goals
      -- the rest of the path, which starts behind a cell that is not empty
      have hlater : ∀ {j : ℕ}, (∀ j' < j, empty (next^[j'] (next slot)) = false) →
          ∀ j' < j + 1, empty (next^[j'] slot) = false := by
        intro j hne j' hj'
        cases j' with
        | zero => exact eq_false_iff.mpr hempty
        | succ j' => exact hne j' (by omega)
      rcases ih h with hfound | ⟨j, hj, hi, hhad, hne⟩
    · obtain rfl : slot = i := Option.some.inj hfound
      rw [and_eq_true] at hdeleted
      exact .inr ⟨0, by omega, rfl, .inr hdeleted.1, nofun⟩
    · exact .inr ⟨j + 1, by omega, hi, hhad, hlater hne⟩
    · exact .inl hfound
    · exact .inr ⟨j + 1, by omega, hi, hhad, hlater hne⟩

/-- If a cell of the path can be had, one is found. -/
theorem findSlot_isSome
    (h : found.isSome = true ∨ ∃ j < fuel, empty (next^[j] slot) = true ∨ deleted (next^[j] slot) = true) :
    (findSlot next empty deleted fuel found slot).isSome = true := by
  induction fuel generalizing slot found with
  | zero => exact h.resolve_right fun ⟨j, hj, _⟩ ↦ absurd hj (not_lt_zero j)
  | succ fuel ih =>
    rw [findSlot]
    split_ifs with hempty hdeleted
    · cases found <;> rfl
    · exact ih (.inl rfl)
    · refine ih ?_
      rcases h with hfound | ⟨j, hj, hhad⟩
      · exact .inl hfound
      · cases j with
        | zero =>
          rw [iterate_zero_apply] at hhad
          left
          rw [Option.isSome_iff_ne_none]
          rintro rfl
          exact hdeleted (by rw [hhad.resolve_left hempty]; rfl)
        | succ j => exact .inr ⟨j, by omega, hhad⟩

/-! ### Well-formed tables -/

section Table

variable [DecidableEq K] (start : K → Fin n) (next : K → Fin n → Fin n)

/-- A table in which every live key is found where it is, and nowhere else. -/
structure Wf (table : Fin n → Cell K) : Prop where
  path : ∀ i key, table i = .live key → ∃ j < n, (next key)^[j] (start key) = i ∧
    ∀ j' ≤ j, table ((next key)^[j'] (start key)) ≠ .empty
  unique : ∀ i i' key, table i = .live key → table i' = .live key → i = i'

variable {start next} {table : Fin n → Cell K} {key : K}

omit [DecidableEq K] in
theorem Wf.of_empty : Wf start next fun _ ↦ .empty :=
  ⟨nofun, nofun⟩

/-- **A search finds the live keys.** -/
theorem Wf.search_eq_some_iff (h : Wf start next table) {i : Fin n} :
    search (next key) (fun i ↦ decide (table i = .empty)) (fun i ↦ decide (table i = .live key)) n
      (start key) = some i ↔ table i = .live key := by
  rw [search_eq_some]
  constructor
  · rintro ⟨j, -, -, hhit, -⟩
    exact of_decide_eq_true hhit
  · intro hlive
    obtain ⟨j, hj, hi, hne⟩ := h.path i key hlive
    -- the first cell of the path with the key is the one that has it
    classical
    have hex : ∃ j, table ((next key)^[j] (start key)) = .live key := ⟨j, by rw [hi, hlive]⟩
    have hle : Nat.find hex ≤ j := Nat.find_min' hex (by rw [hi, hlive])
    refine ⟨Nat.find hex, by omega, ?_, decide_eq_true hlive, fun j' hj' ↦ ?_, fun j' hj' ↦ ?_⟩
    · exact h.unique _ _ key (Nat.find_spec hex) hlive
    · exact decide_eq_false (hne j' (by omega))
    · exact decide_eq_false (Nat.find_min hex hj')

omit [DecidableEq K] in
/-- Deleting a key leaves a tombstone. -/
theorem Wf.delete (h : Wf start next table) (i : Fin n) :
    Wf start next (Function.update table i .deleted) := by
  have hkept {i' : Fin n} {key : K} (hlive : Function.update table i .deleted i' = .live key) :
      table i' = .live key := by
    rcases eq_or_ne i' i with rfl | hne
    · rw [update_self] at hlive
      cases hlive
    · rwa [update_of_ne hne] at hlive
  constructor
  · intro i' key hlive
    obtain ⟨j, hj, hi, hne⟩ := h.path i' key (hkept hlive)
    refine ⟨j, hj, hi, fun j' hj' ↦ ?_⟩
    rw [update_apply]
    split_ifs
    · exact nofun
    · exact hne j' hj'
  · exact fun i' i'' key hlive hlive' ↦ h.unique i' i'' key (hkept hlive) (hkept hlive')

omit [DecidableEq K] in
/-- A new key goes to a cell of its path that no empty cell comes before. -/
theorem Wf.insert (h : Wf start next table) {i : Fin n} (hnew : ∀ i', table i' ≠ .live key)
    (hpath : ∃ j < n, (next key)^[j] (start key) = i ∧
      ∀ j' < j, table ((next key)^[j'] (start key)) ≠ .empty) :
    Wf start next (Function.update table i (.live key)) := by
  have hcases {i' : Fin n} {key' : K}
      (hlive : Function.update table i (.live key) i' = .live key') :
      i' = i ∧ key' = key ∨ table i' = .live key' := by
    rcases eq_or_ne i' i with rfl | hne
    · rw [update_self] at hlive
      cases hlive
      exact .inl ⟨rfl, rfl⟩
    · rw [update_of_ne hne] at hlive
      exact .inr hlive
  have hnonempty {i' : Fin n} (hne : i' ≠ i → table i' ≠ .empty) :
      Function.update table i (.live key) i' ≠ .empty := by
    rw [update_apply]
    split_ifs with heq
    · exact nofun
    · exact hne heq
  constructor
  · intro i' key' hlive
    rcases hcases hlive with ⟨rfl, rfl⟩ | hlive
    · obtain ⟨j, hj, hi, hne⟩ := hpath
      refine ⟨j, hj, hi, fun j' hj' ↦ hnonempty fun hne' ↦ hne j' ?_⟩
      rcases hj'.lt_or_eq with hlt | rfl
      · exact hlt
      · exact absurd hi hne'
    · obtain ⟨j, hj, hi, hne⟩ := h.path i' key' hlive
      exact ⟨j, hj, hi, fun j' hj' ↦ hnonempty fun _ ↦ hne j' hj'⟩
  · intro i' i'' key' hlive hlive'
    rcases hcases hlive with ⟨rfl, rfl⟩ | hlive₁ <;> rcases hcases hlive' with ⟨rfl, heq⟩ | hlive₂
    · rfl
    · exact absurd hlive₂ (hnew i'')
    · exact absurd (heq ▸ hlive₁) (hnew i')
    · exact h.unique i' i'' key' hlive₁ hlive₂

end Table

/-! ### The number of live keys -/

/-- The number of live keys. -/
def liveCount (table : Fin n → Cell K) : ℕ :=
  (Finset.univ.filter fun i ↦ (table i).isLive = true).card

variable {table : Fin n → Cell K}

theorem liveCount_empty : liveCount (fun _ : Fin n ↦ (Cell.empty : Cell K)) = 0 := by
  rw [liveCount, Finset.card_eq_zero, Finset.filter_eq_empty_iff]
  exact fun _ _ ↦ false_ne_true

/-- One more live key. -/
theorem liveCount_insert {i : Fin n} {key : K} (h : (table i).isLive = false) :
    liveCount (Function.update table i (.live key)) = liveCount table + 1 := by
  have hfilter : (Finset.univ.filter fun i' ↦
      (Function.update table i (.live key) i').isLive = true) =
      insert i (Finset.univ.filter fun i' ↦ (table i').isLive = true) := by
    ext i'
    rw [Finset.mem_insert, Finset.mem_filter, Finset.mem_filter, update_apply]
    split_ifs with heq
    · exact ⟨fun _ ↦ .inl heq, fun _ ↦ ⟨Finset.mem_univ _, rfl⟩⟩
    · exact ⟨.inr, fun hmem ↦ hmem.resolve_left heq⟩
  rw [liveCount, hfilter, Finset.card_insert_of_notMem, liveCount]
  rw [Finset.mem_filter]
  rintro ⟨-, hlive⟩
  rw [h] at hlive
  cases hlive

/-- One live key less. -/
theorem liveCount_delete {i : Fin n} (h : (table i).isLive = true) :
    liveCount (Function.update table i .deleted) + 1 = liveCount table := by
  obtain ⟨key, hkey⟩ : ∃ key, table i = .live key := by
    rcases hcell : table i with - | - | key
    · rw [hcell] at h
      cases h
    · rw [hcell] at h
      cases h
    · exact ⟨key, rfl⟩
  have hback : Function.update (Function.update table i .deleted) i (.live key) = table := by
    rw [update_idem, ← hkey, update_eq_self]
  have hinsert := @liveCount_insert _ _ (Function.update table i .deleted) i key
    (by rw [update_self]; rfl)
  rw [hback] at hinsert
  exact hinsert.symm

/-- As long as there are fewer live keys than cells, a cell can be had. -/
theorem exists_not_live (h : liveCount table < n) : ∃ i, (table i).isLive = false := by
  by_contra! hall
  have hfilter : (Finset.univ.filter fun i ↦ (table i).isLive = true) = Finset.univ :=
    Finset.filter_true_of_mem fun i _ ↦ not_eq_false _ ▸ hall i
  rw [liveCount, hfilter, Finset.card_univ, Fintype.card_fin] at h
  exact absurd h (lt_irrefl n)

/-! ### Double hashing -/

/-- Go on by a step. -/
def advance (step : ℕ) (slot : Fin n) : Fin n :=
  ⟨(slot.1 + step) % n, Nat.mod_lt _ slot.pos⟩

theorem iterate_advance (step : ℕ) (slot : Fin n) (j : ℕ) :
    ((advance step)^[j] slot).1 = (slot.1 + j * step) % n := by
  induction j with
  | zero => rw [zero_mul, add_zero, mod_eq_of_lt slot.2]; rfl
  | succ j ih =>
    rw [iterate_succ_apply', advance]
    dsimp only
    rw [ih, mod_add_mod, succ_mul, add_assoc]

/-- A path with a step that is coprime to the number of cells visits every cell. -/
theorem exists_iterate_advance {step : ℕ} (hcoprime : Nat.Coprime n step) (slot i : Fin n) :
    ∃ j < n, (advance step)^[j] slot = i := by
  have hinj : Function.Injective fun j : Fin n ↦ (advance step)^[j.1] slot := by
    intro j j' heq
    have hmod : (slot.1 + j.1 * step) % n = (slot.1 + j'.1 * step) % n := by
      rw [← iterate_advance, ← iterate_advance]
      exact congrArg Fin.val heq
    have hmul : j.1 * step ≡ j'.1 * step [MOD n] := Nat.ModEq.add_left_cancel' slot.1 hmod
    have hj : j.1 ≡ j'.1 [MOD n] := Nat.ModEq.cancel_right_of_coprime hcoprime hmul
    exact Fin.ext (Nat.ModEq.eq_of_lt_of_lt hj j.2 j'.2)
  obtain ⟨j, hj⟩ := Finite.surjective_of_injective hinj i
  exact ⟨j.1, j.2, hj⟩

end OpenAddressing
