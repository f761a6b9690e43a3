import Mathlib

/-!
# A list of entries as a map

A component that keeps a map as a list of entries, in whatever order, represents it if every key has
one entry (`Represents`). The representation does not depend on the order; taking an entry out or
putting one in at any place is the update of the map at its key, and the entry of a key splits the
list into what stands before it and what stands behind.
-/

namespace ListMap

open List Function

variable {ε κ α : Type} (key : ε → κ) (val : ε → α)

/-- The entries are those of the map, one for each key. -/
structure Represents (m : κ → Option α) (es : List ε) : Prop where
  /-- No key has two entries. -/
  nodup : (es.map key).Nodup
  /-- The entries of the map are in the list, and no others. -/
  mem_iff : ∀ k a, m k = some a ↔ ∃ e ∈ es, key e = k ∧ val e = a

variable {key val} {m : κ → Option α} {es es' pre post : List ε} {e : ε}

theorem Represents.nil : Represents key val (fun _ ↦ none) [] :=
  ⟨nodup_nil, by simp⟩

theorem Represents.perm (h : Represents key val m es) (hperm : es.Perm es') :
    Represents key val m es' :=
  ⟨(hperm.map _).nodup_iff.mp h.nodup, fun k a ↦ by simp [h.mem_iff, hperm.mem_iff]⟩

/-- No entry has a key that is not in the map. -/
theorem Represents.key_ne (h : Represents key val m es) {k : κ} (hnone : m k = none) :
    ∀ e ∈ es, key e ≠ k := by
  intro e he heq
  have hsome := (h.mem_iff k (val e)).mpr ⟨e, he, heq, rfl⟩
  rw [hnone] at hsome
  cases hsome

/-- The entry of a key, and what stands before and behind it. -/
theorem Represents.split (h : Represents key val m es) {k : κ} {a : α} (hsome : m k = some a) :
    ∃ pre e post, es = pre ++ e :: post ∧ key e = k ∧ val e = a ∧ ∀ e' ∈ pre, key e' ≠ key e := by
  obtain ⟨e, he, hkey, hval⟩ := (h.mem_iff k a).mp hsome
  obtain ⟨pre, post, rfl⟩ := append_of_mem he
  have hnodup := h.nodup
  rw [map_append, map_cons] at hnodup
  refine ⟨pre, e, post, rfl, hkey, hval, fun e' he' heq ↦ ?_⟩
  exact (nodup_append.mp hnodup).2.2 _ (mem_map_of_mem he') _ (mem_cons_self ..) heq

variable [DecidableEq κ]

/-- One entry more. -/
theorem Represents.cons (h : Represents key val m es) (hnone : m (key e) = none) :
    Represents key val (Function.update m (key e) (some (val e))) (e :: es) := by
  have hother := h.key_ne hnone
  refine ⟨?_, fun k a ↦ ?_⟩
  · rw [map_cons, nodup_cons]
    refine ⟨fun hmem ↦ ?_, h.nodup⟩
    obtain ⟨e', he', heq⟩ := mem_map.mp hmem
    exact hother e' he' heq
  · rcases eq_or_ne k (key e) with rfl | hk
    · simp only [update_self, Option.some.injEq, mem_cons, exists_eq_or_imp, true_and]
      exact ⟨.inl, fun hor ↦ hor.resolve_right fun ⟨e', he', heq, _⟩ ↦ hother e' he' heq⟩
    · simp [update_of_ne hk, h.mem_iff, Ne.symm hk]

/-- One entry less. -/
theorem Represents.of_cons (h : Represents key val m (e :: es)) :
    Represents key val (Function.update m (key e) none) es := by
  obtain ⟨hnot, hnodup⟩ := nodup_cons.mp (map_cons ▸ h.nodup)
  refine ⟨hnodup, fun k a ↦ ?_⟩
  rcases eq_or_ne k (key e) with rfl | hk
  · simp only [update_self, reduceCtorEq, false_iff]
    exact fun ⟨e', he', heq, _⟩ ↦ hnot (heq ▸ mem_map_of_mem he')
  · rw [update_of_ne hk, h.mem_iff]
    simp [Ne.symm hk]

/-- An entry is taken out. -/
theorem Represents.erase (h : Represents key val m (pre ++ e :: post)) :
    Represents key val (Function.update m (key e) none) (pre ++ post) :=
  (h.perm perm_middle).of_cons

/-- An entry is put in. -/
theorem Represents.insert (h : Represents key val m (pre ++ post)) (hnone : m (key e) = none) :
    Represents key val (Function.update m (key e) (some (val e))) (pre ++ e :: post) :=
  (h.cons hnone).perm perm_middle.symm

/-- An entry is put in, after one with the same key has been taken out. -/
theorem Represents.replace (h : Represents key val m (pre ++ e :: post)) (e' : ε)
    (hkey : key e' = key e) {pre' post' : List ε} (heq : pre ++ post = pre' ++ post') :
    Represents key val (Function.update m (key e) (some (val e'))) (pre' ++ e' :: post') := by
  have herase := h.erase
  rw [heq, ← hkey] at herase
  have hinsert := herase.insert (e := e') (update_self ..)
  rwa [update_idem, hkey] at hinsert

end ListMap
