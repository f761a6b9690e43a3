import Mathlib

/-!
# Chains of records in an address space

Records lie below an address, one under the other, and are linked both ways: the word at the top, and
the first word of each record, is the address of the record below (0 at the end), and the second word
of a record says where that link is.

`Linked` is the chain of links and `Below` says that the records do not overlap. A record is put into
a gap (`Linked.insert`, `Below.insert`) and taken out (`Linked.erase`, `Below.erase`), and `lastOf`,
where the chain ends, is the lowest of its records (`lastOf_insert`, `lastOf_erase`).
-/

namespace LinkedChain

open List

/-! ### Links -/

/-- The records from an address on, linked both ways. -/
def Linked (next prev : ℕ → ℕ) : ℕ → List ℕ → Prop
  | a, [] => next a = 0
  | a, b :: l => next a = b ∧ prev b = a ∧ Linked next prev b l

/-- The links with one of them changed. -/
abbrev link (f : ℕ → ℕ) (a v : ℕ) : ℕ → ℕ :=
  Function.update f a v

/-- The links of the second words with that of the record at `b` changed, if there is one. -/
def relink (prev : ℕ → ℕ) (b a : ℕ) : ℕ → ℕ :=
  if b ≠ 0 then link prev b a else prev

/-- The last of some records, or the address they are below. -/
def lastOf : ℕ → List ℕ → ℕ
  | a, [] => a
  | _, b :: l => lastOf b l

variable {next prev next' prev' : ℕ → ℕ} {a x : ℕ} {l l₁ l₂ : List ℕ}

theorem link_self (f : ℕ → ℕ) (a v : ℕ) : link f a v a = v :=
  Function.update_self _ _ _

variable {b : ℕ}

theorem link_of_ne {f : ℕ → ℕ} {a v : ℕ} (h : b ≠ a) : link f a v b = f b :=
  Function.update_of_ne h _ _

theorem relink_zero (prev : ℕ → ℕ) (a : ℕ) : relink prev 0 a = prev :=
  if_neg (not_not.mpr rfl)

theorem relink_self (h : b ≠ 0) : relink prev b a b = a := by
  rw [relink, if_pos h]
  exact link_self _ _ _

theorem relink_of_ne {c : ℕ} (h : c ≠ b) : relink prev b a c = prev c := by
  rw [relink]
  split_ifs
  · exact link_of_ne h
  · rfl

theorem lastOf_mem : lastOf a l ∈ a :: l := by
  induction l generalizing a with
  | nil => exact mem_cons_self
  | cons b l ih => exact mem_cons_of_mem _ ih

theorem lastOf_append : lastOf a (l₁ ++ l₂) = lastOf (lastOf a l₁) l₂ := by
  induction l₁ generalizing a with
  | nil => rfl
  | cons b l₁ ih => exact ih

/-- A chain depends on the links of its records only. -/
theorem Linked.congr (h : Linked next prev a l) (hnext : ∀ b ∈ a :: l, next' b = next b)
    (hprev : ∀ b ∈ l, prev' b = prev b) : Linked next' prev' a l := by
  induction l generalizing a with
  | nil => exact (hnext a mem_cons_self).trans h
  | cons b l ih =>
    obtain ⟨hb, ha, hl⟩ := h
    exact ⟨(hnext a mem_cons_self).trans hb, (hprev b mem_cons_self).trans ha,
      ih hl (fun c hc ↦ hnext c (mem_cons_of_mem _ hc)) fun c hc ↦ hprev c (mem_cons_of_mem _ hc)⟩

/-- Behind some records of a chain is the next one, or nothing. -/
theorem Linked.next_lastOf (h : Linked next prev a (l₁ ++ l₂)) :
    next (lastOf a l₁) = l₂.headD 0 := by
  induction l₁ generalizing a with
  | nil =>
    cases l₂ with
    | nil => exact h
    | cons b l₂ => exact h.1
  | cons b l₁ ih => exact ih h.2.2

theorem Linked.prev_lastOf (h : Linked next prev a (l₁ ++ x :: l₂)) : prev x = lastOf a l₁ := by
  induction l₁ generalizing a with
  | nil => exact h.2.1
  | cons b l₁ ih => exact ih h.2.2

theorem Linked.next_mid (h : Linked next prev a (l₁ ++ x :: l₂)) : next x = l₂.headD 0 := by
  rw [append_cons] at h
  have hx := h.next_lastOf
  rwa [lastOf_append] at hx

/-- What heads the rest of a chain is not among the records before. -/
theorem ne_headD (hb : b ∉ l) (hzero : b ≠ 0) : b ≠ l.headD 0 := by
  cases l with
  | nil => exact hzero
  | cons c l => exact fun h ↦ hb (h ▸ mem_cons_self)

/-- **A record is linked in**, behind some records of the chain. -/
theorem Linked.insert (h : Linked next prev a (l₁ ++ l₂)) (hnodup : (a :: (l₁ ++ l₂)).Nodup)
    (hx : x ∉ a :: (l₁ ++ l₂)) (hpos : ∀ b ∈ l₁ ++ l₂, b ≠ 0) :
    Linked (link (link next x (next (lastOf a l₁))) (lastOf a l₁) x)
      (relink (link prev x (lastOf a l₁)) (next (lastOf a l₁)) x) a (l₁ ++ x :: l₂) := by
  induction l₁ generalizing a with
  | nil =>
    have hxa : x ≠ a := fun he ↦ hx (he ▸ mem_cons_self)
    cases l₂ with
    | nil =>
      refine ⟨link_self _ _ _, ?_, ?_⟩
      · rw [lastOf, show next a = 0 from h, relink_zero]
        exact link_self _ _ _
      · rw [lastOf, show next a = 0 from h]
        exact (link_of_ne hxa).trans (link_self _ _ _)
    | cons b l₂ =>
      obtain ⟨hb, -, hl⟩ := h
      obtain ⟨ha, hbl⟩ := nodup_cons.mp hnodup
      have hxb : x ≠ b := fun he ↦ hx (he ▸ mem_cons_of_mem _ mem_cons_self)
      have hne : ∀ c ∈ b :: l₂, c ≠ x := fun c hc he ↦ hx (he ▸ mem_cons_of_mem _ hc)
      rw [lastOf, hb]
      refine ⟨link_self _ _ _, ?_, ?_, ?_, hl.congr (fun c hc ↦ ?_) fun c hc ↦ ?_⟩
      · exact (relink_of_ne hxb).trans (link_self _ _ _)
      · exact (link_of_ne hxa).trans (link_self _ _ _)
      · exact relink_self (hpos b mem_cons_self)
      · have hca : c ≠ a := fun he ↦ ha (he ▸ hc)
        exact (link_of_ne hca).trans (link_of_ne (hne c hc))
      · have hcb : c ≠ b := fun he ↦ (nodup_cons.mp hbl).1 (he ▸ hc)
        exact (relink_of_ne hcb).trans (link_of_ne (hne c (mem_cons_of_mem _ hc)))
  | cons b l₁ ih =>
    obtain ⟨hb, ha, hl⟩ := h
    obtain ⟨hnotin, hnodup⟩ := nodup_cons.mp hnodup
    have hxa : x ≠ a := fun he ↦ hx (he ▸ mem_cons_self)
    have hxb : x ≠ b := fun he ↦ hx (he ▸ mem_cons_of_mem _ mem_cons_self)
    have hlast : a ≠ lastOf b l₁ := fun he ↦ hnotin (he ▸ by
      have hmem := @lastOf_mem b l₁
      exact mem_cons.mpr ((mem_cons.mp hmem).imp_right (mem_append_left _)))
    have hhead : b ≠ next (lastOf b l₁) := by
      rw [hl.next_lastOf]
      exact ne_headD (fun hmem ↦ (nodup_cons.mp hnodup).1 (mem_append_right _ hmem))
        (hpos b mem_cons_self)
    refine ⟨?_, ?_, ih hl hnodup (fun hmem ↦ hx (mem_cons_of_mem _ hmem))
      fun c hc ↦ hpos c (mem_cons_of_mem _ hc)⟩
    · exact (link_of_ne hlast).trans ((link_of_ne hxa.symm).trans hb)
    · exact (relink_of_ne hhead).trans ((link_of_ne hxb.symm).trans ha)

/-- **A record is taken out** of a chain. -/
theorem Linked.erase (h : Linked next prev a (l₁ ++ x :: l₂))
    (hnodup : (a :: (l₁ ++ x :: l₂)).Nodup) (hpos : ∀ b ∈ l₁ ++ x :: l₂, b ≠ 0) :
    Linked (link (link next (prev x) (next x)) x 0)
      (link (relink prev (next x) (prev x)) x 0) a (l₁ ++ l₂) := by
  have hprev := h.prev_lastOf
  have hnext := h.next_mid
  induction l₁ generalizing a with
  | nil =>
    obtain ⟨-, -, hl⟩ := h
    obtain ⟨ha, hnodup⟩ := nodup_cons.mp hnodup
    have hax : a ≠ x := fun he ↦ ha (he ▸ mem_cons_self)
    obtain ⟨hx, hnodup⟩ := nodup_cons.mp hnodup
    rw [hprev, hnext, lastOf]
    cases l₂ with
    | nil => exact (link_of_ne hax).trans (link_self _ _ _)
    | cons b l₂ =>
      have hbx : b ≠ x := fun he ↦ hx (he ▸ mem_cons_self)
      refine ⟨(link_of_ne hax).trans (link_self _ _ _), ?_, hl.2.2.congr (fun c hc ↦ ?_)
        fun c hc ↦ ?_⟩
      · exact (link_of_ne hbx).trans (relink_self (hpos b (mem_cons_of_mem _ mem_cons_self)))
      · have hcx : c ≠ x := fun he ↦ hx (he ▸ hc)
        have hca : c ≠ a := fun he ↦ ha (he ▸ mem_cons_of_mem _ hc)
        exact (link_of_ne hcx).trans (link_of_ne hca)
      · have hcx : c ≠ x := fun he ↦ hx (he ▸ mem_cons_of_mem _ hc)
        have hcb : c ≠ b := fun he ↦ (nodup_cons.mp hnodup).1 (he ▸ hc)
        exact (link_of_ne hcx).trans (relink_of_ne hcb)
  | cons b l₁ ih =>
    obtain ⟨hb, ha, hl⟩ := h
    obtain ⟨hnotin, hnodup⟩ := nodup_cons.mp hnodup
    have hmem : ∀ c ∈ b :: l₁ ++ x :: l₂, a ≠ c := fun c hc he ↦ hnotin (he ▸ hc)
    have hbx : b ≠ x := fun he ↦ (nodup_cons.mp hnodup).1 (he ▸ mem_append_right _ mem_cons_self)
    have hlast : a ≠ prev x := hprev ▸ hmem _ (mem_append_left _ lastOf_mem)
    have hhead : b ≠ next x := by
      rw [hnext]
      exact ne_headD (fun hm ↦ (nodup_cons.mp hnodup).1
        (mem_append_right _ (mem_cons_of_mem _ hm))) (hpos b mem_cons_self)
    refine ⟨?_, ?_, ih hl hnodup (fun c hc ↦ hpos c (mem_cons_of_mem _ hc)) hprev⟩
    · exact (link_of_ne (hmem x (mem_append_right _ mem_cons_self))).trans
        ((link_of_ne hlast).trans hb)
    · exact (link_of_ne hbx).trans ((relink_of_ne hhead).trans ha)

/-! ### Places -/

/-- Records one under the other, below `top` and not below `bottom`. -/
def Below (size : ℕ → ℕ) (bottom : ℕ) : ℕ → List ℕ → Prop
  | top, [] => bottom ≤ top
  | top, b :: l => b + size b ≤ top ∧ 0 < size b ∧ Below size bottom b l

variable {size size' : ℕ → ℕ} {bottom top : ℕ}

section

variable (h : Below size bottom top l)
include h

theorem Below.le : bottom ≤ top := by
  induction l generalizing top with
  | nil => exact h
  | cons b l ih => exact (ih h.2.2).trans ((Nat.le_add_right _ _).trans h.1)

theorem Below.lt (hb : b ∈ l) : b < top := by
  induction l generalizing top with
  | nil => cases hb
  | cons c l ih =>
    have hc : c < top := (Nat.lt_add_of_pos_right h.2.1).trans_le h.1
    rcases mem_cons.mp hb with rfl | hb
    · exact hc
    · exact (ih h.2.2 hb).trans hc

theorem Below.bottom_le (hb : b ∈ l) : bottom ≤ b := by
  induction l generalizing top with
  | nil => cases hb
  | cons c l ih =>
    rcases mem_cons.mp hb with rfl | hb
    · exact h.2.2.le
    · exact ih h.2.2 hb

theorem Below.nodup : (top :: l).Nodup := by
  induction l generalizing top with
  | nil => exact nodup_singleton _
  | cons b l ih => exact nodup_cons.mpr ⟨fun hmem ↦ (h.lt hmem).false, ih h.2.2⟩

theorem Below.length_le : bottom + l.length ≤ top := by
  induction l generalizing top with
  | nil => exact h
  | cons b l ih =>
    have hb := ih h.2.2
    have hlt := h.lt mem_cons_self
    rw [length_cons]
    omega

/-- Records may get smaller. -/
theorem Below.mono
    (hsize : ∀ b ∈ l, 0 < size' b ∧ size' b ≤ size b) : Below size' bottom top l := by
  induction l generalizing top with
  | nil => exact h
  | cons b l ih =>
    obtain ⟨hpos, hle⟩ := hsize b mem_cons_self
    exact ⟨(Nat.add_le_add_left hle _).trans h.1, hpos,
      ih h.2.2 fun c hc ↦ hsize c (mem_cons_of_mem _ hc)⟩

end

theorem below_append :
    Below size bottom top (l₁ ++ l₂) ↔
      Below size (lastOf top l₁) top l₁ ∧ Below size bottom (lastOf top l₁) l₂ := by
  induction l₁ generalizing top with
  | nil => exact ⟨fun h ↦ ⟨le_rfl, h⟩, And.right⟩
  | cons b l₁ ih =>
    have hb : Below size bottom b (l₁ ++ l₂) ↔ _ := ih
    rw [cons_append, Below, Below, hb, lastOf]
    tauto

/-- A place in a gap is not one of the records. -/
theorem Below.notMem_gap (h : Below size bottom top (l₁ ++ l₂)) (hx : x < lastOf top l₁)
    (hgap : ∀ b ∈ l₂.head?, b < x) : x ∉ top :: (l₁ ++ l₂) := by
  induction l₁ generalizing top with
  | nil =>
    intro hmem
    rcases mem_cons.mp hmem with rfl | hmem
    · exact hx.false
    · cases l₂ with
      | nil => cases hmem
      | cons b l₂ =>
        have hb := hgap b rfl
        rcases mem_cons.mp hmem with rfl | hmem
        · exact hb.false
        · exact (hb.trans (h.2.2.lt hmem)).false
  | cons b l₁ ih =>
    have hlt : x < b := hx.trans_le (below_append.mp h.2.2).1.le
    intro hmem
    rcases mem_cons.mp hmem with rfl | hmem
    · exact (hlt.trans (h.lt mem_cons_self)).false
    · exact ih h.2.2 hx hmem

/-- A record that fits under the first ones and above the next. -/
theorem Below.insert (h : Below size bottom top (l₁ ++ l₂)) (hx : x + size x ≤ lastOf top l₁)
    (hpos : 0 < size x) (hgap : ∀ b ∈ l₂.head?, b + size b ≤ x) (hbottom : bottom ≤ x) :
    Below size bottom top (l₁ ++ x :: l₂) := by
  obtain ⟨h₁, h₂⟩ := below_append.mp h
  refine below_append.mpr ⟨h₁, hx, hpos, ?_⟩
  cases l₂ with
  | nil => exact hbottom
  | cons b l₂ => exact ⟨hgap b rfl, h₂.2⟩

theorem Below.erase (h : Below size bottom top (l₁ ++ x :: l₂)) :
    Below size bottom top (l₁ ++ l₂) := by
  obtain ⟨h₁, hx, -, h₂⟩ := below_append.mp h
  refine below_append.mpr ⟨h₁, ?_⟩
  have hle : x ≤ lastOf top l₁ := (Nat.le_add_right _ _).trans hx
  cases l₂ with
  | nil => exact le_trans h₂ hle
  | cons b l₂ => exact ⟨h₂.1.trans hle, h₂.2⟩

/-- A chain ends with the lowest of its records. -/
theorem Below.lastOf_le (h : Below size bottom top l) : lastOf top l ≤ top := by
  induction l generalizing top with
  | nil => exact le_rfl
  | cons b l ih => exact (ih h.2.2).trans ((Nat.le_add_right _ _).trans h.1)

/-- **A record that is put in** is the lowest if it is below the one that was. -/
theorem lastOf_insert (h : Below size bottom top (l₁ ++ x :: l₂)) :
    lastOf top (l₁ ++ x :: l₂) = min (lastOf top (l₁ ++ l₂)) x := by
  obtain ⟨h₁, hx, hpos, h₂⟩ := below_append.mp h
  rw [lastOf_append, lastOf_append, lastOf]
  cases l₂ with
  | nil => exact (min_eq_right (show x ≤ lastOf top l₁ by omega)).symm
  | cons b l₂ => exact (min_eq_left h₂.lastOf_le).symm

/-- **A record that is taken out** was not the lowest if there is one below it. -/
theorem lastOf_erase (hlow : lastOf top (l₁ ++ x :: l₂) < x) :
    lastOf top (l₁ ++ l₂) = lastOf top (l₁ ++ x :: l₂) := by
  rw [lastOf_append, lastOf] at hlow
  rw [lastOf_append, lastOf_append, lastOf]
  cases l₂ with
  | nil => exact absurd hlow (lt_irrefl _)
  | cons b l₂ => rfl

end LinkedChain
