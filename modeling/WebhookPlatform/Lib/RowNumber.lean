/-
  WebhookPlatform.Lib.RowNumber
  **`row_number() OVER (PARTITION BY … ORDER BY …)` AND `ORDER BY`.**

  A row's number is one more than the rows of its partition that come before
  it in the order of `key`.  Within a partition the numbers follow the keys
  (`rowNumber_lt`), and no number exceeds the size of its partition
  (`rowNumber_le`).  `orderBy` sorts by a key; the first row of a sorted list
  that satisfies a condition has the least key of those that do
  (`filter_orderBy_head`), and where keys identify rows it is the row with
  that key (`head?_filter_orderBy_iff`).  Every partition has a row with
  number one (`exists_rowNumber_one`), and its numbers tell its rows apart
  (`key_eq_of_rowNumber`).
-/
import Mathlib.Data.List.Sort
import Mathlib.Data.Prod.Lex
import Mathlib.Tactic

namespace RowNumber

open List

variable {α κ β : Type} [DecidableEq κ] [LinearOrder β]

/-- `row_number() OVER (PARTITION BY part ORDER BY key)` of `a` among `rows`. -/
def rowNumber (part : α → κ) (key : α → β) (rows : List α) (a : α) : Nat :=
  1 + rows.countP fun x => decide (part x = part a) && decide (key x < key a)

/-- `ORDER BY key`. -/
def orderBy (key : α → β) (rows : List α) : List α :=
  rows.insertionSort fun a b => key a ≤ key b

variable {a : α} {p : α → Bool} {rows : List α} {key : α → β}

/-- A condition that implies another, and misses a row the other holds of,
holds of fewer rows. -/
theorem countP_lt_of_imp {q : α → Bool} (himp : ∀ x, p x = true → q x = true)
    (ha : a ∈ rows) (hq : q a = true) (hp : p a = false) :
    rows.countP p < rows.countP q := by
  induction rows with
  | nil => cases ha
  | cons x rows ih =>
    have hrest : rows.countP p ≤ rows.countP q := countP_mono_left fun y _ hy => himp y hy
    rw [countP_cons, countP_cons]
    rcases mem_cons.mp ha with rfl | ha
    · rw [if_pos hq, if_neg (by rw [hp]; decide)]
      omega
    · have hlt := ih ha
      by_cases hx : p x = true
      · rw [if_pos hx, if_pos (himp x hx)]
        omega
      · rw [if_neg hx]
        omega

/-- **Within a partition the numbers follow the keys.** -/
theorem rowNumber_lt {part : α → κ} {b : α} (ha : a ∈ rows)
    (hpart : part a = part b) (hkey : key a < key b) :
    rowNumber part key rows a < rowNumber part key rows b := by
  unfold rowNumber
  have hlt : rows.countP (fun x => decide (part x = part a) && decide (key x < key a))
      < rows.countP fun x => decide (part x = part b) && decide (key x < key b) := by
    refine countP_lt_of_imp ?_ ha ?_ ?_
    · intro x hx
      simp only [Bool.and_eq_true, decide_eq_true_eq] at hx ⊢
      exact ⟨hx.1.trans hpart, hx.2.trans hkey⟩
    · simp [hpart, hkey]
    · simp
  omega

/-- No number exceeds the size of its partition. -/
theorem rowNumber_le {part : α → κ} (ha : a ∈ rows) :
    rowNumber part key rows a ≤ rows.countP fun x => decide (part x = part a) := by
  unfold rowNumber
  have hlt : rows.countP (fun x => decide (part x = part a) && decide (key x < key a))
      < rows.countP fun x => decide (part x = part a) := by
    refine countP_lt_of_imp ?_ ha (by simp) (by simp)
    intro x hx
    exact ((Bool.and_eq_true _ _).mp hx).1
  omega

theorem orderBy_perm (key : α → β) (rows : List α) : (orderBy key rows).Perm rows :=
  perm_insertionSort _ _

theorem orderBy_pairwise (key : α → β) (rows : List α) :
    (orderBy key rows).Pairwise fun a b => key a ≤ key b := by
  have : Std.Total fun a b : α => key a ≤ key b := ⟨fun a b => le_total (key a) (key b)⟩
  have : IsTrans α fun a b : α => key a ≤ key b := ⟨fun _ _ _ h₁ h₂ => le_trans h₁ h₂⟩
  exact pairwise_insertionSort _ _

/-- `LIMIT n` passes a row over for `n` rows that do not come after it. -/
theorem take_orderBy_of_not_mem {n : Nat} (ha : a ∈ rows) (hout : a ∉ (orderBy key rows).take n) :
    ((orderBy key rows).take n).length = n ∧ ∀ x ∈ (orderBy key rows).take n, key x ≤ key a := by
  have hmem : a ∈ (orderBy key rows).take n ++ (orderBy key rows).drop n := by
    rw [take_append_drop]
    exact (orderBy_perm key rows).mem_iff.mpr ha
  have hdrop : a ∈ (orderBy key rows).drop n := (mem_append.mp hmem).resolve_left hout
  constructor
  · have hpos := length_pos_of_mem hdrop
    rw [length_drop] at hpos
    rw [length_take]
    omega
  · intro x hx
    have hsorted := orderBy_pairwise key rows
    rw [← take_append_drop n (orderBy key rows), pairwise_append] at hsorted
    exact hsorted.2.2 x hx a hdrop

/-- The first sorted row that satisfies a condition has the least key. -/
theorem filter_orderBy_head {rest : List α}
    (h : (orderBy key rows).filter p = a :: rest) {b : α} (hb : b ∈ rows) (hp : p b = true) :
    key a ≤ key b := by
  have hsorted : (a :: rest).Pairwise fun x y => key x ≤ key y := by
    rw [← h]
    exact (orderBy_pairwise key rows).sublist filter_sublist
  have hmem : b ∈ a :: rest := by
    rw [← h]
    exact mem_filter.mpr ⟨(orderBy_perm key rows).mem_iff.mpr hb, hp⟩
  rcases mem_cons.mp hmem with rfl | hmem
  · exact le_refl _
  · exact (pairwise_cons.mp hsorted).1 b hmem

/-- **Where keys identify rows**, the first sorted row that satisfies a
condition is the one with the least key. -/
theorem head?_filter_orderBy_iff
    (ha : a ∈ rows) (hp : p a = true) (hinj : ∀ x ∈ rows, key x = key a → x = a) :
    ((orderBy key rows).filter p).head? = some a ↔ ∀ x ∈ rows, p x = true → key a ≤ key x := by
  cases hrows : (orderBy key rows).filter p with
  | nil =>
    have hmem : a ∈ (orderBy key rows).filter p :=
      mem_filter.mpr ⟨(orderBy_perm key rows).mem_iff.mpr ha, hp⟩
    rw [hrows] at hmem
    cases hmem
  | cons b =>
    rw [List.head?_cons, Option.some.injEq]
    constructor
    · rintro rfl x hx hpx
      exact filter_orderBy_head hrows hx hpx
    · intro hleast
      have hb : b ∈ (orderBy key rows).filter p := by
        rw [hrows]
        exact mem_cons_self
      obtain ⟨hmem, hpb⟩ := mem_filter.mp hb
      have hmem := (orderBy_perm key rows).mem_iff.mp hmem
      exact hinj b hmem (le_antisymm (filter_orderBy_head hrows ha hp) (hleast b hmem hpb))

theorem one_le_rowNumber (part : α → κ) (key : α → β) (rows : List α) (a : α) :
    1 ≤ rowNumber part key rows a := Nat.le_add_right 1 _

/-- Rows of one partition with one number have one key. -/
theorem key_eq_of_rowNumber {part : α → κ} {b : α} (ha : a ∈ rows) (hb : b ∈ rows)
    (hpart : part a = part b) (h : rowNumber part key rows a = rowNumber part key rows b) :
    key a = key b := by
  rcases lt_trichotomy (key a) (key b) with hlt | heq | hgt
  · have := rowNumber_lt ha hpart hlt
    omega
  · exact heq
  · have := rowNumber_lt hb hpart.symm hgt
    omega

/-- A row without a predecessor in its partition has number one. -/
theorem rowNumber_eq_one_iff {part : α → κ} :
    rowNumber part key rows a = 1 ↔ ∀ x ∈ rows, part x = part a → key a ≤ key x := by
  unfold rowNumber
  rw [Nat.add_eq_left, countP_eq_zero]
  simp only [Bool.and_eq_true, decide_eq_true_eq, not_and, not_lt]

/-- **Every partition has a row with number one.** -/
theorem exists_rowNumber_one (part : α → κ) (key : α → β) (ha : a ∈ rows) :
    ∃ b ∈ rows, part b = part a ∧ rowNumber part key rows b = 1 := by
  cases h : (orderBy key rows).filter (fun x => decide (part x = part a)) with
  | nil =>
    have hmem : a ∈ (orderBy key rows).filter (fun x => decide (part x = part a)) := by
      simp [(orderBy_perm key rows).mem_iff, ha]
    rw [h] at hmem
    cases hmem
  | cons b =>
    have hb : b ∈ (orderBy key rows).filter (fun x => decide (part x = part a)) := by simp [h]
    rw [mem_filter, decide_eq_true_eq, (orderBy_perm key rows).mem_iff] at hb
    refine ⟨b, hb.1, hb.2, rowNumber_eq_one_iff.mpr fun x hx hpart => ?_⟩
    exact filter_orderBy_head h hx (decide_eq_true (hpart.trans hb.2))

/-- Distinct values of `f` in `bound` bound the number of rows. -/
theorem length_le_of_inj {γ : Type} {f : α → γ} {bound : List γ} (hrows : rows.Nodup)
    (hinj : ∀ x ∈ rows, ∀ y ∈ rows, f x = f y → x = y) (hmem : ∀ x ∈ rows, f x ∈ bound) :
    rows.length ≤ bound.length := by
  have hnodup : (rows.map f).Nodup := hrows.map_on hinj
  have hsub : rows.map f ⊆ bound := by
    intro y hy
    obtain ⟨x, hx, rfl⟩ := mem_map.mp hy
    exact hmem x hx
  have hle := (subperm_of_subset hnodup hsub).length_le
  rwa [length_map] at hle

/-- A row's number is bounded by any list that tells it and the rows of its
partition in front of it apart. -/
theorem rowNumber_le_of_inj {γ : Type} {part : α → κ} {f : α → γ} {bound : List γ} (ha : a ∈ rows)
    (hrows : rows.Nodup)
    (hinj : ∀ x ∈ rows, ∀ y ∈ rows, part x = part a → part y = part a →
      key x ≤ key a → key y ≤ key a → f x = f y → x = y)
    (hmem : ∀ x ∈ rows, part x = part a → key x ≤ key a → f x ∈ bound) :
    rowNumber part key rows a ≤ bound.length := by
  have hlt : rows.countP (fun x => decide (part x = part a) && decide (key x < key a))
      < rows.countP fun x => decide (part x = part a) && decide (key x ≤ key a) := by
    refine countP_lt_of_imp ?_ ha (by simp) (by simp)
    intro x hx
    simp only [Bool.and_eq_true, decide_eq_true_eq] at hx ⊢
    exact ⟨hx.1, hx.2.le⟩
  have hle : (rows.filter fun x => decide (part x = part a) && decide (key x ≤ key a)).length
      ≤ bound.length := by
    refine length_le_of_inj (f := f) (hrows.filter _) ?_ ?_
    · intro x hx y hy hxy
      simp only [mem_filter, Bool.and_eq_true, decide_eq_true_eq] at hx hy
      exact hinj x hx.1 y hy.1 hx.2.1 hy.2.1 hx.2.2 hy.2.2 hxy
    · intro x hx
      simp only [mem_filter, Bool.and_eq_true, decide_eq_true_eq] at hx
      exact hmem x hx.1 hx.2.1 hx.2.2
  rw [← countP_eq_length_filter] at hle
  unfold rowNumber
  omega

/-- **A sorted list that holds everything in front of what it holds** is a
prefix. -/
theorem prefix_of_sorted {S T : List β} (hS : S.Pairwise (· < ·)) (hT : T.Pairwise (· < ·))
    (hsub : ∀ t ∈ T, t ∈ S) (hdown : ∀ s ∈ S, ∀ t ∈ T, s < t → s ∈ T) : T <+: S := by
  induction S generalizing T with
  | nil => simp [eq_nil_iff_forall_not_mem.mpr fun t ht => not_mem_nil (hsub t ht)]
  | cons s S ih =>
    cases T with
    | nil => exact nil_prefix
    | cons t T =>
      rw [pairwise_cons] at hS hT
      have hst : s = t := by
        rcases mem_cons.mp (hsub t mem_cons_self) with rfl | ht
        · rfl
        · -- the first of `S` is in `T`, behind `t`
          have hlt := hS.1 t ht
          rcases mem_cons.mp (hdown s mem_cons_self t mem_cons_self hlt) with rfl | hs
          · rfl
          · exact absurd hlt (hT.1 s hs).asymm
      subst hst
      refine cons_prefix_cons.mpr ⟨rfl, ih hS.2 hT.2 (fun t ht => ?_) ?_⟩
      · exact (mem_cons.mp (hsub t (mem_cons_of_mem s ht))).resolve_left (hT.1 t ht).ne'
      · intro x hx t ht hlt
        exact (mem_cons.mp (hdown x (mem_cons_of_mem s hx) t
          (mem_cons_of_mem s ht) hlt)).resolve_left (hS.1 x hx).ne'

end RowNumber
