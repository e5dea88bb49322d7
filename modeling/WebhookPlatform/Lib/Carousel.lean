/-
  WebhookPlatform.Lib.Carousel
  **ROUND ROBIN OVER A CHANGING SET, FROM A CURSOR.**

  A carousel is a list of ids in cyclic order: some rotation of a strictly
  increasing list.  Whoever comes to its front is served or passed by, and
  goes to its back; the last one served is remembered in a cursor.  The set
  of ids may change between two rides, and a new ride starts right after
  the cursor.

  Fix one id `b` that is never passed by.  `Before b x y` is the order in
  which ids come up on the way to `b`: first those greater than `b`, then
  those up to it.  The one invariant is

      `Aligned b cursor q` — everything that comes up before `b` is behind
      the cursor in that order,

  so between two services of `b` the ids served only move forward, and none
  is served twice (`Threaded.nodup`).  What a stretch without `b` can be at
  most bounds the whole log (`length_le_of_gaps`).
-/
import Mathlib.Data.List.Rotate
import Mathlib.Data.List.TakeWhile
import Mathlib.Data.Prod.Lex
import Mathlib.Tactic

namespace Carousel

open List

variable {α : Type} [LinearOrder α]

/-! ## §1. The order on the way to `b`. -/

/-- Ids greater than `b` come first, then those up to `b`. -/
def place (b x : α) : Bool ×ₗ α := toLex (decide (x ≤ b), x)

/-- `x` comes up before `y` on the way to `b`. -/
def Before (b x y : α) : Prop := place b x < place b y

variable {b x y a : α} {q u : List α} {c c' : Option α}

theorem Before.trans {z : α} (h₁ : Before b x y) (h₂ : Before b y z) : Before b x z :=
  lt_trans h₁ h₂

theorem Before.ne (h : Before b x y) : x ≠ y := by
  rintro rfl
  exact lt_irrefl _ h

theorem before_iff : Before b x y ↔ (b < x ∧ y ≤ b) ∨ ((x ≤ b ↔ y ≤ b) ∧ x < y) := by
  unfold Before place
  rw [Prod.Lex.toLex_lt_toLex]
  by_cases hx : x ≤ b <;> by_cases hy : y ≤ b
  · simp [hx, hy]
  · simp [hx, hy]
  · simp [hx, hy, not_le.mp hx]
  · simp [hx, hy]

/-! ## §2. Carousels. -/

/-- Some rotation of a strictly increasing list. -/
def Cyclic (q : List α) : Prop := ∃ l : List α, l.Pairwise (· < ·) ∧ q ~r l

/-- Those who come up before `b`. -/
def ahead (b : α) (q : List α) : List α := q.takeWhile fun x => decide (x ≠ b)

theorem Cyclic.rotated {q' : List α} (h : Cyclic q) (hrot : q' ~r q) : Cyclic q' := by
  obtain ⟨l, hl, hq⟩ := h
  exact ⟨l, hl, hrot.trans hq⟩

theorem Cyclic.nodup (h : Cyclic q) : q.Nodup := by
  obtain ⟨l, hl, hq⟩ := h
  exact hq.nodup_iff.mpr (hl.imp fun h => ne_of_lt h)

theorem ahead_split (hu : b ∉ u) (v : List α) : ahead b (u ++ b :: v) = u := by
  unfold ahead
  rw [takeWhile_append_of_pos]
  · simp
  · intro x hx
    exact decide_eq_true (fun h => hu (h ▸ hx))

/-- Whoever is behind `b` does not matter. -/
theorem ahead_append (hb : b ∈ q) (q' : List α) : ahead b (q ++ q') = ahead b q := by
  obtain ⟨u, v, rfl, hu⟩ := eq_append_cons_of_mem hb
  rw [append_assoc, cons_append, ahead_split hu, ahead_split hu]

/-- Whoever is in front of `b` is ahead of it. -/
theorem ahead_of_notMem (hu : b ∉ u) (q : List α) : ahead b (u ++ q) = u ++ ahead b q := by
  unfold ahead
  rw [takeWhile_append_of_pos]
  intro x hx
  exact decide_eq_true (fun h => hu (h ▸ hx))

omit [LinearOrder α] in
/-- Two rotations of one list without repetitions that start with the same
id are the same. -/
theorem eq_of_isRotated_cons {x y : List α} (hnodup : (b :: x).Nodup)
    (h : (b :: x) ~r (b :: y)) : x = y := by
  obtain ⟨n, hn⟩ := h
  rw [← rotate_mod] at hn
  have hlt : n % (b :: x).length < (b :: x).length := Nat.mod_lt _ (Nat.succ_pos _)
  have hhead := congrArg List.head? hn
  rw [List.head?_rotate hlt, List.getElem?_eq_getElem hlt, List.head?_cons, Option.some.injEq]
    at hhead
  have hzero : n % (b :: x).length = 0 := by
    have hfirst : (b :: x)[n % (b :: x).length] = (b :: x)[0] := hhead
    exact hnodup.getElem_inj_iff.mp hfirst
  rw [hzero, rotate_zero] at hn
  exact (List.cons.inj hn).2

/-- **On the way to `b` the ids come up in order.** -/
theorem Cyclic.ahead_pairwise (h : Cyclic q) (hb : b ∈ q) : (ahead b q).Pairwise (Before b) := by
  have hnodup := h.nodup
  obtain ⟨l, hl, hrot⟩ := h
  obtain ⟨u, v, rfl, hu⟩ := eq_append_cons_of_mem hb
  obtain ⟨l₁, l₂, rfl, -⟩ := eq_append_cons_of_mem (hrot.mem_iff.mp hb)
  -- cut open at `b`, the carousel is the sorted list cut open at `b`
  have hcut : (b :: (v ++ u)) ~r (b :: (l₂ ++ l₁)) :=
    (@List.isRotated_append _ u (b :: v)).symm.trans
      (hrot.trans (@List.isRotated_append _ l₁ (b :: l₂)))
  have heq : v ++ u = l₂ ++ l₁ := by
    refine eq_of_isRotated_cons ?_ hcut
    exact (@List.isRotated_append _ u (b :: v)).nodup_iff.mp hnodup
  rw [pairwise_append, pairwise_cons] at hl
  obtain ⟨hl₁, ⟨hbl₂, hl₂⟩, hcross⟩ := hl
  have hordered : (l₂ ++ l₁).Pairwise (Before b) := by
    rw [pairwise_append]
    refine ⟨?_, ?_, ?_⟩
    · refine hl₂.imp_of_mem fun hx hy hlt => before_iff.mpr (Or.inr ⟨?_, hlt⟩)
      exact iff_of_false (not_le.mpr (hbl₂ _ hx)) (not_le.mpr (hbl₂ _ hy))
    · refine hl₁.imp_of_mem fun hx hy hlt => before_iff.mpr (Or.inr ⟨?_, hlt⟩)
      exact iff_of_true (hcross _ hx b mem_cons_self).le (hcross _ hy b mem_cons_self).le
    · intro x hx y hy
      exact before_iff.mpr (Or.inl ⟨hbl₂ x hx, (hcross y hy b mem_cons_self).le⟩)
  rw [ahead_split hu]
  exact hordered.sublist (heq ▸ sublist_append_right v u)

/-! ## §3. The cursor. -/

/-- Everything that comes up before `b` is behind the cursor. -/
def Aligned (b : α) (cursor : Option α) (q : List α) : Prop :=
  ∀ x, cursor = some x → x ≠ b → ∀ y ∈ ahead b q, Before b x y

theorem aligned_self (b : α) (q : List α) : Aligned b (some b) q := by
  intro x hx hne
  exact absurd (Option.some.inj hx).symm hne

/-- **A ride that starts right after the cursor** is aligned with it. -/
theorem Aligned.start {v : List α} (hsorted : (u ++ v).Pairwise (· < ·))
    (hu : ∀ y ∈ u, y ≤ x) (hv : ∀ y ∈ v, x < y) (hb : b ∈ v ++ u) :
    Aligned b (some x) (v ++ u) := by
  intro x' hx' hne y hy
  obtain rfl := Option.some.inj hx'
  by_cases hbv : b ∈ v
  · -- `b` is still to come in this turn of the wheel
    rw [ahead_append hbv] at hy
    obtain ⟨v₁, v₂, rfl, hv₁⟩ := eq_append_cons_of_mem hbv
    rw [ahead_split hv₁] at hy
    have hyb : y < b := by
      rw [pairwise_append, pairwise_append] at hsorted
      exact hsorted.2.1.2.2 y hy b mem_cons_self
    have hxy : x < y := hv y (mem_append_left _ hy)
    exact before_iff.mpr (Or.inr ⟨iff_of_true (hxy.trans hyb).le hyb.le, hxy⟩)
  · have hbu : b ∈ u := (mem_append.mp hb).resolve_left hbv
    have hbx : b < x := lt_of_le_of_ne (hu b hbu) (Ne.symm hne)
    rw [ahead_of_notMem hbv] at hy
    rcases mem_append.mp hy with hy | hy
    · have hxy : x < y := hv y hy
      exact before_iff.mpr (Or.inr ⟨iff_of_false (not_le.mpr hbx)
        (not_le.mpr (hbx.trans hxy)), hxy⟩)
    · -- the wheel has come round to the ids below `b`
      obtain ⟨u₁, u₂, rfl, hu₁⟩ := eq_append_cons_of_mem hbu
      rw [ahead_split hu₁] at hy
      have hyb : y < b := by
        rw [pairwise_append, pairwise_append] at hsorted
        exact hsorted.1.2.2 y hy b mem_cons_self
      exact before_iff.mpr (Or.inl ⟨hbx, hyb.le⟩)

/-- The front is passed by. -/
theorem Aligned.passed {cursor : Option α}
    (h : Aligned b cursor (a :: q)) (hb : b ∈ q) (hne : a ≠ b) : Aligned b cursor (q ++ [a]) := by
  intro x hx hxb y hy
  rw [ahead_append hb] at hy
  refine h x hx hxb y ?_
  show y ∈ ahead b ([a] ++ q)
  rw [ahead_of_notMem (by simpa using Ne.symm hne)]
  exact mem_append_right _ hy

/-- **Whoever is served before `b` is behind the cursor.** -/
theorem Aligned.before (h : Aligned b (some x) (u ++ a :: q))
    (hu : b ∉ u) (hxb : x ≠ b) (hne : a ≠ b) : Before b x a := by
  refine h x rfl hxb a ?_
  rw [ahead_of_notMem hu]
  refine mem_append_right _ ?_
  show a ∈ ahead b ([a] ++ q)
  rw [ahead_of_notMem (by simpa using Ne.symm hne)]
  exact mem_append_left _ mem_cons_self

/-- **After a service** everything that comes up before `b` is behind the
one served. -/
theorem Cyclic.aligned (h : Cyclic (u ++ a :: q)) (hu : b ∉ u)
    (hb : b ∈ q) (hne : a ≠ b) : Aligned b (some a) (q ++ (u ++ [a])) := by
  intro x hx _ y hy
  obtain rfl := Option.some.inj hx
  rw [ahead_append hb] at hy
  have hordered := h.ahead_pairwise (b := b) (mem_append_right _ (mem_cons_of_mem _ hb))
  have hahead : ahead b (u ++ a :: q) = u ++ (a :: ahead b q) := by
    rw [ahead_of_notMem hu]
    congr 1
    exact ahead_of_notMem (u := [a]) (by simpa using Ne.symm hne) q
  rw [hahead, pairwise_append, pairwise_cons] at hordered
  exact hordered.2.1.1 y hy

/-! ## §4. The services of many rides. -/

variable {π : Type} (cursor : π → Option α) (served : π → α)

omit [LinearOrder α] in
/-- Each service finds in the cursor the id of the one before; `c` is the
cursor before the first and `c'` the one after the last. -/
def Threaded : Option α → List π → Option α → Prop
  | c, [], c' => c = c'
  | c, x :: log, c' => cursor x = c ∧ Threaded (some (served x)) log c'

variable {cursor served}

omit [LinearOrder α] in
theorem Threaded.append {c'' : Option α} {l l' : List π} (h : Threaded cursor served c l c')
    (h' : Threaded cursor served c' l' c'') : Threaded cursor served c (l ++ l') c'' := by
  induction l generalizing c with
  | nil =>
    obtain rfl : c = c' := h
    exact h'
  | cons x l ih => exact ⟨h.1, ih h.2⟩

omit [LinearOrder α] in
theorem Threaded.isChain {l : List π} (h : Threaded cursor served c l c') :
    l.IsChain fun x y => cursor y = some (served x) := by
  induction l generalizing c with
  | nil => exact List.IsChain.nil
  | cons x l ih =>
    cases l with
    | nil => exact List.IsChain.singleton x
    | cons => exact List.IsChain.cons_cons h.2.1 (ih h.2)

/-- **NOBODY IS SERVED TWICE WHILE `b` WAITS**: in any stretch of services
without `b` in which each goes forward on the way to `b`, all are
different. -/
theorem Threaded.nodup {log seg : List π}
    (h : Threaded cursor served c log c') (hseg : seg <:+: log)
    (hforward : ∀ y ∈ seg, ∀ x, cursor y = some x → x ≠ b → served y ≠ b → Before b x (served y))
    (hwaits : ∀ y ∈ seg, served y ≠ b) : (seg.map served).Nodup := by
  have hchain : seg.IsChain fun x y => Before b (served x) (served y) := by
    refine ( List.IsChain.infix h.isChain hseg).imp_of_mem_imp ?_
    intro x y hx hy hcursor
    exact hforward y hy (served x) hcursor (hwaits x hx) (hwaits y hy)
  have htrans : IsTrans α (Before b) := ⟨fun _ _ _ h₁ h₂ => h₁.trans h₂⟩
  have hpairs := isChain_iff_pairwise.mp (isChain_map_of_isChain served (fun _ _ h => h) hchain)
  exact hpairs.imp fun h => h.ne

/-- Where any stretch outside `p` is at most `m` long, a list is not much
longer than what it has of `p`. -/
theorem length_le_of_gaps {p : π → Bool} {m : Nat} (l : List π)
    (h : ∀ seg, seg <:+: l → (∀ x ∈ seg, p x = false) → seg.length ≤ m) :
    l.length ≤ m + l.countP p * (m + 1) := by
  have hfirst : l.length ≤ (l.takeWhile fun x => !p x).length + l.countP p * (m + 1) := by
    induction l with
    | nil => simp
    | cons x l ih =>
      have hrest := ih fun seg hseg => h seg (hseg.trans (suffix_cons x l).isInfix)
      by_cases hx : p x = true
      · -- the stretch after `x` is one of the gaps
        have hgap := h (l.takeWhile fun x => !p x)
          (( takeWhile_prefix _).isInfix.trans (suffix_cons x l).isInfix)
          fun y hy => by simpa using mem_takeWhile_imp hy
        rw [countP_cons_of_pos hx, Nat.succ_mul]
        simp only [length_cons]
        omega
      · rw [countP_cons_of_neg hx, takeWhile_cons_of_pos (by simpa using hx)]
        simp only [length_cons]
        omega
  have hgap := h (l.takeWhile fun x => !p x) ( takeWhile_prefix _).isInfix
    fun y hy => by simpa using mem_takeWhile_imp hy
  omega

end Carousel
