/-
  WebhookPlatform.Lib.TokenBucket
  **TOKEN BUCKETS OVER AN ORDERED FIELD.**

  A bucket holds a level and the moment it was last refilled.  `refill`
  raises the level at `rate` up to `cap`; `draw` refills and takes a cost if
  the level covers it.  The refill never runs backwards, but the moment of
  the draw is stored WHATEVER IT WAS.

  The accounting argument is a potential: `worth T b` is what the bucket can
  still pay until the horizon `T`.  A draw that does not go back in time
  lowers the potential by at least what it pays out (`worth_draw`), so a
  whole sequence of such draws pays at most the initial worth
  (`paid_le_worth`).
-/
import Mathlib.Tactic

namespace TokenBucket

variable {F : Type} [Field F] [LinearOrder F]

/-- A stored balance and the moment it was computed. -/
structure Bucket (F : Type) where
  level : F
  since : F

/-- A withdrawal: how much, and at what moment. -/
structure Draw (F : Type) where
  cost : F
  now : F

/-- The level at `now`: raised at `rate`, at most `cap`, never lowered by a
clock that runs backwards. -/
def refill (rate cap now : F) (b : Bucket F) : F :=
  min cap (b.level + max 0 (now - b.since) * rate)

/-- Refill, then pay the cost if the level covers it. -/
def draw (rate cap : F) (b : Bucket F) (d : Draw F) : Bucket F :=
  ⟨if d.cost ≤ refill rate cap d.now b then refill rate cap d.now b - d.cost
    else refill rate cap d.now b, d.now⟩

/-- What a draw pays. -/
def paid (rate cap : F) (b : Bucket F) (d : Draw F) : F :=
  if d.cost ≤ refill rate cap d.now b then d.cost else 0

/-- What a sequence of draws pays. -/
def totalPaid (rate cap : F) : Bucket F → List (Draw F) → F
  | _, [] => 0
  | b, d :: ds => paid rate cap b d + totalPaid rate cap (draw rate cap b d) ds

/-- No draw is made at a moment before the one stored in the bucket it
meets. -/
def InOrder (since : F) (ds : List (Draw F)) : Prop :=
  (since :: ds.map Draw.now).IsChain (· ≤ ·)

/-- What the bucket can pay until the horizon `T`. -/
def worth (rate T : F) (b : Bucket F) : F := b.level + rate * (T - b.since)

theorem draw_level (rate cap : F) (b : Bucket F) (d : Draw F) :
    (draw rate cap b d).level = refill rate cap d.now b - paid rate cap b d := by
  unfold draw paid
  split
  · rfl
  · exact (sub_zero _).symm

variable {cap now rate : F} {b : Bucket F} {d : Draw F}

/-- A bucket is worth what was stored at the moment it was stored. -/
theorem refill_self {level : F} (hb : level ≤ cap) : refill rate cap now ⟨level, now⟩ = level := by
  unfold refill
  dsimp only
  rw [sub_self, max_self, zero_mul, add_zero]
  exact min_eq_right hb

variable [IsStrictOrderedRing F]

/-- A refill adds no more than the rate gives in the time elapsed. -/
theorem refill_le (h : b.since ≤ now) :
    refill rate cap now b ≤ b.level + rate * (now - b.since) := by
  unfold refill
  have hmax : max 0 (now - b.since) = now - b.since := max_eq_right (sub_nonneg.mpr h)
  rw [hmax, mul_comm]
  exact min_le_right _ _

theorem refill_nonneg (hr : 0 ≤ rate) (hc : 0 ≤ cap)
    (hb : 0 ≤ b.level) : 0 ≤ refill rate cap now b :=
  le_min hc (add_nonneg hb (mul_nonneg (le_max_left _ _) hr))

/-- Adding to the stored level and not to the level now: nothing is lost
exactly when nothing was gained since, or the bucket is full anyway. -/
theorem topUp_eq_iff {level gain refill : F} (hgain : 0 ≤ gain) (hrefill : 0 ≤ refill) :
    min cap (level + refill) = min cap (min cap (level + gain) + refill)
      ↔ gain = 0 ∨ cap ≤ level + refill := by
  constructor
  · intro heq
    by_contra hnot
    rw [not_or, not_le] at hnot
    have hpos : 0 < gain := lt_of_le_of_ne hgain (Ne.symm hnot.1)
    rw [min_eq_right hnot.2.le] at heq
    have hlt : level + refill < min cap (min cap (level + gain) + refill) := by
      refine lt_min hnot.2 ?_
      have hmin : level < min cap (level + gain) := lt_min (by linarith) (by linarith)
      linarith
    exact absurd heq hlt.ne
  · rintro (rfl | hfull)
    · rw [add_zero]
      rcases le_total cap level with hcap | hcap
      · rw [min_eq_left hcap, min_eq_left (by linarith), min_eq_left (by linarith)]
      · rw [min_eq_right hcap]
    · have hmin : cap ≤ min cap (level + gain) + refill := by
        rw [← min_add_add_right]
        exact le_min (by linarith) (by linarith)
      rw [min_eq_left hfull, min_eq_left hmin]

/-- What is in the bucket is there when it is looked at. -/
theorem level_le_refill (hr : 0 ≤ rate) (hb : b.level ≤ cap) : b.level ≤ refill rate cap now b :=
  le_min hb (le_add_of_nonneg_right (mul_nonneg (le_max_left _ _) hr))

/-- Later the bucket holds no more than the rate has added. -/
theorem refill_later {later : F} (hr : 0 ≤ rate) (h : now ≤ later) :
    refill rate cap later b ≤ refill rate cap now b + rate * (later - now) := by
  have hadded : 0 ≤ rate * (later - now) := mul_nonneg hr (sub_nonneg.mpr h)
  have helapsed : max 0 (later - b.since) ≤ max 0 (now - b.since) + (later - now) := by
    apply max_le
    · exact add_nonneg (le_max_left _ _) (sub_nonneg.mpr h)
    · have := le_max_right 0 (now - b.since)
      linarith
  unfold refill
  rw [← min_add_add_right]
  apply min_le_min
  · linarith
  · have := mul_le_mul_of_nonneg_right helapsed hr
    linarith

/-- **Refilling is an action of elapsed time**: a stop on the way changes
nothing. -/
theorem refill_refill {later : F} (hr : 0 ≤ rate) (h : b.since ≤ now) (h' : now ≤ later) :
    refill rate cap later ⟨refill rate cap now b, now⟩ = refill rate cap later b := by
  have hadded : 0 ≤ (later - now) * rate := mul_nonneg (sub_nonneg.mpr h') hr
  unfold refill
  dsimp only
  rw [max_eq_right (sub_nonneg.mpr h), max_eq_right (sub_nonneg.mpr h'),
    max_eq_right (sub_nonneg.mpr (h.trans h')), ← min_add_add_right, ← min_assoc,
    min_eq_left (le_add_of_nonneg_right hadded)]
  congr 1
  ring

/-- A draw never leaves a negative level. -/
theorem draw_level_nonneg (hr : 0 ≤ rate)
    (hc : 0 ≤ cap) (hb : 0 ≤ b.level) : 0 ≤ (draw rate cap b d).level := by
  rw [draw_level]
  unfold paid
  split
  next h => exact sub_nonneg.mpr h
  rw [sub_zero]
  exact refill_nonneg hr hc hb

/-- A draw never leaves more than the capacity. -/
theorem draw_level_le (hd : 0 ≤ d.cost) : (draw rate cap b d).level ≤ cap := by
  have hrefill : refill rate cap d.now b ≤ cap := min_le_left _ _
  rw [draw_level]
  unfold paid
  split
  · linarith
  · linarith

/-- **One draw**: what it pays comes out of the bucket's worth. -/
theorem worth_draw {T : F} (h : b.since ≤ d.now) :
    paid rate cap b d + worth rate T (draw rate cap b d) ≤ worth rate T b := by
  have hlevel := draw_level rate cap b d
  have hrefill : refill rate cap d.now b ≤ b.level + rate * (d.now - b.since) := refill_le h
  have hsince : (draw rate cap b d).since = d.now := rfl
  unfold worth
  rw [hlevel, hsince]
  calc paid rate cap b d + (refill rate cap d.now b - paid rate cap b d + rate * (T - d.now))
      = refill rate cap d.now b + rate * (T - d.now) := by ring
    _ ≤ b.level + rate * (d.now - b.since) + rate * (T - d.now) := by gcongr
    _ = b.level + rate * (T - b.since) := by ring

/-- **Every sequence of draws in order** pays at most what the bucket is
worth at any horizon that no draw, nor the bucket's own moment, is after. -/
theorem paid_le_worth {T : F} (hr : 0 ≤ rate) (hc : 0 ≤ cap) :
    ∀ (ds : List (Draw F)) (b : Bucket F), 0 ≤ b.level → b.since ≤ T →
      (∀ d ∈ ds, d.now ≤ T) → InOrder b.since ds → totalPaid rate cap b ds ≤ worth rate T b := by
  intro ds
  induction ds with
  | nil =>
    intro b hb hT _ _
    exact add_nonneg hb (mul_nonneg hr (sub_nonneg.mpr hT))
  | cons d ds ih =>
    intro b hb hT hle hord
    obtain ⟨hnow, hrest⟩ := List.isChain_cons_cons.mp hord
    have hd : d.now ≤ T := hle d List.mem_cons_self
    have htail := ih (draw rate cap b d) (draw_level_nonneg hr hc hb) hd
      (fun e he => hle e (List.mem_cons_of_mem _ he)) hrest
    have hhead : paid rate cap b d + worth rate T (draw rate cap b d) ≤ worth rate T b :=
      worth_draw hnow
    show paid rate cap b d + totalPaid rate cap (draw rate cap b d) ds ≤ worth rate T b
    linarith

end TokenBucket
