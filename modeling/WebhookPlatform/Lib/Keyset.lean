/-
  WebhookPlatform.Lib.Keyset
  **PAGES BY KEY.**

  A page holds the first `limit` rows, in the order of a key, that come after
  the last row of the page before.  Where keys identify rows, that last row
  cuts the remaining rows exactly behind its page (`remaining_last`), so a
  caller who reads until a page is empty has seen every row once, in order
  (`walk_eq`), and rows that are inserted meanwhile BEFORE the first page's
  first row change nothing.
-/
import WebhookPlatform.Lib.RowNumber

namespace Keyset

open RowNumber List

/-- A caller that reads page after page, each with the last row of the page
before, until an empty page.  The `n`-th read sees the `n`-th state; `none`: a
read has raised, or the fuel is out. -/
def walk {α ε : Type} (read : Nat → Option α → Except ε (List α)) :
    Nat → Nat → Option α → Option (List (List α))
  | 0, _, _ => none
  | fuel + 1, n, last =>
    match read n last with
    | .error _ => none
    | .ok page =>
      match page.getLast? with
      | none => some []
      | some b => (walk read fuel (n + 1) (some b)).map (page :: ·)

variable {α β : Type} [LinearOrder β] {key : α → β} {rows : List α} {last : Option α} {a b : α}
  {limit : Nat}

/-- The row comes after the last one. -/
def after (key : α → β) (last : Option α) (a : α) : Bool := last.all fun b => decide (key b < key a)

/-- The rows after the last one, in order. -/
def remaining (key : α → β) (rows : List α) (last : Option α) : List α :=
  orderBy key (rows.filter (after key last))

theorem mem_remaining : a ∈ remaining key rows last ↔ a ∈ rows ∧ ∀ b ∈ last, key b < key a := by
  unfold remaining
  rw [(orderBy_perm _ _).mem_iff, mem_filter]
  simp [after, Option.all_eq_true]

theorem length_remaining : (remaining key rows none).length = rows.length := by
  refine (orderBy_perm _ _).length_eq.trans ?_
  simp [after]

/-- Distinct keys are in strict order. -/
theorem remaining_sorted (hkeys : (rows.map key).Nodup) :
    (remaining key rows last).Pairwise fun x y => key x < key y := by
  have hdistinct : ((remaining key rows last).map key).Nodup :=
    ((orderBy_perm _ _).map key).nodup_iff.mpr (hkeys.sublist (filter_sublist.map key))
  refine ((orderBy_pairwise _ _).and (pairwise_map.mp hdistinct)).imp ?_
  exact fun h => lt_of_le_of_ne h.1 h.2

/-- Two lists in strict order that have the same rows are equal. -/
theorem sorted_ext {xs ys : List α} (hx : xs.Pairwise fun x y => key x < key y)
    (hy : ys.Pairwise fun x y => key x < key y) (h : ∀ a, a ∈ xs ↔ a ∈ ys) : xs = ys := by
  have hnodup : ∀ zs : List α, zs.Pairwise (fun x y => key x < key y) → zs.Nodup :=
    fun zs hzs => hzs.imp fun hlt heq => absurd (congrArg key heq) (ne_of_lt hlt)
  refine List.Perm.eq_of_pairwise (fun x y _ _ hxy hyx => absurd hxy (lt_asymm hyx)) hx hy ?_
  exact (perm_ext_iff_of_nodup (hnodup xs hx) (hnodup ys hy)).mpr h

theorem le_getLast {xs : List α} (hx : xs.Pairwise fun x y => key x < key y)
    (hlast : xs.getLast? = some b) (ha : a ∈ xs) : key a ≤ key b := by
  obtain ⟨front, rfl⟩ := List.getLast?_eq_some_iff.mp hlast
  rcases mem_append.mp ha with hfront | hb
  · exact le_of_lt ((pairwise_append.mp hx).2.2 a hfront b (mem_singleton_self b))
  · rw [mem_singleton.mp hb]

theorem exists_head {xs : List α} (hlimit : 0 < limit) (hx : xs.Pairwise fun x y => key x < key y)
    (ha : a ∈ xs) : ∃ first ∈ (xs.take limit).head?, key first ≤ key a := by
  cases xs with
  | nil => cases ha
  | cons first =>
    refine ⟨first, by rw [List.head?_take, if_neg (by omega)]; rfl, ?_⟩
    rcases mem_cons.mp ha with rfl | ha
    · exact le_refl _
    · exact le_of_lt (rel_of_pairwise_cons hx ha)

/-- **The last row of a page cuts the rest off behind it.** -/
theorem remaining_last (hkeys : (rows.map key).Nodup)
    (hlast : ((remaining key rows last).take limit).getLast? = some b) :
    remaining key rows (some b) = (remaining key rows last).drop limit := by
  have hcut : (remaining key rows last).Pairwise fun x y => key x < key y := remaining_sorted hkeys
  rw [← take_append_drop limit (remaining key rows last), pairwise_append] at hcut
  obtain ⟨htake, hdrop, hacross⟩ := hcut
  have hb := mem_of_getLast? hlast
  refine sorted_ext (remaining_sorted hkeys) hdrop fun a => ?_
  rw [mem_remaining]
  constructor
  · rintro ⟨ha, hlt⟩
    have hab : key b < key a := hlt b rfl
    have hrest : a ∈ remaining key rows last := mem_remaining.mpr ⟨ha, fun c hc =>
      ((mem_remaining.mp (mem_of_mem_take hb)).2 c hc).trans hab⟩
    rw [← take_append_drop limit (remaining key rows last), mem_append] at hrest
    exact hrest.resolve_left fun hin => absurd (le_getLast htake hlast hin) (not_le.mpr hab)
  · intro ha
    refine ⟨(mem_remaining.mp (mem_of_mem_drop ha)).1, fun c hc => ?_⟩
    cases hc
    exact hacross b hb a ha

section Walk

variable {ε : Type} {read : Nat → Option α → Except ε (List α)} {tables : Nat → List α}

/-- **From any page on** the walk returns what remained at the start, if the
tables agree behind every row that remains. -/
theorem walk_from (hlimit : 0 < limit) (hkeys : ((tables 0).map key).Nodup)
    (hread : ∀ n last, read n last = .ok ((remaining key (tables n) last).take limit))
    (fuel n : Nat) (last : Option α)
    (hnow : remaining key (tables n) last = remaining key (tables 0) last)
    (hlater : ∀ m, ∀ b ∈ remaining key (tables 0) last,
      remaining key (tables m) (some b) = remaining key (tables 0) (some b))
    (hfuel : (remaining key (tables 0) last).length < fuel) :
    ∃ pages, walk read fuel n last = some pages
      ∧ pages.flatten = remaining key (tables 0) last := by
  induction fuel generalizing n last with
  | zero => omega
  | succ _ ih =>
    rw [walk, hread, hnow]
    show ∃ pages, (match ((remaining key (tables 0) last).take limit).getLast? with
      | none => _ | some b => _) = some pages ∧ _
    cases hlast : ((remaining key (tables 0) last).take limit).getLast? with
    | none =>
      refine ⟨[], rfl, ?_⟩
      have hempty := List.getLast?_eq_none_iff.mp hlast
      exact ((take_eq_nil_iff.mp hempty).resolve_left (by omega)).symm
    | some b =>
      have hcut := remaining_last hkeys hlast
      have hb : b ∈ remaining key (tables 0) last := mem_of_mem_take (mem_of_getLast? hlast)
      have hpos := length_pos_of_mem hb
      obtain ⟨pages, hpages, hflat⟩ := ih (n + 1) (some b) (hlater (n + 1) b hb)
        (fun m c hc => hlater m c (mem_of_mem_drop (hcut ▸ hc)))
        (by rw [hcut, length_drop]; omega)
      refine ⟨_, congrArg (Option.map _) hpages, ?_⟩
      rw [flatten_cons, hflat, hcut, take_append_drop]

/-- **THE WALK RETURNS THE FIRST TABLE**, if every later one differs from it
only by rows before the first row that was returned. -/
theorem walk_eq (hlimit : 0 < limit) (hkeys : ∀ n, ((tables n).map key).Nodup)
    (hread : ∀ n last, read n last = .ok ((remaining key (tables n) last).take limit))
    (hkept : ∀ n, ∀ a ∈ tables 0, a ∈ tables n)
    (hnew : ∀ n, ∀ a ∈ tables n, a ∉ tables 0 →
      ∀ first ∈ ((remaining key (tables 0) none).take limit).head?, key a < key first)
    (fuel : Nat) (hfuel : (tables 0).length < fuel) :
    ∃ pages, walk read fuel 0 none = some pages
      ∧ pages.flatten = remaining key (tables 0) none := by
  refine walk_from hlimit (hkeys 0) hread fuel 0 none rfl ?_ ?_
  · intro m b hb
    refine sorted_ext (remaining_sorted (hkeys m)) (remaining_sorted (hkeys 0)) fun a => ?_
    rw [mem_remaining, mem_remaining]
    refine and_congr_left fun hlt => ⟨fun ha => ?_, hkept m a⟩
    by_contra hout
    obtain ⟨first, hfirst, hle⟩ := exists_head hlimit (remaining_sorted (hkeys 0)) hb
    exact lt_asymm ((hnew m a ha hout first hfirst).trans_le hle) (hlt b rfl)
  · exact lt_of_eq_of_lt length_remaining hfuel

end Walk

end Keyset
