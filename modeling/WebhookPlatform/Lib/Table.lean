/-
  WebhookPlatform.Lib.Table
  **KEYED TABLES.**

  A relational table is a list of rows whose primary keys are pairwise
  distinct; the structure CARRIES that fact, so a table with two rows under
  one key cannot be built and no later proof has to re-establish it.

    • `Table`  — rows with a primary key (`find?`, `put`, `insert`, `delete`),
    • `Serial` — a table whose integer key comes from a sequence: every key
      in use lies below the sequence, so the next one is fresh.

  `put` is `UPDATE … WHERE key = …` (a no-op without a matching row) and
  `insert` is `INSERT … ON CONFLICT DO NOTHING`.  The lemmas say what a
  lookup, a membership test and a count see after each of them; `DifferIn`
  bounds the rows that two states of a table do not share.
-/
import Mathlib.Data.List.Nodup
import Mathlib.Data.List.Basic
import Mathlib.Tactic

namespace Relational

open List

/-! ## §1. Tables with a primary key. -/

/-- A table: rows with pairwise distinct primary keys. -/
structure Table (α : Type) {κ : Type} (key : α → κ) where
  rows : List α
  nodup : (rows.map key).Nodup

namespace Table

variable {α κ : Type} {key : α → κ}

/-- The table without rows. -/
def empty : Table α key := ⟨[], nodup_nil⟩

instance : Inhabited (Table α key) := ⟨empty⟩

variable {a b : α} {p : α → Bool} {t : Table α key} {k : κ}

/-- Two rows under one key are the same row. -/
theorem eq_of_key_eq (t : Table α key) (ha : a ∈ t.rows)
    (hb : b ∈ t.rows) (h : key a = key b) : a = b :=
  inj_on_of_nodup_map t.nodup ha hb h

/-- `DELETE … WHERE p`. -/
def delete (t : Table α key) (p : α → Bool) : Table α key where
  rows := t.rows.filter fun a => !p a
  nodup := t.nodup.sublist (filter_sublist.map key)

theorem mem_delete : a ∈ (t.delete p).rows ↔ a ∈ t.rows ∧ p a = false := by
  show a ∈ t.rows.filter _ ↔ _
  rw [mem_filter, Bool.not_eq_true']

/-- `UPDATE` of all rows by `f`, which leaves the keys alone. -/
def mapRows (t : Table α key) (f : α → α) (hf : ∀ a, key (f a) = key a) : Table α key where
  rows := t.rows.map f
  nodup := by
    rw [map_map]
    have hkey : key ∘ f = key := funext hf
    rw [hkey]
    exact t.nodup

theorem mem_mapRows {f : α → α} (hf : ∀ a, key (f a) = key a) :
    b ∈ (t.mapRows f hf).rows ↔ ∃ a ∈ t.rows, f a = b := mem_map

variable [DecidableEq κ]

/-- `SELECT … WHERE key = k`. -/
def find? (t : Table α key) (k : κ) : Option α :=
  t.rows.find? fun a => decide (key a = k)

/-- `UPDATE`: the row under the key of `b` becomes `b`. -/
def put (t : Table α key) (b : α) : Table α key where
  rows := t.rows.map fun a => if key a = key b then b else a
  nodup := by
    have hkey : (t.rows.map fun a => if key a = key b then b else a).map key
        = t.rows.map key := by
      rw [map_map]
      apply map_congr_left
      intro a _
      show key (if key a = key b then b else a) = key a
      split
      next h => exact h.symm
      · rfl
    rw [hkey]
    exact t.nodup

/-- `UPDATE` of several rows, in order. -/
def putAll (t : Table α key) (bs : List α) : Table α key :=
  bs.foldl put t

/-- `INSERT … ON CONFLICT (key) DO NOTHING`. -/
def insert (t : Table α key) (b : α) : Table α key :=
  if h : key b ∈ t.rows.map key then t
  else
    { rows := t.rows ++ [b]
      nodup := by
        rw [map_append, nodup_append]
        refine ⟨t.nodup, by simp, ?_⟩
        intro x hx y hy hxy
        rw [map_singleton, mem_singleton] at hy
        exact h (hy ▸ hxy ▸ hx) }

/-! ## §2. Lookups. -/

theorem find?_eq_some : t.find? k = some a ↔ a ∈ t.rows ∧ key a = k := by
  constructor
  · intro h
    exact ⟨mem_of_find?_eq_some h, by simpa using List.find?_some h⟩
  · rintro ⟨ha, rfl⟩
    cases hf : t.find? (key a) with
    | none =>
      unfold find? at hf
      rw [List.find?_eq_none] at hf
      exact absurd (decide_eq_true rfl) (hf a ha)
    | some b =>
      have hb : b ∈ t.rows := mem_of_find?_eq_some hf
      have hk : key b = key a := by simpa using List.find?_some hf
      rw [t.eq_of_key_eq hb ha hk]

theorem find?_eq_none : t.find? k = none ↔ ∀ a ∈ t.rows, key a ≠ k := by
  unfold find?
  rw [List.find?_eq_none]
  simp

/-- A row is found under its own key. -/
theorem find?_key (ha : a ∈ t.rows) : t.find? (key a) = some a := find?_eq_some.mpr ⟨ha, rfl⟩

theorem key_of_find? (h : t.find? k = some a) : key a = k := (find?_eq_some.mp h).2

theorem mem_of_find? (h : t.find? k = some a) : a ∈ t.rows := (find?_eq_some.mp h).1

/-- `SELECT … WHERE key IN (…)` returns rows under the keys asked for, each
once. -/
theorem keys_filterMap_find? (t : Table α key) (ks : List κ) :
    ((ks.filterMap t.find?).map key).Sublist ks := by
  induction ks with
  | nil => exact List.Sublist.slnil
  | cons k _ ih =>
    cases hf : t.find? k with
    | none =>
      rw [filterMap_cons_none hf]
      exact ih.cons k
    | some =>
      rw [filterMap_cons_some hf, map_cons, key_of_find? hf]
      exact ih.cons_cons k

/-- Looking up the keys of rows of the table gives these rows. -/
theorem filterMap_find?_keys {as : List α} (h : ∀ a ∈ as, a ∈ t.rows) :
    (as.map key).filterMap t.find? = as := by
  induction as with
  | nil => rfl
  | cons a _ ih =>
    rw [map_cons, filterMap_cons_some (find?_key (h a mem_cons_self)),
        ih fun b hb => h b (mem_cons_of_mem _ hb)]

/-! ## §3. What `put` changes. -/

theorem mem_put : a ∈ (t.put b).rows ↔
      (a = b ∧ ∃ c ∈ t.rows, key c = key b) ∨ (a ∈ t.rows ∧ key a ≠ key b) := by
  show a ∈ t.rows.map _ ↔ _
  rw [mem_map]
  constructor
  · rintro ⟨c, hc, rfl⟩
    by_cases hk : key c = key b
    · rw [if_pos hk]
      exact Or.inl ⟨rfl, c, hc, hk⟩
    · rw [if_neg hk]
      exact Or.inr ⟨hc, hk⟩
  · rintro (⟨rfl, c, hc, hk⟩ | ⟨ha, hk⟩)
    · exact ⟨c, hc, if_pos hk⟩
    · exact ⟨a, ha, if_neg hk⟩

/-- A row of an updated table is the new row or an old one. -/
theorem mem_of_mem_put (h : a ∈ (t.put b).rows) : a = b ∨ a ∈ t.rows := by
  rcases mem_put.mp h with ⟨rfl, -⟩ | ⟨ha, -⟩
  · exact Or.inl rfl
  · exact Or.inr ha

/-- Every row outlives an update, as itself or as the new row. -/
theorem exists_put (b : α) (ha : a ∈ t.rows) :
    ∃ a' ∈ (t.put b).rows, key a' = key a ∧ (a' = a ∨ a' = b) := by
  refine ⟨if key a = key b then b else a, mem_map.mpr ⟨a, ha, rfl⟩, ?_⟩
  split
  next h => exact ⟨h.symm, Or.inr rfl⟩
  · exact ⟨rfl, Or.inl rfl⟩

/-- The keys of a table survive an update. -/
theorem keys_put (t : Table α key) (b : α) : (t.put b).rows.map key = t.rows.map key := by
  show (t.rows.map _).map key = _
  rw [map_map]
  apply map_congr_left
  intro a _
  show key (if key a = key b then b else a) = key a
  split
  next h => exact h.symm
  · rfl

/-- A lookup after a deletion. -/
theorem find?_delete_eq : (t.delete p).find? k = (t.find? k).filter fun a => !p a := by
  cases hf : t.find? k with
  | none =>
    rw [Option.filter_none, find?_eq_none]
    rw [find?_eq_none] at hf
    exact fun a ha => hf a (mem_delete.mp ha).1
  | some a =>
    obtain ⟨ha, hk⟩ := find?_eq_some.mp hf
    cases hp : p a with
    | false =>
      rw [Option.filter_some_pos (by simp [hp]), find?_eq_some]
      exact ⟨mem_delete.mpr ⟨ha, hp⟩, hk⟩
    | true =>
      rw [Option.filter_some_neg (by simp [hp]), find?_eq_none]
      intro b hb hbk
      obtain ⟨hb, hpb⟩ := mem_delete.mp hb
      rw [t.eq_of_key_eq hb ha (hbk.trans hk.symm), hp] at hpb
      cases hpb

/-- A deletion that spares the row under a key is not seen by its lookup. -/
theorem find?_delete
    (h : ∀ a ∈ t.rows, key a = k → p a = false) : (t.delete p).find? k = t.find? k := by
  rw [find?_delete_eq]
  cases hf : t.find? k with
  | none => rfl
  | some a =>
    obtain ⟨ha, hk⟩ := find?_eq_some.mp hf
    exact Option.filter_some_pos (by simp [h a ha hk])

@[simp] theorem find?_put_ne (h : key b ≠ k) : (t.put b).find? k = t.find? k := by
  cases hf : t.find? k with
  | none =>
    rw [find?_eq_none] at hf ⊢
    intro a ha
    rcases mem_put.mp ha with ⟨rfl, -⟩ | ⟨ha, -⟩
    · exact h
    · exact hf a ha
  | some =>
    obtain ⟨ha, hk⟩ := find?_eq_some.mp hf
    exact find?_eq_some.mpr ⟨mem_put.mpr (Or.inr ⟨ha, by rw [hk]; exact h.symm⟩), hk⟩

theorem find?_put_self (h : t.find? k = some a) (hk : key b = k) : (t.put b).find? k = some b := by
  obtain ⟨ha, hak⟩ := find?_eq_some.mp h
  exact find?_eq_some.mpr ⟨mem_put.mpr (Or.inl ⟨rfl, a, ha, by rw [hak, hk]⟩), hk⟩

/-- **Counting across an update**: the count moves by exactly what the
replaced row and its replacement contribute. -/
theorem countP_put (p : α → Bool) (ha : a ∈ t.rows) (hk : key a = key b) :
    (t.put b).rows.countP p + (if p a then 1 else 0)
      = t.rows.countP p + (if p b then 1 else 0) := by
  obtain ⟨l, r, hrows⟩ := append_of_mem ha
  have hnd := t.nodup
  rw [hrows, map_append, map_cons, nodup_append, nodup_cons] at hnd
  obtain ⟨-, ⟨har, -⟩, hlr⟩ := hnd
  -- off the row under `key b` the update is the identity
  have hid : ∀ l' : List α, (∀ c ∈ l', key c ≠ key b) →
      l'.map (fun c => if key c = key b then b else c) = l' := by
    intro l' hl'
    conv_rhs => rw [← map_id l']
    apply map_congr_left
    intro c hc
    exact if_neg (hl' c hc)
  have hl : ∀ c ∈ l, key c ≠ key b := by
    intro c hc h
    exact hlr (key c) (mem_map_of_mem hc) (key a) mem_cons_self (h.trans hk.symm)
  have hr : ∀ c ∈ r, key c ≠ key b := by
    intro c hc h
    exact har (mem_map.mpr ⟨c, hc, h.trans hk.symm⟩)
  have hput : (t.put b).rows = l ++ b :: r := by
    show t.rows.map _ = _
    rw [hrows, map_append, map_cons, hid l hl, hid r hr, if_pos hk]
  rw [hput, hrows]
  simp only [countP_append, countP_cons]
  omega

/-- An update adds at most its own row to a count. -/
theorem countP_put_le (p : α → Bool) (t : Table α key) (b : α) :
    (t.put b).rows.countP p ≤ t.rows.countP p + (if p b then 1 else 0) := by
  by_cases hb : ∃ a ∈ t.rows, key a = key b
  · obtain ⟨a, ha, hk⟩ := hb
    have := countP_put p ha hk
    omega
  · -- without a matching row the update is the identity
    have hid : (t.put b).rows = t.rows := by
      show t.rows.map _ = t.rows
      conv_rhs => rw [← map_id t.rows]
      apply map_congr_left
      intro a ha
      exact if_neg fun hk => hb ⟨a, ha, hk⟩
    rw [hid]
    omega

/-- An update of a row that counts only if the old row did. -/
theorem countP_put_le_of_imp (p : α → Bool) (ha : a ∈ t.rows)
    (hk : key a = key b) (h : p b = true → p a = true) :
    (t.put b).rows.countP p ≤ t.rows.countP p := by
  have hcount := countP_put p ha hk
  by_cases hb : p b = true
  · rw [if_pos hb, if_pos (h hb)] at hcount
    omega
  · rw [if_neg hb] at hcount
    omega

/-! ## §4. Several updates. -/

@[simp] theorem putAll_cons (t : Table α key) (b : α) (bs : List α) :
    t.putAll (b :: bs) = (t.put b).putAll bs := rfl

/-- Rows whose key is not among the updated ones are found as before. -/
theorem find?_putAll_ne {bs : List α}
    (h : ∀ b ∈ bs, key b ≠ k) : (t.putAll bs).find? k = t.find? k := by
  induction bs generalizing t with
  | nil => rfl
  | cons b _ ih =>
    rw [putAll_cons, ih (fun c hc => h c (mem_cons_of_mem _ hc)), find?_put_ne (h b mem_cons_self)]

/-- A row of a table after several updates is one of the new rows, or an
old row under a key none of them has. -/
theorem mem_putAll {bs : List α} (h : a ∈ (t.putAll bs).rows) :
    a ∈ bs ∨ (a ∈ t.rows ∧ ∀ b ∈ bs, key b ≠ key a) := by
  induction bs generalizing t with
  | nil => exact Or.inr ⟨h, by simp⟩
  | cons _ _ ih =>
    rw [putAll_cons] at h
    rcases ih h with hb | ⟨ha, hne⟩
    · exact Or.inl (mem_cons_of_mem _ hb)
    · rcases mem_put.mp ha with ⟨rfl, -⟩ | ⟨ha, hk⟩
      · exact Or.inl mem_cons_self
      · refine Or.inr ⟨ha, ?_⟩
        intro c hc
        rcases mem_cons.mp hc with rfl | hc
        · exact hk.symm
        · exact hne c hc

/-- Several updates add at most their own rows to a count. -/
theorem countP_putAll_le (p : α → Bool) (t : Table α key) (bs : List α) :
    (t.putAll bs).rows.countP p ≤ t.rows.countP p + bs.countP p := by
  induction bs generalizing t with
  | nil => exact Nat.le_refl _
  | cons b _ ih =>
    have htail := ih (t.put b)
    have hhead := countP_put_le p t b
    rw [putAll_cons, countP_cons]
    omega

theorem keys_putAll (t : Table α key) (bs : List α) :
    (t.putAll bs).rows.map key = t.rows.map key := by
  induction bs generalizing t with
  | nil => rfl
  | cons _ _ ih => rw [putAll_cons, ih, keys_put]

/-- Several updates rewrite each row in its place, to itself or to one of the
new rows. -/
theorem rows_putAll (t : Table α key) (bs : List α) : ∃ g : α → α, (t.putAll bs).rows = t.rows.map g
      ∧ ∀ a, key (g a) = key a ∧ (g a = a ∨ g a ∈ bs) := by
  induction bs generalizing t with
  | nil => exact ⟨id, (map_id _).symm, fun a => ⟨rfl, Or.inl rfl⟩⟩
  | cons b _ ih =>
    obtain ⟨g, hrows, hg⟩ := ih (t.put b)
    refine ⟨fun a => g (if key a = key b then b else a), ?_, fun a => ?_⟩
    · rw [putAll_cons, hrows]
      exact map_map
    · obtain ⟨hkey, hsame⟩ := hg (if key a = key b then b else a)
      dsimp only
      by_cases ha : key a = key b
      · rw [if_pos ha] at hkey hsame ⊢
        refine ⟨hkey.trans ha.symm, Or.inr ?_⟩
        rcases hsame with hb | hb
        · rw [hb]
          exact mem_cons_self
        · exact mem_cons_of_mem _ hb
      · rw [if_neg ha] at hkey hsame ⊢
        exact ⟨hkey, hsame.imp_right (mem_cons_of_mem _)⟩

/-- Every row outlives several updates, as itself or as one of the new rows. -/
theorem exists_putAll (bs : List α) (ha : a ∈ t.rows) :
    ∃ a' ∈ (t.putAll bs).rows, key a' = key a ∧ (a' = a ∨ a' ∈ bs) := by
  obtain ⟨g, hrows, hg⟩ := rows_putAll t bs
  rw [hrows]
  exact ⟨g a, mem_map_of_mem ha, hg a⟩

omit [DecidableEq κ] in
/-- Rows that pass `p` and have the key of an old row that passes `q`. -/
theorem countP_le_of_keys {t' : Table α key} {q : α → Bool}
    (h : ∀ a' ∈ t'.rows, p a' = true → ∃ a ∈ t.rows, key a = key a' ∧ q a = true) :
    t'.rows.countP p ≤ t.rows.countP q := by
  have hsub : ((t'.rows.filter p).map key) ⊆ (t.rows.filter q).map key := by
    intro k hk
    obtain ⟨a', ha', rfl⟩ := mem_map.mp hk
    obtain ⟨hmem, hp⟩ := mem_filter.mp ha'
    obtain ⟨a, ha, hkey, hq⟩ := h a' hmem hp
    exact mem_map.mpr ⟨a, mem_filter.mpr ⟨ha, hq⟩, hkey⟩
  have hnodup : ((t'.rows.filter p).map key).Nodup := t'.nodup.sublist (filter_sublist.map key)
  have hle := (subperm_of_subset hnodup hsub).length_le
  rw [length_map, length_map] at hle
  rw [countP_eq_length_filter, countP_eq_length_filter]
  exact hle

/-- A sum over rows that have the keys of old rows and weigh no more. -/
theorem sum_le_of_keys {t' : Table α key} {f g : α → Nat}
    (h : ∀ a' ∈ t'.rows, f a' ≠ 0 → ∃ a ∈ t.rows, key a = key a' ∧ f a' ≤ g a) :
    (t'.rows.map f).sum ≤ (t.rows.map g).sum := by
  -- the weight that the old table gives to a key
  let weight : κ → Nat := fun k => ((t.find? k).map g).getD 0
  have hold : (t.rows.map g).sum = ∑ k ∈ (t.rows.map key).toFinset, weight k := by
    rw [sum_toFinset weight t.nodup, map_map]
    congr 1
    refine map_congr_left fun a ha => ?_
    show g a = ((t.find? (key a)).map g).getD 0
    rw [find?_key ha]
    rfl
  have hnew : (t'.rows.map f).sum ≤ ∑ k ∈ (t'.rows.map key).toFinset, weight k := by
    rw [sum_toFinset weight t'.nodup, map_map]
    refine sum_le_sum fun a' ha' => ?_
    by_cases hzero : f a' = 0
    · rw [hzero]
      exact Nat.zero_le _
    · obtain ⟨a, ha, hkey, hle⟩ := h a' ha' hzero
      show f a' ≤ ((t.find? (key a')).map g).getD 0
      rw [← hkey, find?_key ha]
      exact hle
  rw [hold]
  refine hnew.trans (Finset.sum_le_sum_of_ne_zero fun k _ hk => ?_)
  cases hfind : t.find? k with
  | none =>
    have hzero : weight k = 0 := by
      show ((t.find? k).map g).getD 0 = 0
      rw [hfind]
      rfl
    exact absurd hzero hk
  | some a => exact mem_toFinset.mpr (mem_map.mpr ⟨a, find?_eq_some.mp hfind⟩)
/-- Updating the rows under `ks`, each to what `f` makes of its key. -/
theorem find?_putAll_map {f : κ → α} (hf : ∀ k, key (f k) = k) (ks : List κ) :
    ∀ {t : Table α key}, (t.find? k).isSome = true →
      (t.putAll (ks.map f)).find? k = if k ∈ ks then some (f k) else t.find? k := by
  induction ks with
  | nil => exact fun _ => rfl
  | cons i _ ih =>
    intro t hk
    obtain ⟨a, ha⟩ := Option.isSome_iff_exists.mp hk
    rw [map_cons, putAll_cons]
    by_cases hi : i = k
    · subst hi
      have hput : (t.put (f i)).find? i = some (f i) := find?_put_self ha (hf i)
      rw [ih (by rw [hput]; rfl), hput, if_pos mem_cons_self]
      exact ite_self _
    · have hput : (t.put (f i)).find? k = t.find? k := find?_put_ne (by rw [hf]; exact hi)
      rw [ih (by rw [hput]; exact hk), hput]
      simp only [mem_cons, Ne.symm hi, false_or]

/-! ## §5. What `insert` changes. -/

theorem insert_of_mem (h : key b ∈ t.rows.map key) : t.insert b = t := dif_pos h

theorem rows_insert (h : key b ∉ t.rows.map key) : (t.insert b).rows = t.rows ++ [b] := by
  unfold insert
  rw [dif_neg h]

theorem find?_insert : (t.insert b).find? k
      = (t.find? k).or (if key b = k then some b else none) := by
  by_cases h : key b ∈ t.rows.map key
  · rw [insert_of_mem h]
    obtain ⟨a, ha, hab⟩ := mem_map.mp h
    split
    next hk =>
      rw [← hk, ← hab, find?_key ha]
      rfl
    · simp
  · unfold find?
    rw [rows_insert h, List.find?_append]
    congr 1
    by_cases hk : key b = k <;> simp [hk]

theorem find?_insert_ne (h : key b ≠ k) : (t.insert b).find? k = t.find? k := by
  rw [find?_insert, if_neg h, Option.or_none]

theorem mem_insert_of_mem (b : α) (h : a ∈ t.rows) : a ∈ (t.insert b).rows := by
  by_cases hb : key b ∈ t.rows.map key
  · rw [insert_of_mem hb]
    exact h
  · rw [rows_insert hb]
    exact mem_append_left _ h

theorem countP_insert_le (p : α → Bool) (t : Table α key) (b : α) :
    (t.insert b).rows.countP p ≤ t.rows.countP p + (if p b then 1 else 0) := by
  by_cases h : key b ∈ t.rows.map key
  · rw [insert_of_mem h]
    exact Nat.le_add_right _ _
  · rw [rows_insert h, countP_append, countP_singleton]

theorem mem_insert (h : a ∈ (t.insert b).rows) : a = b ∨ a ∈ t.rows := by
  by_cases hb : key b ∈ t.rows.map key
  · rw [insert_of_mem hb] at h
    exact Or.inr h
  · rw [rows_insert hb, mem_append, mem_singleton] at h
    exact h.symm

end Table

/-! ## §6. Serial keys. -/

/-- A table whose integer keys are drawn from a sequence. -/
structure Serial (α : Type) (key : α → Nat) extends Table α key where
  /-- The next value of the sequence. -/
  next : Nat
  lt_next : ∀ a ∈ rows, key a < next

namespace Serial

variable {α : Type} {key : α → Nat}

/-- The table without rows, its sequence at one. -/
def empty : Serial α key := ⟨Table.empty, 1, by intro a ha; exact absurd ha (by simp [Table.empty])⟩

instance : Inhabited (Serial α key) := ⟨empty⟩

/-- `UPDATE` on a serial table. -/
def put (t : Serial α key) (b : α) : Serial α key where
  toTable := t.toTable.put b
  next := t.next
  lt_next := by
    intro a ha
    rcases Table.mem_put.mp ha with ⟨rfl, c, hc, hk⟩ | ⟨ha, -⟩
    · rw [← hk]
      exact t.lt_next c hc
    · exact t.lt_next a ha

/-- `UPDATE` of several rows, in order. -/
def putAll (t : Serial α key) (bs : List α) : Serial α key :=
  bs.foldl put t

/-- `INSERT` of the row that `f` builds from the next key of the sequence
(`f` has to put that key into the row). -/
def append (t : Serial α key) (f : Nat → α) : Serial α key :=
  if h : key (f t.next) = t.next then
    { rows := t.rows ++ [f t.next]
      nodup := by
        rw [map_append, nodup_append]
        refine ⟨t.nodup, by simp, ?_⟩
        intro x hx y hy hxy
        obtain ⟨a, ha, hax⟩ := mem_map.mp hx
        rw [map_singleton, mem_singleton, h] at hy
        have := t.lt_next a ha
        omega
      next := t.next + 1
      lt_next := by
        intro a ha
        rcases mem_append.mp ha with ha | ha
        · exact Nat.lt_succ_of_lt (t.lt_next a ha)
        · rw [mem_singleton] at ha
          rw [ha, h]
          exact Nat.lt_succ_self _ }
  else t

/-- `INSERT` of several rows, in order. -/
def appendAll (t : Serial α key) (fs : List (Nat → α)) : Serial α key :=
  fs.foldl append t

/-- `DELETE … WHERE p`; the sequence does not run back. -/
def delete (t : Serial α key) (p : α → Bool) : Serial α key where
  toTable := t.toTable.delete p
  next := t.next
  lt_next := fun a ha => t.lt_next a (Table.mem_delete.mp ha).1

/-- `UPDATE` of all rows by `f`, which leaves the keys alone. -/
def mapRows (t : Serial α key) (f : α → α) (hf : ∀ a, key (f a) = key a) : Serial α key where
  toTable := t.toTable.mapRows f hf
  next := t.next
  lt_next := by
    intro a ha
    obtain ⟨b, hb, rfl⟩ := (Table.mem_mapRows hf).mp ha
    rw [hf]
    exact t.lt_next b hb

theorem putAll_toTable (t : Serial α key) (bs : List α) :
    (t.putAll bs).toTable = t.toTable.putAll bs := by
  induction bs generalizing t with
  | nil => rfl
  | cons b _ ih => exact ih (t.put b)

theorem putAll_next (t : Serial α key) (bs : List α) : (t.putAll bs).next = t.next := by
  induction bs generalizing t with
  | nil => rfl
  | cons b _ ih => exact ih (t.put b)

theorem rows_append {t : Serial α key} {f : Nat → α}
    (h : key (f t.next) = t.next) : (t.append f).rows = t.rows ++ [f t.next] := by
  unfold append
  rw [dif_pos h]

theorem next_append {t : Serial α key} {f : Nat → α}
    (h : key (f t.next) = t.next) : (t.append f).next = t.next + 1 := by
  unfold append
  rw [dif_pos h]

/-- The rows that appending a list of row builders produces, starting at `n`. -/
def built (n : Nat) : List (Nat → α) → List α
  | [] => []
  | f :: fs => f n :: built (n + 1) fs

theorem length_built (fs : List (Nat → α)) : ∀ n, (built n fs).length = fs.length := by
  induction fs with
  | nil => exact fun _ => rfl
  | cons _ fs ih =>
    intro n
    show (built (n + 1) fs).length + 1 = fs.length + 1
    rw [ih]

variable {fs : List (Nat → α)}

/-- Appending adds exactly the built rows, at the end. -/
theorem rows_appendAll (h : ∀ f ∈ fs, ∀ n, key (f n) = n) :
    ∀ t : Serial α key, (t.appendAll fs).rows = t.rows ++ built t.next fs := by
  induction fs with
  | nil =>
    intro t
    show t.rows = t.rows ++ []
    rw [append_nil]
  | cons f fs ih =>
    intro t
    have hf := h f mem_cons_self t.next
    show ((t.append f).appendAll fs).rows = _
    rw [ih (fun m hm => h m (mem_cons_of_mem _ hm)), rows_append hf, next_append hf, append_assoc]
    rfl

/-- The sequence only moves on. -/
theorem next_le_appendAll (h : ∀ f ∈ fs, ∀ n, key (f n) = n) :
    ∀ t : Serial α key, t.next ≤ (t.appendAll fs).next := by
  induction fs with
  | nil => exact fun t => Nat.le_refl _
  | cons f fs ih =>
    intro t
    have htail := ih (fun g hg => h g (mem_cons_of_mem _ hg)) (t.append f)
    rw [next_append (h f mem_cons_self t.next)] at htail
    show t.next ≤ ((t.append f).appendAll fs).next
    omega

/-- The built rows have fresh keys. -/
theorem le_key_built (h : ∀ f ∈ fs, ∀ n, key (f n) = n) {a : α} :
    ∀ {n : Nat}, a ∈ built n fs → n ≤ key a := by
  induction fs with
  | nil =>
    intro n ha
    exact absurd ha (by simp [built])
  | cons f _ ih =>
    intro n ha
    rcases mem_cons.mp ha with rfl | ha
    · exact Nat.le_of_eq (h f mem_cons_self n).symm
    · have := ih (fun g hg => h g (mem_cons_of_mem _ hg)) ha
      omega

theorem mem_built {a : α} : ∀ {n : Nat}, a ∈ built n fs → ∃ f ∈ fs, ∃ m, a = f m := by
  induction fs with
  | nil =>
    intro n h
    exact absurd h (by simp [built])
  | cons f _ ih =>
    intro n h
    rcases mem_cons.mp h with rfl | h
    · exact ⟨f, mem_cons_self, n, rfl⟩
    · obtain ⟨m, hm, k, hk⟩ := ih h
      exact ⟨m, mem_cons_of_mem _ hm, k, hk⟩

/-- What does not depend on the drawn keys can be read off the builders. -/
theorem map_built {β : Type} {g : α → β} {h : (Nat → α) → β}
    (hg : ∀ f ∈ fs, ∀ n, g (f n) = h f) (n : Nat) : (built n fs).map g = fs.map h := by
  induction fs generalizing n with
  | nil => rfl
  | cons f fs ih =>
    show g (f n) :: (built (n + 1) fs).map g = h f :: fs.map h
    rw [hg f mem_cons_self n, ih (fun k hk => hg k (mem_cons_of_mem _ hk))]

end Serial

/-! ## §7. What differs. -/

/-- The rows that are in one of the two lists only are of the kind `p`. -/
def DifferIn {α : Type} (p : α → Prop) (rows rows' : List α) : Prop :=
  ∀ a, (a ∈ rows' ↔ a ∈ rows) ∨ p a

namespace DifferIn

variable {α κ : Type} {key : α → κ} {p : α → Prop}

theorem refl (p : α → Prop) (rows : List α) : DifferIn p rows rows := fun _ => .inl Iff.rfl

variable {rows rows' : List α} {a : α} {t : Table α key}

theorem trans {rows'' : List α} (h : DifferIn p rows rows')
    (h' : DifferIn p rows' rows'') : DifferIn p rows rows'' := by
  intro a
  rcases h a with heq | ha
  · rcases h' a with heq' | ha
    · exact .inl (heq'.trans heq)
    · exact .inr ha
  · exact .inr ha

/-- A row that is new is of the kind. -/
theorem of_new (h : DifferIn p rows rows') (ha : a ∈ rows') (hnew : a ∉ rows) : p a := by
  rcases h a with heq | hp
  · exact absurd (heq.mp ha) hnew
  · exact hp

/-- The rows of another kind are the same. -/
theorem same_of_disjoint (h : DifferIn p rows rows') {q : α → Prop}
    (hdisjoint : ∀ a, q a → ¬ p a) (a : α) : (a ∈ rows' ∧ q a) ↔ (a ∈ rows ∧ q a) := by
  rcases h a with heq | hp
  · rw [heq]
  · have hq : ¬ q a := fun hq => hdisjoint a hq hp
    simp [hq]

/-- What is found under the key of a row of the kind is of the kind. -/
theorem of_key [DecidableEq κ] {t' : Table α key} (h : DifferIn p t.rows t'.rows) {b : α}
    (ha : a ∈ t.rows) (hp : p a) (hb : t'.find? (key a) = some b) : p b := by
  rcases h b with heq | hpb
  · rw [t.eq_of_key_eq (heq.mp (Table.mem_of_find? hb)) ha (Table.key_of_find? hb)]
    exact hp
  · exact hpb

/-- What is found under the next key is of the kind. -/
theorem of_next {key : α → Nat} {t t' : Serial α key} (h : DifferIn p t.rows t'.rows)
    (ha : t'.find? t.next = some a) : p a := by
  apply h.of_new (Table.mem_of_find? ha)
  intro hold
  have hlt := t.lt_next a hold
  have hid : key a = t.next := Table.key_of_find? ha
  omega

theorem append {new : List α} (h : ∀ a ∈ new, p a) : DifferIn p rows (rows ++ new) := by
  intro a
  by_cases ha : a ∈ new
  · exact .inr (h a ha)
  · simp [ha]

theorem delete {q : α → Bool} (h : ∀ a ∈ t.rows, q a = true → p a) :
    DifferIn p t.rows (t.delete q).rows := by
  intro a
  rw [Table.mem_delete]
  by_cases ha : a ∈ t.rows ∧ q a = true
  · exact .inr (h a ha.1 ha.2)
  · refine .inl ⟨And.left, fun hmem => ⟨hmem, ?_⟩⟩
    exact Bool.eq_false_of_not_eq_true fun hq => ha ⟨hmem, hq⟩

/-- An update of all rows that leaves the others as they are. -/
theorem mapRows {f : α → α} (hf : ∀ a, key (f a) = key a)
    (h : ∀ a ∈ t.rows, f a = a ∨ (p a ∧ p (f a))) : DifferIn p t.rows (t.mapRows f hf).rows := by
  intro a
  rw [Table.mem_mapRows hf]
  by_cases hp : p a
  · exact .inr hp
  · refine .inl ⟨?_, ?_⟩
    · rintro ⟨b, hb, rfl⟩
      rcases h b hb with heq | ⟨-, hpb⟩
      · rw [heq]
        exact hb
      · exact absurd hpb hp
    · intro ha
      rcases h a ha with heq | ⟨hpa, -⟩
      · exact ⟨a, ha, heq⟩
      · exact absurd hpa hp

/-- An update of the row `a`. -/
theorem put [DecidableEq κ] {b : α} (ha : a ∈ t.rows) (hkey : key b = key a)
    (hpa : p a) (hpb : p b) : DifferIn p t.rows (t.put b).rows := by
  intro c
  rw [Table.mem_put]
  by_cases hp : p c
  · exact .inr hp
  · refine .inl ⟨?_, ?_⟩
    · rintro (⟨rfl, -⟩ | ⟨hc, -⟩)
      · exact absurd hpb hp
      · exact hc
    · intro hc
      refine .inr ⟨hc, fun heq => hp ?_⟩
      rw [t.eq_of_key_eq hc ha (heq.trans hkey)]
      exact hpa

end DifferIn

end Relational
