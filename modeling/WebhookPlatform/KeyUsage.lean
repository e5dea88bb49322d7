/-
  WebhookPlatform.KeyUsage
  **THE BUFFER OF KEY USAGE** (`app/api_key_usage.py`).

  `record` notes when a key was used, one entry per key and at most
  `max_entries` of them; `flush` detaches the whole map and, if the database
  refuses it, merges it back under whatever was recorded meanwhile.  The merge
  DOES NOT LOOK AT THE BOUND: `usage_bounded_iff` says exactly when the bound
  is kept over a run, `failed_flush_overflows` is a run where it is not.
-/
import WebhookPlatform.Lib.Table
import WebhookPlatform.Config

namespace WebhookPlatform

open Relational List Table

/-- An entry of `_pending`. -/
structure Usage where
  apiKeyId : Nat
  usedAt : Time
  deriving Repr, DecidableEq

/-- `_pending`, a map from key ids to times. -/
abbrev UsageMap := Table Usage Usage.apiKeyId

/-- `self._pending[api_key_id] = max(existing or used_at, used_at)`. -/
def UsageMap.coalesce (m : UsageMap) (u : Usage) : UsageMap :=
  let existing := ((m.find? u.apiKeyId).map Usage.usedAt).getD u.usedAt
  (m.insert u).put ⟨u.apiKeyId, max existing u.usedAt⟩

/-- A tracker: whether it runs, `_pending`, and the maps that the flushes in
progress have detached. -/
structure UsageTracker where
  running : Bool := false
  pending : UsageMap := Table.empty
  detached : List UsageMap := []

/-- What happens to a tracker.  A flush is two sections under the lock, with
the transaction between them: `flushed i` and `failed i` end the `i`-th of those
in progress.  The flush that `stop` ends with is a move of its own. -/
inductive UsageMove where
  | start
  | stop
  | record (u : Usage)
  | flush
  | flushed (i : Nat)
  | failed (i : Nat)

namespace UsageTracker

/-- The merge of a failed flush. -/
def merged (d : UsageTracker) (m : UsageMap) : UsageMap := m.rows.foldl UsageMap.coalesce d.pending

def step (maxEntries : Nat) (d : UsageTracker) : UsageMove → UsageTracker
  | .start => { d with running := true }
  | .stop => { d with running := false }
  | .record u =>
    if d.running && ((d.pending.find? u.apiKeyId).isSome
        || decide (d.pending.rows.length < maxEntries)) then
      { d with pending := d.pending.coalesce u }
    else d
  | .flush =>
    if d.pending.rows.isEmpty then d
    else { d with pending := Table.empty, detached := d.detached ++ [d.pending] }
  | .flushed i => { d with detached := d.detached.eraseIdx i }
  | .failed i =>
    match d.detached[i]? with
    | none => d
    | some m => { d with pending := d.merged m, detached := d.detached.eraseIdx i }

/-- The tracker after these moves. -/
def after (maxEntries : Nat) (xs : List UsageMove) : UsageTracker := xs.foldl (step maxEntries) {}

/-- The entries that come back from the `i`-th flush and are not pending again. -/
def returning (d : UsageTracker) (i : Nat) : Nat :=
  ((d.detached[i]?.map Table.rows).getD []).countP fun u =>
    decide (u.apiKeyId ∉ d.pending.rows.map Usage.apiKeyId)

end UsageTracker

section Keys

variable {m : UsageMap} {u : Usage}

theorem keys_coalesce_of_mem (h : u.apiKeyId ∈ m.rows.map Usage.apiKeyId) :
    (m.coalesce u).rows.map Usage.apiKeyId = m.rows.map Usage.apiKeyId := by
  unfold UsageMap.coalesce
  rw [keys_put, Table.insert_of_mem h]

theorem keys_coalesce_of_notMem (h : u.apiKeyId ∉ m.rows.map Usage.apiKeyId) :
    (m.coalesce u).rows.map Usage.apiKeyId = m.rows.map Usage.apiKeyId ++ [u.apiKeyId] := by
  unfold UsageMap.coalesce
  rw [keys_put, rows_insert h, map_append]
  rfl

theorem length_keys (m : UsageMap) : (m.rows.map Usage.apiKeyId).length = m.rows.length :=
  length_map _

/-- **What a merge adds**: the entries whose keys are not there. -/
theorem length_merge (us : List Usage) (hnodup : (us.map Usage.apiKeyId).Nodup) (m : UsageMap) :
    (us.foldl UsageMap.coalesce m).rows.length
      = m.rows.length
        + us.countP fun u => decide (u.apiKeyId ∉ m.rows.map Usage.apiKeyId) := by
  induction us generalizing m with
  | nil => rfl
  | cons u us ih =>
    obtain ⟨hfresh, hrest⟩ := nodup_cons.mp hnodup
    rw [foldl_cons, ih hrest, ← length_keys (m.coalesce u), ← length_keys m]
    by_cases hmem : u.apiKeyId ∈ m.rows.map Usage.apiKeyId
    · rw [keys_coalesce_of_mem hmem, countP_cons_of_neg (by simpa using hmem)]
    · -- no later entry has this key
      have hsame : us.countP (fun v => decide (v.apiKeyId ∉ m.rows.map Usage.apiKeyId
            ++ [u.apiKeyId]))
          = us.countP fun v => decide (v.apiKeyId ∉ m.rows.map Usage.apiKeyId) := by
        refine countP_congr fun v hv => ?_
        have hne : v.apiKeyId ≠ u.apiKeyId := fun h => hfresh (h ▸ mem_map_of_mem hv)
        simp [hne]
      rw [keys_coalesce_of_notMem hmem, hsame, countP_cons_of_pos (by simpa using hmem),
        length_append, length_singleton]
      omega

end Keys

namespace UsageTracker

variable {d : UsageTracker} {maxEntries : Nat}

/-- A move that is no failed flush keeps the bound. -/
theorem bounded_step (h : d.pending.rows.length ≤ maxEntries) {x : UsageMove}
    (hx : ∀ i, x ≠ .failed i) : (d.step maxEntries x).pending.rows.length ≤ maxEntries := by
  cases x with
  | record u =>
    unfold step
    dsimp only
    split
    next hroom =>
      show (d.pending.coalesce u).rows.length ≤ maxEntries
      rw [← length_keys]
      by_cases hmem : u.apiKeyId ∈ d.pending.rows.map Usage.apiKeyId
      · rw [keys_coalesce_of_mem hmem, length_keys]
        exact h
      · -- a new key is recorded only below the bound
        have hnone : d.pending.find? u.apiKeyId = none :=
          find?_eq_none.mpr fun v hv hkey => hmem (hkey ▸ mem_map_of_mem hv)
        rw [keys_coalesce_of_notMem hmem, length_append, length_keys, length_singleton]
        simp [hnone] at hroom
        omega
    · exact h
  | flush =>
    unfold step
    dsimp only
    split
    · exact h
    · exact Nat.zero_le _
  | failed i => exact absurd rfl (hx i)
  | start | stop | flushed => exact h

theorem length_failed (d : UsageTracker) (i : Nat) :
    (d.step maxEntries (.failed i)).pending.rows.length
      = d.pending.rows.length + d.returning i := by
  unfold step returning
  cases hdetached : d.detached[i]? with
  | none => simp only [hdetached]; rfl
  | some m => simp only [hdetached]; exact length_merge m.rows m.nodup d.pending

theorem after_snoc (xs : List UsageMove) (x : UsageMove) :
    after maxEntries (xs ++ [x]) = (after maxEntries xs).step maxEntries x := by
  unfold after
  rw [foldl_append]
  rfl

/-- **THE BUFFER IS BOUNDED EXACTLY IF EVERY FAILED FLUSH FINDS ROOM** for the
entries that it brings back. -/
theorem usage_bounded_iff (maxEntries : Nat) (xs : List UsageMove) :
    (∀ ys, ys <+: xs → (after maxEntries ys).pending.rows.length ≤ maxEntries)
      ↔ ∀ ys i, ys ++ [.failed i] <+: xs → (after maxEntries ys).pending.rows.length
          + (after maxEntries ys).returning i ≤ maxEntries := by
  constructor
  · intro hbounded ys i hys
    have hafter := hbounded _ hys
    rw [after_snoc, length_failed] at hafter
    exact hafter
  · intro hroom ys
    -- from the front: what a prefix leaves, then one more move
    induction ys using List.reverseRecOn with
    | nil => exact fun _ => Nat.zero_le _
    | append_singleton ys x ih =>
      intro hys
      have hbefore := ih ((List.prefix_append ys [x]).trans hys)
      rw [after_snoc]
      -- only the merge of a failed flush does not look at the bound
      by_cases hx : ∃ i, x = .failed i
      · obtain ⟨i, rfl⟩ := hx
        rw [length_failed]
        exact hroom ys i hys
      · exact bounded_step hbefore fun i h => hx ⟨i, h⟩

end UsageTracker

/-- Recordings of the keys from `first` on. -/
def recordings (first n : Nat) : List UsageMove :=
  (List.range n).map fun i => .record ⟨first + i, 0⟩

/-- **A FAILED FLUSH OVERFLOWS THE BUFFER**: a hundred keys are recorded and
detached, another hundred are recorded meanwhile. -/
theorem failed_flush_overflows :
    (UsageTracker.after 100 ([.start] ++ recordings 0 100 ++ [.flush] ++ recordings 100 100
      ++ [.failed 0])).pending.rows.length = 200 := by
  decide +kernel

end WebhookPlatform
