/-
  WebhookPlatform.LeaseRace
  **ONE SETTLEMENT PER CLAIM, UNDER EVERY INTERLEAVING OF STATEMENTS.**

  Workers renew, release and finalize claims, repeat and race these calls,
  crash, and are superseded.  Three invariants of the commits tie together
  tokens, settlements and attempt records:

    • `Ledger`    — a row's token names its latest claim (as in the atomic
                    model, over the commits of this one),
    • `Settled`   — a claim that was released or finalized owns its row no
                    more,
    • `Recorded`  — attempt numbers grow in recording order, and stay below
                    the number of a claim that owns the row.

  `leases_guarded` reads them at every statement: a call changes something
  only while its claim owns the row, a claim settles at most once, and the
  unique constraint on attempts never refuses a finalization.

  An expired lease stops a renewal and a finalization, but not a release:
  `release_claim` looks at the token only (`expired_release_takes_effect`).
-/
import WebhookPlatform.ClaimLedger
import WebhookPlatform.TransactionOutline

namespace WebhookPlatform

open Relational Transition RowLocks List

/-! ## §1. Settlements and attempt records. -/

/-- A settled claim owns its row no more, and was settled once. -/
structure Settled (d : Shared) : Prop where
  issued : ∀ c ∈ d.settled, c ∈ d.issued
  gone : ∀ c ∈ d.settled, ∀ x ∈ d.db.deliveries.rows, x.id = c.id → c.owns x = false
  nodup : d.settled.Nodup

/-- The attempt numbers of each delivery grow in recording order, up to its
attempt count. -/
structure AttemptsOrdered (db : Db) : Prop where
  increasing : db.attempts.Pairwise fun a b =>
    a.deliveryId = b.deliveryId → a.attemptNumber < b.attemptNumber
  bound : ∀ a ∈ db.attempts, ∀ x ∈ db.deliveries.rows, x.id = a.deliveryId →
    a.attemptNumber ≤ x.attemptCount

/-- The records are in order, and behind every claim that owns its row. -/
structure Recorded (d : Shared) : Prop extends AttemptsOrdered d.db where
  deliveryId : ∀ a ∈ d.db.attempts, a.deliveryId < d.db.deliveries.next
  owned : ∀ a ∈ d.db.attempts, ∀ c ∈ d.issued, ∀ x ∈ d.db.deliveries.rows, x.id = a.deliveryId →
    x.id = c.id → c.owns x = true → a.attemptNumber < x.attemptCount

/-- The invariant of the commits. -/
structure Accounted (d : Shared) : Prop where
  ledger : Ledger d.toWorld
  settled : Settled d
  recorded : Recorded d

/-- No claim is in a worker's hands; the tokens on the rows count as drawn. -/
structure AtRest (d : Shared) : Prop where
  issued : d.issued = []
  settled : d.settled = []
  tokens : ∀ x ∈ d.db.deliveries.rows, ∀ t, x.leaseToken = some t → t ∈ d.drawn
  deliveryId : ∀ a ∈ d.db.attempts, a.deliveryId < d.db.deliveries.next
  attempts : AttemptsOrdered d.db

theorem accounted_atRest (h : AtRest d) : Accounted d := by
  have hnone : ∀ c, c ∉ d.issued := by
    intro c hc
    rw [h.issued] at hc
    cases hc
  refine ⟨ledger_unissued h.issued h.tokens, ⟨?_, ?_, ?_⟩, ⟨h.attempts, h.deliveryId, ?_⟩⟩
  · rw [h.settled]
    exact fun c hc => absurd hc (by simp)
  · rw [h.settled]
    exact fun c hc => absurd hc (by simp)
  · rw [h.settled]
    exact nodup_nil
  · exact fun a _ c hc => absurd hc (hnone c)

/-! ## §2. What the commits keep. -/

section Commits

variable {d d' : Shared}

/-- The row under an updated id is the new one. -/
theorem row_of_put (deliveries : d'.db.deliveries = d.db.deliveries.put new)
    (hx : x ∈ d'.db.deliveries.rows) :
    x = new ∨ (x ∈ d.db.deliveries.rows ∧ x.id ≠ new.id) := by
  rw [deliveries] at hx
  rcases Table.mem_put.mp hx with ⟨rfl, -⟩ | hx
  · exact Or.inl rfl
  · exact Or.inr hx

/-- Nobody owns a delivery that was put out of processing. -/
theorem unowned_of_put (hnew : new.status ≠ .processing) (c : ClaimedDelivery) :
    ∀ x ∈ (d.db.deliveries.put new).rows, x.id = new.id → c.owns x = false := by
  intro x hx hid
  rcases Table.mem_put.mp hx with ⟨rfl, -⟩ | ⟨-, hne⟩
  · rw [Bool.eq_false_iff]
    exact fun howns => hnew (ClaimedDelivery.owns_iff.mp howns).1
  · exact absurd hid hne

theorem settled_updated (h : Settled d)
    (deliveries : d'.db.deliveries = d.db.deliveries.put new) (issued : d'.issued = d.issued)
    (settled : d'.settled = d.settled) (mem : old ∈ d.db.deliveries.rows)
    (update : KeepsOwner old new) : Settled d' := by
  refine ⟨?_, ?_, ?_⟩
  · rw [settled, issued]
    exact h.issued
  · rw [settled]
    intro c hc x hx hid
    rcases row_of_put deliveries hx with rfl | ⟨hx, -⟩
    · rw [Bool.eq_false_iff]
      intro howns
      have hold := h.gone c hc old mem (update.id.symm.trans hid)
      rw [update.owns c howns] at hold
      exact absurd hold (by decide)
    · exact h.gone c hc x hx hid
  · rw [settled]
    exact h.nodup

theorem recorded_updated (h : Recorded d)
    (deliveries : d'.db.deliveries = d.db.deliveries.put new) (issued : d'.issued = d.issued)
    (attempts : d'.db.attempts = d.db.attempts) (mem : old ∈ d.db.deliveries.rows)
    (update : KeepsOwner old new) : Recorded d' := by
  refine ⟨⟨?_, ?_⟩, ?_, ?_⟩
  · rw [attempts]
    exact h.increasing
  · rw [attempts]
    intro a ha x hx hid
    rcases row_of_put deliveries hx with rfl | ⟨hx, -⟩
    · rw [update.attemptCount]
      exact h.bound a ha old mem (update.id.symm.trans hid)
    · exact h.bound a ha x hx hid
  · rw [attempts, deliveries]
    exact h.deliveryId
  · rw [attempts, issued]
    intro a ha c hc x hx hid hcid howns
    rcases row_of_put deliveries hx with rfl | ⟨hx, -⟩
    · rw [update.attemptCount]
      exact h.owned a ha c hc old mem (update.id.symm.trans hid) (update.id.symm.trans hcid)
        (update.owns c howns)
    · exact h.owned a ha c hc x hx hid hcid howns

/-- **One more settlement**, of a claim that owns its row no more. -/
theorem Settled.settle (h : Settled d)
    (deliveries : d'.db.deliveries = d.db.deliveries) (issued : d'.issued = d.issued)
    (settled : d'.settled = d.settled ++ [c]) (hissued : c ∈ d.issued) (hnew : c ∉ d.settled)
    (hgone : ∀ x ∈ d.db.deliveries.rows, x.id = c.id → c.owns x = false) : Settled d' := by
  refine ⟨?_, ?_, ?_⟩
  · rw [settled, issued]
    intro c' hc'
    rcases mem_append.mp hc' with hc' | hc'
    · exact h.issued c' hc'
    · rw [mem_singleton.mp hc']
      exact hissued
  · rw [settled, deliveries]
    intro c' hc'
    rcases mem_append.mp hc' with hc' | hc'
    · exact h.gone c' hc'
    · rw [mem_singleton.mp hc']
      exact hgone
  · rw [settled, nodup_append]
    refine ⟨h.nodup, nodup_singleton c, fun a ha b hb hab => ?_⟩
    rw [hab, mem_singleton.mp hb] at ha
    exact hnew ha

/-- **One more record**, of a delivery that nobody owns any more. -/
theorem Recorded.record (h : Recorded d) (deliveries : d'.db.deliveries = d.db.deliveries)
    (issued : d'.issued = d.issued) (attempts : d'.db.attempts = d.db.attempts ++ [a])
    (hid : a.deliveryId < d.db.deliveries.next)
    (hbound : ∀ x ∈ d.db.deliveries.rows, x.id = a.deliveryId → a.attemptNumber ≤ x.attemptCount)
    (hunowned : ∀ c : ClaimedDelivery, ∀ x ∈ d.db.deliveries.rows, x.id = a.deliveryId →
      c.owns x = false)
    (hlast : ∀ b ∈ d.db.attempts, b.deliveryId = a.deliveryId → b.attemptNumber < a.attemptNumber) :
    Recorded d' := by
  -- every record is an old one or the new one
  have hmem : ∀ b ∈ d'.db.attempts, b ∈ d.db.attempts ∨ b = a := by
    rw [attempts]
    intro b hb
    rcases mem_append.mp hb with hb | hb
    · exact Or.inl hb
    · exact Or.inr (mem_singleton.mp hb)
  refine ⟨⟨?_, fun b hb => ?_⟩, fun b hb => ?_, fun b hb => ?_⟩
  · rw [attempts, pairwise_append]
    refine ⟨h.increasing, pairwise_singleton _ _, fun b hb a' ha' => ?_⟩
    rw [mem_singleton.mp ha']
    exact hlast b hb
  · rw [deliveries]
    rcases hmem b hb with hb | rfl
    · exact h.bound b hb
    · exact hbound
  · rw [deliveries]
    rcases hmem b hb with hb | rfl
    · exact h.deliveryId b hb
    · exact hid
  · rw [deliveries, issued]
    rcases hmem b hb with hb | rfl
    · exact h.owned b hb
    · intro c _ x hx hxa _ howns
      rw [hunowned c x hx hxa] at howns
      exact absurd howns (by decide)

theorem Settled.not_settled (h : Settled d)
    (row : x ∈ d.db.deliveries.rows) (id : x.id = c.id) (owns : c.owns x = true) :
    c ∉ d.settled := by
  intro hc
  have hgone := h.gone c hc x row id
  rw [owns] at hgone
  exact absurd hgone (by decide)

/-- **THE UNIQUE CONSTRAINT NEVER REFUSES**: no record carries the number of
the claim that owns the row. -/
theorem not_recorded_of_owns (h : Accounted d)
    (row : x ∈ d.db.deliveries.rows) (issued : c ∈ d.issued) (id : x.id = c.id)
    (owns : c.owns x = true) : recorded d.db x.id c.attemptNumber = false := by
  rw [Bool.eq_false_iff]
  intro hrec
  unfold recorded at hrec
  obtain ⟨a, ha, hboth⟩ := any_eq_true.mp hrec
  simp only [Bool.and_eq_true, decide_eq_true_eq] at hboth
  have hlt := h.recorded.owned a ha c issued x row hboth.1.symm id owns
  have hnumber : c.attemptNumber = x.attemptCount := h.ledger.owner c issued x row id owns
  omega

/-- New rows have new ids, and nobody owns them. -/
theorem row_of_append (deliveries : d'.db.deliveries = d.db.deliveries.appendAll rows)
    (build : ∀ f ∈ rows, ∀ n, (f n).id = n ∧ (f n).status = .pending ∧ (f n).leaseToken = none)
    (hx : x ∈ d'.db.deliveries.rows) :
    x ∈ d.db.deliveries.rows ∨ (d.db.deliveries.next ≤ x.id ∧ x.status = .pending) := by
  have hkey : ∀ f ∈ rows, ∀ n, (f n).id = n := fun f hf n => (build f hf n).1
  rw [deliveries, Serial.rows_appendAll hkey] at hx
  rcases mem_append.mp hx with hx | hx
  · exact Or.inl hx
  · have hfresh := Serial.le_key_built hkey hx
    obtain ⟨f, hf, n, rfl⟩ := Serial.mem_built hx
    exact Or.inr ⟨hfresh, (build f hf n).2.1⟩

theorem accounted_created (rows : List (Nat → Delivery)) (h : Accounted d)
    (deliveries : d'.db.deliveries = d.db.deliveries.appendAll rows)
    (attempts : d'.db.attempts = d.db.attempts) (issued : d'.issued = d.issued)
    (drawn : d'.drawn = d.drawn) (settled : d'.settled = d.settled)
    (build : ∀ f ∈ rows, ∀ n, (f n).id = n ∧ (f n).status = .pending ∧ (f n).leaseToken = none) :
    Accounted d' := by
  have hnext : d.db.deliveries.next ≤ d'.db.deliveries.next := by
    rw [deliveries]
    exact Serial.next_le_appendAll (fun f hf n => (build f hf n).1) _
  refine ⟨ledger_created h.ledger deliveries issued drawn build, ⟨?_, ?_, ?_⟩, ⟨⟨?_, ?_⟩, ?_, ?_⟩⟩
  · rw [settled, issued]
    exact h.settled.issued
  · rw [settled]
    intro c hc x hx hid
    rcases row_of_append deliveries build hx with hx | ⟨-, hpending⟩
    · exact h.settled.gone c hc x hx hid
    · rw [Bool.eq_false_iff, Ne, ClaimedDelivery.owns_iff, hpending]
      exact fun howns => absurd howns.1 (by decide)
  · rw [settled]
    exact h.settled.nodup
  · rw [attempts]
    exact h.recorded.increasing
  · rw [attempts]
    intro a ha x hx hid
    rcases row_of_append deliveries build hx with hx | ⟨hfresh, -⟩
    · exact h.recorded.bound a ha x hx hid
    · have hold := h.recorded.deliveryId a ha
      omega
  · rw [attempts]
    intro a ha
    have hold := h.recorded.deliveryId a ha
    omega
  · rw [attempts, issued]
    intro a ha c hc x hx hid hcid howns
    rcases row_of_append deliveries build hx with hx | ⟨hfresh, -⟩
    · exact h.recorded.owned a ha c hc x hx hid hcid howns
    · have hold := h.recorded.deliveryId a ha
      omega

theorem accounted_claimed {now : Time} (h : Accounted d)
    (deliveries : d'.db.deliveries = d.db.deliveries.putAll (claimedRows s now picks))
    (attempts : d'.db.attempts = d.db.attempts) (issued : d'.issued = d.issued ++ claims)
    (drawn : ∀ t ∈ d.drawn, t ∈ d'.drawn) (settled : d'.settled = d.settled)
    (hpick : ∀ x ∈ picks, x.1 ∈ d.db.deliveries.rows) (hids : (picks.map fun x => x.1.id).Nodup)
    (fresh : ∀ x ∈ picks, x.2 ∉ d.drawn ∧ x.2 ∈ d'.drawn) (built : BuiltFrom seen picks claims) :
    Accounted d' := by
  have hrow : ∀ x ∈ d'.db.deliveries.rows, (∃ y ∈ picks, x = claimRow s now y.2 y.1)
      ∨ (x ∈ d.db.deliveries.rows ∧ ∀ y ∈ picks, y.1.id ≠ x.id) := by
    rw [deliveries]
    exact fun x hx => mem_claimed hx
  refine ⟨ledger_claimed h.ledger deliveries issued drawn hpick hids fresh built, ⟨?_, ?_, ?_⟩,
    ⟨⟨?_, ?_⟩, ?_, ?_⟩⟩
  · rw [settled, issued]
    exact fun c hc => mem_append_left _ (h.settled.issued c hc)
  · rw [settled]
    intro c hc x hx hid
    rcases hrow x hx with ⟨y, hy, rfl⟩ | ⟨hx, -⟩
    · -- the new token is not the settled claim's
      rw [Bool.eq_false_iff]
      intro howns
      have htoken : y.2 = c.leaseToken := Option.some.inj (ClaimedDelivery.owns_iff.mp howns).2
      exact (fresh y hy).1 (htoken ▸ h.ledger.claimToken c (h.settled.issued c hc))
    · exact h.settled.gone c hc x hx hid
  · rw [settled]
    exact h.settled.nodup
  · rw [attempts]
    exact h.recorded.increasing
  · rw [attempts]
    intro a ha x hx hid
    rcases hrow x hx with ⟨y, hy, rfl⟩ | ⟨hx, -⟩
    -- the old records were within the count before the claim
    · have hold := h.recorded.bound a ha y.1 (hpick y hy) hid
      show a.attemptNumber ≤ y.1.attemptCount + 1
      omega
    · exact h.recorded.bound a ha x hx hid
  · rw [attempts, deliveries, Serial.putAll_next]
    exact h.recorded.deliveryId
  · rw [attempts, issued]
    intro a ha c hc x hx hid hcid howns
    rcases hrow x hx with ⟨y, hy, rfl⟩ | ⟨hx, hne⟩
    · have hold := h.recorded.bound a ha y.1 (hpick y hy) hid
      show a.attemptNumber < y.1.attemptCount + 1
      omega
    · rcases mem_append.mp hc with hc | hc
      · exact h.recorded.owned a ha c hc x hx hid hcid howns
      -- a claim of this batch is of another row
      · obtain ⟨y, hy, hyid, -, -⟩ := built.mem hc
        exact absurd (hyid.symm.trans hcid.symm) (hne y hy)

theorem accounted_kept (h : Accounted d) (deliveries : d'.db.deliveries = d.db.deliveries)
    (attempts : d'.db.attempts = d.db.attempts) (issued : d'.issued = d.issued)
    (drawn : d'.drawn = d.drawn) (settled : d'.settled = d.settled) : Accounted d' :=
  accounted_created [] h deliveries attempts issued drawn settled fun _ hf => absurd hf (by simp)

theorem accounted_updated (h : Accounted d)
    (deliveries : d'.db.deliveries = d.db.deliveries.put new)
    (attempts : d'.db.attempts = d.db.attempts) (issued : d'.issued = d.issued)
    (drawn : d'.drawn = d.drawn) (settled : d'.settled = d.settled)
    (mem : old ∈ d.db.deliveries.rows) (update : KeepsOwner old new) : Accounted d' :=
  ⟨ledger_updated h.ledger deliveries issued drawn mem update,
    settled_updated h.settled deliveries issued settled mem update,
    recorded_updated h.recorded deliveries issued attempts mem update⟩

/-- **A settlement**: the row leaves processing, and a finalization records
the attempt. -/
theorem accounted_settled (h : Accounted d)
    (deliveries : d'.db.deliveries = d.db.deliveries.put new) (issued : d'.issued = d.issued)
    (drawn : d'.drawn = d.drawn) (settled : d'.settled = d.settled ++ [c])
    (attempts : d'.db.attempts = d.db.attempts ∨ ∃ a, d'.db.attempts = d.db.attempts ++ [a]
      ∧ a.deliveryId = new.id ∧ a.attemptNumber = c.attemptNumber)
    (row : x ∈ d.db.deliveries.rows) (hissued : c ∈ d.issued) (id : x.id = c.id)
    (owns : c.owns x = true) (update : KeepsOwner x new) (hnew : new.status ≠ .processing) :
    Accounted d' := by
  -- first the row leaves processing, then the settlement and the record follow
  have hmid : Accounted { d with db.deliveries := d.db.deliveries.put new } :=
    accounted_updated h rfl rfl rfl rfl rfl row update
  refine ⟨ledger_updated h.ledger deliveries issued drawn row update, ?_, ?_⟩
  · refine hmid.settled.settle deliveries issued settled hissued
      (h.settled.not_settled row id owns) fun y hy hyc => ?_
    exact unowned_of_put hnew c y hy (hyc.trans (id.symm.trans update.id.symm))
  · rcases attempts with hsame | ⟨a, hadd, haid, hanumber⟩
    · exact recorded_updated h.recorded deliveries issued hsame row update
    · have hnumber : c.attemptNumber = x.attemptCount := h.ledger.owner c hissued x row id owns
      refine hmid.recorded.record deliveries issued hadd ?_ ?_ ?_ ?_
      · rw [haid, update.id]
        exact d.db.deliveries.lt_next x row
      · intro y hy hya
        rcases Table.mem_put.mp hy with ⟨rfl, -⟩ | ⟨-, hne⟩
        · rw [hanumber, hnumber, update.attemptCount]
        · exact absurd (hya.trans haid) hne
      · intro c' y hy hya
        exact unowned_of_put hnew c' y hy (hya.trans haid)
      · intro b hb hba
        rw [hanumber, hnumber]
        exact h.recorded.owned b hb c hissued x row
          (update.id.symm.trans (haid.symm.trans hba.symm)) id owns

end Commits

/-- Both replays and ingests add pending rows. -/
theorem newDeliveries_pending {now : Time} :
    ∀ f ∈ newDeliveries organizationId eventId call endpoints now, ∀ n,
      (f n).id = n ∧ (f n).status = .pending ∧ (f n).leaseToken = none := by
  intro f hf n
  obtain ⟨x, -, rfl⟩ := mem_map.mp hf
  exact ⟨rfl, rfl, rfl⟩

theorem finalizeRow_not_processing (s : Settings) (finished : Time) (c : ClaimedDelivery)
    (f : Finalization) (x : Delivery) : (finalizeRow s finished c f x).status ≠ .processing := by
  intro h
  rcases finalizeRow_status s finished c f x with hterminal | ⟨hretry, -⟩
  · rw [h] at hterminal
    exact absurd hterminal (by decide)
  · rw [h] at hretry
    exact absurd hretry (by decide)

/-- **Every commit keeps the accounts**, when tokens are fresh. -/
theorem accounted_commit (hp : p.fresh = true) (h : Accounted d) (hc : Commit P s p d d') :
    Accounted d' := by
  cases hc with
  | idle => exact h
  | ensured | purged => exact accounted_kept h rfl rfl rfl rfl rfl
  | claimed k b r claims rows _ nodup fresh built =>
    obtain ⟨g, ts, es, hframe⟩ := Shared.claimed_frame (s := s) k b r claims d
    have hattempts : (Shared.claimed s k b r claims d).db.attempts = d.db.attempts := by
      rw [hframe]
    -- each pick has a token of its own, drawn for this claim
    have htokens : ((claimPicks s k b r).map Prod.snd).Sublist k.tokens := snd_zip_sublist _ _
    refine accounted_claimed h rfl hattempts rfl (fun t ht => mem_append_left _ ht) rfl
      (fun x hx => rows x.1 (mem_claimPicks nodup hx)) (claimPicks_nodup nodup) ?_
      (claimAll_built _ built)
    intro x hx
    have hmem : x.2 ∈ k.tokens := htokens.subset (mem_map_of_mem hx)
    exact ⟨(fresh hp).2 x.2 hmem, mem_append_right _ hmem⟩
  | renewed now _ x row =>
    exact accounted_updated h rfl rfl rfl rfl rfl row (renewRow_keepsOwner s now x)
  | released now _ x row issued id owns =>
    exact accounted_settled h rfl rfl rfl rfl (Or.inl rfl) row issued id owns
      (releaseRow_keepsOwner now x) (by simp [releaseRow])
  | finalized now c f x _ row issued id holds =>
    -- a refused record rolls the finalization back
    unfold Shared.finalized
    split
    · exact h
    exact accounted_settled h rfl rfl rfl rfl (Or.inr ⟨_, rfl, rfl, rfl⟩) row issued id
      (ClaimedDelivery.owns_of_holds holds) (finalizeRow_keepsOwner s now c f x)
      (finalizeRow_not_processing s now c f x)
  | canceled now reason x _ row =>
    exact accounted_updated h rfl rfl rfl rfl rfl row (cancelRow_keepsOwner now reason x)
  | ingested =>
    exact accounted_created _ h rfl rfl rfl rfl rfl newDeliveries_pending
  | replayed q copies =>
    refine accounted_created q.copies h rfl rfl rfl rfl rfl fun f hf n => ?_
    obtain ⟨x, -, publicId, rfl⟩ := copies f hf
    exact ⟨rfl, rfl, rfl⟩

/-! ## §3. The calls of the workers. -/

/-- What a worker does with a claim. -/
inductive WorkerCall where
  | renew (now : Time) (c : ClaimedDelivery)
  | release (now : Time) (c : ClaimedDelivery)
  | finalize (now : Time) (c : ClaimedDelivery)

/-- The call that a statement of `renew_lease`, `release_claim` or `_finalize`
belongs to. -/
def Txn.workerCall {s : Settings} : Txn s → Option WorkerCall
  | .renewSelect now c | .renewWrite now c _ => some (.renew now c)
  | .releaseSelect now c | .releaseWrite now c _ => some (.release now c)
  | .finalizeSelect now c _ | .finalizeState now c _ _ | .finalizeWrite now c _ _ _ =>
    some (.finalize now c)
  | _ => none

/-- The claim the call is about. -/
def WorkerCall.claim : WorkerCall → ClaimedDelivery
  | .renew _ c | .release _ c | .finalize _ c => c

/-- The row lets the call take effect: it is processing under the claim's
token and, but for a release, the lease runs beyond the call's `now`. -/
def WorkerCall.permits : WorkerCall → Delivery → Bool
  | .renew now c => c.holds now
  | .release _ c => c.owns
  | .finalize now c => c.holds now

/-- The claims settled once the call has taken effect. -/
def WorkerCall.settles : WorkerCall → List ClaimedDelivery
  | .renew _ _ => []
  | .release _ c | .finalize _ c => [c]

/-- **What every step of a run respects.** -/
structure LeasesGuarded {s : Settings} (σ : Platform s) (m : Move Call Time) (σ' : Platform s) :
    Prop where
  /-- A statement of a call changes nothing, or the committed row permits the
  call, and the settlement is counted. -/
  effect : ∀ i l call, m = .exec i → σ.locals i = some l → l.workerCall = some call →
    σ'.db = σ.db ∨ (∃ x, σ.db.db.deliveries.find? call.claim.id = some x ∧ call.permits x = true)
      ∧ σ'.db.settled = σ.db.settled ++ call.settles
  /-- No settlement is forgotten, and no claim settles twice. -/
  history : σ.db.settled <+: σ'.db.settled
  once : σ'.db.settled.Nodup
  attempts : AttemptsOrdered σ'.db.db
  /-- The unique constraint lets every finalization pass. -/
  unrefused : ∀ i now c f x e, m = .exec i → σ.locals i = some (.finalizeWrite now c f x e) →
    recorded σ.db.db x.id c.attemptNumber = false

theorem Held.find? (h : Held d H c x) : d.db.deliveries.find? c.id = some x := by
  rw [← h.id]
  exact Table.find?_key h.row

/-- A statement of a worker's call takes effect only on a row that permits it. -/
theorem effect_stmt {G : Shared → Prop} {l : Txn s} {st : Stmt Shared Lock (Txn s)}
    (h : Accounted d) (hok : l.ok P p G d H) (hcall : l.workerCall = some call)
    (hst : l.stmt P s = some st) :
    st.write d = d ∨ (∃ x, d.db.deliveries.find? call.claim.id = some x ∧ call.permits x = true)
        ∧ (st.write d).settled = d.settled ++ call.settles := by
  cases l <;> simp only [Txn.workerCall, Option.some.injEq, reduceCtorEq] at hcall
  case renewSelect | releaseSelect | finalizeSelect | finalizeState =>
    cases hst
    exact Or.inl rfl
  case renewWrite now c x =>
    subst hcall
    cases hst
    exact Or.inr ⟨⟨x, hok.1.find?, hok.2⟩, (append_nil _).symm⟩
  case releaseWrite now c x =>
    subst hcall
    cases hst
    exact Or.inr ⟨⟨x, hok.1.find?, hok.2⟩, rfl⟩
  case finalizeWrite now c f x e =>
    subst hcall
    cases hst
    refine Or.inr ⟨⟨x, hok.1.find?, hok.2⟩, ?_⟩
    -- the constraint lets the record in
    have hfree := not_recorded_of_owns h hok.1.row hok.1.issued hok.1.id
      (ClaimedDelivery.owns_of_holds hok.2)
    show (Shared.finalized s now c f x e d).settled = _
    unfold Shared.finalized
    rw [hfree]
    rfl

/-! ## §4. All interleavings. -/

/-- **LEASES ARE GUARDED** in every interleaving, with fresh tokens and a clock
that never goes back. -/
theorem leases_guarded (P : Primitives) (s : Settings) (d : Shared) (hd : AtRest d)
    (ms : List (Move Call Time))
    (hfresh : Along (platform P s).step
      (Allowed (platform P s) (Discipline.allow { fresh := true })) (Sys.initial d) ms) :
    Along (platform P s).step LeasesGuarded (Sys.initial d) ms := by
  let O := outline P s { fresh := true } Accounted (fun _ _ h hc => accounted_commit rfl h hc)
    (fun _ _ h _ => accounted_kept h rfl rfl rfl rfl rfl)
  refine O.along ?_ (accounted_atRest hd) ms hfresh
  intro σ m σ' hσ hσ' hstep hallow
  have hafter : Accounted σ'.db := hσ'.glob
  have hrely : Rely σ.db σ'.db := O.rely_step Rely.refl hσ hstep hallow
  refine ⟨?_, hrely.settled, hafter.settled.nodup, hafter.recorded.toAttemptsOrdered, ?_⟩
  · intro i l call hm hl hcall
    subst hm
    obtain ⟨st, hst, hexec⟩ := (platform P s).step_exec hl hstep
    rw [(platform P s).execStmt_db hexec]
    exact effect_stmt hσ.glob (hσ.ok i l hl) hcall hst
  · intro i now c f x e _ hl
    have hok : Held σ.db (σ.held i) c x ∧ c.holds now x = true := hσ.ok i _ hl
    exact not_recorded_of_owns hσ.glob hok.1.row hok.1.issued hok.1.id
      (ClaimedDelivery.owns_of_holds hok.2)

/-- A receiver that answered with a 500. -/
def serverError : Finalization where
  started := 0
  result :=
    { succeeded := false, retryable := true, statusCode := some 500, error := some "http_500"
      responseBody := none }
  jitter := Jitter.zero

/-- Two calls finalize the same claim at the same time. -/
def finalizedTwice : List (Move Call Time) :=
  .begin 0 (.claim 1 ["token-1"]) :: List.replicate 9 (.exec 0)
    ++ [.begin 1 (.finalize (smallClaim "token-1" 1) serverError),
      .begin 2 (.finalize (smallClaim "token-1" 1) serverError)]
    ++ List.replicate 3 (.exec 2) ++ List.replicate 2 (.exec 1)

/-- One of the two takes effect. -/
theorem leases_guarded_small :
    (smallInterleaving {} finalizedTwice).map
        (fun σ => (σ.db.settled.length, σ.db.db.attempts.length)) = some (1, 1)
      ∧ Along (platform smallPrimitives {}).step LeasesGuarded (Sys.initial smallShared)
          finalizedTwice := by
  refine ⟨by decide +kernel, leases_guarded smallPrimitives {} smallShared ?_ _ ?_⟩
  · refine ⟨rfl, rfl, ?_, ?_, ⟨List.Pairwise.nil, ?_⟩⟩
    · intro x hx t ht
      rw [mem_singleton.mp hx] at ht
      exact absurd ht (by simp [smallDelivery, newDelivery])
    · exact fun a ha => absurd ha (by simp [smallShared, smallWorld, smallDb])
    · exact fun a ha => absurd ha (by simp [smallShared, smallWorld, smallDb])
  · decide +kernel

/-- The lease has expired before the release begins. -/
def releasedLate : List (Move Call Time) :=
  .begin 0 (.claim 1 ["token-1"]) :: List.replicate 9 (.exec 0)
    ++ [.env 61, .begin 1 (.release (smallClaim "token-1" 1)), .exec 1]

/-- **A RELEASE BY AN EXPIRED OWNER TAKES EFFECT.**  The lease ran until 60;
the release begins at 61 and puts the delivery back in the queue. -/
theorem expired_release_takes_effect :
    ∃ σ σ' : Platform {}, smallInterleaving {} releasedLate = some σ
      ∧ (platform smallPrimitives {}).step σ (.exec 1) = some σ'
      ∧ σ.db.clock = 61
      ∧ (σ.db.db.deliveries.find? 1).bind Delivery.leaseExpiresAt = some 60
      ∧ (σ.db.db.deliveries.find? 1).map Delivery.status = some .processing
      ∧ (σ'.db.db.deliveries.find? 1).map Delivery.status = some .retryScheduled := by
  decide +kernel

end WebhookPlatform
