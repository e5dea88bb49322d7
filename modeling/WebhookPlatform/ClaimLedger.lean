/-
  WebhookPlatform.ClaimLedger
  **CLAIMS, TOKENS AND ATTEMPT NUMBERS OVER WHOLE RUNS.**

  `Ledger` ties the claims handed out to the rows they came from: tokens are
  never reused, so a row's token names its LATEST claim, whose attempt
  number is the row's attempt count; and the claims of one delivery carry
  strictly increasing attempt numbers.  It holds in every reachable state
  (`ledger_change`).

  The attempt cap is another matter.  `claim_due` advances the count and
  only `_finalize` looks at the cap, so a lease that is left to expire or
  handed back re-enters the queue unchecked: `attempt_cap_exceeded` is a run
  of three steps that sends a delivery twice with a cap of one.
  `attempts_capped` proves the cap for the runs in which no such delivery
  re-enters.
-/
import WebhookPlatform.LeaseCaps

namespace WebhookPlatform

open Relational Transition List

/-! ## §1. The ledger. -/

/-- What holds between the claims handed out, the tokens and the rows. -/
structure Ledger (w : World) : Prop where
  rowToken : ∀ d ∈ w.db.deliveries.rows, ∀ t, d.leaseToken = some t → t ∈ w.drawn
  claimToken : ∀ c ∈ w.issued, c.leaseToken ∈ w.drawn
  claimId : ∀ c ∈ w.issued, c.id < w.db.deliveries.next
  positive : ∀ c ∈ w.issued, 1 ≤ c.attemptNumber
  /-- The claim whose token is on the row is the row's last attempt. -/
  owner : ∀ c ∈ w.issued, ∀ d ∈ w.db.deliveries.rows, d.id = c.id → c.owns d = true →
    c.attemptNumber = d.attemptCount
  bound : ∀ c ∈ w.issued, ∀ d ∈ w.db.deliveries.rows, d.id = c.id →
    c.attemptNumber ≤ d.attemptCount
  increasing : w.issued.Pairwise fun a b => a.id = b.id → a.attemptNumber < b.attemptNumber

/-- Nothing has been claimed yet. -/
structure Unclaimed (w : World) : Prop where
  issued : w.issued = []
  sent : w.sent = []
  rows : ∀ d ∈ w.db.deliveries.rows,
    d.status = .pending ∧ d.attemptCount = 0 ∧ d.leaseToken = none

variable {w w' : World}

/-- Before the first claim there is nothing to tie together but the tokens. -/
theorem ledger_unissued (hissued : w.issued = [])
    (htokens : ∀ d ∈ w.db.deliveries.rows, ∀ t, d.leaseToken = some t → t ∈ w.drawn) :
    Ledger w := by
  have hnone : ∀ c, c ∉ w.issued := by
    intro c hc
    rw [hissued] at hc
    cases hc
  refine ⟨htokens, fun c hc => absurd hc (hnone c), fun c hc => absurd hc (hnone c),
    fun c hc => absurd hc (hnone c), fun c hc => absurd hc (hnone c),
    fun c hc => absurd hc (hnone c), ?_⟩
  rw [hissued]
  exact List.Pairwise.nil

theorem ledger_unclaimed (h : Unclaimed w) : Ledger w := by
  refine ledger_unissued h.issued fun d hd t ht => ?_
  rw [(h.rows d hd).2.2] at ht
  cases ht

/-! ## §2. One update of a row. -/

/-- A new version of a row that nobody has claimed in between: the attempt
count is the old one, and who owns it owned it before. -/
structure KeepsOwner (old new : Delivery) : Prop where
  id : new.id = old.id
  attemptCount : new.attemptCount = old.attemptCount
  token : ∀ t, new.leaseToken = some t → old.leaseToken = some t
  owns : ∀ c : ClaimedDelivery, c.owns new = true → c.owns old = true

theorem renewRow_keepsOwner (s : Settings) (now : Time) (d : Delivery) :
    KeepsOwner d (renewRow s now d) :=
  ⟨rfl, rfl, fun _ ht => ht, fun _ hc => hc⟩

theorem releaseRow_keepsOwner (now : Time) (d : Delivery) : KeepsOwner d (releaseRow now d) :=
  ⟨rfl, rfl, fun t ht => absurd ht (by simp [releaseRow]),
    fun c hc => absurd hc (by simp [ClaimedDelivery.owns, releaseRow])⟩

theorem finalizeRow_keepsOwner (s : Settings) (finished : Time) (c : ClaimedDelivery)
    (f : Finalization) (d : Delivery) : KeepsOwner d (finalizeRow s finished c f d) :=
  ⟨(finalizeRow_same s finished c f d).id, finalizeRow_attemptCount s finished c f d,
    fun t ht => absurd ht (by simp [finalizeRow]),
    fun c hc => absurd hc (by simp [ClaimedDelivery.owns, finalizeRow])⟩

theorem cancelRow_keepsOwner (now : Time) (reason : Option String) (d : Delivery) :
    KeepsOwner d (cancelRow now reason d) :=
  ⟨rfl, rfl, fun _ ht => ht, fun c hc => absurd hc (by simp [ClaimedDelivery.owns, cancelRow])⟩

theorem RowUpdate.keepsOwner (h : RowUpdate s w op old new) : KeepsOwner old new := by
  cases h with
  | renewed => exact renewRow_keepsOwner _ _ _
  | released => exact releaseRow_keepsOwner _ _
  | finalized => exact finalizeRow_keepsOwner _ _ _ _ _
  | canceled => exact cancelRow_keepsOwner _ _ _

/-- Rows go, or are replaced by versions with the same owner. -/
theorem ledger_versions (hw : Ledger w)
    (rows : ∀ d' ∈ w'.db.deliveries.rows, ∃ d ∈ w.db.deliveries.rows, KeepsOwner d d')
    (next : w'.db.deliveries.next = w.db.deliveries.next) (issued : w'.issued = w.issued)
    (drawn : w'.drawn = w.drawn) : Ledger w' := by
  constructor
  · intro d' hd' t ht
    obtain ⟨d, hd, update⟩ := rows d' hd'
    rw [drawn]
    exact hw.rowToken d hd t (update.token t ht)
  · rw [issued, drawn]
    exact hw.claimToken
  · rw [issued, next]
    exact hw.claimId
  · rw [issued]
    exact hw.positive
  · rw [issued]
    intro c hc d' hd' hcd hown
    obtain ⟨d, hd, update⟩ := rows d' hd'
    rw [update.attemptCount]
    exact hw.owner c hc d hd (update.id.symm.trans hcd) (update.owns c hown)
  · rw [issued]
    intro c hc d' hd' hcd
    obtain ⟨d, hd, update⟩ := rows d' hd'
    rw [update.attemptCount]
    exact hw.bound c hc d hd (update.id.symm.trans hcd)
  · rw [issued]
    exact hw.increasing

theorem ledger_updated (hw : Ledger w)
    (deliveries : w'.db.deliveries = w.db.deliveries.put new) (issued : w'.issued = w.issued)
    (drawn : w'.drawn = w.drawn) (mem : old ∈ w.db.deliveries.rows)
    (update : KeepsOwner old new) : Ledger w' := by
  refine ledger_versions hw ?_ (by rw [deliveries]; rfl) issued drawn
  rw [deliveries]
  intro d hd
  rcases Table.mem_of_mem_put hd with rfl | hd
  · exact ⟨old, mem, update⟩
  · exact ⟨d, hd, rfl, rfl, fun _ ht => ht, fun _ hc => hc⟩

theorem ledger_created (hw : Ledger w)
    (deliveries : w'.db.deliveries = w.db.deliveries.appendAll rows) (issued : w'.issued = w.issued)
    (drawn : w'.drawn = w.drawn)
    (build : ∀ f ∈ rows, ∀ n, (f n).id = n ∧ (f n).status = .pending ∧ (f n).leaseToken = none) :
    Ledger w' := by
  have hkey : ∀ f ∈ rows, ∀ n, (f n).id = n := fun f hf n => (build f hf n).1
  -- a new row has a fresh id and is not leased
  have hrow : ∀ d ∈ w'.db.deliveries.rows, d ∈ w.db.deliveries.rows
      ∨ (w.db.deliveries.next ≤ d.id ∧ d.status = .pending ∧ d.leaseToken = none) := by
    rw [deliveries, Serial.rows_appendAll hkey]
    intro d hd
    rcases mem_append.mp hd with hd | hd
    · exact Or.inl hd
    · have hfresh := Serial.le_key_built hkey hd
      obtain ⟨f, hf, n, rfl⟩ := Serial.mem_built hd
      exact Or.inr ⟨hfresh, (build f hf n).2⟩
  constructor
  · intro d hd t ht
    rw [drawn]
    rcases hrow d hd with hd | ⟨-, -, hnone⟩
    · exact hw.rowToken d hd t ht
    · rw [hnone] at ht
      cases ht
  · rw [issued, drawn]
    exact hw.claimToken
  · rw [issued, deliveries]
    intro c hc
    exact lt_of_lt_of_le (hw.claimId c hc) (Serial.next_le_appendAll hkey _)
  · rw [issued]
    exact hw.positive
  · rw [issued]
    intro c hc d hd hcd hown
    rcases hrow d hd with hd | ⟨-, hpending, -⟩
    · exact hw.owner c hc d hd hcd hown
    · rw [ClaimedDelivery.owns_iff, hpending] at hown
      exact absurd hown.1 (by decide)
  · rw [issued]
    intro c hc d hd hcd
    rcases hrow d hd with hd | ⟨hfresh, -, -⟩
    · exact hw.bound c hc d hd hcd
    · have := hw.claimId c hc
      omega
  · rw [issued]
    exact hw.increasing

/-! ## §3. A batch of claims. -/

/-- Every claim of a batch is built from one of the picks. -/
theorem BuiltFrom.exists_pick (h : BuiltFrom db picks claims) (hc : c ∈ claims) :
    ∃ x ∈ picks, claimedDelivery db x.2 x.1 = .ok c := by
  induction h with
  | nil => cases hc
  | @cons x _ _ _ hx _ ih =>
    rcases mem_cons.mp hc with rfl | hc
    · exact ⟨x, mem_cons_self, hx⟩
    · obtain ⟨y, hy, hspec⟩ := ih hc
      exact ⟨y, mem_cons_of_mem _ hy, hspec⟩

theorem BuiltFrom.mem (h : BuiltFrom db picks claims) (hc : c ∈ claims) :
    ∃ x ∈ picks, c.id = x.1.id ∧ c.leaseToken = x.2 ∧ c.attemptNumber = x.1.attemptCount + 1 := by
  obtain ⟨x, hx, hclaim⟩ := h.exists_pick hc
  exact ⟨x, hx, claimedDelivery_ok hclaim⟩

theorem BuiltFrom.ids (h : BuiltFrom db picks claims) :
    claims.map ClaimedDelivery.id = picks.map fun x => x.1.id := by
  induction h with
  | nil => rfl
  | cons hx _ ih => rw [map_cons, map_cons, ih, (claimedDelivery_ok hx).1]

/-- Claims of a batch: of rows of the table, none twice, under tokens that
nobody has used.  What was read of the events does not matter. -/
theorem ledger_claimed {now : Time} (hw : Ledger w)
    (deliveries : w'.db.deliveries = w.db.deliveries.putAll (claimedRows s now picks))
    (issued : w'.issued = w.issued ++ claims) (drawn : ∀ t ∈ w.drawn, t ∈ w'.drawn)
    (hpick : ∀ x ∈ picks, x.1 ∈ w.db.deliveries.rows) (hids : (picks.map fun x => x.1.id).Nodup)
    (fresh : ∀ x ∈ picks, x.2 ∉ w.drawn ∧ x.2 ∈ w'.drawn) (built : BuiltFrom seen picks claims) :
    Ledger w' := by
  -- rows and claims, each either old or of this batch
  have hrow : ∀ d ∈ w'.db.deliveries.rows, (∃ x ∈ picks, d = claimRow s now x.2 x.1)
      ∨ (d ∈ w.db.deliveries.rows ∧ ∀ x ∈ picks, x.1.id ≠ d.id) := by
    rw [deliveries]
    exact fun d hd => mem_claimed hd
  have hclaim : ∀ c ∈ w'.issued, c ∈ w.issued ∨ ∃ x ∈ picks, c.id = x.1.id ∧ c.leaseToken = x.2
      ∧ c.attemptNumber = x.1.attemptCount + 1 := by
    rw [issued]
    intro c hc
    rcases mem_append.mp hc with hc | hc
    · exact Or.inl hc
    · exact Or.inr (built.mem hc)
  constructor
  · intro d hd t ht
    rcases hrow d hd with ⟨x, hx, rfl⟩ | ⟨hd, -⟩
    · have htoken : x.2 = t := Option.some.inj ht
      rw [← htoken]
      exact (fresh x hx).2
    · exact drawn t (hw.rowToken d hd t ht)
  · intro c hc
    rcases hclaim c hc with hc | ⟨x, hx, -, htoken, -⟩
    · exact drawn _ (hw.claimToken c hc)
    · rw [htoken]
      exact (fresh x hx).2
  · intro c hc
    rw [deliveries, Serial.putAll_next]
    rcases hclaim c hc with hc | ⟨x, hx, hid, -, -⟩
    · exact hw.claimId c hc
    · rw [hid]
      exact w.db.deliveries.lt_next x.1 (hpick x hx)
  · intro c hc
    rcases hclaim c hc with hc | ⟨x, -, -, -, hnumber⟩
    · exact hw.positive c hc
    · omega
  · intro c hc d hd hcd hown
    rcases hrow d hd with ⟨x, hx, rfl⟩ | ⟨hd, hne⟩
    · rcases hclaim c hc with hc | ⟨y, hy, hid, -, hnumber⟩
      · -- an old claim does not know the fresh token
        have htoken : x.2 = c.leaseToken := Option.some.inj (ClaimedDelivery.owns_iff.mp hown).2
        exact absurd (htoken ▸ hw.claimToken c hc) (fresh x hx).1
      · have hxy : x = y := inj_on_of_nodup_map hids hx hy (hcd.trans hid)
        subst hxy
        exact hnumber
    · rcases hclaim c hc with hc | ⟨y, hy, hid, -, -⟩
      · exact hw.owner c hc d hd hcd hown
      · exact absurd (hcd.trans hid).symm (hne y hy)
  · intro c hc d hd hcd
    rcases hrow d hd with ⟨x, hx, rfl⟩ | ⟨hd, hne⟩
    -- the count went up by one with the claim
    · show c.attemptNumber ≤ x.1.attemptCount + 1
      rcases hclaim c hc with hc | ⟨y, hy, hid, -, hnumber⟩
      · have := hw.bound c hc x.1 (hpick x hx) hcd
        omega
      · have hxy : x = y := inj_on_of_nodup_map hids hx hy (hcd.trans hid)
        subst hxy
        omega
    · rcases hclaim c hc with hc | ⟨y, hy, hid, -, -⟩
      · exact hw.bound c hc d hd hcd
      · exact absurd (hcd.trans hid).symm (hne y hy)
  · rw [issued, pairwise_append]
    refine ⟨hw.increasing, ?_, ?_⟩
    · -- within one batch no delivery is claimed twice
      have hnodup : (claims.map ClaimedDelivery.id).Nodup := by
        rw [built.ids]
        exact hids
      refine (pairwise_map.mp hnodup).imp ?_
      intro a b hab heq
      exact absurd heq hab
    -- an older claim of the delivery has a number up to its old count
    · intro a ha b hb hab
      obtain ⟨x, hx, hid, -, hnumber⟩ := built.mem hb
      have := hw.bound a ha x.1 (hpick x hx) (hab.trans hid).symm
      omega

/-- **The ledger holds in every reachable state.** -/
theorem ledger_change (hw : Ledger w) (h : Change s w op w') : Ledger w' := by
  cases h with
  | kept _ _ deliveries _ issued drawn =>
    constructor
    · intro d hd t ht
      rw [deliveries] at hd
      exact drawn t (hw.rowToken d hd t ht)
    · intro c hc
      rw [issued] at hc
      exact drawn _ (hw.claimToken c hc)
    · rw [issued, deliveries]
      exact hw.claimId
    · rw [issued]
      exact hw.positive
    · rw [issued, deliveries]
      exact hw.owner
    · rw [issued, deliveries]
      exact hw.bound
    · rw [issued]
      exact hw.increasing
  | claimed _ _ _ _ _ deliveries _ issued drawn choice fresh built =>
    refine ledger_claimed hw deliveries issued drawn
      (fun x hx => (choice.rows x.1 (mem_map_of_mem hx)).1) ?_ fresh built
    have hnodup := choice.nodup
    rw [map_map] at hnodup
    exact hnodup
  | updated _ _ _ _ deliveries _ issued drawn mem update =>
    exact ledger_updated hw deliveries issued drawn mem update.keepsOwner
  | created _ _ _ deliveries _ issued drawn build =>
    refine ledger_created hw deliveries issued drawn fun f hf n => ?_
    have hpending := (build f hf n).2.pending
    exact ⟨(build f hf n).1, hpending.1, hpending.2.2⟩

/-! ## §4. The attempt cap. -/

/-- The side condition of a step: no delivery that has used up its attempts
is handed back, and none is left with an expired lease when a worker
claims. -/
def NoSpentReentry (s : Settings) (w : World) (op : Op) (_ : World) : Prop :=
  match op with
  | .claim _ _ => ∀ d ∈ w.db.deliveries.rows, d.status = .processing → d.due w.clock = true →
      d.attemptCount < s.webhookMaxAttempts
  | .release c => ∀ d ∈ w.db.deliveries.rows, d.id = c.id → c.owns d = true →
      d.attemptCount < s.webhookMaxAttempts
  | _ => True

instance : Decidable (NoSpentReentry s w op w') := by
  cases op <;> dsimp only [NoSpentReentry] <;> infer_instance

/-- Queued deliveries have an attempt left, and no claim was one too many. -/
structure WithinAttempts (s : Settings) (w : World) : Prop where
  queued : ∀ d ∈ w.db.deliveries.rows, d.status.queued = true →
    d.attemptCount < s.webhookMaxAttempts
  claims : ∀ c ∈ w.issued, c.attemptNumber ≤ s.webhookMaxAttempts

/-- An update queues a row only with an attempt left. -/
theorem RowUpdate.queued
    (hledger : Ledger w) (hallow : NoSpentReentry s w op w') (mem : old ∈ w.db.deliveries.rows)
    (h : RowUpdate s w op old new) (hq : new.status.queued = true) :
    new.attemptCount < s.webhookMaxAttempts := by
  cases h with
  | renewed _ _ _ _ holds =>
    -- a renewed row is still processing
    have hprocessing := (ClaimedDelivery.owns_iff.mp (ClaimedDelivery.owns_of_holds holds)).1
    have hnew : (renewRow s w.clock old).status = .processing := hprocessing
    rw [hnew] at hq
    exact absurd hq (by decide)
  | released _ _ _ hid howns => exact hallow old mem hid howns
  | finalized c f _ hissued hid holds =>
    rw [finalizeRow_attemptCount,
      ← hledger.owner c hissued old mem hid (ClaimedDelivery.owns_of_holds holds)]
    rcases finalizeRow_status s w.clock c f old with hterminal | ⟨-, hlt⟩
    · exact absurd hq (by
        cases hst : (finalizeRow s w.clock c f old).status <;>
          simp [hst, DeliveryStatus.terminal, DeliveryStatus.queued] at hterminal ⊢)
    · exact hlt
  | canceled _ _ reason =>
    have hnew : (cancelRow w.clock reason old).status = .canceled := rfl
    rw [hnew] at hq
    exact absurd hq (by decide)

theorem withinAttempts_change (hledger : Ledger w)
    (hw : WithinAttempts s w) (hallow : NoSpentReentry s w op w') (h : Change s w op w') :
    WithinAttempts s w' := by
  cases h with
  | kept _ _ deliveries _ issued =>
    constructor
    · rw [deliveries]
      exact hw.queued
    · rw [issued]
      exact hw.claims
  | claimed _ _ _ _ claims deliveries _ issued _ choice _ built =>
    constructor
    · intro d hd hq
      rw [deliveries] at hd
      rcases mem_claimed hd with ⟨x, -, rfl⟩ | ⟨hd, -⟩
      · have hnew : (claimRow s w.clock x.2 x.1).status = .processing := rfl
        rw [hnew] at hq
        exact absurd hq (by decide)
      · exact hw.queued d hd hq
    · intro c hc
      rw [issued] at hc
      rcases mem_append.mp hc with hc | hc
      · exact hw.claims c hc
      · obtain ⟨x, hx, -, -, hnumber⟩ := built.mem hc
        obtain ⟨hmem, hdue⟩ := choice.rows x.1 (mem_map_of_mem hx)
        -- a queued row has attempts left; a reclaimed one is allowed only with some left
        have hleft : x.1.attemptCount < s.webhookMaxAttempts := by
          rcases Delivery.status_of_due hdue with hq | hp
          · exact hw.queued x.1 hmem hq
          · exact hallow x.1 hmem hp hdue
        omega
  | updated _ _ _ _ deliveries _ issued _ mem update =>
    constructor
    · intro d hd hq
      rw [deliveries] at hd
      rcases Table.mem_of_mem_put hd with rfl | hd
      · exact update.queued hledger hallow mem hq
      · exact hw.queued d hd hq
    · rw [issued]
      exact hw.claims
  | created _ _ _ deliveries _ issued _ build =>
    constructor
    · intro d hd hq
      rw [deliveries, Serial.rows_appendAll fun f hf n => (build f hf n).1] at hd
      rcases mem_append.mp hd with hd | hd
      · exact hw.queued d hd hq
      · obtain ⟨f, hf, n, rfl⟩ := Serial.mem_built hd
        rw [(build f hf n).2.pending.2.1]
        exact s.webhookMaxAttempts_pos
    · rw [issued]
      exact hw.claims

/-! ## §5. Requests sent. -/

/-- Each claim is sent at most once, and only claims are sent. -/
structure SentOnce (w : World) : Prop where
  nodup : w.sent.Nodup
  subset : ∀ c ∈ w.sent, c ∈ w.issued

theorem Change.issued_mono (h : Change s w op w') : ∀ c ∈ w.issued, c ∈ w'.issued := by
  intro c hc
  cases h with
  | kept _ _ _ _ issued => rw [issued]; exact hc
  | claimed _ _ _ _ _ _ _ issued => rw [issued]; exact mem_append_left _ hc
  | updated _ _ _ _ _ _ issued => rw [issued]; exact hc
  | created _ _ _ _ _ issued => rw [issued]; exact hc

theorem World.commit_sent (w : World) (r : Except AppError Db) : (w.commit r).sent = w.sent := by
  cases r <;> rfl

theorem World.step_sent (h : w.step P s op = some w') :
    w'.sent = w.sent ∨ ∃ c ∈ w.issued, c ∉ w.sent ∧ w'.sent = w.sent ++ [c] := by
  cases op with
  | claim =>
    obtain ⟨-, rfl⟩ := World.of_guard h
    refine Or.inl ?_
    unfold World.claim
    split <;> rfl
  | send c =>
    obtain ⟨⟨hissued, hnew⟩, rfl⟩ := World.of_guard h
    exact Or.inr ⟨c, hissued, hnew, rfl⟩
  | renew | release | tick =>
    obtain ⟨-, rfl⟩ := World.of_guard h
    exact Or.inl rfl
  | finalize =>
    obtain ⟨-, rfl⟩ := World.of_guard h
    exact Or.inl (World.commit_sent _ _)
  | ingest | replay | replayMany | cancel | operate =>
    obtain ⟨project, -, rfl⟩ := World.onProject_some h
    exact Or.inl (World.commit_sent _ _)

theorem sentOnce_step (hw : SentOnce w) (h : w.step P s op = some w') : SentOnce w' := by
  have hmono := (World.step_change h).issued_mono
  rcases World.step_sent h with hsent | ⟨c, hc, hnew, hsent⟩
  · refine ⟨?_, ?_⟩
    · rw [hsent]
      exact hw.nodup
    · rw [hsent]
      exact fun c hc => hmono c (hw.subset c hc)
  · refine ⟨?_, ?_⟩
    · rw [hsent]
      exact nodup_append.mpr ⟨hw.nodup, by simp, fun a ha b hb hab =>
        hnew (mem_singleton.mp hb ▸ hab ▸ ha)⟩
    · rw [hsent]
      intro a ha
      rcases mem_append.mp ha with ha | ha
      · exact hmono a (hw.subset a ha)
      · rw [mem_singleton.mp ha]
        exact hmono c hc

/-- Two claims of one delivery with the same attempt number are one claim. -/
theorem Ledger.claim_inj (hw : Ledger w) (ha : a ∈ w.issued) (hb : b ∈ w.issued) (hid : a.id = b.id)
    (hnumber : a.attemptNumber = b.attemptNumber) : a = b := by
  have : Std.Symm fun x y : ClaimedDelivery =>
      x.id = y.id → x.attemptNumber ≠ y.attemptNumber :=
    ⟨fun x y hxy heq hnum => hxy heq.symm hnum.symm⟩
  have hpair := (hw.increasing.imp fun {x y} h heq => Nat.ne_of_lt (h heq)).forall ha hb
  by_contra hne
  exact hpair hne hid hnumber

/-- The requests sent for one delivery are at most its attempts. -/
theorem sent_le (hledger : Ledger w) (hw : WithinAttempts s w) (hsent : SentOnce w) (id : Nat) :
    w.sent.countP (fun c => decide (c.id = id)) ≤ s.webhookMaxAttempts := by
  rw [countP_eq_length_filter]
  -- the attempt numbers of these requests are distinct numbers from 1 to the cap
  have hmem : ∀ c ∈ w.sent.filter fun c => decide (c.id = id), c ∈ w.issued ∧ c.id = id := by
    intro c hc
    obtain ⟨hc, hid⟩ := mem_filter.mp hc
    exact ⟨hsent.subset c hc, of_decide_eq_true hid⟩
  have hnodup : ((w.sent.filter fun c => decide (c.id = id)).map
      ClaimedDelivery.attemptNumber).Nodup := by
    apply List.Nodup.map_on _ (hsent.nodup.filter _)
    intro a ha b hb hnumber
    exact hledger.claim_inj (hmem a ha).1 (hmem b hb).1
      ((hmem a ha).2.trans (hmem b hb).2.symm) hnumber
  have hrange : ∀ n ∈ (w.sent.filter fun c => decide (c.id = id)).map
      ClaimedDelivery.attemptNumber, n ∈ List.range' 1 s.webhookMaxAttempts := by
    intro n hn
    obtain ⟨c, hc, rfl⟩ := mem_map.mp hn
    have hpos := hledger.positive c (hmem c hc).1
    have hcap := hw.claims c (hmem c hc).1
    rw [mem_range'_1]
    omega
  have hlen := (subperm_of_subset hnodup hrange).length_le
  rw [length_map, length_range'] at hlen
  exact hlen

/-- **THE ATTEMPT CAP.**  In every run from a state in which nothing has been
claimed, if no delivery that has used up its attempts is released or found
with an expired lease by a claim, then no claim is beyond
`webhook_max_attempts` and no delivery is sent more often. -/
theorem attempts_capped (P : Primitives) (s : Settings) (w w' : World) (ops : List Op)
    (hstart : Unclaimed w) (hallow : Along (World.step P s) (NoSpentReentry s) w ops)
    (hrun : run (World.step P s) w ops = some w') :
    (∀ c ∈ w'.issued, c.attemptNumber ≤ s.webhookMaxAttempts)
      ∧ ∀ id, w'.sent.countP (fun c => decide (c.id = id)) ≤ s.webhookMaxAttempts := by
  have hinv : Ledger w' ∧ WithinAttempts s w' ∧ SentOnce w' := by
    refine run_inv_of_along (I := fun w => Ledger w ∧ WithinAttempts s w ∧ SentOnce w)
      ?_ ops w w' ?_ hallow hrun
    · intro u op v hu hstep ha
      have hchange := World.step_change hstep
      exact ⟨ledger_change hu.1 hchange, withinAttempts_change hu.1 hu.2.1 ha hchange,
        sentOnce_step hu.2.2 hstep⟩
    · refine ⟨ledger_unclaimed hstart, ⟨?_, ?_⟩, ⟨?_, ?_⟩⟩
      · intro d hd _
        rw [(hstart.rows d hd).2.1]
        exact s.webhookMaxAttempts_pos
      · rw [hstart.issued]
        exact fun c hc => absurd hc (by simp)
      · rw [hstart.sent]
        exact nodup_nil
      · rw [hstart.sent]
        exact fun c hc => absurd hc (by simp)
  exact ⟨hinv.2.1.claims, sent_le hinv.1 hinv.2.1 hinv.2.2⟩

/-- A worker sends and hands the delivery back; the next one crashes, and its
lease expires; a third one sends. -/
def threeWorkers : List Op :=
  [.claim 1 ["token-1"], .send (smallClaim "token-1" 1), .release (smallClaim "token-1" 1),
    .claim 1 ["token-2"], .tick 60, .claim 1 ["token-3"], .send (smallClaim "token-3" 3)]

theorem attempts_capped_small :
    ∃ w', smallRun {} threeWorkers = some w'
      ∧ w'.issued.map ClaimedDelivery.attemptNumber = [1, 2, 3]
      ∧ (∀ c ∈ w'.issued, c.attemptNumber ≤ 8)
      ∧ ∀ id, w'.sent.countP (fun c => decide (c.id = id)) ≤ 8 := by
  obtain ⟨w', hrun, hissued⟩ : ∃ w', smallRun {} threeWorkers = some w'
      ∧ w'.issued.map ClaimedDelivery.attemptNumber = [1, 2, 3] := by
    decide +kernel
  have hallow : Along (World.step smallPrimitives {}) (NoSpentReentry {}) smallWorld
      threeWorkers := by
    decide +kernel
  exact ⟨w', hrun, hissued,
    attempts_capped smallPrimitives {} _ w' _ ⟨rfl, rfl, by decide⟩ hallow hrun⟩

/-- The small deployment with a cap of one attempt. -/
def oneAttempt : Settings :=
  { Settings.defaults with webhookMaxAttempts := 1, webhookMaxAttempts_pos := by decide }

/-- **The cap is exceeded by a crash.**  A worker claims and sends, and its
lease expires; the next claim takes the delivery again, as attempt 2 of 1. -/
theorem attempt_cap_exceeded :
    (smallRun oneAttempt
        [.claim 1 ["token-1"], .send (smallClaim "token-1" 1), .tick 60,
          .claim 1 ["token-2"], .send (smallClaim "token-2" 2)]).map
        (fun w => w.sent.map ClaimedDelivery.attemptNumber)
      = some [1, 2] := by
  decide +kernel

end WebhookPlatform
