/-
  WebhookPlatform.PurgeRace
  **RETENTION AGAINST REPLAY: WHO STILL NEEDS THE ENVELOPE.**

  The purge blanks an event once no nonterminal delivery refers to it; a
  replay creates such a delivery once it has seen that the event is not
  purged.  The two checks lock different rows: the replay holds its source
  delivery and reads the event, the purge holds the event and reads the
  deliveries.  In between, `replay_of_purged_event` lets both pass, and the
  copy it leaves makes every later claim fail.

  When every replay inserts its copies while the events can still be
  replayed, and claims lock due rows only, each nonterminal delivery keeps
  its envelope and no claim is aborted (`envelopes_kept`).
-/
import WebhookPlatform.TransactionOutline

namespace WebhookPlatform

open Relational Transition RowLocks

/-! ## §1. The envelopes that are still needed. -/

/-- The event of the delivery is there with its envelope. -/
def HasEnvelope (db : Db) (x : Delivery) : Prop :=
  ∃ e, db.events.find? x.eventId = some e ∧ e.canonicalEnvelope.isSome = true

/-- Each event with a nonterminal delivery has its envelope. -/
def EnvelopesKept (db : Db) : Prop :=
  ∀ x ∈ db.deliveries.rows, x.status.terminal = false → HasEnvelope db x

/-- New versions of rows whose old versions had an envelope. -/
theorem envelopesKept_putAll (ys : List Delivery) (h : EnvelopesKept db)
    (deliveries : db'.deliveries = db.deliveries.putAll ys) (events : db'.events = db.events)
    (versions : ∀ y ∈ ys, ∃ x ∈ db.deliveries.rows, y.eventId = x.eventId
      ∧ x.status.terminal = false) : EnvelopesKept db' := by
  intro y hy hlive
  unfold HasEnvelope
  rw [events]
  rw [deliveries, Serial.putAll_toTable] at hy
  rcases Table.mem_putAll hy with hy | ⟨hy, -⟩
  · obtain ⟨x, hx, hevent, hxlive⟩ := versions y hy
    rw [hevent]
    exact h x hx hxlive
  · exact h y hy hlive

theorem envelopesKept_put (h : EnvelopesKept db) (deliveries : db'.deliveries = db.deliveries.put y)
    (events : db'.events = db.events) (row : x ∈ db.deliveries.rows) (same : SameDelivery x y)
    (live : x.status.terminal = false) : EnvelopesKept db' := by
  refine envelopesKept_putAll [y] h deliveries events fun z hz => ?_
  rw [List.mem_singleton.mp hz]
  exact ⟨x, row, same.eventId, live⟩

/-- New rows whose events have an envelope. -/
theorem envelopesKept_append (h : EnvelopesKept db)
    (deliveries : db'.deliveries.rows = db.deliveries.rows ++ new)
    (events : ∀ i e, db.events.find? i = some e → db'.events.find? i = some e)
    (served : ∀ y ∈ new, HasEnvelope db' y) : EnvelopesKept db' := by
  intro y hy hlive
  rw [deliveries] at hy
  rcases List.mem_append.mp hy with hy | hy
  · obtain ⟨e, he, henvelope⟩ := h y hy hlive
    exact ⟨e, events _ e he, henvelope⟩
  · exact served y hy

/-- **The purge** blanks no event that a nonterminal delivery refers to. -/
theorem envelopesKept_purged {now : Time} {events : List Event} (h : EnvelopesKept db)
    (terminal : ∀ e ∈ events, hasNonterminalDelivery db e.id = false) :
    EnvelopesKept { db with events := db.events.putAll (events.map (purgeRow now)) } := by
  intro x hx hlive
  obtain ⟨e, he, henvelope⟩ := h x hx hlive
  refine ⟨e, ?_, henvelope⟩
  show (db.events.putAll (events.map (purgeRow now))).find? x.eventId = some e
  rw [Serial.putAll_toTable, Table.find?_putAll_ne]
  · exact he
  · intro b hb hbx
    obtain ⟨e', he', rfl⟩ := List.mem_map.mp hb
    -- the purged event would be the event of a live delivery
    have hdone := hasNonterminalDelivery_false.mp (terminal e' he') x hx hbx.symm
    rw [hlive] at hdone
    exact absurd hdone (by decide)

theorem Event.envelope_of_replayable {e : Event} (h : e.replayable = true) :
    e.canonicalEnvelope.isSome = true := by
  unfold Event.replayable at h
  simp only [Bool.and_eq_true] at h
  exact h.1.2

/-- **Every commit keeps the envelopes**, under the side conditions. -/
theorem envelopesKept_commit (hdue : p.due = true) (hunpurged : p.unpurged = true)
    (h : EnvelopesKept d.db) (hc : Commit P s p d d') : EnvelopesKept d'.db := by
  cases hc with
  | idle | ensured => exact h
  | claimed k b r claims rows due nodup =>
    obtain ⟨g, ts, es, hframe⟩ := Shared.claimed_frame (s := s) k b r claims d
    rw [hframe]
    refine envelopesKept_putAll _ h rfl rfl fun y hy => ?_
    obtain ⟨x, hx, rfl⟩ := List.mem_map.mp hy
    -- a claim takes due rows only, so it revives no terminal delivery
    have hmem : x.1 ∈ r.candidates := mem_claimPicks nodup hx
    exact ⟨x.1, rows x.1 hmem, rfl, Delivery.nonterminal_of_due (due hdue x.1 hmem)⟩
  | renewed _ _ _ row _ _ holds =>
    exact envelopesKept_put h rfl rfl row ⟨rfl, rfl, rfl, rfl⟩
      (ClaimedDelivery.nonterminal_of_owns (ClaimedDelivery.owns_of_holds holds))
  | released _ _ _ row _ _ owns =>
    exact envelopesKept_put h rfl rfl row ⟨rfl, rfl, rfl, rfl⟩
      (ClaimedDelivery.nonterminal_of_owns owns)
  | finalized now c f x _ row _ _ holds =>
    unfold Shared.finalized
    split
    · exact h
    exact envelopesKept_put h rfl rfl row (finalizeRow_same s now c f x)
      (ClaimedDelivery.nonterminal_of_owns (ClaimedDelivery.owns_of_holds holds))
  | canceled _ _ _ _ row queued =>
    exact envelopesKept_put h rfl rfl row ⟨rfl, rfl, rfl, rfl⟩
      (DeliveryStatus.nonterminal_of_queued queued)
  | ingested q a =>
    refine envelopesKept_append h (acceptEvent_deliveries q a d.db)
      (fun i e he => acceptEvent_find? q a he) fun y hy => ?_
    obtain ⟨w, publicId, n, rfl⟩ := mem_newDeliveries hy
    refine ⟨newEvent P q.project q.call q.content a.envelopeBytes q.now d.db.events.next, ?_, rfl⟩
    rw [Table.find?_eq_some, acceptEvent_events]
    exact ⟨List.mem_append_right _ List.mem_cons_self, rfl⟩
  | replayed _ copies unpurged =>
    refine envelopesKept_append h (acceptReplays_deliveries copies d.db) (fun _ _ he => he)
      fun y hy => ?_
    obtain ⟨x, hx, publicId, n, rfl⟩ := mem_copies copies hy
    -- the copy's event is that of its source
    obtain ⟨e, he, hreplayable⟩ := unpurged hunpurged x hx
    exact ⟨e, he, Event.envelope_of_replayable hreplayable⟩
  | purged _ _ _ terminal => exact envelopesKept_purged h (terminal hdue)

/-! ## §2. Claims. -/

theorem claimedDelivery_of_envelope (h : HasEnvelope db x) (token : Uuid) :
    ∃ c, claimedDelivery db token x = .ok c := by
  obtain ⟨e, he, henvelope⟩ := h
  obtain ⟨bytes, hbytes⟩ := Option.isSome_iff_exists.mp henvelope
  unfold claimedDelivery
  simp only [he, hbytes]
  exact ⟨_, rfl⟩

/-- A batch of deliveries with envelopes is not aborted. -/
theorem claimAll_of_envelopes (picks : List (Delivery × Uuid))
    (h : ∀ x ∈ picks, HasEnvelope db x.1) : ∃ claims, claimAll db picks = .ok claims := by
  induction picks with
  | nil => exact ⟨[], rfl⟩
  | cons x _ ih =>
    obtain ⟨c, hc⟩ := claimedDelivery_of_envelope (h x List.mem_cons_self) x.2
    obtain ⟨cs, hcs⟩ := ih fun y hy => h y (List.mem_cons_of_mem _ hy)
    refine ⟨c :: cs, ?_⟩
    unfold claimAll
    rw [hc, hcs]
    rfl

/-- What a claim has locked and read can be claimed. -/
theorem claimAll_of_locked (hdue : p.due = true)
    (hb : b.Locked p (fun d => EnvelopesKept d.db) d H k) (hr : r.candidates = b.candidates) :
    ∃ claims, claimAll b.seen (claimPicks s k b r) = .ok claims := by
  -- the envelopes were read with the rows, from a database that had them all
  obtain ⟨d₀, hkept, hseen, hrows⟩ := hb.seen
  refine claimAll_of_envelopes _ fun x hx => ?_
  have hmem : x.1 ∈ b.candidates := hb.mem_of_pick hr hx
  rw [← hseen]
  exact hkept x.1 (hrows x.1 hmem) (Delivery.nonterminal_of_due (hb.due hdue x.1 hmem))

/-! ## §3. All interleavings. -/

/-- **What every step of a run respects.** -/
structure EnvelopesServed {s : Settings} (_ : Platform s) (_ : Move Call Time) (σ' : Platform s) :
    Prop where
  kept : EnvelopesKept σ'.db.db
  /-- No claim is about to be aborted for an envelope that is missing. -/
  served : ∀ i k b r, σ'.locals i = some (.claimWrite k b r) →
    ∃ claims, claimAll b.seen (claimPicks s k b r) = .ok claims

/-- **ENVELOPES OUTLIVE THE DELIVERIES THAT NEED THEM** in every interleaving in
which replays insert while their events can be replayed, and claims lock due
rows. -/
theorem envelopes_kept (P : Primitives) (s : Settings) (d : Shared) (hd : EnvelopesKept d.db)
    (ms : List (Move Call Time))
    (hallow : Along (platform P s).step
      (Allowed (platform P s) (Discipline.allow { due := true, unpurged := true }))
      (Sys.initial d) ms) :
    Along (platform P s).step EnvelopesServed (Sys.initial d) ms := by
  let O := outline P s { due := true, unpurged := true } (fun d => EnvelopesKept d.db)
    (fun _ _ h hc => envelopesKept_commit rfl rfl h hc) (fun _ _ h _ => h)
  refine O.along ?_ hd ms hallow
  intro σ m σ' _ hσ' _ _
  refine ⟨hσ'.glob, fun i k b r hl => ?_⟩
  have hok := hσ'.ok i _ hl
  exact claimAll_of_locked rfl hok.1 hok.2.2

/-! ## §4. The race. -/

/-- The small deployment after a hundred days: its only delivery is dead, and
its event has outlived the retention of thirty days. -/
def agedShared : Shared where
  db := { smallDb with
    policies := ⟨[{ organizationId := 1 }], by decide⟩
    deliveries :=
      { rows := [{ smallDelivery with status := .dead, deadAt := some 0 }]
        nodup := by decide, next := 2, lt_next := by decide } }
  clock := 8640000

def agedReplay : Call :=
  .replay 1 "delivery-1" ⟨fun _ => "delivery-2", "operation-1", "replay-key-1"⟩

/-- The replay commits before the purge looks. -/
def replayedFirst : List (Move Call Time) :=
  .begin 0 agedReplay :: List.replicate 10 (.exec 0)
    ++ .begin 1 .purge :: List.replicate 2 (.exec 1)

theorem envelopes_kept_small :
    (run (platform smallPrimitives {}).step (Sys.initial agedShared) replayedFirst).map
        (fun σ => σ.db.db.deliveries.rows.map Delivery.status) = some [.dead, .pending]
      ∧ Along (platform smallPrimitives {}).step EnvelopesServed (Sys.initial agedShared)
          replayedFirst := by
  refine ⟨by decide +kernel, envelopes_kept smallPrimitives {} agedShared ?_ _ ?_⟩
  · intro x hx hlive
    rw [List.mem_singleton.mp hx] at hlive
    exact absurd hlive (by decide)
  · decide +kernel

/-- The replay has seen its event; the purge commits; the replay goes on. -/
def purgedInBetween : List (Move Call Time) :=
  .begin 0 agedReplay :: List.replicate 7 (.exec 0) ++ .begin 1 .purge :: List.replicate 3 (.exec 1)
    ++ List.replicate 3 (.exec 0)

/-- **A REPLAY OF A PURGED EVENT.**  The copy is pending and its event has no
envelope, so `claim_due` raises for the whole batch. -/
theorem replay_of_purged_event :
    ∃ σ : Platform {},
      run (platform smallPrimitives {}).step (Sys.initial agedShared) purgedInBetween = some σ
      ∧ (σ.db.db.deliveries.find? 2).map Delivery.status = some .pending
      ∧ (σ.db.db.deliveries.find? 2).map Delivery.eventId = some 1
      ∧ (σ.db.db.events.find? 1).map (fun e => e.canonicalEnvelope.isSome) = some false
      ∧ ∃ e, claimDue {} σ.db.clock 1 ["token-1"] σ.db.db = .error e := by
  obtain ⟨σ, hσ, hstatus, hevent, henvelope, hclaim⟩ : ∃ σ : Platform {},
      run (platform smallPrimitives {}).step (Sys.initial agedShared) purgedInBetween = some σ
      ∧ (σ.db.db.deliveries.find? 2).map Delivery.status = some .pending
      ∧ (σ.db.db.deliveries.find? 2).map Delivery.eventId = some 1
      ∧ (σ.db.db.events.find? 1).map (fun e => e.canonicalEnvelope.isSome) = some false
      ∧ (claimDue {} σ.db.clock 1 ["token-1"] σ.db.db).toOption.isNone = true := by
    decide +kernel
  refine ⟨σ, hσ, hstatus, hevent, henvelope, ?_⟩
  cases hdue : claimDue {} σ.db.clock 1 ["token-1"] σ.db.db with
  | error e => exact ⟨e, rfl⟩
  | ok =>
    rw [hdue] at hclaim
    cases hclaim

end WebhookPlatform
