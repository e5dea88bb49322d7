/-
  WebhookPlatform.PurgedReplays
  **WHICH REPLAYS ARE REFUSED AS PURGED** (`_ensure_replayable`).

  Three columns say whether an event still has its payload, and the test reads
  all three.  The purge sets all three.  But a JSON `null` is a payload that
  `ingest_event` accepts, and it is read back as `None`: its deliveries are
  refused as purged from the first moment on.  For every other payload the
  refusal means what it says (`replay_refused_iff_purged`).

  A `Chronicle` is a deployment with a record of what was accepted and purged.
-/
import WebhookPlatform.Snapshots

namespace WebhookPlatform

open Relational Transition List

/-! ## §1. A run with its record. -/

/-- The event ids that were accepted, with their payloads, and those that were
purged. -/
structure Chronicle extends Deployment where
  accepted : List (Nat × Json) := []
  purged : List Nat := []

/-- What `ingest_event` has inserted. -/
def acceptedBy (db db' : Db) : Action → List (Nat × Json)
  | .op (.ingest _ call) =>
    if db'.events.next = db.events.next then [] else [(db.events.next, call.payload)]
  | _ => []

/-- What `_purge_event_payloads` purges. -/
def purgedBy (s : Settings) (now : Time) (db : Db) : Action → List Nat
  | .purgeEventPayloads => (purgeBatch s now db).map Event.id
  | _ => []

namespace Chronicle

def step (P : Primitives) (s : Settings) (c : Chronicle) (x : Time × Action) : Option Chronicle :=
  (c.toDeployment.stepAt P s x).map fun d =>
    { toDeployment := d
      accepted := c.accepted ++ acceptedBy c.db d.db x.2
      purged := c.purged ++ purgedBy s x.1 c.db x.2 }

/-- The row is as the record says. -/
def Records (c : Chronicle) (e : Event) : Prop :=
  ∃ payload, (e.id, payload) ∈ c.accepted
    ∧ ((e.id ∈ c.purged ∧ e.payloadPurgedAt ≠ none)
      ∨ (e.id ∉ c.purged ∧ e.payload = some payload ∧ e.canonicalEnvelope ≠ none
        ∧ e.payloadPurgedAt = none))

/-- Every id is recorded once, and every row is as the record says. -/
structure Sound (c : Chronicle) : Prop where
  accepted : ∀ y ∈ c.accepted, y.1 < c.db.events.next
  purged : ∀ i ∈ c.purged, i < c.db.events.next
  distinct : (c.accepted.map Prod.fst).Nodup
  rows : ∀ e ∈ c.db.events.rows, c.Records e

variable {c c' : Chronicle}

/-- Events are left as they are, or deleted. -/
theorem Sound.kept (hc : c.Sound) (haccepted : c'.accepted = c.accepted)
    (hpurged : c'.purged = c.purged) (hnext : c'.db.events.next = c.db.events.next)
    (hrows : ∀ e ∈ c'.db.events.rows, e ∈ c.db.events.rows) : c'.Sound := by
  refine ⟨?_, ?_, ?_, fun e he => ?_⟩
  · rw [haccepted, hnext]
    exact hc.accepted
  · rw [hpurged, hnext]
    exact hc.purged
  · rw [haccepted]
    exact hc.distinct
  · unfold Records
    rw [haccepted, hpurged]
    exact hc.rows e (hrows e he)

/-- A new event is recorded with its payload. -/
theorem Sound.ingested (hc : c.Sound) {now : Time}
    (haccepted : c'.accepted = c.accepted ++ [(c.db.events.next, call.payload)])
    (hpurged : c'.purged = c.purged)
    (hevents : c'.db.events = c.db.events.append (newEvent P project call content bytes now)) :
    c'.Sound := by
  have hnext : c'.db.events.next = c.db.events.next + 1 := by
    rw [hevents]
    exact Serial.next_append rfl
  have hnew : ∀ y ∈ c.accepted, y.1 ≠ c.db.events.next := fun y hy => (hc.accepted y hy).ne
  constructor
  · rw [haccepted, hnext]
    intro y hy
    rcases mem_append.mp hy with hold | hy
    · exact (hc.accepted y hold).trans (Nat.lt_succ_self _)
    · rw [mem_singleton.mp hy]
      exact Nat.lt_succ_self _
  · rw [hpurged, hnext]
    exact fun i hi => (hc.purged i hi).trans (Nat.lt_succ_self _)
  · rw [haccepted, map_append]
    refine nodup_append.mpr ⟨hc.distinct, nodup_singleton _, ?_⟩
    intro i hi j hj
    obtain ⟨y, hy, rfl⟩ := mem_map.mp hi
    exact (mem_singleton.mp hj).symm ▸ hnew y hy
  · intro e he
    rw [hevents, Serial.rows_append rfl] at he
    unfold Records
    rw [haccepted, hpurged]
    rcases mem_append.mp he with hold | he
    · obtain ⟨payload, hmem, hrow⟩ := hc.rows e hold
      exact ⟨payload, mem_append_left _ hmem, hrow⟩
    · rw [mem_singleton.mp he]
      refine ⟨call.payload, mem_append_right _ (mem_singleton_self _), Or.inr ?_⟩
      exact ⟨fun hold => (hc.purged _ hold).ne rfl, rfl, Option.some_ne_none _, rfl⟩

/-- A purge is recorded. -/
theorem Sound.purge (hc : c.Sound) {now : Time} (haccepted : c'.accepted = c.accepted)
    (hpurged : c'.purged = c.purged ++ (purgeBatch s now c.db).map Event.id)
    (hevents : c'.db.events
      = c.db.events.putAll ((purgeBatch s now c.db).map (purgeRow now))) : c'.Sound := by
  have hnext : c'.db.events.next = c.db.events.next := by rw [hevents, Serial.putAll_next]
  constructor
  · rw [haccepted, hnext]
    exact hc.accepted
  · rw [hpurged, hnext]
    intro i hi
    rcases mem_append.mp hi with hold | hi
    · exact hc.purged i hold
    · obtain ⟨e, he, rfl⟩ := mem_map.mp hi
      exact c.db.events.lt_next e (mem_purgeBatch he).1
  · rw [haccepted]
    exact hc.distinct
  · intro e he
    rw [hevents, Serial.putAll_toTable] at he
    unfold Records
    rw [haccepted, hpurged]
    rcases Table.mem_putAll he with hnew | ⟨hold, hout⟩
    · obtain ⟨e, hbatch, rfl⟩ := mem_map.mp hnew
      obtain ⟨payload, hmem, -⟩ := hc.rows e (mem_purgeBatch hbatch).1
      refine ⟨payload, hmem, Or.inl ⟨?_, Option.some_ne_none _⟩⟩
      exact mem_append_right _ (mem_map.mpr ⟨e, hbatch, rfl⟩)
    · -- the other rows are not in the batch
      have hid : e.id ∉ (purgeBatch s now c.db).map Event.id := by
        intro hmem
        obtain ⟨b, hb, hid⟩ := mem_map.mp hmem
        exact hout _ (mem_map_of_mem hb) hid
      obtain ⟨payload, hmem, hrow⟩ := hc.rows e hold
      refine ⟨payload, hmem, ?_⟩
      rwa [mem_append, or_iff_left hid]

/-- **A step keeps the record.** -/
theorem sound_step (hc : c.Sound) (h : c.step P s x = some c') : c'.Sound := by
  obtain ⟨now, a⟩ := x
  obtain ⟨d, hd, rfl⟩ := Option.map_eq_some_iff.mp h
  by_cases hpurge : a = .purgeEventPayloads
  · subst hpurge
    cases hd
    exact hc.purge (append_nil _) rfl rfl
  have hpurged : c.purged ++ purgedBy s now c.db a = c.purged := by
    cases a with
    | purgeEventPayloads => exact absurd rfl hpurge
    | _ => exact append_nil _
  have hsame (hnext : d.db.events.next = c.db.events.next) :
      c.accepted ++ acceptedBy c.db d.db a = c.accepted := by
    unfold acceptedBy
    split <;> simp [hnext]
  rcases (Deployment.stepAt_effect hd).events with heq
    | ⟨project, call, content, bytes, rfl, heq⟩ | ⟨hact, -⟩ | ⟨p, heq⟩
  · have hnext : d.db.events.next = c.db.events.next := congrArg Serial.next heq
    exact hc.kept (hsame hnext) hpurged hnext fun e he => heq ▸ he
  · refine hc.ingested (congrArg (c.accepted ++ ·) (if_neg ?_)) hpurged heq
    rw [heq, Serial.next_append rfl]
    exact Nat.succ_ne_self _
  · exact absurd hact hpurge
  · have hnext : d.db.events.next = c.db.events.next := by
      rw [heq]
      rfl
    refine hc.kept (hsame hnext) hpurged hnext fun e he => ?_
    rw [heq] at he
    exact (Table.mem_delete.mp he).1

end Chronicle

/-! ## §2. The refusal. -/

theorem ensureReplayable_purged_iff {now : Time} :
    ensureReplayable db now x = .error (.conflict "Delivery event payload has been purged")
      ↔ (db.events.find? x.eventId).any Event.replayable = false := by
  unfold ensureReplayable
  split
  next h => simpa using h
  next h =>
    refine iff_of_false ?_ (by simpa using h)
    unfold ensureVersion
    split
    · simp
    · split <;> simp

/-- **A REPLAY IS REFUSED AS PURGED IF IT WAS PURGED, OR ITS PAYLOAD IS
`null`.**  After any run, the refusal of a delivery means that its event was
purged in that run exactly if the payload is not `null`, or it was purged. -/
theorem replay_refused_iff_purged (P : Primitives) (s : Settings) (d : Deployment)
    (hfresh : d.Fresh) (xs : List (Time × Action)) (c : Chronicle)
    (hrun : run (Chronicle.step P s) { toDeployment := d } xs = some c) (x : Delivery)
    (hx : x ∈ c.db.deliveries.rows) (payload : Json)
    (haccepted : (x.eventId, payload) ∈ c.accepted) (now : Time) :
    (ensureReplayable c.db now x = .error (.conflict "Delivery event payload has been purged")
        ↔ x.eventId ∈ c.purged)
      ↔ payload ≠ .null ∨ x.eventId ∈ c.purged := by
  have hinv : c.Sound ∧ Belongs c.db := by
    refine run_inv (I := fun c : Chronicle => c.Sound ∧ Belongs c.db) ?_ ⟨?_, hfresh.belongs⟩ hrun
    · intro c x c' hc hstep
      obtain ⟨d, hd, rfl⟩ := Option.map_eq_some_iff.mp hstep
      exact ⟨Chronicle.sound_step hc.1 hstep, (Deployment.stepAt_effect hd).belongs hc.2⟩
    · refine ⟨fun _ h => (by cases h), fun _ h => (by cases h), nodup_nil, ?_⟩
      show ∀ e ∈ d.db.events.rows, _
      rw [hfresh.events]
      exact fun _ h => (by cases h)
  obtain ⟨e, he, hid, -⟩ := hinv.2.event x hx
  rw [ensureReplayable_purged_iff, Table.find?_eq_some.mpr ⟨he, hid⟩, ← hid, Option.any_some]
  obtain ⟨payload', hmem, ⟨hpurged, hat⟩ | ⟨hkept, hpayload, hbytes, hat⟩⟩ := hinv.1.rows e he
  · have hrefused : e.replayable = false := by
      simp [Event.replayable, Option.isSome_iff_ne_none.mpr hat]
    exact iff_of_true (iff_of_true hrefused hpurged) (Or.inr hpurged)
  · -- an id is accepted once, so this is the payload that was accepted
    have hsame : payload' = payload := congrArg Prod.snd
      (inj_on_of_nodup_map hinv.1.distinct hmem haccepted hid)
    subst hsame
    have hread : e.replayable = false ↔ payload' = .null := by
      unfold Event.replayable Event.hasPayload
      rw [hpayload, hat]
      cases payload' <;> simp [hbytes]
    rw [hread, iff_false_right hkept, or_iff_left hkept]

/-- The first event, with this payload. -/
def firstPayload (payload : Json) : List (Time × Action) :=
  [(0, registerEndpoint), (0, .op (.ingest 1 { firstEvent with payload := payload }))]

/-- The small deployment, with the policy of its organization. -/
def policedDeployment : Deployment :=
  { freshDeployment with db.policies := Table.empty.insert { organizationId := 1 } }

theorem policedDeployment_fresh : policedDeployment.Fresh := by
  constructor <;> rfl

/-- A run of it with its record. -/
def chronicleRun (xs : List (Time × Action)) : Option Chronicle :=
  run (Chronicle.step smallPrimitives Settings.defaults) { toDeployment := policedDeployment } xs

/-- Its delivery is canceled, and after a hundred days its payload is purged. -/
def purgedLater : List (Time × Action) :=
  firstPayload (.obj []) ++ [(1, .op (.cancel 1 "delivery-1" none)), (8640000, .purgeEventPayloads)]

/-- The delivery of an object is refused as purged after the purge, and not
before it. -/
theorem replay_refused_iff_purged_object :
    (∃ c x, chronicleRun (firstPayload (.obj [])) = some c ∧ x ∈ c.db.deliveries.rows
      ∧ x.eventId ∉ c.purged
      ∧ ensureReplayable c.db 0 x ≠ .error (.conflict "Delivery event payload has been purged"))
    ∧ ∃ c x, chronicleRun purgedLater = some c ∧ x ∈ c.db.deliveries.rows ∧ x.eventId ∈ c.purged
      ∧ ensureReplayable c.db 8640000 x
        = .error (.conflict "Delivery event payload has been purged") := by
  constructor
  · obtain ⟨c, hc, x, hx, hpurged, ⟨i, payload⟩, hy, rfl, hpayload⟩ :
        ∃ c, chronicleRun (firstPayload (.obj [])) = some c
          ∧ ∃ x ∈ c.db.deliveries.rows, x.eventId ∉ c.purged ∧ ∃ y ∈ c.accepted, y.1 = x.eventId
            ∧ Event.hasPayload { smallEvent with payload := some y.2 } = true := by
      decide +kernel
    refine ⟨c, x, hc, hx, hpurged, fun hrefused => hpurged ?_⟩
    refine ((replay_refused_iff_purged smallPrimitives Settings.defaults policedDeployment
      policedDeployment_fresh _ c hc x hx payload hy 0).mpr (Or.inl ?_)).mp hrefused
    rintro rfl
    cases hpayload
  · obtain ⟨c, hc, x, hx, hpurged, ⟨i, payload⟩, hy, rfl⟩ :
        ∃ c, chronicleRun purgedLater = some c ∧ ∃ x ∈ c.db.deliveries.rows, x.eventId ∈ c.purged
          ∧ ∃ y ∈ c.accepted, y.1 = x.eventId := by
      decide +kernel
    exact ⟨c, x, hc, hx, hpurged, ((replay_refused_iff_purged smallPrimitives Settings.defaults
      policedDeployment policedDeployment_fresh _ c hc x hx payload hy 8640000).mpr
        (Or.inr hpurged)).mpr hpurged⟩

/-- **A `null` PAYLOAD IS REFUSED AS PURGED**, and nothing has been purged. -/
theorem null_payload_refused :
    (chronicleRun (firstPayload .null)).any (fun c => decide (c.purged = [])
      && c.db.deliveries.rows.any fun x => decide (ensureReplayable c.db 0 x
        = .error (.conflict "Delivery event payload has been purged"))) = true := by
  decide +kernel

end WebhookPlatform
