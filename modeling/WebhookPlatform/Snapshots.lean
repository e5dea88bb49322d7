/-
  WebhookPlatform.Snapshots
  **ACCEPTED WORK IS IMMUTABLE** (`ingest_event`, `_replay_copy`,
  `claim_due`).

  When an event is accepted, each delivery takes over from its endpoint

      url, public_id, secret_version, signature_scheme, is_active

  and the event keeps its id, type, envelope mode and canonical envelope.
  A replay copies the snapshots of its source, and a claim is built from
  the snapshots and the event alone.  So the claims that are made for one
  event and one endpoint say the same in EVERY continuation of the run that
  accepted the event, whatever is edited, rotated or deactivated in between.
-/
import WebhookPlatform.Tenancy

namespace WebhookPlatform

open Relational Transition

/-! ## §1. Events over a step. -/

/-- Two versions of one event: a payload purge takes the envelope, and
nothing takes the rest. -/
structure EventKept (e e' : Event) : Prop where
  id : e'.id = e.id
  projectId : e'.projectId = e.projectId
  publicId : e'.publicId = e.publicId
  eventType : e'.eventType = e.eventType
  envelopeMode : e'.envelopeMode = e.envelopeMode
  canonicalEnvelope : e'.canonicalEnvelope = e.canonicalEnvelope ∨ e'.canonicalEnvelope = none

theorem EventKept.refl (e : Event) : EventKept e e := ⟨rfl, rfl, rfl, rfl, rfl, Or.inl rfl⟩

section Steps

variable {d d' : Deployment}

/-- **What a step does to the events**: nothing, or it accepts one, purges a
batch, or deletes some. -/
theorem Effect.events (h : Effect P s d a d') : d'.db.events = d.db.events
      ∨ (∃ project call content bytes, a = .op (.ingest project.id call)
        ∧ d'.db.events = d.db.events.append (newEvent P project call content bytes d.clock))
      ∨ (a = .purgeEventPayloads ∧ d'.db.events
        = d.db.events.putAll ((purgeBatch s d.clock d.db).map (purgeRow d.clock)))
      ∨ ∃ p, d'.db.events = d.db.events.delete p := by
  cases h with
  | claimed limit tokens =>
    obtain ⟨g, ts, es, hframe⟩ := claimedDb_frame s d.clock limit tokens d.db
    exact Or.inl (show (claimedDb s d.clock limit tokens d.db).events = _ by rw [hframe])
  | ingested project call content bytes =>
    exact Or.inr (Or.inl ⟨project, call, content, bytes, rfl, rfl⟩)
  | payloadsPurged => exact Or.inr (Or.inr (Or.inl ⟨rfl, rfl⟩))
  | cleaned _ _ _ cleanup =>
    cases cleanup with
    | eventsDeleted => exact Or.inr (Or.inr (Or.inr ⟨_, rfl⟩))
    | _ => exact Or.inl rfl
  | _ => exact Or.inl rfl

/-- **Where the events come from**: from an old row, or with a new id. -/
theorem Effect.event (h : Effect P s d a d') (he : e' ∈ d'.db.events.rows) :
    (∃ e ∈ d.db.events.rows, EventKept e e') ∨ e'.id = d.db.events.next := by
  have hkept : e' ∈ d.db.events.rows →
      (∃ e ∈ d.db.events.rows, EventKept e e') ∨ e'.id = d.db.events.next :=
    fun hold => Or.inl ⟨e', hold, EventKept.refl e'⟩
  rcases h.events with heq | ⟨project, call, content, bytes, -, heq⟩ | ⟨-, heq⟩ | ⟨p, heq⟩
  · exact hkept (heq ▸ he)
  · rw [heq, Serial.rows_append rfl] at he
    rcases List.mem_append.mp he with hold | hnew
    · exact hkept hold
    · rw [List.mem_singleton.mp hnew]
      exact Or.inr rfl
  · rw [heq, Serial.putAll_toTable] at he
    rcases Table.mem_putAll he with hnew | ⟨hold, -⟩
    · obtain ⟨e, hbatch, rfl⟩ := List.mem_map.mp hnew
      exact Or.inl ⟨e, (mem_purgeBatch hbatch).1, rfl, rfl, rfl, rfl, rfl, Or.inr rfl⟩
    · exact hkept hold
  · rw [heq] at he
    exact hkept (Table.mem_delete.mp he).1

/-- The sequences only grow. -/
theorem Effect.next (h : Effect P s d a d') :
    d.db.events.next ≤ d'.db.events.next ∧ d.db.deliveries.next ≤ d'.db.deliveries.next := by
  have hput : ∀ rows : List Delivery, d.db.deliveries.next ≤ (d.db.deliveries.putAll rows).next :=
    fun rows => (Serial.putAll_next d.db.deliveries rows).ge
  cases h with
  | claimed limit tokens =>
    show d.db.events.next ≤ (claimedDb s d.clock limit tokens d.db).events.next
      ∧ d.db.deliveries.next ≤ (claimedDb s d.clock limit tokens d.db).deliveries.next
    obtain ⟨g, ts, es, hframe⟩ := claimedDb_frame s d.clock limit tokens d.db
    rw [hframe]
    exact ⟨le_refl _, hput _⟩
  | ingested =>
    constructor
    · show d.db.events.next ≤ (d.db.events.append _).next
      rw [Serial.next_append rfl]
      exact Nat.le_succ _
    · refine Serial.next_le_appendAll ?_ d.db.deliveries
      intro f hf n
      obtain ⟨y, -, rfl⟩ := List.mem_map.mp hf
      rfl
  | replayed _ _ _ _ _ _ _ _ source =>
    refine ⟨le_refl _, Serial.next_le_appendAll ?_ d.db.deliveries⟩
    intro f hf n
    obtain ⟨original, -, -, -, -, publicId, rfl⟩ := source f hf
    rfl
  | payloadsPurged => exact ⟨(Serial.putAll_next d.db.events _).ge, le_refl _⟩
  | cleaned _ _ _ cleanup =>
    cases cleanup with
    | canceled => exact ⟨le_refl _, hput _⟩
    | _ => exact ⟨le_refl _, le_refl _⟩
  | _ => exact ⟨le_refl _, le_refl _⟩

/-! ## §2. Replays stay with their event and endpoint. -/

/-- A replay is work of the same event for the same endpoint as its
source. -/
structure Delivery.ReplayOf (x y : Delivery) : Prop where
  eventId : y.eventId = x.eventId
  endpointId : y.endpointId = x.endpointId

/-- Every link to a source leads to a row of that kind, if to any. -/
def Deployment.Linked (d : Deployment) : Prop :=
  ∀ x ∈ d.db.deliveries.rows, ∀ id, x.replayOfDeliveryId = some id →
    id < d.db.deliveries.next ∧ ∀ y ∈ d.db.deliveries.rows, y.id = id → x.ReplayOf y

/-- Work on a row never sets a link. -/
theorem RowWork.link (h : RowWork s d x x') {id : Nat} (hid : x'.replayOfDeliveryId = some id) :
    x.replayOfDeliveryId = some id := by
  cases h with
  | finalized c f =>
    have hsame : (finalizeRow s d.clock c f x).replayOfDeliveryId = x.replayOfDeliveryId := by
      unfold finalizeRow outcomeRow
      split
      · rfl
      · split
        · split <;> rfl
        · rfl
    exact hsame ▸ hid
  | unlinked => exact (Option.filter_eq_some_iff.mp hid).1
  | _ => exact hid

theorem Effect.linked (h : Effect P s d a d') (hd : d.Linked) : d'.Linked := by
  intro x' hx' id hlink
  cases h.row hx' with
  | worked x _ mem work =>
    obtain ⟨hlt, hsource⟩ := hd x mem id (work.link hlink)
    refine ⟨lt_of_lt_of_le hlt h.next.2, fun y' hy' hid => ?_⟩
    obtain ⟨y, hy, hwork⟩ := (h.row hy').old (hid ▸ hlt)
    have hreplay := hsource y hy (hwork.same.id ▸ hid)
    exact ⟨by rw [hwork.same.eventId, hreplay.eventId, work.same.eventId],
      by rw [hwork.same.endpointId, hreplay.endpointId, work.same.endpointId]⟩
  | ingested => exact absurd hlink (by simp [newDelivery])
  | replayed _ original _ _ _ mem source =>
    obtain rfl : original.id = id := Option.some.inj hlink
    have hlt := d.db.deliveries.lt_next original mem
    refine ⟨lt_of_lt_of_le hlt h.next.2, fun y' hy' hid => ?_⟩
    obtain ⟨y, hy, hwork⟩ := (h.row hy').old (hid ▸ hlt)
    -- the source is the only row with its id
    obtain rfl : y = original := d.db.deliveries.eq_of_key_eq hy mem (hwork.same.id.symm.trans hid)
    exact ⟨hwork.same.eventId, hwork.same.endpointId⟩

/-- The delivery of the event to the endpoint, a replay of it, a replay of a
replay, and so on. -/
inductive Deployment.Work (d : Deployment) (eventId endpointId : Nat) : Delivery → Prop where
  | accepted (x : Delivery) (mem : x ∈ d.db.deliveries.rows) (event : x.eventId = eventId)
      (endpoint : x.endpointId = endpointId) : d.Work eventId endpointId x
  | replay (x y : Delivery) (mem : x ∈ d.db.deliveries.rows)
      (link : x.replayOfDeliveryId = some y.id) (source : d.Work eventId endpointId y) :
      d.Work eventId endpointId x

/-- The whole chain has one event and one endpoint. -/
theorem Deployment.Work.spec (hd : d.Linked) (h : d.Work eventId endpointId x) :
    x ∈ d.db.deliveries.rows ∧ x.eventId = eventId ∧ x.endpointId = endpointId := by
  induction h with
  | accepted _ mem event endpoint => exact ⟨mem, event, endpoint⟩
  | replay x y mem link _ ih =>
    obtain ⟨hy, hevent, hendpoint⟩ := ih
    have hreplay := (hd x mem y.id link).2 y hy rfl
    exact ⟨mem, hreplay.eventId.symm.trans hevent, hreplay.endpointId.symm.trans hendpoint⟩

/-! ## §3. What acceptance fixes. -/

/-- The row carries what its endpoint said. -/
structure Delivery.SnapshotOf (x : Delivery) (w : WebhookEndpoint) : Prop where
  endpointId : x.endpointId = w.id
  url : x.endpointUrlSnapshot = w.url
  publicId : x.endpointPublicIdSnapshot = w.publicId
  secretVersion : x.signingSecretVersionSnapshot = w.secretVersion
  signatureScheme : x.signatureSchemeSnapshot = w.signatureScheme
  active : x.endpointActiveSnapshot = w.isActive

/-- What holds ever after the acceptance of `event` under `endpoints`. -/
structure Deployment.Fixed (endpoints : List WebhookEndpoint) (event : Event) (d : Deployment) :
    Prop where
  used : event.id < d.db.events.next
  content : ∀ e ∈ d.db.events.rows, e.id = event.id → EventKept event e
  snapshot : ∀ x ∈ d.db.deliveries.rows, x.eventId = event.id → ∃ w ∈ endpoints, x.SnapshotOf w
  linked : d.Linked

variable {event : Event}

theorem SameWork.snapshotOf (h : SameWork x x') (hx : x.SnapshotOf w) : x'.SnapshotOf w :=
  ⟨h.endpointId.trans hx.endpointId, h.endpointUrl.trans hx.url,
    h.endpointPublicId.trans hx.publicId, h.secretVersion.trans hx.secretVersion,
    h.signatureScheme.trans hx.signatureScheme, h.endpointActive.trans hx.active⟩

theorem EventKept.trans (h₁ : EventKept e₁ e₂) (h₂ : EventKept e₂ e₃) : EventKept e₁ e₃ := by
  refine ⟨h₂.id.trans h₁.id, h₂.projectId.trans h₁.projectId, h₂.publicId.trans h₁.publicId,
    h₂.eventType.trans h₁.eventType, h₂.envelopeMode.trans h₁.envelopeMode, ?_⟩
  rcases h₂.canonicalEnvelope with hsame | hnone
  · rw [hsame]
    exact h₁.canonicalEnvelope
  · exact Or.inr hnone

/-- **Nothing unsettles accepted work.** -/
theorem Effect.fixed (h : Effect P s d a d') (hd : d.Fixed endpoints event) :
    d'.Fixed endpoints event := by
  refine ⟨lt_of_lt_of_le hd.used h.next.1, fun e' he' hid => ?_, fun x' hx' hevent => ?_,
    h.linked hd.linked⟩
  · rcases h.event he' with ⟨e, he, hsame⟩ | hnew
    · exact (hd.content e he (hsame.id.symm.trans hid)).trans hsame
    · exact absurd (hnew.symm.trans hid) hd.used.ne'
  · cases h.row hx' with
    | worked x _ mem work =>
      obtain ⟨w, hw, hsnapshot⟩ := hd.snapshot x mem (work.same.eventId ▸ hevent)
      exact ⟨w, hw, work.same.snapshotOf hsnapshot⟩
    | ingested => exact absurd hevent hd.used.ne'
    | replayed _ original publicId _ _ mem =>
      obtain ⟨w, hw, hsnapshot⟩ := hd.snapshot original mem hevent
      exact ⟨w, hw, hsnapshot.endpointId, hsnapshot.url, hsnapshot.publicId,
        hsnapshot.secretVersion, hsnapshot.signatureScheme, hsnapshot.active⟩

/-- **Acceptance fixes the endpoints of the moment.** -/
theorem fixed_of_ingest (h : Effect P s d (.op (.ingest projectId call)) d')
    (hbelongs : Belongs d.db) (hlinked : d.Linked) (he : event ∈ d'.db.events.rows)
    (hnew : event.id = d.db.events.next) : d'.Fixed d.db.endpoints.rows event := by
  refine ⟨d'.db.events.lt_next event he, fun e he' hid => ?_, fun x' hx' hevent => ?_,
    h.linked hlinked⟩
  · obtain rfl := d'.db.events.eq_of_key_eq he' he hid
    exact EventKept.refl e
  · cases h.row hx' with
    | worked x _ mem work =>
      -- the deliveries of earlier events
      obtain ⟨e, hold, heid, -⟩ := hbelongs.event x mem
      have hlt := d.db.events.lt_next e hold
      rw [heid, ← work.same.eventId, hevent, hnew] at hlt
      exact absurd hlt (lt_irrefl _)
    | ingested _ w _ _ _ hw =>
      exact ⟨w, hw, rfl, rfl, rfl, rfl, rfl, rfl⟩
    | replayed _ _ _ _ _ _ source =>
      exact absurd source List.not_mem_nil

end Steps

/-! ## §4. Two continuations. -/

/-- What the claim says is what the endpoint and the event said. -/
structure ClaimedDelivery.Says (c : ClaimedDelivery) (w : WebhookEndpoint) (event : Event) :
    Prop where
  url : c.endpointUrl = w.url
  endpointPublicId : c.endpointPublicId = w.publicId
  secretVersion : c.endpointSecretVersion = w.secretVersion
  signatureScheme : c.signatureScheme = w.signatureScheme
  active : c.endpointActive = w.isActive
  eventPublicId : c.eventPublicId = event.publicId
  eventType : c.eventType = event.eventType
  envelopeMode : c.envelopeMode = event.envelopeMode
  canonicalEnvelope : event.canonicalEnvelope = some c.canonicalEnvelope

/-- Two claims carry the same. -/
structure ClaimedDelivery.Agree (c c' : ClaimedDelivery) : Prop where
  url : c'.endpointUrl = c.endpointUrl
  endpointPublicId : c'.endpointPublicId = c.endpointPublicId
  secretVersion : c'.endpointSecretVersion = c.endpointSecretVersion
  signatureScheme : c'.signatureScheme = c.signatureScheme
  active : c'.endpointActive = c.endpointActive
  eventPublicId : c'.eventPublicId = c.eventPublicId
  eventType : c'.eventType = c.eventType
  envelopeMode : c'.envelopeMode = c.envelopeMode
  canonicalEnvelope : c'.canonicalEnvelope = c.canonicalEnvelope

/-- In some continuation from `u` a worker claims work of the event for the
endpoint, and gets `c`. -/
def Produced (P : Primitives) (s : Settings) (u : Deployment) (eventId endpointId : Nat)
    (c : ClaimedDelivery) : Prop :=
  ∃ ys v now limit tokens v', run (Deployment.stepAt P s) u ys = some v
    ∧ v.stepAt P s (now, .op (.claim limit tokens)) = some v'
    ∧ c ∈ v'.issued.drop v.issued.length
    ∧ ∃ x, x.id = c.id ∧ v.Work eventId endpointId x

section Runs

theorem linked_run (hfresh : d.Fresh) (hrun : run (Deployment.stepAt P s) d xs = some u) :
    u.Linked := by
  refine run_inv (I := Deployment.Linked) ?_ ?_ hrun
  · intro v x v' hv hstep
    exact (Deployment.stepAt_effect hstep).linked hv
  · intro x hx
    rw [hfresh.deliveries] at hx
    cases hx

/-- The claims that a step hands out are built from its database. -/
theorem claim_built {v v' : Deployment} {now : Time}
    (hstep : v.stepAt P s (now, .op (.claim limit tokens)) = some v')
    (hc : c ∈ v'.issued.drop v.issued.length) :
    ∃ x ∈ v.db.deliveries.rows, ∃ token, claimedDelivery v.db token x = .ok c := by
  obtain ⟨new, hissued, hnew⟩ := (Deployment.stepAt_effect hstep).issued
  rw [hissued, List.drop_left] at hc
  obtain ⟨limit, tokens, -, -, y, hy, hclaim⟩ := hnew c hc
  obtain ⟨-, -, hmem, -⟩ := mem_claimedPicks hy
  exact ⟨y.1, hmem, y.2, hclaim⟩

theorem says_of_fixed {event : Event} (hu : u.Fixed endpoints event)
    (hunique : ∀ w' ∈ endpoints, w'.id = w.id → w' = w) (hc : Produced P s u event.id w.id c) :
    c.Says w event := by
  obtain ⟨ys, v, now, limit, tokens, v', hrun, hstep, hissued, x, hid, hwork⟩ := hc
  have hv : v.Fixed endpoints event := by
    refine run_inv (I := Deployment.Fixed endpoints event) ?_ hu hrun
    intro _ _ _ hi hs
    exact (Deployment.stepAt_effect hs).fixed ⟨hi.used, hi.content, hi.snapshot, hi.linked⟩
  obtain ⟨hx, hevent, hendpoint⟩ := hwork.spec hv.linked
  obtain ⟨y, hy, token, hclaim⟩ := claim_built hstep hissued
  obtain ⟨e, envelope, hfind, henvelope, rfl⟩ := claimedDelivery_spec hclaim
  obtain rfl := v.db.deliveries.eq_of_key_eq hx hy hid
  obtain ⟨w', hw', hsnapshot⟩ := hv.snapshot x hx hevent
  obtain rfl := hunique w' hw' (hsnapshot.endpointId.symm.trans hendpoint)
  have hsame := hv.content e (Table.mem_of_find? hfind) ((Table.key_of_find? hfind).trans hevent)
  refine ⟨hsnapshot.url, hsnapshot.publicId, hsnapshot.secretVersion, hsnapshot.signatureScheme,
    hsnapshot.active, hsame.publicId, hsame.eventType, hsame.envelopeMode, ?_⟩
  rcases hsame.canonicalEnvelope with hkept | hpurged
  · exact hkept.symm.trans henvelope
  · rw [hpurged] at henvelope
    cases henvelope

end Runs

/-- **ACCEPTED WORK IS IMMUTABLE.**  An event is accepted somewhere in a
run.  Then two claims that any two continuations produce for its delivery to
one endpoint, or for replays of it, or replays of those, carry the same: what
that endpoint and the event said when the event was accepted. -/
theorem accepted_work_immutable (P : Primitives) (s : Settings) (d₀ d u : Deployment)
    (xs : List (Time × Action)) (now : Time) (projectId : Nat) (call : IngestCall) (event : Event)
    (w : WebhookEndpoint) (c c' : ClaimedDelivery) (hfresh : d₀.Fresh)
    (hrun : run (Deployment.stepAt P s) d₀ xs = some d)
    (haccept : d.stepAt P s (now, .op (.ingest projectId call)) = some u)
    (hevent : event ∈ u.db.events.rows) (hnew : event.id = d.db.events.next)
    (hw : w ∈ d.db.endpoints.rows) (hc : Produced P s u event.id w.id c)
    (hc' : Produced P s u event.id w.id c') :
    c.Says w event ∧ c'.Says w event ∧ c.Agree c' := by
  have heffect := Deployment.stepAt_effect haccept
  have hbelongs : Belongs d.db := belongs_run hfresh hrun
  have hlinked : d.Linked := linked_run hfresh hrun
  have hu := fixed_of_ingest heffect hbelongs hlinked hevent hnew
  have hunique : ∀ w' ∈ d.db.endpoints.rows, w'.id = w.id → w' = w :=
    fun w' hw' hid => d.db.endpoints.eq_of_key_eq hw' hw hid
  have hsaid := says_of_fixed hu hunique hc
  have hsaid' := says_of_fixed hu hunique hc'
  refine ⟨hsaid, hsaid', hsaid'.url.trans hsaid.url.symm,
    hsaid'.endpointPublicId.trans hsaid.endpointPublicId.symm,
    hsaid'.secretVersion.trans hsaid.secretVersion.symm,
    hsaid'.signatureScheme.trans hsaid.signatureScheme.symm,
    hsaid'.active.trans hsaid.active.symm, hsaid'.eventPublicId.trans hsaid.eventPublicId.symm,
    hsaid'.eventType.trans hsaid.eventType.symm,
    hsaid'.envelopeMode.trans hsaid.envelopeMode.symm, ?_⟩
  exact Option.some.inj (hsaid'.canonicalEnvelope.symm.trans hsaid.canonicalEnvelope)

/-- Everything about the endpoint changes after its first event. -/
def editedAfterwards : List (Time × Action) :=
  [(1, .updateEndpoint 1 "endpoint-1"
      { url := some "https://elsewhere.example/hook", isActive := some false
        signatureScheme := some .standard }),
    (2, .rotateEndpointSecret 1 "endpoint-1"), (3, .deactivateProject 1)]

/-- After the moves `ys` a worker gets the first claim under `token`. -/
def HandsOut (u : Deployment) (ys : List (Time × Action)) (token : Uuid) : Prop :=
  ∃ v v', run (Deployment.stepAt smallPrimitives Settings.defaults) u ys = some v
    ∧ v.stepAt smallPrimitives Settings.defaults (4, .op (.claim 1 [token])) = some v'
    ∧ firstClaim token 1 ∈ v'.issued.drop v.issued.length
    ∧ ∃ x ∈ v.db.deliveries.rows, x.id = 1 ∧ x.eventId = 1 ∧ x.endpointId = 1

instance : Decidable (HandsOut u ys token) := by
  unfold HandsOut
  infer_instance

theorem HandsOut.produced (h : HandsOut u ys token) :
    Produced smallPrimitives Settings.defaults u 1 1 (firstClaim token 1) := by
  obtain ⟨v, v', hv, hv', hissued, x, hx, hid, hevent, hendpoint⟩ := h
  exact ⟨ys, v, 4, 1, [token], v', hv, hv', hissued, x, hid,
    Deployment.Work.accepted x hx hevent hendpoint⟩

/-- One continuation edits the endpoint, the other does not. -/
theorem accepted_work_immutable_edited :
    ∃ d u event w, freshRun Settings.defaults [(0, registerEndpoint)] = some d
      ∧ d.stepAt smallPrimitives Settings.defaults (0, .op (.ingest 1 firstEvent)) = some u
      ∧ event ∈ u.db.events.rows ∧ event.id = 1 ∧ w ∈ d.db.endpoints.rows ∧ w.id = 1
      ∧ HandsOut u editedAfterwards "token-1" ∧ HandsOut u [] "token-2"
      ∧ (firstClaim "token-1" 1).Says w event ∧ (firstClaim "token-2" 1).Says w event
      ∧ (firstClaim "token-1" 1).Agree (firstClaim "token-2" 1) := by
  obtain ⟨d, u, hd, hu, ⟨event, hevent, hid⟩, hnext, ⟨w, hw, hwid⟩, hedited, hplain⟩ :
      ∃ d u, freshRun Settings.defaults [(0, registerEndpoint)] = some d
        ∧ d.stepAt smallPrimitives Settings.defaults (0, .op (.ingest 1 firstEvent)) = some u
        ∧ (∃ e ∈ u.db.events.rows, e.id = 1) ∧ d.db.events.next = 1
        ∧ (∃ w ∈ d.db.endpoints.rows, w.id = 1)
        ∧ HandsOut u editedAfterwards "token-1" ∧ HandsOut u [] "token-2" := by
    decide +kernel
  refine ⟨d, u, event, w, hd, hu, hevent, hid, hw, hwid, hedited, hplain, ?_⟩
  refine accepted_work_immutable smallPrimitives Settings.defaults freshDeployment d u _ 0 1
    firstEvent event w _ _ freshDeployment_fresh hd hu hevent
    (hid.trans hnext.symm) hw ?_ ?_
  · rw [hid, hwid]
    exact hedited.produced
  · rw [hid, hwid]
    exact hplain.produced

end WebhookPlatform
