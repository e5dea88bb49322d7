/-
  WebhookPlatform.IngestRace
  **IDEMPOTENT INGEST, UNDER EVERY INTERLEAVING OF STATEMENTS.**

  `ingest_event` looks its key up three times: without a lock, under the
  scheduler's lock, and after an `IntegrityError`.  Whatever runs in between
  (`ingest_guarded`):

    • a key has at most one event, for ever,
    • every call that returns normally returns it, with its own content,
    • a lookup that finds other content answers with the conflict,
    • the one commit that inserts the event inserts its fan-out with it and
      charges the tenant for both; no other statement of an ingest changes
      anything.

  A call with other content need not get as far as a lookup that finds the
  event: `refused_before_conflict` is one that admission refuses first.
-/
import WebhookPlatform.TransactionOutline

namespace WebhookPlatform

open Relational Transition RowLocks

/-! ## §1. One event per key. -/

/-- `uq_events_idempotency`. -/
def UniqueKeys (db : Db) : Prop :=
  ∀ e ∈ db.events.rows, ∀ e' ∈ db.events.rows, e.projectId = e'.projectId →
    e.idempotencyKey = e'.idempotencyKey → e = e'

variable {e : Event} {d : Shared} {q : Ingest s}

theorem uniqueKeys_append {db db' : Db} (h : UniqueKeys db)
    (hrows : db'.events.rows = db.events.rows ++ [e])
    (hnone : existingEvent db e.projectId e.idempotencyKey = none) : UniqueKeys db' := by
  rw [existingEvent_none] at hnone
  intro a ha b hb hproject hkey
  rw [hrows, List.mem_append, List.mem_singleton] at ha hb
  rcases ha with ha | rfl <;> rcases hb with hb | rfl
  · exact h a ha b hb hproject hkey
  · exact absurd hkey (hnone a ha hproject)
  · exact absurd hkey.symm (hnone b hb hproject.symm)
  · rfl

theorem uniqueKeys_purged {now : Time} {events : List Event} (h : UniqueKeys d.db)
    (hrows : ∀ e ∈ events, d.db.events.find? e.id = some e) :
    UniqueKeys { d.db with events := d.db.events.putAll (events.map (purgeRow now)) } := by
  intro a ha b hb hproject hkey
  obtain ⟨a₀, ha₀, hav⟩ := mem_purged hrows ha
  obtain ⟨b₀, hb₀, hbv⟩ := mem_purged hrows hb
  -- the purge keeps ids and keys, so both are versions of one event
  have hsame : a₀ = b₀ := by
    refine h a₀ ha₀ b₀ hb₀ ?_ ?_
    · rw [← hav.projectId, ← hbv.projectId]
      exact hproject
    · rw [← hav.idempotencyKey, ← hbv.idempotencyKey]
      exact hkey
  refine Table.eq_of_key_eq _ ha hb ?_
  rw [hav.id, hbv.id, hsame]

theorem uniqueKeys_commit {p : Discipline} {d' : Shared}
    (h : UniqueKeys d.db) (hc : Commit P s p d d') : UniqueKeys d'.db := by
  cases hc with
  | idle | ensured | renewed | released | canceled | replayed => exact h
  | claimed k b r claims =>
    obtain ⟨g, ts, es, hframe⟩ := Shared.claimed_frame (s := s) k b r claims d
    rw [hframe]
    exact h
  | finalized =>
    unfold Shared.finalized
    split <;> exact h
  | ingested q a unused => exact uniqueKeys_append h (acceptEvent_events q a d.db) unused
  | purged _ _ rows => exact uniqueKeys_purged h rows

/-! ## §2. Answers agree. -/

/-- The fingerprints of the two calls do not collide. -/
def NoCollision (P : Primitives) (s : Settings) (a b : IngestCall) : Prop :=
  ∀ c c' : Content, a.content s = .ok c → b.content s = .ok c' →
    c.fingerprint P = c'.fingerprint P →
      fingerprintMaterial c.mode c.eventType c.payloadBytes
        = fingerprintMaterial c'.mode c'.eventType c'.payloadBytes

theorem payloadBytes_eq {mode : EnvelopeMode} {eventType : String} {a b : Bytes}
    (h : fingerprintMaterial mode eventType a = fingerprintMaterial mode eventType b) : a = b := by
  cases mode with
  | native => exact List.append_cancel_left h
  | cloudevents => exact List.append_cancel_left (List.append_cancel_left h)

theorem Event.sameContent_iff : e.sameContent P c = true
      ↔ e.eventType = c.eventType ∧ e.envelopeMode = c.mode ∧ e.payloadHash = c.fingerprint P := by
  unfold Event.sameContent
  simp only [Bool.and_eq_true, decide_eq_true_eq, and_assoc]

/-- Calls whose content is that of one event have the same content. -/
theorem content_eq_of_same {a b : IngestCall} {c' : Content}
    (ha : a.content s = .ok c) (hb : b.content s = .ok c')
    (hc : e.sameContent P c = true) (hc' : e.sameContent P c' = true)
    (hfree : NoCollision P s a b) : c = c' := by
  obtain ⟨htype, hmode, hhash⟩ := Event.sameContent_iff.mp hc
  obtain ⟨htype', hmode', hhash'⟩ := Event.sameContent_iff.mp hc'
  have hmaterial := hfree c c' ha hb (hhash.symm.trans hhash')
  obtain ⟨eventType, mode, bytes⟩ := c
  obtain ⟨eventType', mode', bytes'⟩ := c'
  dsimp only at htype htype' hmode hmode' hmaterial
  subst htype hmode htype' hmode'
  rw [payloadBytes_eq hmaterial]

/-- **Two normal returns under one key**: the same event, the same content. -/
theorem answers_agree {projectId : Nat} {a b : IngestCall} {e' : Event} (h : UniqueKeys d.db)
    (ha : Answered P s d projectId a (.ok e)) (hb : Answered P s d projectId b (.ok e'))
    (hkey : a.idempotencyKey = b.idempotencyKey) :
    e.id = e'.id ∧ (NoCollision P s a b → a.content s = b.content s) := by
  obtain ⟨c, hc, e₁, he₁, hid₁, hproject₁, hkey₁, hsame₁⟩ := ha e rfl
  obtain ⟨c', hc', e₂, he₂, hid₂, hproject₂, hkey₂, hsame₂⟩ := hb e' rfl
  have heq : e₁ = e₂ := h e₁ he₁ e₂ he₂ (hproject₁.trans hproject₂.symm)
    (hkey₁.trans (hkey.trans hkey₂.symm))
  subst heq
  refine ⟨hid₁.symm.trans hid₂, fun hfree => ?_⟩
  rw [hc, hc', content_eq_of_same hc hc' hsame₁ hsame₂ hfree]

/-! ## §3. The accepting commit. -/

/-- **What the commit of an accepted event changes**: one event under the
unused key, one pending delivery for each active endpoint of the project
whose filter matches, one event token and as many delivery tokens from the
tenant's committed balance, and nothing else. -/
structure Accepted (P : Primitives) {s : Settings} (q : Ingest s) (d d' : Shared) : Prop where
  unused : Unused d q
  event : ∃ bytes, d'.db.events.rows = d.db.events.rows
    ++ [newEvent P q.project q.call q.content bytes q.now d.db.events.next]
  deliveries : ∃ new, d'.db.deliveries.rows = d.db.deliveries.rows ++ new
    ∧ new.map Delivery.endpointId
      = (fanout d.db q.project.id q.call.eventType).map WebhookEndpoint.id
    ∧ ∀ y ∈ new, y.status = .pending ∧ y.eventId = d.db.events.next
  charged : ∃ tenant, d'.db.tenantStates.find? q.project.organizationId = some tenant
    ∧ tenant.eventTokens
      = TokenBucket.refill s.tenantEventRatePerSecond s.tenantEventBurst q.now
          (bucket (tenantState s d.db q.now q.project.organizationId).eventTokens
            (tenantState s d.db q.now q.project.organizationId).eventRefilledAt) - 1
    ∧ tenant.deliveryTokens
      = TokenBucket.refill s.tenantDeliveryRatePerSecond s.tenantDeliveryBurst q.now
          (bucket (tenantState s d.db q.now q.project.organizationId).deliveryTokens
            (tenantState s d.db q.now q.project.organizationId).deliveryRefilledAt)
        - (fanout d.db q.project.id q.call.eventType).length
  tenants : ∀ o, o ≠ q.project.organizationId →
    d'.db.tenantStates.find? o = d.db.tenantStates.find? o
  /-- Beside these, only the scheduler's row may have been created. -/
  frame : { d' with
    db.events := d.db.events, db.deliveries := d.db.deliveries
    db.tenantStates := d.db.tenantStates, db.globalState := d.db.globalState } = d

theorem newDeliveries_endpoints (organizationId eventId : Nat) (call : IngestCall)
    (endpoints : List WebhookEndpoint) (now : Time) (n : Nat) :
    (Serial.built n (newDeliveries organizationId eventId call endpoints now)).map
      Delivery.endpointId = endpoints.map WebhookEndpoint.id := by
  rw [Serial.map_built (h := fun f => (f 0).endpointId)]
  · unfold newDeliveries
    rw [List.map_map]
    have hfst := congrArg (List.map WebhookEndpoint.id) (List.zipIdx_map_fst 0 endpoints)
    rw [List.map_map] at hfst
    exact hfst
  · intro f hf m
    obtain ⟨w, -, rfl⟩ := List.mem_map.mp hf
    rfl

theorem accepted_write {H : List Lock} {a : Acceptance} (h : Charged d H q a) :
    Accepted P q d { d with
      db := acceptEvent P s q.now q.project q.call q.content a.envelopeBytes a.endpoints a.tenant
        d.db } := by
  -- the charge was computed from the tenant's row as it is locked
  obtain ⟨horg, -, hevent, hdelivery⟩ := chargeEvent_ok h.charged
  have hkey : a.tenant.organizationId = q.project.organizationId :=
    horg.trans (tenantState_organizationId _ _ _)
  refine ⟨h.unused, ⟨a.envelopeBytes, acceptEvent_events q a d.db⟩, ?_, ⟨a.tenant, ?_, hevent, ?_⟩,
    ?_, rfl⟩
  · refine ⟨_, acceptEvent_deliveries q a d.db, ?_, fun y hy => ?_⟩
    · rw [newDeliveries_endpoints, h.endpoints]
    · obtain ⟨w, publicId, n, rfl⟩ := mem_newDeliveries hy
      exact ⟨rfl, rfl⟩
  · exact find?_charged_self hkey
  · rw [← h.endpoints]
    exact hdelivery
  · exact fun o ho => find?_charged hkey (Ne.symm ho)

/-! ## §4. All interleavings. -/

/-- The call that a statement of `ingest_event` belongs to. -/
def Txn.ingest {s : Settings} : Txn s → Option (Ingest s)
  | .ingestCheck q | .ingestGlobal q | .ingestTenant q | .ingestRecheck q _
  | .ingestEndpoints q _ _ | .ingestBacklog q _ | .ingestOldest q _ | .ingestRetained q _
  | .ingestFlush q _ | .ingestWrite q _ _ | .ingestRaced q | .ingestReread q
  | .ingestReturn q _ => some q
  | _ => none

/-- The call that looks its key up with the next statement. -/
def Txn.looksUp {s : Settings} : Txn s → Option (Ingest s)
  | .ingestCheck q | .ingestRecheck q _ | .ingestReread q => some q
  | _ => none

/-- What `ingest_event` has returned or raised, or is about to. -/
def Txn.answer {s : Settings} : Txn s → Option (Except AppError Event)
  | .ingestReturn _ r | .ingested _ _ r => some r
  | _ => none

/-- `ConflictError`, as every lookup raises it. -/
def keyConflict : AppError := .conflict "Idempotency-Key was already used with different content"

/-- **What every step of a run respects.** -/
structure IngestGuarded (P : Primitives) {s : Settings} (σ : Platform s) (m : Move Call Time)
    (σ' : Platform s) : Prop where
  /-- A key has at most one event, and keeps it. -/
  unique : UniqueKeys σ'.db.db
  kept : ∀ e ∈ σ.db.db.events.rows, ∃ e' ∈ σ'.db.db.events.rows, SameEvent e e'
  /-- A normal return is the event of the key, with the content of the call. -/
  answered : ∀ i projectId call r, σ'.locals i = some (.ingested projectId call r) →
    Answered P s σ'.db projectId call r
  /-- All normal returns under a key agree. -/
  agree : ∀ i j projectId a b e e', σ'.locals i = some (.ingested projectId a (.ok e)) →
    σ'.locals j = some (.ingested projectId b (.ok e')) → a.idempotencyKey = b.idempotencyKey →
      e.id = e'.id ∧ (NoCollision P s a b → a.content s = b.content s)
  /-- A lookup that finds other content raises the conflict. -/
  conflict : ∀ i l q e, m = .exec i → σ.locals i = some l → l.looksUp = some q →
    existingEvent σ.db.db q.project.id q.call.idempotencyKey = some e →
      e.sameContent P q.content = false →
        (σ'.locals i).bind Txn.answer = some (.error keyConflict)
  /-- A statement changes nothing, or is the accepting commit. -/
  effect : ∀ i l q, m = .exec i → σ.locals i = some l → l.ingest = some q →
    σ'.db = σ.db ∨ Accepted P q σ.db σ'.db

theorem effect_ingest {p : Discipline} {G : Shared → Prop}
    {H : List Lock} {l : Txn s} {st : Stmt Shared Lock (Txn s)}
    (hok : l.ok P p G d H) (hq : l.ingest = some q) (hst : l.stmt P s = some st) :
    st.write d = d ∨ Accepted P q d (st.write d) := by
  cases l <;> simp only [Txn.ingest, Option.some.injEq, reduceCtorEq] at hq
  case ingestWrite q' a eventId =>
    subst hq
    cases hst
    exact Or.inr (accepted_write hok.1)
  all_goals
    cases hst
    exact Or.inl rfl

theorem reuseEvent_conflict
    (h : e.sameContent P c = false) : reuseEvent P e c = .error keyConflict := by
  unfold reuseEvent
  rw [h]
  rfl

/-- A lookup is a read, and answers with the conflict. -/
theorem conflict_stmt {l : Txn s} (hq : l.looksUp = some q)
    (hfound : existingEvent d.db q.project.id q.call.idempotencyKey = some e)
    (hother : e.sameContent P q.content = false) :
    ∃ next, l.stmt P s = some (.read next) ∧ (next d).answer = some (.error keyConflict) := by
  cases l <;> simp only [Txn.looksUp, Option.some.injEq, reduceCtorEq] at hq
  case ingestCheck | ingestRecheck =>
    subst hq
    refine ⟨_, rfl, ?_⟩
    unfold ingestLookup
    rw [hfound, ← reuseEvent_conflict hother]
    rfl
  case ingestReread =>
    subst hq
    refine ⟨_, rfl, ?_⟩
    show some (ingestAnswer P _ d) = _
    unfold ingestAnswer
    rw [hfound, ← reuseEvent_conflict hother]

/-- **INGEST IS IDEMPOTENT** in every interleaving of any calls. -/
theorem ingest_guarded (P : Primitives) (s : Settings) (d : Shared) (hd : UniqueKeys d.db)
    (ms : List (Move Call Time)) :
    Along (platform P s).step (IngestGuarded P) (Sys.initial d) ms := by
  let O := outline P s {} (fun d => UniqueKeys d.db) (fun _ _ h hc => uniqueKeys_commit h hc)
    (fun _ _ h _ => h)
  refine O.along ?_ hd ms (along_of_forall (fun _ _ _ _ => Discipline.allowed_default) _)
  intro σ m σ' hσ hσ' hstep hallow
  have hrely : Rely σ.db σ'.db := O.rely_step Rely.refl hσ hstep hallow
  have hanswered : ∀ i projectId call r, σ'.locals i = some (.ingested projectId call r) →
      Answered P s σ'.db projectId call r := fun i projectId call r hl => hσ'.ok i _ hl
  refine ⟨hσ'.glob, hrely.events, hanswered, ?_, ?_, ?_⟩
  · intro i j projectId a b e e' ha hb hkey
    exact answers_agree hσ'.glob (hanswered i _ _ _ ha) (hanswered j _ _ _ hb) hkey
  · intro i l q e hm hl hq hfound hother
    subst hm
    -- the lookup is one read, and its answer is the next state
    obtain ⟨next, hst, hanswer⟩ := conflict_stmt hq hfound hother
    rw [(platform P s).locals_of_read hl hst hstep]
    exact hanswer
  · intro i l q hm hl hq
    subst hm
    obtain ⟨st, hst, hexec⟩ := (platform P s).step_exec hl hstep
    rw [(platform P s).execStmt_db hexec]
    exact effect_ingest (hσ.ok i l hl) hq hst

/-- A call under a new key of the small deployment's project. -/
def orderCall (payload : Json) : IngestCall where
  idempotencyKey := "key-2"
  eventType := "order.created"
  payload := payload
  eventPublicId := "event-2"
  deliveryPublicId := fun _ => "delivery-2"

def plainCall : IngestCall := orderCall (.obj [])

def longCall : IngestCall :=
  orderCall (.obj [(pyStr "note", .str (pyStr "leave it with the neighbours"))])

/-- Both calls miss the event in their first lookup. -/
def racingCalls : List (Move Call Time) :=
  [.begin 0 (.ingest 1 plainCall), .begin 1 (.ingest 1 plainCall), .exec 0, .exec 1]
    ++ List.replicate 9 (.exec 0) ++ List.replicate 4 (.exec 1)

theorem ingest_guarded_small :
    (smallInterleaving {} racingCalls).map (fun σ =>
        ([0, 1].map fun i => (((σ.locals i).bind Txn.answer).bind Except.toOption).map Event.id,
          σ.db.db.deliveries.rows.length)) = some ([some 2, some 2], 2)
      ∧ Along (platform smallPrimitives {}).step (IngestGuarded smallPrimitives)
          (Sys.initial smallShared) racingCalls := by
  refine ⟨by decide +kernel, ingest_guarded smallPrimitives {} smallShared ?_ _⟩
  intro e he e' he' _ _
  exact (List.mem_singleton.mp he).trans (List.mem_singleton.mp he').symm

/-- The envelopes of a tenant may take eighty bytes. -/
def tightStorage : Settings := { Settings.defaults with tenantRetainedBytes := 80 }

/-- The long call is refused; then the plain call is accepted. -/
def refusedFirst : List (Move Call Time) :=
  .begin 0 (.ingest 1 longCall) :: List.replicate 9 (.exec 0)
    ++ .begin 1 (.ingest 1 plainCall) :: List.replicate 10 (.exec 1)

/-- The exception of a call that raised one. -/
def refusal : Except AppError Event → Option AppError
  | .error e => some e
  | .ok _ => none

/-- **A CALL WITH OTHER CONTENT IS REFUSED OTHERWISE.**  Both calls use one key
with different content; one is accepted, and the other has raised
`QuotaExceededError`. -/
theorem refused_before_conflict :
    longCall.idempotencyKey = plainCall.idempotencyKey
      ∧ longCall.content tightStorage ≠ plainCall.content tightStorage
      ∧ ∃ σ : Platform tightStorage, smallInterleaving tightStorage refusedFirst = some σ
        ∧ ((σ.locals 0).bind Txn.answer).bind refusal = some (.quotaExceeded "retained_bytes" 60)
        ∧ (((σ.locals 1).bind Txn.answer).bind Except.toOption).map Event.id = some 2
        ∧ (existingEvent σ.db.db 1 "key-2").map Event.id = some 2 :=
  ⟨rfl, by decide +kernel, by decide +kernel⟩

end WebhookPlatform
