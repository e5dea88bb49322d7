/-
  WebhookPlatform.OutboxIngest
  **FROM THE OUTBOX TO THE EVENTS: EXACTLY ONE FOR EACH ROW.**

  The relays of `Outbox` in front of `ingest_event` of `Transactions`, over a
  channel that loses, delays, repeats and reorders:

      row ──claim──▶ relay ──send──▶ (channel) ──arrive──▶ transaction
       ▲                                                      │
       └───── sent_at ◀──answer── (channel) ◀─────────────────┘

  A request may arrive late, several times or never; a relay may see any
  error at any time, and sees a normal return only when a transaction that
  served its request has returned an event.  Relays die anywhere, and so do
  the server's transactions, which interleave statement by statement with
  each other and with everything else the platform does.

  Two assumptions are part of the model: no transaction of `platform` deletes
  an event, and the keys of the outbox are used by nobody else.  Then in every
  reachable state (`exactly_one_event`):

    • a row has at most one event under its key, with the row's content,
    • a row that is marked as sent has one,
    • no attempt for a row is answered with the conflict.
-/
import WebhookPlatform.IngestRace
import WebhookPlatform.OutboxSafety

namespace WebhookPlatform

open Relational Transition RowLocks List Option

/-! ## §1. The pipeline. -/

/-- The server is asked for what `send_event` was called with.  The payload
goes through JSON, which keeps it up to the order of its keys. -/
def OutboxMessage.posts (m : OutboxMessage) (call : IngestCall) : Bool :=
  decide (call.idempotencyKey = m.idempotencyKey) && decide (call.eventType = m.eventType)
    && decide (EnvelopeMode.parse call.envelopeMode = some m.envelopeMode)
    && decide (canonicalJson call.payload = canonicalJson m.payload)

/-- The relays, the project they send to, and the keys of the outbox. -/
structure Channel where
  relays : Nat → RelayConfig
  projectId : Nat
  owned : String → Bool

/-- An event of the project under a key of the outbox. -/
def Channel.owns (c : Channel) (projectId : Nat) (key : String) : Bool :=
  decide (projectId = c.projectId) && c.owned key

/-- The producer's side, the server, and which message a transaction of the
server is serving. -/
structure Pipeline (s : Settings) where
  outbox : OutboxWorld
  server : Platform s
  serving : Nat → Option OutboxMessage

inductive PipelineMove where
  | outbox (a : OutboxMove)
  /-- A copy of the `n`-th request reaches the server: transaction `k` begins. -/
  | arrive (n k : Nat) (call : IngestCall)
  /-- The normal return of transaction `k` reaches relay `i`. -/
  | answer (i k : Nat) (now : Time) (jitter : Jitter)
  /-- The server moves, or gets a call from somebody else. -/
  | server (m : Move Call Time)

/-- What the producer's side does on its own: keys come from the outbox's
own, and a normal return takes an answer. -/
def Channel.permits (c : Channel) : OutboxMove → Bool
  | .enqueue _ q => c.owned q.key
  | .settle _ _ result _ => decide (result ≠ .returned)
  | _ => true

/-- The project and the arguments of a call of `ingest_event`. -/
def Call.request : Call → Option (Nat × IngestCall)
  | .ingest projectId call => some (projectId, call)
  | _ => none

namespace Pipeline

/-- No request has been made yet. -/
def start (d : Shared) : Pipeline s := ⟨OutboxWorld.start, Sys.initial d, fun _ => none⟩

/-- What the others do: they leave the outbox's keys alone, and their
transactions have numbers of their own. -/
def others (c : Channel) (σ : Pipeline s) : Move Call Time → Bool
  | .begin k call =>
    (σ.serving k).isNone && !call.request.any fun q => c.owns q.1 q.2.idempotencyKey
  | _ => true

/-- Transaction `k` has served the request of relay `i`, and returned an event. -/
def answered (σ : Pipeline s) (i k : Nat) : Bool :=
  match σ.outbox.relays i, σ.serving k, σ.server.locals k with
  | .sending m _, some m', some (.ingested _ _ (.ok _)) =>
    decide (m'.id = m.id) && decide (m'.leaseToken = m.leaseToken)
  | _, _, _ => false

/-- One move; `none` when it is not possible. -/
def step (P : Primitives) (c : Channel) (σ : Pipeline s) : PipelineMove → Option (Pipeline s)
  | .outbox a =>
    if c.permits a then (σ.outbox.step c.relays a).map fun w => { σ with outbox := w }
    else none
  | .arrive n k call =>
    match σ.outbox.sends[n]? with
    | none => none
    | some m =>
      if m.posts call then
        ((platform P s).step σ.server (.begin k (.ingest c.projectId call))).map fun t =>
          { σ with server := t, serving := fun j => if j = k then some m else σ.serving j }
      else none
  | .answer i k now jitter =>
    if σ.answered i k then
      (σ.outbox.step c.relays (.settle i now .returned jitter)).map fun w =>
        { σ with outbox := w }
    else none
  | .server m =>
    if σ.others c m then
      ((platform P s).step σ.server m).map fun t => { σ with server := t }
    else none

end Pipeline

/-! ## §2. An ingest from its call to its answer. -/

/-- The call that a transaction belongs to, also when it has returned. -/
def Txn.request {s : Settings} : Txn s → Option (Nat × IngestCall)
  | .ingested projectId call _ => some (projectId, call)
  | l => l.ingest.map fun q => (q.project.id, q.call)

/-- The insertion has met another event under the key. -/
def Txn.raced {s : Settings} : Txn s → Bool
  | .ingestRaced _ | .ingestReread _ => true
  | _ => false

/-- The answer is a `ConflictError`. -/
def Txn.Conflicts {s : Settings} (l : Txn s) : Prop :=
  ∃ text, l.answer = some (.error (.conflict text))

section Requests

variable {l l' : Txn s}

theorem Txn.calm (h : ∀ text, l.answer ≠ some (.error (.conflict text))) : ¬ l.Conflicts := by
  rintro ⟨text, hanswer⟩
  exact h text hanswer

theorem ReplayPlan.refuse_request (p : ReplayPlan) (e : AppError) :
    (p.refuse e : Txn s).request = none := by
  unfold ReplayPlan.refuse
  split <;> rfl

theorem admitPlan_request (p : ReplayPlan) : (admitPlan s p).request = none := by
  unfold admitPlan
  split
  · exact p.refuse_request _
  · rfl

theorem bulkNext_request (q : BulkCall) (tenant : TenantQuotaState) (sources rest : List Delivery) :
    (bulkNext s q tenant sources rest).request = none := by
  cases rest with
  | nil => exact admitPlan_request _
  | cons => rfl

/-- No other transaction turns into an ingest. -/
theorem Txn.request_leads (hl : l.request = none) (hst : l.stmt P s = some st) :
    st.Leads fun l' => l'.request = none := by
  cases l <;> simp only [Txn.request, Txn.ingest, map_some, reduceCtorEq] at hl
  case claimWrite k b r =>
    simp only [Txn.stmt] at hst
    split at hst <;> (injection hst with hst; subst hst; rfl)
  case bulkReplayed | returned => exact absurd hst (by simp [Txn.stmt])
  case claimRows | purgeSelect =>
    cases hst
    intro d got
    dsimp only
    split <;> rfl
  case claimLive | claimScan | renewSelect | releaseSelect | finalizeSelect | finalizeState
      | replaySelect | replayEvent | replayVersion | bulkEvent =>
    cases hst
    intro d
    dsimp only
    split <;> rfl
  case cancelSelect =>
    cases hst
    intro d
    dsimp only
    split
    · rfl
    · split <;> rfl
  case bulkCheck | bulkRecheck =>
    cases hst
    intro d
    unfold bulkLookup
    split <;> rfl
  -- what is admitted, refused or done is a replay
  case replayTenant =>
    cases hst
    exact fun _ => admitPlan_request _
  case bulkSelect | bulkVersion =>
    cases hst
    intro d
    dsimp only
    split
    all_goals first | rfl | exact bulkNext_request _ _ _ _
  case replayBacklog p | replayRecord p =>
    cases hst
    intro d
    dsimp only
    split
    · exact p.refuse_request _
    · rfl
  case replayOldest p =>
    cases hst
    intro d
    dsimp only
    split
    · exact p.refuse_request _
    split
    · exact p.refuse_request _
    · rfl
  case replayWrite p =>
    cases hst
    unfold ReplayPlan.done
    split <;> rfl
  case claimNothing | renewWrite | releaseWrite | finalizeWrite | cancelWrite | bulkReturn
      | purgeWrite | rollback =>
    cases hst
    rfl
  all_goals
    cases hst
    exact fun _ => rfl

theorem Txn.request_of_ingest (hq : l.ingest = some q) :
    l.request = some (q.project.id, q.call) := by
  cases l <;> simp only [Txn.ingest, Option.some.injEq, reduceCtorEq] at hq
  all_goals exact congrArg (fun q : Ingest s => some (q.project.id, q.call)) hq

/-- Only an ingest answers a call or races for a key. -/
theorem Txn.silent_of_request (hl : l.request = none) : l.raced = false ∧ ¬ l.Conflicts := by
  cases l <;> simp only [Txn.request, Txn.ingest, map_some, reduceCtorEq] at hl
  all_goals exact ⟨rfl, Txn.calm fun _ h => by cases h⟩

/-- **What a statement over the data `d` does to an ingest.** -/
structure Advance (P : Primitives) (d : Shared) (l l' : Txn s) : Prop where
  request : l'.request = l.request
  /-- The insertion fails only if the key is in use. -/
  raced : l'.raced = true → l.raced = true ∨ ∃ q a, l = .ingestFlush q a ∧ ¬ Unused d q
  /-- A conflict is found by a lookup, or in a race. -/
  conflicts : l'.Conflicts → l.Conflicts ∨ l.raced = true ∨ ∃ q e, l.ingest = some q
    ∧ existingEvent d.db q.project.id q.call.idempotencyKey = some e
    ∧ e.sameContent P q.content = false

theorem advance_quiet (hrequest : l'.request = l.request) (hraced : l'.raced = false)
    (hanswer : ¬ l'.Conflicts) : Advance P d l l' :=
  ⟨hrequest, fun h => absurd (hraced.symm.trans h) (by decide), fun h => absurd h hanswer⟩

theorem chargeEvent_conflict {now : Time} (h : chargeEvent s state now n = .error e)
    (text : String) : e ≠ .conflict text := by
  unfold chargeEvent at h
  split at h
  case h_3 => cases h
  all_goals
    injection h with h
    rw [← h]
    exact fun heq => by cases heq

/-- A lookup that misses goes on to `next`. -/
theorem advance_lookup {next : Txn s} (hq : l.ingest = some q) (hnext : next.request = l.request)
    (hraced : next.raced = false) (hanswer : ¬ next.Conflicts) :
    Advance P d l (ingestLookup P q next d) := by
  unfold ingestLookup
  split
  next e he =>
    refine ⟨(Txn.request_of_ingest hq).symm, fun h => Bool.noConfusion h, ?_⟩
    rintro ⟨text, h⟩
    injection h with h
    unfold reuseEvent at h
    split at h
    · cases h
    next hother => exact Or.inr (Or.inr ⟨q, e, hq, he, Bool.eq_false_iff.mpr hother⟩)
  · exact advance_quiet hnext hraced hanswer

theorem Txn.advance (hst : l.stmt P s = some st) (hlead : st.LeadsTo d l') : Advance P d l l' := by
  by_cases hl : l.request = none
  · -- another call: nothing of it is an ingest's
    have hl' : l'.request = none := (Txn.request_leads hl hst).at_data hlead
    obtain ⟨hraced, hanswer⟩ := Txn.silent_of_request hl'
    exact advance_quiet (hl'.trans hl.symm) hraced hanswer
  · cases l <;> try exact absurd rfl hl
    case ingested => exact absurd hst (by simp [Txn.stmt])
    all_goals
      injection hst with hst
      subst hst
      obtain rfl := hlead
    case ingestCheck q => exact advance_lookup rfl rfl rfl (Txn.calm fun _ h => by cases h)
    case ingestRecheck q tenant =>
      refine advance_lookup rfl ?_ ?_ ?_
      all_goals split
      all_goals first | rfl | exact Txn.calm fun _ h => by cases h
    case ingestEndpoints | ingestBacklog | ingestOldest =>
      dsimp only
      split <;> exact advance_quiet rfl rfl (Txn.calm fun _ h => by cases h)
    case ingestRetained q a =>
      dsimp only
      split
      · exact advance_quiet rfl rfl (Txn.calm fun _ h => by cases h)
      split
      next e he =>
        refine advance_quiet rfl rfl (Txn.calm fun text h => ?_)
        injection h with h
        injection h with h
        exact chargeEvent_conflict he text h
      · exact advance_quiet rfl rfl (Txn.calm fun _ h => by cases h)
    case ingestFlush q a =>
      dsimp only
      split
      next hused =>
        refine ⟨rfl, fun _ => Or.inr ⟨q, a, rfl, fun hunused => ?_⟩,
          fun hc => absurd hc (Txn.calm fun _ h => by cases h)⟩
        rw [show existingEvent d.db q.project.id q.call.idempotencyKey = none from hunused] at hused
        cases hused
      · exact advance_quiet rfl rfl (Txn.calm fun _ h => by cases h)
    case ingestRaced =>
      exact ⟨rfl, fun _ => Or.inl rfl, fun hc => absurd hc (Txn.calm fun _ h => by cases h)⟩
    case ingestReread =>
      exact ⟨rfl, fun h => Bool.noConfusion h, fun _ => Or.inr (Or.inl rfl)⟩
    case ingestReturn =>
      exact ⟨rfl, fun h => Bool.noConfusion h, fun h => Or.inl h⟩
    all_goals exact advance_quiet rfl rfl (Txn.calm fun _ h => by cases h)

theorem IngestCall.content_ok {call : IngestCall} (h : call.content s = .ok c) :
    c.eventType = call.eventType ∧ EnvelopeMode.parse call.envelopeMode = some c.mode
      ∧ canonicalJson call.payload = some c.payloadBytes := by
  unfold IngestCall.content at h
  split at h
  · cases h
  split at h
  · cases h
  next mode hmode =>
    split at h
    · cases h
    next bytes hbytes =>
      split at h
      · cases h
      cases h
      exact ⟨rfl, hmode, hbytes⟩

theorem IngestCall.content_error {call : IngestCall} (h : call.content s = .error e) :
    ∃ text, e = .validation text := by
  unfold IngestCall.content at h
  (repeat' split at h) <;> cases h <;> exact ⟨_, rfl⟩

/-- A call begins as itself, and not with a conflict. -/
theorem Call.begin_request {c : Call} (h : c.begin s d = some l) :
    l.request = c.request ∧ l.raced = false ∧ ¬ l.Conflicts := by
  cases c with
  | ingest projectId =>
    obtain ⟨project, hproject, rfl⟩ := map_eq_some_iff.mp h
    have hid : project.id = projectId := Table.key_of_find? hproject
    subst hid
    split
    next e he =>
      obtain ⟨text, rfl⟩ := IngestCall.content_error he
      exact ⟨rfl, rfl, Txn.calm fun _ h => by cases h⟩
    · exact ⟨rfl, rfl, Txn.calm fun _ h => by cases h⟩
  | claim | renew | release | finalize =>
    obtain ⟨-, h⟩ := ite_none_right_eq_some.mp h
    cases h
    exact ⟨rfl, rfl, Txn.calm fun _ h => by cases h⟩
  | cancel | replay =>
    obtain ⟨project, -, rfl⟩ := map_eq_some_iff.mp h
    exact ⟨rfl, rfl, Txn.calm fun _ h => by cases h⟩
  | replayMany =>
    obtain ⟨project, -, rfl⟩ := map_eq_some_iff.mp h
    dsimp only
    split <;> exact ⟨rfl, rfl, Txn.calm fun _ h => by cases h⟩
  | purge =>
    cases h
    exact ⟨rfl, rfl, Txn.calm fun _ h => by cases h⟩

end Requests

/-! ## §3. What becomes of the events. -/

/-- A version of an event: the payload is there until it is purged. -/
structure EventVersion (e e' : Event) : Prop extends SameEvent e e' where
  payload : e'.payloadPurgedAt = none → e.payloadPurgedAt = none ∧ e'.payload = e.payload

theorem EventVersion.refl (e : Event) : EventVersion e e := ⟨SameEvent.refl e, fun h => ⟨h, rfl⟩⟩

/-- The outline under which a key has one event. -/
def keyOutline (P : Primitives) (s : Settings) : Outline (platform P s) (Discipline.allow {}) :=
  outline P s {} (fun d => UniqueKeys d.db) (fun _ _ h hc => uniqueKeys_commit h hc)
    (fun _ _ h _ => h)

section Events

variable {G : Shared → Prop} {l : Txn s}

/-- **Where an event comes from**: it was there, or the commit of an accepted
call has inserted it. -/
theorem Txn.stmt_events (hok : l.ok P {} G d H) (hst : l.stmt P s = some st)
    (he' : e' ∈ (st.write d).db.events.rows) :
    (∃ e ∈ d.db.events.rows, EventVersion e e') ∨ ∃ q a id, l = .ingestWrite q a id
        ∧ ∃ bytes, e' = newEvent P q.project q.call q.content bytes q.now d.db.events.next := by
  cases l
  case ingested | bulkReplayed | returned => exact absurd hst (by simp [Txn.stmt])
  case claimWrite k b r =>
    simp only [Txn.stmt] at hst
    split at hst
    · cases hst
      exact Or.inl ⟨e', he', EventVersion.refl e'⟩
    next claims hclaims =>
      cases hst
      obtain ⟨g, ts, es, hframe⟩ := Shared.claimed_frame (s := s) k b r claims d
      have he' : e' ∈ (Shared.claimed s k b r claims d).db.events.rows := he'
      rw [hframe] at he'
      exact Or.inl ⟨e', he', EventVersion.refl e'⟩
  case finalizeWrite now c f x e =>
    cases hst
    refine Or.inl ⟨e', ?_, EventVersion.refl e'⟩
    have he' : e' ∈ (Shared.finalized s now c f x e d).db.events.rows := he'
    unfold Shared.finalized at he'
    split at he' <;> exact he'
  case ingestWrite q a eventId =>
    cases hst
    have he' : e' ∈ (acceptEvent P s q.now q.project q.call q.content a.envelopeBytes a.endpoints
        a.tenant d.db).events.rows := he'
    rw [acceptEvent_events, mem_append, mem_singleton] at he'
    rcases he' with he' | rfl
    · exact Or.inl ⟨e', he', EventVersion.refl e'⟩
    · exact Or.inr ⟨q, a, eventId, rfl, a.envelopeBytes, rfl⟩
  case purgeWrite now events =>
    cases hst
    rcases mem_purged_cases hok.1.rows he' with he' | ⟨e, he, rfl⟩
    · exact Or.inl ⟨e', he', EventVersion.refl e'⟩
    · exact Or.inl ⟨e, he, ⟨rfl, rfl, rfl, rfl, rfl, rfl⟩, fun h => by cases h⟩
  all_goals
    cases hst
    exact Or.inl ⟨e', he', EventVersion.refl e'⟩

/-- The same for a move of the platform. -/
theorem platform_events (hσ : (keyOutline P s).Inv σ) (hstep : (platform P s).step σ m = some σ')
    (he' : e' ∈ σ'.db.db.events.rows) :
    (∃ e ∈ σ.db.db.events.rows, EventVersion e e')
      ∨ ∃ k q a id, σ.locals k = some (.ingestWrite q a id)
        ∧ ∃ bytes n, e' = newEvent P q.project q.call q.content bytes q.now n := by
  cases m with
  | begin =>
    simp only [Program.step] at hstep
    split at hstep
    · cases hstep
    obtain ⟨r, hr, rfl⟩ := map_eq_some_iff.mp hstep
    obtain ⟨t, -, rfl⟩ := map_eq_some_iff.mp hr
    exact Or.inl ⟨e', he', EventVersion.refl e'⟩
  | exec k =>
    obtain ⟨l, hl, hstep⟩ := bind_eq_some_iff.mp hstep
    obtain ⟨st, hst, hexec⟩ := bind_eq_some_iff.mp hstep
    rw [(platform P s).execStmt_db hexec] at he'
    rcases Txn.stmt_events (hσ.ok k l hl) hst he' with hold | ⟨q, a, id, rfl, bytes, rfl⟩
    · exact Or.inl hold
    · exact Or.inr ⟨k, q, a, id, hl, bytes, _, rfl⟩
  | abort =>
    obtain ⟨l, -, rfl⟩ := map_eq_some_iff.mp hstep
    exact Or.inl ⟨e', he', EventVersion.refl e'⟩
  | env =>
    obtain ⟨d, hd, rfl⟩ := map_eq_some_iff.mp hstep
    obtain ⟨-, hd⟩ := ite_none_right_eq_some.mp hd
    cases hd
    exact Or.inl ⟨e', he', EventVersion.refl e'⟩

end Events

/-! ## §4. What becomes of the rows. -/

section Rows

theorem Outbox.eq_of_idempotencyKey (o : Outbox) (hr : r ∈ o.rows) (hr' : r' ∈ o.rows)
    (h : r.idempotencyKey = r'.idempotencyKey) : r = r' :=
  inj_on_of_nodup_map o.unique hr hr' h

/-- Rows stay. -/
theorem OutboxEffect.rows_kept (h : OutboxEffect cfg w a w') (hr : r ∈ w.outbox.rows) :
    ∃ r' ∈ w'.outbox.rows, r.Same r' := by
  cases h with
  | enqueued _ _ o _ rows =>
    refine ⟨r, ?_, OutboxRow.Same.refl r⟩
    show r ∈ o.rows
    rw [rows]
    exact mem_append_left _ hr
  | claimed =>
    exact ⟨_, mem_map_of_mem hr, Outbox.claimRow_same _ _ _ r⟩
  | finished =>
    exact ⟨_, mem_map_of_mem hr, Outbox.finishRow_same _ _ _ r⟩
  | sent | left => exact ⟨r, hr, OutboxRow.Same.refl r⟩

theorem OutboxEffect.sends_kept (h : OutboxEffect cfg w a w') (hm : m ∈ w.sends) :
    m ∈ w'.sends := by
  cases h with
  | sent => exact mem_append_left _ hm
  | enqueued | claimed | finished | left => exact hm

/-- The move is the normal return for the row's message. -/
def OutboxWorld.Returns (w : OutboxWorld) (a : OutboxMove) (r : OutboxRow) : Prop :=
  ∃ i now jitter m rest, a = .settle i now .returned jitter ∧ w.relays i = .sending m rest
    ∧ r.id = m.id

/-- **Where a row comes from, and its `sent_at`**: rows are enqueued, and marked
by a normal return. -/
theorem OutboxEffect.rows_from (h : OutboxEffect cfg w a w') (hr' : r' ∈ w'.outbox.rows) :
    (∃ r ∈ w.outbox.rows, r.Same r'
        ∧ (r'.sentAt.isSome = true → r.sentAt.isSome = true ∨ w.Returns a r'))
      ∨ ∃ now q mode, a = .enqueue now q ∧ r' = q.row now mode := by
  cases h with
  | enqueued now q o mode rows =>
    have hr' : r' ∈ o.rows := hr'
    rw [rows, mem_append, mem_singleton] at hr'
    rcases hr' with hr' | rfl
    · exact Or.inl ⟨r', hr', OutboxRow.Same.refl r', Or.inl⟩
    · exact Or.inr ⟨now, q, mode, rfl, rfl⟩
  | claimed =>
    obtain ⟨r, hr, rfl⟩ := mem_map.mp hr'
    refine Or.inl ⟨r, hr, Outbox.claimRow_same _ _ _ r, fun hsent => Or.inl ?_⟩
    unfold Outbox.claimRow at hsent
    split at hsent <;> exact hsent
  | finished i now _ jitter m rest c sending settled =>
    obtain ⟨r, hr, rfl⟩ := mem_map.mp hr'
    refine Or.inl ⟨r, hr, Outbox.finishRow_same _ _ _ r, fun hsent => ?_⟩
    unfold Outbox.finishRow at hsent ⊢
    split at hsent
    next hguard =>
      rw [if_pos hguard]
      cases hc : c.sent with
      | true =>
        -- the completion of a normal return, on the message's own row
        have hresult := (settle_lawful settled).2.1.mp hc
        subst hresult
        unfold Outbox.guards at hguard
        rw [Bool.and_eq_true, Bool.and_eq_true, decide_eq_true_eq] at hguard
        exact Or.inr ⟨i, now, jitter, m, rest, rfl, sending, hguard.1.1⟩
      | false =>
        unfold Outbox.finishedRow at hsent
        rw [hc] at hsent
        exact Or.inl hsent
    · exact Or.inl hsent
  | sent | left => exact Or.inl ⟨r', hr', OutboxRow.Same.refl r', Or.inl⟩

end Rows

/-! ## §5. Rows, requests and events agree. -/

/-- The call asks for the row's content, under the row's key. -/
structure OutboxRow.Asks (r : OutboxRow) (call : IngestCall) : Prop where
  idempotencyKey : call.idempotencyKey = r.idempotencyKey
  eventType : call.eventType = r.eventType
  envelopeMode : EnvelopeMode.parse call.envelopeMode = some r.envelopeMode
  payload : canonicalJson call.payload = canonicalJson r.payload

/-- **The event has the row's content**: type, mode, and canonical payload, of
which it keeps the fingerprint after a purge. -/
structure Event.Publishes (P : Primitives) (e : Event) (r : OutboxRow) : Prop where
  idempotencyKey : e.idempotencyKey = r.idempotencyKey
  eventType : e.eventType = r.eventType
  envelopeMode : e.envelopeMode = r.envelopeMode
  payload : ∃ bytes, canonicalJson r.payload = some bytes
    ∧ e.payloadHash = P.sha256 (fingerprintMaterial r.envelopeMode r.eventType bytes)
    ∧ (e.payloadPurgedAt = none → ∃ payload, e.payload = some payload
      ∧ canonicalJson payload = some bytes)

section Agreement

variable {e e' : Event}

theorem OutboxMessage.Of.asks {m : OutboxMessage} (h : m.Of r) (hposts : m.posts call = true) :
    r.Asks call := by
  unfold OutboxMessage.posts at hposts
  rw [Bool.and_eq_true, Bool.and_eq_true, Bool.and_eq_true, decide_eq_true_eq, decide_eq_true_eq,
    decide_eq_true_eq, decide_eq_true_eq] at hposts
  obtain ⟨⟨⟨hkey, htype⟩, hmode⟩, hpayload⟩ := hposts
  exact ⟨hkey.trans h.idempotencyKey, htype.trans h.eventType, hmode.trans (by rw [h.envelopeMode]),
    hpayload.trans (by rw [h.payload])⟩

/-- The event that an accepted call inserts. -/
theorem OutboxRow.Asks.publishes {q : Ingest s} (h : r.Asks q.call) (bytes : Bytes) (n : Nat) :
    (newEvent P q.project q.call q.content bytes q.now n).Publishes P r := by
  obtain ⟨htype, hmode, hpayload⟩ := IngestCall.content_ok q.valid
  have hrmode : r.envelopeMode = q.content.mode := Option.some.inj (h.envelopeMode.symm.trans hmode)
  have htype : q.content.eventType = r.eventType := htype.trans h.eventType
  refine ⟨h.idempotencyKey, h.eventType, hrmode.symm, q.content.payloadBytes,
    h.payload.symm.trans hpayload, ?_, fun _ => ⟨q.call.payload, rfl, hpayload⟩⟩
  rw [hrmode, ← htype]
  rfl

/-- A call for the row's content finds its own content in the event. -/
theorem Event.Publishes.sameContent {q : Ingest s} (h : e.Publishes P r) (hasks : r.Asks q.call) :
    e.sameContent P q.content = true := by
  obtain ⟨htype, hmode, hpayload⟩ := IngestCall.content_ok q.valid
  have hrmode : r.envelopeMode = q.content.mode :=
    Option.some.inj (hasks.envelopeMode.symm.trans hmode)
  obtain ⟨bytes, hbytes, hhash, -⟩ := h.payload
  have heq : bytes = q.content.payloadBytes :=
    Option.some.inj (hbytes.symm.trans (hasks.payload.symm.trans hpayload))
  have htype : r.eventType = q.content.eventType := hasks.eventType.symm.trans htype.symm
  rw [Event.sameContent_iff]
  refine ⟨h.eventType.trans htype, h.envelopeMode.trans hrmode, hhash.trans ?_⟩
  rw [heq, hrmode, htype]
  rfl

theorem Event.Publishes.version (h : e.Publishes P r) (hv : EventVersion e e') :
    e'.Publishes P r := by
  obtain ⟨bytes, hbytes, hhash, hpayload⟩ := h.payload
  refine ⟨hv.idempotencyKey.trans h.idempotencyKey, hv.eventType.trans h.eventType,
    hv.envelopeMode.trans h.envelopeMode, bytes, hbytes, hv.payloadHash.trans hhash, fun hnew => ?_⟩
  obtain ⟨hold, hsame⟩ := hv.payload hnew
  rw [hsame]
  exact hpayload hold

theorem Event.Publishes.same (h : e.Publishes P r) (hs : r.Same r') : e.Publishes P r' := by
  refine ⟨h.idempotencyKey.trans hs.idempotencyKey.symm, h.eventType.trans hs.eventType.symm,
    h.envelopeMode.trans hs.envelopeMode.symm, ?_⟩
  rw [hs.payload, hs.envelopeMode, hs.eventType]
  exact h.payload

end Agreement

/-! ## §6. The invariant. -/

/-- **The call and the message that its transaction serves fit together**: the
message's request is made, and nobody else makes a request under the outbox's
keys. -/
structure Channel.Fits (c : Channel) (message : Option OutboxMessage)
    (request : Option (Nat × IngestCall)) : Prop where
  served : ∀ m, message = some m → ∃ call, request = some (c.projectId, call)
    ∧ m.posts call = true
  asked : ∀ projectId call, request = some (projectId, call) →
    c.owns projectId call.idempotencyKey = true → message.isSome = true

/-- What holds in every reachable state. -/
structure Pipeline.Inv (P : Primitives) (c : Channel) {s : Settings} (σ : Pipeline s) : Prop where
  outbox : σ.outbox.Inv
  keys : ∀ r ∈ σ.outbox.outbox.rows, c.owned r.idempotencyKey = true
  server : (keyOutline P s).Inv σ.server
  sends : ∀ k m, σ.serving k = some m → m ∈ σ.outbox.sends
  fits : ∀ k l, σ.server.locals k = some l → c.Fits (σ.serving k) l.request
  /-- The scheduler's lock keeps insertions from racing. -/
  ordered : ∀ k l, σ.server.locals k = some l → l.raced = false
  calm : ∀ k l m, σ.server.locals k = some l → σ.serving k = some m → ¬ l.Conflicts
  stored : ∀ e ∈ σ.server.db.db.events.rows, c.owns e.projectId e.idempotencyKey = true →
    ∃ r ∈ σ.outbox.outbox.rows, e.Publishes P r
  sent : ∀ r ∈ σ.outbox.outbox.rows, r.sentAt.isSome = true →
    ∃ e ∈ σ.server.db.db.events.rows, e.projectId = c.projectId
      ∧ e.idempotencyKey = r.idempotencyKey

section Invariant

variable {P : Primitives} {c : Channel} {s : Settings} {σ : Pipeline s}

theorem Channel.owns_iff {projectId : Nat} :
    c.owns projectId key = true ↔ projectId = c.projectId ∧ c.owned key = true := by
  unfold Channel.owns
  rw [Bool.and_eq_true, decide_eq_true_eq]

theorem Pipeline.inv_start (hd : UniqueKeys d.db)
    (hkeys : ∀ e ∈ d.db.events.rows, c.owns e.projectId e.idempotencyKey = false) :
    (Pipeline.start d : Pipeline s).Inv P c where
  outbox := OutboxWorld.inv_start
  keys := fun _ h => absurd h not_mem_nil
  server := (keyOutline P s).inv_initial hd
  sends := fun _ _ h => by cases h
  fits := fun _ _ h => by cases h
  ordered := fun _ _ h => by cases h
  calm := fun _ _ _ h => by cases h
  stored := fun e he hown => absurd ((hkeys e he).symm.trans hown) (by decide)
  sent := fun _ h => absurd h not_mem_nil

/-- The row behind a transaction that serves a message. -/
theorem Pipeline.Inv.row (hσ : σ.Inv P c) (hserving : σ.serving k = some m)
    (hl : σ.server.locals k = some l) :
    ∃ r ∈ σ.outbox.outbox.rows, m.Of r
      ∧ ∃ call, l.request = some (c.projectId, call) ∧ r.Asks call := by
  obtain ⟨r, hr, hof⟩ := hσ.outbox.claimed m (hσ.outbox.sends m (hσ.sends k m hserving))
  obtain ⟨call, hcall, hposts⟩ := (hσ.fits k l hl).served m hserving
  exact ⟨r, hr, hof, call, hcall, hof.asks hposts⟩

/-- An event under the key of a row has the row's content. -/
theorem Pipeline.Inv.publishes (hσ : σ.Inv P c) {r : OutboxRow} (hr : r ∈ σ.outbox.outbox.rows)
    (he : e ∈ σ.server.db.db.events.rows) (hproject : e.projectId = c.projectId)
    (hkey : e.idempotencyKey = r.idempotencyKey) : e.Publishes P r := by
  have hown : c.owns e.projectId e.idempotencyKey = true :=
    Channel.owns_iff.mpr ⟨hproject, by rw [hkey]; exact hσ.keys r hr⟩
  obtain ⟨r', hr', hpublishes⟩ := hσ.stored e he hown
  have heq : r' = r :=
    σ.outbox.outbox.eq_of_idempotencyKey hr' hr (hpublishes.idempotencyKey.symm.trans hkey)
  exact heq ▸ hpublishes

/-- A lookup for a message finds the message's own content. -/
theorem Pipeline.Inv.agrees (hσ : σ.Inv P c) {k : Nat} {m : OutboxMessage} {l : Txn s}
    {q : Ingest s} {e : Event} (hserving : σ.serving k = some m)
    (hl : σ.server.locals k = some l) (hq : l.ingest = some q)
    (hfound : existingEvent σ.server.db.db q.project.id q.call.idempotencyKey = some e) :
    e.sameContent P q.content = true := by
  obtain ⟨r, hr, -, call, hcall, hasks⟩ := hσ.row hserving hl
  obtain ⟨hproject, rfl⟩ :=
    Prod.mk.inj (Option.some.inj ((Txn.request_of_ingest hq).symm.trans hcall))
  have hwhere := List.find?_some hfound
  rw [Bool.and_eq_true, decide_eq_true_eq, decide_eq_true_eq] at hwhere
  exact (hσ.publishes hr (mem_of_find?_eq_some hfound) (hwhere.1.trans hproject)
    (hwhere.2.trans hasks.idempotencyKey)).sameContent hasks

/-! ## §7. Every move keeps the invariant. -/

section ServerMoves

variable {mv : Move Call Time} {serving : Nat → Option OutboxMessage}

/-- What is known of a transaction after a move of the server, when it is known
of those that begin and kept by every statement. -/
theorem locals_moves {Q : Nat → Txn s → Prop} (hstep : (platform P s).step σ.server mv = some t)
    (hold : ∀ k l, σ.server.locals k = some l → Q k l)
    (hbegin : ∀ k call l, mv = .begin k call → call.begin s σ.server.db = some l → Q k l)
    (hexec : ∀ k l l', σ.server.locals k = some l → Q k l → Advance P σ.server.db l l' → Q k l')
    {k : Nat} {l : Txn s} (hl : t.locals k = some l) : Q k l := by
  rcases (platform P s).step_locals hstep hl with hsame | ⟨call, d, hmv, hstart⟩
    | ⟨l₀, st, -, hl₀, hst, hlead⟩
  · exact hold k l hsame
  · obtain ⟨l', hl', heq⟩ := map_eq_some_iff.mp hstart
    injection heq with _ heq
    subst heq
    exact hbegin k call l' hmv hl'
  · exact hexec k l₀ l hl₀ (hold k l₀ hl₀) (Txn.advance hst hlead)

/-- Under the scheduler's lock the key is unused until the insertion. -/
theorem Pipeline.Inv.ordered_moves (hσ : σ.Inv P c)
    (hstep : (platform P s).step σ.server mv = some t) {k : Nat} {l : Txn s}
    (hl : t.locals k = some l) : l.raced = false := by
  refine locals_moves hstep hσ.ordered ?_ ?_ hl
  · exact fun k call l _ hl => (Call.begin_request hl).2.1
  · intro k l l' hl hquiet hadvance
    refine Bool.eq_false_iff.mpr fun hraced => ?_
    rcases hadvance.raced hraced with hbefore | ⟨q, a, rfl, hused⟩
    · exact absurd (hquiet.symm.trans hbefore) (by decide)
    · exact hused (hσ.server.ok k _ hl : Charged _ _ q a).unused

/-- What a lookup finds under the key of a message is the message's own event. -/
theorem Pipeline.Inv.calm_moves (hσ : σ.Inv P c) (hstep : (platform P s).step σ.server mv = some t)
    (hgoing : ∀ k l, σ.server.locals k = some l → serving k = σ.serving k) {k : Nat}
    {l : Txn s} {m : OutboxMessage} (hl : t.locals k = some l) (hm : serving k = some m) :
    ¬ l.Conflicts := by
  refine @locals_moves P s σ mv t (fun k l => ∀ m, serving k = some m → ¬ l.Conflicts) hstep
    ?_ ?_ ?_ k l hl m hm
  · exact fun k l hl m hm => hσ.calm k l m hl ((hgoing k l hl).symm.trans hm)
  · exact fun k call l _ hl _ _ => (Call.begin_request hl).2.2
  · intro k l l' hl hquiet hadvance m hm hconflict
    rcases hadvance.conflicts hconflict with hbefore | hraced | ⟨q, e, hq, hfound, hother⟩
    · exact hquiet m hm hbefore
    · exact absurd ((hσ.ordered k l hl).symm.trans hraced) (by decide)
    · have hsame := hσ.agrees ((hgoing k l hl).symm.trans hm) hl hq hfound
      exact absurd (hsame.symm.trans hother) (by decide)

/-- Every event under a key of the outbox has the content of a row. -/
theorem Pipeline.Inv.stored_moves (hσ : σ.Inv P c)
    (hstep : (platform P s).step σ.server mv = some t) {e' : Event}
    (he' : e' ∈ t.db.db.events.rows) (hown : c.owns e'.projectId e'.idempotencyKey = true) :
    ∃ r ∈ σ.outbox.outbox.rows, e'.Publishes P r := by
  rcases platform_events hσ.server hstep he' with ⟨e, he, hv⟩ | ⟨k, q, a, id, hl, bytes, n, rfl⟩
  · rw [hv.projectId, hv.idempotencyKey] at hown
    obtain ⟨r, hr, hpublishes⟩ := hσ.stored e he hown
    exact ⟨r, hr, hpublishes.version hv⟩
  · obtain ⟨m, hm⟩ := isSome_iff_exists.mp ((hσ.fits k _ hl).asked _ q.call rfl hown)
    obtain ⟨r, hr, -, call, hcall, hasks⟩ := hσ.row hm hl
    obtain ⟨-, rfl⟩ := Prod.mk.inj (Option.some.inj hcall)
    exact ⟨r, hr, hasks.publishes bytes n⟩

/-- A move of the server: running transactions go on serving what they serve,
and a call that begins fits what it serves. -/
theorem Pipeline.Inv.server_moves (hσ : σ.Inv P c)
    (hstep : (platform P s).step σ.server mv = some t)
    (hsends : ∀ k m, serving k = some m → m ∈ σ.outbox.sends)
    (hgoing : ∀ k l, σ.server.locals k = some l → serving k = σ.serving k)
    (hbegin : ∀ k call, mv = .begin k call → c.Fits (serving k) call.request) :
    Pipeline.Inv P c ⟨σ.outbox, t, serving⟩ := by
  have hallow : Allowed (platform P s) (Discipline.allow {}) σ.server mv t :=
    Discipline.allowed_default
  refine ⟨hσ.outbox, hσ.keys, (keyOutline P s).inv_step hσ.server hstep hallow, hsends, ?_,
    fun k l hl => hσ.ordered_moves hstep hl,
    fun k l m hl hm => hσ.calm_moves hstep hgoing hl hm,
    fun e he hown => hσ.stored_moves hstep he hown, ?_⟩
  · intro k l hl
    refine @locals_moves P s σ mv t (fun k l => c.Fits (serving k) l.request) hstep ?_ ?_ ?_ k l hl
    · intro k l hl
      rw [hgoing k l hl]
      exact hσ.fits k l hl
    · intro k call l hmv hl
      rw [(Call.begin_request hl).1]
      exact hbegin k call hmv
    · intro k l l' _ hfits hadvance
      rw [hadvance.request]
      exact hfits
  · -- no event is deleted
    intro r hr hsent
    obtain ⟨e, he, hproject, hkey⟩ := hσ.sent r hr hsent
    obtain ⟨e', he', hsame⟩ :=
      ((keyOutline P s).rely_step Rely.refl hσ.server hstep hallow).events e he
    exact ⟨e', he', hsame.projectId.trans hproject, hsame.idempotencyKey.trans hkey⟩

end ServerMoves

/-- A move of the producer's side.  A row that a normal return marks has an
event. -/
theorem Pipeline.Inv.outbox_moves (hσ : σ.Inv P c) (hstep : σ.outbox.step c.relays a = some w)
    (howned : ∀ now q, a = .enqueue now q → c.owned q.key = true)
    (hreturned : ∀ r ∈ w.outbox.rows, σ.outbox.Returns a r →
      ∃ e ∈ σ.server.db.db.events.rows, e.projectId = c.projectId
        ∧ e.idempotencyKey = r.idempotencyKey) : Pipeline.Inv P c { σ with outbox := w } := by
  have heffect := OutboxWorld.step_effect hstep
  refine ⟨heffect.inv hσ.outbox, ?_, hσ.server,
    fun k m hm => heffect.sends_kept (hσ.sends k m hm), hσ.fits, hσ.ordered, hσ.calm, ?_, ?_⟩
  · intro r' hr'
    rcases heffect.rows_from hr' with ⟨r, hr, hsame, -⟩ | ⟨now, q, mode, ha, rfl⟩
    · rw [hsame.idempotencyKey]
      exact hσ.keys r hr
    · exact howned now q ha
  · intro e he hown
    obtain ⟨r, hr, hpublishes⟩ := hσ.stored e he hown
    obtain ⟨r', hr', hsame⟩ := heffect.rows_kept hr
    exact ⟨r', hr', hpublishes.same hsame⟩
  · intro r' hr' hsent
    rcases heffect.rows_from hr' with ⟨r, hr, hsame, hmarked⟩ | ⟨now, q, mode, -, rfl⟩
    · rcases hmarked hsent with hbefore | hreturns
      · rw [hsame.idempotencyKey]
        exact hσ.sent r hr hbefore
      · exact hreturned r' hr' hreturns
    · cases hsent

/-- The transaction that answered relay `i` has the event of its row. -/
theorem Pipeline.Inv.answer_stored (hσ : σ.Inv P c) {w : OutboxWorld}
    (hanswered : σ.answered i k = true) (hsending : σ.outbox.relays i = .sending m rest)
    (hw : w.Inv) (hsends : ∀ m ∈ σ.outbox.sends, m ∈ w.sends) (hr : r ∈ w.outbox.rows)
    (hid : r.id = m.id) :
    ∃ e ∈ σ.server.db.db.events.rows, e.projectId = c.projectId
      ∧ e.idempotencyKey = r.idempotencyKey := by
  unfold Pipeline.answered at hanswered
  split at hanswered
  next m' rest' m'' projectId call e hsending' hserving hl =>
    rw [hsending] at hsending'
    injection hsending' with hm _
    subst hm
    rw [Bool.and_eq_true, decide_eq_true_eq, decide_eq_true_eq] at hanswered
    -- the message that was served is this row's
    obtain ⟨r', hr', hof⟩ := hw.claimed m'' (hw.sends m'' (hsends _ (hσ.sends k m'' hserving)))
    have heq : r' = r :=
      w.outbox.eq_of_key_eq hr' hr (hof.id.symm.trans (hanswered.1.trans hid.symm))
    subst heq
    obtain ⟨call', hcall, hposts⟩ := (hσ.fits k _ hl).served m'' hserving
    obtain ⟨rfl, rfl⟩ := Prod.mk.inj (Option.some.inj hcall)
    -- and a normal return is the event under the key of the call
    obtain ⟨content, -, e', he', -, hproject, hkey, -⟩ :=
      (hσ.server.ok k _ hl : Answered P s _ _ call (.ok e)) e rfl
    exact ⟨e', he', hproject, hkey.trans (hof.asks hposts).idempotencyKey⟩
  · cases hanswered

/-- **EVERY MOVE KEEPS THE INVARIANT.** -/
theorem Pipeline.Inv.step {a : PipelineMove} {σ' : Pipeline s} (hσ : σ.Inv P c)
    (h : σ.step P c a = some σ') : σ'.Inv P c := by
  cases a with
  | outbox =>
    obtain ⟨hpermit, h⟩ := ite_none_right_eq_some.mp h
    obtain ⟨w, hw, rfl⟩ := map_eq_some_iff.mp h
    refine hσ.outbox_moves hw ?_ ?_
    · rintro now q rfl
      exact hpermit
    · rintro r - ⟨i, now, jitter, m, rest, rfl, -, -⟩
      exact absurd hpermit (by simp [Channel.permits])
  | arrive _ _ call =>
    simp only [Pipeline.step] at h
    split at h
    · cases h
    next m hm =>
      obtain ⟨hposts, h⟩ := ite_none_right_eq_some.mp h
      obtain ⟨t, ht, rfl⟩ := map_eq_some_iff.mp h
      refine hσ.server_moves ht ?_ ?_ ?_
      · intro j m' hserving
        split at hserving
        · injection hserving with heq
          subst heq
          exact mem_of_getElem? hm
        · exact hσ.sends j m' hserving
      · intro j l hl
        refine if_neg ?_
        rintro rfl
        -- the number of a transaction that begins was free
        rw [(platform P s).free_of_begin ht] at hl
        cases hl
      · intro j call' hmv
        injection hmv with hj hcall
        subst hj hcall
        rw [if_pos rfl]
        refine ⟨fun m' heq => ?_, fun _ _ _ _ => rfl⟩
        cases heq
        exact ⟨call, rfl, hposts⟩
  | answer =>
    obtain ⟨hanswered, h⟩ := ite_none_right_eq_some.mp h
    obtain ⟨w, hw, rfl⟩ := map_eq_some_iff.mp h
    have heffect := OutboxWorld.step_effect hw
    refine hσ.outbox_moves hw (fun _ _ h => by cases h) ?_
    rintro r hr ⟨i', now', jitter', m, rest, ha, hsending, hid⟩
    injection ha with hi
    subst hi
    exact hσ.answer_stored hanswered hsending (heffect.inv hσ.outbox)
      (fun _ hm => heffect.sends_kept hm) hr hid
  | server =>
    obtain ⟨hothers, h⟩ := ite_none_right_eq_some.mp h
    obtain ⟨t, ht, rfl⟩ := map_eq_some_iff.mp h
    refine hσ.server_moves ht hσ.sends (fun _ _ _ => rfl) ?_
    rintro k call rfl
    -- somebody else's call, under a key of their own
    unfold Pipeline.others at hothers
    rw [Bool.and_eq_true, isNone_iff_eq_none, Bool.not_eq_true'] at hothers
    obtain ⟨hnone, hforeign⟩ := hothers
    refine ⟨fun m hm => ?_, fun projectId ic hrequest hown => ?_⟩
    · rw [hnone] at hm
      cases hm
    · rw [hrequest] at hforeign
      exact absurd (hforeign.symm.trans hown) (by decide)

end Invariant

/-! ## §8. Every reachable state. -/

/-- **Each row has its event.** -/
structure ExactlyOnce (P : Primitives) (c : Channel) {s : Settings} (σ : Pipeline s) : Prop where
  /-- A row has at most one event under its key. -/
  atMostOne : ∀ r ∈ σ.outbox.outbox.rows, ∀ e ∈ σ.server.db.db.events.rows,
    ∀ e' ∈ σ.server.db.db.events.rows, e.projectId = c.projectId → e'.projectId = c.projectId →
      e.idempotencyKey = r.idempotencyKey → e'.idempotencyKey = r.idempotencyKey → e = e'
  /-- Whatever is there under its key has its content. -/
  content : ∀ r ∈ σ.outbox.outbox.rows, ∀ e ∈ σ.server.db.db.events.rows,
    e.projectId = c.projectId → e.idempotencyKey = r.idempotencyKey → e.Publishes P r
  /-- A row that is marked as sent has an event. -/
  sent : ∀ r ∈ σ.outbox.outbox.rows, r.sentAt.isSome = true →
    ∃ e ∈ σ.server.db.db.events.rows, e.projectId = c.projectId ∧ e.Publishes P r
  /-- No attempt for a message is answered with a conflict. -/
  noConflict : ∀ k m text, σ.serving k = some m →
    (σ.server.locals k).bind Txn.answer ≠ some (.error (.conflict text))
  /-- Two attempts for one row that return normally return one event. -/
  agree : ∀ k k' m m' projectId projectId' a b e e', σ.serving k = some m →
    σ.serving k' = some m' → m.id = m'.id →
      σ.server.locals k = some (.ingested projectId a (.ok e)) →
        σ.server.locals k' = some (.ingested projectId' b (.ok e')) → e.id = e'.id

/-- **EXACTLY ONE EVENT FOR EACH ROW**, in every state that the outbox, its
relays, the channel and the server can reach. -/
theorem exactly_one_event (P : Primitives) (s : Settings) (c : Channel) (d : Shared)
    (hd : UniqueKeys d.db)
    (hkeys : ∀ e ∈ d.db.events.rows, c.owns e.projectId e.idempotencyKey = false)
    (ms : List PipelineMove) (σ : Pipeline s)
    (hrun : run (Pipeline.step P c) (Pipeline.start d) ms = some σ) : ExactlyOnce P c σ := by
  have hσ : σ.Inv P c := run_inv (fun _ _ _ hi h => hi.step h) (Pipeline.inv_start hd hkeys) hrun
  have hunique : UniqueKeys σ.server.db.db := hσ.server.glob
  refine ⟨?_, fun r hr e he hp hk => hσ.publishes hr he hp hk, ?_, ?_, ?_⟩
  · intro r _ e he e' he' hp hp' hk hk'
    exact hunique e he e' he' (hp.trans hp'.symm) (hk.trans hk'.symm)
  · intro r hr hsent
    obtain ⟨e, he, hp, hk⟩ := hσ.sent r hr hsent
    exact ⟨e, he, hp, hσ.publishes hr he hp hk⟩
  · intro k m text hserving hanswer
    obtain ⟨l, hl, hanswer⟩ := bind_eq_some_iff.mp hanswer
    exact hσ.calm k l m hl hserving ⟨text, hanswer⟩
  · intro k k' m m' projectId projectId' a b e e' hserving hserving' hid hl hl'
    obtain ⟨r, hr, hof, call, hcall, hasks⟩ := hσ.row hserving hl
    obtain ⟨r', hr', hof', call', hcall', hasks'⟩ := hσ.row hserving' hl'
    have heq : r = r' := σ.outbox.outbox.eq_of_key_eq hr hr'
      (hof.id.symm.trans (hid.trans hof'.id))
    subst heq
    obtain ⟨rfl, rfl⟩ := Prod.mk.inj (Option.some.inj hcall)
    obtain ⟨rfl, rfl⟩ := Prod.mk.inj (Option.some.inj hcall')
    exact (answers_agree hunique (hσ.server.ok k _ hl) (hσ.server.ok k' _ hl')
      (hasks.idempotencyKey.trans hasks'.idempotencyKey.symm)).1

/-- Two relays in front of the small deployment's project. -/
def smallChannel : Channel where
  relays := fun _ => defaultRelay
  projectId := 1
  owned := fun key => decide (key = "outbox-1")

def paidOrder : EnqueueCall where
  id := "row-1"
  eventType := "order.paid"
  payload := .obj []
  idempotencyKey := some "outbox-1"
  drawnKey := "drawn-1"

/-- The request for it. -/
def paidCall (eventPublicId : Uuid) : IngestCall where
  idempotencyKey := "outbox-1"
  eventType := "order.paid"
  payload := .obj []
  eventPublicId := eventPublicId
  deliveryPublicId := fun _ => "delivery-2"

/-- The first relay's answer is lost after the commit; the second relay sends
the row once more and gets the event that is there. -/
def lostAnswer : List PipelineMove :=
  [.outbox (.enqueue 0 paidOrder), .outbox (.claim 0 0 [] fun _ => "lease-1"), .outbox (.send 0),
    .arrive 0 0 (paidCall "event-2")]
    ++ List.replicate 10 (.server (.exec 0))
    ++ [.outbox (.settle 0 1 (.platformError "TransportError") Jitter.zero),
      .outbox (.claim 1 2 [] fun _ => "lease-2"), .outbox (.send 1),
      .arrive 1 1 (paidCall "event-3"), .server (.exec 1), .server (.exec 1),
      .answer 1 1 3 Jitter.zero]

theorem exactly_one_event_small :
    ∃ σ : Pipeline {}, run (Pipeline.step smallPrimitives smallChannel)
        (Pipeline.start smallShared) lostAnswer = some σ
      ∧ σ.outbox.outbox.rows.map OutboxRow.sentAt = [some 3]
      ∧ (σ.server.db.db.events.rows.filter fun e =>
          decide (e.idempotencyKey = "outbox-1")).map Event.publicId = ["event-2"]
      ∧ ExactlyOnce smallPrimitives smallChannel σ := by
  have hrun : (run (Pipeline.step smallPrimitives smallChannel)
      (Pipeline.start smallShared : Pipeline {}) lostAnswer).map (fun σ =>
        (σ.outbox.outbox.rows.map OutboxRow.sentAt,
          (σ.server.db.db.events.rows.filter fun e =>
            decide (e.idempotencyKey = "outbox-1")).map Event.publicId))
      = some ([some 3], ["event-2"]) := by decide +kernel
  obtain ⟨σ, hσ, hfacts⟩ := map_eq_some_iff.mp hrun
  obtain ⟨hsent, hevents⟩ := Prod.mk.inj hfacts
  refine ⟨σ, hσ, hsent, hevents, exactly_one_event smallPrimitives {} smallChannel smallShared
    ?_ ?_ lostAnswer σ hσ⟩
  · intro e he e' he' _ _
    exact (mem_singleton.mp he).trans (mem_singleton.mp he').symm
  · intro e he
    rw [mem_singleton.mp he]
    rfl

end WebhookPlatform
