/-
  WebhookPlatform.Platform
  **THE DELIVERY PLATFORM AS A STATE MACHINE OF ATOMIC TRANSACTIONS.**

  A `World` is the committed database on one nondecreasing clock, together
  with what has left it: the lease tokens drawn, the claims handed to
  workers, the claims sent over HTTP.  `World.step` performs any operation of
  workers, API clients and operators; a worker that crashes simply never
  performs another one, and an operation that raises leaves the database as
  it was.

  `step_change` says once what a step can do to the deliveries:

      kept     — nothing (state rows, attempts, a refusal, time)
      claimed  — a fair choice of due rows gets fresh tokens
      updated  — one row is renewed, released, finalized or canceled
      created  — new pending rows are inserted

  and every invariant of deliveries is proved from these four cases.
-/
import WebhookPlatform.SchedulingInvariants
import WebhookPlatform.WebhookService
import WebhookPlatform.Lib.Runs

namespace WebhookPlatform

open Relational Transition Exceptions List

/-! ## §1. Worlds and operations. -/

/-- The committed database, the time, and what has left the database. -/
structure World where
  db : Db
  clock : Time
  /-- Every lease token drawn so far. -/
  drawn : List Uuid := []
  /-- Every claim handed to a worker, in order. -/
  issued : List ClaimedDelivery := []
  /-- Every claim whose request has gone out over HTTP, in order. -/
  sent : List ClaimedDelivery := []

/-- The operations. -/
inductive Op where
  | claim (limit : Nat) (tokens : List Uuid)
  | send (c : ClaimedDelivery)
  | renew (c : ClaimedDelivery)
  | release (c : ClaimedDelivery)
  | finalize (c : ClaimedDelivery) (f : Finalization)
  | ingest (projectId : Nat) (call : IngestCall)
  | replay (projectId : Nat) (deliveryId : Uuid) (draws : ReplayDraws)
  | replayMany (projectId : Nat) (deliveryIds : List Uuid) (idempotencyKey : String)
      (draws : ReplayDraws)
  | cancel (projectId : Nat) (deliveryId : Uuid) (reason : Option String)
  | operate (projectId : Nat) (endpointPublicId : Uuid) (operation : EndpointOperation)
  | tick (now : Time)

namespace World

/-- Commit the transaction's result; an exception rolls it back. -/
def commit (w : World) : Except AppError Db → World
  | .ok db => { w with db := db }
  | .error _ => w

/-- The transaction on behalf of an authorized project. -/
def onProject (w : World) (projectId : Nat) (f : Project → Except AppError Db) : Option World :=
  (w.db.projects.find? projectId).map fun project => w.commit (f project)

/-- `claim_due` by some worker, with UUIDs that nobody has drawn before. -/
def claim (s : Settings) (w : World) (limit : Nat) (tokens : List Uuid) : World :=
  match claimDue s w.clock limit tokens w.db with
  | .ok r =>
    { w with db := r.1, issued := w.issued ++ r.2, drawn := w.drawn ++ tokens }
  | .error _ => { w with drawn := w.drawn ++ tokens }

/-- One operation; `none` when it is not possible in this world. -/
def step (P : Primitives) (s : Settings) (w : World) : Op → Option World
  | .claim limit tokens =>
    if tokens.length = limit ∧ tokens.Nodup ∧ ∀ t ∈ tokens, t ∉ w.drawn then
      some (w.claim s limit tokens)
    else none
  | .send c => if c ∈ w.issued ∧ c ∉ w.sent then some { w with sent := w.sent ++ [c] } else none
  | .renew c =>
    if c ∈ w.issued then some { w with db := (renewLease s w.clock c w.db).1 } else none
  | .release c =>
    if c ∈ w.issued then some { w with db := (releaseClaim w.clock c w.db).1 } else none
  | .finalize c f =>
    if c ∈ w.issued then some (w.commit ((finalize s w.clock c f w.db).map Prod.fst)) else none
  | .ingest projectId call =>
    w.onProject projectId fun p => (ingestEvent P s w.clock p call w.db).map Prod.fst
  | .replay projectId deliveryId draws =>
    w.onProject projectId fun p => replayDelivery s w.clock p deliveryId draws w.db
  | .replayMany projectId deliveryIds key draws =>
    w.onProject projectId fun p => replayDeliveries s w.clock p deliveryIds key draws w.db
  | .cancel projectId deliveryId reason =>
    w.onProject projectId fun p => cancelDelivery w.clock p deliveryId reason w.db
  | .operate projectId endpointPublicId operation =>
    w.onProject projectId fun p => operateEndpoint s w.clock p endpointPublicId operation w.db
  | .tick now => if w.clock ≤ now then some { w with clock := now } else none

end World

/-! ## §2. What a step can do to the deliveries. -/

/-- The update of one row that an operation makes, with its guard. -/
inductive RowUpdate (s : Settings) (w : World) : Op → Delivery → Delivery → Prop where
  | renewed (c : ClaimedDelivery) (d : Delivery) (issued : c ∈ w.issued) (id : d.id = c.id)
      (holds : c.holds w.clock d = true) : RowUpdate s w (.renew c) d (renewRow s w.clock d)
  | released (c : ClaimedDelivery) (d : Delivery) (issued : c ∈ w.issued) (id : d.id = c.id)
      (owns : c.owns d = true) : RowUpdate s w (.release c) d (releaseRow w.clock d)
  | finalized (c : ClaimedDelivery) (f : Finalization) (d : Delivery) (issued : c ∈ w.issued)
      (id : d.id = c.id) (holds : c.holds w.clock d = true) :
      RowUpdate s w (.finalize c f) d (finalizeRow s w.clock c f d)
  | canceled (projectId : Nat) (deliveryId : Uuid) (reason : Option String) (d : Delivery)
      (queued : d.status.queued = true) :
      RowUpdate s w (.cancel projectId deliveryId reason) d (cancelRow w.clock reason d)

/-- A new row: one of an event's fan-out, or a copy of an existing row. -/
inductive Created (w : World) : Delivery → Prop where
  | ingested (project : Project) (endpoint : WebhookEndpoint) (eventId : Nat) (publicId : Uuid)
      (id : Nat) (hproject : project ∈ w.db.projects.rows)
      (hendpoint : endpoint ∈ w.db.endpoints.rows) (owner : endpoint.projectId = project.id) :
      Created w (newDelivery project.organizationId eventId publicId endpoint w.clock id)
  | replayed (original : Delivery) (publicId : Uuid) (id : Nat)
      (source : original ∈ w.db.deliveries.rows) :
      Created w (replayCopy original publicId w.clock id)

/-- The claims that a batch of picks was turned into. -/
def BuiltFrom (db : Db) (picks : List (Delivery × Uuid)) (claims : List ClaimedDelivery) : Prop :=
  List.Forall₂ (fun x c => claimedDelivery db x.2 x.1 = .ok c) picks claims

/-- **The four things a step can do to the deliveries.** -/
inductive Change (s : Settings) (w : World) : Op → World → Prop where
  | kept (op : Op) (w' : World) (deliveries : w'.db.deliveries = w.db.deliveries)
      (clock : w.clock ≤ w'.clock) (issued : w'.issued = w.issued)
      (drawn : ∀ t ∈ w.drawn, t ∈ w'.drawn) : Change s w op w'
  | claimed (limit : Nat) (tokens : List Uuid) (w' : World) (picks : List (Delivery × Uuid))
      (claims : List ClaimedDelivery)
      (deliveries : w'.db.deliveries = w.db.deliveries.putAll (claimedRows s w.clock picks))
      (clock : w'.clock = w.clock) (issued : w'.issued = w.issued ++ claims)
      (drawn : ∀ t ∈ w.drawn, t ∈ w'.drawn)
      (choice : FairChoice s w.clock w.db limit (picks.map Prod.fst))
      (fresh : ∀ x ∈ picks, x.2 ∉ w.drawn ∧ x.2 ∈ w'.drawn)
      (built : BuiltFrom w.db picks claims) :
      Change s w (.claim limit tokens) w'
  | updated (op : Op) (w' : World) (old new : Delivery)
      (deliveries : w'.db.deliveries = w.db.deliveries.put new)
      (clock : w'.clock = w.clock) (issued : w'.issued = w.issued) (drawn : w'.drawn = w.drawn)
      (mem : old ∈ w.db.deliveries.rows) (update : RowUpdate s w op old new) : Change s w op w'
  | created (op : Op) (w' : World) (rows : List (Nat → Delivery))
      (deliveries : w'.db.deliveries = w.db.deliveries.appendAll rows)
      (clock : w'.clock = w.clock) (issued : w'.issued = w.issued) (drawn : w'.drawn = w.drawn)
      (build : ∀ f ∈ rows, ∀ n, (f n).id = n ∧ Created w (f n)) : Change s w op w'

variable {db : Db}

theorem guardedRow_some {id : Nat} {guard : Delivery → Bool} (h : guardedRow db id guard = some d) :
    d ∈ db.deliveries.rows ∧ d.id = id ∧ guard d = true := by
  unfold guardedRow at h
  obtain ⟨hf, hg⟩ := Option.filter_eq_some_iff.mp h
  exact ⟨Table.mem_of_find? hf, Table.key_of_find? hf, hg⟩

theorem claimAll_built (picks : List (Delivery × Uuid)) :
    ∀ {claims : List ClaimedDelivery}, claimAll db picks = .ok claims →
      BuiltFrom db picks claims := by
  induction picks with
  | nil =>
    intro claims h
    cases h
    exact List.Forall₂.nil
  | cons x rest ih =>
    intro claims h
    unfold claimAll at h
    cases hc : claimedDelivery db x.2 x.1 with
    | error => simp [hc, bind, Except.bind] at h
    | ok =>
      cases hr : claimAll db rest with
      | error => simp [hc, hr, bind, Except.bind] at h
      | ok =>
        simp only [hc, hr, bind, Except.bind, Except.ok.injEq] at h
        subst h
        exact List.Forall₂.cons hc (ih hr)

/-- The rows after a batch of claims. -/
theorem mem_claimed {now : Time} (h : d ∈ (db.deliveries.putAll (claimedRows s now picks)).rows) :
    (∃ x ∈ picks, d = claimRow s now x.2 x.1)
      ∨ (d ∈ db.deliveries.rows ∧ ∀ x ∈ picks, x.1.id ≠ d.id) := by
  rw [Serial.putAll_toTable] at h
  rcases Table.mem_putAll h with h | ⟨hd, hne⟩
  · obtain ⟨x, hx, rfl⟩ := mem_map.mp h
    exact Or.inl ⟨x, hx, rfl⟩
  · refine Or.inr ⟨hd, fun x hx => ?_⟩
    exact hne (claimRow s now x.2 x.1) (mem_map.mpr ⟨x, hx, rfl⟩)

/-- Pairing uses up an initial part of the tokens. -/
theorem snd_zip_sublist {α β : Type} (as : List α) (bs : List β) :
    ((as.zip bs).map Prod.snd).Sublist bs := by
  induction as generalizing bs with
  | nil => exact nil_sublist _
  | cons _ _ ih =>
    cases bs with
    | nil => exact nil_sublist _
    | cons b bs => exact (ih bs).cons_cons b

theorem fst_zip_sublist {α β : Type} (as : List α) (bs : List β) :
    ((as.zip bs).map Prod.fst).Sublist as := by
  have hswap := snd_zip_sublist bs as
  rw [← zip_swap, map_map] at hswap
  exact hswap

namespace World

variable {w w' : World}

theorem claim_change {limit : Nat} {tokens : List Uuid} (hlen : tokens.length = limit)
    (hfresh : ∀ t ∈ tokens, t ∉ w.drawn) :
    Change s w (.claim limit tokens) (w.claim s limit tokens) := by
  have hkept : Change s w (.claim limit tokens) { w with drawn := w.drawn ++ tokens } :=
    Change.kept _ _ rfl (le_refl _) rfl fun t ht => mem_append_left _ ht
  unfold World.claim claimDue
  by_cases hzero : limit = 0
  · rw [if_pos hzero]
    exact Change.kept _ _ rfl (le_refl _) (append_nil _) fun t ht => mem_append_left _ ht
  · rw [if_neg hzero]
    have hchoice := selectFairDeliveries_choice s w.clock limit w.db
    obtain ⟨g, ts, es, hframe⟩ := selectFairDeliveries_frame s w.clock limit w.db
    have hfst : ((selectFairDeliveries s w.clock limit w.db).2.zip tokens).map Prod.fst
        = (selectFairDeliveries s w.clock limit w.db).2 :=
      map_fst_zip (by rw [hlen]; exact hchoice.requested)
    have hsnd : (((selectFairDeliveries s w.clock limit w.db).2.zip tokens).map Prod.snd).Sublist
        tokens := snd_zip_sublist _ _
    dsimp only
    cases hall : claimAll w.db ((selectFairDeliveries s w.clock limit w.db).2.zip tokens) with
    | error => exact hkept
    | ok claims =>
      refine Change.claimed limit tokens _
        ((selectFairDeliveries s w.clock limit w.db).2.zip tokens) claims ?_ rfl rfl
        (fun t ht => mem_append_left _ ht) ?_ ?_
        (claimAll_built _ hall)
      · show (selectFairDeliveries s w.clock limit w.db).1.deliveries.putAll _ = _
        rw [hframe]
      · rw [hfst]
        exact hchoice
      · intro x hx
        have hmem : x.2 ∈ tokens := hsnd.subset (mem_map_of_mem hx)
        exact ⟨hfresh _ hmem, mem_append_right _ hmem⟩

theorem renew_change (hc : c ∈ w.issued) :
    Change s w (.renew c) { w with db := (renewLease s w.clock c w.db).1 } := by
  unfold renewLease
  split
  · exact Change.kept _ _ rfl (le_refl _) rfl fun _ ht => ht
  next d hd =>
    obtain ⟨hmem, hid, hguard⟩ := guardedRow_some hd
    exact Change.updated _ _ d _ rfl rfl rfl rfl hmem (RowUpdate.renewed c d hc hid hguard)

theorem release_change (hc : c ∈ w.issued) :
    Change s w (.release c) { w with db := (releaseClaim w.clock c w.db).1 } := by
  unfold releaseClaim
  split
  · exact Change.kept _ _ rfl (le_refl _) rfl fun _ ht => ht
  next d hd =>
    obtain ⟨hmem, hid, hguard⟩ := guardedRow_some hd
    exact Change.updated _ _ d _ rfl rfl rfl rfl hmem (RowUpdate.released c d hc hid hguard)

theorem commit_change {r : Except AppError Db}
    (h : ∀ db, r = .ok db → Change s w op { w with db := db }) : Change s w op (w.commit r) := by
  cases r with
  | error => exact Change.kept _ _ rfl (le_refl _) rfl fun _ ht => ht
  | ok db => exact h db rfl

theorem finalize_change {f : Finalization} (hc : c ∈ w.issued) :
    Change s w (.finalize c f) (w.commit ((finalize s w.clock c f w.db).map Prod.fst)) := by
  apply commit_change
  intro db hdb
  obtain ⟨r, hr, rfl⟩ := of_map_ok hdb
  obtain rfl | ⟨d, e, hd, -, rfl⟩ := finalize_ok hr
  · exact Change.kept _ _ rfl (le_refl _) rfl fun _ ht => ht
  · obtain ⟨hmem, hid, hguard⟩ := guardedRow_some hd
    exact Change.updated _ _ d _ rfl rfl rfl rfl hmem (RowUpdate.finalized c f d hc hid hguard)

theorem ingest_change (hp : project ∈ w.db.projects.rows) {call : IngestCall} :
    Change s w op (w.commit ((ingestEvent P s w.clock project call w.db).map Prod.fst)) := by
  apply commit_change
  intro db hdb
  obtain ⟨r, hr, rfl⟩ := of_map_ok hdb
  obtain ⟨c, -, ⟨hsame, -⟩ | ⟨bytes, tenant, -, -, -, hdb, -⟩⟩ := ingestEvent_ok hr
  · rw [hsame]
    exact Change.kept _ _ rfl (le_refl _) rfl fun _ ht => ht
  · rw [hdb]
    refine Change.created _ _ _ rfl rfl rfl rfl ?_
    intro f hf n
    obtain ⟨x, hx, rfl⟩ := mem_map.mp hf
    refine ⟨rfl, Created.ingested project x.1 _ _ n hp ?_ ?_⟩
    · exact (mem_filter.mp (fst_mem_of_mem_zipIdx hx)).1
    · have hfilter := (mem_filter.mp (fst_mem_of_mem_zipIdx hx)).2
      simp only [Bool.and_eq_true, decide_eq_true_eq] at hfilter
      exact hfilter.1.1

theorem replayMany_change {ids : List Uuid} {key : String} {draws : ReplayDraws} :
    Change s w op (w.commit (replayDeliveries s w.clock project ids key draws w.db)) := by
  apply commit_change
  intro db hdb
  obtain rfl | ⟨tenant, -, -, rfl⟩ := replayDeliveries_ok hdb
  · exact Change.kept _ _ rfl (le_refl _) rfl fun _ ht => ht
  · refine Change.created _ _ _ rfl rfl rfl rfl ?_
    intro f hf n
    obtain ⟨original, hmem, publicId, rfl⟩ := mem_replayCopies hf
    exact ⟨rfl, Created.replayed original publicId n (mem_filter.mp hmem).1⟩

theorem cancel_change {projectId : Nat} {deliveryId : Uuid} {reason : Option String} :
    Change s w (.cancel projectId deliveryId reason)
      (w.commit (cancelDelivery w.clock project deliveryId reason w.db)) := by
  apply commit_change
  intro db hdb
  obtain rfl | ⟨d, hmem, hqueued, rfl⟩ := cancelDelivery_ok hdb
  · exact Change.kept _ _ rfl (le_refl _) rfl fun _ ht => ht
  · exact Change.updated _ _ d _ rfl rfl rfl rfl hmem (RowUpdate.canceled _ _ reason d hqueued)

theorem operate_change {endpointPublicId : Uuid} {operation : EndpointOperation} : Change s w op
      (w.commit (operateEndpoint s w.clock project endpointPublicId operation w.db)) := by
  apply commit_change
  intro db hdb
  obtain ⟨e, -, rfl⟩ := operateEndpoint_ok hdb
  exact Change.kept _ _ rfl (le_refl _) rfl fun _ ht => ht

/-- A step on behalf of a project finds the project's row. -/
theorem onProject_some {projectId : Nat} {f : Project → Except AppError Db}
    (h : w.onProject projectId f = some w') :
    ∃ project ∈ w.db.projects.rows, w' = w.commit (f project) := by
  obtain ⟨project, hfind, rfl⟩ := Option.map_eq_some_iff.mp h
  exact ⟨project, Table.mem_of_find? hfind, rfl⟩

/-- A guarded step was allowed. -/
theorem of_guard {α : Type} {c : Prop} [Decidable c] {x y : α}
    (h : (if c then some x else none) = some y) : c ∧ x = y := by
  obtain ⟨hc, hxy⟩ := Option.ite_none_right_eq_some.mp h
  exact ⟨hc, Option.some.inj hxy⟩

/-- **What a step can do to the deliveries.** -/
theorem step_change (h : w.step P s op = some w') : Change s w op w' := by
  cases op with
  | claim =>
    obtain ⟨⟨hlen, -, hfresh⟩, rfl⟩ := of_guard h
    exact claim_change hlen hfresh
  | send =>
    obtain ⟨-, rfl⟩ := of_guard h
    exact Change.kept _ _ rfl (le_refl _) rfl fun _ ht => ht
  | renew =>
    obtain ⟨hc, rfl⟩ := of_guard h
    exact renew_change hc
  | release =>
    obtain ⟨hc, rfl⟩ := of_guard h
    exact release_change hc
  | finalize =>
    obtain ⟨hc, rfl⟩ := of_guard h
    exact finalize_change hc
  | ingest =>
    obtain ⟨project, hp, rfl⟩ := onProject_some h
    exact ingest_change hp
  | replay =>
    obtain ⟨project, -, rfl⟩ := onProject_some h
    apply commit_change
    intro db hdb
    obtain ⟨original, tenant, hfind, -, -, rfl⟩ := replayDelivery_ok hdb
    refine Change.created _ _ _ rfl rfl rfl rfl ?_
    intro f hf n
    rw [mem_singleton.mp hf]
    exact ⟨rfl, Created.replayed original _ n (mem_of_find?_eq_some hfind)⟩
  | replayMany =>
    obtain ⟨project, -, rfl⟩ := onProject_some h
    exact replayMany_change
  | cancel =>
    obtain ⟨project, -, rfl⟩ := onProject_some h
    exact cancel_change
  | operate =>
    obtain ⟨project, -, rfl⟩ := onProject_some h
    exact operate_change
  | tick =>
    obtain ⟨hle, rfl⟩ := of_guard h
    exact Change.kept _ _ rfl hle rfl fun _ ht => ht

end World

/-! ## §3. A small deployment. -/

/-- One project of organization 1. -/
def smallProject : Project :=
  { id := 1, publicId := "project-1", organizationId := 1, createdAt := 0 }

/-- Its only endpoint, without a filter. -/
def smallEndpoint : WebhookEndpoint :=
  { id := 1, publicId := "endpoint-1", projectId := 1, url := "https://receiver.example/hook"
    createdAt := 0, updatedAt := 0 }

/-- One accepted event. -/
def smallEvent : Event :=
  { id := 1, publicId := "event-1", projectId := 1, idempotencyKey := "key-1"
    eventType := "order.created", payload := some (.obj []), payloadHash := []
    canonicalEnvelope := some [123, 125], createdAt := 0 }

/-- Its delivery, queued at time zero. -/
def smallDelivery : Delivery := newDelivery 1 1 "delivery-1" smallEndpoint 0 1

/-- A database with one project, one endpoint, one event and one queued
delivery. -/
def smallDb : Db where
  projects := ⟨[smallProject], by decide⟩
  endpoints := ⟨[smallEndpoint], by decide⟩
  secretVersions := [⟨1, 1, 0, none⟩]
  events := { rows := [smallEvent], nodup := by decide, next := 2, lt_next := by decide }
  deliveries := { rows := [smallDelivery], nodup := by decide, next := 2, lt_next := by decide }

/-- The claim of `smallDelivery` under `token`, as its attempt `n`. -/
def smallClaim (token : Uuid) (n : Nat) : ClaimedDelivery where
  id := 1
  publicId := "delivery-1"
  organizationId := 1
  endpointId := 1
  leaseToken := token
  attemptNumber := n
  endpointPublicId := "endpoint-1"
  endpointUrl := "https://receiver.example/hook"
  endpointSecretVersion := 1
  endpointActive := true
  eventPublicId := "event-1"
  eventType := "order.created"
  canonicalEnvelope := [123, 125]
  signatureScheme := .legacy
  envelopeMode := .native
  traceparent := none
  tracestate := none
  createdAt := 0

/-- Primitives whose results no step of the small deployment looks at. -/
def smallPrimitives : Primitives := ⟨id, fun _ => ""⟩

/-- The small deployment at time zero, before anything was claimed. -/
def smallWorld : World := { db := smallDb, clock := 0 }

/-- One retryable failure opens the circuit. -/
def oneFailure : Settings :=
  { Settings.defaults with
    endpointCircuitFailureThreshold := 1
    endpointCircuitFailureThreshold_pos := le_refl 1 }

/-- A receiver that is down, and no jitter. -/
def unavailable : Finalization :=
  ⟨0, ⟨false, true, some 503, some "http_503", none, none⟩, Jitter.zero⟩

/-- A run of the small deployment. -/
abbrev smallRun (s : Settings) (ops : List Op) : Option World :=
  run (World.step smallPrimitives s) smallWorld ops

end WebhookPlatform
