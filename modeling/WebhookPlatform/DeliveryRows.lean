/-
  WebhookPlatform.DeliveryRows
  **THE COLUMNS OF A DELIVERY AGREE WITH ITS STATUS.**

  Nothing in the schema ties `lease_token`, `lease_expires_at`,
  `succeeded_at`, `dead_at`, `dead_reason` and `canceled_at` to `status`.
  In every reachable state they agree all the same
  (`delivery_rows_sound`), and so no accepted delivery is silently stuck:
  one that is not finished is due from some moment on.

  `Effect.row` says where each row of the deliveries comes from: an action
  WORKED on an old row (or left it alone), or the row was ingested, or it is
  the copy of another row.
-/
import WebhookPlatform.ClaimLedger
import WebhookPlatform.Deployment

namespace WebhookPlatform

open Relational Transition List

/-! ## §1. Where a row comes from. -/

/-- What an action can make of the row `x`. -/
inductive RowWork (s : Settings) (d : Deployment) (x : Delivery) : Delivery → Prop where
  | kept : RowWork s d x x
  | claimed (token : Uuid) (due : x.due d.clock = true) : RowWork s d x (claimRow s d.clock token x)
  | renewed (c : ClaimedDelivery) (holds : c.holds d.clock x = true) :
      RowWork s d x (renewRow s d.clock x)
  | released (c : ClaimedDelivery) (owns : c.owns x = true) : RowWork s d x (releaseRow d.clock x)
  | finalized (c : ClaimedDelivery) (f : Finalization) (holds : c.holds d.clock x = true) :
      RowWork s d x (finalizeRow s d.clock c f x)
  | canceled (reason : Option String) (queued : x.status.queued = true) :
      RowWork s d x (cancelRow d.clock reason x)
  | cleaned (organizationId : Nat) (cancel : cancellable d.clock organizationId x = true) :
      RowWork s d x (cleanupRow d.clock x)
  | unlinked (ids : List Nat) : RowWork s d x (unlink ids x)

/-- Where a row of the deliveries comes from after the action `a`. -/
inductive RowOrigin (s : Settings) (d : Deployment) (a : Action) (d' : Deployment) :
    Delivery → Prop where
  | worked (x x' : Delivery) (mem : x ∈ d.db.deliveries.rows) (work : RowWork s d x x') :
      RowOrigin s d a d' x'
  | ingested (project : Project) (w : WebhookEndpoint) (publicId : Uuid) (id : Nat)
      (hproject : project ∈ d.db.projects.rows) (hw : w ∈ d.db.endpoints.rows)
      (owner : w.projectId = project.id)
      (active : d.tenants.isActive project.organizationId = true)
      (event : ∃ e ∈ d'.db.events.rows, e.id = d.db.events.next ∧ e.projectId = project.id)
      (projects : d'.db.projects = d.db.projects) (endpoints : d'.db.endpoints = d.db.endpoints)
      (fresh : d.db.deliveries.next ≤ id) :
      RowOrigin s d a d'
        (newDelivery project.organizationId d.db.events.next publicId w d.clock id)
  | replayed (project : Project) (original : Delivery) (publicId : Uuid) (id : Nat)
      (hproject : project ∈ d.db.projects.rows) (mem : original ∈ d.db.deliveries.rows)
      (source : original ∈ a.sources d.db)
      (owner : ofProject d.db project.id original = true)
      (replayable : ensureReplayable d.db d.clock original = .ok ())
      (active : d.tenants.isActive project.organizationId = true)
      (fresh : d.db.deliveries.next ≤ id) :
      RowOrigin s d a d' (replayCopy original publicId d.clock id)

/-- What acceptance fixes of a delivery: no later operation changes it. -/
structure SameWork (a b : Delivery) : Prop extends SameDelivery a b where
  publicId : b.publicId = a.publicId
  endpointPublicId : b.endpointPublicIdSnapshot = a.endpointPublicIdSnapshot
  endpointUrl : b.endpointUrlSnapshot = a.endpointUrlSnapshot
  endpointActive : b.endpointActiveSnapshot = a.endpointActiveSnapshot
  secretVersion : b.signingSecretVersionSnapshot = a.signingSecretVersionSnapshot
  signatureScheme : b.signatureSchemeSnapshot = a.signatureSchemeSnapshot
  createdAt : b.createdAt = a.createdAt

variable {x x' : Delivery}

/-- **No work on a row touches what acceptance fixed.** -/
theorem RowWork.same (h : RowWork s d x x') : SameWork x x' := by
  cases h with
  | finalized c f =>
    unfold finalizeRow outcomeRow
    split
    · exact ⟨⟨rfl, rfl, rfl, rfl⟩, rfl, rfl, rfl, rfl, rfl, rfl, rfl⟩
    · split
      · split <;> exact ⟨⟨rfl, rfl, rfl, rfl⟩, rfl, rfl, rfl, rfl, rfl, rfl, rfl⟩
      · exact ⟨⟨rfl, rfl, rfl, rfl⟩, rfl, rfl, rfl, rfl, rfl, rfl, rfl⟩
  | _ => exact ⟨⟨rfl, rfl, rfl, rfl⟩, rfl, rfl, rfl, rfl, rfl, rfl, rfl⟩

/-- What a claim writes: the scheduler's rows and the claimed deliveries. -/
theorem claimedDb_frame (s : Settings) (now : Time) (limit : Nat) (tokens : List Uuid) (db : Db) :
    ∃ g ts es, claimedDb s now limit tokens db = { db with
          globalState := g, tenantStates := ts, endpointStates := es
          deliveries := db.deliveries.putAll
            (claimedRows s now (claimedPicks s now limit tokens db)) } := by
  obtain ⟨g, ts, es, hframe⟩ := selectFairDeliveries_frame s now limit db
  refine ⟨g, ts, es, ?_⟩
  unfold claimedDb
  rw [hframe]

theorem claimedDb_deliveries (s : Settings) (now : Time) (limit : Nat) (tokens : List Uuid)
    (db : Db) :
    (claimedDb s now limit tokens db).deliveries
      = db.deliveries.putAll (claimedRows s now (claimedPicks s now limit tokens db)) := by
  obtain ⟨g, ts, es, hframe⟩ := claimedDb_frame s now limit tokens db
  rw [hframe]

theorem mem_claimedPicks {x : Delivery × Uuid} (h : x ∈ claimedPicks s now limit tokens db) :
    x.1 ∈ (selectFairDeliveries s now limit db).2 ∧ x.2 ∈ tokens ∧ x.1 ∈ db.deliveries.rows
      ∧ x.1.due now = true := by
  obtain ⟨hselected, htoken⟩ := of_mem_zip h
  exact ⟨hselected, htoken, (selectFairDeliveries_choice s now limit db).rows x.1 hselected⟩

theorem mem_fanout {eventType : String} (h : w ∈ fanout db projectId eventType) :
    w ∈ db.endpoints.rows ∧ w.projectId = projectId := by
  obtain ⟨hmem, hfilter⟩ := mem_filter.mp h
  simp only [Bool.and_eq_true, decide_eq_true_eq] at hfilter
  exact ⟨hmem, hfilter.1.1⟩

theorem mem_events_append (db : Db) (h : (f db.events.next).id = db.events.next) :
    f db.events.next ∈ (db.events.append f).rows := by
  rw [Serial.rows_append h]
  exact mem_append_right _ (mem_singleton.mpr rfl)

section Origins

theorem row_kept (h : x' ∈ d.db.deliveries.rows) : RowOrigin s d a d' x' :=
  RowOrigin.worked x' x' h RowWork.kept

/-- One row was replaced. -/
theorem row_put (mem : x ∈ d.db.deliveries.rows) (work : RowWork s d x new)
    (h : x' ∈ (d.db.deliveries.put new).rows) : RowOrigin s d a d' x' := by
  rcases Table.mem_of_mem_put h with rfl | hold
  · exact RowOrigin.worked x x' mem work
  · exact row_kept hold

/-- New rows were appended. -/
theorem row_appendAll (hids : ∀ f ∈ rows, ∀ n, (f n).id = n)
    (hnew : ∀ f ∈ rows, ∀ n, d.db.deliveries.next ≤ n → RowOrigin s d a d' (f n))
    (h : x' ∈ (d.db.deliveries.appendAll rows).rows) : RowOrigin s d a d' x' := by
  rw [Serial.rows_appendAll hids] at h
  rcases mem_append.mp h with hold | hbuilt
  · exact row_kept hold
  · have hfresh := Serial.le_key_built hids hbuilt
    obtain ⟨f, hf, n, rfl⟩ := Serial.mem_built hbuilt
    rw [hids f hf n] at hfresh
    exact hnew f hf n hfresh

theorem row_deleted (h : x' ∈ (deleteDeliveries ids d.db).deliveries.rows) :
    RowOrigin s d a d' x' := by
  obtain ⟨x, hx, -, rfl⟩ := mem_deleteDeliveries.mp h
  exact RowOrigin.worked x _ hx (RowWork.unlinked ids)

theorem row_cleanup (hr : Cleanup s d.clock organizationId d.db r) (h : x' ∈ r.1.deliveries.rows) :
    RowOrigin s d a d' x' := by
  cases hr with
  | canceled =>
    replace h : x' ∈ (d.db.deliveries.putAll
      ((cancelBatch s d.clock organizationId d.db).map (cleanupRow d.clock))).rows := h
    rw [Serial.putAll_toTable] at h
    rcases Table.mem_putAll h with hnew | ⟨hold, -⟩
    · obtain ⟨x, hx, rfl⟩ := mem_map.mp hnew
      obtain ⟨hmem, hcancel⟩ := mem_cancelBatch hx
      exact RowOrigin.worked x _ hmem (RowWork.cleaned organizationId hcancel)
    · exact row_kept hold
  | waiting => exact row_kept h
  | deliveriesDeleted => exact row_deleted h
  | eventsDeleted => exact row_kept h
  | removed => exact row_kept h

/-- **Where the rows come from.** -/
theorem Effect.row (h : Effect P s d a d') (hx : x' ∈ d'.db.deliveries.rows) :
    RowOrigin s d a d' x' := by
  cases h with
  | idle => exact row_kept hx
  | ticked => exact row_kept hx
  | sent => exact row_kept hx
  | claimed limit tokens =>
    replace hx : x' ∈ (claimedDb s d.clock limit tokens d.db).deliveries.rows := hx
    rw [claimedDb_deliveries] at hx
    rcases mem_claimed hx with ⟨y, hy, rfl⟩ | ⟨hold, -⟩
    · obtain ⟨-, -, hmem, hdue⟩ := mem_claimedPicks hy
      exact RowOrigin.worked y.1 _ hmem (RowWork.claimed y.2 hdue)
    · exact row_kept hold
  | renewed c _ mem _ _ holds => exact row_put mem (RowWork.renewed c holds) hx
  | released c _ mem _ _ owns => exact row_put mem (RowWork.released c owns) hx
  | finalized c f _ _ mem _ _ holds => exact row_put mem (RowWork.finalized c f holds) hx
  | ingested project call content bytes _ mem active =>
    refine row_appendAll ?_ ?_ hx
    · intro f hf n
      obtain ⟨y, -, rfl⟩ := mem_map.mp hf
      rfl
    · intro f hf n hn
      obtain ⟨y, hy, rfl⟩ := mem_map.mp hf
      obtain ⟨hw, howner⟩ := mem_fanout (fst_mem_of_mem_zipIdx hy)
      exact RowOrigin.ingested project y.1 _ n mem hw howner active
        ⟨newEvent P project call content bytes d.clock d.db.events.next,
          mem_events_append d.db rfl, rfl, rfl⟩ rfl rfl hn
  | replayed _ project _ _ _ _ mem active source =>
    refine row_appendAll ?_ ?_ hx
    · intro f hf n
      obtain ⟨original, -, -, -, -, publicId, rfl⟩ := source f hf
      rfl
    · intro f hf n hn
      obtain ⟨original, hsource, horiginal, howner, hensure, publicId, rfl⟩ := source f hf
      exact RowOrigin.replayed project original publicId n mem horiginal hsource howner
        hensure active hn
  | canceled _ _ reason _ mem queued => exact row_put mem (RowWork.canceled reason queued) hx
  | operated => exact row_kept hx
  | created => exact row_kept hx
  | edited => exact row_kept hx
  | rotated => exact row_kept hx
  | projectDeactivated => exact row_kept hx
  | retired => exact row_deleted hx
  | payloadsPurged => exact row_kept hx
  | deletionRequested => exact row_kept hx
  | deletionCanceled => exact row_kept hx
  | cleaned _ _ _ cleanup => exact row_cleanup cleanup hx

/-- **What an action hands out**: claims of deliveries that it selected. -/
theorem Effect.issued (h : Effect P s d a d') :
    ∃ new, d'.issued = d.issued ++ new ∧ ∀ c ∈ new, ∃ limit tokens,
      a = .op (.claim limit tokens) ∧ d'.db = claimedDb s d.clock limit tokens d.db
        ∧ ∃ x ∈ claimedPicks s d.clock limit tokens d.db, claimedDelivery d.db x.2 x.1 = .ok c := by
  cases h with
  | claimed limit tokens claims _ _ _ built =>
    refine ⟨claims, rfl, fun c hc => ⟨limit, tokens, rfl, rfl, ?_⟩⟩
    exact built.exists_pick hc
  | _ => exact ⟨[], (append_nil _).symm, fun c hc => absurd hc not_mem_nil⟩

/-- A row with an old id is an old row, worked on. -/
theorem RowOrigin.old (h : RowOrigin s d a d' x') (hid : x'.id < d.db.deliveries.next) :
    ∃ x ∈ d.db.deliveries.rows, RowWork s d x x' := by
  cases h with
  | worked x _ mem work => exact ⟨x, mem, work⟩
  | ingested _ _ _ _ _ _ _ _ _ _ _ fresh => exact absurd hid (not_lt.mpr fresh)
  | replayed _ _ _ _ _ _ _ _ _ _ fresh => exact absurd hid (not_lt.mpr fresh)

/-- Work on a finished row leaves it finished. -/
theorem RowWork.terminal (h : RowWork s d x x') (hx : x.status.terminal = true) :
    x'.status.terminal = true := by
  have hprocessing : ∀ c : ClaimedDelivery, c.owns x = true → False := by
    intro c hc
    rw [(ClaimedDelivery.owns_iff.mp hc).1] at hx
    exact absurd hx (by decide)
  cases h with
  | kept => exact hx
  | claimed _ due =>
    rw [Delivery.nonterminal_of_due due] at hx
    exact absurd hx (by decide)
  | renewed c holds => exact (hprocessing c (ClaimedDelivery.owns_of_holds holds)).elim
  | released c owns => exact (hprocessing c owns).elim
  | finalized c _ holds => exact (hprocessing c (ClaimedDelivery.owns_of_holds holds)).elim
  | canceled => rfl
  | cleaned => rfl
  | unlinked => exact hx

end Origins

/-! ## §2. Sound rows. -/

/-- The columns of a delivery agree with its status. -/
structure Delivery.Sound (x : Delivery) : Prop where
  leased : x.status = .processing → x.leaseToken.isSome = true ∧ x.leaseExpiresAt.isSome = true
  unleased : x.status ≠ .processing → x.leaseToken = none ∧ x.leaseExpiresAt = none
  succeeded : x.succeededAt.isSome = true ↔ x.status = .succeeded
  dead : x.status = .dead → x.deadAt.isSome = true ∧ ∃ reason, x.deadReason = some reason
    ∧ reason ≠ ""
  alive : x.status ≠ .dead → x.deadAt = none ∧ x.deadReason = none
  canceled : x.canceledAt.isSome = true ↔ x.status = .canceled

/-- What is set on no row that can still be worked on. -/
structure Delivery.Open (x : Delivery) : Prop where
  succeededAt : x.succeededAt = none
  deadAt : x.deadAt = none
  deadReason : x.deadReason = none
  canceledAt : x.canceledAt = none

theorem Delivery.Sound.isOpen (h : x.Sound) (hx : x.status.terminal = false) :
    x.Open := by
  have hsucceeded : ¬ x.succeededAt.isSome = true := by
    rw [h.succeeded]
    intro hstatus
    rw [hstatus] at hx
    exact absurd hx (by decide)
  have hcanceled : ¬ x.canceledAt.isSome = true := by
    rw [h.canceled]
    intro hstatus
    rw [hstatus] at hx
    exact absurd hx (by decide)
  have halive : x.status ≠ .dead := by
    intro hstatus
    rw [hstatus] at hx
    exact absurd hx (by decide)
  exact ⟨by simpa using hsucceeded, (h.alive halive).1, (h.alive halive).2,
    by simpa using hcanceled⟩

/-- A row that can be worked on is sound once its lease is. -/
theorem Delivery.Open.sound (h : x.Open) (hx : x.status.terminal = false)
    (leased : x.status = .processing → x.leaseToken.isSome = true ∧ x.leaseExpiresAt.isSome = true)
    (unleased : x.status ≠ .processing → x.leaseToken = none ∧ x.leaseExpiresAt = none) :
    x.Sound := by
  refine ⟨leased, unleased, ?_, ?_, fun _ => ⟨h.deadAt, h.deadReason⟩, ?_⟩
  · rw [h.succeededAt]
    constructor
    · intro hsome
      exact absurd hsome (by decide)
    · intro hstatus
      rw [hstatus] at hx
      exact absurd hx (by decide)
  · intro hstatus
    rw [hstatus] at hx
    exact absurd hx (by decide)
  · rw [h.canceledAt]
    constructor
    · intro hsome
      exact absurd hsome (by decide)
    · intro hstatus
      rw [hstatus] at hx
      exact absurd hx (by decide)

theorem claimRow_sound (hx : x.Sound) (hdue : x.due now = true) :
    (claimRow s now token x).Sound := by
  have hopen := hx.isOpen (Delivery.nonterminal_of_due hdue)
  have hnew : (claimRow s now token x).Open :=
    ⟨hopen.succeededAt, hopen.deadAt, hopen.deadReason, hopen.canceledAt⟩
  exact hnew.sound rfl (fun _ => ⟨rfl, rfl⟩) fun h => absurd rfl h

theorem releaseRow_sound (hx : x.Sound)
    (hprocessing : x.status = .processing) : (releaseRow now x).Sound := by
  have hopen := hx.isOpen (by rw [hprocessing]; rfl)
  have hnew : (releaseRow now x).Open :=
    ⟨hopen.succeededAt, hopen.deadAt, hopen.deadReason, hopen.canceledAt⟩
  exact hnew.sound rfl (fun h => absurd h (by simp [releaseRow])) fun _ => ⟨rfl, rfl⟩

/-- A nonempty text stays nonempty when it is cut to the column. -/
theorem cut_ne_empty (h : text ≠ "") : String.ofList (text.toList.take 64) ≠ "" := by
  intro hcut
  have hnil : text.toList.take 64 = [] := by
    have hlist := congrArg String.toList hcut
    simpa using hlist
  rcases take_eq_nil_iff.mp hnil with hzero | hempty
  · exact absurd hzero (by decide)
  · exact h (by rw [← String.toList_eq_nil_iff]; exact hempty)

/-- **A dead delivery always has a reason.** -/
theorem deadReason_ne_empty (s : Settings) (finished : Time) (c : ClaimedDelivery)
    (r : AttemptResult) (x : Delivery) : deadReason s finished c r x ≠ "" := by
  unfold deadReason
  apply cut_ne_empty
  split
  · decide
  · split
    · decide
    · split
      · decide
      · split
        · decide
        · decide
        next e hempty _ => exact fun h => hempty h

theorem finalizeRow_sound {finished : Time} (hx : x.Sound) (hprocessing : x.status = .processing) :
    (finalizeRow s finished c f x).Sound := by
  have hopen := hx.isOpen (by rw [hprocessing]; rfl)
  unfold finalizeRow outcomeRow
  split
  · exact ⟨fun h => absurd h (by simp), fun _ => ⟨rfl, rfl⟩, by simp, fun h => absurd h (by simp),
      fun _ => ⟨rfl, rfl⟩, by simp [hopen.canceledAt]⟩
  · split
    · split
      · exact ⟨fun h => absurd h (by simp), fun _ => ⟨rfl, rfl⟩, by simp [hopen.succeededAt],
          fun h => absurd h (by simp), fun _ => ⟨rfl, rfl⟩, by simp [hopen.canceledAt]⟩
      · exact ⟨fun h => absurd h (by simp), fun _ => ⟨rfl, rfl⟩, by simp [hopen.succeededAt],
          fun _ => ⟨rfl, _, rfl, by decide⟩, fun h => absurd rfl h, by simp [hopen.canceledAt]⟩
    · exact ⟨fun h => absurd h (by simp), fun _ => ⟨rfl, rfl⟩, by simp [hopen.succeededAt],
        fun _ => ⟨rfl, _, rfl, deadReason_ne_empty s finished c f.result x⟩, fun h => absurd rfl h,
        by simp [hopen.canceledAt]⟩

theorem cancelRow_sound (hx : x.Sound) (hqueued : x.status.queued = true) :
    (cancelRow now reason x).Sound := by
  have hopen := hx.isOpen (DeliveryStatus.nonterminal_of_queued hqueued)
  have hidle : x.status ≠ .processing := by
    intro h
    rw [h] at hqueued
    exact absurd hqueued (by decide)
  exact ⟨fun h => absurd h (by simp [cancelRow]), fun _ => hx.unleased hidle,
    by simp [cancelRow, hopen.succeededAt], fun h => absurd h (by simp [cancelRow]),
    fun _ => ⟨hopen.deadAt, hopen.deadReason⟩, by simp [cancelRow]⟩

theorem nonterminal_of_cancellable (h : cancellable now organizationId x = true) :
    x.status.terminal = false := by
  unfold cancellable at h
  simp only [Bool.and_eq_true, Bool.or_eq_true, decide_eq_true_eq] at h
  rcases h.2 with hqueued | ⟨hprocessing, -⟩
  · exact DeliveryStatus.nonterminal_of_queued hqueued
  · rw [hprocessing]
    rfl

theorem cleanupRow_sound (hx : x.Sound) (hcancel : cancellable now organizationId x = true) :
    (cleanupRow now x).Sound := by
  have hopen := hx.isOpen (nonterminal_of_cancellable hcancel)
  exact ⟨fun h => absurd h (by simp [cleanupRow]), fun _ => ⟨rfl, rfl⟩,
    by simp [cleanupRow, hopen.succeededAt], fun h => absurd h (by simp [cleanupRow]),
    fun _ => ⟨hopen.deadAt, hopen.deadReason⟩, by simp [cleanupRow]⟩

/-- A new row waits for its first claim. -/
theorem sound_of_pending (hopen : x.Open) (hstatus : x.status = .pending)
    (htoken : x.leaseToken = none) (hlease : x.leaseExpiresAt = none) : x.Sound := by
  refine hopen.sound (by rw [hstatus]; rfl) (fun h => ?_) fun _ => ⟨htoken, hlease⟩
  rw [hstatus] at h
  exact absurd h (by decide)

/-- **Whatever happens to a row leaves it sound.** -/
theorem RowWork.sound (h : RowWork s d x x') (hx : x.Sound) : x'.Sound := by
  cases h with
  | kept => exact hx
  | claimed _ due => exact claimRow_sound hx due
  | renewed _ holds =>
    exact ⟨fun h => ⟨(hx.leased h).1, rfl⟩, fun h => absurd
      ((ClaimedDelivery.owns_iff.mp (ClaimedDelivery.owns_of_holds holds)).1) h, hx.succeeded,
      hx.dead, hx.alive, hx.canceled⟩
  | released _ owns => exact releaseRow_sound hx (ClaimedDelivery.owns_iff.mp owns).1
  | finalized _ _ holds =>
    exact finalizeRow_sound hx (ClaimedDelivery.owns_iff.mp (ClaimedDelivery.owns_of_holds holds)).1
  | canceled _ queued => exact cancelRow_sound hx queued
  | cleaned _ cancel => exact cleanupRow_sound hx cancel
  | unlinked => exact ⟨hx.leased, hx.unleased, hx.succeeded, hx.dead, hx.alive, hx.canceled⟩

theorem RowOrigin.sound (h : RowOrigin s d a d' x') (hd : ∀ x ∈ d.db.deliveries.rows, x.Sound) :
    x'.Sound := by
  cases h with
  | worked x _ mem work => exact work.sound (hd x mem)
  | ingested | replayed => exact sound_of_pending ⟨rfl, rfl, rfl, rfl⟩ rfl rfl rfl

/-! ## §3. Every run. -/

/-- **NOT STUCK**: a sound row that is not finished is due from some moment
on. -/
theorem Delivery.Sound.eventually_due (h : x.Sound)
    (hx : x.status.terminal = false) : ∃ start, ∀ t, start ≤ t → x.due t = true := by
  by_cases hprocessing : x.status = .processing
  · obtain ⟨expires, hexpires⟩ := Option.isSome_iff_exists.mp (h.leased hprocessing).2
    refine ⟨expires, fun t ht => ?_⟩
    unfold Delivery.due
    simp [hprocessing, hexpires, ht]
  · have hqueued : x.status.queued = true := by
      cases hstatus : x.status <;>
        simp [hstatus, DeliveryStatus.terminal, DeliveryStatus.queued] at hx hprocessing ⊢
    refine ⟨x.nextAttemptAt, fun t ht => ?_⟩
    unfold Delivery.due
    simp [hqueued, ht]

/-- The rows of a deployment are sound after every run. -/
theorem sound_run (hfresh : d.Fresh) (hrun : run (Deployment.stepAt P s) d xs = some d') :
    ∀ x ∈ d'.db.deliveries.rows, x.Sound := by
  refine run_inv (I := fun d : Deployment => ∀ x ∈ d.db.deliveries.rows, x.Sound) ?_ ?_ hrun
  · intro d x d' hd hstep y hy
    exact ((Deployment.stepAt_effect hstep).row hy).sound hd
  · rw [hfresh.deliveries]
    exact fun x hx => absurd hx not_mem_nil

/-- **THE DELIVERY ROW INVARIANT.**  After any run of requests, workers and
maintenance, at any moments, every delivery's columns agree with its status,
and every delivery that is not finished is due from some moment on. -/
theorem delivery_rows_sound (P : Primitives) (s : Settings) (d d' : Deployment)
    (xs : List (Time × Action)) (hfresh : d.Fresh)
    (hrun : run (Deployment.stepAt P s) d xs = some d') :
    ∀ x ∈ d'.db.deliveries.rows, x.Sound
      ∧ (x.status.terminal = false → ∃ start, ∀ t, start ≤ t → x.due t = true) := by
  intro x hx
  have hsound := sound_run hfresh hrun x hx
  exact ⟨hsound, hsound.eventually_due⟩

/-- A delivery that a worker holds. -/
theorem delivery_rows_sound_fresh :
    ∃ d', freshRun Settings.defaults
        [(0, registerEndpoint), (0, .op (.ingest 1 firstEvent)), (1, .op (.claim 1 ["token-1"]))]
          = some d'
      ∧ d'.db.deliveries.rows.map Delivery.status = [.processing]
      ∧ ∀ x ∈ d'.db.deliveries.rows, x.Sound
        ∧ (x.status.terminal = false → ∃ start, ∀ t, start ≤ t → x.due t = true) := by
  obtain ⟨d', hrun, hstatus⟩ : ∃ d', freshRun Settings.defaults
        [(0, registerEndpoint), (0, .op (.ingest 1 firstEvent)), (1, .op (.claim 1 ["token-1"]))]
          = some d'
      ∧ d'.db.deliveries.rows.map Delivery.status = [.processing] := by
    decide +kernel
  exact ⟨d', hrun, hstatus,
    delivery_rows_sound smallPrimitives Settings.defaults freshDeployment d' _
      freshDeployment_fresh hrun⟩

end WebhookPlatform
