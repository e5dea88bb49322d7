/-
  WebhookPlatform.Ownership
  **WHOSE DELIVERY, WHOSE PROBE.**

  A delivery names its tenant and its endpoint, and an endpoint's state row
  names the delivery that probes it; no foreign key says that they agree.
  They do, in every reachable state (`owned_step`):

    • a delivery's tenant is the tenant of its endpoint's project,
    • the probe of an endpoint is one of the endpoint's own deliveries.

  Rows persist under their id (`Change.persist`), and a probe is named by
  nothing but a claim (`step_frame`).
-/
import WebhookPlatform.LeaseCaps

namespace WebhookPlatform

open Relational Transition Exceptions

/-! ## §1. Rows persist. -/

variable {w w' : World} {e : EndpointQuotaState} {r : Reads}

/-- **A step edits rows or adds rows**: under the same ids it puts new
versions of the rows, or it appends new rows. -/
theorem Change.versions (h : Change s w op w') :
    (w'.db.deliveries.rows.map Delivery.id = w.db.deliveries.rows.map Delivery.id
        ∧ ∀ d' ∈ w'.db.deliveries.rows, ∃ d ∈ w.db.deliveries.rows, SameDelivery d d')
      ∨ ∃ new, w'.db.deliveries.rows = w.db.deliveries.rows ++ new ∧ ∀ d ∈ new, Created w d := by
  cases h with
  | kept _ _ deliveries =>
    rw [deliveries]
    exact Or.inl ⟨rfl, fun d hd => ⟨d, hd, rfl, rfl, rfl, rfl⟩⟩
  | claimed _ _ _ _ _ deliveries _ _ _ choice =>
    rw [deliveries]
    refine Or.inl ⟨?_, fun d' hd' => ?_⟩
    · rw [Serial.putAll_toTable, Table.keys_putAll]
    · rcases mem_claimed hd' with ⟨x, hx, rfl⟩ | ⟨hd, -⟩
      · exact ⟨x.1, (choice.rows x.1 (List.mem_map_of_mem hx)).1, rfl, rfl, rfl, rfl⟩
      · exact ⟨d', hd, rfl, rfl, rfl, rfl⟩
  | updated _ _ old _ deliveries _ _ _ mem update =>
    rw [deliveries]
    refine Or.inl ⟨Table.keys_put _ _, fun d' hd' => ?_⟩
    rcases Table.mem_of_mem_put hd' with rfl | hd
    · exact ⟨old, mem, update.same⟩
    · exact ⟨d', hd, rfl, rfl, rfl, rfl⟩
  | created _ _ _ deliveries _ _ _ build =>
    rw [deliveries, Serial.rows_appendAll fun f hf n => (build f hf n).1]
    refine Or.inr ⟨_, rfl, fun d hd => ?_⟩
    obtain ⟨f, hf, n, rfl⟩ := Serial.mem_built hd
    exact (build f hf n).2

/-- Every row is still there after a step, in its new version. -/
theorem Change.persist (h : Change s w op w') :
    ∀ d ∈ w.db.deliveries.rows, ∃ d' ∈ w'.db.deliveries.rows, SameDelivery d d' := by
  intro d hd
  rcases h.versions with ⟨hkeys, hsame⟩ | ⟨new, hrows, -⟩
  · have hid : d.id ∈ w'.db.deliveries.rows.map Delivery.id := by
      rw [hkeys]
      exact List.mem_map_of_mem hd
    obtain ⟨d', hd', heq⟩ := List.mem_map.mp hid
    -- the row under this id is a version of `d`, ids being unique
    obtain ⟨d₀, hd₀, hver⟩ := hsame d' hd'
    have hd₀d : d₀ = d := w.db.deliveries.eq_of_key_eq hd₀ hd (hver.id.symm.trans heq)
    subst hd₀d
    exact ⟨d', hd', hver⟩
  · rw [hrows]
    exact ⟨d, List.mem_append_left _ hd, rfl, rfl, rfl, rfl⟩

/-! ## §2. Who names a probe. -/

/-- What the wake-up of an endpoint keeps. -/
theorem EndpointQuotaState.gate_probe (h : e.gate now = some e') : e'.endpointId = e.endpointId
      ∧ ∀ id, e'.halfOpenProbeDeliveryId = some id → e.halfOpenProbeDeliveryId = some id := by
  unfold EndpointQuotaState.gate at h
  split at h
  · cases h
  split at h
  · split at h
    · cases h
      exact ⟨rfl, fun id hid => absurd hid (by simp)⟩
    · cases h
  cases h
  exact ⟨rfl, fun id hid => hid⟩

/-- The probe of each endpoint was its probe before, or is a candidate of
the endpoint. -/
def Pick.Probed (r : Reads) (p : Pick) : Prop :=
  ∀ ep, (p.endpointStates ep).endpointId = ep
    ∧ ∀ id, (p.endpointStates ep).halfOpenProbeDeliveryId = some id →
      (r.endpointStates ep).halfOpenProbeDeliveryId = some id
        ∨ ∃ d ∈ r.candidates, d.endpointId = ep ∧ d.id = id

theorem Pick.probed_move (p q : Pick) (hg : Pick.Grouped r.candidates p) (hp : p.Probed r)
    (h : Pick.Move s now available p q) : q.Probed r := by
  cases h with
  | rotate => exact hp
  | wake ep e hgate =>
    intro ep'
    by_cases hep : ep' = ep
    · subst hep
      obtain ⟨hid, hprobe⟩ := EndpointQuotaState.gate_probe hgate
      rw [Pick.setEndpoint_self]
      exact ⟨hid.trans (hp ep').1, fun id h => (hp ep').2 id (hprobe id h)⟩
    · have hstate : (p.setEndpoint ep e).endpointStates ep' = p.endpointStates ep' :=
        Function.update_of_ne hep _ _
      rw [hstate]
      exact hp ep'
  | take org ep d rest queue =>
    intro ep'
    by_cases hep : ep' = ep
    · subst hep
      have hstate : (p.take now org ep' d rest).endpointStates ep' = p.takenEndpoint ep' d :=
        Function.update_self _ _ _
      obtain ⟨hmem, -, hend⟩ := hg.queued org ep' d (by rw [queue]; exact List.mem_cons_self)
      rw [hstate]
      refine ⟨(hp ep').1, fun id hid => ?_⟩
      -- a half-open circuit takes the delivery as its probe
      have hid : (if (p.endpointStates ep').circuitState = .halfOpen then some d.id
          else (p.endpointStates ep').halfOpenProbeDeliveryId) = some id := hid
      split at hid
      · exact Or.inr ⟨d, hmem, hend, Option.some.inj hid⟩
      · exact (hp ep').2 id hid
    · have hstate : (p.take now org ep d rest).endpointStates ep' = p.endpointStates ep' :=
        Function.update_of_ne hep _ _
      rw [hstate]
      exact hp ep'

/-- A probe that was read is named in a row of the table. -/
theorem endpointState_probe {ep id : Nat}
    (h : (endpointState s db now ep).halfOpenProbeDeliveryId = some id) :
    ∃ e ∈ db.endpointStates.rows, e.endpointId = ep ∧ e.halfOpenProbeDeliveryId = some id := by
  unfold endpointState at h
  cases hfind : db.endpointStates.find? ep with
  | none =>
    rw [hfind] at h
    exact absurd h (by simp [endpointQuotaValues])
  | some e =>
    rw [hfind] at h
    exact ⟨e, Table.mem_of_find? hfind, Table.key_of_find? hfind, h⟩

theorem Reads.choose_probed (s : Settings) (now : Time) (available : Nat)
    (hids : (r.candidates.map Delivery.id).Nodup)
    (hkey : ∀ ep, (r.endpointStates ep).endpointId = ep) : (r.choose s now available).Probed r := by
  have hstart : (r.start s now).Probed r := fun ep => ⟨hkey ep, fun id hid => Or.inl hid⟩
  exact (Pick.Moves.inv (I := fun p => Pick.Grouped r.candidates p ∧ p.Probed r)
    (fun p q hp hm => ⟨Pick.grouped_move hids p q hp.1 hm, Pick.probed_move p q hp.1 hp.2 hm⟩)
    (Pick.selectLoop_moves r.organizationOrder available (r.start s now))
    ⟨r.start_grouped s now hids, hstart⟩).2

/-- Where the probes of a database's state rows come from, seen from the
database before the step. -/
def ProbesFrom (db db' : Db) : Prop :=
  ∀ e' ∈ db'.endpointStates.rows, ∀ id, e'.halfOpenProbeDeliveryId = some id →
    (∃ e ∈ db.endpointStates.rows, e.endpointId = e'.endpointId
        ∧ e.halfOpenProbeDeliveryId = some id)
      ∨ ∃ d ∈ db.deliveries.rows, d.endpointId = e'.endpointId ∧ d.id = id

theorem probesFrom_self (h : db'.endpointStates = db.endpointStates) : ProbesFrom db db' := by
  intro e' he' id hid
  rw [h] at he'
  exact Or.inl ⟨e', he', rfl, hid⟩

/-- A state row is replaced by one with no new probe. -/
theorem probesFrom_put (h : db'.endpointStates = db.endpointStates.put e')
    (he : e ∈ db.endpointStates.rows) (hid : e'.endpointId = e.endpointId)
    (hprobe : ∀ id, e'.halfOpenProbeDeliveryId = some id → e.halfOpenProbeDeliveryId = some id) :
    ProbesFrom db db' := by
  intro x hx id hxid
  rw [h] at hx
  rcases Table.mem_of_mem_put hx with rfl | hx
  · exact Or.inl ⟨e, he, hid.symm, hprobe id hxid⟩
  · exact Or.inl ⟨x, hx, rfl, hxid⟩

/-- The rows `ensure_endpoint_state` adds probe nothing. -/
theorem mem_ensureEndpointState (s : Settings) (now : Time) (ids : List Nat) :
    ∀ {db : Db}, e ∈ (ids.foldl (ensureEndpointState s now) db).endpointStates.rows →
      e ∈ db.endpointStates.rows ∨ e.halfOpenProbeDeliveryId = none := by
  induction ids with
  | nil => exact fun he => Or.inl he
  | cons _ _ ih =>
    intro db he
    rcases ih he with he | he
    · rcases Table.mem_insert he with rfl | he
      · exact Or.inr rfl
      · exact Or.inl he
    · exact Or.inr he

/-- The state rows that the selection stores. -/
theorem Reads.mem_store_states (h : e ∈ (r.store s now p db).endpointStates.rows) :
    (∃ ep, e = p.endpointStates ep) ∨ e ∈ db.endpointStates.rows
      ∨ e.halfOpenProbeDeliveryId = none := by
  rcases Table.mem_putAll h with hnew | ⟨hold, -⟩
  · obtain ⟨ep, -, rfl⟩ := List.mem_map.mp hnew
    exact Or.inl ⟨ep, rfl⟩
  · obtain ⟨ts, hts⟩ := ensureTenantState_foldl s now r.organizationIds db
    rw [hts] at hold
    have hensured := mem_ensureEndpointState s now r.endpointIds hold
    exact Or.inr hensured

theorem readsOf_probes (s : Settings) (now : Time) (available : Nat) (db : Db) :
    ProbesFrom db ((readsOf s now available db).store s now
      ((readsOf s now available db).choose s now available) db) := by
  intro e' he' id hid
  rcases Reads.mem_store_states he' with ⟨ep, rfl⟩ | hold | hnone
  · obtain ⟨hkey, hprobe⟩ := Reads.choose_probed s now available (readsOf_nodup s now available db)
      (endpointState_endpointId s db now) ep
    rw [hkey]
    rcases hprobe id hid with hbefore | ⟨d, hd, hep, hdid⟩
    · exact Or.inl (endpointState_probe hbefore)
    · exact Or.inr ⟨d, (candidates_due hd).1, hep, hdid⟩
  · exact Or.inl ⟨e', hold, rfl, hid⟩
  · rw [hnone] at hid
    cases hid

/-- **The selection names as a probe** only a due delivery of the endpoint. -/
theorem selectFairDeliveries_probes (s : Settings) (now : Time) (requested : Nat) (db : Db) :
    ProbesFrom db (selectFairDeliveries s now requested db).1 := by
  unfold selectFairDeliveries
  dsimp only
  split
  · exact probesFrom_self rfl
  · exact readsOf_probes s now _ (ensureGlobalState now db)

theorem finalizeEndpoint_probe (s : Settings) (finished : Time) (r : AttemptResult)
    (deliveryId : Nat) (e : EndpointQuotaState) :
    (finalizeEndpoint s finished r deliveryId e).endpointId = e.endpointId
      ∧ ∀ id, (finalizeEndpoint s finished r deliveryId e).halfOpenProbeDeliveryId = some id →
        e.halfOpenProbeDeliveryId = some id := by
  have hnone : ∀ (x : Option Nat), x = none → ∀ id, x = some id →
      e.halfOpenProbeDeliveryId = some id := by
    intro x hx id hid
    rw [hx] at hid
    cases hid
  unfold finalizeEndpoint
  dsimp only
  split
  · exact ⟨rfl, hnone _ rfl⟩
  · split
    · split
      · exact ⟨rfl, hnone _ rfl⟩
      · exact ⟨rfl, fun _ h => h⟩
    · split
      · exact ⟨rfl, hnone _ rfl⟩
      · split
        · exact ⟨rfl, hnone _ rfl⟩
        · exact ⟨rfl, fun _ h => h⟩

theorem cancelEndpoint_probe (now : Time) (deliveryId : Nat) (e : EndpointQuotaState) :
    (cancelEndpoint now deliveryId e).endpointId = e.endpointId
      ∧ ∀ id, (cancelEndpoint now deliveryId e).halfOpenProbeDeliveryId = some id →
        e.halfOpenProbeDeliveryId = some id := by
  unfold cancelEndpoint
  split
  · exact ⟨rfl, fun id h => absurd h (by simp)⟩
  · exact ⟨rfl, fun _ h => h⟩

theorem EndpointOperation.apply_probe (s : Settings) (now : Time) (e : EndpointQuotaState)
    (op : EndpointOperation) :
    (op.apply s now e).endpointId = e.endpointId
      ∧ ∀ id, (op.apply s now e).halfOpenProbeDeliveryId = some id →
        e.halfOpenProbeDeliveryId = some id := by
  cases op with
  | pause | resume => exact ⟨rfl, fun _ h => h⟩
  | recover => exact ⟨rfl, fun id h => absurd h (by simp [EndpointOperation.apply])⟩

/-! ## §3. The other tables over one step. -/

/-- What a step leaves alone beside the deliveries. -/
structure StepFrame (db db' : Db) : Prop where
  endpoints : db'.endpoints = db.endpoints
  projects : db'.projects = db.projects
  probes : ProbesFrom db db'

namespace World

theorem frame_refl (db : Db) : StepFrame db db := ⟨rfl, rfl, probesFrom_self rfl⟩

theorem frame_commit {r : Except AppError Db} (h : ∀ db, r = .ok db → StepFrame w.db db) :
    StepFrame w.db (w.commit r).db := by
  cases r with
  | error => exact frame_refl w.db
  | ok db => exact h db rfl

theorem frame_claim (limit : Nat) (tokens : List Uuid) :
    StepFrame w.db (w.claim s limit tokens).db := by
  unfold World.claim claimDue
  by_cases hzero : limit = 0
  · rw [if_pos hzero]
    exact frame_refl w.db
  · rw [if_neg hzero]
    obtain ⟨g, ts, es, hframe⟩ := selectFairDeliveries_frame s w.clock limit w.db
    have hprobes := selectFairDeliveries_probes s w.clock limit w.db
    dsimp only
    cases claimAll w.db ((selectFairDeliveries s w.clock limit w.db).2.zip tokens) with
    | error => exact frame_refl w.db
    | ok =>
      refine ⟨?_, ?_, hprobes⟩
      · show (selectFairDeliveries s w.clock limit w.db).1.endpoints = _
        rw [hframe]
      · show (selectFairDeliveries s w.clock limit w.db).1.projects = _
        rw [hframe]

theorem frame_cancel (project : Project) (deliveryId : Uuid) (reason : Option String) :
    StepFrame w.db (w.commit (cancelDelivery w.clock project deliveryId reason w.db)).db := by
  apply frame_commit
  intro db hdb
  obtain rfl | ⟨d, -, -, rfl⟩ := cancelDelivery_ok hdb
  · exact frame_refl w.db
  · refine ⟨rfl, rfl, ?_⟩
    cases hfind : w.db.endpointStates.find? d.endpointId with
    | none => exact probesFrom_self rfl
    | some e =>
      obtain ⟨hid, hprobe⟩ := cancelEndpoint_probe w.clock d.id e
      exact probesFrom_put rfl (Table.mem_of_find? hfind) hid hprobe

/-- **One step** keeps the endpoints and the projects, and names no probe
but a delivery of the endpoint. -/
theorem step_frame (h : w.step P s op = some w') : StepFrame w.db w'.db := by
  cases op with
  | claim limit tokens =>
    obtain ⟨-, rfl⟩ := of_guard h
    exact frame_claim limit tokens
  | send | tick =>
    obtain ⟨-, rfl⟩ := of_guard h
    exact frame_refl w.db
  | renew c =>
    obtain ⟨-, rfl⟩ := of_guard h
    show StepFrame w.db (renewLease s w.clock c w.db).1
    unfold renewLease
    split <;> exact ⟨rfl, rfl, probesFrom_self rfl⟩
  | release c =>
    obtain ⟨-, rfl⟩ := of_guard h
    show StepFrame w.db (releaseClaim w.clock c w.db).1
    unfold releaseClaim
    split <;> exact ⟨rfl, rfl, probesFrom_self rfl⟩
  | finalize c f =>
    obtain ⟨-, rfl⟩ := of_guard h
    apply frame_commit
    intro db hdb
    obtain ⟨r, hr, rfl⟩ := of_map_ok hdb
    obtain rfl | ⟨d, e, -, he, rfl⟩ := finalize_ok hr
    · exact frame_refl w.db
    · obtain ⟨hid, hprobe⟩ := finalizeEndpoint_probe s w.clock f.result d.id e
      exact ⟨rfl, rfl, probesFrom_put rfl (Table.mem_of_find? he) hid hprobe⟩
  | ingest =>
    obtain ⟨project, -, rfl⟩ := onProject_some h
    apply frame_commit
    intro db hdb
    obtain ⟨r, hr, rfl⟩ := of_map_ok hdb
    -- the key was used already, or the event is new
    obtain ⟨c, -, ⟨hsame, -⟩ | ⟨bytes, tenant, -, -, -, hdb, -⟩⟩ := ingestEvent_ok hr
    · rw [hsame]
      exact frame_refl w.db
    · rw [hdb]
      exact ⟨rfl, rfl, probesFrom_self rfl⟩
  | replay =>
    obtain ⟨project, -, rfl⟩ := onProject_some h
    apply frame_commit
    intro db hdb
    obtain ⟨original, tenant, -, -, -, rfl⟩ := replayDelivery_ok hdb
    exact ⟨rfl, rfl, probesFrom_self rfl⟩
  | replayMany =>
    obtain ⟨project, -, rfl⟩ := onProject_some h
    apply frame_commit
    intro db hdb
    obtain rfl | ⟨tenant, -, -, rfl⟩ := replayDeliveries_ok hdb
    · exact frame_refl w.db
    · exact ⟨rfl, rfl, probesFrom_self rfl⟩
  | cancel _ deliveryId reason =>
    obtain ⟨project, -, rfl⟩ := onProject_some h
    exact frame_cancel project deliveryId reason
  | operate _ _ operation =>
    obtain ⟨project, -, rfl⟩ := onProject_some h
    apply frame_commit
    intro db hdb
    obtain ⟨e, he, rfl⟩ := operateEndpoint_ok hdb
    obtain ⟨hid, hprobe⟩ := operation.apply_probe s w.clock e
    exact ⟨rfl, rfl, probesFrom_put rfl he hid hprobe⟩

end World

/-! ## §4. Every run. -/

/-- Deliveries belong to the tenant of their endpoint, probes to their
endpoint. -/
structure Owned (db : Db) : Prop where
  tenant : ∀ d ∈ db.deliveries.rows, ∃ x ∈ db.endpoints.rows, x.id = d.endpointId
    ∧ ∃ p ∈ db.projects.rows, p.id = x.projectId ∧ p.organizationId = d.organizationId
  probe : ∀ e ∈ db.endpointStates.rows, ∀ id, e.halfOpenProbeDeliveryId = some id →
    ∃ d ∈ db.deliveries.rows, d.id = id ∧ d.endpointId = e.endpointId

/-- Deliveries of one endpoint belong to one tenant. -/
theorem Owned.tenant_eq (h : Owned db) (ha : a ∈ db.deliveries.rows) (hb : b ∈ db.deliveries.rows)
    (hep : a.endpointId = b.endpointId) : a.organizationId = b.organizationId := by
  obtain ⟨x, hx, hxa, p, hp, hpx, hpa⟩ := h.tenant a ha
  obtain ⟨y, hy, hyb, q, hq, hqy, hqb⟩ := h.tenant b hb
  have hxy : x = y := db.endpoints.eq_of_key_eq hx hy (hxa.trans (hep.trans hyb.symm))
  subst hxy
  have hpq : p = q := db.projects.eq_of_key_eq hp hq (hpx.trans hqy.symm)
  subst hpq
  exact hpa.symm.trans hqb

theorem Created.tenant (hw : Owned w.db) (h : Created w d) :
    ∃ x ∈ w.db.endpoints.rows, x.id = d.endpointId
      ∧ ∃ p ∈ w.db.projects.rows, p.id = x.projectId ∧ p.organizationId = d.organizationId := by
  cases h with
  | ingested project endpoint _ _ _ hproject hendpoint owner =>
    exact ⟨endpoint, hendpoint, rfl, project, hproject, owner.symm, rfl⟩
  | replayed original _ _ source => exact hw.tenant original source

/-- **One step keeps the ownership.** -/
theorem owned_step (hw : Owned w.db) (h : w.step P s op = some w') : Owned w'.db := by
  have hframe := World.step_frame h
  have hchange := World.step_change h
  constructor
  · rw [hframe.endpoints, hframe.projects]
    intro d' hd'
    rcases hchange.versions with ⟨-, hsame⟩ | ⟨new, hrows, hnew⟩
    · obtain ⟨d, hd, hver⟩ := hsame d' hd'
      rw [hver.endpointId, hver.organizationId]
      exact hw.tenant d hd
    · rw [hrows] at hd'
      rcases List.mem_append.mp hd' with hd | hd
      · exact hw.tenant d' hd
      · exact (hnew d' hd).tenant hw
  · intro e' he' id hid
    -- the delivery that was named is still there, in its new version
    have hnamed : ∃ d ∈ w.db.deliveries.rows, d.id = id ∧ d.endpointId = e'.endpointId := by
      rcases hframe.probes e' he' id hid with ⟨e, he, hep, hprobe⟩ | ⟨d, hd, hep, hdid⟩
      · obtain ⟨d, hd, hdid, hdep⟩ := hw.probe e he id hprobe
        exact ⟨d, hd, hdid, hdep.trans hep⟩
      · exact ⟨d, hd, hdid, hep⟩
    obtain ⟨d, hd, hdid, hdep⟩ := hnamed
    obtain ⟨d', hd', hver⟩ := hchange.persist d hd
    exact ⟨d', hd', hver.id.trans hdid, hver.endpointId.trans hdep⟩

end WebhookPlatform
