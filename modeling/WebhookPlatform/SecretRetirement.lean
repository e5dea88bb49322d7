/-
  WebhookPlatform.SecretRetirement
  **SIGNATURES WITH RETIRED SECRETS** (`rotate_endpoint_secret`,
  `_ensure_replayable` and `_replay_copy` of
  `app/services/webhook_service.py`, the age check of `_perform_attempt`).

  A rotation gives the endpoint's current version its end,

      retire_at = now + endpoint_secret_overlap_seconds,

  and the validator makes the overlap cover the maximum delivery age.  So
  everything accepted under a version before its rotation is too old to be
  attempted when the version retires.  A replay breaks the timeline: it
  keeps the version and restarts `created_at`, and `_ensure_replayable` asks
  only that the version has not retired YET.

  `signatures_in_force` is the guarantee for runs whose replays leave the
  version a whole delivery age; `signed_after_retirement` is what happens
  otherwise.
-/
import WebhookPlatform.Tenancy

namespace WebhookPlatform

open Relational Transition List Table

/-! ## §1. Versions over a step. -/

/-- The version rows of the endpoints: every version up to the current one
has its row, and the current one has no end. -/
structure Secrets (endpoints : List WebhookEndpoint) (versions : List EndpointSigningSecretVersion)
    (next : Nat) : Prop where
  endpointIds : ∀ w ∈ endpoints, w.id < next
  versionIds : ∀ v ∈ versions, v.endpointId < next
  started : ∀ w ∈ endpoints, 1 ≤ w.secretVersion
  complete : ∀ w ∈ endpoints, ∀ n, 1 ≤ n → n ≤ w.secretVersion →
    ∃ v ∈ versions, v.is w.id n = true
  upTo : ∀ w ∈ endpoints, ∀ v ∈ versions, v.endpointId = w.id → v.version ≤ w.secretVersion
  current : ∀ w ∈ endpoints, ∀ v ∈ versions, v.is w.id w.secretVersion = true → v.retireAt = none

/-- The version rows of a deployment. -/
abbrev Deployment.Secrets (d : Deployment) : Prop :=
  WebhookPlatform.Secrets d.db.endpoints.rows d.db.secretVersions d.endpointIds

theorem EndpointSigningSecretVersion.is_iff {v : EndpointSigningSecretVersion}
    {endpointId version : Nat} :
    v.is endpointId version = true ↔ v.endpointId = endpointId ∧ v.version = version := by
  unfold EndpointSigningSecretVersion.is
  rw [Bool.and_eq_true, decide_eq_true_eq, decide_eq_true_eq]

theorem mem_rotatedVersions {now retireAt : Time} : v' ∈ rotatedVersions now retireAt w versions ↔
      (v' ∈ versions ∧ v'.is w.id w.secretVersion = false)
        ∨ (∃ v ∈ versions, v.is w.id w.secretVersion = true
          ∧ v' = { v with retireAt := some retireAt })
        ∨ v' = ⟨w.id, w.secretVersion + 1, now, none⟩ := by
  unfold rotatedVersions
  rw [mem_append, mem_map, mem_singleton]
  constructor
  · rintro (⟨v, hv, rfl⟩ | hnew)
    · by_cases his : v.is w.id w.secretVersion = true
      · rw [if_pos his]
        exact Or.inr (Or.inl ⟨v, hv, his, rfl⟩)
      · rw [if_neg his]
        exact Or.inl ⟨hv, Bool.eq_false_iff.mpr his⟩
    · exact Or.inr (Or.inr hnew)
  · rintro (⟨hv, hother⟩ | ⟨v, hv, his, rfl⟩ | hnew)
    · exact Or.inl ⟨v', hv, if_neg (Bool.eq_false_iff.mp hother)⟩
    · exact Or.inl ⟨v, hv, if_pos his⟩
    · exact Or.inr hnew

section Steps

variable {next : Nat} {t : Table WebhookEndpoint WebhookEndpoint.id}

/-- A row is replaced that keeps its id and its version. -/
theorem Secrets.put (h : WebhookPlatform.Secrets t.rows versions next) (hw : w ∈ t.rows)
    (hid : w'.id = w.id) (hversion : w'.secretVersion = w.secretVersion) :
    WebhookPlatform.Secrets (t.put w').rows versions next := by
  -- each row of the new table has the id and the version of an old one
  have hold : ∀ x ∈ (t.put w').rows,
      ∃ y ∈ t.rows, x.id = y.id ∧ x.secretVersion = y.secretVersion := by
    intro x hx
    rcases mem_of_mem_put hx with rfl | hx
    · exact ⟨w, hw, hid, hversion⟩
    · exact ⟨x, hx, rfl, rfl⟩
  refine ⟨fun x hx => ?_, h.versionIds, fun x hx => ?_, fun x hx => ?_, fun x hx => ?_,
    fun x hx => ?_⟩
  all_goals
    obtain ⟨y, hy, hxid, hxversion⟩ := hold x hx
    first
      | rw [hxid, hxversion]
      | rw [hxid]
      | rw [hxversion]
  · exact h.endpointIds y hy
  · exact h.started y hy
  · exact h.complete y hy
  · exact h.upTo y hy
  · exact h.current y hy

/-- A new endpoint starts with version 1. -/
theorem Secrets.create {now : Time}
    (h : WebhookPlatform.Secrets t.rows versions next) (hid : w.id = next)
    (hversion : w.secretVersion = 1) :
    WebhookPlatform.Secrets (t.insert w).rows (versions ++ [⟨next, 1, now, none⟩]) (next + 1) := by
  have hversions : ∀ v ∈ versions ++ [⟨next, 1, now, none⟩],
      v ∈ versions ∨ v = ⟨next, 1, now, none⟩ := by
    intro v hv
    rcases mem_append.mp hv with hv | hv
    · exact Or.inl hv
    · exact Or.inr (mem_singleton.mp hv)
  constructor
  · intro x hx
    rcases mem_insert hx with rfl | hx
    · omega
    · exact (h.endpointIds x hx).trans (Nat.lt_succ_self _)
  · intro v hv
    rcases hversions v hv with hv | rfl
    · exact (h.versionIds v hv).trans (Nat.lt_succ_self _)
    · exact Nat.lt_succ_self _
  · intro x hx
    rcases mem_insert hx with rfl | hx
    · exact hversion.ge
    · exact h.started x hx
  · intro x hx n hpos hle
    rcases mem_insert hx with rfl | hx
    · refine ⟨_, mem_append_right _ (mem_singleton.mpr rfl), ?_⟩
      rw [EndpointSigningSecretVersion.is_iff]
      exact ⟨hid.symm, show 1 = n by omega⟩
    · obtain ⟨v, hv, his⟩ := h.complete x hx n hpos hle
      exact ⟨v, mem_append_left _ hv, his⟩
  · intro x hx v hv hkey
    rcases mem_insert hx with rfl | hx
    · rcases hversions v hv with hv | rfl
      · exact absurd (hkey.trans hid) (h.versionIds v hv).ne
      · exact hversion.ge
    · rcases hversions v hv with hv | rfl
      · exact h.upTo x hx v hv hkey
      · exact absurd hkey.symm (h.endpointIds x hx).ne
  · intro x hx v hv his
    rcases hversions v hv with hv | rfl
    · rcases mem_insert hx with rfl | hx
      · exact absurd ((EndpointSigningSecretVersion.is_iff.mp his).1.trans hid)
          (h.versionIds v hv).ne
      · exact h.current x hx v hv his
    · rfl

/-- A rotation ends the current version and starts the next. -/
theorem Secrets.rotate
    {now retireAt : Time} (h : WebhookPlatform.Secrets t.rows versions next) (hw : w ∈ t.rows) :
    WebhookPlatform.Secrets
      (t.put { w with secretVersion := w.secretVersion + 1, updatedAt := now }).rows
      (rotatedVersions now retireAt w versions) next := by
  -- the rows of the other endpoints are as they were
  have hrow : ∀ x ∈ (t.put { w with secretVersion := w.secretVersion + 1, updatedAt := now }).rows,
      (x.id = w.id ∧ x.secretVersion = w.secretVersion + 1) ∨ (x ∈ t.rows ∧ x.id ≠ w.id) := by
    intro x hx
    rcases mem_put.mp hx with ⟨rfl, -⟩ | ⟨hx, hne⟩
    · exact Or.inl ⟨rfl, rfl⟩
    · exact Or.inr ⟨hx, hne⟩
  -- a version row keeps its endpoint and number, or is the new one
  have hversion : ∀ v' ∈ rotatedVersions now retireAt w versions,
      (∃ v ∈ versions, v'.endpointId = v.endpointId ∧ v'.version = v.version
          ∧ (v.is w.id w.secretVersion = false → v' = v))
        ∨ v' = ⟨w.id, w.secretVersion + 1, now, none⟩ := by
    intro v' hv'
    rcases mem_rotatedVersions.mp hv' with ⟨hv, -⟩ | ⟨v, hv, his, rfl⟩ | hnew
    · exact Or.inl ⟨v', hv, rfl, rfl, fun _ => rfl⟩
    · exact Or.inl ⟨v, hv, rfl, rfl, fun hnot => absurd his (by rw [hnot]; decide)⟩
    · exact Or.inr hnew
  have hlater : ∀ v ∈ versions, ∀ n, v.is w.id n = true →
      ∃ v' ∈ rotatedVersions now retireAt w versions, v'.is w.id n = true := by
    intro v hv n his
    by_cases hcurrent : v.is w.id w.secretVersion = true
    · exact ⟨_, mem_rotatedVersions.mpr (Or.inr (Or.inl ⟨v, hv, hcurrent, rfl⟩)), his⟩
    · exact ⟨v, mem_rotatedVersions.mpr (Or.inl ⟨hv, Bool.eq_false_iff.mpr hcurrent⟩), his⟩
  constructor
  · intro x hx
    rcases hrow x hx with ⟨hid, -⟩ | ⟨hx, -⟩
    · rw [hid]
      exact h.endpointIds w hw
    · exact h.endpointIds x hx
  · intro v' hv'
    rcases hversion v' hv' with ⟨v, hv, hid, -⟩ | rfl
    · rw [hid]
      exact h.versionIds v hv
    · exact h.endpointIds w hw
  · intro x hx
    rcases hrow x hx with ⟨-, hnext⟩ | ⟨hx, -⟩
    · omega
    · exact h.started x hx
  · intro x hx n hpos hle
    rcases hrow x hx with ⟨hid, hnext⟩ | ⟨hx, hne⟩
    · rw [hid]
      by_cases hn : n = w.secretVersion + 1
      · refine ⟨_, mem_rotatedVersions.mpr (Or.inr (Or.inr rfl)), ?_⟩
        rw [EndpointSigningSecretVersion.is_iff]
        exact ⟨rfl, hn.symm⟩
      · obtain ⟨v, hv, his⟩ := h.complete w hw n hpos (by omega)
        exact hlater v hv n his
    · obtain ⟨v, hv, his⟩ := h.complete x hx n hpos hle
      have hother : v.is w.id w.secretVersion = false := by
        refine Bool.eq_false_iff.mpr fun hcurrent => hne ?_
        rw [← (EndpointSigningSecretVersion.is_iff.mp his).1,
          (EndpointSigningSecretVersion.is_iff.mp hcurrent).1]
      exact ⟨v, mem_rotatedVersions.mpr (Or.inl ⟨hv, hother⟩), his⟩
  · intro x hx v' hv' hkey
    rcases hversion v' hv' with ⟨v, hv, hid, hnumber, -⟩ | rfl
    · rw [hnumber]
      rcases hrow x hx with ⟨hxid, hnext⟩ | ⟨hx, -⟩
      · have hle := h.upTo w hw v hv (hid.symm.trans (hkey.trans hxid))
        omega
      · exact h.upTo x hx v hv (hid.symm.trans hkey)
    · rcases hrow x hx with ⟨-, hnext⟩ | ⟨-, hne⟩
      · exact hnext.ge
      · exact absurd hkey.symm hne
  · intro x hx v' hv' his
    obtain ⟨hkey, hnumber⟩ := EndpointSigningSecretVersion.is_iff.mp his
    rcases hversion v' hv' with ⟨v, hv, hid, hsame, hkept⟩ | rfl
    · rcases hrow x hx with ⟨hxid, hnext⟩ | ⟨hx, hne⟩
      -- no old row has the number of the new version
      · have hle := h.upTo w hw v hv (hid.symm.trans (hkey.trans hxid))
        omega
      · have hother : v.is w.id w.secretVersion = false := by
          refine Bool.eq_false_iff.mpr fun hcurrent => hne ?_
          rw [← hkey, hid, (EndpointSigningSecretVersion.is_iff.mp hcurrent).1]
        rw [hkept hother] at his ⊢
        exact h.current x hx v hv his
    · rfl

/-- An organization goes, with its endpoints and their versions. -/
theorem Secrets.remove (organizationId : Nat)
    (h : WebhookPlatform.Secrets db.endpoints.rows db.secretVersions next) :
    WebhookPlatform.Secrets (deleteOrganization organizationId db).endpoints.rows
      (deleteOrganization organizationId db).secretVersions next := by
  have hrow : ∀ w ∈ (deleteOrganization organizationId db).endpoints.rows,
      w ∈ db.endpoints.rows ∧ projectOf db organizationId w.projectId = false :=
    fun w hw => mem_delete.mp hw
  have hversion : ∀ v ∈ (deleteOrganization organizationId db).secretVersions,
      v ∈ db.secretVersions := fun v hv => (mem_filter.mp hv).1
  refine ⟨fun w hw => h.endpointIds w (hrow w hw).1, fun v hv => h.versionIds v (hversion v hv),
    fun w hw => h.started w (hrow w hw).1, fun w hw n hpos hle => ?_,
    fun w hw v hv => h.upTo w (hrow w hw).1 v (hversion v hv),
    fun w hw v hv => h.current w (hrow w hw).1 v (hversion v hv)⟩
  obtain ⟨hw, hother⟩ := hrow w hw
  obtain ⟨v, hv, his⟩ := h.complete w hw n hpos hle
  refine ⟨v, mem_filter.mpr ⟨hv, ?_⟩, his⟩
  -- the endpoint of the version is not one of the organization's
  cases hof : endpointOf db organizationId v.endpointId with
  | false => rfl
  | true =>
    obtain ⟨x, hx, hxof⟩ := any_eq_true.mp hof
    rw [Bool.and_eq_true, decide_eq_true_eq] at hxof
    have hid : x.id = w.id := hxof.2.trans (EndpointSigningSecretVersion.is_iff.mp his).1
    obtain rfl := db.endpoints.eq_of_key_eq hx hw hid
    rw [hother] at hxof
    exact absurd hxof.1 Bool.false_ne_true

theorem Effect.secrets (h : Effect P s d a d') (hd : d.Secrets) : d'.Secrets := by
  cases h with
  | claimed limit tokens =>
    obtain ⟨g, ts, es, hframe⟩ := claimedDb_frame s d.clock limit tokens d.db
    show WebhookPlatform.Secrets (claimedDb s d.clock limit tokens d.db).endpoints.rows
      (claimedDb s d.clock limit tokens d.db).secretVersions d.endpointIds
    rw [hframe]
    exact hd
  | created => exact hd.create rfl rfl
  | edited _ _ _ _ mem edit =>
    cases edit with
    | updated => exact hd.put mem rfl rfl
    | deactivated => exact hd.put mem rfl rfl
  | rotated _ _ _ mem => exact hd.rotate mem
  | cleaned operation _ _ cleanup =>
    cases cleanup with
    | removed => exact hd.remove operation.organizationId
    | _ => exact hd
  | _ => exact hd

/-- Where a version row comes from. -/
theorem Effect.version (h : Effect P s d a d') (hv : v' ∈ d'.db.secretVersions) :
    v' ∈ d.db.secretVersions ∨ v'.retireAt = none
      ∨ v'.retireAt = some (d.clock + s.endpointSecretOverlapSeconds) := by
  cases h with
  | claimed limit tokens =>
    replace hv : v' ∈ (claimedDb s d.clock limit tokens d.db).secretVersions := hv
    obtain ⟨g, ts, es, hframe⟩ := claimedDb_frame s d.clock limit tokens d.db
    rw [hframe] at hv
    exact Or.inl hv
  | created =>
    rcases mem_append.mp hv with hold | hnew
    · exact Or.inl hold
    · rw [mem_singleton.mp hnew]
      exact Or.inr (Or.inl rfl)
  | rotated =>
    rcases mem_rotatedVersions.mp hv with ⟨hold, -⟩ | ⟨v, -, -, rfl⟩ | rfl
    · exact Or.inl hold
    · exact Or.inr (Or.inr rfl)
    · exact Or.inr (Or.inl rfl)
  | cleaned _ _ _ cleanup =>
    cases cleanup with
    | removed => exact Or.inl (mem_filter.mp hv).1
    | _ => exact Or.inl hv
  | _ => exact Or.inl hv

/-- An endpoint has its id from the sequence, it keeps its public id, and its
version only grows. -/
theorem Effect.endpoint (h : Effect P s d a d') (hw : w' ∈ d'.db.endpoints.rows) :
    (∃ w ∈ d.db.endpoints.rows, w'.id = w.id ∧ w'.publicId = w.publicId
        ∧ w.secretVersion ≤ w'.secretVersion)
      ∨ w'.id = d.endpointIds := by
  have hkept : w' ∈ d.db.endpoints.rows →
      (∃ w ∈ d.db.endpoints.rows, w'.id = w.id ∧ w'.publicId = w.publicId
          ∧ w.secretVersion ≤ w'.secretVersion)
        ∨ w'.id = d.endpointIds :=
    fun hold => Or.inl ⟨w', hold, rfl, rfl, le_refl _⟩
  cases h with
  | claimed limit tokens =>
    replace hw : w' ∈ (claimedDb s d.clock limit tokens d.db).endpoints.rows := hw
    obtain ⟨g, ts, es, hframe⟩ := claimedDb_frame s d.clock limit tokens d.db
    rw [hframe] at hw
    exact hkept hw
  | created =>
    rcases mem_insert hw with rfl | hold
    · exact Or.inr rfl
    · exact hkept hold
  | edited _ w _ _ mem edit =>
    rcases mem_of_mem_put hw with rfl | hold
    · cases edit with
      | updated | deactivated => exact Or.inl ⟨w, mem, rfl, rfl, le_refl _⟩
    · exact hkept hold
  | rotated _ _ w mem =>
    rcases mem_of_mem_put hw with rfl | hold
    · exact Or.inl ⟨w, mem, rfl, rfl, Nat.le_succ _⟩
    · exact hkept hold
  | cleaned _ _ _ cleanup =>
    cases cleanup with
    | removed => exact hkept (mem_delete.mp hw).1
    | _ => exact hkept hw
  | _ => exact hkept hw

/-! ## §2. What is signed with which version. -/

/-- Work that is signed with a version of an endpoint's secret, and the
moment from which its age counts. -/
structure Signing where
  endpointId : Nat
  version : Nat
  createdAt : Time

/-- What the row is signed with. -/
def Delivery.signing (x : Delivery) : Signing :=
  ⟨x.endpointId, x.signingSecretVersionSnapshot, x.createdAt⟩

/-- What the claim is signed with. -/
def ClaimedDelivery.signing (c : ClaimedDelivery) : Signing :=
  ⟨c.endpointId, c.endpointSecretVersion, c.createdAt⟩

/-- A row is signed so, or a claim that a worker may still hold. -/
def Deployment.Signs (d : Deployment) (g : Signing) : Prop :=
  (∃ x ∈ d.db.deliveries.rows, x.signing = g) ∨ ∃ c ∈ d.issued, c.signing = g

/-- **Where a signature comes from**: from before the step, from an endpoint
at acceptance, or from the source of a replay. -/
inductive SigningOrigin (d : Deployment) (a : Action) : Signing → Prop where
  | kept (g : Signing) (signs : d.Signs g) : SigningOrigin d a g
  | accepted (w : WebhookEndpoint) (mem : w ∈ d.db.endpoints.rows) :
      SigningOrigin d a ⟨w.id, w.secretVersion, d.clock⟩
  | replayed (original : Delivery) (mem : original ∈ d.db.deliveries.rows)
      (source : original ∈ a.sources d.db)
      (replayable : ensureReplayable d.db d.clock original = .ok ()) :
      SigningOrigin d a
        ⟨original.endpointId, original.signingSecretVersionSnapshot, d.clock⟩

theorem Effect.signing (h : Effect P s d a d') (hg : d'.Signs g) : SigningOrigin d a g := by
  rcases hg with ⟨x', hx', rfl⟩ | ⟨c, hc, rfl⟩
  · cases h.row hx' with
    | worked x _ mem work =>
      refine SigningOrigin.kept _ (Or.inl ⟨x, mem, ?_⟩)
      unfold Delivery.signing
      rw [work.same.endpointId, work.same.secretVersion, work.same.createdAt]
    | ingested _ w _ _ _ hw => exact SigningOrigin.accepted w hw
    | replayed _ original _ _ _ mem source _ replayable =>
      exact SigningOrigin.replayed original mem source replayable
  · obtain ⟨new, hissued, hnew⟩ := h.issued
    rw [hissued] at hc
    rcases mem_append.mp hc with hold | hclaimed
    · exact SigningOrigin.kept _ (Or.inr ⟨c, hold, rfl⟩)
    -- a claim takes over what its row says
    · obtain ⟨limit, tokens, -, -, y, hy, hclaim⟩ := hnew c hclaimed
      obtain ⟨-, -, hmem, -⟩ := mem_claimedPicks hy
      obtain ⟨e, envelope, -, -, rfl⟩ := claimedDelivery_spec hclaim
      exact SigningOrigin.kept _ (Or.inl ⟨y.1, hmem, rfl⟩)

/-! ## §3. The timeline. -/

/-- No version ends before everything that is signed with it is too old. -/
structure Deployment.Timely (s : Settings) (d : Deployment) : Prop where
  secrets : d.Secrets
  past : ∀ g, d.Signs g → g.createdAt ≤ d.clock
  known : ∀ g, d.Signs g → g.endpointId < d.endpointIds
  within : ∀ g, d.Signs g → ∀ w ∈ d.db.endpoints.rows, w.id = g.endpointId →
    1 ≤ g.version ∧ g.version ≤ w.secretVersion
  covered : ∀ g, d.Signs g → ∀ v ∈ d.db.secretVersions, v.is g.endpointId g.version = true →
    ∀ r, v.retireAt = some r → g.createdAt + s.webhookMaxDeliveryAgeSeconds ≤ r

/-- A replay leaves the version of its sources a whole delivery age. -/
def ReplaysInTime (s : Settings) (d : Deployment) (a : Action) (_ : Deployment) : Prop :=
  ∀ original ∈ a.sources d.db, ensureReplayable d.db d.clock original = .ok () →
    ∀ v ∈ d.db.secretVersions,
      v.is original.endpointId original.signingSecretVersionSnapshot = true →
      ∀ r, v.retireAt = some r → d.clock + s.webhookMaxDeliveryAgeSeconds ≤ r

instance : Decidable (ReplaysInTime s d a d') := List.decidableBAll _ _

/-- The clock does not go back, and ids are not given twice. -/
theorem Effect.later (h : Effect P s d a d') :
    d.clock ≤ d'.clock ∧ d.endpointIds ≤ d'.endpointIds := by
  cases h with
  | ticked _ later => exact ⟨later, le_refl _⟩
  | created => exact ⟨le_refl _, Nat.le_succ _⟩
  | _ => exact ⟨le_refl _, le_refl _⟩

namespace SigningOrigin

theorem past (h : SigningOrigin d a g) (hd : d.Timely s) : g.createdAt ≤ d.clock := by
  cases h with
  | kept _ signs => exact hd.past g signs
  | accepted => exact le_refl _
  | replayed => exact le_refl _

theorem known (h : SigningOrigin d a g) (hd : d.Timely s) : g.endpointId < d.endpointIds := by
  cases h with
  | kept _ signs => exact hd.known g signs
  | accepted w mem => exact hd.secrets.endpointIds w mem
  | replayed original mem =>
    exact hd.known original.signing (Or.inl ⟨original, mem, rfl⟩)

theorem within (h : SigningOrigin d a g) (hd : d.Timely s) (hw : w ∈ d.db.endpoints.rows)
    (hid : w.id = g.endpointId) : 1 ≤ g.version ∧ g.version ≤ w.secretVersion := by
  cases h with
  | kept _ signs => exact hd.within g signs w hw hid
  | accepted _ mem =>
    obtain rfl := d.db.endpoints.eq_of_key_eq hw mem hid
    exact ⟨hd.secrets.started w hw, le_refl _⟩
  | replayed original mem =>
    exact hd.within original.signing (Or.inl ⟨original, mem, rfl⟩) w hw hid

/-- A version that had its end before the step. -/
theorem covered (h : SigningOrigin d a g) (hd : d.Timely s) (hreplays : ReplaysInTime s d a d')
    (hv : v ∈ d.db.secretVersions) (his : v.is g.endpointId g.version = true) {r : Time}
    (hr : v.retireAt = some r) : g.createdAt + s.webhookMaxDeliveryAgeSeconds ≤ r := by
  cases h with
  | kept _ signs => exact hd.covered g signs v hv his r hr
  | accepted w mem =>
    -- events are accepted under the current version, which has no end
    rw [hd.secrets.current w mem v hv his] at hr
    cases hr
  | replayed original _ source replayable =>
    exact hreplays original source replayable v hv his r hr

end SigningOrigin

/-- **The timeline is kept**, by every step whose replays are in time. -/
theorem Effect.timely (h : Effect P s d a d') (hs : s.Accepted) (hd : d.Timely s)
    (hreplays : ReplaysInTime s d a d') : d'.Timely s := by
  refine ⟨h.secrets hd.secrets, fun g hg => ?_, fun g hg => ?_, fun g hg w' hw' hid => ?_,
    fun g hg v' hv' his r hr => ?_⟩
  · exact ((h.signing hg).past hd).trans h.later.1
  · exact lt_of_lt_of_le ((h.signing hg).known hd) h.later.2
  · rcases h.endpoint hw' with ⟨w, hw, hsame, -, hle⟩ | hnew
    · obtain ⟨hpos, hupTo⟩ := (h.signing hg).within hd hw (hsame.symm.trans hid)
      exact ⟨hpos, hupTo.trans hle⟩
    · exact absurd (hid.symm.trans hnew) ((h.signing hg).known hd).ne
  · rcases h.version hv' with hold | hnone | hrotated
    · exact (h.signing hg).covered hd hreplays hold his hr
    · rw [hnone] at hr
      cases hr
    -- a rotation gives the version an overlap that covers the delivery age
    · rw [hrotated] at hr
      obtain rfl := Option.some.inj hr
      have hpast := (h.signing hg).past hd
      have hmargin := hs.margin
      have hoverlap := hs.overlap
      linarith

end Steps

/-! ## §4. Attempts. -/

/-- An attempt that is young enough is signed with a version that exists,
unless the endpoint is gone, and has not retired. -/
def SignsInForce (s : Settings) (d : Deployment) (a : Action) (_ : Deployment) : Prop :=
  ∀ c, a = .op (.send c) → d.clock - c.createdAt < s.webhookMaxDeliveryAgeSeconds →
    ((∃ w ∈ d.db.endpoints.rows, w.id = c.endpointId) →
      ∃ v ∈ d.db.secretVersions, v.is c.endpointId c.endpointSecretVersion = true)
    ∧ ∀ v ∈ d.db.secretVersions, v.is c.endpointId c.endpointSecretVersion = true →
      v.retireAt = none ∨ ∃ r, v.retireAt = some r ∧ d.clock < r

variable {d : Deployment}

theorem signsInForce_of_timely (hstep : d.step P s a = some d') (hd : d.Timely s) :
    SignsInForce s d a d' := by
  rintro c rfl hage
  unfold Deployment.step at hstep
  obtain ⟨-, hstep⟩ := Option.ite_none_right_eq_some.mp hstep
  obtain ⟨w, hw, rfl⟩ := Option.map_eq_some_iff.mp hstep
  obtain ⟨⟨hissued, -⟩, rfl⟩ := World.of_guard hw
  have hsigns : d.Signs c.signing := Or.inr ⟨c, hissued, rfl⟩
  constructor
  · rintro ⟨w, hw, hid⟩
    obtain ⟨hpos, hle⟩ := hd.within c.signing hsigns w hw hid
    obtain ⟨v, hv, his⟩ := hd.secrets.complete w hw _ hpos hle
    exact ⟨v, hv, hid ▸ his⟩
  · intro v hv his
    cases hretire : v.retireAt with
    | none => exact Or.inl rfl
    | some r =>
      -- young enough, so the version outlasts the delivery age
      have hcovered := hd.covered c.signing hsigns v hv his r hretire
      refine Or.inr ⟨r, rfl, ?_⟩
      have hcreated : c.signing.createdAt = c.createdAt := rfl
      linarith

theorem Deployment.Fresh.secrets (h : d.Fresh) : d.Secrets := by
  unfold Deployment.Secrets
  rw [h.endpoints, h.secretVersions]
  constructor <;> exact fun _ hmem => absurd hmem not_mem_nil

theorem Deployment.Fresh.timely (h : d.Fresh) : d.Timely s := by
  have hsigns : ∀ g, ¬ d.Signs g := by
    rintro g (⟨x, hx, -⟩ | ⟨c, hc, -⟩)
    · rw [h.deliveries] at hx
      cases hx
    · rw [h.issued] at hc
      cases hc
  exact ⟨h.secrets, fun g hg => absurd hg (hsigns g), fun g hg => absurd hg (hsigns g),
    fun g hg => absurd hg (hsigns g), fun g hg => absurd hg (hsigns g)⟩

/-- **SIGNATURES ARE IN FORCE.**  With settings that the validator accepts,
in every run on a clock that does not go back, and whose replays leave the
version of their sources a whole delivery age: every attempt that passes the
age check is signed with a version that has not retired. -/
theorem signatures_in_force (P : Primitives) (s : Settings) (d : Deployment) (xs : List Action)
    (haccepted : s.accepted = true) (hfresh : d.Fresh)
    (hreplays : Along (Deployment.step P s) (ReplaysInTime s) d xs) :
    Along (Deployment.step P s) (SignsInForce s) d xs := by
  have hs := Settings.accepted_spec haccepted
  refine along_of_inv (I := Deployment.Timely s) ?_ xs d hfresh.timely hreplays
  intro u a u' hu hstep hinTime
  exact ⟨(Deployment.step_effect hstep).timely hs hu hinTime, signsInForce_of_timely hstep hu⟩

/-- A delivery is dead after its first attempt; then the secret is rotated. -/
def rotatedRun : List Action :=
  [registerEndpoint, .op (.ingest 1 firstEvent), .op (.claim 1 ["token-1"]),
    .op (.send (firstClaim "token-1" 1)),
    .op (.finalize (firstClaim "token-1" 1)
      ⟨0, ⟨false, false, some 404, some "http_status", none, none⟩, Jitter.zero⟩),
    .op (.tick 2), .rotateEndpointSecret 1 "endpoint-1"]

/-- The UUIDs of the replay. -/
def secondDraws : ReplayDraws where
  replayPublicId := fun _ => "delivery-2"
  operationPublicId := "operation-1"
  legacyKey := "replay-1"

/-- The claim of the replay that was made at `createdAt`. -/
def secondClaim (createdAt : Time) : ClaimedDelivery :=
  { firstClaim "token-2" 1 with
    id := 2, publicId := "delivery-2", createdAt := createdAt }

/-- The delivery is replayed at `replayedAt` and attempted at `sentAt`. -/
def replayedRun (replayedAt sentAt : Time) : List Action :=
  [.op (.tick replayedAt), .op (.replay 1 "delivery-1" secondDraws), .op (.tick sentAt),
    .op (.claim 1 ["token-2"]), .op (.send (secondClaim replayedAt))]

/-- Three seconds after the rotation a replay leaves the old version its
delivery age. -/
theorem signatures_in_force_replay :
    (run (Deployment.step smallPrimitives Settings.defaults) freshDeployment
        (rotatedRun ++ replayedRun 5 86400)).isSome = true
    ∧ Along (Deployment.step smallPrimitives Settings.defaults) (SignsInForce Settings.defaults)
      freshDeployment (rotatedRun ++ replayedRun 5 86400) := by
  refine ⟨by decide +kernel, signatures_in_force smallPrimitives Settings.defaults freshDeployment
    _ Settings.defaults_accepted freshDeployment_fresh ?_⟩
  decide +kernel

/-- **SIGNED WITH A RETIRED SECRET.**  The version retires at 86407; a replay
one second before is accepted, and its attempt one second after, at the age
of two seconds, is signed with that version. -/
theorem signed_after_retirement :
    Settings.defaults.accepted = true
    ∧ ∃ d, run (Deployment.step smallPrimitives Settings.defaults) freshDeployment
        (rotatedRun ++ replayedRun 86406 86408) = some d
      ∧ d.sent.getLast? = some (secondClaim 86406) ∧ d.clock = 86408
      ∧ d.clock - (secondClaim 86406).createdAt
        < Settings.defaults.webhookMaxDeliveryAgeSeconds
      ∧ ⟨1, 1, 0, some 86407⟩ ∈ d.db.secretVersions
      ∧ (secondClaim 86406).endpointId = 1 ∧ (secondClaim 86406).endpointSecretVersion = 1 :=
  ⟨Settings.defaults_accepted, by decide +kernel⟩

end WebhookPlatform
