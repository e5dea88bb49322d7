/-
  WebhookPlatform.Audit
  **THE AUDIT TRAIL, PAGE BY PAGE**: `list_audit`.

  The pages are sorted by `created_at`, and rows of one instant by their id,
  both descending.  The cursor of the next page is the pair of the last row,
  compared in the same order, so a walk over the pages loses and repeats
  nothing, whatever instants are shared (`audit_walk_complete`).

  Conventions of the embedding:

    • a row has the columns that the query reads,
    • a `ValueError` is its text.
-/
import WebhookPlatform.Models
import WebhookPlatform.Lib.Exceptions
import WebhookPlatform.Lib.Keyset

namespace WebhookPlatform

open Relational RowNumber Exceptions

/-- `administrative_audit_events`. -/
structure AdministrativeAuditEvent where
  id : Nat
  organizationPublicId : Uuid
  action : String
  resourceType : String
  createdAt : Time
  deriving Repr, DecidableEq

namespace AdministrativeAuditEvent

/-- The filters of the query. -/
def matching (organizationPublicId : Uuid) (action resourceType : Option String)
    (e : AdministrativeAuditEvent) : Bool :=
  decide (e.organizationPublicId = organizationPublicId)
    && action.all (fun a => decide (e.action = a))
    && resourceType.all fun r => decide (e.resourceType = r)

/-- The cursor of the query. -/
def before (beforeCreatedAt : Option Time) (beforeId : Option Nat)
    (e : AdministrativeAuditEvent) : Bool :=
  beforeCreatedAt.all fun t =>
    decide (e.createdAt < t) || (decide (e.createdAt = t) && decide (e.id < beforeId.getD 0))

/-- `ORDER BY created_at DESC, id DESC`. -/
def turn (e : AdministrativeAuditEvent) : (Time ×ₗ Nat)ᵒᵈ :=
  OrderDual.toDual (toLex (e.createdAt, e.id))

theorem turn_lt {e f : AdministrativeAuditEvent} :
    e.turn < f.turn ↔ f.createdAt < e.createdAt ∨ f.createdAt = e.createdAt ∧ f.id < e.id :=
  OrderDual.toDual_lt_toDual.trans Prod.Lex.toLex_lt_toLex

end AdministrativeAuditEvent

/-- The table. -/
abbrev AuditTrail := Table AdministrativeAuditEvent AdministrativeAuditEvent.id

/-- `list_audit`. -/
def listAudit (trail : AuditTrail) (organizationPublicId : Uuid)
    (action resourceType : Option String) (limit : Nat) (beforeCreatedAt : Option Time)
    (beforeId : Option Nat) : Except String (List AdministrativeAuditEvent) :=
  if organizationPublicId = "" then .error "Organization public ID is required"
  else if ¬ (1 ≤ limit ∧ limit ≤ 1000) then .error "Audit limit must be between 1 and 1000"
  else if beforeId.isSome && beforeCreatedAt.isNone then
    .error "Audit cursor timestamp is required with cursor ID"
  else
    .ok ((orderBy AdministrativeAuditEvent.turn (trail.rows.filter fun e =>
      e.matching organizationPublicId action resourceType
        && e.before beforeCreatedAt beforeId)).take limit)

/-- The pages of a caller that passes `created_at` and `id` of the last row,
until an empty page; the `n`-th page is read from the `n`-th table. -/
def auditWalk (trails : Nat → AuditTrail) (organizationPublicId : Uuid)
    (action resourceType : Option String) (limit fuel : Nat) :
    Option (List (List AdministrativeAuditEvent)) :=
  Keyset.walk (fun n last => listAudit (trails n) organizationPublicId action resourceType limit
    (last.map AdministrativeAuditEvent.createdAt) (last.map AdministrativeAuditEvent.id))
    fuel 0 none

section Walk

variable (trail : AuditTrail) (organizationPublicId : Uuid) (action resourceType : Option String)

/-- The rows that the query is about. -/
def AuditTrail.matching : List AdministrativeAuditEvent :=
  trail.rows.filter (AdministrativeAuditEvent.matching organizationPublicId action resourceType)

/-- Ids are distinct, so the sort keys are. -/
theorem AuditTrail.matching_turns :
    ((AuditTrail.matching trail organizationPublicId action resourceType).map
      AdministrativeAuditEvent.turn).Nodup := by
  have hids : (AuditTrail.matching trail organizationPublicId action resourceType).Pairwise
      fun e f => e.id ≠ f.id := (List.pairwise_map.mp trail.nodup).sublist List.filter_sublist
  refine List.pairwise_map.mpr (hids.imp fun hne heq => hne ?_)
  exact (Prod.mk.injEq _ _ _ _ ▸ toLex_inj.mp (OrderDual.toDual_inj.mp heq)).2

/-- **A page is one by key**: the cursor compares as the rows are sorted. -/
theorem listAudit_page {organizationPublicId : Uuid} (horganization : organizationPublicId ≠ "")
    (hlimit : 1 ≤ limit ∧ limit ≤ 1000) (last : Option AdministrativeAuditEvent) :
    listAudit trail organizationPublicId action resourceType limit
        (last.map AdministrativeAuditEvent.createdAt) (last.map AdministrativeAuditEvent.id)
      = .ok ((Keyset.remaining AdministrativeAuditEvent.turn
        (AuditTrail.matching trail organizationPublicId action resourceType) last).take limit) := by
  unfold listAudit
  rw [if_neg horganization, if_neg (not_not.mpr hlimit), if_neg (by cases last <;> simp)]
  unfold Keyset.remaining AuditTrail.matching
  rw [List.filter_filter]
  congr 4
  funext e
  rw [Bool.and_comm]
  congr 1
  cases last with
  | none => rfl
  | some =>
    rw [Bool.eq_iff_iff]
    simp [AdministrativeAuditEvent.before, Keyset.after, AdministrativeAuditEvent.turn_lt]

variable {trail organizationPublicId action resourceType}

/-- Without a cursor the first rows are returned. -/
theorem listAudit_ok
    (h : listAudit trail organizationPublicId action resourceType limit none none = .ok rows) :
    rows = (orderBy AdministrativeAuditEvent.turn
      (AuditTrail.matching trail organizationPublicId action resourceType)).take limit := by
  unfold listAudit at h
  obtain ⟨-, h⟩ := guard_eq_ok.mp h
  obtain ⟨-, h⟩ := guard_eq_ok.mp h
  obtain ⟨-, h⟩ := guard_eq_ok.mp h
  simp [← Except.ok.inj h, AuditTrail.matching, AdministrativeAuditEvent.before]

end Walk

/-- **THE WALK OVER THE AUDIT TRAIL LOSES AND REPEATS NOTHING.**  It ends, in
strictly descending order, with exactly the matching rows of the table that the
first page was read from, also if rows before the first returned one are
appended meanwhile. -/
theorem audit_walk_complete (trails : Nat → AuditTrail) (organizationPublicId : Uuid)
    (action resourceType : Option String) (limit : Nat) (horganization : organizationPublicId ≠ "")
    (hlimit : 1 ≤ limit ∧ limit ≤ 1000)
    (hkept : ∀ n, ∀ e ∈ (trails 0).rows, e ∈ (trails n).rows)
    (hnew : ∀ n, ∀ e ∈ (trails n).rows, e ∉ (trails 0).rows →
      e.matching organizationPublicId action resourceType = true →
      ∀ page, listAudit (trails 0) organizationPublicId action resourceType limit none none
        = .ok page → ∀ first ∈ page.head?,
        first.createdAt < e.createdAt ∨ first.createdAt = e.createdAt ∧ first.id < e.id)
    (fuel : Nat) (hfuel : (trails 0).rows.length < fuel) :
    ∃ pages, auditWalk trails organizationPublicId action resourceType limit fuel = some pages
      ∧ pages.flatten.Pairwise (fun e f =>
        f.createdAt < e.createdAt ∨ f.createdAt = e.createdAt ∧ f.id < e.id)
      ∧ ∀ e, e ∈ pages.flatten ↔ e ∈ (trails 0).rows
        ∧ e.matching organizationPublicId action resourceType = true := by
  have hpage := fun n => listAudit_page (trails n) action resourceType horganization hlimit
  have hturns := fun n =>
    AuditTrail.matching_turns (trails n) organizationPublicId action resourceType
  obtain ⟨pages, hwalk, hflat⟩ := Keyset.walk_eq hlimit.1 hturns hpage
    (fun n e he => List.mem_filter.mpr
      ⟨hkept n e (List.mem_filter.mp he).1, (List.mem_filter.mp he).2⟩)
    (fun n e he hout first hfirst => by
      obtain ⟨hrow, hmatch⟩ := List.mem_filter.mp he
      refine AdministrativeAuditEvent.turn_lt.mpr ?_
      exact hnew n e hrow (fun hold => hout (List.mem_filter.mpr ⟨hold, hmatch⟩)) hmatch _
        (hpage 0 none) first hfirst)
    fuel (lt_of_le_of_lt (List.length_filter_le _ _) hfuel)
  refine ⟨pages, hwalk, ?_, fun e => ?_⟩
  · rw [hflat]
    exact (Keyset.remaining_sorted (hturns 0)).imp AdministrativeAuditEvent.turn_lt.mp
  · rw [hflat, Keyset.mem_remaining]
    exact (and_iff_left (fun b hb => by cases hb)).trans List.mem_filter

/-- Three rows of one instant in pages of one, with the third appended after
the first page. -/
theorem audit_walk_complete_ties :
    let event : Nat → AdministrativeAuditEvent := fun id => ⟨id, "o", "member.added", "member", 0⟩
    let trail : AuditTrail := (Table.empty.insert (event 1)).insert (event 2)
    ∃ pages, auditWalk (fun n => if n = 0 then trail else trail.insert (event 3)) "o" none none 1 3
        = some pages
      ∧ ∀ e, e ∈ pages.flatten ↔ e ∈ trail.rows := by
  intro event trail
  obtain ⟨pages, hwalk, -, hmem⟩ := audit_walk_complete
    (fun n => if n = 0 then trail else trail.insert (event 3)) "o" none none 1 (by decide)
    (by decide) (fun n e he => by
      split
      · exact he
      · exact Table.mem_insert_of_mem _ he)
    (fun n e he hout _ page hpage first hfirst => by
      have hpages : listAudit trail "o" none none 1 none none = .ok [event 2] := by decide +kernel
      rw [if_pos rfl] at hout hpage
      cases hpages.symm.trans hpage
      cases hfirst
      split at he
      · exact absurd he hout
      · exact (by decide +kernel : ∀ e ∈ (trail.insert (event 3)).rows, e ∉ trail.rows →
          (0 : Time) < e.createdAt ∨ 0 = e.createdAt ∧ 2 < e.id) e he hout)
    3 (by decide)
  refine ⟨pages, hwalk, fun e => (hmem e).trans (and_iff_left_of_imp ?_)⟩
  exact (by decide +kernel : ∀ e ∈ trail.rows, e.matching "o" none none = true) e

end WebhookPlatform
