/-
  WebhookPlatform.Fairness
  **ROUND ROBIN ACROSS CLAIM BATCHES.**

  Both levels of the scheduler are carousels (`Lib.Carousel`): the tenants,
  in the order that `rotate_after` starts behind the scheduler's cursor, and
  the endpoint deque of each tenant, started behind the tenant's cursor.
  `loopLog` records every SELECTION POINT of a call — the working state in
  which a delivery was taken, and the delivery.

    • `Logged`          — each selection point finds in the cursors what the
      one before it has left there, within a call and across calls,
    • `Ride` / `Deck`   — the carousel of the tenants, and of one tenant's
      endpoints, is aligned with its cursor as long as the tenant
      (endpoint) is eligible,
    • `round_robin`     — while a tenant stays eligible and is not selected,
      no other tenant is selected twice; and likewise for the endpoints of
      one tenant, at the points at which the tenant is served.

  `claimCalls_chain` places the calls in the runs of the platform: nothing
  but a claim moves a cursor.
-/
import WebhookPlatform.CandidateWindow
import WebhookPlatform.Deployment
import WebhookPlatform.Lib.Carousel
import Mathlib.Data.List.TakeWhile

namespace WebhookPlatform

open Relational Transition Carousel List

/-! ## §1. The selection points of a call. -/

/-- `tenant_cursor_organization_id`. -/
def Pick.tenantCursor (p : Pick) : Option Nat := p.globalState.tenantCursorOrganizationId

/-- `endpoint_cursor_id` of a tenant. -/
def Pick.endpointCursor (p : Pick) (organizationId : Nat) : Option Nat :=
  (p.tenantStates organizationId).endpointCursorId

/-- A selection: the working state before the tenant's turn, and the delivery
that the turn gave. -/
structure Point where
  now : Time
  before : Pick
  delivery : Delivery

namespace Point

def tenant (x : Point) : Nat := x.delivery.organizationId

def endpoint (x : Point) : Nat := x.delivery.endpointId

def tenantCursor (x : Point) : Option Nat := x.before.tenantCursor

def endpointCursor (organizationId : Nat) (x : Point) : Option Nat :=
  x.before.endpointCursor organizationId

end Point

namespace Pick

variable (s : Settings) (now : Time) (available : Nat)

/-- The selection of one turn, if it made one. -/
def turnLog (p q : Pick) : List Point :=
  (q.selected.drop p.selected.length).map (Point.mk now p)

/-- The selections of one round. -/
def passLog : List Nat → Pick → List Point
  | [], _ => []
  | organizationId :: rest, p =>
    if available ≤ p.selected.length then []
    else if s.tenantInFlightDeliveries ≤ p.tenantCounts organizationId then passLog rest p
    else
      let turn := scanEndpoints s now organizationId (p.endpointOrder organizationId).length p
      turnLog now p turn.1 ++ passLog rest turn.1

/-- The selections of the loop. -/
def loopLog (organizationOrder : List Nat) : Nat → Pick → List Point
  | 0, _ => []
  | fuel + 1, p =>
    if available ≤ p.selected.length then []
    else
      let round := pass s now available organizationOrder p
      passLog s now available organizationOrder p
        ++ (if round.2 then loopLog organizationOrder fuel round.1 else [])

end Pick

/-! ## §2. The cursors thread the selections. -/

/-- From `p` to `q` exactly the deliveries of the log were selected, and each
selection found in the cursors what the one before it had left there. -/
structure Logged (p : Pick) (log : List Point) (q : Pick) : Prop where
  tenants : Threaded Point.tenantCursor Point.tenant p.tenantCursor log q.tenantCursor
  endpoints : ∀ org, Threaded (Point.endpointCursor org) Point.endpoint (p.endpointCursor org)
    (log.filter fun x => decide (x.tenant = org)) (q.endpointCursor org)
  selected : q.selected = p.selected ++ log.map Point.delivery

theorem Logged.refl (p : Pick) : Logged p [] p := ⟨rfl, fun _ => rfl, by simp⟩

theorem Logged.trans (h : Logged p l q) (h' : Logged q l' r) : Logged p (l ++ l') r := by
  refine ⟨h.tenants.append h'.tenants, fun org => ?_, ?_⟩
  · rw [filter_append]
    exact (h.endpoints org).append (h'.endpoints org)
  · rw [h'.selected, h.selected, map_append, append_assoc]

namespace Pick

/-- The log of a turn is empty or the delivery that was taken. -/
theorem turnLog_served (h : q.selected = p.selected ++ [d]) : turnLog now p q = [⟨now, p, d⟩] := by
  unfold turnLog
  rw [h, drop_left]
  rfl

theorem turnLog_idle (h : q.selected = p.selected) : turnLog now p q = [] := by
  unfold turnLog
  rw [h, drop_length]
  rfl

/-- The delivery at the head of a queue is of the queue's tenant and
endpoint. -/
theorem Grouped.head (h : Grouped candidates p) (hhead : (p.grouped org ep).head? = some d) :
    d.organizationId = org ∧ d.endpointId = ep :=
  (h.queued org ep d (mem_of_head? hhead)).2

theorem turn_logged (hp : Grouped candidates p) (h : Turn s now org p r) :
    Logged p (turnLog now p r.1) r.1 := by
  cases h with
  | served _ _ _ d q _ _ _ head selected _ ecursor tcursor others =>
    obtain ⟨rfl, rfl⟩ := hp.head head
    rw [turnLog_served selected]
    refine ⟨⟨rfl, tcursor.symm⟩, fun o => ?_, selected⟩
    by_cases ho : d.organizationId = o
    · subst ho
      rw [filter_eq_self.mpr (by simp [Point.tenant])]
      exact ⟨rfl, ecursor.symm⟩
    · have hnone : [Point.mk now p d].filter (fun x => decide (x.tenant = o)) = [] := by
        simp [Point.tenant, ho]
      rw [hnone]
      show p.endpointCursor o = q.endpointCursor o
      unfold endpointCursor
      rw [(others o (Ne.symm ho)).2]
  | idle q _ selected _ tenants globalState =>
    rw [turnLog_idle selected]
    refine ⟨?_, fun o => ?_, ?_⟩
    · show p.tenantCursor = q.tenantCursor
      unfold tenantCursor
      rw [globalState]
    · show p.endpointCursor o = q.endpointCursor o
      unfold endpointCursor
      rw [tenants]
    · rw [selected, map_nil, append_nil]

theorem Moves.grouped (hids : (candidates.map Delivery.id).Nodup)
    (h : Moves s now available p q) (hp : Grouped candidates p) : Grouped candidates q :=
  h.inv (fun p q hp hm => grouped_move hids p q hp hm) hp

theorem turn_moves (hslots : ¬ available ≤ p.selected.length)
    (hcap : ¬ s.tenantInFlightDeliveries ≤ p.tenantCounts org) :
    Moves s now available p (scanEndpoints s now org (p.endpointOrder org).length p).1 :=
  (scanEndpoints_spec (p.endpointOrder org).length (not_le.mp hcap) (not_le.mp hslots)).1

theorem pass_logged (hids : (candidates.map Delivery.id).Nodup) (orgs : List Nat) :
    ∀ p : Pick, Grouped candidates p →
      Logged p (passLog s now available orgs p) (pass s now available orgs p).1 := by
  induction orgs with
  | nil => exact fun p _ => Logged.refl p
  | cons org _ ih =>
    intro p hp
    unfold pass passLog
    split
    · exact Logged.refl p
    next hslots =>
      split
      · exact ih p hp
      next hcap =>
        exact (turn_logged hp (scanEndpoints_turn s now org p)).trans
          (ih _ ((turn_moves hslots hcap).grouped hids hp))

theorem loop_logged (hids : (candidates.map Delivery.id).Nodup) (orgs : List Nat) (fuel : Nat) :
    ∀ p : Pick, Grouped candidates p →
      Logged p (loopLog s now available orgs fuel p) (selectLoop s now available orgs fuel p) := by
  induction fuel with
  | zero => exact fun p _ => Logged.refl p
  | succ _ ih =>
    intro p hp
    have hround : Logged p (passLog s now available orgs p) (pass s now available orgs p).1 :=
      pass_logged hids orgs p hp
    unfold selectLoop loopLog
    dsimp only
    split
    · exact Logged.refl p
    split
    · exact hround.trans (ih _ ((pass_spec orgs p).1.grouped hids hp))
    rw [append_nil]
    exact hround

/-- The turn that a selection point records: its working state is reached
from `p`, and what the turn leaves leads to `q`. -/
structure TurnAt (s : Settings) (now : Time) (available : Nat) (p q : Pick) (x : Point) : Prop where
  before : Moves s now available p x.before
  turn : ∃ org r, Turn s now org x.before r ∧ x ∈ turnLog now x.before r.1
    ∧ Moves s now available x.before r.1 ∧ Moves s now available r.1 q

theorem TurnAt.now_eq (h : TurnAt s now available p q x) : x.now = now := by
  obtain ⟨org, r, -, hx, -⟩ := h.turn
  obtain ⟨d, -, hpoint⟩ := mem_map.mp hx
  rw [← hpoint]

theorem pass_turns (orgs : List Nat) : ∀ p : Pick, ∀ x ∈ passLog s now available orgs p,
      TurnAt s now available p (pass s now available orgs p).1 x := by
  induction orgs with
  | nil => exact fun p x hx => absurd hx not_mem_nil
  | cons org orgs ih =>
    intro p x hx
    unfold passLog at hx
    unfold pass
    split at hx
    · cases hx
    next hslots =>
      rw [if_neg hslots]
      split at hx
      next hcap =>
        rw [if_pos hcap]
        exact ih p x hx
      next hcap =>
        rw [if_neg hcap]
        have hmoves : Moves s now available p _ := turn_moves hslots hcap
        rcases mem_append.mp hx with hturn | hlater
        · obtain ⟨d, hd, rfl⟩ := mem_map.mp hturn
          exact ⟨.refl, org, _, scanEndpoints_turn s now org p, hturn, hmoves, (pass_spec orgs _).1⟩
        · obtain ⟨hbefore, hturn⟩ := ih _ x hlater
          exact ⟨hmoves.trans hbefore, hturn⟩

/-- **Every selection point of the loop is that of a turn.** -/
theorem loop_turns (orgs : List Nat) (fuel : Nat) :
    ∀ p : Pick, ∀ x ∈ loopLog s now available orgs fuel p,
      TurnAt s now available p (selectLoop s now available orgs fuel p) x := by
  induction fuel with
  | zero => exact fun p x hx => absurd hx not_mem_nil
  | succ fuel ih =>
    intro p x hx
    unfold loopLog at hx
    unfold selectLoop
    dsimp only at hx ⊢
    split at hx
    · cases hx
    next hslots =>
      rw [if_neg hslots]
      rcases mem_append.mp hx with hround | hlater
      · obtain ⟨hbefore, org, r, hturn, hmem, hmoves, hrest⟩ := pass_turns orgs p x hround
        refine ⟨hbefore, org, r, hturn, hmem, hmoves, ?_⟩
        split
        · exact hrest.trans (selectLoop_moves orgs fuel _)
        · exact hrest
      · split at hlater
        next hprogress =>
          rw [if_pos hprogress]
          obtain ⟨hbefore, hturn⟩ := ih _ x hlater
          exact ⟨(pass_spec orgs p).1.trans hbefore, hturn⟩
        next => cases hlater

theorem TurnAt.after (h : TurnAt s now available p q x) : Moves s now available x.before q := by
  obtain ⟨org, r, -, -, hmoves, hrest⟩ := h.turn
  exact hmoves.trans hrest

/-! ## §3. The two carousels. -/

/-- The tenants still to come in this round are `rest`, those who had their
turn are `done`; while `b` is eligible the carousel is aligned with the
scheduler's cursor. -/
structure Ride (s : Settings) (now : Time) (b : Nat) (rest done : List Nat) (p : Pick) : Prop where
  cyclic : Cyclic (rest ++ done)
  aligned : p.Eligible s now b → b ∈ rest ++ done ∧ Aligned b p.tenantCursor (rest ++ done)

/-- The deque of the tenant `org` is aligned with the tenant's cursor while
its endpoint `ep` is ready. -/
structure Deck (s : Settings) (now : Time) (org ep : Nat) (p : Pick) : Prop where
  cyclic : Cyclic (p.endpointOrder org)
  aligned : p.ready s now org ep = true →
    ep ∈ p.endpointOrder org ∧ Aligned ep (p.endpointCursor org) (p.endpointOrder org)

end Pick

/-- While `b` is eligible the tenant selected is behind the cursor on the way
to `b`. -/
def Point.FairTo (s : Settings) (b : Nat) (x : Point) : Prop :=
  x.before.Eligible s x.now b →
    ∀ c, x.tenantCursor = some c → c ≠ b → x.tenant ≠ b → Before b c x.tenant

/-- While the tenant's endpoint `ep` is ready the endpoint selected is behind
the tenant's cursor on the way to `ep`. -/
def Point.FairToEndpoint (s : Settings) (org ep : Nat) (x : Point) : Prop :=
  x.tenant = org → x.before.ready s x.now org ep = true →
    ∀ c, x.endpointCursor org = some c → c ≠ ep → x.endpoint ≠ ep → Before ep c x.endpoint

namespace Pick

/-- One tenant goes from the front to the back. -/
theorem isRotated_visit (org : Nat) (rest done : List Nat) :
    (rest ++ (done ++ [org])) ~r (org :: rest ++ done) := by
  rw [← append_assoc]
  exact (@List.isRotated_append _ [org] (rest ++ done)).symm

/-- Another tenant at the front is passed by. -/
theorem Ride.passed (h : Ride s now b (org :: rest) done p)
    (helig : q.Eligible s now b → p.Eligible s now b) (hcursor : q.tenantCursor = p.tenantCursor)
    (hne : q.Eligible s now b → org ≠ b) : Ride s now b rest (done ++ [org]) q := by
  refine ⟨h.cyclic.rotated (isRotated_visit org rest done), fun hb => ?_⟩
  obtain ⟨hmem, haligned⟩ := h.aligned (helig hb)
  have hin : b ∈ rest ++ done := (mem_cons.mp hmem).resolve_left (Ne.symm (hne hb))
  rw [← append_assoc, hcursor]
  exact ⟨mem_append_left _ hin, haligned.passed hin (hne hb)⟩

theorem Ride.turn (h : Ride s now b (org :: rest) done p) (hp : Grouped candidates p)
    (ht : Turn s now org p r) (hmoves : Moves s now available p r.1) :
    Ride s now b rest (done ++ [org]) r.1 ∧ ∀ x ∈ turnLog now p r.1, x.FairTo s b := by
  cases ht with
  | idle q passed selected _ _ globalState =>
    rw [turnLog_idle selected]
    have hcursor : q.tenantCursor = p.tenantCursor := by
      unfold tenantCursor
      rw [globalState]
    refine ⟨h.passed (eligible_moves hmoves) hcursor ?_, by simp⟩
    -- an eligible tenant would have been served
    rintro hb rfl
    obtain ⟨-, ep, hep, hready⟩ := eligible_moves hmoves hb
    rw [passed ep hep] at hready
    cases hready
  | served _ _ _ d _ _ _ _ head selected _ _ tcursor =>
    obtain ⟨rfl, rfl⟩ := hp.head head
    rw [turnLog_served selected]
    constructor
    · refine ⟨h.cyclic.rotated (isRotated_visit _ rest done), fun hb => ?_⟩
      obtain ⟨hmem, -⟩ := h.aligned (eligible_moves hmoves hb)
      unfold tenantCursor
      rw [tcursor]
      by_cases hne : d.organizationId = b
      · subst hne
        exact ⟨by simp, aligned_self _ _⟩
      · have hin : b ∈ rest ++ done := (mem_cons.mp hmem).resolve_left (Ne.symm hne)
        refine ⟨?_, ?_⟩
        · rw [← append_assoc]
          exact mem_append_left _ hin
        · rw [← append_assoc]
          exact Cyclic.aligned (u := []) h.cyclic not_mem_nil hin hne
    · intro x hx hb c hc hcb hxb
      rw [mem_singleton.mp hx] at hb hc hxb ⊢
      obtain ⟨-, haligned⟩ := h.aligned hb
      have hcursor : p.tenantCursor = some c := hc
      rw [hcursor] at haligned
      exact haligned.before (u := []) not_mem_nil hcb hxb

theorem Deck.turn (h : Deck s now o ep p) (hp : Grouped candidates p) (ht : Turn s now org p r)
    (hmoves : Moves s now available p r.1) :
    Deck s now o ep r.1 ∧ ∀ x ∈ turnLog now p r.1, x.FairToEndpoint s o ep := by
  cases ht with
  | idle q _ selected deque tenants =>
    rw [turnLog_idle selected]
    refine ⟨⟨?_, fun hr => ?_⟩, by simp⟩
    · rw [deque]
      exact h.cyclic
    · show ep ∈ q.endpointOrder o ∧ Aligned ep (q.tenantStates o).endpointCursorId _
      rw [deque, tenants]
      exact h.aligned (ready_moves hmoves hr)
  | served skipped rest _ d q order passed ready head selected deque ecursor _ others =>
    obtain ⟨rfl, rfl⟩ := hp.head head
    rw [turnLog_served selected]
    by_cases ho : o = d.organizationId
    · subst ho
      -- a ready endpoint has not been passed by
      have hskipped : p.ready s now d.organizationId ep = true → ep ∉ skipped := by
        intro hr hmem
        rw [passed ep hmem] at hr
        cases hr
      constructor
      · have hcyclic := h.cyclic
        rw [order] at hcyclic
        refine ⟨?_, fun hr => ?_⟩
        · rw [deque]
          refine hcyclic.rotated ?_
          rw [← append_assoc, append_cons skipped, append_assoc]
          exact isRotated_append
        · have hr := ready_moves hmoves hr
          obtain ⟨hmem, -⟩ := h.aligned hr
          rw [order] at hmem
          unfold endpointCursor
          rw [ecursor, deque]
          by_cases hne : d.endpointId = ep
          · subst hne
            exact ⟨by simp, aligned_self _ _⟩
          · have hin : ep ∈ rest := by
              rcases mem_append.mp hmem with hmem | hmem
              · exact absurd hmem (hskipped hr)
              · exact (mem_cons.mp hmem).resolve_left (Ne.symm hne)
            exact ⟨mem_append_left _ hin, hcyclic.aligned (hskipped hr) hin hne⟩
      · intro x hx _ hr c hc hcep hxep
        rw [mem_singleton.mp hx] at hr hc hxep ⊢
        obtain ⟨-, haligned⟩ := h.aligned hr
        have hcursor : p.endpointCursor d.organizationId = some c := hc
        rw [order, hcursor] at haligned
        exact haligned.before (hskipped hr) hcep hxep
    · -- another tenant's turn
      obtain ⟨hdeque, htenant⟩ := others o ho
      constructor
      · refine ⟨?_, fun hr => ?_⟩
        · rw [hdeque]
          exact h.cyclic
        · show ep ∈ q.endpointOrder o ∧ Aligned ep (q.tenantStates o).endpointCursorId _
          rw [hdeque, htenant]
          exact h.aligned (ready_moves hmoves hr)
      · intro x hx htenant
        rw [mem_singleton.mp hx] at htenant
        exact absurd htenant.symm ho

/-- What the loop keeps for the tenant `b` and its endpoint `ep`. -/
structure Riding (s : Settings) (now : Time) (candidates : List Delivery) (b ep : Nat)
    (rest done : List Nat) (p : Pick) : Prop where
  grouped : Grouped candidates p
  ride : Ride s now b rest done p
  deck : Deck s now b ep p

/-- A round is fair at each of its points; if slots are left at its end, the
carousels are aligned for the next one. -/
theorem pass_fair (available : Nat) (hids : (candidates.map Delivery.id).Nodup) (rest : List Nat) :
    ∀ (done : List Nat) (p : Pick), Riding s now candidates b ep rest done p →
      (∀ x ∈ passLog s now available rest p, x.FairTo s b ∧ x.FairToEndpoint s b ep)
        ∧ (available ≤ (pass s now available rest p).1.selected.length
          ∨ Riding s now candidates b ep [] (done ++ rest) (pass s now available rest p).1) := by
  induction rest with
  | nil =>
    intro done p h
    refine ⟨by simp [passLog], Or.inr ?_⟩
    rw [append_nil]
    exact h
  | cons org rest ih =>
    intro done p h
    unfold pass passLog
    split
    next hfull => exact ⟨by simp, Or.inl hfull⟩
    next hslots =>
      split
      next hcap =>
        -- over its cap: passed by, and not eligible
        have hride : Ride s now b rest (done ++ [org]) p := by
          refine h.ride.passed (fun hb => hb) rfl ?_
          rintro hb rfl
          exact absurd hb.1 (not_lt.mpr hcap)
        have hnext := ih (done ++ [org]) p ⟨h.grouped, hride, h.deck⟩
        rw [append_assoc] at hnext
        exact hnext
      next hcap =>
        have hmoves : Moves s now available p
            (scanEndpoints s now org (p.endpointOrder org).length p).1 := turn_moves hslots hcap
        have hturn := scanEndpoints_turn s now org p
        obtain ⟨hride, hfair⟩ := h.ride.turn h.grouped hturn hmoves
        obtain ⟨hdeck, hfair'⟩ := h.deck.turn h.grouped hturn hmoves
        have hnext := ih (done ++ [org]) _ ⟨hmoves.grouped hids h.grouped, hride, hdeck⟩
        rw [append_assoc] at hnext
        refine ⟨fun x hx => ?_, hnext.2⟩
        rcases mem_append.mp hx with hx | hx
        · exact ⟨hfair x hx, hfair' x hx⟩
        · exact hnext.1 x hx

/-- **Every selection point of the loop is fair.** -/
theorem loop_fair (hids : (candidates.map Delivery.id).Nodup) (fuel : Nat) :
    ∀ p : Pick, Riding s now candidates b ep orgs [] p →
      ∀ x ∈ loopLog s now available orgs fuel p, x.FairTo s b ∧ x.FairToEndpoint s b ep := by
  induction fuel with
  | zero => exact fun p _ x hx => absurd hx (by simp [loopLog])
  | succ fuel ih =>
    intro p h x hx
    unfold loopLog at hx
    dsimp only at hx
    split at hx
    · cases hx
    obtain ⟨hround, hend⟩ := pass_fair available hids orgs [] p h
    rcases mem_append.mp hx with hx | hx
    · exact hround x hx
    · split at hx
      · rcases hend with hfull | hnext
        · -- no slot is left: the next round selects nothing
          cases fuel with
          | zero => exact absurd hx (by simp [loopLog])
          | succ =>
            unfold loopLog at hx
            rw [if_pos hfull] at hx
            cases hx
        · refine ih _ ⟨hnext.grouped, ?_, hnext.deck⟩ x hx
          exact ⟨by simpa using hnext.ride.cyclic, by simpa using hnext.ride.aligned⟩
      · cases hx

end Pick

/-! ## §4. Where a call starts. -/

theorem sortedSet_pairwise (values : List Nat) : (sortedSet values).Pairwise (· < ·) := by
  have hsorted : (sortedSet values).Pairwise (· ≤ ·) := pairwise_insertionSort _ _
  have hnodup : (sortedSet values).Nodup :=
    (sortedSet_perm values).nodup_iff.mpr (nodup_dedup values)
  exact (hsorted.and hnodup).imp fun h => lt_of_le_of_ne h.1 h.2

variable {values : List Nat}

theorem rotateAfter_cyclic (h : values.Pairwise (· < ·))
    (cursor : Option Nat) : Cyclic (rotateAfter values cursor) := by
  refine ⟨values, h, ?_⟩
  cases cursor with
  | none => exact List.IsRotated.refl values
  | some c =>
    have hsplit := @List.isRotated_append _ (values.dropWhile fun v => decide (v ≤ c))
      (values.takeWhile fun v => decide (v ≤ c))
    rw [takeWhile_append_dropWhile] at hsplit
    exact hsplit

/-- In an increasing list everything behind the first value greater than the
cursor is greater than it. -/
theorem lt_of_mem_dropWhile (h : values.Pairwise (· < ·)) :
    ∀ v ∈ values.dropWhile (fun v => decide (v ≤ c)), c < v := by
  induction values with
  | nil => simp
  | cons a _ ih =>
    intro v hv
    rw [pairwise_cons] at h
    by_cases ha : a ≤ c
    · rw [dropWhile_cons, if_pos (decide_eq_true ha)] at hv
      exact ih h.2 v hv
    · rw [dropWhile_cons, if_neg (by simpa using ha)] at hv
      rcases mem_cons.mp hv with rfl | hv
      · exact not_le.mp ha
      · exact (not_le.mp ha).trans (h.1 v hv)

/-- **`rotate_after` starts a ride right after the cursor.** -/
theorem rotateAfter_aligned (h : values.Pairwise (· < ·)) (hb : b ∈ rotateAfter values cursor) :
    Aligned b cursor (rotateAfter values cursor) := by
  cases cursor with
  | none => exact fun x hx => absurd hx (by simp)
  | some =>
    refine Aligned.start ?_ ?_ (lt_of_mem_dropWhile h) hb
    · rw [takeWhile_append_dropWhile]
      exact h
    · intro v hv
      have hle := mem_takeWhile_imp hv
      exact of_decide_eq_true hle

/-- The working state of a call is aligned with the cursors it has read. -/
theorem Reads.start_riding (s : Settings) (now : Time) (r : Reads)
    (hids : (r.candidates.map Delivery.id).Nodup) (b ep : Nat) :
    Pick.Riding s now r.candidates b ep r.organizationOrder [] (r.start s now) := by
  refine ⟨r.start_grouped s now hids, ⟨?_, fun helig => ?_⟩, ⟨?_, fun hready => ?_⟩⟩
  · rw [append_nil]
    exact rotateAfter_cyclic (sortedSet_pairwise _) _
  · -- an eligible tenant has an endpoint in its deque, and so a candidate
    obtain ⟨-, e, he, -⟩ := helig
    obtain ⟨d, hd, -⟩ := mem_map.mp (rotateAfter_sortedSet_mem.mp he)
    obtain ⟨hcandidate, horg⟩ := mem_filter.mp hd
    have hb : b ∈ r.organizationOrder := rotateAfter_sortedSet_mem.mpr
      (mem_map.mpr ⟨d, hcandidate, of_decide_eq_true horg⟩)
    rw [append_nil]
    exact ⟨hb, rotateAfter_aligned (sortedSet_pairwise _) hb⟩
  · exact rotateAfter_cyclic (sortedSet_pairwise _) _
  · obtain ⟨d, hhead, -⟩ := Pick.ready_iff.mp hready
    obtain ⟨hcandidate, horg, hep⟩ :=
      (r.start_grouped s now hids).queued b ep d (mem_of_head? hhead)
    have hmem : ep ∈ r.endpointOrder b := rotateAfter_sortedSet_mem.mpr
      (mem_map.mpr ⟨d, mem_filter.mpr ⟨hcandidate, decide_eq_true horg⟩, hep⟩)
    exact ⟨hmem, rotateAfter_aligned (sortedSet_pairwise _) hmem⟩

/-! ## §5. Sequences of calls. -/

/-- A call of `select_fair_deliveries`: its time and size, the rows that
others have locked, and the database. -/
structure SelectCall where
  now : Time
  requested : Nat
  locked : List Nat
  db : Db

namespace SelectCall

variable (s : Settings)

def available (c : SelectCall) : Nat := availableSlots s c.now c.requested c.db

def reads (c : SelectCall) : Reads := readsAround s c.now (c.available s) c.locked c.db

/-- The selection points of the call. -/
def log (c : SelectCall) : List Point :=
  if c.available s = 0 ∨ (c.reads s).candidates = [] then []
  else Pick.loopLog s c.now (c.available s) (c.reads s).organizationOrder (c.available s)
    ((c.reads s).start s c.now)

/-- The scheduler's cursor as a database has it. -/
def tenantCursor (db : Db) : Option Nat :=
  db.globalState.bind GlobalControlState.tenantCursorOrganizationId

/-- The endpoint cursor of a tenant as a database has it. -/
def endpointCursor (db : Db) (organizationId : Nat) : Option Nat :=
  (db.tenantStates.find? organizationId).bind TenantQuotaState.endpointCursorId

/-- The database that the call leaves. -/
def after (c : SelectCall) : Db := (selectAround s c.now c.requested c.locked c.db).1

/-- The next call finds the cursors as this one has left them: the
scheduler's, and that of the tenant.  Everything else may have changed. -/
def Follows (organizationId : Nat) (c c' : SelectCall) : Prop :=
  tenantCursor c'.db = tenantCursor (c.after s)
    ∧ endpointCursor c'.db organizationId = endpointCursor (c.after s) organizationId

variable {s}

theorem tenantCursor_ensureGlobalState (now : Time) (db : Db) :
    tenantCursor (ensureGlobalState now db) = tenantCursor db := by
  unfold tenantCursor ensureGlobalState
  cases db.globalState <;> rfl

theorem endpointCursor_tenantState (db : Db) (now : Time) (org : Nat) :
    (tenantState s db now org).endpointCursorId = endpointCursor db org := by
  unfold tenantState endpointCursor
  cases db.tenantStates.find? org <;> rfl

theorem start_tenantCursor (c : SelectCall) :
    ((c.reads s).start s c.now).tenantCursor = tenantCursor c.db := by
  show (globalState c.db c.now).tenantCursorOrganizationId = _
  unfold globalState tenantCursor
  cases c.db.globalState <;> rfl

theorem start_endpointCursor (c : SelectCall) (org : Nat) :
    ((c.reads s).start s c.now).endpointCursor org = endpointCursor c.db org :=
  endpointCursor_tenantState c.db c.now org

theorem reads_nodup (c : SelectCall) : ((c.reads s).candidates.map Delivery.id).Nodup :=
  (readsOf_nodup s c.now (c.available s) c.db).sublist (filter_sublist.map _)

theorem select_eq (c : SelectCall) : selectAround s c.now c.requested c.locked c.db
      = if c.available s = 0 ∨ (c.reads s).candidates = [] then (ensureGlobalState c.now c.db, [])
        else ((c.reads s).store s c.now ((c.reads s).choose s c.now (c.available s))
            (ensureGlobalState c.now c.db),
          ((c.reads s).choose s c.now (c.available s)).selected) := by
  have hreads : readsAround s c.now (c.available s) c.locked (ensureGlobalState c.now c.db)
      = c.reads s := by
    unfold reads readsAround
    rw [readsOf_ensureGlobalState]
  rw [← hreads]
  rfl

/-- The call either selects nothing and moves no cursor, or it is the loop
with its choice stored. -/
theorem after_eq (c : SelectCall) : (c.log s = [] ∧ c.after s = ensureGlobalState c.now c.db
        ∧ (selectAround s c.now c.requested c.locked c.db).2 = [])
      ∨ (c.log s = Pick.loopLog s c.now (c.available s) (c.reads s).organizationOrder
            (c.available s) ((c.reads s).start s c.now)
        ∧ c.after s = (c.reads s).store s c.now ((c.reads s).choose s c.now (c.available s))
            (ensureGlobalState c.now c.db)
        ∧ (selectAround s c.now c.requested c.locked c.db).2
          = ((c.reads s).choose s c.now (c.available s)).selected) := by
  unfold after log
  rw [c.select_eq]
  by_cases hnone : c.available s = 0 ∨ (c.reads s).candidates = []
  · rw [if_pos hnone, if_pos hnone]
    exact Or.inl ⟨rfl, rfl, rfl⟩
  · rw [if_neg hnone, if_neg hnone]
    exact Or.inr ⟨rfl, rfl, rfl⟩

/-- **The log of a call**: the deliveries it returns, threaded by the cursors
from the database it read to the one it leaves. -/
theorem log_threaded (c : SelectCall) :
    Threaded Point.tenantCursor Point.tenant (tenantCursor c.db) (c.log s)
        (tenantCursor (c.after s))
      ∧ (∀ org, Threaded (Point.endpointCursor org) Point.endpoint (endpointCursor c.db org)
          ((c.log s).filter fun x => decide (x.tenant = org)) (endpointCursor (c.after s) org))
      ∧ (c.log s).map Point.delivery = (selectAround s c.now c.requested c.locked c.db).2 := by
  rcases c.after_eq (s := s) with ⟨hlog, hafter, hnone⟩ | ⟨hlog, hafter, hselected⟩
  · rw [hlog, hafter, hnone]
    exact ⟨(tenantCursor_ensureGlobalState c.now c.db).symm, fun org => rfl, rfl⟩
  · have hlogged : Logged ((c.reads s).start s c.now)
        (Pick.loopLog s c.now (c.available s) (c.reads s).organizationOrder (c.available s)
          ((c.reads s).start s c.now)) ((c.reads s).choose s c.now (c.available s)) :=
      Pick.loop_logged c.reads_nodup (c.reads s).organizationOrder (c.available s)
        ((c.reads s).start s c.now) ((c.reads s).start_grouped s c.now c.reads_nodup)
    have hkey : ∀ o, (((c.reads s).choose s c.now (c.available s)).tenantStates o).organizationId
        = o := Reads.choose_tenantKey fun o => tenantState_organizationId c.db c.now o
    rw [hlog, hafter, hselected]
    refine ⟨?_, fun org => ?_, hlogged.selected.symm⟩
    · rw [← start_tenantCursor (s := s)]
      exact hlogged.tenants
    · have hthread := hlogged.endpoints org
      rw [start_endpointCursor] at hthread
      unfold endpointCursor
      rw [Reads.find?_store_tenant hkey]
      split
      · exact hthread
      next hout =>
        -- a tenant without candidates is in no point of the log
        have hempty : (Pick.loopLog s c.now (c.available s) (c.reads s).organizationOrder
            (c.available s) ((c.reads s).start s c.now)).filter
              (fun x => decide (x.tenant = org)) = [] := by
          rw [filter_eq_nil_iff]
          intro x hx htenant
          have hmem : x.delivery ∈ ((c.reads s).choose s c.now (c.available s)).selected := by
            rw [hlogged.selected]
            exact mem_append_right _ (mem_map_of_mem hx)
          have hsubset := (Reads.choose_choice s c.now (c.available s) (c.reads s)
            c.reads_nodup).subset x.delivery hmem
          refine hout ((sortedSet_perm _).mem_iff.mpr (mem_dedup.mpr ?_))
          exact mem_map.mpr ⟨x.delivery, hsubset, of_decide_eq_true htenant⟩
        rw [hempty]
        rfl

/-- Every selection point of a call is fair. -/
theorem log_fair (c : SelectCall) (b ep : Nat) :
    ∀ x ∈ c.log s, x.FairTo s b ∧ x.FairToEndpoint s b ep := by
  intro x hx
  rcases c.after_eq (s := s) with ⟨hlog, -⟩ | ⟨hlog, -⟩
  · rw [hlog] at hx
    cases hx
  · rw [hlog] at hx
    exact Pick.loop_fair c.reads_nodup _ _
      ((c.reads s).start_riding s c.now c.reads_nodup b ep) x hx

/-- The logs of calls that follow one another are one log. -/
theorem logs_threaded (org : Nat) (calls : List SelectCall) :
    ∀ c, (c :: calls).IsChain (Follows s org) →
      (∃ e, Threaded Point.tenantCursor Point.tenant (tenantCursor c.db)
          ((c :: calls).flatMap (log s)) e)
        ∧ ∃ e, Threaded (Point.endpointCursor org) Point.endpoint (endpointCursor c.db org)
          (((c :: calls).flatMap (log s)).filter fun x => decide (x.tenant = org)) e := by
  induction calls with
  | nil =>
    intro c _
    obtain ⟨htenants, hendpoints, -⟩ := c.log_threaded (s := s)
    rw [flatMap_singleton]
    exact ⟨⟨_, htenants⟩, _, hendpoints org⟩
  | cons c' _ ih =>
    intro c hchain
    obtain ⟨hfollows, hrest⟩ := isChain_cons_cons.mp hchain
    obtain ⟨htenants, hendpoints, -⟩ := c.log_threaded (s := s)
    obtain ⟨⟨e, hnext⟩, e', hnext'⟩ := ih c' hrest
    rw [hfollows.1] at hnext
    rw [hfollows.2] at hnext'
    rw [flatMap_cons]
    refine ⟨⟨e, htenants.append hnext⟩, e', ?_⟩
    rw [filter_append]
    exact (hendpoints org).append hnext'

end SelectCall

/-! ## §6. The calls of a run. -/

/-- The cursors that matter to a tenant are the same in both databases. -/
structure SameCursors (organizationId : Nat) (db db' : Db) : Prop where
  tenant : SelectCall.tenantCursor db' = SelectCall.tenantCursor db
  endpoint : SelectCall.endpointCursor db' organizationId
    = SelectCall.endpointCursor db organizationId

theorem SameCursors.trans (h : SameCursors organizationId db db')
    (h' : SameCursors organizationId db' db'') : SameCursors organizationId db db'' :=
  ⟨h'.tenant.trans h.tenant, h'.endpoint.trans h.endpoint⟩

/-- The call of `select_fair_deliveries` that an action makes, if it is
committed. -/
def Action.selectCalls (s : Settings) (d : Deployment) : Action → List SelectCall
  | .op (.claim limit tokens) =>
    if limit ≠ 0 ∧ (claimDue s d.clock limit tokens d.db).isOk = true then
      [⟨d.clock, limit, [], d.db⟩]
    else []
  | _ => []

/-- The calls of a run, in order. -/
def claimCalls (P : Primitives) (s : Settings) : Deployment → List (Time × Action) →
    List SelectCall
  | _, [] => []
  | d, x :: xs =>
    match d.stepAt P s x with
    | none => []
    | some d' => x.2.selectCalls s { d with clock := x.1 } ++ claimCalls P s d' xs

section Run

variable {d d' : Deployment}

/-- A tenant row that is created has no cursor. -/
theorem endpointCursor_ensureTenantState (now : Time) (db : Db) (o : Nat) :
    SelectCall.endpointCursor (ensureTenantState s now db o) org
      = SelectCall.endpointCursor db org := by
  unfold SelectCall.endpointCursor ensureTenantState
  rw [Table.find?_insert]
  cases db.tenantStates.find? org with
  | some => rfl
  | none =>
    rw [Option.none_or]
    split <;> rfl

/-- A charge keeps the cursor of the row that it charges. -/
theorem endpointCursor_charged {now : Time}
    (hkey : tenant.organizationId = (tenantState s db now o).organizationId)
    (hcursor : tenant.endpointCursorId = (tenantState s db now o).endpointCursorId) :
    (((ensureAdmissionState s now o db).tenantStates.put tenant).find? org).bind
        TenantQuotaState.endpointCursorId
      = SelectCall.endpointCursor db org := by
  rw [tenantState_organizationId] at hkey
  rw [SelectCall.endpointCursor_tenantState] at hcursor
  by_cases ho : o = org
  · subst ho
    rw [find?_charged_self hkey]
    exact hcursor
  · rw [find?_charged hkey ho]
    rfl

/-- **Nothing but a claim moves a cursor**, as long as the organization is
there. -/
theorem Effect.cursors (h : Effect P s d a d')
    (hstays : (d'.tenants.organizations.find? org).isSome = true)
    (hother : ∀ limit tokens, a ≠ .op (.claim limit tokens)) : SameCursors org d.db d'.db := by
  cases h with
  | claimed limit tokens => exact absurd rfl (hother limit tokens)
  | ingested _ _ _ _ _ _ _ admitted =>
    obtain ⟨-, -, hcharge⟩ := admitEventLocked_ok admitted
    obtain ⟨hkey, hcursor, -, -⟩ := chargeEvent_ok hcharge
    exact ⟨SelectCall.tenantCursor_ensureGlobalState d.clock d.db,
      endpointCursor_charged hkey hcursor⟩
  | replayed _ _ _ _ _ _ _ _ _ admitted =>
    obtain ⟨count, -, hadmitting⟩ := admitted
    obtain ⟨hkey, hcursor, -, -⟩ := chargeReplays_ok (admitReplaysLocked_ok hadmitting).2
    exact ⟨SelectCall.tenantCursor_ensureGlobalState d.clock d.db,
      endpointCursor_charged hkey hcursor⟩
  | created project =>
    exact ⟨rfl, endpointCursor_ensureTenantState d.clock d.db project.organizationId⟩
  | edited _ _ _ _ _ _ ensured =>
    rcases ensured with rfl | ⟨o, rfl⟩
    · exact ⟨rfl, rfl⟩
    · exact ⟨rfl, endpointCursor_ensureTenantState d.clock d.db o⟩
  | cleaned operation _ _ cleanup =>
    cases cleanup with
    | removed =>
      -- the organization that goes is another one
      obtain ⟨o, ho⟩ := Option.isSome_iff_exists.mp hstays
      obtain ⟨hmem, rfl⟩ := Table.find?_eq_some.mp ho
      have hne : o.id ≠ operation.organizationId := of_decide_eq_false (Table.mem_delete.mp hmem).2
      refine ⟨rfl, ?_⟩
      unfold SelectCall.endpointCursor deleteOrganization
      rw [Table.find?_delete fun t _ ht => decide_eq_false (ht.trans_ne hne)]
    | _ => exact ⟨rfl, rfl⟩
  | _ => exact ⟨rfl, rfl⟩

/-- A claim that selects leaves the cursors as the selection has left them;
any other claim leaves the database. -/
theorem claim_cursors (org : Nat) (w : World) (limit : Nat) (tokens : List Uuid) :
    if limit ≠ 0 ∧ (claimDue s w.clock limit tokens w.db).isOk = true then
      SameCursors org (SelectCall.after s ⟨w.clock, limit, [], w.db⟩) (w.claim s limit tokens).db
    else (w.claim s limit tokens).db = w.db := by
  unfold World.claim SelectCall.after
  rw [selectAround_nil]
  cases hr : claimDue s w.clock limit tokens w.db with
  | error => rw [if_neg fun h => Bool.false_ne_true h.2]
  | ok =>
    unfold claimDue at hr
    by_cases hzero : limit = 0
    · rw [if_pos hzero] at hr
      cases hr
      rw [if_neg fun h => h.1 hzero]
    · rw [if_neg hzero] at hr
      dsimp only at hr
      rw [if_pos ⟨hzero, rfl⟩]
      split at hr
      · cases hr
      cases hr
      exact ⟨rfl, rfl⟩

/-- A step makes no call and moves no cursor, or leaves the cursors as its
call has left them. -/
theorem selectCalls_cursors {x : Time × Action} (h : d.stepAt P s x = some d')
    (hstays : (d'.tenants.organizations.find? org).isSome = true) :
    (x.2.selectCalls s { d with clock := x.1 } = [] ∧ SameCursors org d.db d'.db)
      ∨ ∃ c : SelectCall, x.2.selectCalls s { d with clock := x.1 } = [c] ∧ c.db = d.db
        ∧ SameCursors org (c.after s) d'.db := by
  obtain ⟨now, a⟩ := x
  by_cases hclaim : ∃ limit tokens, a = .op (.claim limit tokens)
  · obtain ⟨limit, tokens, rfl⟩ := hclaim
    unfold Deployment.stepAt Deployment.step at h
    obtain ⟨-, h⟩ := Option.ite_none_right_eq_some.mp h
    obtain ⟨w, hw, rfl⟩ := Option.map_eq_some_iff.mp h
    obtain ⟨-, rfl⟩ := World.of_guard hw
    have hcursors := claim_cursors (s := s) org
      ({ d with clock := now } : Deployment).toWorld limit tokens
    unfold Action.selectCalls
    dsimp only
    split at hcursors
    next hcall =>
      rw [if_pos hcall]
      exact Or.inr ⟨_, rfl, rfl, hcursors⟩
    next hnone =>
      rw [if_neg hnone]
      refine Or.inl ⟨rfl, ?_⟩
      rw [hcursors]
      exact ⟨rfl, rfl⟩
  · refine Or.inl ⟨?_, ?_⟩
    · unfold Action.selectCalls
      split
      next heq => exact absurd ⟨_, _, heq⟩ hclaim
      · rfl
    · have heffect := Deployment.stepAt_effect h
      exact heffect.cursors hstays fun limit tokens ha => hclaim ⟨limit, tokens, ha⟩

/-- **The calls of a run follow one another**, as long as the organization is
there: the first finds the cursors as the run does, and each of the others
as the one before has left them. -/
theorem claimCalls_chain (org : Nat) (xs : List (Time × Action)) (d : Deployment)
    (hstays : Along (Deployment.stepAt P s)
      (fun _ _ d' => (d'.tenants.organizations.find? org).isSome = true) d xs) :
    (claimCalls P s d xs).IsChain (SelectCall.Follows s org)
      ∧ ∀ c ∈ (claimCalls P s d xs).head?, SameCursors org d.db c.db := by
  induction xs generalizing d with
  | nil => exact ⟨isChain_nil, by simp [claimCalls]⟩
  | cons _ _ ih =>
    unfold claimCalls
    split
    · exact ⟨isChain_nil, by simp⟩
    next d' hstep =>
      obtain ⟨horg, hrest⟩ := hstays d' hstep
      obtain ⟨hchain, hhead⟩ := ih d' hrest
      rcases selectCalls_cursors hstep horg with ⟨hnone, hsame⟩ | ⟨c, hcall, hdb, hafter⟩
      · rw [hnone, nil_append]
        exact ⟨hchain, fun c hc => hsame.trans (hhead c hc)⟩
      · rw [hcall, singleton_append]
        refine ⟨isChain_cons.mpr ⟨fun c' hc' => ?_, hchain⟩, fun c' hc' => ?_⟩
        · have hfollows := hafter.trans (hhead c' hc')
          exact ⟨hfollows.tenant, hfollows.endpoint⟩
        · obtain rfl : c = c' := by simpa using hc'
          rw [hdb]
          exact ⟨rfl, rfl⟩

end Run

/-- **ROUND ROBIN, ACROSS CALLS.**  Take any calls that follow one another,
of any sizes, over any candidates; their points are the deliveries they
return, in order.  In every stretch of the points in which the tenant `org`
is eligible at each point and is not selected, no tenant is selected twice;
and in every stretch of the points of `org` in which its endpoint `ep` is
ready at each point and is not selected, no endpoint is selected twice. -/
theorem round_robin (s : Settings) (org : Nat) (calls : List SelectCall)
    (hchain : calls.IsChain (SelectCall.Follows s org)) :
    (∀ c ∈ calls, (c.log s).map Point.delivery
        = (selectAround s c.now c.requested c.locked c.db).2)
      ∧ (∀ seg : List Point, seg <:+: calls.flatMap (SelectCall.log s) →
        (∀ x ∈ seg, x.before.Eligible s x.now org ∧ x.tenant ≠ org) →
        (seg.map Point.tenant).Nodup)
      ∧ ∀ ep, ∀ seg : List Point,
        seg <:+: (calls.flatMap (SelectCall.log s)).filter (fun x => decide (x.tenant = org)) →
        (∀ x ∈ seg, x.before.ready s x.now org ep = true ∧ x.endpoint ≠ ep) →
        (seg.map Point.endpoint).Nodup := by
  have hfair : ∀ ep, ∀ x ∈ calls.flatMap (SelectCall.log s),
      x.FairTo s org ∧ x.FairToEndpoint s org ep := by
    intro ep x hx
    obtain ⟨c, -, hx⟩ := mem_flatMap.mp hx
    exact c.log_fair org ep x hx
  refine ⟨fun c _ => c.log_threaded.2.2, ?_⟩
  cases calls with
  | nil =>
    refine ⟨fun seg hseg _ => ?_, fun ep seg hseg _ => ?_⟩
    · rw [eq_nil_of_infix_nil hseg]
      exact nodup_nil
    · rw [eq_nil_of_infix_nil hseg]
      exact nodup_nil
  | cons c calls =>
    obtain ⟨⟨e, htenants⟩, e', hendpoints⟩ := SelectCall.logs_threaded org calls c hchain
    constructor
    · intro seg hseg hwaits
      refine htenants.nodup hseg (fun x hx => ?_) fun x hx => (hwaits x hx).2
      exact (hfair 0 x (hseg.subset hx)).1 (hwaits x hx).1
    · intro ep seg hseg hwaits
      refine hendpoints.nodup hseg (fun x hx => ?_) fun x hx => (hwaits x hx).2
      obtain ⟨hmem, htenant⟩ := mem_filter.mp (hseg.subset hx)
      exact (hfair ep x hmem).2 (of_decide_eq_true htenant) (hwaits x hx).1

/-- The endpoint of organization 2. -/
def otherEndpoint : WebhookEndpoint :=
  { smallEndpoint with id := 2, publicId := "endpoint-2", projectId := 2 }

/-- Two deliveries of organization 1, and one of organization 2. -/
def twoTenants : Deployment where
  db := { smallDb with
    projects := smallDb.projects.insert { smallProject with id := 2, organizationId := 2 }
    endpoints := smallDb.endpoints.insert otherEndpoint
    secretVersions := [⟨1, 1, 0, none⟩, ⟨2, 1, 0, none⟩]
    events := smallDb.events.append fun id => { smallEvent with id := id, projectId := 2 }
    deliveries := smallDb.deliveries.appendAll
      [newDelivery 1 1 "delivery-2" smallEndpoint 0, newDelivery 2 2 "delivery-3" otherEndpoint 0] }
  clock := 0
  tenants := { organizations := (Table.empty.insert { id := 1 }).insert { id := 2 } }
  endpointIds := 3

/-- Three claims of one delivery each. -/
def oneByOne : List (Time × Action) :=
  [(1, .op (.claim 1 ["token-1"])), (2, .op (.claim 1 ["token-2"])),
    (3, .op (.claim 1 ["token-3"]))]

/-- The tenants are served in turn, although organization 1 was first in the
queue with both of its deliveries. -/
theorem round_robin_two_tenants :
    ((claimCalls smallPrimitives Settings.defaults twoTenants oneByOne).flatMap
        (SelectCall.log Settings.defaults)).map Point.tenant = [1, 2, 1]
      ∧ ∀ seg : List Point,
        seg <:+: (claimCalls smallPrimitives Settings.defaults twoTenants oneByOne).flatMap
          (SelectCall.log Settings.defaults) →
        (∀ x ∈ seg, x.before.Eligible Settings.defaults x.now 2 ∧ x.tenant ≠ 2) →
        (seg.map Point.tenant).Nodup := by
  have hstays : Along (Deployment.stepAt smallPrimitives Settings.defaults)
      (fun _ _ d' => (d'.tenants.organizations.find? 2).isSome = true) twoTenants oneByOne := by
    decide +kernel
  have hchain := (claimCalls_chain 2 oneByOne twoTenants hstays).1
  exact ⟨by decide +kernel, (round_robin Settings.defaults 2 _ hchain).2.1⟩

end WebhookPlatform
