/-
  WebhookPlatform.OutboxSafety
  **THE OUTBOX UNDER ANY NUMBER OF RELAYS.**

  Leases run out while batches are sent one message after the other, so
  several relays may hold one row at once.  Whatever they do, and wherever
  they die (`outbox_safe`):

    • a sent row is never changed and never claimed again,
    • no row is both sent and failed,
    • a relay whose lease was superseded changes nothing when it finishes,
    • a row that is neither sent nor failed can be claimed from some moment on,
    • all sends of one row carry the same message.

  `OutboxEffect` says once what a move does; every invariant goes through it.
-/
import WebhookPlatform.Outbox

namespace WebhookPlatform

open Relational RowNumber Transition List

/-! ## §1. What a claim does. -/

section Claims

variable {cfg : RelayConfig} {now : Time} {skipped : List Uuid} {draws : Nat → Uuid} {o : Outbox}

variable {r : OutboxRow}

theorem OutboxRow.due_iff :
    r.due now = true ↔ r.unsettled = true ∧ (∃ t, r.nextAttemptAt = some t ∧ t ≤ now)
      ∧ ∀ t, r.lockedUntil = some t → t ≤ now := by
  unfold OutboxRow.due
  cases hnext : r.nextAttemptAt <;> cases hlocked : r.lockedUntil <;> simp [and_assoc]

theorem Outbox.mem_candidates (h : r ∈ o.candidates cfg now skipped) :
    r ∈ o.rows ∧ r.due now = true := by
  have hrow := (orderBy_perm _ _).mem_iff.mp (mem_of_mem_take h)
  obtain ⟨hmem, hdue⟩ := mem_filter.mp hrow
  exact ⟨hmem, ((Bool.and_eq_true _ _).mp hdue).1⟩

theorem Outbox.picks_rows :
    (o.picks cfg now skipped draws).map Prod.fst = o.candidates cfg now skipped := by
  unfold Outbox.picks
  rw [map_map]
  exact zipIdx_map_fst 0 _

theorem Outbox.mem_picks (h : p ∈ o.picks cfg now skipped draws) :
    p.1 ∈ o.rows ∧ p.1.due now = true := by
  have hrow : p.1 ∈ (o.picks cfg now skipped draws).map Prod.fst := mem_map_of_mem h
  rw [Outbox.picks_rows] at hrow
  exact Outbox.mem_candidates hrow

/-- What a claim returns for a row: the row's own message, under the token
that the row now carries. -/
theorem Outbox.claim_row (cfg : RelayConfig) (now : Time) (skipped : List Uuid)
    (draws : Nat → Uuid) (hr : r ∈ o.rows) :
    (Outbox.claimRow cfg now (o.picks cfg now skipped draws) r = r
        ∧ ∀ m ∈ (o.claim cfg now skipped draws).2, m.id ≠ r.id)
      ∨ ∃ token, Outbox.claimRow cfg now (o.picks cfg now skipped draws) r = r.leased cfg now token
        ∧ r.due now = true ∧ r.message token ∈ (o.claim cfg now skipped draws).2 := by
  unfold Outbox.claimRow
  split
  next p hp =>
    obtain ⟨row, token⟩ := p
    have hmem := mem_of_find?_eq_some hp
    have hid : row.id = r.id := by simpa using List.find?_some hp
    obtain ⟨hrow, hdue⟩ := Outbox.mem_picks hmem
    have heq : row = r := o.eq_of_key_eq hrow hr hid
    subst heq
    exact Or.inr ⟨token, rfl, hdue, mem_map_of_mem hmem⟩
  next hnone =>
    refine Or.inl ⟨rfl, fun m hm hid => ?_⟩
    obtain ⟨p, hp, rfl⟩ := mem_map.mp hm
    exact absurd (decide_eq_true hid) (List.find?_eq_none.mp hnone p hp)

/-- A message is that of a due row. -/
theorem Outbox.mem_claimed (hm : m ∈ (o.claim cfg now skipped draws).2) :
    ∃ r ∈ o.rows, r.due now = true ∧ ∃ token, m = r.message token := by
  obtain ⟨p, hp, rfl⟩ := mem_map.mp hm
  exact ⟨p.1, (Outbox.mem_picks hp).1, (Outbox.mem_picks hp).2, p.2, rfl⟩

theorem Outbox.claimed_nodup : ((o.claim cfg now skipped draws).2.map OutboxMessage.id).Nodup := by
  show (((o.picks cfg now skipped draws).map fun p => p.1.message p.2).map OutboxMessage.id).Nodup
  rw [map_map]
  have hids : ((o.candidates cfg now skipped).map OutboxRow.id).Nodup := by
    unfold Outbox.candidates
    refine List.Nodup.sublist ((take_sublist _ _).map _) ?_
    rw [((orderBy_perm _ _).map OutboxRow.id).nodup_iff]
    exact o.nodup.sublist (filter_sublist.map _)
  rw [← @Outbox.picks_rows cfg now skipped draws o, map_map] at hids
  exact hids

end Claims

/-! ## §2. What a move does. -/

/-- **The effect of a move.** -/
inductive OutboxEffect (cfg : Nat → RelayConfig) (w : OutboxWorld) :
    OutboxMove → OutboxWorld → Prop where
  | enqueued (now : Time) (q : EnqueueCall) (o : Outbox) (mode : EnvelopeMode)
      (rows : o.rows = w.outbox.rows ++ [q.row now mode])
      (new : q.id ∉ w.outbox.rows.map OutboxRow.id) :
      OutboxEffect cfg w (.enqueue now q) { w with outbox := o }
  | claimed (i : Nat) (now : Time) (skipped : List Uuid) (draws : Nat → Uuid)
      (fresh : ∀ m ∈ (w.outbox.claim (cfg i) now skipped draws).2,
        m.leaseToken ∉ w.claims.map OutboxMessage.leaseToken) :
      OutboxEffect cfg w (.claim i now skipped draws)
        { w with
          outbox := (w.outbox.claim (cfg i) now skipped draws).1
          relays := w.at_ i (.working (w.outbox.claim (cfg i) now skipped draws).2)
          claims := w.claims ++ (w.outbox.claim (cfg i) now skipped draws).2 }
  | sent (i : Nat) (m : OutboxMessage) (rest : List OutboxMessage)
      (working : w.relays i = .working (m :: rest)) :
      OutboxEffect cfg w (.send i)
        { w with relays := w.at_ i (.sending m rest), sends := w.sends ++ [m] }
  | finished (i : Nat) (now : Time) (result : SendResult) (jitter : Jitter) (m : OutboxMessage)
      (rest : List OutboxMessage) (c : Outbox.Completion) (sending : w.relays i = .sending m rest)
      (settled : (cfg i).settle now jitter m result = .ok c) :
      OutboxEffect cfg w (.settle i now result jitter)
        { w with outbox := w.outbox.finish now m c, relays := w.at_ i (.working rest) }
  /-- An exception has left `run_once`, or the relay has died. -/
  | left (a : OutboxMove) (i : Nat) : OutboxEffect cfg w a { w with relays := w.at_ i .idle }

theorem OutboxWorld.step_effect (h : w.step cfg a = some w') : OutboxEffect cfg w a w' := by
  cases a with
  | enqueue now q =>
    obtain ⟨o, ho, rfl⟩ := Option.map_eq_some_iff.mp h
    obtain ⟨mode, hrows, hnew⟩ := enqueueOutbox_some ho
    exact OutboxEffect.enqueued now q o mode hrows hnew
  | claim i now skipped draws =>
    obtain ⟨hfresh, h⟩ := Option.ite_none_right_eq_some.mp h
    cases h
    refine OutboxEffect.claimed i now skipped draws fun m hm => ?_
    unfold OutboxWorld.freshTokens at hfresh
    rw [Bool.and_eq_true, Bool.and_eq_true, all_eq_true] at hfresh
    exact of_decide_eq_true (hfresh.2.2 m hm)
  | send i =>
    simp only [OutboxWorld.step] at h
    split at h
    next m rest hworking =>
      cases h
      exact OutboxEffect.sent i m rest hworking
    · cases h
  | settle i now result jitter =>
    simp only [OutboxWorld.step] at h
    split at h
    next m rest hsending =>
      split at h
      · cases h
        exact OutboxEffect.left _ i
      next c hc =>
        cases h
        exact OutboxEffect.finished i now result jitter m rest c hsending hc
    · cases h
  | crash i =>
    cases h
    exact OutboxEffect.left _ i

/-! ## §3. The invariant. -/

/-- A row that is done has no lease, and is done in one way; one that is not
will be due. -/
structure OutboxRow.Sound (r : OutboxRow) : Prop where
  sent : r.sentAt.isSome = true → r.leaseToken = none ∧ r.failedAt = none
  failed : r.failedAt.isSome = true → r.leaseToken = none
  scheduled : r.unsettled = true → r.nextAttemptAt.isSome = true

/-- The message carries the row's content. -/
structure OutboxMessage.Of (m : OutboxMessage) (r : OutboxRow) : Prop where
  id : m.id = r.id
  eventType : m.eventType = r.eventType
  payload : m.payload = r.payload
  idempotencyKey : m.idempotencyKey = r.idempotencyKey
  envelopeMode : m.envelopeMode = r.envelopeMode

/-- Two versions of one row: no transaction assigns what is sent. -/
structure OutboxRow.Same (r r' : OutboxRow) : Prop where
  id : r'.id = r.id
  eventType : r'.eventType = r.eventType
  payload : r'.payload = r.payload
  idempotencyKey : r'.idempotencyKey = r.idempotencyKey
  envelopeMode : r'.envelopeMode = r.envelopeMode

/-- The row was claimed once more after the claim `m`. -/
def Superseded (claims : List OutboxMessage) (m : OutboxMessage) : Prop :=
  ∃ m', [m, m'].Sublist claims ∧ m'.id = m.id

/-- The messages that a relay still has. -/
def Relay.messages : Relay → List OutboxMessage
  | .idle => []
  | .working batch => batch
  | .sending m rest => m :: rest

/-- What holds in every reachable state. -/
structure OutboxWorld.Inv (w : OutboxWorld) : Prop where
  rows : ∀ r ∈ w.outbox.rows, r.Sound
  claimed : ∀ m ∈ w.claims, ∃ r ∈ w.outbox.rows, m.Of r
  held : ∀ i, ∀ m ∈ (w.relays i).messages, m ∈ w.claims
  sends : ∀ m ∈ w.sends, m ∈ w.claims
  /-- The lease of a row is its last claim. -/
  leases : ∀ r ∈ w.outbox.rows, ∀ m ∈ w.claims, m.id = r.id →
    r.leaseToken = some m.leaseToken → ¬ Superseded w.claims m

theorem OutboxRow.Same.refl (r : OutboxRow) : r.Same r := ⟨rfl, rfl, rfl, rfl, rfl⟩

variable {m : OutboxMessage}

theorem OutboxMessage.Of.same (h : m.Of r) (hs : r.Same r') : m.Of r' :=
  ⟨h.id.trans hs.id.symm, h.eventType.trans hs.eventType.symm, h.payload.trans hs.payload.symm,
    h.idempotencyKey.trans hs.idempotencyKey.symm, h.envelopeMode.trans hs.envelopeMode.symm⟩

theorem Outbox.claimRow_same (cfg : RelayConfig) (now : Time) (ps : List (OutboxRow × Uuid))
    (r : OutboxRow) : r.Same (Outbox.claimRow cfg now ps r) := by
  unfold Outbox.claimRow
  split <;> exact ⟨rfl, rfl, rfl, rfl, rfl⟩

theorem Outbox.finishRow_same (now : Time) (m : OutboxMessage) (c : Outbox.Completion)
    (r : OutboxRow) : r.Same (Outbox.finishRow now m c r) := by
  unfold Outbox.finishRow
  split <;> exact ⟨rfl, rfl, rfl, rfl, rfl⟩

/-- A claim of other rows supersedes nothing. -/
theorem Superseded.of_append (h : Superseded (claims ++ new) m) (hnew : ∀ m' ∈ new, m'.id ≠ m.id) :
    Superseded claims m := by
  obtain ⟨m', hsub, hid⟩ := h
  obtain ⟨l₁, l₂, heq, h₁, h₂⟩ := sublist_append_iff.mp hsub
  -- the later claim is not among the new ones, so none of the two is
  have hout : ∀ x ∈ l₂, x ≠ m' := by
    rintro x hx rfl
    exact hnew x (h₂.subset hx) hid
  have hlast : l₂ = [] := by
    rcases eq_nil_or_concat l₂ with hnil | ⟨front, x, rfl⟩
    · exact hnil
    · have hx : x = m' := by
        have := congrArg List.getLast? heq
        simpa using this.symm
      exact absurd hx (hout x (by simp))
  subst hlast
  rw [append_nil] at heq
  exact ⟨m', heq ▸ h₁, hid⟩

/-- A claim that was just made is superseded by none of its batch. -/
theorem not_superseded_new (hout : m ∉ claims) (hnodup : (new.map OutboxMessage.id).Nodup) :
    ¬ Superseded (claims ++ new) m := by
  rintro ⟨m', hsub, hid⟩
  obtain ⟨l₁, l₂, heq, h₁, h₂⟩ := sublist_append_iff.mp hsub
  cases l₁ with
  | nil =>
    rw [nil_append] at heq
    subst heq
    have hpair := hnodup.sublist (h₂.map OutboxMessage.id)
    simp [hid] at hpair
  | cons x =>
    have hx : x = m := by
      have := congrArg List.head? heq
      simpa using this.symm
    subst hx
    exact hout (h₁.subset mem_cons_self)

/-! ## §4. Every move keeps the invariant. -/

section Steps

variable {w w' : OutboxWorld}

variable {r : OutboxRow}

theorem OutboxRow.leased_sound {c : RelayConfig} (h : r.Sound) (hdue : r.due now = true) :
    (r.leased c now token).Sound := by
  have hopen := (OutboxRow.due_iff.mp hdue).1
  have hparts := hopen
  unfold OutboxRow.unsettled at hparts
  rw [Bool.and_eq_true, Option.isNone_iff_eq_none, Option.isNone_iff_eq_none] at hparts
  refine ⟨fun hsent => ?_, fun hfailed => ?_, fun _ => h.scheduled hopen⟩
  · rw [show (r.leased c now token).sentAt = r.sentAt from rfl, hparts.1] at hsent
    exact absurd hsent (by decide)
  · rw [show (r.leased c now token).failedAt = r.failedAt from rfl, hparts.2] at hfailed
    exact absurd hfailed (by decide)

/-- The guard of `_finish` meets rows that are not done. -/
theorem OutboxRow.Sound.open_of_guards (h : r.Sound)
    (hguard : Outbox.guards m r = true) : r.sentAt = none ∧ r.failedAt = none := by
  unfold Outbox.guards at hguard
  rw [Bool.and_eq_true, Bool.and_eq_true, decide_eq_true_eq, decide_eq_true_eq,
    Option.isNone_iff_eq_none] at hguard
  obtain ⟨⟨-, hlease⟩, hsent⟩ := hguard
  refine ⟨hsent, ?_⟩
  cases hfailed : r.failedAt with
  | none => rfl
  | some =>
    have hnone := h.failed (by rw [hfailed]; rfl)
    rw [hlease] at hnone
    cases hnone

theorem Outbox.finishedRow_sound
    (hlawful : c.Lawful) (hsent : r.sentAt = none) (hfailed : r.failedAt = none) :
    (Outbox.finishedRow now c r).Sound := by
  unfold Outbox.finishedRow
  rcases hlawful with ⟨hs, hretry⟩ | ⟨hs, ht, hretry⟩ | ⟨hs, ht, hretry⟩
  · rw [hs, hretry]
    exact ⟨fun _ => ⟨rfl, hfailed⟩, fun _ => rfl, fun hopen => absurd hopen (by
      simp [OutboxRow.unsettled])⟩
  · rw [hs, ht, hretry]
    refine ⟨fun h => absurd h (by simp [hsent]), fun _ => rfl, fun hopen => absurd hopen (by
      simp [OutboxRow.unsettled])⟩
  · rw [hs, ht]
    exact ⟨fun h => absurd h (by simp [hsent]), fun _ => rfl, fun _ => hretry⟩

/-- A finish gives up a lease or leaves it. -/
theorem Outbox.finishRow_lease (h : (Outbox.finishRow now m c r).leaseToken = some token) :
    r.leaseToken = some token := by
  unfold Outbox.finishRow at h
  split at h
  · exact absurd h (by simp [Outbox.finishedRow])
  · exact h

theorem OutboxWorld.held_at (r : Relay) {claims : List OutboxMessage}
    (hw : ∀ j, ∀ m ∈ (w.relays j).messages, m ∈ claims) (hr : ∀ m ∈ r.messages, m ∈ claims)
    (hm : m ∈ (w.at_ i r j).messages) : m ∈ claims := by
  unfold OutboxWorld.at_ at hm
  split at hm
  · exact hr m hm
  · exact hw j m hm

theorem inv_enqueued (hw : w.Inv) {q : EnqueueCall}
    (hrows : o.rows = w.outbox.rows ++ [q.row now mode]) :
    OutboxWorld.Inv { w with outbox := o } := by
  refine ⟨?_, ?_, hw.held, hw.sends, ?_⟩
  · intro r hr
    rw [hrows, mem_append, mem_singleton] at hr
    rcases hr with hr | rfl
    · exact hw.rows r hr
    · exact ⟨fun h => absurd h (by simp [EnqueueCall.row]),
        fun h => absurd h (by simp [EnqueueCall.row]), fun _ => rfl⟩
  · intro m hm
    obtain ⟨r, hr, hof⟩ := hw.claimed m hm
    exact ⟨r, by rw [hrows]; exact mem_append_left _ hr, hof⟩
  · intro r hr m hm hid hlease
    rw [hrows, mem_append, mem_singleton] at hr
    rcases hr with hr | rfl
    · exact hw.leases r hr m hm hid hlease
    · exact absurd hlease (by simp [EnqueueCall.row])

theorem inv_claimed (hw : w.Inv) {c : RelayConfig}
    (hfresh : ∀ m ∈ (w.outbox.claim c now skipped draws).2,
      m.leaseToken ∉ w.claims.map OutboxMessage.leaseToken) :
    OutboxWorld.Inv { w with
      outbox := (w.outbox.claim c now skipped draws).1
      relays := w.at_ i (.working (w.outbox.claim c now skipped draws).2)
      claims := w.claims ++ (w.outbox.claim c now skipped draws).2 } := by
  have hrows : (w.outbox.claim c now skipped draws).1.rows
      = w.outbox.rows.map (Outbox.claimRow c now (w.outbox.picks c now skipped draws)) := rfl
  refine ⟨?_, ?_, ?_, fun m hm => mem_append_left _ (hw.sends m hm), ?_⟩
  · intro r' hr'
    rw [hrows] at hr'
    obtain ⟨r, hr, rfl⟩ := mem_map.mp hr'
    rcases Outbox.claim_row c now skipped draws hr with
      ⟨heq, -⟩ | ⟨token, heq, hdue, -⟩
    · rw [heq]
      exact hw.rows r hr
    · rw [heq]
      exact OutboxRow.leased_sound (hw.rows r hr) hdue
  · intro m hm
    have hof : ∃ r ∈ w.outbox.rows, m.Of r := by
      rcases mem_append.mp hm with hm | hm
      · exact hw.claimed m hm
      · obtain ⟨r, hr, -, token, rfl⟩ := Outbox.mem_claimed hm
        exact ⟨r, hr, ⟨rfl, rfl, rfl, rfl, rfl⟩⟩
    obtain ⟨r, hr, hof⟩ := hof
    exact ⟨_, mem_map_of_mem hr, hof.same (Outbox.claimRow_same _ _ _ r)⟩
  · intro j m hm
    exact OutboxWorld.held_at (.working (w.outbox.claim c now skipped draws).2)
      (fun j m hm => mem_append_left _ (hw.held j m hm))
      (fun m hm => mem_append_right _ hm) hm
  · intro r' hr' m hm hid hlease
    rw [hrows] at hr'
    obtain ⟨r, hr, rfl⟩ := mem_map.mp hr'
    rw [Outbox.claimRow_id] at hid
    rcases Outbox.claim_row c now skipped draws hr with
      ⟨heq, hother⟩ | ⟨token, heq, -, hnew⟩
    · -- the row was left alone: its claims are the old ones
      rw [heq] at hlease
      have hnone : ∀ m' ∈ (w.outbox.claim c now skipped draws).2, m'.id ≠ m.id := by
        intro m' hm'
        rw [hid]
        exact hother m' hm'
      intro hsup
      rcases mem_append.mp hm with hm | hm
      · exact hw.leases r hr m hm hid hlease (hsup.of_append hnone)
      · exact hother m hm hid
    · -- the row has the token of a claim that was just made
      rw [heq] at hlease
      have htoken : token = m.leaseToken := by
        injection hlease
      refine not_superseded_new (fun hold => ?_) Outbox.claimed_nodup
      refine hfresh _ hnew ?_
      show token ∈ _
      rw [htoken]
      exact mem_map_of_mem hold

theorem inv_finished (hw : w.Inv) (hsending : w.relays i = .sending m rest) (hlawful : c.Lawful) :
    OutboxWorld.Inv { w with
      outbox := w.outbox.finish now m c, relays := w.at_ i (.working rest) } := by
  have hrows : (w.outbox.finish now m c).rows = w.outbox.rows.map (Outbox.finishRow now m c) := rfl
  have hrest : ∀ x ∈ rest, x ∈ w.claims := by
    intro x hx
    refine hw.held i x ?_
    rw [hsending]
    exact mem_cons_of_mem m hx
  refine ⟨?_, ?_, fun j x hx => OutboxWorld.held_at (.working rest) hw.held hrest hx, hw.sends, ?_⟩
  · intro r' hr'
    rw [hrows] at hr'
    obtain ⟨r, hr, rfl⟩ := mem_map.mp hr'
    unfold Outbox.finishRow
    split
    next hguard =>
      obtain ⟨hsent, hfailed⟩ := (hw.rows r hr).open_of_guards hguard
      exact Outbox.finishedRow_sound hlawful hsent hfailed
    · exact (hw.rows r hr)
  · intro x hx
    obtain ⟨r, hr, hof⟩ := hw.claimed x hx
    exact ⟨_, mem_map_of_mem hr, hof.same (Outbox.finishRow_same _ _ _ r)⟩
  · intro r' hr' x hx hid hlease
    rw [hrows] at hr'
    obtain ⟨r, hr, rfl⟩ := mem_map.mp hr'
    rw [Outbox.finishRow_id] at hid
    exact hw.leases r hr x hx hid (Outbox.finishRow_lease hlease)

theorem OutboxEffect.inv (h : OutboxEffect cfg w a w') (hw : w.Inv) : w'.Inv := by
  cases h with
  | enqueued _ _ _ _ rows => exact inv_enqueued hw rows
  | claimed _ _ _ _ fresh => exact inv_claimed hw fresh
  | sent i m rest working =>
    have hbatch : ∀ x ∈ m :: rest, x ∈ w.claims := by
      intro x hx
      refine hw.held i x ?_
      rw [working]
      exact hx
    refine ⟨hw.rows, hw.claimed,
      fun j x hx => OutboxWorld.held_at (.sending m rest) hw.held hbatch hx, ?_, hw.leases⟩
    intro x hx
    rcases mem_append.mp hx with hx | hx
    · exact hw.sends x hx
    · rw [mem_singleton.mp hx]
      exact hbatch m mem_cons_self
  | finished _ _ _ _ _ _ _ sending settled =>
    exact inv_finished hw sending (settle_lawful settled).1
  | left =>
    exact ⟨hw.rows, hw.claimed, fun j x hx => OutboxWorld.held_at .idle hw.held
      (fun x hx => absurd hx not_mem_nil) hx, hw.sends, hw.leases⟩

end Steps

/-! ## §5. Every run. -/

/-- **What every move respects.** -/
structure OutboxSafe (w : OutboxWorld) (a : OutboxMove) (w' : OutboxWorld) : Prop where
  /-- A sent row stays as it is, and is not claimed. -/
  sentKept : ∀ r ∈ w.outbox.rows, r.sentAt.isSome = true →
    r ∈ w'.outbox.rows ∧ ∀ m ∈ w'.claims.drop w.claims.length, m.id ≠ r.id
  /-- No row is both sent and failed. -/
  exclusive : ∀ r ∈ w'.outbox.rows, ¬ (r.sentAt.isSome = true ∧ r.failedAt.isSome = true)
  /-- A finish under a superseded lease changes nothing. -/
  superseded : ∀ i now result jitter m rest, a = .settle i now result jitter →
    w.relays i = .sending m rest → Superseded w.claims m → w'.outbox = w.outbox
  /-- A row that is not done can be claimed from some moment on. -/
  claimable : ∀ r ∈ w'.outbox.rows, r.sentAt = none → r.failedAt = none →
    ∃ t, ∀ now, t ≤ now → r.due now = true
  /-- All sends of one row carry the same. -/
  agree : ∀ x ∈ w'.sends, ∀ y ∈ w'.sends, x.id = y.id → x.eventType = y.eventType
    ∧ x.payload = y.payload ∧ x.envelopeMode = y.envelopeMode
    ∧ x.idempotencyKey = y.idempotencyKey

section Runs

variable {w w' : OutboxWorld}

theorem OutboxRow.Sound.claimable {r : OutboxRow} (h : r.Sound) (hsent : r.sentAt = none)
    (hfailed : r.failedAt = none) : ∃ t, ∀ now, t ≤ now → r.due now = true := by
  have hopen : r.unsettled = true := by
    unfold OutboxRow.unsettled
    rw [hsent, hfailed]
    rfl
  obtain ⟨next, hnext⟩ := Option.isSome_iff_exists.mp (h.scheduled hopen)
  refine ⟨max next (r.lockedUntil.getD next), fun now hnow => ?_⟩
  refine OutboxRow.due_iff.mpr ⟨hopen, ⟨next, hnext, (le_max_left _ _).trans hnow⟩, ?_⟩
  intro t ht
  rw [ht] at hnow
  exact (le_max_right _ _).trans hnow

/-- A row that is not due is not claimed. -/
theorem OutboxEffect.sentKept (h : OutboxEffect cfg w a w') (hw : w.Inv) (hr : r ∈ w.outbox.rows)
    (hsent : r.sentAt.isSome = true) :
    r ∈ w'.outbox.rows ∧ ∀ m ∈ w'.claims.drop w.claims.length, m.id ≠ r.id := by
  have hnone : ∀ m ∈ w.claims.drop w.claims.length, m.id ≠ r.id := by
    intro m hm
    rw [drop_length] at hm
    cases hm
  cases h with
  | enqueued _ _ o _ rows =>
    refine ⟨?_, hnone⟩
    show r ∈ o.rows
    rw [rows]
    exact mem_append_left _ hr
  | claimed i now skipped draws =>
    rcases Outbox.claim_row (cfg i) now skipped draws hr with ⟨heq, hother⟩ | ⟨token, -, hdue, -⟩
    · refine ⟨mem_map.mpr ⟨r, hr, heq⟩, fun m hm => ?_⟩
      rw [drop_left] at hm
      exact hother m hm
    · have hopen := (OutboxRow.due_iff.mp hdue).1
      unfold OutboxRow.unsettled at hopen
      rw [Bool.and_eq_true, Option.isNone_iff_eq_none] at hopen
      rw [hopen.1] at hsent
      exact absurd hsent (by decide)
  | sent => exact ⟨hr, hnone⟩
  | finished =>
    refine ⟨mem_map.mpr ⟨r, hr, ?_⟩, hnone⟩
    unfold Outbox.finishRow
    refine if_neg fun hguard => ?_
    rw [((hw.rows r hr).open_of_guards hguard).1] at hsent
    exact absurd hsent (by decide)
  | left => exact ⟨hr, hnone⟩

theorem OutboxEffect.superseded (h : OutboxEffect cfg w a w') (hw : w.Inv) {now : Time}
    (ha : a = .settle i now result jitter) (hsending : w.relays i = .sending m rest)
    (hsup : Superseded w.claims m) : w'.outbox = w.outbox := by
  cases h with
  | finished i' now' _ _ _ _ c sending =>
    injection ha with hi
    subst hi
    rw [hsending] at sending
    injection sending with hm _
    subst hm
    refine Outbox.eq_of_rows ?_
    show w.outbox.rows.map (Outbox.finishRow now' m c) = w.outbox.rows
    refine (map_congr_left fun r hr => ?_).trans (map_id _)
    -- a guarded row would carry the superseded token
    refine if_neg fun hguard => ?_
    unfold Outbox.guards at hguard
    rw [Bool.and_eq_true, Bool.and_eq_true, decide_eq_true_eq, decide_eq_true_eq] at hguard
    have hm : m ∈ w.claims := by
      refine hw.held i' m ?_
      rw [hsending]
      exact mem_cons_self
    exact hw.leases r hr m hm hguard.1.1.symm hguard.1.2 hsup
  | left => rfl
  | _ => cases ha

theorem OutboxWorld.Inv.agree (hw : w.Inv) (hx : x ∈ w.sends)
    (hy : y ∈ w.sends) (hid : x.id = y.id) :
    x.eventType = y.eventType ∧ x.payload = y.payload ∧ x.envelopeMode = y.envelopeMode
      ∧ x.idempotencyKey = y.idempotencyKey := by
  obtain ⟨r, hr, hof⟩ := hw.claimed x (hw.sends x hx)
  obtain ⟨r', hr', hof'⟩ := hw.claimed y (hw.sends y hy)
  have heq : r = r' := w.outbox.eq_of_key_eq hr hr' (hof.id.symm.trans (hid.trans hof'.id))
  subst heq
  exact ⟨hof.eventType.trans hof'.eventType.symm, hof.payload.trans hof'.payload.symm,
    hof.envelopeMode.trans hof'.envelopeMode.symm,
    hof.idempotencyKey.trans hof'.idempotencyKey.symm⟩

theorem OutboxWorld.inv_start : OutboxWorld.start.Inv where
  rows := fun _ h => absurd h not_mem_nil
  claimed := fun _ h => absurd h not_mem_nil
  held := fun _ _ h => absurd h not_mem_nil
  sends := fun _ h => absurd h not_mem_nil
  leases := fun _ h => absurd h not_mem_nil

end Runs

/-- **THE OUTBOX IS SAFE** along every run of any number of relays. -/
theorem outbox_safe (cfg : Nat → RelayConfig) (ms : List OutboxMove) :
    Along (OutboxWorld.step cfg) OutboxSafe OutboxWorld.start ms := by
  refine @along_of_inv _ _ _ OutboxWorld.Inv (fun _ _ _ => True) _ ?_ ms _
    OutboxWorld.inv_start (along_of_forall (fun _ _ _ _ => trivial) _)
  intro w a w' hw hstep _
  have heffect := OutboxWorld.step_effect hstep
  have hw' := heffect.inv hw
  refine ⟨hw', fun r hr hsent => heffect.sentKept hw hr hsent, ?_, ?_, ?_, ?_⟩
  · rintro r hr ⟨hsent, hfailed⟩
    rw [((hw'.rows r hr).sent hsent).2] at hfailed
    exact absurd hfailed (by decide)
  · intro i now result jitter m rest ha hsending hsup
    exact heffect.superseded hw ha hsending hsup
  · exact fun r hr => (hw'.rows r hr).claimable
  · exact fun x hx y hy => hw'.agree hx hy

end WebhookPlatform
