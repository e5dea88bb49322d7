/-
  WebhookPlatform.Lib.Runs
  **RUNS OF A LABELLED TRANSITION SYSTEM.**

  A system is a partial step function `step : σ → ℓ → Option σ`: in state
  `s` the move `a` is possible and leads to `t` exactly when
  `step s a = some t`.  A run is a list of moves; since the step function
  is executable, so is a run, and a concrete trace is checked by evaluation.

    • `run`   — the state a list of moves leads to,
    • `Along` — a property of EVERY STEP along a run,

  and the two induction rules every safety theorem goes through: an
  invariant that each step keeps holds in the state reached (`run_inv`), and
  what each step does from a state with the invariant holds of every step
  of the run (`along_of_inv`), also when only the steps that meet a side
  condition are allowed.  On a concrete list of moves, what the run ends in
  and what holds along it can be decided: by running them.  `tally` adds up
  what the steps of a run earn; a potential that no step raises by more than
  it earns gives a bound for the whole run (`potential_le`).
-/
import Mathlib.Tactic

namespace Transition

/-! ## §1. Runs. -/

/-- Perform the moves in order; `none` as soon as one of them is impossible. -/
def run {σ ℓ : Type} (step : σ → ℓ → Option σ) : σ → List ℓ → Option σ
  | s, [] => some s
  | s, a :: as => (step s a).bind fun t => run step t as

/-- `good` holds of every step of the run. -/
def Along {σ ℓ : Type} (step : σ → ℓ → Option σ) (good : σ → ℓ → σ → Prop) :
    σ → List ℓ → Prop
  | _, [] => True
  | s, a :: as => ∀ t, step s a = some t → good s a t ∧ Along step good t as

variable {σ ℓ : Type} {step : σ → ℓ → Option σ}

variable {s : σ} {I : σ → Prop}

theorem run_cons {u : σ} {a : ℓ} {as : List ℓ} :
    run step s (a :: as) = some u ↔ ∃ t, step s a = some t ∧ run step t as = some u := by
  show (step s a).bind (fun t => run step t as) = some u ↔ _
  rw [Option.bind_eq_some_iff]

/-- A run splits at every point. -/
theorem run_append {u : σ} {as bs : List ℓ} :
    run step s (as ++ bs) = some u ↔
      ∃ t, run step s as = some t ∧ run step t bs = some u := by
  induction as generalizing s with
  | nil =>
    constructor
    · intro h
      exact ⟨s, rfl, h⟩
    · rintro ⟨t, ht, h⟩
      cases ht
      exact h
  | cons _ _ ih =>
    rw [List.cons_append, run_cons]
    constructor
    · rintro ⟨t, ht, h⟩
      obtain ⟨v, hv, hu⟩ := ih.mp h
      exact ⟨v, run_cons.mpr ⟨t, ht, hv⟩, hu⟩
    · rintro ⟨v, hv, hu⟩
      obtain ⟨t, ht, htv⟩ := run_cons.mp hv
      exact ⟨t, ht, ih.mpr ⟨v, htv, hu⟩⟩

/-! ## §2. Concrete runs. -/

section Decide

variable {α β : Type} {o : Option α}

/-- Whether a computation ends in a value with the property. -/
instance decidableExistsSome {p : α → Prop} [DecidablePred p] :
    Decidable (∃ a, o = some a ∧ p a) :=
  decidable_of_iff (o.any (fun a => decide (p a)) = true) (by
    rw [Option.any_eq_true]
    simp only [decide_eq_true_eq])

instance decidableForallSome {p : α → Prop} [DecidablePred p] :
    Decidable (∀ a, o = some a → p a) :=
  decidable_of_iff (o.all (fun a => decide (p a)) = true) (by
    cases o <;> simp)

/-- The same of two computations, where the second goes on from the value of
the first. -/
instance decidableExistsSomeThen {f : α → Option β} {p : α → β → Prop} [∀ a b, Decidable (p a b)] :
    Decidable (∃ a b, o = some a ∧ f a = some b ∧ p a b) :=
  decidable_of_iff (∃ a, o = some a ∧ ∃ b, f a = some b ∧ p a b) (by
    simp only [exists_and_left])

instance Along.decidable {good : σ → ℓ → σ → Prop} [∀ s a t, Decidable (good s a t)] :
    ∀ (s : σ) (as : List ℓ), Decidable (Along step good s as)
  | _, [] => .isTrue trivial
  | s, a :: as =>
    have : ∀ t, Decidable (Along step good t as) := fun t => Along.decidable t as
    inferInstanceAs (Decidable (∀ t, step s a = some t → good s a t ∧ Along step good t as))

end Decide

/-! ## §3. The induction rules. -/

/-- **What each step does holds along the run.**  From a state with the
invariant, an allowed step keeps it and does what `good` says; then every
run made of allowed steps does what `good` says at each of its steps. -/
theorem along_of_inv {allowed good : σ → ℓ → σ → Prop}
    (hstep : ∀ s a t, I s → step s a = some t → allowed s a t → I t ∧ good s a t) :
    ∀ (as : List ℓ) (s : σ), I s → Along step allowed s as → Along step good s as := by
  intro as
  induction as with
  | nil =>
    intro s _ _
    trivial
  | cons a _ ih =>
    intro s hs hal t ht
    obtain ⟨ha, hrest⟩ := hal t ht
    obtain ⟨hinv, hgood⟩ := hstep s a t hs ht ha
    exact ⟨hgood, ih t hinv hrest⟩

/-- What holds of every move of the list holds along the run. -/
theorem along_of_forall {good : σ → ℓ → σ → Prop} {as : List ℓ}
    (h : ∀ a ∈ as, ∀ s t, good s a t) (s : σ) : Along step good s as := by
  induction as generalizing s with
  | nil => trivial
  | cons a _ ih =>
    intro t _
    exact ⟨h a List.mem_cons_self s t, ih (fun b hb => h b (List.mem_cons_of_mem a hb)) t⟩

/-- **The invariant rule under a side condition**: it holds in the state
that a run of allowed steps reaches. -/
theorem run_inv_of_along {allowed : σ → ℓ → σ → Prop}
    (hstep : ∀ s a t, I s → step s a = some t → allowed s a t → I t) :
    ∀ (as : List ℓ) (s t : σ), I s → Along step allowed s as →
      run step s as = some t → I t := by
  intro as
  induction as with
  | nil =>
    intro s t hs _ h
    cases h
    exact hs
  | cons a _ ih =>
    intro s t hs hal h
    obtain ⟨u, hu, hrun⟩ := run_cons.mp h
    obtain ⟨ha, hrest⟩ := hal u hu
    exact ih u t (hstep s a u hs hu ha) hrest hrun

/-- **The invariant rule**: what holds initially and is kept by every step
holds in the state a run reaches. -/
theorem run_inv (hstep : ∀ s a t, I s → step s a = some t → I t)
    {as : List ℓ} {t : σ} (hs : I s) (h : run step s as = some t) : I t :=
  run_inv_of_along (fun s a t hi ht _ => hstep s a t hi ht) as s t hs
    (along_of_forall (fun _ _ _ _ => trivial) s) h

/-! ## §4. Accounts. -/

section Accounts

variable {M N : Type} [AddCommMonoid M] [AddCommMonoid N]

/-- The sum of what the steps of the run earn. -/
def tally (step : σ → ℓ → Option σ) (earned : σ → ℓ → M) : σ → List ℓ → M
  | _, [] => 0
  | s, a :: as => earned s a + (step s a).elim 0 fun t => tally step earned t as

theorem tally_cons {earned : σ → ℓ → M} {s t : σ} {a : ℓ} (as : List ℓ)
    (h : step s a = some t) :
    tally step earned s (a :: as) = earned s a + tally step earned t as := by
  show earned s a + (step s a).elim 0 (fun t => tally step earned t as) = _
  rw [h]
  rfl

/-- A weighted account is the weighted sum. -/
theorem tally_map (φ : M →+ N) (earned : σ → ℓ → M) (as : List ℓ) (s : σ) :
    tally step (fun s a => φ (earned s a)) s as = φ (tally step earned s as) := by
  induction as generalizing s with
  | nil => exact (map_zero φ).symm
  | cons a _ ih =>
    show φ (earned s a) + (step s a).elim 0 _ = φ (earned s a + (step s a).elim 0 _)
    rw [map_add]
    cases step s a with
    | none => exact congrArg _ (map_zero φ).symm
    | some t => exact congrArg _ (ih t)

/-- Two accounts are added step by step. -/
theorem tally_add (f g : σ → ℓ → M) (as : List ℓ) (s : σ) :
    tally step (fun s a => f s a + g s a) s as = tally step f s as + tally step g s as := by
  induction as generalizing s with
  | nil => exact (add_zero 0).symm
  | cons a _ ih =>
    show f s a + g s a + (step s a).elim 0 _
      = (f s a + (step s a).elim 0 _) + (g s a + (step s a).elim 0 _)
    rw [add_add_add_comm]
    cases step s a with
    | none => exact congrArg _ (add_zero 0).symm
    | some t => exact congrArg _ (ih t)

/-- **The accounting rule**: if every step from a state with the invariant
raises the potential by no more than it earns, a run raises it by no more
than it earns altogether. -/
theorem potential_le [PartialOrder M] [IsOrderedAddMonoid M] {I : σ → Prop} {potential : σ → M}
    {earned : σ → ℓ → M}
    (hstep : ∀ s a t, I s → step s a = some t → I t ∧ potential t ≤ potential s + earned s a) :
    ∀ (as : List ℓ) (s t : σ), I s → run step s as = some t →
      potential t ≤ potential s + tally step earned s as := by
  intro as
  induction as with
  | nil =>
    intro s t _ hrun
    cases hrun
    exact (add_zero (potential s)).symm.le
  | cons a as ih =>
    intro s t hs hrun
    obtain ⟨u, hu, hrest⟩ := run_cons.mp hrun
    obtain ⟨hinv, hone⟩ := hstep s a u hs hu
    rw [tally_cons as hu, ← add_assoc]
    calc potential t ≤ potential u + tally step earned u as := ih u t hinv hrest
      _ ≤ potential s + earned s a + tally step earned u as := by gcongr

end Accounts

end Transition
