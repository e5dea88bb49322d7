/-
  WebhookPlatform.Lib.WaitFor
  **WAIT-FOR GRAPHS**, of the programs of `RowLocks`.

  A transaction whose next statement locks a row waits for every other
  transaction that holds the row; it can move when there is none
  (`exec_none_iff`).  A deadlock is a cycle of such waits.  It is excluded by a
  rank that grows along the waits (`not_deadlocked`), and the rank may depend
  on all that is known of the two transactions.

  `scripts` are programs that are nothing but their locks, row by row:

      wait k   — `FOR UPDATE`
      skip k   — `FOR UPDATE SKIP LOCKED`

  What such a transaction holds stands in its script before what it asks for
  (`before_of_waits`, `held_of_waits`).
-/
import WebhookPlatform.Lib.RowLocks
import Mathlib.Logic.Relation
import Mathlib.Order.WithBot

namespace RowLocks

open Transition List

/-! ## §1. Waits and deadlocks. -/

section WaitFor

variable {D K L C E : Type} (P : Program D K L C E)

namespace Program

/-- Transaction `i` waits for `j`: `j` holds a row that `i` is about to lock. -/
def WaitsFor (s : Sys D K L) (i j : Nat) : Prop :=
  ∃ l want next, s.locals i = some l ∧ P.stmt l = some (.lock want next)
    ∧ ∃ k ∈ want s.db, ∃ h ∈ s.held j, j ≠ i ∧ P.conflict h k = true

/-- Some transaction waits for itself, through others. -/
def Deadlocked (s : Sys D K L) : Prop := ∃ i, Relation.TransGen (P.WaitsFor s) i i

variable {s : Sys D K L}

/-- A transaction that locks cannot move exactly when it waits for another. -/
theorem exec_none_iff {i : Nat} {l : L} {want : D → List K} {next : D → L}
    (hl : s.locals i = some l) (hst : P.stmt l = some (.lock want next)) :
    P.step s (.exec i) = none ↔ ∃ j, P.WaitsFor s i j := by
  have hstep : P.step s (.exec i) = none ↔ ∃ k ∈ want s.db, s.free P.conflict i k = false := by
    simp only [step, hl, hst, Option.bind_some, execStmt]
    split
    next hfree =>
      rw [all_eq_true] at hfree
      constructor
      · intro h
        cases h
      · rintro ⟨k, hk, hnot⟩
        rw [hfree k hk] at hnot
        cases hnot
    next hfree =>
      rw [all_eq_true] at hfree
      push Not at hfree
      constructor
      · intro _
        obtain ⟨k, hk, hnot⟩ := hfree
        exact ⟨k, hk, Bool.eq_false_of_not_eq_true hnot⟩
      · exact fun _ => rfl
  rw [hstep]
  constructor
  · rintro ⟨k, hk, hnot⟩
    obtain ⟨⟨j, h⟩, hmem, hp⟩ := all_eq_false.mp hnot
    simp only [Bool.or_eq_true, beq_iff_eq, Bool.not_eq_true', not_or, Bool.not_eq_false] at hp
    exact ⟨j, l, want, next, hl, hst, k, hk, h, Sys.mem_held.mpr hmem, hp.1, hp.2⟩
  · rintro ⟨j, l', want', next', hl', hst', k, hk, h, hh, hji, hconflict⟩
    cases hl.symm.trans hl'
    cases hst.symm.trans hst'
    refine ⟨k, hk, ?_⟩
    by_contra hfree
    have hnone := Sys.conflict_of_free (Bool.eq_true_of_not_eq_false hfree) hji hh
    rw [hconflict] at hnone
    cases hnone

/-- Along a path of waits that goes on, the rank has grown. -/
theorem rank_lt_of_path {R : Type} [Preorder R] (rank : Nat → R)
    (h : ∀ i j k, P.WaitsFor s i j → P.WaitsFor s j k → rank i < rank j) {i j : Nat}
    (hpath : Relation.TransGen (P.WaitsFor s) i j) :
    ∀ k, P.WaitsFor s j k → rank i < rank j := by
  induction hpath with
  | single hij => exact fun k hjk => h _ _ k hij hjk
  | tail _ hjm ih => exact fun k hmk => lt_trans (ih _ hjm) (h _ _ k hjm hmk)

/-- **A rank that grows along the waits of those who wait excludes deadlocks.** -/
theorem not_deadlocked {R : Type} [Preorder R] (rank : Nat → R)
    (h : ∀ i j k, P.WaitsFor s i j → P.WaitsFor s j k → rank i < rank j) :
    ¬ P.Deadlocked s := by
  rintro ⟨i, hcycle⟩
  obtain ⟨j, hij, -⟩ := Relation.TransGen.head'_iff.mp hcycle
  exact lt_irrefl _ (P.rank_lt_of_path rank h hcycle j hij)

end Program

end WaitFor

/-! ## §2. Scripts. -/

/-- One row lock of a script. -/
inductive Acquire (K : Type) where
  | wait (k : K)
  | skip (k : K)
  deriving Repr, DecidableEq

def Acquire.row {K : Type} : Acquire K → K
  | .wait k | .skip k => k

/-- A transaction with the locks that it has still to take. -/
inductive Scripted (O K : Type) where
  | running (operation : O) (rest : List (Acquire K))
  | returned

variable {O K : Type}

def Scripted.stmt : Scripted O K → Option (Stmt Unit K (Scripted O K))
  | .running _ [] => some (.commit id .returned)
  | .running o (.wait k :: rest) => some (.lock (fun _ => [k]) fun _ => .running o rest)
  | .running o (.skip k :: rest) =>
    some (.lockSkip none (fun _ => [k]) fun _ _ => .running o rest)
  | .returned => none

/-- The program in which each operation takes the locks of its script and
commits; a row has one holder. -/
def scripts [DecidableEq K] (script : O → List (Acquire K)) :
    Program Unit K (Scripted O K) O Empty where
  start d o := some (d, .running o (script o))
  stmt := Scripted.stmt
  env _ e := e.elim
  conflict a b := decide (a = b)

/-- What is held stands in the script before what is left, and every row that
was waited for is held. -/
def Scripted.ok (script : O → List (Acquire K)) (H : List K) : Scripted O K → Prop
  | .running o rest => ∃ done, script o = done ++ rest ∧ (∀ k ∈ H, ∃ a ∈ done, a.row = k)
      ∧ ∀ k, .wait k ∈ done → k ∈ H
  | .returned => True

/-- One more row of the script. -/
theorem Scripted.ok_next {script : O → List (Acquire K)} {H got : List K} {o : O} {a : Acquire K}
    {rest : List (Acquire K)} (h : (Scripted.running o (a :: rest)).ok script H)
    (hgot : ∀ k ∈ got, a.row = k) (hwait : ∀ k, a = .wait k → k ∈ got) :
    (Scripted.running o rest).ok script (H ++ got) := by
  obtain ⟨done, hscript, hheld, hwaited⟩ := h
  refine ⟨done ++ [a], by rw [hscript, append_assoc]; rfl, ?_, ?_⟩
  · intro k hk
    rcases mem_append.mp hk with hk | hk
    · obtain ⟨b, hb, hrow⟩ := hheld k hk
      exact ⟨b, mem_append_left _ hb, hrow⟩
    · exact ⟨a, mem_append_right _ mem_cons_self, hgot k hk⟩
  · intro k hk
    rcases mem_append.mp hk with hk | hk
    · exact mem_append_left _ (hwaited k hk)
    · exact mem_append_right _ (hwait k (mem_singleton.mp hk).symm)

section Scripts

variable [DecidableEq K] (script : O → List (Acquire K))

/-- The outline of a script. -/
def scriptOutline : Outline (scripts script) (fun _ _ _ => True) where
  glob := fun _ => True
  ok := fun _ H l => l.ok script H
  keeps := fun _ _ _ => True
  rely := fun _ _ => True
  conflict_symm := by
    intro a b
    simp [scripts, eq_comm]
  stable := fun _ _ _ _ _ h _ _ => h
  start_ok := by
    intro d o d' l _ h
    cases h
    refine ⟨trivial, ⟨[], rfl, ?_, ?_⟩, trivial, fun _ => trivial⟩
    · intro k hk
      cases hk
    · intro k hk
      cases hk
  env_ok := fun _ e _ _ _ => e.elim
  read_ok := by
    intro d H l next _ _ hst
    cases l with
    | running o rest =>
      cases rest with
      | nil => cases hst
      | cons a => cases a <;> cases hst
    | returned => cases hst
  lock_ok := by
    intro d H l want next _ h hst _
    cases l with
    | running o rest =>
      cases rest with
      | nil => cases hst
      | cons a rest =>
        cases a with
        | wait k =>
          cases hst
          refine Scripted.ok_next h ?_ ?_
          · intro k' hk
            exact (mem_singleton.mp hk).symm
          · intro k' hk
            cases hk
            exact mem_cons_self
        | skip => cases hst
    | returned => cases hst
  skip_ok := by
    intro d H l limit want next got _ h hst hsub _
    cases l with
    | running o rest =>
      cases rest with
      | nil => cases hst
      | cons a rest =>
        cases a with
        | wait => cases hst
        | skip k =>
          cases hst
          refine Scripted.ok_next h ?_ ?_
          · intro k' hk
            exact (mem_singleton.mp (hsub.subset hk)).symm
          · intro k' hk
            cases hk
    | returned => cases hst
  commit_ok := by
    intro d H l write next _ _ hst _
    refine ⟨trivial, ?_, trivial, fun _ _ => trivial⟩
    cases l with
    | running o rest =>
      cases rest with
      | nil =>
        cases hst
        trivial
      | cons a => cases a <;> cases hst
    | returned => cases hst

variable {script} {s : Sys Unit K (Scripted O K)}

theorem scripts_run {ms : List (Move O Empty)}
    (h : run (scripts script).step (Sys.initial ()) ms = some s) :
    (scriptOutline script).Inv s :=
  run_inv (I := (scriptOutline script).Inv)
    (fun _ _ _ hs hstep => (scriptOutline script).inv_step hs hstep fun _ _ _ _ _ _ => trivial)
    ((scriptOutline script).inv_initial trivial) h

/-- Who waits is about to lock a row of the script, and another holds it. -/
theorem scripts_waits_iff {i j : Nat} : (scripts script).WaitsFor s i j ↔
    ∃ o k rest, s.locals i = some (.running o (.wait k :: rest)) ∧ k ∈ s.held j ∧ j ≠ i := by
  constructor
  · rintro ⟨l, want, next, hl, hst, k, hk, h, hh, hji, hconflict⟩
    cases l with
    | running o rest =>
      cases rest with
      | nil => cases hst
      | cons a rest =>
        cases a with
        | wait k' =>
          cases hst
          have hrow : k = k' := mem_singleton.mp hk
          have hheld : h = k := of_decide_eq_true hconflict
          rw [hheld, hrow] at hh
          exact ⟨o, k', rest, hl, hh, hji⟩
        | skip => cases hst
    | returned => cases hst
  · rintro ⟨o, k, rest, hl, hk, hji⟩
    exact ⟨_, _, _, hl, rfl, k, mem_singleton.mpr rfl, k, hk, hji, decide_eq_true rfl⟩

section Waiting

variable (hs : (scriptOutline script).Inv s) {i : Nat} {o : O} {k : K} {rest : List (Acquire K)}
  (hl : s.locals i = some (.running o (.wait k :: rest))) {R : K → K → Prop}
  (hR : (script o).Pairwise fun a b => ∀ k, b = .wait k → R a.row k)

include hs hl hR

/-- What is held comes before what is asked for. -/
theorem before_of_waits {h : K} (hh : h ∈ s.held i) : R h k := by
  obtain ⟨done, hscript, hheld, -⟩ := hs.ok i _ hl
  obtain ⟨a, ha, rfl⟩ := hheld h hh
  rw [hscript, pairwise_append] at hR
  exact hR.2.2 a ha (.wait k) mem_cons_self k rfl

/-- What does not come after what is asked for is held. -/
theorem held_of_waits {g : K} (hg : .wait g ∈ script o) (hne : g ≠ k) (hnot : ¬ R k g) :
    g ∈ s.held i := by
  obtain ⟨done, hscript, -, hwaited⟩ := hs.ok i _ hl
  apply hwaited
  rw [hscript] at hg hR
  rcases mem_append.mp hg with hdone | hleft
  · exact hdone
  · exfalso
    rcases mem_cons.mp hleft with heq | hrest
    · cases heq
      exact hne rfl
    · have hpairs := (pairwise_append.mp hR).2.1
      exact hnot ((pairwise_cons.mp hpairs).1 _ hrest g rfl)

end Waiting

/-- The rank of a transaction that waits. -/
def waitRank {R : Type} (rank : O → K → R) (s : Sys Unit K (Scripted O K)) (i : Nat) : WithBot R :=
  match s.locals i with
  | some (.running o (.wait k :: _)) => ↑(rank o k)
  | _ => ⊥

/-- **The rank rule for scripts**: the rank of an operation and the row that it
asks for. -/
theorem scripts_not_deadlocked {R : Type} [Preorder R] (rank : O → K → R)
    (h : ∀ i j o a rest o' k rest', s.locals i = some (.running o (.wait a :: rest)) →
      s.locals j = some (.running o' (.wait k :: rest')) → a ∈ s.held j → j ≠ i →
      rank o a < rank o' k) : ¬ (scripts script).Deadlocked s := by
  apply (scripts script).not_deadlocked (waitRank rank s)
  intro i j m hij hjm
  obtain ⟨o, a, rest, hi, ha, hji⟩ := scripts_waits_iff.mp hij
  obtain ⟨o', k, rest', hj, -, -⟩ := scripts_waits_iff.mp hjm
  unfold waitRank
  rw [hi, hj]
  exact WithBot.coe_lt_coe.mpr (h i j o a rest o' k rest' hi hj ha hji)

end Scripts

end RowLocks
