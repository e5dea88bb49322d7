/-
  WebhookPlatform.Lib.RowLocks
  **CONCURRENT TRANSACTIONS UNDER READ COMMITTED WITH ROW LOCKS.**

  Any number of transactions run against one committed database `D`.  Each
  SQL statement is ONE ATOMIC STEP of the transaction that issues it:

      read      — sees the committed rows at that moment, locks nothing
      lock      — `FOR UPDATE`: possible only while no other transaction
                  holds a conflicting lock on a row it wants
      lockSkip  — `FOR UPDATE SKIP LOCKED [LIMIT n]`: takes the (first)
                  rows it wants that no other transaction has locked
      commit    — publishes the transaction's writes and drops its locks

  Locks are held to the commit.  Between two statements of one transaction
  every other transaction, a crash of either, and the environment (the
  passage of time) may move.

  A proof about such a system is an `Outline`: what a transaction knows at
  each of its program points (`ok`), what each lock protects (`keeps`), and
  one obligation per statement.  `Outline.along` is the thread-modular
  rule: the outline's assertions hold in every state of every run, under
  EVERY interleaving, because a lock that a transaction holds keeps the
  commits of all others off what that lock protects.
-/
import WebhookPlatform.Lib.Runs

namespace RowLocks

open Transition List Option

/-! ## §1. Programs and their interleavings. -/

/-- One SQL statement; `next` is the transaction's state after it. -/
inductive Stmt (D K L : Type) where
  | read (next : D → L)
  | lock (want : D → List K) (next : D → L)
  | lockSkip (limit : Option Nat) (want : D → List K) (next : D → List K → L)
  | commit (write : D → D) (next : L)

/-- What a statement does to the committed data: only a commit does anything. -/
def Stmt.write {D K L : Type} : Stmt D K L → D → D
  | .commit write _ => write
  | _ => id

/-- Every state that the statement can lead to satisfies `Q`. -/
def Stmt.Leads {D K L : Type} (Q : L → Prop) : Stmt D K L → Prop
  | .read next => ∀ d, Q (next d)
  | .lock _ next => ∀ d, Q (next d)
  | .lockSkip _ _ next => ∀ d got, Q (next d got)
  | .commit _ next => Q next

/-- Over the data `d` the statement can lead to the state `l`. -/
def Stmt.LeadsTo {D K L : Type} (d : D) (l : L) : Stmt D K L → Prop
  | .read next => l = next d
  | .lock _ next => l = next d
  | .lockSkip _ _ next => ∃ got, l = next d got
  | .commit _ next => l = next

theorem Stmt.Leads.at_data {D K L : Type} {Q : L → Prop} {st : Stmt D K L} {d : D} {l : L}
    (h : st.Leads Q) (hl : st.LeadsTo d l) : Q l := by
  cases st with
  | read | lock => rw [show l = _ from hl]; exact h d
  | lockSkip =>
    obtain ⟨got, rfl⟩ := hl
    exact h d got
  | commit => rw [show l = _ from hl]; exact h

/-- A statement of one part of a system, as a statement of the whole: the
part's data is a component of the data, its locks are some of the locks. -/
def Stmt.embed {D K L D' K' L' : Type} (get : D' → D) (put : D' → D → D') (lock : K → K')
    (unlock : K' → Option K) (state : L → L') : Stmt D K L → Stmt D' K' L'
  | .read next => .read fun d => state (next (get d))
  | .lock want next => .lock (fun d => (want (get d)).map lock) fun d => state (next (get d))
  | .lockSkip limit want next => .lockSkip limit (fun d => (want (get d)).map lock)
      fun d got => state (next (get d) (got.filterMap unlock))
  | .commit write next => .commit (fun d => put d (write (get d))) (state next)

/-- What the transactions run.  A call `c` starts with `start` (which may
refuse it, and may note it in the ghost part of `D`), issues the statements
of `stmt` and has returned when there is none left. -/
structure Program (D K L C E : Type) where
  start : D → C → Option (D × L)
  stmt : L → Option (Stmt D K L)
  env : D → E → Option D
  conflict : K → K → Bool

/-- The committed database, each transaction's state, and the lock table. -/
structure Sys (D K L : Type) where
  db : D
  locals : Nat → Option L
  locks : List (Nat × K)

/-- A move: a call begins, a transaction executes its next statement, a
transaction dies (crash, rollback), or the environment moves. -/
inductive Move (C E : Type) where
  | begin (i : Nat) (c : C)
  | exec (i : Nat)
  | abort (i : Nat)
  | env (e : E)

variable {D K L C E : Type}

namespace Sys

/-- The locks that transaction `i` holds. -/
def held (s : Sys D K L) (i : Nat) : List K :=
  (s.locks.filter fun p => p.1 == i).map Prod.snd

/-- The lock table without the locks of transaction `i`. -/
def unlocked (s : Sys D K L) (i : Nat) : List (Nat × K) :=
  s.locks.filter fun p => !(p.1 == i)

/-- Transaction `i` may take the lock `k`: no other holds a conflicting one. -/
def free (conflict : K → K → Bool) (s : Sys D K L) (i : Nat) (k : K) : Bool :=
  s.locks.all fun p => p.1 == i || !(conflict p.2 k)

/-- The free ones among the wanted locks, up to the limit. -/
def unclaimed (conflict : K → K → Bool) (s : Sys D K L) (i : Nat) (limit : Option Nat)
    (wanted : List K) : List K :=
  match limit with
  | none => wanted.filter (s.free conflict i)
  | some n => (wanted.filter (s.free conflict i)).take n

/-- The state with transaction `i` at `l`. -/
def at_ (s : Sys D K L) (i : Nat) (l : Option L) : Nat → Option L :=
  fun j => if j = i then l else s.locals j

/-- No transaction is open. -/
def initial (d : D) : Sys D K L := ⟨d, fun _ => none, []⟩

end Sys

variable (P : Program D K L C E)

namespace Program

/-- The locks a statement of transaction `i` takes in state `s`. -/
def acquired (s : Sys D K L) (i : Nat) : Stmt D K L → List K
  | .lock want _ => want s.db
  | .lockSkip limit want _ => s.unclaimed P.conflict i limit (want s.db)
  | _ => []

/-- One statement of transaction `i`. -/
def execStmt (s : Sys D K L) (i : Nat) : Stmt D K L → Option (Sys D K L)
  | .read next => some { s with locals := s.at_ i (some (next s.db)) }
  | .lock want next =>
    if (want s.db).all (s.free P.conflict i) then
      some { s with
        locals := s.at_ i (some (next s.db))
        locks := s.locks ++ (want s.db).map fun k => (i, k) }
    else none
  | .lockSkip limit want next =>
    let got := s.unclaimed P.conflict i limit (want s.db)
    some { s with
      locals := s.at_ i (some (next s.db got))
      locks := s.locks ++ got.map fun k => (i, k) }
  | .commit write next =>
    some { db := write s.db, locals := s.at_ i (some next), locks := s.unlocked i }

/-- One move of the system. -/
def step (s : Sys D K L) : Move C E → Option (Sys D K L)
  | .begin i c =>
    match s.locals i with
    | some _ => none
    | none => (P.start s.db c).map fun r => { s with db := r.1, locals := s.at_ i (some r.2) }
  | .exec i => (s.locals i).bind fun l => (P.stmt l).bind (P.execStmt s i)
  | .abort i =>
    (s.locals i).map fun _ => { s with locals := s.at_ i none, locks := s.unlocked i }
  | .env e => (P.env s.db e).map fun d => { s with db := d }

theorem execStmt_db {s t : Sys D K L} {i : Nat} {st : Stmt D K L}
    (h : P.execStmt s i st = some t) : t.db = st.write s.db := by
  cases st with
  | lock =>
    simp only [execStmt] at h
    split at h
    · injection h with h; rw [← h]; rfl
    · cases h
  | read next | lockSkip limit want next | commit write next =>
    injection h with h
    rw [← h]
    rfl

/-- A move of transaction `i` is its next statement. -/
theorem step_exec {s t : Sys D K L} {i : Nat} {l : L} (hl : s.locals i = some l)
    (h : P.step s (.exec i) = some t) :
    ∃ st, P.stmt l = some st ∧ P.execStmt s i st = some t := by
  simp only [step, hl, bind_some] at h
  exact bind_eq_some_iff.mp h

end Program

/-! ## §2. The lock table. -/

namespace Sys

variable {i : Nat}

theorem mem_held {s : Sys D K L} {k : K} : k ∈ s.held i ↔ (i, k) ∈ s.locks := by
  unfold held
  rw [List.mem_map]
  constructor
  · rintro ⟨⟨j, k'⟩, hp, rfl⟩
    obtain ⟨hmem, hj⟩ := List.mem_filter.mp hp
    have hji : j = i := by simpa using hj
    subst hji
    exact hmem
  · intro h
    exact ⟨(i, k), List.mem_filter.mpr ⟨h, by simp⟩, rfl⟩

theorem held_append (s : Sys D K L) (i j : Nat) (ks : List K) (f : Nat → Option L) (d : D) :
    (Sys.mk d f (s.locks ++ ks.map fun k => (i, k))).held j
      = s.held j ++ if j = i then ks else [] := by
  unfold held
  rw [List.filter_append, List.map_append]
  congr 1
  by_cases h : j = i
  · subst h
    rw [if_pos rfl, List.filter_eq_self.mpr (by simp), List.map_map]
    exact List.map_id ks
  · rw [if_neg h, List.filter_eq_nil_iff.mpr]
    · rfl
    · intro p hp
      obtain ⟨k, -, rfl⟩ := List.mem_map.mp hp
      simpa using Ne.symm h

theorem held_unlocked (s : Sys D K L) (i j : Nat) (f : Nat → Option L) (d : D) :
    (Sys.mk d f (s.unlocked i)).held j = if j = i then [] else s.held j := by
  unfold held unlocked
  rw [List.filter_filter]
  split
  next h =>
    subst h
    rw [List.filter_eq_nil_iff.mpr]
    · rfl
    · intro p _
      cases hp : (p.1 == j) <;> simp
  next h =>
    congr 1
    apply List.filter_congr
    intro p _
    by_cases hp : p.1 = j
    · simp [hp, h]
    · simp [hp]

theorem at_self (s : Sys D K L) (i : Nat) (l : Option L) : s.at_ i l i = l := if_pos rfl

theorem at_ne (s : Sys D K L) {j : Nat} (l : Option L) (h : j ≠ i) :
    s.at_ i l j = s.locals j := if_neg h

theorem unclaimed_sublist (conflict : K → K → Bool) (s : Sys D K L) (i : Nat)
    (limit : Option Nat) (wanted : List K) :
    (s.unclaimed conflict i limit wanted).Sublist (wanted.filter (s.free conflict i)) := by
  unfold unclaimed
  split
  · exact List.Sublist.refl _
  · exact take_sublist _ _

/-- Locks of two different transactions never conflict. -/
def Exclusive (conflict : K → K → Bool) (s : Sys D K L) : Prop :=
  ∀ i j h k, i ≠ j → h ∈ s.held i → k ∈ s.held j → conflict h k = false

theorem conflict_of_free {conflict : K → K → Bool} {s : Sys D K L} {j : Nat} {h k : K}
    (hf : s.free conflict i k = true) (hij : j ≠ i) (hh : h ∈ s.held j) :
    conflict h k = false := by
  have := all_eq_true.mp hf (j, h) (mem_held.mp hh)
  simpa [hij] using this

end Sys

namespace Program

variable {i : Nat} {l : L} {s t : Sys D K L}

/-- After a read transaction `i` is where the read takes it. -/
theorem locals_of_read {next : D → L}
    (hl : s.locals i = some l) (hst : P.stmt l = some (.read next))
    (h : P.step s (.exec i) = some t) : t.locals i = some (next s.db) := by
  obtain ⟨st, hst', hexec⟩ := P.step_exec hl h
  have heq : st = .read next := Option.some.inj (hst'.symm.trans hst)
  subst heq
  injection hexec with hexec
  rw [← hexec]
  exact Sys.at_self s i _

theorem locals_of_lock {want : D → List K} {next : D → L}
    (hl : s.locals i = some l) (hst : P.stmt l = some (.lock want next))
    (h : P.step s (.exec i) = some t) : t.locals i = some (next s.db) := by
  obtain ⟨st, hst', hexec⟩ := P.step_exec hl h
  have heq : st = .lock want next := Option.some.inj (hst'.symm.trans hst)
  subst heq
  obtain ⟨-, hexec⟩ := ite_none_right_eq_some.mp hexec
  injection hexec with hexec
  rw [← hexec]
  exact Sys.at_self s i _

/-- A transaction begins under a number that is free. -/
theorem free_of_begin {c : C} (h : P.step s (.begin i c) = some t) : s.locals i = none := by
  simp only [step] at h
  split at h
  · cases h
  next hi => exact hi

/-- Where a statement takes its transaction. -/
theorem locals_of_execStmt {st : Stmt D K L} (h : P.execStmt s i st = some t) :
    ∃ l, st.LeadsTo s.db l ∧ t.locals = s.at_ i (some l) := by
  cases st with
  | lock =>
    obtain ⟨-, h⟩ := ite_none_right_eq_some.mp h
    injection h with h
    exact ⟨_, rfl, by rw [← h]⟩
  | lockSkip =>
    injection h with h
    exact ⟨_, ⟨_, rfl⟩, by rw [← h]⟩
  | read next | commit write next =>
    injection h with h
    exact ⟨_, rfl, by rw [← h]⟩

/-- **How a transaction came to be where it is**: it was there before the move,
it has begun, or it has executed a statement. -/
theorem step_locals {m : Move C E} (h : P.step s m = some t) {j : Nat} (hl : t.locals j = some l) :
    s.locals j = some l ∨ (∃ c d, m = .begin j c ∧ P.start s.db c = some (d, l))
      ∨ ∃ l₀ st, m = .exec j ∧ s.locals j = some l₀ ∧ P.stmt l₀ = some st ∧ st.LeadsTo s.db l := by
  cases m with
  | begin i c =>
    simp only [step] at h
    split at h
    · cases h
    next hi =>
      obtain ⟨⟨d, l'⟩, hstart, rfl⟩ := map_eq_some_iff.mp h
      by_cases hj : j = i
      · subst hj
        injection (Sys.at_self s j (some l')).symm.trans hl with hl
        subst hl
        exact Or.inr (Or.inl ⟨c, d, rfl, hstart⟩)
      · exact Or.inl ((Sys.at_ne s _ hj).symm.trans hl)
  | exec i =>
    obtain ⟨l₀, hl₀, h⟩ := bind_eq_some_iff.mp h
    obtain ⟨st, hst, hexec⟩ := bind_eq_some_iff.mp h
    obtain ⟨l', hlead, hlocals⟩ := P.locals_of_execStmt hexec
    rw [hlocals] at hl
    by_cases hj : j = i
    · subst hj
      injection (Sys.at_self s j (some l')).symm.trans hl with hl
      subst hl
      exact Or.inr (Or.inr ⟨l₀, st, rfl, hl₀, hst, hlead⟩)
    · exact Or.inl ((Sys.at_ne s _ hj).symm.trans hl)
  | abort i =>
    obtain ⟨l₀, -, rfl⟩ := map_eq_some_iff.mp h
    by_cases hj : j = i
    · subst hj
      exact absurd ((Sys.at_self s j none).symm.trans hl) (by simp)
    · exact Or.inl ((Sys.at_ne s _ hj).symm.trans hl)
  | env =>
    obtain ⟨d, -, rfl⟩ := map_eq_some_iff.mp h
    exact Or.inl hl

/-- Where only numbers below `n` are begun, no other is in use. -/
theorem idle_step {m : Move C E} {n : Nat} (h : P.step s m = some t)
    (hidle : ∀ j, n ≤ j → s.locals j = none) (hbegin : ∀ i c, m = .begin i c → i < n) :
    ∀ j, n ≤ j → t.locals j = none := by
  intro j hj
  by_contra hne
  obtain ⟨l, hl⟩ := ne_none_iff_exists'.mp hne
  rcases P.step_locals h hl with hold | ⟨c, d, hm, -⟩ | ⟨l₀, st, -, hold, -⟩
  · rw [hidle j hj] at hold
    cases hold
  · have hlt := hbegin j c hm
    omega
  · rw [hidle j hj] at hold
    cases hold

/-- A side condition on a given run, by evaluation: the check may look at the
numbers below `n`, which are the only ones that the run uses. -/
theorem along_of_check (n : Nat) {check : Sys D K L → Move C E → Bool}
    {good : Sys D K L → Move C E → Sys D K L → Prop}
    (hbegin : ∀ s i c, check s (.begin i c) = true → i < n)
    (hsound : ∀ s m t, (∀ j, n ≤ j → s.locals j = none) → check s m = true → good s m t)
    {d : D} {ms : List (Move C E)}
    (h : Along P.step (fun s m _ => check s m = true) (Sys.initial d) ms) :
    Along P.step good (Sys.initial d) ms := by
  apply along_of_inv (I := fun s => ∀ j, n ≤ j → s.locals j = none) _ ms _ (fun _ _ => rfl) h
  intro s m t hidle hstep hm
  refine ⟨P.idle_step hstep hidle ?_, hsound s m t hidle hm⟩
  rintro i c rfl
  exact hbegin s i c hm

end Program

/-! ## §3. Proof outlines and the thread-modular rule. -/

/-- A proof outline for the program `P`, for runs in which the statement
at `l`, executed over `d` and taking the locks `got`, satisfies
`allow d l got`. -/
structure Outline (allow : D → L → List K → Prop) where
  /-- What holds of the committed data. -/
  glob : D → Prop
  /-- What a transaction that holds the locks `H` knows. -/
  ok : D → List K → L → Prop
  /-- The changes of the committed data that respect a lock. -/
  keeps : K → D → D → Prop
  /-- What every change respects, locks or not. -/
  rely : D → D → Prop
  conflict_symm : ∀ h k, P.conflict h k = P.conflict k h
  /-- Knowledge survives the moves of the others. -/
  stable : ∀ d d' H l, glob d → ok d H l → rely d d' → (∀ k ∈ H, keeps k d d') → ok d' H l
  start_ok : ∀ d c d' l, glob d → P.start d c = some (d', l) →
    glob d' ∧ ok d' [] l ∧ rely d d' ∧ ∀ k, keeps k d d'
  env_ok : ∀ d e d', glob d → P.env d e = some d' →
    glob d' ∧ rely d d' ∧ ∀ k, keeps k d d'
  read_ok : ∀ d H l next, glob d → ok d H l → P.stmt l = some (.read next) →
    allow d l [] → ok d H (next d)
  lock_ok : ∀ d H l want next, glob d → ok d H l → P.stmt l = some (.lock want next) →
    allow d l (want d) → ok d (H ++ want d) (next d)
  skip_ok : ∀ d H l limit want next got, glob d → ok d H l →
    P.stmt l = some (.lockSkip limit want next) → got.Sublist (want d) →
    allow d l got → ok d (H ++ got) (next d got)
  commit_ok : ∀ d H l write next, glob d → ok d H l →
    P.stmt l = some (.commit write next) → allow d l [] →
    glob (write d) ∧ ok (write d) [] next ∧ rely d (write d)
      ∧ ∀ k, (∀ h ∈ H, P.conflict h k = false) → keeps k d (write d)

/-- The side condition of a run: every statement executed is allowed. -/
def Allowed (allow : D → L → List K → Prop) (s : Sys D K L) (m : Move C E)
    (_ : Sys D K L) : Prop :=
  ∀ i l st, m = .exec i → s.locals i = some l → P.stmt l = some st →
    allow s.db l (P.acquired s i st)

instance Allowed.decidable {allow : D → L → List K → Prop} [∀ d l got, Decidable (allow d l got)]
    {s : Sys D K L} {m : Move C E} {t : Sys D K L} : Decidable (Allowed P allow s m t) :=
  match m with
  | .exec i => decidable_of_iff (∀ l, s.locals i = some l → ∀ st, P.stmt l = some st →
      allow s.db l (P.acquired s i st)) (by
    constructor
    · intro h _ l st hm hl hst
      cases hm
      exact h l hl st hst
    · exact fun h l hl st hst => h i l st rfl hl hst)
  | .begin _ _ | .abort _ | .env _ => .isTrue fun _ _ _ hm => by cases hm

namespace Outline

variable {P} {allow : D → L → List K → Prop} (O : Outline P allow)

/-- The assertions of an outline, over the whole system. -/
structure Inv (s : Sys D K L) : Prop where
  glob : O.glob s.db
  ok : ∀ i l, s.locals i = some l → O.ok s.db (s.held i) l
  idle : ∀ i, s.locals i = none → s.held i = []
  exclusive : s.Exclusive P.conflict

variable {d : D} {s t : Sys D K L}

/-- Before any transaction has begun only the data has to be right. -/
theorem inv_initial (h : O.glob d) : O.Inv (Sys.initial d) where
  glob := h
  ok := by
    intro i l hl
    exact absurd hl (by simp [Sys.initial])
  idle := fun _ _ => rfl
  exclusive := by
    intro i j h k _ hh _
    exact absurd (Sys.mem_held.mp hh) (by simp [Sys.initial])

/-- Taking locks: the taker's knowledge is re-established by the statement,
everyone else's is untouched, and exclusivity survives because only free
rows were taken. -/
theorem inv_acquire (hs : O.Inv s) (i : Nat) (l : L) (got : List K)
    (hfree : ∀ k ∈ got, s.free P.conflict i k = true)
    (hok : O.ok s.db (s.held i ++ got) l) :
    O.Inv { s with locals := s.at_ i (some l), locks := s.locks ++ got.map fun k => (i, k) } where
  glob := hs.glob
  ok := by
    intro j m hm
    show O.ok s.db (Sys.held _ j) m
    rw [Sys.held_append]
    -- the taker knows what the statement gave it, the others what they knew
    by_cases h : j = i
    · subst h
      have hlm : some l = some m := (Sys.at_self s j _).symm.trans hm
      cases hlm
      rw [if_pos rfl]
      exact hok
    · rw [if_neg h, append_nil]
      exact hs.ok j m ((Sys.at_ne s _ h).symm.trans hm)
  idle := by
    intro j hj
    rw [Sys.held_append]
    by_cases h : j = i
    · subst h
      exact absurd hj (by simp [Sys.at_self])
    · rw [if_neg h, hs.idle j ((Sys.at_ne s _ h).symm.trans hj)]
      rfl
  exclusive := by
    intro a b h k hab hh hk
    rw [Sys.held_append, mem_append] at hh hk
    -- a lock taken now belongs to `i`; it was free, so it conflicts with no other's
    have hnew : ∀ (c : Nat) (x : K), x ∈ (if c = i then got else []) → c = i ∧ x ∈ got := by
      intro c x hx
      by_cases hc : c = i
      · exact ⟨hc, by simpa [hc] using hx⟩
      · exact absurd hx (by simp [hc])
    rcases hh with hh | hh <;> rcases hk with hk | hk
    · exact hs.exclusive a b h k hab hh hk
    · obtain ⟨rfl, hg⟩ := hnew b k hk
      exact Sys.conflict_of_free (hfree k hg) hab hh
    · obtain ⟨rfl, hg⟩ := hnew a h hh
      rw [O.conflict_symm]
      exact Sys.conflict_of_free (hfree h hg) hab.symm hk
    · exact absurd ((hnew a h hh).1.trans (hnew b k hk).1.symm) hab

/-- A change of the data that respects everyone else's locks keeps their
knowledge. -/
theorem ok_of_keeps (hs : O.Inv s) {j : Nat} {m : L} (hm : s.locals j = some m) (hr : O.rely s.db d)
    (hk : ∀ k ∈ s.held j, O.keeps k s.db d) : O.ok d (s.held j) m :=
  O.stable s.db d (s.held j) m hs.glob (hs.ok j m hm) hr hk

/-- Dropping transaction `i`'s locks over a database that the others accept. -/
theorem inv_release (hs : O.Inv s) {i : Nat} {l : Option L}
    (hglob : O.glob d) (hl : ∀ m, l = some m → O.ok d [] m)
    (hother : ∀ j m, j ≠ i → s.locals j = some m → O.ok d (s.held j) m) :
    O.Inv ⟨d, s.at_ i l, s.unlocked i⟩ where
  glob := hglob
  ok := by
    intro j m hm
    rw [Sys.held_unlocked]
    -- `i` holds nothing any more
    by_cases h : j = i
    · subst h
      rw [if_pos rfl]
      exact hl m ((Sys.at_self s j l).symm.trans hm)
    · rw [if_neg h]
      exact hother j m h ((Sys.at_ne s _ h).symm.trans hm)
  idle := by
    intro j hj
    rw [Sys.held_unlocked]
    split
    · rfl
    next h => exact hs.idle j ((Sys.at_ne s _ h).symm.trans hj)
  exclusive := by
    intro a b h k hab hh hk
    rw [Sys.held_unlocked] at hh hk
    split at hh
    · cases hh
    split at hk
    · cases hk
    · exact hs.exclusive a b h k hab hh hk

/-- A change of the data alone. -/
theorem inv_data (hs : O.Inv s) (hglob : O.glob d)
    (hr : O.rely s.db d) (hk : ∀ k, O.keeps k s.db d) : O.Inv { s with db := d } where
  glob := hglob
  ok := fun _ _ hm => O.ok_of_keeps hs hm hr fun k _ => hk k
  idle := hs.idle
  exclusive := hs.exclusive

/-- A statement keeps the assertions. -/
theorem inv_execStmt (hs : O.Inv s) {i : Nat} {l : L} {st : Stmt D K L}
    (hl : s.locals i = some l) (hst : P.stmt l = some st)
    (hal : allow s.db l (P.acquired s i st)) (h : P.execStmt s i st = some t) : O.Inv t := by
  have hok := hs.ok i l hl
  cases st with
  | read next =>
    cases h
    -- a read takes no lock
    have := O.inv_acquire hs i (next s.db) [] (by simp)
      (by rw [append_nil]; exact O.read_ok _ _ _ _ hs.glob hok hst hal)
    simpa using this
  | lock _ next =>
    simp only [Program.execStmt] at h
    split at h
    next hfree =>
      cases h
      exact O.inv_acquire hs i _ _ (all_eq_true.mp hfree) (O.lock_ok _ _ _ _ _ hs.glob hok hst hal)
    · cases h
  | lockSkip limit want =>
    cases h
    -- whatever was skipped, what was taken is free
    have hsub := Sys.unclaimed_sublist P.conflict s i limit (want s.db)
    exact O.inv_acquire hs i _ _ (fun k hk => (mem_filter.mp (hsub.subset hk)).2)
      (O.skip_ok _ _ _ _ _ _ _ hs.glob hok hst (hsub.trans filter_sublist) hal)
  | commit =>
    cases h
    obtain ⟨hglob, hnext, hrely, hkeeps⟩ := O.commit_ok _ _ _ _ _ hs.glob hok hst hal
    refine O.inv_release hs hglob (fun m hm => by injection hm with hm; subst hm; exact hnext) ?_
    -- the other transactions' locks do not conflict with the committer's
    intro j m hji hm
    exact O.ok_of_keeps hs hm hrely fun k hk =>
      hkeeps k fun h' hh' => hs.exclusive i j h' k (Ne.symm hji) hh' hk

/-- **The thread-modular rule, one step**: an allowed move keeps the
assertions of the outline. -/
theorem inv_step {m : Move C E} (hs : O.Inv s)
    (h : P.step s m = some t) (hal : Allowed P allow s m t) : O.Inv t := by
  cases m with
  | begin i =>
    simp only [Program.step] at h
    cases hi : s.locals i with
    | some => simp [hi] at h
    | none =>
      simp only [hi, map_eq_some_iff] at h
      obtain ⟨⟨d, l⟩, hstart, rfl⟩ := h
      obtain ⟨hglob, hok, hrely, hkeeps⟩ := O.start_ok _ _ _ _ hs.glob hstart
      -- the call may change the data before its first statement
      have hd := O.inv_data hs hglob hrely hkeeps
      have := O.inv_acquire hd i l [] (by simp) (by
        rw [append_nil, show Sys.held { s with db := d } i = [] from hs.idle i hi]
        exact hok)
      rw [map_nil, append_nil] at this
      exact this
  | exec i =>
    simp only [Program.step, bind_eq_some_iff] at h
    obtain ⟨l, hl, st, hst, hx⟩ := h
    exact O.inv_execStmt hs hl hst (hal i l st rfl hl hst) hx
  | abort =>
    simp only [Program.step, map_eq_some_iff] at h
    obtain ⟨l, hl, rfl⟩ := h
    -- a crash drops the locks and writes nothing
    exact O.inv_release hs hs.glob (fun m hm => absurd hm (by simp)) fun j m _ hm => hs.ok j m hm
  | env =>
    simp only [Program.step, map_eq_some_iff] at h
    obtain ⟨d, hd, rfl⟩ := h
    obtain ⟨hglob, hrely, hkeeps⟩ := O.env_ok _ _ _ hs.glob hd
    exact O.inv_data hs hglob hrely hkeeps

/-- Every allowed move respects what every change respects. -/
theorem rely_step {m : Move C E} (hrefl : ∀ d, O.rely d d) (hs : O.Inv s)
    (h : P.step s m = some t) (hal : Allowed P allow s m t) : O.rely s.db t.db := by
  cases m with
  | begin i =>
    simp only [Program.step] at h
    cases hi : s.locals i with
    | some => simp [hi] at h
    | none =>
      simp only [hi, map_eq_some_iff] at h
      obtain ⟨⟨d, l⟩, hstart, rfl⟩ := h
      exact (O.start_ok _ _ _ _ hs.glob hstart).2.2.1
  | exec i =>
    simp only [Program.step, bind_eq_some_iff] at h
    obtain ⟨l, hl, st, hst, hx⟩ := h
    have hallow := hal i l st rfl hl hst
    rw [P.execStmt_db hx]
    -- only a commit writes
    cases st with
    | read | lock | lockSkip => exact hrefl _
    | commit =>
      exact (O.commit_ok _ _ _ _ _ hs.glob (hs.ok i l hl) hst hallow).2.2.1
  | abort =>
    simp only [Program.step, map_eq_some_iff] at h
    obtain ⟨l, -, rfl⟩ := h
    exact hrefl _
  | env =>
    simp only [Program.step, map_eq_some_iff] at h
    obtain ⟨d, hd, rfl⟩ := h
    exact (O.env_ok _ _ _ hs.glob hd).2.1

/-- **The thread-modular rule**: along every interleaving of allowed
statements, the assertions hold before and after each step. -/
theorem along {good : Sys D K L → Move C E → Sys D K L → Prop}
    (hgood : ∀ s m t, O.Inv s → O.Inv t → P.step s m = some t → Allowed P allow s m t → good s m t)
    (hd : O.glob d) (ms : List (Move C E))
    (hal : Along P.step (Allowed P allow) (Sys.initial d) ms) :
    Along P.step good (Sys.initial d) ms :=
  along_of_inv (I := O.Inv)
    (fun s m t hs ht ha => ⟨O.inv_step hs ht ha, hgood s m t hs (O.inv_step hs ht ha) ht ha⟩)
    ms _ (O.inv_initial hd) hal

end Outline

end RowLocks
