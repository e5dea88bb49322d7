/-
  WebhookPlatform.Lib.Exceptions
  **EXCEPTION CLASSES WITH SINGLE INHERITANCE.**

  A class is its name on top of its base class, up to the root: the type is
  the open hierarchy of ALL classes a program or its libraries may define,
  not a fixed list of them.  `isSubclass` is the test an `except` clause
  makes.

  The order is a forest growing downwards: the classes above a given one
  form a chain (`isSubclass_chain`), so two clauses on unrelated classes
  never compete for one exception (`not_isSubclass_of_unrelated`).

  A computation that may raise is an `Except`; `bind_eq_ok`, `of_map_ok`
  and `guard_eq_ok` take one that succeeds apart.
-/
import Mathlib.Tactic

namespace Exceptions

/-- A class of exceptions, below the root `Exception`. -/
inductive ExceptionClass where
  | root
  | derived (name : String) (base : ExceptionClass)
  deriving Repr, DecidableEq

namespace ExceptionClass

/-- `type(exc).__name__`. -/
def name : ExceptionClass → String
  | .root => "Exception"
  | .derived n _ => n

/-- `issubclass(c, d)`. -/
def isSubclass : ExceptionClass → ExceptionClass → Bool
  | .root, d => decide (d = .root)
  | .derived n b, d => decide (d = .derived n b) || b.isSubclass d

variable {d c e : ExceptionClass}

theorem isSubclass_derived {n : String} {b : ExceptionClass} :
    (derived n b).isSubclass d = true ↔ d = derived n b ∨ b.isSubclass d = true := by
  show (decide (d = derived n b) || b.isSubclass d) = true ↔ _
  rw [Bool.or_eq_true, decide_eq_true_eq]

theorem isSubclass_trans (hcd : c.isSubclass d = true)
    (hde : d.isSubclass e = true) : c.isSubclass e = true := by
  induction c with
  | root =>
    have hd : d = root := of_decide_eq_true hcd
    subst hd
    exact hde
  | derived n b ih =>
    rcases isSubclass_derived.mp hcd with rfl | hb
    · exact hde
    · exact isSubclass_derived.mpr (Or.inr (ih hb))

/-- The classes above one class form a chain. -/
theorem isSubclass_chain (hd : c.isSubclass d = true)
    (he : c.isSubclass e = true) : d.isSubclass e = true ∨ e.isSubclass d = true := by
  induction c with
  | root =>
    have hroot : d = root := of_decide_eq_true hd
    subst hroot
    exact Or.inl he
  | derived n b ih =>
    rcases isSubclass_derived.mp hd with rfl | hbd
    · exact Or.inl he
    · rcases isSubclass_derived.mp he with rfl | hbe
      · exact Or.inr hd
      · exact ih hbd hbe

/-- An exception of one class is of no unrelated class. -/
theorem not_isSubclass_of_unrelated (hd : c.isSubclass d = true)
    (hde : d.isSubclass e = false) (hed : e.isSubclass d = false) : c.isSubclass e = false := by
  by_contra he
  rcases isSubclass_chain hd (Bool.eq_true_of_not_eq_false he) with h | h
  · rw [hde] at h
    exact Bool.false_ne_true h
  · rw [hed] at h
    exact Bool.false_ne_true h

end ExceptionClass

/-! ## Computations that may raise. -/

variable {α β ε : Type}

/-- What `map` makes of a success comes from one. -/
theorem of_map_ok {x : Except ε α} {f : α → β} {b : β} (h : x.map f = .ok b) :
    ∃ a, x = .ok a ∧ f a = b := by
  cases x with
  | error => cases h
  | ok a => exact ⟨a, rfl, Except.ok.inj h⟩

/-- An `Except` computation that succeeds does so step by step. -/
theorem bind_eq_ok {x : Except ε α} {f : α → Except ε β} {b : β} :
    (x >>= f) = .ok b ↔ ∃ a, x = .ok a ∧ f a = .ok b := by
  cases x with
  | error =>
    constructor
    · intro h
      exact absurd h (by simp [bind, Except.bind])
    · intro ⟨a, ha, _⟩
      cases ha
  | ok a =>
    constructor
    · intro h
      exact ⟨a, rfl, h⟩
    · intro ⟨a', ha, hf⟩
      cases ha
      exact hf

@[simp] theorem ok_bind (a : α) (f : α → Except ε β) : ((.ok a : Except ε α) >>= f) = f a := rfl

@[simp] theorem error_bind (e : ε) (f : α → Except ε β) :
    ((.error e : Except ε α) >>= f) = .error e := rfl

/-- `if failed: raise`. -/
theorem guard_eq_ok {p : Prop} [Decidable p] {e : ε} {x : Except ε α} {a : α} :
    (if p then .error e else x) = .ok a ↔ ¬ p ∧ x = .ok a := by
  by_cases h : p
  · simp [h]
  · simp [h]

/-- An `Except` computation that fails does so at its first failing step. -/
theorem bind_eq_error {x : Except ε α} {f : α → Except ε β} {e : ε} :
    (x >>= f) = .error e ↔ x = .error e ∨ ∃ a, x = .ok a ∧ f a = .error e := by
  cases x with
  | error => simp
  | ok => simp

/-- A fold raises at one element, having gone through all before it. -/
theorem foldlM_eq_error {f : β → α → Except ε β} {b : β} {xs : List α} {e : ε} :
    xs.foldlM f b = .error e ↔ ∃ before x after b', xs = before ++ x :: after
      ∧ before.foldlM f b = .ok b' ∧ f b' x = .error e := by
  induction xs generalizing b with
  | nil => simp [pure, Except.pure]
  | cons y xs ih =>
    rw [List.foldlM_cons, bind_eq_error]
    constructor
    · rintro (hy | ⟨c, hc, hrest⟩)
      · exact ⟨[], y, xs, b, rfl, rfl, hy⟩
      · obtain ⟨before, x, after, b', rfl, hbefore, hx⟩ := ih.mp hrest
        exact ⟨y :: before, x, after, b', rfl, by rw [List.foldlM_cons, hc]; exact hbefore, hx⟩
    · rintro ⟨before, x, after, b', heq, hbefore, hx⟩
      cases before with
      | nil =>
        cases heq
        cases hbefore
        exact Or.inl hx
      | cons z before =>
        cases heq
        obtain ⟨c, hc, hbefore⟩ := bind_eq_ok.mp hbefore
        exact Or.inr ⟨c, hc, ih.mpr ⟨before, x, after, b', rfl, hbefore, hx⟩⟩

end Exceptions
