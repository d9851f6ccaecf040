import Mathlib.Logic.Basic

/-! How a call ends: with a value, with an error that may wrap and join other errors, or in a
panic that unwinds the caller. -/

/-- Errors as trees: sentinels of a type `σ` at the leaves, wrapped and joined to any depth. -/
inductive Fault (σ : Type) where
  | sentinel (s : σ)
  | other (message : String)
  | wrap (message : String) (inner : Fault σ)
  | join (errors : List (Fault σ))

namespace Fault
variable {σ : Type} [DecidableEq σ]

mutual
/-- `errors.Is`: the target occurs somewhere in the tree. -/
def is (target : σ) : Fault σ → Bool
  | .sentinel s => s = target
  | .other _ => false
  | .wrap _ inner => inner.is target
  | .join errors => isAny target errors

def isAny (target : σ) : List (Fault σ) → Bool
  | [] => false
  | e::errors => e.is target || isAny target errors
end

/-- The sentinels at the leaves of an error. -/
inductive Leaf (s : σ) : Fault σ → Prop where
  | here : Leaf s (.sentinel s)
  | wrap {message : String} {inner : Fault σ} : Leaf s inner → Leaf s (.wrap message inner)
  | join {errors : List (Fault σ)} {e : Fault σ} : e ∈ errors → Leaf s e → Leaf s (.join errors)

@[simp] theorem is_sentinel (target s : σ) : (sentinel s).is target = decide (s = target) := by
  rw [is]

@[simp] theorem is_wrap (target : σ) (message : String) (inner : Fault σ) :
    (wrap message inner).is target = inner.is target := by
  rw [is]

@[simp] theorem is_join (target : σ) (errors : List (Fault σ)) :
    (join errors).is target = errors.any (·.is target) := by
  rw [is]
  induction errors with
  | nil => rw [isAny]; rfl
  | cons e errors ih => rw [isAny, ih, List.any_cons]

/-- An error is a sentinel as soon as the sentinel is anywhere at its leaves. -/
theorem is_iff_leaf (s : σ) : ∀ e : Fault σ, e.is s = true ↔ Leaf s e
  | .sentinel t => by
    rw [is_sentinel, decide_eq_true_eq]
    exact ⟨fun h => h ▸ .here, fun h => by cases h; rfl⟩
  | .other message => by
    rw [is]
    exact ⟨nofun, fun h => by cases h⟩
  | .wrap message inner => by
    rw [is_wrap, is_iff_leaf s inner]
    exact ⟨.wrap, fun h => by cases h; assumption⟩
  | .join errors => by
    rw [is_join, List.any_eq_true]
    constructor
    · intro hparts
      obtain ⟨e, he, hs⟩ := hparts
      exact .join he ((is_iff_leaf s e).mp hs)
    · intro h
      cases h with
      | join he hl => exact ⟨_, he, (is_iff_leaf s _).mpr hl⟩

end Fault

/-- A sequence of steps succeeds when each of them does. -/
theorem Except.bind_eq_ok {ε α β : Type} {x : Except ε α} {f : α → Except ε β} {b : β} :
    (x >>= f) = .ok b ↔ ∃ a, x = .ok a ∧ f a = .ok b := by
  cases x with
  | error e => exact ⟨fun h => (nomatch h), fun ⟨a, h, _⟩ => (nomatch h)⟩
  | ok a => exact ⟨fun h => ⟨a, rfl, h⟩, fun ⟨a', h, hf⟩ => by cases h; exact hf⟩

inductive Outcome (ε α : Type) where
  | value (a : α)
  | error (e : ε)
  | panic

namespace Outcome
variable {ε α β : Type}

def bind (o : Outcome ε α) (f : α → Outcome ε β) : Outcome ε β :=
  match o with
  | .value a => f a
  | .error e => .error e
  | .panic => .panic

instance : Monad (Outcome ε) where
  pure := .value
  bind := bind

@[simp] theorem pure_eq (a : α) : (pure a : Outcome ε α) = .value a := rfl
@[simp] theorem value_bind (a : α) (f : α → Outcome ε β) : (Outcome.value a >>= f) = f a := rfl
@[simp] theorem error_bind (e : ε) (f : α → Outcome ε β) : (Outcome.error e >>= f) = .error e := rfl
@[simp] theorem panic_bind (f : α → Outcome ε β) : (Outcome.panic >>= f) = .panic := rfl

/-- Only the values of a sequence of calls come from values of its parts. -/
theorem bind_value {o : Outcome ε α} {f : α → Outcome ε β} {b : β} :
    (o >>= f) = .value b ↔ ∃ a, o = .value a ∧ f a = .value b := by
  cases o with
  | value a => simp
  | error e => simp
  | panic => simp

/-- A sequence of calls fails with the error of the first part that fails. -/
theorem bind_error {o : Outcome ε α} {f : α → Outcome ε β} {e : ε} :
    (o >>= f) = .error e ↔ o = .error e ∨ ∃ a, o = .value a ∧ f a = .error e := by
  cases o with
  | value a => simp
  | error e => simp
  | panic => simp

end Outcome
