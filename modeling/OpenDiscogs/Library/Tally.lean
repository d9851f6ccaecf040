import Mathlib.Algebra.BigOperators.Group.List.Basic
import Mathlib.Algebra.Group.Defs
import Mathlib.Algebra.Ring.Int.Defs
import Mathlib.Logic.Relation

/-! Threads that arrive at any time and take their steps in any order on shared data: what each
thread keeps by its own steps, and totals in the shared data that follow the weights of the
threads. -/
namespace Tally
variable {σ τ : Type*}

structure State (σ τ : Type*) where
  shared : σ
  threads : List τ

/-- One step of one thread, or the arrival of a new one. -/
inductive Step (fresh : τ → Prop) (move : σ → τ → σ → τ → Prop) : State σ τ → State σ τ → Prop where
  | arrive {s : State σ τ} {t : τ} : fresh t →
      Step fresh move s { s with threads := s.threads ++ [t] }
  | move {x x' : σ} {t t' : τ} (before after : List τ) : move x t x' t' →
      Step fresh move ⟨x, before ++ t::after⟩ ⟨x', before ++ t'::after⟩

abbrev Run (fresh : τ → Prop) (move : σ → τ → σ → τ → Prop) :=
  Relation.ReflTransGen (Step fresh move)

variable {fresh : τ → Prop} {move : σ → τ → σ → τ → Prop} {s s' : State σ τ} {x : σ}

theorem Step.each {good : τ → Prop} (h : Step fresh move s s') (arrives : ∀ t, fresh t → good t)
    (moves : ∀ x t x' t', move x t x' t' → good t → good t') (hs : ∀ t ∈ s.threads, good t) :
    ∀ t ∈ s'.threads, good t := by
  cases h with
  | @arrive _ t ht =>
    intro u hu
    obtain hu | hu := List.mem_append.mp hu
    · exact hs u hu
    · rw [List.mem_singleton.mp hu]
      exact arrives t ht
  | @move x x' t t' before after hm =>
    intro u hu
    obtain hu | hu := List.mem_append.mp hu
    · exact hs u (List.mem_append_left _ hu)
    · obtain rfl | hu := List.mem_cons.mp hu
      · exact moves x t x' u hm (hs t (by simp))
      · exact hs u (by simp [hu])

/-- What every thread arrives with and keeps by its own steps, all threads have. -/
theorem Run.each {good : τ → Prop} (h : Run fresh move ⟨x, []⟩ s) (arrives : ∀ t, fresh t → good t)
    (moves : ∀ x t x' t', move x t x' t' → good t → good t') : ∀ t ∈ s.threads, good t := by
  induction h with
  | refl => simp
  | tail _ hs ih => exact hs.each arrives moves ih

/-- The steps of one thread, on the shared data and itself. -/
def Moves (move : σ → τ → σ → τ → Prop) (a b : σ × τ) : Prop := move a.1 a.2 b.1 b.2

/-- A thread may take several steps with no other thread in between. -/
theorem Run.moves {t t' : τ} {x' : σ} {before after : List τ} {start : State σ τ}
    (h : Run fresh move start ⟨x, before ++ t::after⟩)
    (hm : Relation.ReflTransGen (Moves move) (x, t) (x', t')) :
    Run fresh move start ⟨x', before ++ t'::after⟩ := by
  have hrun : ∀ b : σ × τ, Relation.ReflTransGen (Moves move) (x, t) b →
      Run fresh move start ⟨b.1, before ++ b.2::after⟩ := by
    intro b hb
    induction hb with
    | refl => exact h
    | tail _ hs ih => exact ih.tail (Step.move before after hs)
  exact hrun (x', t') hm

section Totals
variable {M : Type*} [AddCancelCommMonoid M] {total : σ → M} {weight : τ → M}

/-- A thread moves the total by as much as its own weight. -/
theorem Step.balance (h : Step fresh move s s') (arrives : ∀ t, fresh t → weight t = 0)
    (moves : ∀ x t x' t', move x t x' t' → total x' + weight t = total x + weight t')
    (hs : total s.shared = (s.threads.map weight).sum) :
    total s'.shared = (s'.threads.map weight).sum := by
  cases h with
  | @arrive _ t ht => simpa [arrives t ht] using hs
  | @move x x' t t' before after hm =>
    simp only [List.map_append, List.map_cons, List.sum_append, List.sum_cons] at hs ⊢
    refine @add_right_cancel _ _ _ _ (weight t) _ ?_
    calc total x' + weight t
      _ = total x + weight t' := moves x t x' t' hm
      _ = (before.map weight).sum + (weight t + (after.map weight).sum) + weight t' := by rw [hs]
      _ = (before.map weight).sum + (weight t' + (after.map weight).sum) + weight t := by ac_rfl

/-- A total that starts at zero and moves with the weights of the threads is their sum. -/
theorem Run.balance (h : Run fresh move ⟨x, []⟩ s) (start : total x = 0)
    (arrives : ∀ t, fresh t → weight t = 0)
    (moves : ∀ x t x' t', move x t x' t' → total x' + weight t = total x + weight t') :
    total s.shared = (s.threads.map weight).sum := by
  induction h with
  | refl => exact start
  | tail _ hs ih => exact hs.balance arrives moves ih

end Totals

theorem sum_countP (p : τ → Bool) (threads : List τ) :
    (threads.map fun t => ((p t).toNat : ℤ)).sum = threads.countP p := by
  induction threads with
  | nil => rfl
  | cons t threads ih =>
    rw [List.map_cons, List.sum_cons, ih, List.countP_cons]
    cases p t <;> simp [add_comm]

/-- A number that a thread raises when it comes to satisfy a predicate, and lowers when it ceases
to, counts the threads that satisfy it. -/
theorem Run.count {total : σ → ℤ} {p : τ → Bool} (h : Run fresh move ⟨x, []⟩ s)
    (start : total x = 0) (arrives : ∀ t, fresh t → p t = false)
    (moves : ∀ x t x' t', move x t x' t' →
      total x' + (p t).toNat = total x + (p t').toNat) :
    total s.shared = s.threads.countP p := by
  have hbalance := @Run.balance _ _ _ _ _ _ _ _ total (fun t => ((p t).toNat : ℤ)) h start
    (fun t ht => by simp [arrives t ht]) moves
  rw [hbalance, sum_countP]

end Tally
