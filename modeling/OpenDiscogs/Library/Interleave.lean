import Mathlib.Data.List.Basic

/-! A call of several statements on a store that others commit to: each statement sees one committed
state, and commits may fall before, between and after the statements. -/
namespace Interleave
variable {δ φ ρ : Type*} (step : δ → φ → φ) (result : φ → Option ρ)

/-- A run of a call from a phase on, starting in a state: the states its statements read, all the
states that were current before it returned, and its result. -/
inductive Run : δ → φ → List δ → List δ → ρ → Prop where
  | returned {d : δ} {p : φ} {r : ρ} : result p = some r → Run d p [] [d] r
  | commit {d d' : δ} {p : φ} {reads current : List δ} {r : ρ} :
      Run d' p reads current r → Run d p reads (d::current) r
  | statement {d : δ} {p : φ} {reads current : List δ} {r : ρ} : result p = none →
      Run d (step d p) reads current r → Run d p (d::reads) current r

variable {step : δ → φ → φ} {result : φ → Option ρ} {d : δ} {p : φ} {reads current : List δ} {r : ρ}

theorem Run.start_mem (h : Run step result d p reads current r) : d ∈ current := by
  induction h with
  | returned hr => simp
  | commit h ih => simp
  | statement hr h ih => exact ih

/-- A run has returned, or its next statement reads a current state and the rest is a run. -/
theorem Run.next (h : Run step result d p reads current r) :
    (reads = [] ∧ result p = some r) ∨
      ∃ d' rest, reads = d'::rest ∧ d' ∈ current ∧ result p = none ∧
        ∃ d'' current', current' ⊆ current ∧ Run step result d'' (step d' p) rest current' r := by
  induction h with
  | returned hr => exact Or.inl ⟨rfl, hr⟩
  | commit h ih =>
    refine ih.imp id ?_
    intro hparts
    obtain ⟨d', rest, rfl, hd, hn, d'', current', hsub, hrun⟩ := hparts
    exact ⟨d', rest, rfl, List.mem_cons_of_mem _ hd, hn, d'', current',
      List.subset_cons_of_subset _ hsub, hrun⟩
  | statement hn h ih =>
    exact Or.inr ⟨_, _, rfl, h.start_mem, hn, _, _, List.Subset.refl _, h⟩

end Interleave
