import Mathlib.Logic.Function.Basic
import Mathlib.Logic.Relation
import Mathlib.Data.List.Nodup

/-! Things that are free or held by one of several parties: taken off a queue or made anew, given
back to the queue or let go. -/
namespace Lease
variable {ι : Type} [DecidableEq ι]

/-- The free things in a queue, what each party holds, and the first number no thing has yet. -/
structure State (ι : Type) where
  free : List Nat
  held : ι → Option Nat
  next : Nat

inductive Step : State ι → State ι → Prop where
  | take {s : State ι} (i : ι) {b : Nat} {rest : List Nat} (hi : s.held i = none)
      (hb : s.free = b::rest) :
      Step s { s with free := rest, held := Function.update s.held i (some b) }
  | make {s : State ι} (i : ι) (hi : s.held i = none) :
      Step s { s with held := Function.update s.held i (some s.next), next := s.next+1 }
  | give {s : State ι} (i : ι) {b : Nat} (hi : s.held i = some b) :
      Step s { s with free := s.free ++ [b], held := Function.update s.held i none }
  | drop {s : State ι} (i : ι) {b : Nat} (hi : s.held i = some b) :
      Step s { s with held := Function.update s.held i none }

/-- Nothing is held twice, free twice, or both. -/
structure Exclusive (s : State ι) : Prop where
  freeOnce : s.free.Nodup
  freeKnown : ∀ b ∈ s.free, b < s.next
  heldOnce : ∀ i j b, s.held i = some b → s.held j = some b → i = j
  heldKnown : ∀ i b, s.held i = some b → b < s.next
  apart : ∀ i b, s.held i = some b → b ∉ s.free

omit [DecidableEq ι] in
theorem exclusive_start (next : Nat) :
    Exclusive ({ free := [], held := fun _ => none, next := next } : State ι) :=
  ⟨List.nodup_nil, by simp, by simp, by simp, by simp⟩

variable {s t : State ι}

/-- What a party holds once one party's holding has changed. -/
theorem update_held {held : ι → Option Nat} {i j : ι} {o : Option Nat} {b : Nat}
    (h : Function.update held i o j = some b) : (j = i ∧ o = some b) ∨ (j ≠ i ∧ held j = some b) := by
  by_cases hj : j = i
  · subst hj
    rw [Function.update_self] at h
    exact Or.inl ⟨rfl, h⟩
  · rw [Function.update_of_ne hj] at h
    exact Or.inr ⟨hj, h⟩

/-- A party that held nothing may come to hold what nobody holds. -/
theorem heldOnce_update {held : ι → Option Nat} {i : ι} {c : Nat}
    (h : ∀ i j b, held i = some b → held j = some b → i = j) (hc : ∀ j, held j ≠ some c) :
    ∀ j k b, Function.update held i (some c) j = some b →
      Function.update held i (some c) k = some b → j = k := by
  intro j k b hj hk
  obtain ⟨hji, hb⟩ | ⟨-, hj'⟩ := update_held hj
  · obtain ⟨hki, -⟩ | ⟨-, hk'⟩ := update_held hk
    · rw [hji, hki]
    · exact absurd (hk'.trans hb.symm) (hc k)
  · obtain ⟨-, hb⟩ | ⟨-, hk'⟩ := update_held hk
    · exact absurd (hj'.trans hb.symm) (hc j)
    · exact h j k b hj' hk'

/-- What is still held after a party has let go was held before, by another party. -/
theorem held_of_update {held : ι → Option Nat} {i j : ι} {b : Nat}
    (h : Function.update held i none j = some b) : j ≠ i ∧ held j = some b := by
  obtain ⟨-, hb⟩ | hj := update_held h
  · cases hb
  · exact hj

theorem Exclusive.step (h : Exclusive s) (hs : Step s t) : Exclusive t := by
  cases hs with
  | @take i b rest hi hb =>
    have hfree := h.freeOnce
    rw [hb, List.nodup_cons] at hfree
    have hmem : b ∈ s.free := by rw [hb]; simp
    have hrest : ∀ c ∈ rest, c ∈ s.free := fun c hc => by rw [hb]; exact List.mem_cons_of_mem b hc
    have hnone : ∀ j, s.held j ≠ some b := fun j hj => h.apart j b hj hmem
    refine ⟨hfree.2, fun c hc => h.freeKnown c (hrest c hc), heldOnce_update h.heldOnce hnone, ?_, ?_⟩
    · intro j c hj
      obtain ⟨-, hc⟩ | ⟨-, hj⟩ := update_held hj
      · cases hc
        exact h.freeKnown b hmem
      · exact h.heldKnown j c hj
    · intro j c hj hc
      obtain ⟨-, he⟩ | ⟨-, hj⟩ := update_held hj
      · cases he
        exact hfree.1 hc
      · exact h.apart j c hj (hrest c hc)
  | @make i hi =>
    have hnone : ∀ j, s.held j ≠ some s.next := fun j hj =>
      absurd (h.heldKnown j _ hj) (Nat.lt_irrefl _)
    refine ⟨h.freeOnce, fun c hc => Nat.lt_succ_of_lt (h.freeKnown c hc),
      heldOnce_update h.heldOnce hnone, ?_, ?_⟩
    · intro j c hj
      obtain ⟨-, hc⟩ | ⟨-, hj⟩ := update_held hj
      · cases hc
        exact Nat.lt_succ_self _
      · exact Nat.lt_succ_of_lt (h.heldKnown j c hj)
    · intro j c hj hc
      obtain ⟨-, he⟩ | ⟨-, hj⟩ := update_held hj
      · cases he
        exact absurd (h.freeKnown _ hc) (Nat.lt_irrefl _)
      · exact h.apart j c hj hc
  | @give i b hi =>
    refine ⟨?_, ?_, ?_, ?_, ?_⟩
    · exact List.nodup_append.mpr ⟨h.freeOnce, List.nodup_singleton b, fun c hc d hd he =>
        h.apart i b hi ((List.mem_singleton.mp hd) ▸ he ▸ hc)⟩
    · intro c hc
      obtain hc | hc := List.mem_append.mp hc
      · exact h.freeKnown c hc
      · exact List.mem_singleton.mp hc ▸ h.heldKnown i b hi
    · intro j k c hj hk
      exact h.heldOnce j k c (held_of_update hj).2 (held_of_update hk).2
    · intro j c hj
      exact h.heldKnown j c (held_of_update hj).2
    · intro j c hj hc
      obtain ⟨hne, hj⟩ := held_of_update hj
      obtain hc | hc := List.mem_append.mp hc
      · exact h.apart j c hj hc
      · exact hne (h.heldOnce j i b (List.mem_singleton.mp hc ▸ hj) hi)
  | @drop i b hi =>
    refine ⟨h.freeOnce, h.freeKnown, ?_, ?_, ?_⟩
    · intro j k c hj hk
      exact h.heldOnce j k c (held_of_update hj).2 (held_of_update hk).2
    · intro j c hj
      exact h.heldKnown j c (held_of_update hj).2
    · intro j c hj
      exact h.apart j c (held_of_update hj).2

end Lease
