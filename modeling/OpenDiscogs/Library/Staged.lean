import Mathlib.Logic.Relation
import Mathlib.Data.List.Basic

/-! A function that passes through stages, each of which may fail or may acquire something whose
release is deferred, and then runs a body. What goes on beside the body may outlive it. -/
namespace Staged
variable {σ ρ ε : Type}

structure Program (σ ρ ε : Type) where
  stages : List (σ → Except ε (σ × Option ρ) → Prop)
  enter : σ → σ
  moves : σ → σ → Prop
  result : σ → Option (Option ε)

inductive Place (ε : Type) where
  | stage (k : Nat)
  | body
  | unwinding (e : Option ε)
  | returned (e : Option ε)

/-- Nothing is released yet. -/
def Place.held : Place ε → Bool
  | stage _ => true
  | body => true
  | _ => false

/-- What was acquired and what was released, in the order in which it was, and what is deferred,
the last thing first. -/
structure State (σ ρ ε : Type) where
  place : Place ε := .stage 0
  store : σ
  deferred : List ρ := []
  acquired : List ρ := []
  released : List ρ := []

inductive Step (p : Program σ ρ ε) : State σ ρ ε → State σ ρ ε → Prop where
  | pass {s : State σ ρ ε} {k : Nat} {stage : σ → Except ε (σ × Option ρ) → Prop} {store : σ}
      {resource : Option ρ} (hp : s.place = .stage k) (hk : p.stages[k]? = some stage)
      (h : stage s.store (.ok (store, resource))) :
      Step p s { s with
        place := .stage (k+1), store := store
        deferred := resource.toList ++ s.deferred, acquired := s.acquired ++ resource.toList }
  | fail {s : State σ ρ ε} {k : Nat} {stage : σ → Except ε (σ × Option ρ) → Prop} {e : ε}
      (hp : s.place = .stage k) (hk : p.stages[k]? = some stage) (h : stage s.store (.error e)) :
      Step p s { s with place := .unwinding (some e) }
  | enter {s : State σ ρ ε} (hp : s.place = .stage p.stages.length) :
      Step p s { s with place := .body, store := p.enter s.store }
  | move {s : State σ ρ ε} {store : σ} (h : p.moves s.store store) :
      Step p s { s with store := store }
  | leave {s : State σ ρ ε} {e : Option ε} (hp : s.place = .body)
      (h : p.result s.store = some e) : Step p s { s with place := .unwinding e }
  | release {s : State σ ρ ε} {e : Option ε} {resource : ρ} {rest : List ρ}
      (hp : s.place = .unwinding e) (hd : s.deferred = resource::rest) :
      Step p s { s with deferred := rest, released := s.released ++ [resource] }
  | finish {s : State σ ρ ε} {e : Option ε} (hp : s.place = .unwinding e) (hd : s.deferred = []) :
      Step p s { s with place := .returned e }

abbrev Run (p : Program σ ρ ε) (store : σ) : State σ ρ ε → Prop :=
  Relation.ReflTransGen (Step p) { store := store }

/-- Assertions that hold of a program from a store on: before each stage, while nothing moves, and
from the entry of the body on, whose result stays when it has one. -/
structure Outline (p : Program σ ρ ε) (start : σ) where
  before : Nat → σ → List ρ → Prop
  body : σ → List ρ → Prop
  begins : before 0 start []
  pass : ∀ {k stage store store' acquired} {resource : Option ρ}, p.stages[k]? = some stage →
    before k store acquired → stage store (.ok (store', resource)) →
    before (k+1) store' (acquired ++ resource.toList)
  still : ∀ {k store store' acquired}, before k store acquired → ¬p.moves store store'
  enter : ∀ {store acquired}, before p.stages.length store acquired →
    body (p.enter store) acquired
  moves : ∀ {store store' acquired}, body store acquired → p.moves store store' →
    body store' acquired
  keeps : ∀ {store store' acquired e}, body store acquired → p.moves store store' →
    p.result store = some e → p.result store' = some e

section Rule
variable {p : Program σ ρ ε} {start : σ} {s t : State σ ρ ε}

/-- What makes a function return: a stage fails, after those before it, or the body has a result. -/
inductive Ends (o : Outline p start) (store : σ) (acquired : List ρ) : Option ε → Prop where
  | stage {k : Nat} {stage : σ → Except ε (σ × Option ρ) → Prop} {e : ε}
      (hk : p.stages[k]? = some stage) (hb : o.before k store acquired)
      (h : stage store (.error e)) : Ends o store acquired (some e)
  | body {e : Option ε} (hb : o.body store acquired) (h : p.result store = some e) :
      Ends o store acquired e

/-- What holds of a program's store and of what it acquired at a place. -/
def Holds (o : Outline p start) (store : σ) (acquired : List ρ) : Place ε → Prop
  | .stage k => o.before k store acquired
  | .body => o.body store acquired
  | .unwinding e | .returned e => Ends o store acquired e

theorem Ends.move {o : Outline p start} {store store' : σ} {acquired : List ρ} {e : Option ε}
    (h : Ends o store acquired e) (hm : p.moves store store') : Ends o store' acquired e := by
  cases h with
  | stage hk hb h => exact absurd hm (o.still hb)
  | body hb h => exact .body (o.moves hb hm) (o.keeps hb hm h)

theorem Holds.move {o : Outline p start} {store store' : σ} {acquired : List ρ} {place : Place ε}
    (h : Holds o store acquired place) (hm : p.moves store store') :
    Holds o store' acquired place := by
  cases place with
  | stage k => exact absurd hm (o.still h)
  | body => exact o.moves h hm
  | unwinding e | returned e => exact Ends.move h hm

theorem Holds.step {o : Outline p start} (h : Holds o s.store s.acquired s.place)
    (hs : Step p s t) : Holds o t.store t.acquired t.place := by
  cases hs with
  | pass hp hk hstage =>
    rw [hp] at h
    exact o.pass hk h hstage
  | fail hp hk hstage =>
    rw [hp] at h
    exact Ends.stage hk h hstage
  | enter hp =>
    rw [hp] at h
    exact o.enter h
  | move hm => exact h.move hm
  | leave hp hr =>
    rw [hp] at h
    exact Ends.body h hr
  | release hp hd => exact h
  | finish hp hd =>
    rw [hp] at h
    exact h

/-- Every run keeps to an outline. -/
theorem holds_run (o : Outline p start) (h : Run p start s) :
    Holds o s.store s.acquired s.place := by
  induction h with
  | refl => exact o.begins
  | tail _ hs ih => exact ih.step hs

/-- What was acquired is released or deferred, the last thing first: nothing is released before
the function returns, and nothing is deferred afterwards. -/
structure Balanced (s : State σ ρ ε) : Prop where
  balance : s.released ++ s.deferred = s.acquired.reverse
  held : s.place.held = true → s.released = []
  done : ∀ e, s.place = .returned e → s.deferred = []

theorem Balanced.step (h : Balanced s) (hs : Step p s t) : Balanced t := by
  cases hs with
  | @pass k stage store resource hp hk hstage =>
    have hreleased := h.held (by rw [hp]; rfl)
    have hbalance := h.balance
    rw [hreleased, List.nil_append] at hbalance
    refine ⟨?_, fun _ => hreleased, nofun⟩
    simp only [hreleased, hbalance, List.nil_append, List.reverse_append]
    cases resource <;> rfl
  | fail hp hk hstage => exact ⟨h.balance, nofun, nofun⟩
  | enter hp => exact ⟨h.balance, fun _ => h.held (by rw [hp]; rfl), nofun⟩
  | move hm => exact ⟨h.balance, h.held, h.done⟩
  | leave hp hr => exact ⟨h.balance, nofun, nofun⟩
  | @release e resource rest hp hd =>
    refine ⟨?_, fun hheld => ?_, fun e he => ?_⟩
    · rw [← h.balance, hd, List.append_assoc]
      rfl
    · rw [hp] at hheld
      cases hheld
    · rw [hp] at he
      cases he
  | finish hp hd => exact ⟨h.balance, nofun, fun _ _ => hd⟩

theorem balanced_run (h : Run p start s) : Balanced s := by
  induction h with
  | refl => exact ⟨rfl, fun _ => rfl, nofun⟩
  | tail _ hs ih => exact ih.step hs

/-- A function that has returned released all that it acquired, the last thing first. -/
theorem released_run {e : Option ε} (h : Run p start s) (he : s.place = .returned e) :
    s.released = s.acquired.reverse := by
  have hb := balanced_run h
  have hbalance := hb.balance
  rwa [hb.done e he, List.append_nil] at hbalance

end Rule
end Staged
