import Mathlib.Logic.Function.Basic
import OpenDiscogs.Library.Strconv

/-! The metrics of requests: a gauge and a counter, each under its labels. -/
namespace OpenDiscogs.Observability
open Utf8

/-- The labels of a request's metrics: its route, its method and its status. -/
abbrev Labels := String × String × Bytes

/-- The registry with the metrics of requests: how they are recorded, and what is gathered of the
gauge and the counter. -/
structure Registry (σ : Type) where
  registered : σ
  incInFlight : String → σ → σ
  decInFlight : String → σ → σ
  incRequests : Labels → σ → σ
  observeDuration : Labels → σ → σ
  inFlight : σ → String → Int
  requests : σ → Labels → Nat

variable {σ : Type}

/-- What is recorded changes one metric by one under its labels, and leaves the rest; a sample
under labels that were never used is zero. -/
structure Registry.Documented (registry : Registry σ) : Prop where
  inFlight_registered : ∀ route, registry.inFlight registry.registered route = 0
  requests_registered : ∀ labels, registry.requests registry.registered labels = 0
  inFlight_inc : ∀ x route other, registry.inFlight (registry.incInFlight route x) other =
    registry.inFlight x other + (decide (route = other)).toNat
  inFlight_dec : ∀ x route other, registry.inFlight (registry.decInFlight route x) other =
    registry.inFlight x other - (decide (route = other)).toNat
  requests_inc : ∀ x labels other, registry.requests (registry.incRequests labels x) other =
    registry.requests x other + (decide (labels = other)).toNat
  inFlight_requests : ∀ x labels, registry.inFlight (registry.incRequests labels x) =
    registry.inFlight x
  inFlight_duration : ∀ x labels, registry.inFlight (registry.observeDuration labels x) =
    registry.inFlight x
  requests_incInFlight : ∀ x route, registry.requests (registry.incInFlight route x) =
    registry.requests x
  requests_decInFlight : ∀ x route, registry.requests (registry.decInFlight route x) =
    registry.requests x
  requests_duration : ∀ x labels, registry.requests (registry.observeDuration labels x) =
    registry.requests x

structure Metrics (σ : Type) where
  enabled : Bool
  registry : Registry σ

namespace Metrics

def newMetrics (registry : Registry σ) (enabled : Bool) : Metrics σ where
  enabled := enabled
  registry := registry

def requestStarted (m : Metrics σ) (route : String) (x : σ) : σ :=
  if m.enabled then m.registry.incInFlight route x else x

def requestFinished (m : Metrics σ) (route method : String) (status : Nat) (x : σ) : σ :=
  if !m.enabled then x
  else
    let x := m.registry.decInFlight route x
    let statusText := Strconv.formatNat status
    let x := m.registry.incRequests (route, method, statusText) x
    m.registry.observeDuration (route, method, statusText) x

end Metrics

/-! A registry that counts -/

structure Samples where
  requests : Labels → Nat := fun _ => 0
  duration : Labels → Nat := fun _ => 0
  inFlight : String → Int := fun _ => 0

/-- One more, or one less, under some labels. -/
def bump {κ ν : Type} [DecidableEq κ] [Add ν] (f : κ → ν) (key : κ) (step : ν) : κ → ν :=
  Function.update f key (f key+step)

theorem bump_apply {κ ν : Type} [DecidableEq κ] [AddZeroClass ν] (f : κ → ν) (key other : κ)
    (step : ν) : bump f key step other = f other + if key = other then step else 0 := by
  unfold bump
  by_cases h : key = other
  · subst h
    simp
  · simp [h, Function.update_of_ne (Ne.symm h)]

/-- A registry of exact numbers, which knows durations by how often they were observed. -/
def plainRegistry : Registry Samples where
  registered := {}
  incInFlight route x := { x with inFlight := bump x.inFlight route 1 }
  decInFlight route x := { x with inFlight := bump x.inFlight route (-1) }
  incRequests labels x := { x with requests := bump x.requests labels 1 }
  observeDuration labels x := { x with duration := bump x.duration labels 1 }
  inFlight := Samples.inFlight
  requests := Samples.requests

theorem plainRegistry_documented : plainRegistry.Documented where
  inFlight_registered _ := rfl
  requests_registered _ := rfl
  inFlight_inc x route other := by
    by_cases h : route = other <;> simp [plainRegistry, bump_apply, h]
  inFlight_dec x route other := by
    by_cases h : route = other <;> simp [plainRegistry, bump_apply, h, Int.sub_eq_add_neg]
  requests_inc x labels other := by
    by_cases h : labels = other <;> simp [plainRegistry, bump_apply, h]
  inFlight_requests _ _ := rfl
  inFlight_duration _ _ := rfl
  requests_incInFlight _ _ := rfl
  requests_decInFlight _ _ := rfl
  requests_duration _ _ := rfl

end OpenDiscogs.Observability
