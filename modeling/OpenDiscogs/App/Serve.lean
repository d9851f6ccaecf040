import Mathlib.Data.List.Nodup
import Mathlib.Data.List.Perm.Subperm
import Mathlib.Data.List.Range
import Mathlib.Logic.Function.Basic
import Mathlib.Logic.Relation
import OpenDiscogs.Config.Load

/-! The life of the servers: their listeners, the goroutines that serve on them, the one message
that is waited for, and the shutdown. -/
namespace OpenDiscogs.App
open Utf8

def serverRolePublic := "public"
def serverRoleManagement := "management"
def serverErrorBufferSize := 2

structure ConfiguredServer where
  role : Bytes
  address : Bytes

/-- The servers that `run` gives to `serve`. -/
def runServers (cfg : Configuration.Config) : List ConfiguredServer :=
  [⟨lit serverRolePublic, cfg.publicAddress⟩, ⟨lit serverRoleManagement, cfg.managementAddress⟩]

/-- The calls that may fail, each for the server of an index. -/
inductive Call where
  | listen (k : Nat)
  | serve (k : Nat)
  | shutdown (k : Nat)
deriving DecidableEq

/-- An error value that a call returned. -/
structure Cause where
  call : Call
  text : Bytes
deriving DecidableEq

/-- An error: its message, and the error values that it wraps. -/
structure Failure where
  text : Bytes
  causes : List Cause
deriving DecidableEq

def Cause.failure (c : Cause) : Failure := ⟨c.text, [c]⟩

/-- `fmt.Errorf` with a text before the error it wraps. -/
def Failure.wrap (e : Failure) (text : Bytes) : Failure := { e with text := text ++ e.text }

/-- `errors.Join` -/
def join : Option Failure → Option Failure → Option Failure
  | none, e => e
  | e, none => e
  | some a, some b => some ⟨a.text ++ lit "\n" ++ b.text, a.causes ++ b.causes⟩

def causes (e : Option Failure) : List Cause := e.elim [] Failure.causes

def listenError (configured : ConfiguredServer) (c : Cause) : Failure :=
  c.failure.wrap
    (lit "listen on " ++ configured.role ++ lit " address " ++ configured.address ++ lit ": ")

/-- The error of a server's shutdown, whose result is given. -/
def stopServer (role : Bytes) (shutdown : Option Cause) : Option Failure :=
  shutdown.map fun c => c.failure.wrap (lit "stop " ++ role ++ lit " server: ")

/-- What `Serve` of a server returns. -/
inductive ServeResult where
  | clean
  | serverClosed
  | failed (text : Bytes)

/-- What the goroutine of a server sends: a closed server is no error. -/
def ServeResult.error (k : Nat) : ServeResult → Option Cause
  | clean => none
  | serverClosed => none
  | failed text => some ⟨.serve k, text⟩

inductive Goroutine where
  | idle
  | serving
  | sending (error : Option Cause)
  | done

/-- Where `serve` itself is. -/
inductive Main where
  | listening (k : Nat)
  | closing (rest : List Nat) (e : Failure)
  | aborted (e : Failure)
  | starting (k : Nat)
  | selecting
  | stopping (k : Nat)
  | returned (e : Option Failure)

def Main.shuttingDown : Main → Bool
  | stopping _ => true
  | returned _ => true
  | _ => false

/-- A message in the channel, with the server whose goroutine sent it. -/
abbrev Message := Nat × Option Cause

/-- The state of a call of `serve`. The last fields are its history: every message sent, those that
were sent before the shutdown began, and of these the received and the ones left in the channel. -/
structure ServeState where
  main : Main := .listening 0
  canceled : Bool := false
  listeners : List Nat := []
  closed : List Nat := []
  goroutines : Nat → Goroutine := fun _ => .idle
  errorsChannel : List Message := []
  runError : Option Failure := none
  refused : Option (Nat × Cause) := none
  shutdowns : List Nat := []
  shutdownErrors : List Cause := []
  sent : List Message := []
  early : List Message := []
  received : List Message := []
  left : List Message := []

namespace ServeState

def goroutine (s : ServeState) (k : Nat) (g : Goroutine) : ServeState :=
  { s with goroutines := Function.update s.goroutines k g }

end ServeState

/-- One step of `serve`, of a goroutine, or of what surrounds them. -/
inductive ServeStep (servers : List ConfiguredServer) : ServeState → ServeState → Prop where
  | listen {s : ServeState} {k : Nat} (hm : s.main = .listening k) (hk : k < servers.length) :
      ServeStep servers s { s with main := .listening (k+1), listeners := s.listeners ++ [k] }
  | listenFails {s : ServeState} {k : Nat} {configured : ConfiguredServer} (text : Bytes)
      (hm : s.main = .listening k) (hk : servers[k]? = some configured) :
      ServeStep servers s { s with
        main := .closing s.listeners (listenError configured ⟨.listen k, text⟩)
        refused := some (k, ⟨.listen k, text⟩) }
  | closeListener {s : ServeState} {k : Nat} {rest : List Nat} {e : Failure}
      (hm : s.main = .closing (k::rest) e) :
      ServeStep servers s { s with main := .closing rest e, closed := s.closed ++ [k] }
  | abort {s : ServeState} {e : Failure} (hm : s.main = .closing [] e) :
      ServeStep servers s { s with main := .aborted e }
  | listened {s : ServeState} (hm : s.main = .listening servers.length) :
      ServeStep servers s { s with main := .starting 0 }
  | start {s : ServeState} {k : Nat} (hm : s.main = .starting k) (hk : k < servers.length) :
      ServeStep servers s ({ s with main := .starting (k+1) }.goroutine k .serving)
  | started {s : ServeState} (hm : s.main = .starting servers.length) :
      ServeStep servers s { s with main := .selecting }
  | cancel {s : ServeState} : ServeStep servers s { s with canceled := true }
  | serveReturns {s : ServeState} {k : Nat} (result : ServeResult)
      (hg : s.goroutines k = .serving) :
      ServeStep servers s (s.goroutine k (.sending (result.error k)))
  | send {s : ServeState} {k : Nat} {error : Option Cause} (hg : s.goroutines k = .sending error)
      (hc : s.errorsChannel.length < serverErrorBufferSize) :
      ServeStep servers s ({ s with
        errorsChannel := s.errorsChannel ++ [(k, error)]
        sent := s.sent ++ [(k, error)] }.goroutine k .done)
  | contextDone {s : ServeState} (hm : s.main = .selecting) (hc : s.canceled = true) :
      ServeStep servers s { s with
        main := .stopping 0, early := s.sent, left := s.errorsChannel }
  | receive {s : ServeState} {m : Message} {rest : List Message} (hm : s.main = .selecting)
      (hc : s.errorsChannel = m::rest) :
      ServeStep servers s { s with
        main := .stopping 0, errorsChannel := rest, runError := m.2.map Cause.failure
        early := s.sent, received := [m], left := rest }
  | shutdown {s : ServeState} {k : Nat} {configured : ConfiguredServer} (result : Option Bytes)
      (hm : s.main = .stopping k) (hk : servers[k]? = some configured) :
      ServeStep servers s { s with
        main := .stopping (k+1)
        runError := join s.runError
          (stopServer configured.role (result.map fun text => ⟨.shutdown k, text⟩))
        shutdowns := s.shutdowns ++ [k]
        shutdownErrors := s.shutdownErrors ++ (result.map fun text => ⟨.shutdown k, text⟩).toList }
  | finish {s : ServeState} (hm : s.main = .stopping servers.length) :
      ServeStep servers s { s with main := .returned s.runError }

abbrev ServeRun (servers : List ConfiguredServer) : ServeState → Prop :=
  Relation.ReflTransGen (ServeStep servers) {}

/-- Nothing is leaked, and no failure is hidden. -/
structure LifecycleKept (servers : List ConfiguredServer) (s : ServeState) : Prop where
  aborted : ∀ e, s.main = .aborted e → s.closed = s.listeners ∧ ∃ k configured text,
    s.refused = some (k, ⟨.listen k, text⟩) ∧ servers[k]? = some configured ∧
      s.listeners = List.range k ∧ e = listenError configured ⟨.listen k, text⟩
  refused : s.refused.isSome → ∀ k, s.goroutines k = .idle
  stopped : ∀ e, s.main = .returned e →
    s.shutdowns = List.range servers.length ∧ e = s.runError ∧ s.refused = none
  sends : ∀ k error, s.goroutines k = .sending error →
    s.errorsChannel.length < serverErrorBufferSize
  reported : s.main.shuttingDown = true →
    ∀ m ∈ s.early, ∀ c ∈ m.2, c ∈ causes s.runError
  shutdownErrors : ∀ c ∈ s.shutdownErrors, c ∈ causes s.runError

section Invariants
variable {servers : List ConfiguredServer} {s t : ServeState} {k : Nat} {g : Goroutine}

/-- The listener of a server was refused, after those of all the servers before it were opened. -/
def Refused (servers : List ConfiguredServer) (s : ServeState) (e : Failure) : Prop :=
  ∃ k configured text, s.refused = some (k, ⟨.listen k, text⟩) ∧ servers[k]? = some configured ∧
    s.listeners = List.range k ∧ e = listenError configured ⟨.listen k, text⟩

/-- What `serve` has done when it is at a place. -/
def Control (servers : List ConfiguredServer) (s : ServeState) : Main → Prop
  | .listening k => k ≤ servers.length ∧ s.listeners = List.range k ∧ s.closed = [] ∧
      s.refused = none ∧ s.shutdowns = [] ∧ ∀ i, s.goroutines i = .idle
  | .closing rest e => Refused servers s e ∧ s.closed ++ rest = s.listeners ∧
      ∀ i, s.goroutines i = .idle
  | .aborted e => Refused servers s e ∧ s.closed = s.listeners ∧ ∀ i, s.goroutines i = .idle
  | .starting k => k ≤ servers.length ∧ s.refused = none ∧ s.shutdowns = [] ∧
      ∀ i, k ≤ i → s.goroutines i = .idle
  | .selecting => s.refused = none ∧ s.shutdowns = [] ∧
      ∀ i, servers.length ≤ i → s.goroutines i = .idle
  | .stopping k => k ≤ servers.length ∧ s.refused = none ∧ s.shutdowns = List.range k ∧
      ∀ i, servers.length ≤ i → s.goroutines i = .idle
  | .returned e => s.refused = none ∧ s.shutdowns = List.range servers.length ∧ e = s.runError ∧
      ∀ i, servers.length ≤ i → s.goroutines i = .idle

theorem goroutine_self (s : ServeState) (k : Nat) (g : Goroutine) :
    (s.goroutine k g).goroutines k = g := by simp [ServeState.goroutine]

theorem goroutine_other {i : Nat} (h : i ≠ k) (s : ServeState) (g : Goroutine) :
    (s.goroutine k g).goroutines i = s.goroutines i := by
  simp [ServeState.goroutine, Function.update_of_ne h]

theorem goroutine_idle {i : Nat} (hk : s.goroutines k ≠ .idle) (h : s.goroutines i = .idle) :
    (s.goroutine k g).goroutines i = .idle := by
  have hne : i ≠ k := fun he => hk (he ▸ h)
  exact (goroutine_other hne s g).trans h

theorem Control.goroutine {m : Main} (h : Control servers s m) (hk : s.goroutines k ≠ .idle) :
    Control servers (s.goroutine k g) m := by
  cases m with
  | listening j =>
    obtain ⟨hj, hl, hc, hr, hs, hidle⟩ := h
    exact ⟨hj, hl, hc, hr, hs, fun i => goroutine_idle hk (hidle i)⟩
  | closing rest e | aborted e =>
    obtain ⟨hr, hc, hidle⟩ := h
    exact ⟨hr, hc, fun i => goroutine_idle hk (hidle i)⟩
  | starting j =>
    obtain ⟨hj, hr, hs, hidle⟩ := h
    exact ⟨hj, hr, hs, fun i hi => goroutine_idle hk (hidle i hi)⟩
  | selecting =>
    obtain ⟨hr, hs, hidle⟩ := h
    exact ⟨hr, hs, fun i hi => goroutine_idle hk (hidle i hi)⟩
  | stopping j | returned e =>
    obtain ⟨hj, hr, hs, hidle⟩ := h
    exact ⟨hj, hr, hs, fun i hi => goroutine_idle hk (hidle i hi)⟩

/-- No goroutine is started for what is not a server. -/
theorem Control.idle {m : Main} (h : Control servers s m) :
    ∀ i, servers.length ≤ i → s.goroutines i = .idle := by
  cases m with
  | listening j => exact fun i _ => h.2.2.2.2.2 i
  | closing rest e | aborted e => exact fun i _ => h.2.2 i
  | starting j => exact fun i hi => h.2.2.2 i (h.1.trans hi)
  | selecting => exact h.2.2
  | stopping j | returned e => exact h.2.2.2

theorem Control.step (h : Control servers s s.main) (hs : ServeStep servers s t) :
    Control servers t t.main := by
  cases hs with
  | @listen k hm hk =>
    rw [hm] at h
    obtain ⟨-, hl, hrest⟩ := h
    exact ⟨hk, by simp only [hl, List.range_succ], hrest⟩
  | @listenFails k configured text hm hk =>
    rw [hm] at h
    obtain ⟨-, hl, hc, -, -, hidle⟩ := h
    exact ⟨⟨k, configured, text, rfl, hk, hl, rfl⟩, by simp only [hc, List.nil_append], hidle⟩
  | closeListener hm =>
    rw [hm] at h
    obtain ⟨hr, hc, hidle⟩ := h
    exact ⟨hr, by simpa using hc, hidle⟩
  | abort hm =>
    rw [hm] at h
    obtain ⟨hr, hc, hidle⟩ := h
    exact ⟨hr, by simpa using hc, hidle⟩
  | listened hm =>
    rw [hm] at h
    obtain ⟨-, -, -, hr, hs, hidle⟩ := h
    exact ⟨Nat.zero_le _, hr, hs, fun i _ => hidle i⟩
  | @start k hm hk =>
    rw [hm] at h
    obtain ⟨-, hr, hs, hidle⟩ := h
    refine ⟨hk, hr, hs, fun i hi => ?_⟩
    have hne : i ≠ k := by omega
    simp only [ServeState.goroutine, Function.update_of_ne hne]
    exact hidle i (by omega)
  | started hm =>
    rw [hm] at h
    exact h.2
  | cancel => exact h
  | @serveReturns k result hg => exact h.goroutine (by simp [hg])
  | @send k error hg hc =>
    have hsent : Control servers { s with
      errorsChannel := s.errorsChannel ++ [(k, error)]
      sent := s.sent ++ [(k, error)] } s.main := h
    exact hsent.goroutine (by simp [hg])
  | contextDone hm hc =>
    rw [hm] at h
    exact ⟨Nat.zero_le _, h⟩
  | receive hm hc =>
    rw [hm] at h
    exact ⟨Nat.zero_le _, h⟩
  | @shutdown k configured result hm hk =>
    rw [hm] at h
    obtain ⟨-, hr, hs, hidle⟩ := h
    have hlt : k < servers.length := (List.getElem?_eq_some_iff.mp hk).1
    exact ⟨hlt, hr, by simp only [hs, List.range_succ], hidle⟩
  | finish hm =>
    rw [hm] at h
    obtain ⟨-, hr, hs, hidle⟩ := h
    exact ⟨hr, hs, rfl, hidle⟩

/-- The messages of a run: each goroutine sends one, under its own name, and the channel keeps what
is not received. -/
structure Messages (s : ServeState) : Prop where
  fifo : s.sent = s.received ++ s.errorsChannel
  senders : (s.sent.map (·.1)).Nodup
  done : ∀ m ∈ s.sent, s.goroutines m.1 = .done
  own : ∀ m ∈ s.sent, ∀ c ∈ m.2, c.call = .serve m.1
  sending : ∀ k error, s.goroutines k = .sending error → ∀ c ∈ error, c.call = .serve k

theorem Messages.start_or_return (h : Messages s) (hk : s.goroutines k ≠ .done)
    (hg : ∀ error, g = .sending error → ∀ c ∈ error, c.call = .serve k) :
    Messages (s.goroutine k g) := by
  refine ⟨h.fifo, h.senders, fun m hm => ?_, h.own, fun j error hj => ?_⟩
  · have hdone := h.done m hm
    have hne : m.1 ≠ k := fun he => hk (he ▸ hdone)
    exact (goroutine_other hne s g).trans hdone
  · by_cases hjk : j = k
    · subst hjk
      rw [goroutine_self] at hj
      exact hg error hj
    · rw [goroutine_other hjk] at hj
      exact h.sending j error hj

/-- A goroutine sends once: nothing of its own is in the channel before. -/
theorem Messages.unsent (h : Messages s) (hk : s.goroutines k ≠ .done) :
    k ∉ s.sent.map (·.1) := by
  intro hmem
  obtain ⟨m, hm, rfl⟩ := List.mem_map.mp hmem
  exact hk (h.done m hm)

theorem Messages.send {error : Option Cause} (h : Messages s)
    (hk : s.goroutines k = .sending error) :
    Messages ({ s with
      errorsChannel := s.errorsChannel ++ [(k, error)]
      sent := s.sent ++ [(k, error)] }.goroutine k .done) := by
  have hunsent := h.unsent (k := k) (by simp [hk])
  refine ⟨?_, ?_, fun m hm => ?_, fun m hm => ?_, fun j e hj => ?_⟩
  · simp only [ServeState.goroutine, h.fifo, List.append_assoc]
  · simp only [ServeState.goroutine, List.map_append, List.map_singleton]
    exact h.senders.append (List.nodup_singleton k) (by simpa using hunsent)
  · by_cases hmk : m.1 = k
    · subst hmk
      exact goroutine_self _ _ _
    · obtain hm | hm := List.mem_append.mp hm
      · exact (goroutine_other hmk _ _).trans (h.done m hm)
      · exact absurd (congrArg Prod.fst (List.mem_singleton.mp hm)) hmk
  · obtain hm | hm := List.mem_append.mp hm
    · exact h.own m hm
    · rw [List.mem_singleton.mp hm]
      exact h.sending k error hk
  · by_cases hjk : j = k
    · subst hjk
      rw [goroutine_self] at hj
      cases hj
    · rw [goroutine_other hjk] at hj
      exact h.sending j e hj

/-- The run as far as the shutdown: before it nothing is received, and from then on the error is
made of what was received and of what the shutdowns returned. -/
structure History (s : ServeState) : Prop where
  before : s.main.shuttingDown = false → s.early = [] ∧ s.received = [] ∧ s.left = [] ∧
    s.shutdownErrors = [] ∧ s.runError = none
  begun : s.main.shuttingDown = true → s.early = s.received ++ s.left
  known : s.early <+: s.sent
  runError : causes s.runError = s.received.filterMap (·.2) ++ s.shutdownErrors
  stops : ∀ c ∈ s.shutdownErrors, ∃ k, c.call = .shutdown k

theorem causes_join (a b : Option Failure) : causes (join a b) = causes a ++ causes b := by
  cases a with
  | none => cases b <;> rfl
  | some a => cases b <;> simp [join, causes]

theorem causes_stopServer (role : Bytes) (shutdown : Option Cause) :
    causes (stopServer role shutdown) = shutdown.toList := by
  cases shutdown <;> rfl

theorem causes_received (m : Message) :
    causes (m.2.map Cause.failure) = [m].filterMap (·.2) := by
  obtain ⟨k, error⟩ := m
  cases error <;> rfl

theorem History.step (h : History s) (hs : ServeStep servers s t) (hm : Messages s) :
    History t := by
  have hsame : ∀ {main : Main}, main.shuttingDown = s.main.shuttingDown →
      (main.shuttingDown = false → s.early = [] ∧ s.received = [] ∧ s.left = [] ∧
        s.shutdownErrors = [] ∧ s.runError = none) ∧
      (main.shuttingDown = true → s.early = s.received ++ s.left) := fun he => by
    rw [he]
    exact ⟨h.before, h.begun⟩
  cases hs with
  | listen hp | listenFails _ hp | closeListener hp | abort hp | listened hp
  | start hp | finish hp | started hp =>
    obtain ⟨hbefore, hbegun⟩ := hsame (congrArg Main.shuttingDown hp.symm)
    exact ⟨hbefore, hbegun, h.known, h.runError, h.stops⟩
  | cancel | serveReturns => exact ⟨h.before, h.begun, h.known, h.runError, h.stops⟩
  | send => exact ⟨h.before, h.begun, h.known.trans (List.prefix_append _ _), h.runError, h.stops⟩
  | contextDone hp hc =>
    have hstop : s.main.shuttingDown = false := by rw [hp]; rfl
    obtain ⟨-, hr, -, he, hrun⟩ := h.before hstop
    refine ⟨by simp [Main.shuttingDown], fun _ => ?_, List.prefix_rfl, h.runError, h.stops⟩
    exact hm.fifo
  | @receive m rest hp hc =>
    have hstop : s.main.shuttingDown = false := by rw [hp]; rfl
    obtain ⟨-, hr, -, he, -⟩ := h.before hstop
    refine ⟨by simp [Main.shuttingDown], fun _ => ?_, List.prefix_rfl, ?_, h.stops⟩
    · simpa [hr, hc] using hm.fifo
    · rw [he, causes_received, List.append_nil]
  | @shutdown k configured result hp hk =>
    have hstop : s.main.shuttingDown = true := by rw [hp]; rfl
    refine ⟨by simp [Main.shuttingDown], fun _ => h.begun hstop, h.known, ?_, fun c hc => ?_⟩
    · rw [causes_join, causes_stopServer, h.runError, List.append_assoc]
    · obtain hc | hc := List.mem_append.mp hc
      · exact h.stops c hc
      · cases result with
        | none => simp at hc
        | some text =>
          rw [List.mem_singleton.mp hc]
          exact ⟨k, rfl⟩

theorem Messages.step (h : Messages s) (hs : ServeStep servers s t)
    (hc : Control servers s s.main) (hh : History s) : Messages t := by
  cases hs with
  | listen | listenFails | closeListener | abort | listened | started | cancel | contextDone |
    shutdown | finish => exact ⟨h.fifo, h.senders, h.done, h.own, h.sending⟩
  | @start k hm hk =>
    rw [hm] at hc
    have hidle : s.goroutines k = .idle := hc.2.2.2 k le_rfl
    have hmain : Messages { s with main := .starting (k+1) } :=
      ⟨h.fifo, h.senders, h.done, h.own, h.sending⟩
    exact hmain.start_or_return (by simp [hidle]) (by simp)
  | @serveReturns k result hg =>
    refine h.start_or_return (by simp [hg]) fun error he c hce => ?_
    cases he
    cases result <;> simp [ServeResult.error] at hce
    rw [← hce]
  | send hg hc => exact h.send hg
  | @receive m rest hm hr =>
    have hbefore := hh.before (by rw [hm]; rfl)
    refine ⟨?_, h.senders, h.done, h.own, h.sending⟩
    simpa [hbefore.2.1, hr] using h.fifo

/-- The invariant of a run. -/
structure ServeInvariant (servers : List ConfiguredServer) (s : ServeState) : Prop where
  control : Control servers s s.main
  messages : Messages s
  history : History s

theorem ServeInvariant.step (h : ServeInvariant servers s) (hs : ServeStep servers s t) :
    ServeInvariant servers t :=
  ⟨h.control.step hs, h.messages.step hs h.control h.history, h.history.step hs h.messages⟩

theorem serveInvariant_run (h : ServeRun servers s) : ServeInvariant servers s := by
  induction h with
  | refl =>
    refine ⟨⟨Nat.zero_le _, rfl, rfl, rfl, rfl, fun _ => rfl⟩, ?_, ?_⟩
    · exact ⟨rfl, List.nodup_nil, by simp, by simp, by simp⟩
    · exact ⟨by simp, by simp [Main.shuttingDown], List.prefix_rfl, rfl, by simp⟩
  | tail _ hs ih => exact ih.step hs

/-- A goroutine that has not sent yet finds room in the channel. -/
theorem room (h : ServeInvariant servers s) (hlen : servers.length ≤ serverErrorBufferSize)
    {error : Option Cause} (hk : s.goroutines k = .sending error) :
    s.errorsChannel.length < serverErrorBufferSize := by
  have hidle := h.control.idle
  have hknown : ∀ i, s.goroutines i ≠ .idle → i < servers.length := fun i hi => by
    by_contra hge
    exact hi (hidle i (Nat.le_of_not_lt hge))
  have hunsent := h.messages.unsent (k := k) (by simp [hk])
  have hsubset : k::s.sent.map (·.1) ⊆ List.range servers.length := by
    intro i hi
    rw [List.mem_range]
    obtain rfl | hi := List.mem_cons.mp hi
    · exact hknown i (by simp [hk])
    · obtain ⟨m, hm, rfl⟩ := List.mem_map.mp hi
      exact hknown m.1 (by simp [h.messages.done m hm])
  have hcount := (List.subperm_of_subset
    (List.nodup_cons.mpr ⟨hunsent, h.messages.senders⟩) hsubset).length_le
  have hfifo := congrArg List.length h.messages.fifo
  simp only [List.length_cons, List.length_map, List.length_range, List.length_append] at hcount hfifo
  omega

/-- The early errors are all reported exactly when none of them was left in the channel. -/
theorem reported_iff (h : ServeInvariant servers s) (hs : s.main.shuttingDown = true) :
    (∀ m ∈ s.early, ∀ c ∈ m.2, c ∈ causes s.runError) ↔ ∀ m ∈ s.left, m.2 = none := by
  have hearly := h.history.begun hs
  have hsent : ∀ m ∈ s.early, m ∈ s.sent := fun m hm => h.history.known.subset hm
  rw [h.history.runError]
  constructor
  · intro hreported m hm
    rw [Option.eq_none_iff_forall_ne_some]
    intro c hc
    have hmem : m ∈ s.early := hearly ▸ List.mem_append_right _ hm
    have hcall := h.messages.own m (hsent m hmem) c hc
    obtain hr | hr := List.mem_append.mp (hreported m hmem c hc)
    · -- a received message of the same goroutine would be a second one
      obtain ⟨m', hm', hc'⟩ := List.mem_filterMap.mp hr
      have hmem' : m' ∈ s.early := hearly ▸ List.mem_append_left _ hm'
      have hcall' := h.messages.own m' (hsent m' hmem') c hc'
      have hsender : m'.1 = m.1 := Call.serve.inj (hcall'.symm.trans hcall)
      have hnodup := (h.history.known.sublist.map (·.1)).nodup h.messages.senders
      rw [hearly, List.map_append] at hnodup
      exact List.disjoint_of_nodup_append hnodup (List.mem_map_of_mem hm')
        (hsender ▸ List.mem_map_of_mem hm)
    · obtain ⟨j, hj⟩ := h.history.stops c hr
      rw [hcall] at hj
      cases hj
  · intro hleft m hm c hc
    rw [hearly] at hm
    obtain hm | hm := List.mem_append.mp hm
    · exact List.mem_append_left _ (List.mem_filterMap.mpr ⟨m, hm, hc⟩)
    · rw [hleft m hm] at hc
      cases hc

end Invariants

/-- The servers lead the life they should exactly when the shutdown begins with no error left in
the channel. -/
theorem lifecycle_kept (servers : List ConfiguredServer)
    (hlen : servers.length ≤ serverErrorBufferSize) {s : ServeState} (h : ServeRun servers s) :
    LifecycleKept servers s ↔ ∀ m ∈ s.left, m.2 = none := by
  have hinv := serveInvariant_run h
  have hcontrol := hinv.control
  constructor
  · intro hkept
    cases hs : s.main.shuttingDown with
    | true => exact (reported_iff hinv hs).mp (hkept.reported hs)
    | false => simp [(hinv.history.before hs).2.2.1]
  · intro hleft
    refine ⟨fun e he => ?_, fun hr k => ?_, fun e he => ?_, fun k error hk => room hinv hlen hk,
      fun hs => (reported_iff hinv hs).mpr hleft, fun c hc => ?_⟩
    · rw [he] at hcontrol
      obtain ⟨hrefused, hclosed, -⟩ := hcontrol
      exact ⟨hclosed, hrefused⟩
    · cases hm : s.main with
      | listening j => rw [hm] at hcontrol; exact hcontrol.2.2.2.2.2 k
      | closing rest e | aborted e => rw [hm] at hcontrol; exact hcontrol.2.2 k
      | starting j | stopping j => rw [hm] at hcontrol; simp [hcontrol.2.1] at hr
      | selecting | returned e => rw [hm] at hcontrol; simp [hcontrol.1] at hr
    · rw [he] at hcontrol
      obtain ⟨hrefused, hstops, herror, -⟩ := hcontrol
      exact ⟨hstops, herror, hrefused⟩
    · rw [hinv.history.runError]
      exact List.mem_append_right _ hc

/-- The servers of a configuration whose other values do not matter here. -/
def twoServers : List ConfiguredServer :=
  runServers { publicAddress := lit ":8080", managementAddress := lit ":8081" }

/-- Both listeners are opened, and both goroutines serve. -/
def servingState : ServeState where
  main := .selecting
  listeners := [0, 1]
  goroutines := Function.update (Function.update (fun _ => .idle) 0 .serving) 1 .serving

theorem serving_run : ServeRun twoServers servingState :=
  ((((((Relation.ReflTransGen.refl.tail
    (@ServeStep.listen _ _ 0 rfl (by decide))).tail
    (@ServeStep.listen _ _ 1 rfl (by decide))).tail
    (.listened rfl)).tail
    (@ServeStep.start _ _ 0 rfl (by decide))).tail
    (@ServeStep.start _ _ 1 rfl (by decide))).tail
    (.started rfl))

/-- What `Serve` returns when the listener of an address was closed under it. -/
def acceptError (address : String) : Bytes :=
  lit "accept tcp " ++ lit address ++ lit ": use of closed network connection"

/-- The first server fails, which is received and reported; the other one is closed by its shutdown. -/
theorem lifecycle_kept_reported : ∃ s,
    s.main = .returned (some ⟨acceptError "[::]:8080", [⟨.serve 0, acceptError "[::]:8080"⟩]⟩) ∧
    s.early = [(0, some ⟨.serve 0, acceptError "[::]:8080"⟩)] ∧ s.shutdowns = [0, 1] ∧
    (LifecycleKept twoServers s ↔ ∀ m ∈ s.left, m.2 = none) := by
  have hrun := ((((((((serving_run.tail
    (@ServeStep.serveReturns _ _ 0 (.failed (acceptError "[::]:8080")) rfl)).tail
    (@ServeStep.send _ _ 0 _ rfl (by decide))).tail
    (.receive rfl rfl)).tail
    (@ServeStep.shutdown _ _ 0 _ none rfl rfl)).tail
    (@ServeStep.shutdown _ _ 1 _ none rfl rfl)).tail
    (@ServeStep.serveReturns _ _ 1 .serverClosed rfl)).tail
    (@ServeStep.send _ _ 1 _ rfl (by decide))).tail
    (.finish rfl))
  exact ⟨_, rfl, rfl, rfl, lifecycle_kept twoServers (by decide) hrun⟩

/-- Both goroutines fail and have sent their errors before one of them is received. -/
theorem error_lost : ∃ s, ServeRun twoServers s ∧
    s.main = .returned (some ⟨acceptError "[::]:8080", [⟨.serve 0, acceptError "[::]:8080"⟩]⟩) ∧
    (1, some ⟨.serve 1, acceptError "[::]:8081"⟩) ∈ s.early ∧ ¬LifecycleKept twoServers s := by
  have hrun := ((((((((serving_run.tail
    (@ServeStep.serveReturns _ _ 0 (.failed (acceptError "[::]:8080")) rfl)).tail
    (@ServeStep.serveReturns _ _ 1 (.failed (acceptError "[::]:8081")) rfl)).tail
    (@ServeStep.send _ _ 0 _ rfl (by decide))).tail
    (@ServeStep.send _ _ 1 _ rfl (by decide))).tail
    (.receive rfl rfl)).tail
    (@ServeStep.shutdown _ _ 0 _ none rfl rfl)).tail
    (@ServeStep.shutdown _ _ 1 _ none rfl rfl)).tail
    (.finish rfl))
  have hearly : ∀ {a b : Message}, b ∈ [a, b] := by simp
  refine ⟨_, hrun, rfl, hearly, fun hkept => ?_⟩
  have hreported := hkept.reported rfl (1, some ⟨.serve 1, acceptError "[::]:8081"⟩) hearly _ rfl
  have hcalls : ∀ c ∈ [(⟨.serve 0, acceptError "[::]:8080"⟩ : Cause)], c.call = .serve 0 := by simp
  cases hcalls _ hreported

end OpenDiscogs.App
