import Mathlib.Algebra.Group.Action.Defs
import Mathlib.Algebra.Order.BigOperators.Group.List
import Mathlib.Algebra.Order.Ring.Nat
import OpenDiscogs.HttpApi.Responder
import OpenDiscogs.Library.Lease

/-! The response buffers that concurrent calls of `writeJSON` on one responder share. -/
namespace OpenDiscogs.HttpApi
open Utf8

def responseBufferCount := 16
def maximumPooledResponseSize := 2^18

structure Buffer where
  contents : Bytes := []
  capacity : Nat := 0

/-- `buffer.Reset()` keeps the capacity. -/
def Buffer.reset (buffer : Buffer) : Buffer := { buffer with contents := [] }

/-- Where a call of `writeJSON` is, and the buffer it has there. -/
inductive Phase where
  | started
  /-- received from the pool, not reset yet -/
  | received (b : Nat)
  /-- returned by `getBuffer` -/
  | ready (b : Nat)
  /-- with the document encoded -/
  | encoded (b : Nat)
  /-- with the header sent, inside the write of the body -/
  | writing (b : Nat)
  /-- after the write, on the way into `putBuffer` -/
  | returning (b : Nat)
  /-- reset by `putBuffer`, about to be offered to the pool -/
  | offered (b : Nat)
  | finished
  | panicked

def Phase.buffer : Phase → Option Nat
  | started => none
  | received b => some b
  | ready b => some b
  | encoded b => some b
  | writing b => some b
  | returning b => some b
  | offered b => some b
  | finished => none
  | panicked => none

/-- What has left: the length announced, and the body, whole or in part. -/
structure Output where
  contentLength : Option Nat := none
  body : Bytes := []
  whole : Bool := false

structure Writing where
  phase : Phase := .started
  output : Output := {}

/-- The buffers in memory, those that wait in the channel, and the calls. -/
structure PoolState (ι : Type) where
  heap : Nat → Buffer
  next : Nat
  buffers : List Nat
  calls : ι → Writing

section Model
variable {ι : Type} [DecidableEq ι]

namespace PoolState

def call (s : PoolState ι) (i : ι) (c : Writing) : PoolState ι :=
  { s with calls := Function.update s.calls i c }

def store (s : PoolState ι) (b : Nat) (buffer : Buffer) : PoolState ι :=
  { s with heap := Function.update s.heap b buffer }

/-- No call has begun and no buffer was made. -/
def start (ι : Type) : PoolState ι where
  heap := fun _ => {}
  next := 0
  buffers := []
  calls := fun _ => {}

end PoolState

open PoolState

/-- One step of one call, whose document is given. The body leaves in pieces of any size, read off
the buffer at the time; a write may fail or panic after any of them, and so may the header's. -/
inductive PoolStep (document : ι → Bytes) : PoolState ι → PoolState ι → Prop where
  | receive {s : PoolState ι} (i : ι) {b : Nat} {rest : List Nat}
      (hi : (s.calls i).phase = .started) (hb : s.buffers = b::rest) :
      PoolStep document s
        ({ s with buffers := rest }.call i ⟨.received b, (s.calls i).output⟩)
  | reset {s : PoolState ι} (i : ι) {b : Nat} (hi : (s.calls i).phase = .received b) :
      PoolStep document s
        ((s.store b (s.heap b).reset).call i ⟨.ready b, (s.calls i).output⟩)
  | allocate {s : PoolState ι} (i : ι) (hi : (s.calls i).phase = .started)
      (hb : s.buffers = []) :
      PoolStep document s ({ s.store s.next {} with next := s.next+1 }.call i
        ⟨.ready s.next, (s.calls i).output⟩)
  | encode {s : PoolState ι} (i : ι) {b capacity : Nat} (hi : (s.calls i).phase = .ready b)
      (hc : (s.heap b).capacity ≤ capacity)
      (hl : ((s.heap b).contents ++ document i).length ≤ capacity) :
      PoolStep document s ((s.store b ⟨(s.heap b).contents ++ document i, capacity⟩).call i
        ⟨.encoded b, (s.calls i).output⟩)
  | header {s : PoolState ι} (i : ι) {b : Nat} (hi : (s.calls i).phase = .encoded b) :
      PoolStep document s (s.call i ⟨.writing b,
        { (s.calls i).output with contentLength := some (s.heap b).contents.length }⟩)
  | piece {s : PoolState ι} (i : ι) {b : Nat} (n : Nat) (hi : (s.calls i).phase = .writing b) :
      PoolStep document s (s.call i ⟨.writing b, { (s.calls i).output with
        body := (s.calls i).output.body ++
          ((s.heap b).contents.drop (s.calls i).output.body.length).take n }⟩)
  | wrote {s : PoolState ι} (i : ι) {b : Nat} (hi : (s.calls i).phase = .writing b)
      (hl : (s.calls i).output.body.length = (s.heap b).contents.length) :
      PoolStep document s (s.call i ⟨.returning b, { (s.calls i).output with whole := true }⟩)
  | failed {s : PoolState ι} (i : ι) {b : Nat} (hi : (s.calls i).phase = .writing b) :
      PoolStep document s (s.call i ⟨.returning b, (s.calls i).output⟩)
  | panic {s : PoolState ι} (i : ι) {b : Nat}
      (hi : (s.calls i).phase = .encoded b ∨ (s.calls i).phase = .writing b) :
      PoolStep document s (s.call i ⟨.panicked, (s.calls i).output⟩)
  | discard {s : PoolState ι} (i : ι) {b : Nat} (hi : (s.calls i).phase = .returning b)
      (hc : maximumPooledResponseSize < (s.heap b).capacity) :
      PoolStep document s (s.call i ⟨.finished, (s.calls i).output⟩)
  | offer {s : PoolState ι} (i : ι) {b : Nat} (hi : (s.calls i).phase = .returning b)
      (hc : (s.heap b).capacity ≤ maximumPooledResponseSize) :
      PoolStep document s
        ((s.store b (s.heap b).reset).call i ⟨.offered b, (s.calls i).output⟩)
  | put {s : PoolState ι} (i : ι) {b : Nat} (hi : (s.calls i).phase = .offered b)
      (hl : s.buffers.length < responseBufferCount) :
      PoolStep document s ({ s with buffers := s.buffers ++ [b] }.call i
        ⟨.finished, (s.calls i).output⟩)
  | full {s : PoolState ι} (i : ι) {b : Nat} (hi : (s.calls i).phase = .offered b)
      (hl : responseBufferCount ≤ s.buffers.length) :
      PoolStep document s (s.call i ⟨.finished, (s.calls i).output⟩)

/-- The buffers as things that are leased: which of them wait, and who holds which. -/
def PoolState.leases (s : PoolState ι) : Lease.State ι where
  free := s.buffers
  held := fun i => (s.calls i).phase.buffer
  next := s.next

theorem leases_call (s : PoolState ι) (i : ι) (c : Writing) :
    (s.call i c).leases = { s.leases with held := Function.update s.leases.held i c.phase.buffer } := by
  have hheld : (s.call i c).leases.held = Function.update s.leases.held i c.phase.buffer := by
    funext j
    by_cases hj : j = i
    · subst hj
      simp [PoolState.leases, PoolState.call]
    · simp [PoolState.leases, PoolState.call, hj]
  rw [← hheld]
  rfl

omit [DecidableEq ι] in
theorem held_of_phase {s : PoolState ι} {i : ι} {phase : Phase} (h : (s.calls i).phase = phase) :
    s.leases.held i = phase.buffer := congrArg Phase.buffer h

/-- A call that keeps its buffer changes nothing about the leases. -/
theorem leases_keep {s : PoolState ι} {i : ι} {phase : Phase} (hi : (s.calls i).phase = phase)
    {c : Writing} (h : c.phase.buffer = phase.buffer) : (s.call i c).leases = s.leases := by
  have hheld : Function.update s.leases.held i c.phase.buffer = s.leases.held := by
    rw [h, ← held_of_phase hi]
    exact Function.update_eq_self i s.leases.held
  rw [leases_call, hheld]

/-- Every step keeps the leases, or is a step of them. -/
theorem PoolStep.leases {document : ι → Bytes} {s t : PoolState ι} (h : PoolStep document s t) :
    t.leases = s.leases ∨ Lease.Step s.leases t.leases := by
  cases h with
  | receive i hi hb =>
    rw [leases_call]
    exact Or.inr (Lease.Step.take i (held_of_phase hi) hb)
  | @reset i b hi => exact Or.inl (@leases_keep _ _ (s.store b _) i _ hi _ rfl)
  | allocate i hi hb =>
    rw [leases_call]
    exact Or.inr (Lease.Step.make i (held_of_phase hi))
  | @encode i b capacity hi hc hl => exact Or.inl (@leases_keep _ _ (s.store b _) i _ hi _ rfl)
  | header i hi => exact Or.inl (leases_keep hi rfl)
  | piece i n hi => exact Or.inl (leases_keep hi rfl)
  | wrote i hi hl => exact Or.inl (leases_keep hi rfl)
  | failed i hi => exact Or.inl (leases_keep hi rfl)
  | @panic i b hi =>
    have hheld : s.leases.held i = some b := hi.elim held_of_phase held_of_phase
    rw [leases_call]
    exact Or.inr (Lease.Step.drop i hheld)
  | discard i hi hc =>
    rw [leases_call]
    exact Or.inr (Lease.Step.drop i (held_of_phase hi))
  | @offer i b hi hc => exact Or.inl (@leases_keep _ _ (s.store b _) i _ hi _ rfl)
  | put i hi hl =>
    rw [leases_call]
    exact Or.inr (Lease.Step.give i (held_of_phase hi))
  | full i hi hl =>
    rw [leases_call]
    exact Or.inr (Lease.Step.drop i (held_of_phase hi))

/-- Nothing has left yet. -/
structure Unsent (output : Output) : Prop where
  contentLength : output.contentLength = none
  body : output.body = []
  whole : output.whole = false

/-- The length of the document was announced, and what has left is the front of it. -/
structure Sent (document : Bytes) (output : Output) : Prop where
  contentLength : output.contentLength = some document.length
  body : output.body <+: document
  whole : output.whole = true → output.body = document

/-- What is known of a call and of its buffer, by where the call is. -/
def Progress (document : Bytes) (heap : Nat → Buffer) (phase : Phase) (output : Output) : Prop :=
  match phase with
  | .started => Unsent output
  | .received _ => Unsent output
  | .ready b => Unsent output ∧ (heap b).contents = []
  | .encoded b => Unsent output ∧ (heap b).contents = document
  | .writing b => Sent document output ∧ (heap b).contents = document
  | .returning _ => Sent document output
  | .offered b => Sent document output ∧ (heap b).capacity ≤ maximumPooledResponseSize
  | .finished => Sent document output
  | .panicked => Unsent output ∨ Sent document output

/-- Only the call's own buffer matters to it. -/
theorem Progress.frame {document : Bytes} {heap heap' : Nat → Buffer} {phase : Phase}
    {output : Output} (h : Progress document heap phase output)
    (hheap : ∀ b, phase.buffer = some b → heap' b = heap b) :
    Progress document heap' phase output := by
  cases phase with
  | ready b | encoded b | writing b | offered b =>
    simp only [Progress] at h ⊢
    rwa [hheap b rfl]
  | _ => exact h

/-- What holds of the pool and of the calls in every state. -/
structure PoolInvariant (document : ι → Bytes) (s : PoolState ι) : Prop where
  exclusive : Lease.Exclusive s.leases
  progress : ∀ i, Progress (document i) s.heap (s.calls i).phase (s.calls i).output
  count : s.buffers.length ≤ responseBufferCount
  small : ∀ b ∈ s.buffers, (s.heap b).capacity ≤ maximumPooledResponseSize

variable {document : ι → Bytes} {s t : PoolState ι}

omit [DecidableEq ι] in
theorem poolInvariant_start : PoolInvariant document (PoolState.start ι) :=
  ⟨Lease.exclusive_start 0, fun _ => ⟨rfl, rfl, rfl⟩, Nat.zero_le _, by simp [PoolState.start]⟩

/-- A step of one call leaves the others where they were, with their buffers as they were. -/
theorem progress_update {heap' : Nat → Buffer} (h : PoolInvariant document s) {i : ι} {c : Writing}
    (hheap : ∀ j b, j ≠ i → (s.calls j).phase.buffer = some b → heap' b = s.heap b)
    (hc : Progress (document i) heap' c.phase c.output) :
    ∀ j, Progress (document j) heap' (Function.update s.calls i c j).phase
      (Function.update s.calls i c j).output := by
  intro j
  by_cases hj : j = i
  · subst hj
    rwa [Function.update_self]
  · rw [Function.update_of_ne hj]
    exact (h.progress j).frame fun b hb => hheap j b hj hb

omit [DecidableEq ι] in
/-- No other call sees a change of a buffer that a call holds. -/
theorem store_others (h : PoolInvariant document s) {i : ι} {b : Nat}
    (hi : s.leases.held i = some b) (buffer : Buffer) :
    ∀ j c, j ≠ i → (s.calls j).phase.buffer = some c →
      Function.update s.heap b buffer c = s.heap c := by
  intro j c hj hc
  refine Function.update_of_ne (fun he => hj ?_) _ _
  exact h.exclusive.heldOnce j i b (he ▸ hc) hi

omit [DecidableEq ι] in
theorem store_others_new (h : PoolInvariant document s) (i : ι) (buffer : Buffer) :
    ∀ j c, j ≠ i → (s.calls j).phase.buffer = some c →
      Function.update s.heap s.next buffer c = s.heap c := by
  intro j c hj hc
  refine Function.update_of_ne (fun he => ?_) _ _
  exact absurd (h.exclusive.heldKnown j c hc) (he ▸ Nat.lt_irrefl _)

omit [DecidableEq ι] in
theorem small_store (h : PoolInvariant document s) {b : Nat} (hb : b ∉ s.buffers)
    (buffer : Buffer) : ∀ c ∈ s.buffers,
      (Function.update s.heap b buffer c).capacity ≤ maximumPooledResponseSize := by
  intro c hc
  have hne : c ≠ b := fun he => hb (he ▸ hc)
  rw [Function.update_of_ne hne]
  exact h.small c hc

/-- The next piece makes the front of a document longer. -/
theorem prefix_piece {body document : Bytes} (h : body <+: document) (n : Nat) :
    body ++ (document.drop body.length).take n <+: document := by
  obtain ⟨rest, rfl⟩ := h
  rw [List.drop_left, List.prefix_append_right_inj]
  exact List.take_prefix n rest

theorem PoolInvariant.progress_step (h : PoolInvariant document s) (hs : PoolStep document s t) :
    ∀ i, Progress (document i) t.heap (t.calls i).phase (t.calls i).output := by
  have hsame : ∀ (i : ι) (j : ι) (b : Nat), j ≠ i → (s.calls j).phase.buffer = some b →
      s.heap b = s.heap b := fun _ _ _ _ _ => rfl
  have hat : ∀ {i : ι} {phase : Phase}, (s.calls i).phase = phase →
      Progress (document i) s.heap phase (s.calls i).output := fun hi => hi ▸ h.progress _
  cases hs with
  | receive i hi hb =>
    have hunsent : Unsent (s.calls i).output := hat hi
    exact progress_update h (hsame i) hunsent
  | @reset i b hi =>
    refine progress_update h (store_others h (held_of_phase hi) _) ⟨hat hi, ?_⟩
    simp [PoolState.store, PoolState.call, Buffer.reset]
  | allocate i hi hb =>
    refine progress_update h (store_others_new h i _) ⟨hat hi, ?_⟩
    simp [PoolState.store, PoolState.call]
  | @encode i b capacity hi hc hl =>
    obtain ⟨hunsent, hempty⟩ := hat hi
    refine progress_update h (store_others h (held_of_phase hi) _) ⟨hunsent, ?_⟩
    simp [PoolState.store, PoolState.call, hempty]
  | @header i b hi =>
    obtain ⟨hunsent, hcontents⟩ := hat hi
    refine progress_update h (hsame i) ⟨⟨?_, ?_, ?_⟩, hcontents⟩
    · exact congrArg (fun d => some d.length) hcontents
    · exact hunsent.body ▸ List.nil_prefix
    · intro hw
      exact absurd (hunsent.whole.symm.trans hw) nofun
  | @piece i b n hi =>
    obtain ⟨hsent, hcontents⟩ := hat hi
    refine progress_update h (hsame i) ⟨⟨hsent.contentLength, ?_, ?_⟩, hcontents⟩
    · exact hcontents ▸ prefix_piece (hcontents ▸ hsent.body) n
    · intro hw
      have hbody : (s.calls i).output.body = (s.heap b).contents := (hsent.whole hw).trans hcontents.symm
      simp only [hbody, List.drop_length, List.take_nil, List.append_nil, hcontents]
  | @wrote i b hi hl =>
    obtain ⟨hsent, hcontents⟩ := hat hi
    refine progress_update h (hsame i) ⟨hsent.contentLength, hsent.body, fun _ => ?_⟩
    exact hsent.body.eq_of_length (hl.trans (congrArg List.length hcontents))
  | failed i hi => exact progress_update h (hsame i) (hat hi).1
  | @panic i b hi =>
    have houtput : Unsent (s.calls i).output ∨ Sent (document i) (s.calls i).output :=
      hi.elim (fun hi => Or.inl (And.left (hat hi))) fun hi => Or.inr (And.left (hat hi))
    exact progress_update h (hsame i) houtput
  | discard i hi hc =>
    have hsent : Sent (document i) (s.calls i).output := hat hi
    exact progress_update h (hsame i) hsent
  | @offer i b hi hc =>
    refine progress_update h (store_others h (held_of_phase hi) _) ⟨hat hi, ?_⟩
    simpa [PoolState.store, PoolState.call, Buffer.reset] using hc
  | put i hi hl => exact progress_update h (hsame i) (hat hi).1
  | full i hi hl => exact progress_update h (hsame i) (hat hi).1

theorem PoolInvariant.pool_step (h : PoolInvariant document s) (hs : PoolStep document s t) :
    t.buffers.length ≤ responseBufferCount ∧
      ∀ b ∈ t.buffers, (t.heap b).capacity ≤ maximumPooledResponseSize := by
  cases hs with
  | @receive i b rest hi hb =>
    have hcount := h.count
    have hsmall := h.small
    rw [hb] at hcount hsmall
    exact ⟨Nat.le_of_succ_le hcount, fun c hc => hsmall c (List.mem_cons_of_mem b hc)⟩
  | reset i hi => exact ⟨h.count, small_store h (h.exclusive.apart i _ (held_of_phase hi)) _⟩
  | allocate i hi hb =>
    refine ⟨h.count, small_store h (fun hmem => ?_) _⟩
    rw [hb] at hmem
    cases hmem
  | encode i hi hc hl => exact ⟨h.count, small_store h (h.exclusive.apart i _ (held_of_phase hi)) _⟩
  | offer i hi hc => exact ⟨h.count, small_store h (h.exclusive.apart i _ (held_of_phase hi)) _⟩
  | @put i b hi hl =>
    have hcapacity : (s.heap b).capacity ≤ maximumPooledResponseSize := by
      have hprogress := h.progress i
      rw [hi] at hprogress
      exact hprogress.2
    refine ⟨?_, fun c hc => ?_⟩
    · simp only [PoolState.call, List.length_append, List.length_singleton]
      omega
    · obtain hc | hc := List.mem_append.mp hc
      · exact h.small c hc
      · exact List.mem_singleton.mp hc ▸ hcapacity
  | header i hi | piece i n hi | wrote i hi hl | failed i hi | panic i hi | discard i hi hc
  | full i hi hl => exact ⟨h.count, h.small⟩

theorem PoolInvariant.step (h : PoolInvariant document s) (hs : PoolStep document s t) :
    PoolInvariant document t := by
  obtain ⟨hcount, hsmall⟩ := h.pool_step hs
  refine ⟨?_, h.progress_step hs, hcount, hsmall⟩
  obtain he | hl := hs.leases
  · rw [he]
    exact h.exclusive
  · exact h.exclusive.step hl

/-- The invariant holds after every run, in whatever order the calls take their steps. -/
theorem poolInvariant_run (h : Relation.ReflTransGen (PoolStep document) (PoolState.start ι) s) :
    PoolInvariant document s := by
  induction h with
  | refl => exact poolInvariant_start
  | tail _ hs ih => exact ih.step hs

/-- What the pool promises: its buffers are not shared, no response has bytes of another one, and
what is retained is bounded. -/
structure Isolated (document : ι → Bytes) (s : PoolState ι) : Prop where
  heldOnce : ∀ i j b, (s.calls i).phase.buffer = some b → (s.calls j).phase.buffer = some b → i = j
  heldOrFree : ∀ i b, (s.calls i).phase.buffer = some b → b ∉ s.buffers
  freeOnce : s.buffers.Nodup
  own : ∀ i, (s.calls i).output.body <+: document i
  whole : ∀ i, (s.calls i).output.whole = true → (s.calls i).output.body = document i
  announced : ∀ i, ((s.calls i).output.contentLength = none ∧ (s.calls i).output.body = []) ∨
    (s.calls i).output.contentLength = some (document i).length
  count : s.buffers.length ≤ 16
  small : ∀ b ∈ s.buffers, (s.heap b).capacity ≤ 2^18
  retained : (s.buffers.map fun b => (s.heap b).capacity).sum ≤ 4*2^20

theorem sum_capacity_le {heap : Nat → Buffer} {buffers : List Nat}
    (h : ∀ b ∈ buffers, (heap b).capacity ≤ maximumPooledResponseSize) :
    (buffers.map fun b => (heap b).capacity).sum ≤ buffers.length * maximumPooledResponseSize := by
  have hsum := List.sum_le_card_nsmul (buffers.map fun b => (heap b).capacity)
    maximumPooledResponseSize fun c hc => by
      obtain ⟨b, hb, rfl⟩ := List.mem_map.mp hc
      exact h b hb
  rwa [List.length_map, smul_eq_mul] at hsum

theorem Progress.output {heap : Nat → Buffer} {phase : Phase} {output : Output} {d : Bytes}
    (h : Progress d heap phase output) : Unsent output ∨ Sent d output := by
  cases phase with
  | started | received b => exact Or.inl h
  | ready b | encoded b => exact Or.inl h.1
  | writing b | offered b => exact Or.inr h.1
  | returning b | finished => exact Or.inr h
  | panicked => exact h

end Model

/-- The document of a problem whose texts need no escapes. -/
def problemText : JSONPayload → Bytes
  | .problem d =>
    lit ("\x7b\"type\":\"" ++ d.type ++ "\",\"title\":\"" ++ d.title ++ "\",\"status\":") ++
      Strconv.formatNat d.status ++ lit (",\"detail\":\"" ++ d.detail ++ "\",\"instance\":\"") ++
      d.instanceURI ++ lit "\"\x7d\n"
  | .catalog _ => []

/-- A call may finish, and the next one find the buffer of the first in the pool. -/
theorem reused (document : Bool → Bytes) (h : (document true).length ≤ maximumPooledResponseSize) :
    ∃ s, Relation.ReflTransGen (PoolStep document) (PoolState.start Bool) s ∧
      (s.calls true).phase = .finished ∧ (s.calls false).phase = .ready 0 := by
  refine ⟨_, (((((((((Relation.ReflTransGen.refl.tail
    (.allocate true rfl rfl)).tail
    (@PoolStep.encode _ _ _ _ true _ (document true).length rfl (Nat.zero_le _) le_rfl)).tail
    (.header true rfl)).tail
    (.piece true (document true).length rfl)).tail
    (.wrote true rfl ?_)).tail
    (.offer true rfl ?_)).tail
    (.put true rfl ?_)).tail
    (.receive false rfl rfl)).tail
    (.reset false rfl)), rfl, rfl⟩
  · simp [PoolState.call, PoolState.store, PoolState.start]
  · simpa [PoolState.call, PoolState.store, PoolState.start] using h
  · exact Nat.succ_pos 15

end OpenDiscogs.HttpApi
