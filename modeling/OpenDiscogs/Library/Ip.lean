import OpenDiscogs.Library.UrlQuery

/-! Addresses of hosts as text: an address with its port, and the literals for version 6. -/
namespace Ip
open Utf8

/-- The text before the last separator and the text from it on. -/
def cutLast (sep : UInt8) (s : Bytes) : Option (Bytes × Bytes) :=
  if sep ∈ s then
    some ((s.reverse.dropWhile (· != sep)).tail.reverse, sep::(s.reverse.takeWhile (· != sep)).reverse)
  else none

/-- Why a text is no host with a port. -/
inductive AddrError where
  | missingPort
  | tooManyColons
  | missingBracket
  | unexpectedOpen
  | unexpectedClose
deriving DecidableEq

/-- No bracket is left in either text. -/
def withoutBrackets (opening closing : Bytes) (result : Bytes × Bytes) :
    Except AddrError (Bytes × Bytes) :=
  if 0x5B ∈ opening then .error .unexpectedOpen
  else if 0x5D ∈ closing then .error .unexpectedClose
  else .ok result

/-- The host and the port around the last colon; only in brackets may a host have colons. -/
def splitHostPort (hostport : Bytes) : Except AddrError (Bytes × Bytes) :=
  match cutLast 0x3A hostport with
  | none => .error .missingPort
  | some (front, colonPort) =>
    match hostport with
    | 0x5B::inner =>
      if 0x5D ∈ inner then
        let host := inner.takeWhile (· != 0x5D)
        let after := (inner.dropWhile (· != 0x5D)).tail
        if after = [] then .error .missingPort
        else if after = colonPort then
          withoutBrackets inner after (host, colonPort.tail)
        else if after.head? = some 0x3A then .error .tooManyColons
        else .error .missingPort
      else .error .missingBracket
    | _ =>
      if 0x3A ∈ front then .error .tooManyColons
      else withoutBrackets hostport hostport (front, colonPort.tail)

/-- A field of a dotted address: one to three digits without a leading zero, at most 255. -/
def field (s : Bytes) : Option Nat :=
  if s = [] ∨ (1 < s.length ∧ s.head? = some 0x30) ∨ 3 < s.length then none
  else if s.all fun b => 0x30 ≤ b && b ≤ 0x39 then
    let n := s.foldl (fun n b => n*10+(b.toNat-0x30)) 0
    if n ≤ 255 then some n else none
  else none

/-- The two groups that a dotted address stands for. -/
def dotted (s : Bytes) : Option (List Nat) :=
  match (s.splitOn 0x2E).map field with
  | [some a, some b, some c, some d] => some [a*256+b, c*256+d]
  | _ => none

/-- The groups up to the end of the text, and the number of groups before a double colon, if there
is one; `room` groups may still come. -/
def groups (room : Nat) (before : List Nat) (ellipsis : Option Nat) (s : Bytes) :
    Option (List Nat × Option Nat) :=
  match room with
  | 0 => none
  | room+1 =>
    let digits := s.takeWhile fun b => (UrlQuery.unhex b).isSome
    let rest := s.drop digits.length
    if digits = [] ∨ 4 < digits.length then none
    else if rest.head? = some 0x2E then
      if (ellipsis = none ∧ before.length ≠ 6) ∨ 6 < before.length then none
      else (dotted s).map fun pair => (before ++ pair, ellipsis)
    else
      let before := before ++ [digits.foldl (fun n b => n*16+(UrlQuery.unhex b).getD 0) 0]
      match rest with
      | [] => some (before, ellipsis)
      | 0x3A::0x3A::s =>
        if ellipsis.isSome then none
        else if s = [] then some (before, some before.length)
        else if room = 0 then none
        else groups room before (some before.length) s
      | 0x3A::b::s => if room = 0 then none else groups room before ellipsis (b::s)
      | _ => none

/-- The eight groups, the zeros at a double colon filled in; it stands for one group at least. -/
def expand (parsed : List Nat × Option Nat) : Option (List Nat) :=
  match parsed with
  | (all, none) => if all.length = 8 then some all else none
  | (all, some n) =>
    if all.length < 8 then some (all.take n ++ List.replicate (8-all.length) 0 ++ all.drop n)
    else none

def parseGroups : Bytes → Option (List Nat)
  | [0x3A, 0x3A] => some (List.replicate 8 0)
  | 0x3A::0x3A::s => (groups 8 [] (some 0) s).bind expand
  | s => (groups 8 [] none s).bind expand

/-- An address of version 6, with or without a zone. -/
def isLiteral (s : Bytes) : Bool :=
  let address := s.takeWhile (· != 0x25)
  let zone := s.drop address.length
  if zone.length = 1 then false
  else match address.find? fun b => b == 0x2E || b == 0x3A with
    | some 0x3A => (parseGroups address).isSome
    | _ => false

theorem cutLast_append {sep : UInt8} {t : Bytes} (h : sep ∉ t) (a : Bytes) :
    cutLast sep (a ++ sep::t) = some (a, sep::t) := by
  have ht : sep ∉ t.reverse := fun hmem => h (List.mem_reverse.mp hmem)
  simp [cutLast, takeWhile_append_sep ht, dropWhile_append_sep ht]

theorem cutLast_none {sep : UInt8} {s : Bytes} (h : sep ∉ s) : cutLast sep s = none := if_neg h

theorem not_mem_of_cutLast {sep : UInt8} {s : Bytes} (h : cutLast sep s = none) : sep ∉ s := by
  intro hmem
  simp [cutLast, hmem] at h

/-- A text that is cut has the separator once in the second part, in front. -/
theorem cutLast_some {sep : UInt8} {s a b : Bytes} (h : cutLast sep s = some (a, b)) :
    ∃ t, b = sep::t ∧ sep ∉ t ∧ s = a ++ sep::t := by
  by_cases hs : sep ∈ s
  · obtain ⟨front, back, he, hf⟩ := List.eq_append_cons_of_mem (List.mem_reverse.mpr hs)
    have hse : s = back.reverse ++ sep::front.reverse := by
      rw [← List.reverse_reverse s, he]
      simp
    have ht : sep ∉ front.reverse := by simpa using hf
    rw [hse, cutLast_append ht, Option.some.injEq, Prod.mk.injEq] at h
    obtain ⟨rfl, rfl⟩ := h
    exact ⟨_, rfl, ht, hse⟩
  · rw [cutLast_none hs] at h
    cases h

/-- The shape of a host with its port, in brackets or not. -/
inductive HostPort : Bytes → Bytes → Bytes → Prop
  | name {name port : Bytes} (hcolon : 0x3A ∉ name ∧ 0x3A ∉ port)
      (hbracket : 0x5B ∉ name ++ 0x3A::port) : HostPort (name ++ 0x3A::port) name port
  | literal {name port : Bytes} (hport : 0x3A ∉ port ∧ 0x5D ∉ port) (hbracket : 0x5B ∉ name) :
      HostPort (0x5B::(name ++ 0x5D::0x3A::port)) name port

theorem withoutBrackets_ok {opening closing : Bytes} {result x : Bytes × Bytes}
    (h : withoutBrackets opening closing result = .ok x) :
    x = result ∧ 0x5B ∉ opening ∧ 0x5D ∉ closing := by
  unfold withoutBrackets at h
  split at h
  · cases h
  · next ho =>
    split at h
    · cases h
    · next hc =>
      cases h
      exact ⟨rfl, ho, hc⟩

/-- A host in brackets ends where its port's colon follows. -/
theorem splitHostPort_literal {inner name port : Bytes}
    (h : splitHostPort (0x5B::inner) = .ok (name, port)) :
    HostPort (0x5B::inner) name port := by
  rw [splitHostPort] at h
  cases hcut : cutLast 0x3A (0x5B::inner) with
  | none => simp [hcut] at h
  | some pair =>
    obtain ⟨last, hpair, hlast, -⟩ := cutLast_some hcut
    simp only [hcut, hpair, List.tail_cons] at h
    split at h
    · next hclose =>
      split at h
      · cases h
      · split at h
        · next hafter =>
          obtain ⟨hx, ho, hc⟩ := withoutBrackets_ok h
          obtain ⟨rfl, rfl⟩ := Prod.mk.inj hx
          have hinner : inner = inner.takeWhile (· != 0x5D) ++ 0x5D::0x3A::port := by
            obtain ⟨front, back, rfl, hf⟩ := List.eq_append_cons_of_mem hclose
            rw [dropWhile_append_sep hf, List.tail_cons] at hafter
            rw [takeWhile_append_sep hf, hafter]
          rw [hafter, List.mem_cons, not_or] at hc
          rw [hinner, List.mem_append, not_or] at ho
          have hport := HostPort.literal ⟨hlast, hc.2⟩ ho.1
          rwa [← hinner] at hport
        · split at h <;> cases h
    · cases h

theorem splitHostPort_ok {hostport name port : Bytes}
    (h : splitHostPort hostport = .ok (name, port)) : HostPort hostport name port := by
  by_cases hb : hostport.head? = some 0x5B
  · obtain ⟨inner, rfl⟩ := List.head?_eq_some_iff.mp hb
    exact splitHostPort_literal h
  · unfold splitHostPort at h
    cases hcut : cutLast 0x3A hostport with
    | none => simp [hcut] at h
    | some pair =>
      obtain ⟨last, hpair, hlast, rfl⟩ := cutLast_some hcut
      simp only [hcut, hpair, List.tail_cons] at h
      split at h
      · next he =>
        rw [he] at hb
        simp at hb
      · split at h
        · cases h
        · next hcolon =>
          obtain ⟨hx, ho, -⟩ := withoutBrackets_ok h
          obtain ⟨rfl, rfl⟩ := Prod.mk.inj hx
          exact .name ⟨hcolon, hlast⟩ ho

end Ip
