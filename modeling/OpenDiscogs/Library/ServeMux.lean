import Mathlib.Data.List.Dedup
import Mathlib.Data.List.Sort
import OpenDiscogs.Library.HttpResponse
import OpenDiscogs.Library.UrlEscape

/-! A multiplexer of requests: patterns of methods and paths, the descent of a path through all of
them segment by segment, and the answers to requests that no pattern is for. -/
namespace ServeMux
open Utf8 HttpResponse

/-- A segment of a pattern's path: one text, any segment, or everything that is left. -/
inductive Segment where
  | literal (s : Bytes)
  | wildcard (name : Bytes)
  | multi (name : Bytes)
deriving DecidableEq

/-- A malformed escape leaves a segment as it is. -/
def pathUnescape (s : Bytes) : Bytes := (Url.unescape .path s).getD s

def slash : Bytes := [0x2F]

/-- The first segment of a path and the rest of it; a lone slash is a segment of its own. -/
def firstSegment (path : Bytes) : Bytes × Bytes :=
  if path = slash then (slash, [])
  else (pathUnescape (path.tail.takeWhile (· != 0x2F)), path.tail.dropWhile (· != 0x2F))

/-! Patterns -/

structure Pattern where
  method : Option String
  segments : List Segment
deriving DecidableEq

/-- The name of a wildcard: a letter or an underscore, then also digits. -/
def validName : Bytes → Bool
  | [] => false
  | b::s => letter b && s.all fun c => letter c || 0x30 ≤ c && c ≤ 0x39
where
  letter (b : UInt8) : Bool := Url.isLetter b || b == 0x5F

/-- A segment within a pattern; the forms that take in the end of a path stand at its end only. -/
def parseSegment (segment rest : Bytes) : Option Segment :=
  match segment with
  | 0x7B::inner =>
    if inner.getLast? = some 0x7D then
      let name := inner.dropLast
      if name = [0x24] then if rest = [] then some (.literal slash) else none
      else if (lit "...").isSuffixOf name then
        let name := name.take (name.length-3)
        if rest = [] ∧ validName name then some (.multi name) else none
      else if validName name then some (.wildcard name)
      else none
    else none
  | _ => if 0x7B ∈ segment then none else some (.literal (pathUnescape segment))

/-- The segments of a pattern's path, which starts with a slash; each takes a byte at least. -/
def parseSegmentsWithin : Nat → Bytes → Option (List Segment)
  | _, [] => some []
  | _, [_] => some [.multi []]
  | 0, _ => none
  | fuel+1, _::s => do
    let rest := s.dropWhile (· != 0x2F)
    let segment ← parseSegment (s.takeWhile (· != 0x2F)) rest
    let segments ← parseSegmentsWithin fuel rest
    return segment::segments

def wildcardName : Segment → Option Bytes
  | .literal _ => none
  | .wildcard name => some name
  | .multi name => some name

def parseSegments (path : Bytes) : Option (List Segment) := do
  let segments ← parseSegmentsWithin path.length path
  if (segments.filterMap wildcardName).Nodup then some segments else none

/-! Clean paths -/

/-- The parts between slashes. -/
def splitSlash (s : Bytes) : List Bytes := s.splitOn 0x2F

/-- A part put on the stack of those before it: a dot stays where it is, two dots go back. -/
def cleanStep (stack : List Bytes) (part : Bytes) : List Bytes :=
  if part = [] ∨ part = lit "." then stack
  else if part = lit ".." then stack.tail
  else part::stack

/-- `path.Clean` of a path from the root. -/
def rootedClean (s : Bytes) : Bytes :=
  match ((splitSlash s).foldl cleanStep []).reverse with
  | [] => slash
  | parts => parts.flatMap (0x2F::·)

/-- The canonical path, with its last slash kept. -/
def cleanPath (s : Bytes) : Bytes :=
  let rooted := if s.head? = some 0x2F then s else 0x2F::s
  let clean := rootedClean rooted
  if rooted.getLast? = some 0x2F ∧ clean ≠ slash then clean ++ slash else clean

/-! Descent -/

section Descent
variable {β : Type}

/-- Patterns on the way down, each with the segments that are left of it. -/
abbrev Node (β : Type) := List (List Segment × β)

def Node.leaf (n : Node β) : Option β := (n.find? fun entry => entry.1 = []).map (·.2)

def Node.literalChild (n : Node β) (segment : Bytes) : Node β :=
  n.filterMap fun entry => match entry.1 with
    | .literal s::rest => if s = segment then some (rest, entry.2) else none
    | _ => none

def Node.wildcardChild (n : Node β) : Node β :=
  n.filterMap fun entry => match entry.1 with
    | .wildcard _::rest => some (rest, entry.2)
    | _ => none

/-- The pattern that takes everything; one without a name records no match. -/
def Node.multiChild (n : Node β) (rest : Bytes) : Option (β × List Bytes) :=
  n.findSome? fun entry => match entry.1 with
    | .multi name::_ => some (entry.2, if name = [] then [] else [pathUnescape rest])
    | _ => none

/-- Literal segments are tried before wildcards, and these before what takes everything. -/
def Node.matchWithin : Nat → Node β → Bytes → Option (β × List Bytes)
  | _, n, [] => n.leaf.map fun b => (b, [])
  | 0, _, _ => none
  | fuel+1, n, c::path =>
    let (segment, rest) := firstSegment (c::path)
    match matchWithin fuel (n.literalChild segment) rest with
    | some found => some found
    | none =>
      match if segment = slash then none else matchWithin fuel n.wildcardChild rest with
      | some (b, matched) => some (b, segment::matched)
      | none => n.multiChild path

def Node.matchPath (n : Node β) (path : Bytes) : Option (β × List Bytes) :=
  n.matchWithin path.length path

end Descent

/-- A path is of the form of a list of segments, with what stands at the wildcards. -/
inductive Matches : List Segment → Bytes → List Bytes → Prop where
  | done : Matches [] [] []
  | literal {s rest : Bytes} {path : Bytes} {segments : List Segment} {matched : List Bytes} :
      path ≠ [] → firstSegment path = (s, rest) → Matches segments rest matched →
      Matches (.literal s::segments) path matched
  | wildcard {name segment rest path : Bytes} {segments : List Segment} {matched : List Bytes} :
      path ≠ [] → firstSegment path = (segment, rest) → segment ≠ slash →
      Matches segments rest matched → Matches (.wildcard name::segments) path (segment::matched)
  | multi {name path : Bytes} {segments : List Segment} : path ≠ [] →
      Matches (.multi name::segments) path (if name = [] then [] else [pathUnescape path.tail])

/-! Dispatch -/

/-- What becomes of a request. -/
inductive Dispatch (α : Type) where
  | handler (a : α) (matched : List Bytes)
  | redirect (path : Bytes)
  | methodNotAllowed (allowed : List String)
  | notFound
deriving DecidableEq

/-- Patterns with what they are for. -/
abbrev Mux (α : Type) := List (Pattern × α)

namespace Mux
variable {α : Type}

/-- The tree below one method, or below none. -/
def tree (mux : Mux α) (method : Option String) : Node (List Segment × α) :=
  mux.filterMap fun entry =>
    if entry.1.method = method then some (entry.1.segments, (entry.1.segments, entry.2)) else none

/-- Patterns for GET are for HEAD too, and those without a method for every one. -/
def matchMethod (mux : Mux α) (method : String) (path : Bytes) :
    Option ((List Segment × α) × List Bytes) :=
  ((mux.tree (some method)).matchPath path).or
    ((if method = "HEAD" then (mux.tree (some "GET")).matchPath path else none).or
      ((mux.tree none).matchPath path))

/-- Only a pattern that takes in the last slash of a path is for it exactly. -/
def exactMatch (found : Option ((List Segment × α) × List Bytes)) (path : Bytes) : Bool :=
  match found with
  | none => false
  | some ((segments, _), _) =>
    path ≠ [] && path.getLast? ≠ some 0x2F || segments.length = path.count 0x2F

/-- A path that only a pattern with one more slash is for is sent there. -/
def slashRedirect (mux : Mux α) (method : String) (path : Bytes) : Bool :=
  !exactMatch (mux.matchMethod method path) path && path.getLast? ≠ some 0x2F && path ≠ [] &&
    exactMatch (mux.matchMethod method (path ++ slash)) (path ++ slash)

def methods (mux : Mux α) : List String := (mux.filterMap fun entry => entry.1.method).dedup

def matchingPath (mux : Mux α) (path : Bytes) : List String :=
  mux.methods.filter fun method => ((mux.tree (some method)).matchPath path).isSome

/-- The methods that the path would have been found with, in their order. -/
def matchingMethods (mux : Mux α) (path : Bytes) : List String :=
  let found := mux.matchingPath path ++
    if path.getLast? ≠ some 0x2F then mux.matchingPath (path ++ slash) else []
  let found := if "GET" ∈ found then "HEAD"::found else found
  found.dedup.insertionSort (· ≤ ·)

def unmatched (mux : Mux α) (path : Bytes) : Dispatch α :=
  match mux.matchingMethods path with
  | [] => .notFound
  | allowed => .methodNotAllowed allowed

/-- The handler of a request for a path, as it is escaped and as it is meant. All but CONNECT are
sent to the clean path, and to the one with a slash when only that is registered. -/
def findHandler (mux : Mux α) (method : String) (escapedPath path : Bytes) : Dispatch α :=
  let connect := method = "CONNECT"
  let canonical := if connect then escapedPath else cleanPath escapedPath
  if mux.slashRedirect method canonical then .redirect (cleanPath path ++ slash)
  else if !connect && canonical ≠ escapedPath then .redirect canonical
  else match mux.matchMethod method canonical with
    | some ((_, a), matched) => .handler a matched
    | none => mux.unmatched canonical

/-- What a request ends in: a handler, a redirection with the header fields that it starts from,
or an error of the multiplexer's own. -/
inductive Reply (α : Type) where
  | handled (a : α) (matched : List Bytes)
  | redirected (header : Header) (path : Bytes)
  | refused (writer : Writer)

def reply (mux : Mux α) (method : String) (escapedPath path : Bytes) (writer : Writer) : Reply α :=
  match mux.findHandler method escapedPath path with
  | .handler a matched => .handled a matched
  | .redirect path => .redirected writer.header path
  | .methodNotAllowed allowed =>
    let header := writer.header.set "Allow" (lit (", ".intercalate allowed))
    .refused ({ writer with header := header }.error "Method Not Allowed" 405)
  | .notFound => .refused (writer.error "404 page not found" 404)

end Mux

/-! Descent finds what matches -/

section Descent
variable {β : Type}

theorem firstSegment_rest (c : UInt8) (path : Bytes) :
    (firstSegment (c::path)).2.length ≤ path.length := by
  unfold firstSegment
  split
  · exact Nat.zero_le _
  · exact List.length_dropWhile_le _ _

theorem Node.mem_literalChild {n : Node β} {segment : Bytes} {rest : List Segment} {b : β} :
    (rest, b) ∈ n.literalChild segment ↔ (.literal segment::rest, b) ∈ n := by
  simp only [Node.literalChild, List.mem_filterMap]
  constructor
  · intro hparts
    obtain ⟨⟨segments, a⟩, hmem, he⟩ := hparts
    split at he
    · next s tail heq =>
      split at he
      · next hs =>
        cases he
        simp only at heq
        rwa [heq, hs] at hmem
      · cases he
    · cases he
  · intro h
    exact ⟨_, h, by simp⟩

theorem Node.mem_wildcardChild {n : Node β} {rest : List Segment} {b : β} :
    (rest, b) ∈ n.wildcardChild ↔ ∃ name, (.wildcard name::rest, b) ∈ n := by
  simp only [Node.wildcardChild, List.mem_filterMap]
  constructor
  · intro hparts
    obtain ⟨⟨segments, a⟩, hmem, he⟩ := hparts
    split at he
    · next name tail heq =>
      cases he
      simp only at heq
      exact ⟨name, by rwa [heq] at hmem⟩
    · cases he
  · intro hparts
    obtain ⟨name, h⟩ := hparts
    exact ⟨_, h, rfl⟩

theorem Node.leaf_mem {n : Node β} {b : β} (h : n.leaf = some b) : ([], b) ∈ n := by
  obtain ⟨⟨segments, a⟩, hfind, rfl⟩ := Option.map_eq_some_iff.mp h
  have hnil : segments = [] := by simpa using List.find?_some hfind
  exact hnil ▸ List.mem_of_find?_eq_some hfind

theorem Node.matchWithin_nil (fuel : Nat) (n : Node β) :
    n.matchWithin fuel [] = n.leaf.map fun b => (b, []) := by
  cases fuel <;> rfl

theorem Node.multiChild_some {n : Node β} {rest : Bytes} {b : β} {matched : List Bytes}
    (h : n.multiChild rest = some (b, matched)) : ∃ name segments,
      (.multi name::segments, b) ∈ n ∧ matched = if name = [] then [] else [pathUnescape rest] := by
  obtain ⟨⟨segments, a⟩, hmem, he⟩ := List.exists_of_findSome?_eq_some h
  split at he
  · next name tail heq =>
    cases he
    simp only at heq
    exact ⟨name, tail, heq ▸ hmem, rfl⟩
  · cases he

/-- What the descent finds is a pattern of the path. -/
theorem Node.matchWithin_sound {fuel : Nat} {n : Node β} {path : Bytes} {b : β}
    {matched : List Bytes} (h : n.matchWithin fuel path = some (b, matched)) :
    ∃ segments, (segments, b) ∈ n ∧ Matches segments path matched := by
  induction fuel generalizing n path b matched with
  | zero =>
    cases path with
    | cons c path => cases h
    | nil =>
      rw [matchWithin_nil] at h
      obtain ⟨a, hleaf, he⟩ := Option.map_eq_some_iff.mp h
      cases he
      exact ⟨[], leaf_mem hleaf, .done⟩
  | succ fuel ih =>
    cases path with
    | nil =>
      rw [matchWithin_nil] at h
      obtain ⟨a, hleaf, he⟩ := Option.map_eq_some_iff.mp h
      cases he
      exact ⟨[], leaf_mem hleaf, .done⟩
    | cons c path =>
      cases hfirst : firstSegment (c::path) with
      | mk segment rest =>
        simp only [matchWithin, hfirst] at h
        split at h
        · next found hliteral =>
          cases h
          obtain ⟨segments, hmem, hm⟩ := ih hliteral
          exact ⟨_, mem_literalChild.mp hmem, .literal (by simp) hfirst hm⟩
        · split at h
          · next a others hwild =>
            cases h
            split at hwild
            · cases hwild
            · next hslash =>
              obtain ⟨segments, hmem, hm⟩ := ih hwild
              obtain ⟨name, hname⟩ := mem_wildcardChild.mp hmem
              exact ⟨_, hname, .wildcard (by simp) hfirst hslash hm⟩
          · obtain ⟨name, segments, hmem, rfl⟩ := multiChild_some h
            exact ⟨_, hmem, @Matches.multi name (c::path) segments (List.cons_ne_nil c path)⟩

theorem Node.leaf_isSome {n : Node β} {b : β} (h : ([], b) ∈ n) : n.leaf.isSome = true := by
  rw [leaf, Option.isSome_map, List.find?_isSome]
  exact ⟨_, h, by simp⟩

theorem Node.multiChild_isSome {n : Node β} {name : Bytes} {segments : List Segment} {b : β}
    (h : (.multi name::segments, b) ∈ n) (rest : Bytes) : (n.multiChild rest).isSome = true := by
  rw [multiChild, List.findSome?_isSome_iff]
  exact ⟨_, h, rfl⟩

/-- One step of the descent finds something as soon as one of the three ways down does. -/
theorem Node.matchWithin_isSome {fuel : Nat} {n : Node β} {c : UInt8} {path segment rest : Bytes}
    (hfirst : firstSegment (c::path) = (segment, rest))
    (h : ((n.literalChild segment).matchWithin fuel rest).isSome = true ∨
      (segment ≠ slash ∧ (n.wildcardChild.matchWithin fuel rest).isSome = true) ∨
      (n.multiChild path).isSome = true) :
    (n.matchWithin (fuel+1) (c::path)).isSome = true := by
  simp only [matchWithin, hfirst]
  split
  · rfl
  · next hliteral =>
    split
    · rfl
    · next hwild =>
      rw [hliteral] at h
      obtain hl | hw | hmulti := h
      · cases hl
      · rw [if_neg hw.1] at hwild
        rw [hwild] at hw
        cases hw.2
      · exact hmulti

/-- A path of the form of one of the patterns is found. By induction on the form: its first
segment is one of the ways down. -/
theorem Node.matchWithin_complete {fuel : Nat} {n : Node β} {path : Bytes} {b : β}
    {segments : List Segment} {matched : List Bytes} (hfuel : path.length ≤ fuel)
    (hmem : (segments, b) ∈ n) (hm : Matches segments path matched) :
    (n.matchWithin fuel path).isSome = true := by
  induction hm generalizing fuel n with
  | done =>
    rw [matchWithin_nil, Option.isSome_map]
    exact leaf_isSome hmem
  | @literal s rest path segments matched hne hfirst hm ih =>
    obtain ⟨c, path, rfl⟩ := List.exists_cons_of_ne_nil hne
    obtain ⟨m, rfl⟩ : ∃ m, fuel = m+1 := ⟨fuel-1, by simp at hfuel; omega⟩
    have hrest := firstSegment_rest c path
    rw [hfirst] at hrest
    rw [List.length_cons] at hfuel
    exact matchWithin_isSome hfirst
      (Or.inl (ih (by simp only at hrest; omega) (mem_literalChild.mpr hmem)))
  | @wildcard name segment rest path segments matched hne hfirst hslash hm ih =>
    obtain ⟨c, path, rfl⟩ := List.exists_cons_of_ne_nil hne
    obtain ⟨m, rfl⟩ : ∃ m, fuel = m+1 := ⟨fuel-1, by simp at hfuel; omega⟩
    have hrest := firstSegment_rest c path
    rw [hfirst] at hrest
    rw [List.length_cons] at hfuel
    exact matchWithin_isSome hfirst (Or.inr (Or.inl ⟨hslash,
      ih (by simp only at hrest; omega) (mem_wildcardChild.mpr ⟨name, hmem⟩)⟩))
  | @multi name path segments hne =>
    obtain ⟨c, path, rfl⟩ := List.exists_cons_of_ne_nil hne
    obtain ⟨m, rfl⟩ : ∃ m, fuel = m+1 := ⟨fuel-1, by simp at hfuel; omega⟩
    exact matchWithin_isSome rfl (Or.inr (Or.inr (multiChild_isSome hmem path)))

/-- What stands at the wildcards is determined by the form. -/
theorem Matches.matched_eq {segments : List Segment} {path : Bytes} {m₁ m₂ : List Bytes}
    (h₁ : Matches segments path m₁) (h₂ : Matches segments path m₂) : m₁ = m₂ := by
  induction h₁ generalizing m₂ with
  | done => cases h₂; rfl
  | literal hne hfirst hm ih =>
    cases h₂ with
    | literal hne' hfirst' hm' =>
      rw [hfirst] at hfirst'
      cases hfirst'
      exact ih hm'
  | wildcard hne hfirst hslash hm ih =>
    cases h₂ with
    | wildcard hne' hfirst' hslash' hm' =>
      rw [hfirst] at hfirst'
      cases hfirst'
      rw [ih hm']
  | multi hne => cases h₂; rfl

/-- Whether two forms may have a path in common. -/
def compatible : List Segment → List Segment → Bool
  | [], [] => true
  | .multi _::_, _::_ => true
  | _::_, .multi _::_ => true
  | .literal s::segments, .literal t::others => s = t && compatible segments others
  | .literal s::segments, .wildcard _::others => s ≠ slash && compatible segments others
  | .wildcard _::segments, .literal t::others => t ≠ slash && compatible segments others
  | .wildcard _::segments, .wildcard _::others => compatible segments others
  | _, _ => false

theorem Matches.compatible {segments others : List Segment} {path : Bytes} {m₁ m₂ : List Bytes}
    (h₁ : Matches segments path m₁) (h₂ : Matches others path m₂) :
    compatible segments others = true := by
  induction h₁ generalizing others m₂ with
  | done =>
    cases h₂ with
    | done => rfl
    | literal hne => exact absurd rfl hne
    | wildcard hne => exact absurd rfl hne
    | multi hne => exact absurd rfl hne
  | literal hne hfirst hm ih =>
    cases h₂ with
    | done => exact absurd rfl hne
    | literal hne' hfirst' hm' =>
      rw [hfirst] at hfirst'
      cases hfirst'
      simpa [ServeMux.compatible] using ih hm'
    | wildcard hne' hfirst' hslash hm' =>
      rw [hfirst] at hfirst'
      cases hfirst'
      simpa [ServeMux.compatible, hslash] using ih hm'
    | multi hne' => rfl
  | wildcard hne hfirst hslash hm ih =>
    cases h₂ with
    | done => exact absurd rfl hne
    | literal hne' hfirst' hm' =>
      rw [hfirst] at hfirst'
      cases hfirst'
      simpa [ServeMux.compatible, hslash] using ih hm'
    | wildcard hne' hfirst' hslash' hm' =>
      rw [hfirst] at hfirst'
      cases hfirst'
      simpa [ServeMux.compatible] using ih hm'
    | multi hne' => rfl
  | multi hne =>
    cases h₂ with
    | done => exact absurd rfl hne
    | literal => rfl
    | wildcard => rfl
    | multi => rfl

/-- No two patterns may have a path in common. -/
def Node.Unambiguous (n : Node β) : Prop :=
  ∀ p ∈ n, ∀ q ∈ n, ServeMux.compatible p.1 q.1 = true → p = q

/-- Of patterns without a path in common the descent finds exactly the one that is for the path. -/
theorem Node.matchPath_iff {n : Node β} (hn : n.Unambiguous) {path : Bytes} {b : β}
    {matched : List Bytes} : n.matchPath path = some (b, matched) ↔
      ∃ segments, (segments, b) ∈ n ∧ Matches segments path matched := by
  refine ⟨matchWithin_sound, fun hparts => ?_⟩
  obtain ⟨segments, hmem, hm⟩ := hparts
  obtain ⟨⟨a, found⟩, hfound⟩ := Option.isSome_iff_exists.mp
    (matchWithin_complete (Nat.le_refl path.length) hmem hm)
  obtain ⟨others, hmem', hm'⟩ := matchWithin_sound hfound
  cases hn _ hmem _ hmem' (hm.compatible hm')
  rw [matchPath, hfound, hm.matched_eq hm']

end Descent

/-! Paths with one more slash -/

theorem takeWhile_slashed (t : Bytes) :
    (t ++ slash).takeWhile (· != 0x2F) = t.takeWhile (· != 0x2F) := by
  rw [List.takeWhile_append]
  split
  · next h =>
    rw [List.IsPrefix.eq_of_length (List.takeWhile_prefix _) h]
    exact List.append_nil t
  · rfl

theorem dropWhile_slashed (t : Bytes) :
    (t ++ slash).dropWhile (· != 0x2F) = t.dropWhile (· != 0x2F) ++ slash := by
  rw [List.dropWhile_append]
  split
  · next h =>
    rw [List.isEmpty_iff.mp h]
    rfl
  · rfl

/-- A path that does not end in a slash. -/
def Unslashed (path : Bytes) : Prop := path.getLast? ≠ some 0x2F

theorem firstSegment_slashed {path : Bytes} (hne : path ≠ []) (hu : Unslashed path) :
    firstSegment (path ++ slash) = ((firstSegment path).1, (firstSegment path).2 ++ slash) ∧
      Unslashed (firstSegment path).2 := by
  obtain ⟨c, t, rfl⟩ := List.exists_cons_of_ne_nil hne
  have hlone : c::t ≠ slash := by
    intro he
    exact hu (by rw [he]; rfl)
  have hlonger : c::t ++ slash ≠ slash := by simp [slash]
  rw [firstSegment, firstSegment, if_neg hlone, if_neg hlonger]
  refine ⟨?_, fun hlast => hu ?_⟩
  · rw [List.cons_append, List.tail_cons, List.tail_cons, takeWhile_slashed, dropWhile_slashed]
  · rw [List.tail_cons] at hlast
    have hsuffix : t.dropWhile (· != 0x2F) <:+ c::t :=
      (List.dropWhile_suffix _).trans (List.suffix_cons c t)
    obtain ⟨front, hfront⟩ := hsuffix
    have hrest : t.dropWhile (· != 0x2F) ≠ [] := by
      intro he
      rw [he] at hlast
      cases hlast
    rw [← hfront, List.getLast?_append_of_ne_nil _ hrest]
    exact hlast

def Segment.single : Segment → Bool
  | .multi _ => false
  | _ => true

/-- A form of single segments that takes in one more slash has a segment for it. -/
theorem Matches.unslash {segments : List Segment} {path : Bytes} {matched : List Bytes}
    (hs : ∀ s ∈ segments, s.single = true) (hu : Unslashed path)
    (h : Matches segments (path ++ slash) matched) :
    ∃ front, segments = front ++ [.literal slash] ∧ Matches front path matched := by
  induction segments generalizing path matched with
  | nil =>
    generalize hpath : path ++ slash = slashed at h
    cases h
    simp [slash] at hpath
  | cons segment segments ih =>
    have hrest := fun s hmem => hs s (List.mem_cons_of_mem segment hmem)
    by_cases hne : path = []
    · subst hne
      have hfirst : firstSegment slash = (slash, []) := if_pos rfl
      generalize hpath : [] ++ slash = slashed at h
      rw [List.nil_append] at hpath
      cases h with
      | literal hne' hfirst' hm =>
        rw [← hpath, hfirst] at hfirst'
        cases hfirst'
        cases hm with
        | done => exact ⟨[], rfl, .done⟩
        | literal hne => exact absurd rfl hne
        | wildcard hne => exact absurd rfl hne
        | multi hne => exact absurd rfl hne
      | wildcard hne' hfirst' hslash hm =>
        rw [← hpath, hfirst] at hfirst'
        cases hfirst'
        exact absurd rfl hslash
      | multi hne' => exact absurd (hs _ (List.mem_cons_self ..)) (by simp [Segment.single])
    · obtain ⟨hfirst, hunslashed⟩ := firstSegment_slashed hne hu
      generalize hpath : path ++ slash = slashed at h
      rw [hpath] at hfirst
      cases h with
      | literal hne' hfirst' hm =>
        rw [hfirst] at hfirst'
        cases hfirst'
        obtain ⟨front, rfl, hfront⟩ := ih hrest hunslashed hm
        exact ⟨_::front, rfl, .literal hne rfl hfront⟩
      | wildcard hne' hfirst' hslash hm =>
        rw [hfirst] at hfirst'
        cases hfirst'
        obtain ⟨front, rfl, hfront⟩ := ih hrest hunslashed hm
        exact ⟨_::front, rfl, .wildcard hne rfl hslash hfront⟩
      | multi hne' => exact absurd (hs _ (List.mem_cons_self ..)) (by simp [Segment.single])

/-! Multiplexers of one method -/

/-- Patterns of single segments for GET, no two of them for one path, of which one that takes in a
last slash has a companion that does not. -/
structure Mux.Plain {α : Type} (mux : Mux α) : Prop where
  get : ∀ entry ∈ mux, entry.1.method = some "GET"
  single : ∀ entry ∈ mux, ∀ s ∈ entry.1.segments, s.single = true
  unambiguous : ∀ p ∈ mux, ∀ q ∈ mux, compatible p.1.segments q.1.segments = true → p = q
  companion : ∀ entry ∈ mux, ∀ front, entry.1.segments = front ++ [.literal slash] →
    ∃ other ∈ mux, other.1.segments = front

/-- A pattern is for a path. -/
def Mux.For {α : Type} (mux : Mux α) (path : Bytes) (a : α) (matched : List Bytes) : Prop :=
  ∃ entry ∈ mux, entry.2 = a ∧ Matches entry.1.segments path matched

namespace Mux.Plain
variable {α : Type} {mux : Mux α}

theorem tree_other (hp : mux.Plain) {method : Option String} (h : method ≠ some "GET") :
    mux.tree method = [] := by
  refine List.filterMap_eq_nil_iff.mpr fun entry hmem => ?_
  rw [if_neg]
  intro he
  exact h (he.symm.trans (hp.get entry hmem))

theorem mem_tree (hp : mux.Plain) {segments : List Segment} {b : List Segment × α} :
    (segments, b) ∈ mux.tree (some "GET") ↔
      ∃ entry ∈ mux, entry.1.segments = segments ∧ b = (segments, entry.2) := by
  simp only [tree, List.mem_filterMap]
  constructor
  · intro hparts
    obtain ⟨entry, hmem, he⟩ := hparts
    rw [if_pos (hp.get entry hmem)] at he
    cases he
    exact ⟨entry, hmem, rfl, rfl⟩
  · intro hparts
    obtain ⟨entry, hmem, rfl, rfl⟩ := hparts
    exact ⟨entry, hmem, if_pos (hp.get entry hmem)⟩

theorem tree_unambiguous (hp : mux.Plain) : (mux.tree (some "GET")).Unambiguous := by
  intro p hpmem q hqmem hc
  obtain ⟨segments, b⟩ := p
  obtain ⟨others, c⟩ := q
  obtain ⟨entry, hentry, rfl, rfl⟩ := hp.mem_tree.mp hpmem
  obtain ⟨other, hother, rfl, rfl⟩ := hp.mem_tree.mp hqmem
  rw [hp.unambiguous entry hentry other hother hc]

theorem matchPath_iff (hp : mux.Plain) {path : Bytes} {segments : List Segment} {a : α}
    {matched : List Bytes} :
    (mux.tree (some "GET")).matchPath path = some ((segments, a), matched) ↔
      ∃ entry ∈ mux, entry.1.segments = segments ∧ entry.2 = a ∧ Matches segments path matched := by
  rw [Node.matchPath_iff hp.tree_unambiguous]
  constructor
  · intro hparts
    obtain ⟨others, hmem, hm⟩ := hparts
    obtain ⟨entry, hentry, hsegments, he⟩ := hp.mem_tree.mp hmem
    cases he
    exact ⟨entry, hentry, hsegments, rfl, hm⟩
  · intro hparts
    obtain ⟨entry, hentry, hsegments, rfl, hm⟩ := hparts
    exact ⟨segments, hp.mem_tree.mpr ⟨entry, hentry, hsegments, rfl⟩, hm⟩

/-- Only the two methods find anything, and they find the same. -/
theorem matchMethod_eq (hp : mux.Plain) (method : String) (path : Bytes) :
    mux.matchMethod method path =
      if method = "GET" ∨ method = "HEAD" then (mux.tree (some "GET")).matchPath path else none := by
  have hempty : ∀ p, Node.matchPath ([] : Node (List Segment × α)) p = none := by
    intro p
    cases hfound : Node.matchPath ([] : Node (List Segment × α)) p with
    | none => rfl
    | some found =>
      obtain ⟨segments, hmem, -⟩ := Node.matchWithin_sound hfound
      cases hmem
  rw [matchMethod, @tree_other _ _ hp none nofun, hempty, Option.or_none]
  by_cases hget : method = "GET"
  · rw [if_pos (Or.inl hget), hget, if_neg (by decide), Option.or_none]
  · rw [@tree_other _ _ hp (some method) (by simpa using hget), hempty, Option.none_or]
    by_cases hhead : method = "HEAD"
    · rw [if_pos hhead, if_pos (Or.inr hhead)]
    · rw [if_neg hhead, if_neg (by simp [hget, hhead])]

/-- No request is sent to a path with one more slash. -/
theorem slashRedirect_eq_false (hp : mux.Plain) (method : String) (path : Bytes) :
    mux.slashRedirect method path = false := by
  by_contra hne
  rw [Bool.not_eq_false, slashRedirect] at hne
  simp only [Bool.and_eq_true, Bool.not_eq_true', decide_eq_true_eq] at hne
  obtain ⟨⟨⟨hexact, hunslashed⟩, hpath⟩, hslashed⟩ := hne
  have hfound : (mux.matchMethod method (path ++ slash)).isSome = true := by
    cases hm : mux.matchMethod method (path ++ slash) with
    | none =>
      rw [hm] at hslashed
      cases hslashed
    | some found => rfl
  obtain ⟨⟨⟨segments, a⟩, matched⟩, hfound⟩ := Option.isSome_iff_exists.mp hfound
  rw [hp.matchMethod_eq] at hfound hexact
  split at hfound
  · next hmethod =>
    obtain ⟨entry, hentry, rfl, rfl, hm⟩ := hp.matchPath_iff.mp hfound
    obtain ⟨front, hfront, hmatch⟩ := hm.unslash (hp.single entry hentry) hunslashed
    obtain ⟨other, hother, hsegments⟩ := hp.companion entry hentry front hfront
    rw [if_pos hmethod, hp.matchPath_iff.mpr ⟨other, hother, hsegments, rfl, hmatch⟩] at hexact
    simp [exactMatch, hunslashed, hpath] at hexact
  · cases hfound

/-- Only GET is a method of a pattern. -/
theorem mem_methods (hp : mux.Plain) {method : String} (h : method ∈ mux.methods) :
    method = "GET" := by
  obtain ⟨entry, hmem, he⟩ := List.mem_filterMap.mp (List.mem_dedup.mp h)
  rw [hp.get entry hmem] at he
  exact (Option.some.inj he).symm

/-- A path is found with GET or with no method. -/
theorem matchingPath_eq (hp : mux.Plain) (path : Bytes) : mux.matchingPath path =
    if ((mux.tree (some "GET")).matchPath path).isSome then ["GET"] else [] := by
  have hget : ∀ method ∈ mux.matchingPath path, method = "GET" := fun method hmem =>
    hp.mem_methods (List.mem_filter.mp hmem).1
  have hnodup : (mux.matchingPath path).Nodup := (List.nodup_dedup _).filter _
  split
  · next hfound =>
    obtain ⟨⟨⟨segments, a⟩, matched⟩, hmatch⟩ := Option.isSome_iff_exists.mp hfound
    obtain ⟨entry, hmem, -⟩ := hp.matchPath_iff.mp hmatch
    have hmethod : "GET" ∈ mux.matchingPath path := by
      refine List.mem_filter.mpr ⟨List.mem_dedup.mpr ?_, hfound⟩
      exact List.mem_filterMap.mpr ⟨entry, hmem, hp.get entry hmem⟩
    exact List.perm_singleton.mp ((List.perm_ext_iff_of_nodup hnodup (by simp)).mpr fun method =>
      ⟨fun h => by simp [hget method h], fun h => by
        rw [List.mem_singleton.mp h]
        exact hmethod⟩)
  · next hnone =>
    refine List.filter_eq_nil_iff.mpr fun method hmem => ?_
    rw [hp.mem_methods hmem]
    exact hnone

/-- A path that is found with one more slash is found without it. -/
theorem matchPath_unslash (hp : mux.Plain) {path : Bytes} (hu : Unslashed path)
    (h : ((mux.tree (some "GET")).matchPath (path ++ slash)).isSome = true) :
    ((mux.tree (some "GET")).matchPath path).isSome = true := by
  obtain ⟨⟨⟨segments, a⟩, matched⟩, hfound⟩ := Option.isSome_iff_exists.mp h
  obtain ⟨entry, hentry, rfl, rfl, hm⟩ := hp.matchPath_iff.mp hfound
  obtain ⟨front, hfront, hmatch⟩ := hm.unslash (hp.single entry hentry) hu
  obtain ⟨other, hother, hsegments⟩ := hp.companion entry hentry front hfront
  rw [hp.matchPath_iff.mpr ⟨other, hother, hsegments, rfl, hmatch⟩]
  rfl

/-- The allowed methods of a path: the two, or none. -/
theorem matchingMethods_eq (hp : mux.Plain) (path : Bytes) :
    mux.matchingMethods path =
      if ((mux.tree (some "GET")).matchPath path).isSome then ["GET", "HEAD"] else [] := by
  rw [matchingMethods, hp.matchingPath_eq, hp.matchingPath_eq]
  by_cases hfound : ((mux.tree (some "GET")).matchPath path).isSome = true
  · rw [if_pos hfound, if_pos hfound]
    by_cases hu : path.getLast? ≠ some 0x2F
    · rw [if_pos hu]
      split <;> decide
    · rw [if_neg hu]
      decide
  · rw [if_neg hfound, if_neg hfound]
    by_cases hu : path.getLast? ≠ some 0x2F
    · rw [if_pos hu, if_neg fun hslashed => hfound (hp.matchPath_unslash hu hslashed)]
      rfl
    · rw [if_neg hu]
      rfl

/-- Whether a path is the one that a method is looked up with. -/
def Canonical (method : String) (path : Bytes) : Prop := method = "CONNECT" ∨ cleanPath path = path

/-- What is found with GET is a pattern for the path. -/
theorem for_iff (hp : mux.Plain) {path : Bytes} {a : α} {matched : List Bytes} :
    mux.For path a matched ↔ ∃ segments,
      (mux.tree (some "GET")).matchPath path = some ((segments, a), matched) := by
  simp only [Mux.For, hp.matchPath_iff]
  constructor
  · intro hparts
    obtain ⟨entry, hentry, rfl, hm⟩ := hparts
    exact ⟨_, entry, hentry, rfl, rfl, hm⟩
  · intro hparts
    obtain ⟨segments, entry, hentry, rfl, he, hm⟩ := hparts
    exact ⟨entry, hentry, he, hm⟩

/-- A path is for one handler at most, with one list of matched segments. -/
theorem for_unique (hp : mux.Plain) {path : Bytes} {a b : α} {m₁ m₂ : List Bytes}
    (h₁ : mux.For path a m₁) (h₂ : mux.For path b m₂) : a = b ∧ m₁ = m₂ := by
  obtain ⟨segments, h₁⟩ := hp.for_iff.mp h₁
  obtain ⟨others, h₂⟩ := hp.for_iff.mp h₂
  rw [h₁] at h₂
  cases h₂
  exact ⟨rfl, rfl⟩

theorem findHandler_unclean (hp : mux.Plain) {method : String} {escapedPath : Bytes}
    (h : ¬Canonical method escapedPath) (path : Bytes) :
    mux.findHandler method escapedPath path = .redirect (cleanPath escapedPath) := by
  obtain ⟨hconnect, hclean⟩ := not_or.mp h
  simp [findHandler, hp.slashRedirect_eq_false, hconnect, hclean]

/-- The lookup of a canonical path. -/
theorem findHandler_canonical (hp : mux.Plain) {method : String} {escapedPath : Bytes}
    (h : Canonical method escapedPath) (path : Bytes) :
    mux.findHandler method escapedPath path =
      match mux.matchMethod method escapedPath with
      | some ((_, a), matched) => .handler a matched
      | none => mux.unmatched escapedPath := by
  obtain hconnect | hclean := h
  · simp [findHandler, hp.slashRedirect_eq_false, hconnect]
  · simp [findHandler, hp.slashRedirect_eq_false, hclean]

theorem findHandler_for (hp : mux.Plain) {method : String} (hm : method = "GET" ∨ method = "HEAD")
    {escapedPath : Bytes} (h : cleanPath escapedPath = escapedPath) {a : α} {matched : List Bytes}
    (hfor : mux.For escapedPath a matched) (path : Bytes) :
    mux.findHandler method escapedPath path = .handler a matched := by
  obtain ⟨segments, hfound⟩ := hp.for_iff.mp hfor
  rw [hp.findHandler_canonical (Or.inr h), hp.matchMethod_eq, if_pos hm, hfound]

theorem findHandler_other (hp : mux.Plain) {method : String}
    (hm : ¬(method = "GET" ∨ method = "HEAD")) {escapedPath : Bytes}
    (h : Canonical method escapedPath) {a : α} {matched : List Bytes}
    (hfor : mux.For escapedPath a matched) (path : Bytes) :
    mux.findHandler method escapedPath path = .methodNotAllowed ["GET", "HEAD"] := by
  obtain ⟨segments, hfound⟩ := hp.for_iff.mp hfor
  rw [hp.findHandler_canonical h, hp.matchMethod_eq, if_neg hm]
  simp only [Mux.unmatched, hp.matchingMethods_eq, hfound, Option.isSome_some, if_true]

theorem findHandler_none (hp : mux.Plain) {method : String} {escapedPath : Bytes}
    (h : Canonical method escapedPath) (hfor : ∀ a matched, ¬mux.For escapedPath a matched)
    (path : Bytes) : mux.findHandler method escapedPath path = .notFound := by
  have hnone : (mux.tree (some "GET")).matchPath escapedPath = none := by
    cases hfound : (mux.tree (some "GET")).matchPath escapedPath with
    | none => rfl
    | some found =>
      obtain ⟨⟨segments, a⟩, matched⟩ := found
      exact absurd (hp.for_iff.mpr ⟨segments, hfound⟩) (hfor a matched)
  rw [hp.findHandler_canonical h, hp.matchMethod_eq, hnone, ite_self]
  simp only [Mux.unmatched, hp.matchingMethods_eq, hnone]
  rfl

/-- Every request comes to one of four ends: the one handler that its path is for, the clean path,
the two methods that are allowed on its path, or nothing. -/
theorem findHandler_cases (hp : mux.Plain) (method : String) (escapedPath path : Bytes) :
    (¬Canonical method escapedPath ∧
      mux.findHandler method escapedPath path = .redirect (cleanPath escapedPath)) ∨
    (Canonical method escapedPath ∧ (∀ a matched, ¬mux.For escapedPath a matched) ∧
      mux.findHandler method escapedPath path = .notFound) ∨
    ∃ a matched, Canonical method escapedPath ∧ mux.For escapedPath a matched ∧
      mux.findHandler method escapedPath path =
        if method = "GET" ∨ method = "HEAD" then .handler a matched
        else .methodNotAllowed ["GET", "HEAD"] := by
  by_cases hcanonical : Canonical method escapedPath
  · by_cases hfor : ∃ a matched, mux.For escapedPath a matched
    · obtain ⟨a, matched, hfor⟩ := hfor
      refine Or.inr (Or.inr ⟨a, matched, hcanonical, hfor, ?_⟩)
      split
      · next hm =>
        refine hp.findHandler_for hm (hcanonical.resolve_left ?_) hfor path
        obtain rfl | rfl := hm <;> decide
      · next hm => exact hp.findHandler_other hm hcanonical hfor path
    · simp only [not_exists] at hfor
      exact Or.inr (Or.inl ⟨hcanonical, hfor, hp.findHandler_none hcanonical hfor path⟩)
  · exact Or.inl ⟨hcanonical, hp.findHandler_unclean hcanonical path⟩

/-- Where a request goes, whatever it is: to the one handler that is for its path, with GET or
HEAD only; to the clean path; to an answer that names the two methods; or nowhere. -/
theorem dispatch (hp : mux.Plain) (method : String) (escapedPath path : Bytes) :
    (∀ a matched, mux.findHandler method escapedPath path = .handler a matched ↔
      (method = "GET" ∨ method = "HEAD") ∧ cleanPath escapedPath = escapedPath ∧
        mux.For escapedPath a matched) ∧
    (∀ target, mux.findHandler method escapedPath path = .redirect target ↔
      method ≠ "CONNECT" ∧ cleanPath escapedPath ≠ escapedPath ∧
        target = cleanPath escapedPath) ∧
    (∀ allowed, mux.findHandler method escapedPath path = .methodNotAllowed allowed ↔
      method ≠ "GET" ∧ method ≠ "HEAD" ∧
        (method = "CONNECT" ∨ cleanPath escapedPath = escapedPath) ∧
        (∃ a matched, mux.For escapedPath a matched) ∧ allowed = ["GET", "HEAD"]) ∧
    (mux.findHandler method escapedPath path = .notFound ↔
      (method = "CONNECT" ∨ cleanPath escapedPath = escapedPath) ∧
        ∀ a matched, ¬mux.For escapedPath a matched) := by
  have hclean : ¬(method = "CONNECT" ∨ cleanPath escapedPath = escapedPath) ↔
      method ≠ "CONNECT" ∧ cleanPath escapedPath ≠ escapedPath := not_or
  have hconnect : method = "GET" ∨ method = "HEAD" → method ≠ "CONNECT" := by
    intro hm
    obtain rfl | rfl := hm <;> decide
  obtain ⟨hunclean, hr⟩ | ⟨hcanonical, hnone, hr⟩ | ⟨a, m, hcanonical, hfor, hr⟩ :=
    hp.findHandler_cases method escapedPath path
  · obtain ⟨hc, hne⟩ := hclean.mp hunclean
    rw [hr]
    refine ⟨fun a matched => ⟨nofun, fun h => absurd h.2.1 hne⟩, fun target => ?_,
      fun allowed => ⟨nofun, fun h => absurd h.2.2.1 hunclean⟩,
      ⟨nofun, fun h => absurd h.1 hunclean⟩⟩
    exact ⟨fun h => ⟨hc, hne, (Dispatch.redirect.inj h).symm⟩, fun h => by rw [h.2.2]⟩
  · rw [hr]
    exact ⟨fun a matched => ⟨nofun, fun h => absurd h.2.2 (hnone a matched)⟩,
      fun target => ⟨nofun, fun h => absurd hcanonical (hclean.mpr ⟨h.1, h.2.1⟩)⟩,
      fun allowed => ⟨nofun, fun h => by
        obtain ⟨a, matched, hm⟩ := h.2.2.2.1
        exact absurd hm (hnone a matched)⟩,
      ⟨fun _ => ⟨hcanonical, hnone⟩, fun _ => rfl⟩⟩
  · have hredirect : ∀ d : Dispatch α, (∀ target, d ≠ .redirect target) → ∀ target,
        d = .redirect target ↔ method ≠ "CONNECT" ∧ cleanPath escapedPath ≠ escapedPath ∧
          target = cleanPath escapedPath := fun d hd target =>
      ⟨fun h => absurd h (hd target), fun h => absurd hcanonical (hclean.mpr ⟨h.1, h.2.1⟩)⟩
    rw [hr]
    split
    · next hm =>
      have hpath := hcanonical.resolve_left (hconnect hm)
      refine ⟨fun b matched => ⟨fun h => ?_, fun h => ?_⟩, hredirect _ nofun,
        fun allowed => ⟨nofun, fun h => absurd hm (not_or.mpr ⟨h.1, h.2.1⟩)⟩,
        ⟨nofun, fun h => absurd hfor (h.2 a m)⟩⟩
      · cases h
        exact ⟨hm, hpath, hfor⟩
      · obtain ⟨rfl, rfl⟩ := hp.for_unique hfor h.2.2
        rfl
    · next hm =>
      obtain ⟨hget, hhead⟩ := not_or.mp hm
      refine ⟨fun b matched => ⟨nofun, fun h => absurd h.1 hm⟩, hredirect _ nofun,
        fun allowed => ⟨fun h => ?_, fun h => by rw [h.2.2.2.2]⟩,
        ⟨nofun, fun h => absurd hfor (h.2 a m)⟩⟩
      exact ⟨hget, hhead, hcanonical, ⟨a, m, hfor⟩, (Dispatch.methodNotAllowed.inj h).symm⟩

theorem reply_handled (hp : mux.Plain) {method : String} {escapedPath path : Bytes}
    {writer : Writer} {a : α} {matched : List Bytes}
    (h : mux.reply method escapedPath path writer = .handled a matched) :
    (method = "GET" ∨ method = "HEAD") ∧ cleanPath escapedPath = escapedPath ∧
      mux.For escapedPath a matched := by
  unfold Mux.reply at h
  split at h
  · next hfound =>
    cases h
    exact ((hp.dispatch method escapedPath path).1 a matched).mp hfound
  · cases h
  · cases h
  · cases h

/-- A clean path that nothing is for is not found. -/
theorem reply_notFound (hp : mux.Plain) {escapedPath : Bytes}
    (hclean : cleanPath escapedPath = escapedPath)
    (hnone : ∀ a matched, ¬mux.For escapedPath a matched) (method : String) (path : Bytes)
    (writer : Writer) : mux.reply method escapedPath path writer =
      .refused (writer.error "404 page not found" 404) := by
  rw [Mux.reply, hp.findHandler_none (Or.inr hclean) hnone path]

/-- The reply to a request: a handler has it with GET or HEAD only, and what is refused is refused
with the fields that were set before. -/
inductive Replied (mux : Mux α) (method : String) (escapedPath : Bytes) (writer : Writer) :
    Mux.Reply α → Prop where
  | handled {a : α} {matched : List Bytes} (allowed : method = "GET" ∨ method = "HEAD")
      (found : mux.For escapedPath a matched) :
      Replied mux method escapedPath writer (.handled a matched)
  | redirected (unclean : cleanPath escapedPath ≠ escapedPath) :
      Replied mux method escapedPath writer (.redirected writer.header (cleanPath escapedPath))
  | methodNotAllowed (found : ∃ a matched, mux.For escapedPath a matched)
      (other : method ≠ "GET" ∧ method ≠ "HEAD") :
      Replied mux method escapedPath writer (.refused (Writer.error
        { writer with header := writer.header.set "Allow" (lit "GET, HEAD") }
        "Method Not Allowed" 405))
  | notFound (nothing : ∀ a matched, ¬mux.For escapedPath a matched) :
      Replied mux method escapedPath writer (.refused (writer.error "404 page not found" 404))

theorem replied (hp : mux.Plain) (method : String) (escapedPath path : Bytes) (writer : Writer) :
    Replied mux method escapedPath writer (mux.reply method escapedPath path writer) := by
  obtain ⟨hhandler, hredirect, hmethods, hnone⟩ := hp.dispatch method escapedPath path
  unfold Mux.reply
  split
  · next a matched hfound =>
    obtain ⟨hm, -, hfor⟩ := (hhandler a matched).mp hfound
    exact .handled hm hfor
  · next target hfound =>
    obtain ⟨-, hne, rfl⟩ := (hredirect target).mp hfound
    exact .redirected hne
  · next allowed hfound =>
    obtain ⟨hget, hhead, -, hfor, rfl⟩ := (hmethods allowed).mp hfound
    exact .methodNotAllowed hfor ⟨hget, hhead⟩
  · next hfound => exact .notFound (hnone.mp hfound).2

end Mux.Plain

/-! Clean paths -/

/-- A part that cleaning keeps. -/
structure CleanPart (part : Bytes) : Prop where
  nonempty : part ≠ []
  here : part ≠ lit "."
  back : part ≠ lit ".."
  single : 0x2F ∉ part

/-- Parts with a slash before each. -/
def joinParts (parts : List Bytes) : Bytes := parts.flatMap (0x2F::·)

theorem splitSlash_parts (part : Bytes) (parts : List Bytes) (h : ∀ p ∈ part::parts, 0x2F ∉ p) :
    splitSlash (part ++ joinParts parts) = part::parts := by
  induction parts generalizing part with
  | nil =>
    rw [joinParts, List.flatMap_nil, List.append_nil]
    exact List.splitOn_eq_singleton (h part (by simp))
  | cons p parts ih =>
    have hrest := ih p fun q hq => h q (List.mem_cons_of_mem part hq)
    have hjoin : part ++ joinParts (p::parts) = part ++ 0x2F::(p ++ joinParts parts) := by
      simp [joinParts]
    rw [hjoin, splitSlash, List.splitOn_append_cons_self_of_not_mem (h part (by simp))]
    rw [splitSlash] at hrest
    rw [hrest]

theorem splitSlash_join {parts : List Bytes} (h : ∀ p ∈ parts, 0x2F ∉ p) :
    splitSlash (joinParts parts) = []::parts :=
  splitSlash_parts [] parts fun p hp => by
    obtain rfl | hp := List.mem_cons.mp hp
    · exact List.not_mem_nil
    · exact h p hp

theorem foldl_cleanStep {parts : List Bytes} (h : ∀ p ∈ parts, CleanPart p)
    (stack : List Bytes) : parts.foldl cleanStep stack = parts.reverse ++ stack := by
  induction parts generalizing stack with
  | nil => rfl
  | cons p parts ih =>
    have hp := h p (by simp)
    have hstep : cleanStep stack p = p::stack := by
      rw [cleanStep, if_neg (by simp [hp.nonempty, hp.here]), if_neg hp.back]
    rw [List.foldl_cons, hstep, ih fun q hq => h q (by simp [hq])]
    simp

/-- Clean parts are kept, and a last slash is no part. -/
theorem rootedClean_join {parts : List Bytes} (hne : parts ≠ []) (h : ∀ p ∈ parts, CleanPart p) :
    rootedClean (joinParts parts) = joinParts parts ∧
      rootedClean (joinParts parts ++ slash) = joinParts parts := by
  have hsplit := splitSlash_join fun p hp => (h p hp).single
  have hslashed : joinParts parts ++ slash = joinParts (parts ++ [[]]) := by
    simp [joinParts, slash]
  have hsplit' : splitSlash (joinParts (parts ++ [[]])) = []::(parts ++ [[]]) :=
    splitSlash_join fun p hp => by
      obtain hp | hp := List.mem_append.mp hp
      · exact (h p hp).single
      · simp at hp
        simp [hp]
  have hfold := foldl_cleanStep h []
  have hkeep : ∀ stack : List Bytes, cleanStep stack [] = stack := fun stack => by simp [cleanStep]
  obtain ⟨p, rest, rfl⟩ := List.exists_cons_of_ne_nil hne
  constructor
  · rw [rootedClean, hsplit, List.foldl_cons, hkeep, hfold, List.append_nil, List.reverse_reverse]
    rfl
  · rw [hslashed, rootedClean, hsplit', List.foldl_cons, hkeep, List.foldl_append, hfold,
      List.foldl_cons, List.foldl_nil, hkeep, List.append_nil, List.reverse_reverse]
    rfl

theorem joinParts_last {parts : List Bytes} (hne : parts ≠ []) (h : ∀ p ∈ parts, CleanPart p) :
    (joinParts parts).getLast? ≠ some 0x2F := by
  intro hlast
  obtain ⟨p, hp⟩ := List.getLast?_isSome.mpr hne |> Option.isSome_iff_exists.mp
  have hmem := List.mem_of_getLast? hp
  have hsplit : joinParts parts = joinParts parts.dropLast ++ 0x2F::p := by
    conv_lhs => rw [← List.dropLast_append_getLast? p hp]
    simp [joinParts]
  rw [hsplit, List.getLast?_append_of_ne_nil _ (by simp),
    List.getLast?_cons_of_ne_nil (h p hmem).nonempty] at hlast
  exact (h p hmem).single (List.mem_of_getLast? hlast)

theorem joinParts_head {parts : List Bytes} (hne : parts ≠ []) :
    (joinParts parts).head? = some 0x2F := by
  obtain ⟨p, rest, rfl⟩ := List.exists_cons_of_ne_nil hne
  rfl

/-- A path of clean parts is clean, with a last slash or without. -/
theorem cleanPath_join {parts : List Bytes} (hne : parts ≠ []) (h : ∀ p ∈ parts, CleanPart p) :
    cleanPath (joinParts parts) = joinParts parts ∧
      cleanPath (joinParts parts ++ slash) = joinParts parts ++ slash := by
  obtain ⟨hclean, hslashed⟩ := rootedClean_join hne h
  have hhead := joinParts_head hne
  have hhead' : (joinParts parts ++ slash).head? = some 0x2F := by
    rw [List.head?_append, hhead]
    rfl
  have hother : joinParts parts ≠ slash := by
    intro he
    exact joinParts_last hne h (by rw [he]; rfl)
  constructor
  · rw [cleanPath, if_pos hhead, hclean, if_neg]
    exact fun hand => joinParts_last hne h hand.1
  · rw [cleanPath, if_pos hhead', hslashed, if_pos]
    exact ⟨by rw [slash, List.getLast?_concat], hother⟩

theorem splitSlash_single (s : Bytes) : ∀ p ∈ splitSlash s, 0x2F ∉ p := by
  induction s with
  | nil => simp [splitSlash]
  | cons b s ih =>
    rw [splitSlash] at ih
    rw [splitSlash, List.splitOn_cons_eq_if_modifyHead]
    split
    · intro p hp
      obtain rfl | hp := List.mem_cons.mp hp
      · exact List.not_mem_nil
      · exact ih p hp
    · next hb =>
      cases hs : s.splitOn 0x2F with
      | nil => simp
      | cons q qs =>
        rw [hs] at ih
        intro p hp
        rw [List.modifyHead_cons] at hp
        obtain rfl | hp := List.mem_cons.mp hp
        · have hq := ih q (by simp)
          simp only [List.mem_cons, not_or]
          exact ⟨fun he => hb (by simp [he]), hq⟩
        · exact ih p (by simp [hp])

/-- Only clean parts are ever on the stack. -/
theorem cleanStep_clean {stack : List Bytes} {part : Bytes} (hs : ∀ p ∈ stack, CleanPart p)
    (hp : 0x2F ∉ part) : ∀ p ∈ cleanStep stack part, CleanPart p := by
  unfold cleanStep
  split
  · exact hs
  · next hkeep =>
    split
    · exact fun p hmem => hs p (List.mem_of_mem_tail hmem)
    · next hback =>
      intro p hmem
      obtain rfl | hmem := List.mem_cons.mp hmem
      · exact ⟨fun he => hkeep (Or.inl he), fun he => hkeep (Or.inr he), hback, hp⟩
      · exact hs p hmem

theorem foldl_clean {parts stack : List Bytes} (hs : ∀ p ∈ stack, CleanPart p)
    (hp : ∀ p ∈ parts, 0x2F ∉ p) : ∀ p ∈ parts.foldl cleanStep stack, CleanPart p := by
  induction parts generalizing stack with
  | nil => exact hs
  | cons part parts ih =>
    exact ih (cleanStep_clean hs (hp part (by simp))) fun p hmem => hp p (by simp [hmem])

/-- What cleaning makes of any path: the root, or clean parts with a last slash or without. -/
inductive Clean : Bytes → Prop where
  | root : Clean slash
  | parts {parts : List Bytes} : parts ≠ [] → (∀ p ∈ parts, CleanPart p) → Clean (joinParts parts)
  | slashed {parts : List Bytes} : parts ≠ [] → (∀ p ∈ parts, CleanPart p) →
      Clean (joinParts parts ++ slash)

theorem cleanPath_clean (s : Bytes) : Clean (cleanPath s) := by
  have hrooted : ∀ t : Bytes, rootedClean t = slash ∨
      ∃ parts, parts ≠ [] ∧ (∀ p ∈ parts, CleanPart p) ∧ rootedClean t = joinParts parts := by
    intro t
    have hall := @foldl_clean (splitSlash t) [] (by simp) (splitSlash_single t)
    unfold rootedClean
    cases hstack : ((splitSlash t).foldl cleanStep []).reverse with
    | nil => exact Or.inl rfl
    | cons p parts =>
      refine Or.inr ⟨p::parts, by simp, fun q hq => hall q ?_, rfl⟩
      rw [← List.mem_reverse, hstack]
      exact hq
  unfold cleanPath
  simp only
  generalize (if s.head? = some 0x2F then s else 0x2F::s) = rooted
  obtain hroot | ⟨parts, hne, hclean, hparts⟩ := hrooted rooted
  · rw [hroot, if_neg (by simp)]
    exact .root
  · rw [hparts]
    split
    · exact .slashed hne hclean
    · exact .parts hne hclean

/-- A clean path is not cleaned any further: a client that is sent to one stays there. -/
theorem Clean.cleanPath_eq {s : Bytes} (h : Clean s) : cleanPath s = s := by
  cases h with
  | root => decide
  | parts hne hclean => exact (cleanPath_join hne hclean).1
  | slashed hne hclean => exact (cleanPath_join hne hclean).2

theorem cleanPath_idem (s : Bytes) : cleanPath (cleanPath s) = cleanPath s :=
  (cleanPath_clean s).cleanPath_eq

/-! Plain paths -/

/-- A part that stands in a path as it is. -/
structure PlainPart (part : Bytes) : Prop extends CleanPart part where
  plain : ∀ b ∈ part, Url.shouldEscape b .path = false

theorem PlainPart.unescape {part : Bytes} (h : PlainPart part) : pathUnescape part = part := by
  have hescape := Url.unescape_escape (Url.fits_path part)
  rw [Url.escape_plain h.plain (by decide)] at hescape
  rw [pathUnescape, hescape]
  rfl

theorem PlainPart.ne_slash {part : Bytes} (h : PlainPart part) : part ≠ slash := by
  intro he
  exact h.single (by rw [he]; exact List.mem_singleton_self _)

theorem firstSegment_plain {part : Bytes} (h : PlainPart part) (parts : List Bytes) :
    firstSegment (joinParts (part::parts)) = (part, joinParts parts) := by
  obtain ⟨b, rest, rfl⟩ := List.exists_cons_of_ne_nil h.nonempty
  have hpath : joinParts ((b::rest)::parts) = 0x2F::(b::rest ++ joinParts parts) := by
    simp [joinParts]
  have hall : ∀ c ∈ b::rest, (c != 0x2F) = true := fun c hc => by
    rw [bne_iff_ne]
    intro he
    exact h.single (he ▸ hc)
  have hjoin : (joinParts parts).takeWhile (· != 0x2F) = [] ∧
      (joinParts parts).dropWhile (· != 0x2F) = joinParts parts := by
    cases parts with
    | nil => exact ⟨rfl, rfl⟩
    | cons p ps => exact ⟨rfl, rfl⟩
  rw [hpath, firstSegment, if_neg (by simp [slash]), List.tail_cons,
    List.takeWhile_append_of_pos hall, List.dropWhile_append_of_pos hall, hjoin.1, hjoin.2,
    List.append_nil, h.unescape]

theorem joinParts_ne_nil (part : Bytes) (parts : List Bytes) : joinParts (part::parts) ≠ [] :=
  List.cons_ne_nil _ _

/-- Plain parts are of the form of their own literals. -/
theorem Matches.literal_plain {part : Bytes} (h : PlainPart part) {parts : List Bytes}
    {segments : List Segment} {matched : List Bytes}
    (hm : Matches segments (joinParts parts) matched) :
    Matches (.literal part::segments) (joinParts (part::parts)) matched :=
  .literal (joinParts_ne_nil part parts) (firstSegment_plain h parts) hm

/-- A plain part is what stands at a wildcard. -/
theorem Matches.wildcard_plain {part name : Bytes} (h : PlainPart part) {parts : List Bytes}
    {segments : List Segment} {matched : List Bytes}
    (hm : Matches segments (joinParts parts) matched) :
    Matches (.wildcard name::segments) (joinParts (part::parts)) (part::matched) :=
  .wildcard (joinParts_ne_nil part parts) (firstSegment_plain h parts) h.ne_slash hm

end ServeMux
