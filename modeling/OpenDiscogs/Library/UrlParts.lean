import OpenDiscogs.Library.UrlAbsolute

/-! What the parts of a parsed URL say of the text that it was read from. -/
namespace Url
open Utf8 UrlQuery

variable {s : Bytes} {u v : URL}

/-- A URL whose host was read from a text, and whose path starts with a slash if there is one. -/
structure HasAuthority (u : URL) : Prop where
  hierarchical : u.opaquePart = []
  host : ∃ written, parseHost u.scheme written = some u.host
  path : u.path = [] ∨ u.path.head? = some 0x2F
  rawPath : u.rawPath = [] ∨ u.rawPath.head? = some 0x2F

theorem setPath_some {p : Bytes} (h : u.setPath p = some v) : ∃ plain rawPath,
    unescape .path p = some plain ∧ v = { u with path := plain, rawPath := rawPath } ∧
      (rawPath = [] ∨ rawPath = p) := by
  obtain ⟨plain, hp, rfl⟩ := Option.map_eq_some_iff.mp h
  refine ⟨plain, _, hp, rfl, ?_⟩
  split
  · exact Or.inl rfl
  · exact Or.inr rfl

theorem setFragment_some {f : Bytes} (h : u.setFragment f = some v) : ∃ plain rawFragment,
    unescape .fragment f = some plain ∧
      v = { u with fragment := plain, rawFragment := rawFragment } := by
  obtain ⟨plain, hf, rfl⟩ := Option.map_eq_some_iff.mp h
  exact ⟨plain, _, hf, rfl⟩

theorem parseAuthority_some {scheme authority host : Bytes} {user : Option Userinfo}
    (h : parseAuthority scheme authority = some (user, host)) :
    ∃ written, parseHost scheme written = some host := by
  rw [parseAuthority] at h
  split at h
  · obtain ⟨x, hx, he⟩ := Option.map_eq_some_iff.mp h
    cases he
    exact ⟨_, hx⟩
  · split at h
    · next hhost huser =>
      cases h
      exact ⟨_, hhost⟩
    · cases h

/-- What follows an authority starts with a slash. -/
theorem after_authority (s : Bytes) : s.drop (s.takeWhile (· != 0x2F)).length = [] ∨
    (s.drop (s.takeWhile (· != 0x2F)).length).head? = some 0x2F := by
  have hdrop : s.drop (s.takeWhile (· != 0x2F)).length = s.dropWhile (· != 0x2F) := calc
    s.drop (s.takeWhile (· != 0x2F)).length
      = (s.takeWhile (· != 0x2F) ++ s.dropWhile (· != 0x2F)).drop
          (s.takeWhile (· != 0x2F)).length := by rw [List.takeWhile_append_dropWhile]
    _ = s.dropWhile (· != 0x2F) := List.drop_left
  rw [hdrop]
  obtain hd | ⟨rest, hd⟩ := dropWhile_sep 0x2F s
  · exact Or.inl hd
  · exact Or.inr (by rw [hd, List.head?_cons])

/-- A slash in front of a path is read as one. -/
theorem rooted_path {p plain : Bytes} (hp : p = [] ∨ p.head? = some 0x2F)
    (h : unescape .path p = some plain) : plain = [] ∨ plain.head? = some 0x2F := by
  obtain rfl | hp := hp
  · rw [unescape, Option.some.injEq] at h
    exact Or.inl h.symm
  · obtain ⟨rest, rfl⟩ := List.head?_eq_some_iff.mp hp
    rw [unescape_slash, Option.map_eq_some_iff] at h
    obtain ⟨t, -, rfl⟩ := h
    exact Or.inr rfl

/-- An authority says whether there is a host; nothing but it and the path is read there. -/
theorem setAuthority_some (hu : u.host = []) (ho : u.opaquePart = []) {rest : Bytes}
    (h : u.setAuthority rest = some v) : (v.host ≠ [] → HasAuthority v) ∧
      v.rawQuery = u.rawQuery ∧ v.forceQuery = u.forceQuery ∧ v.fragment = u.fragment := by
  unfold URL.setAuthority at h
  split at h
  · next s =>
    split at h
    · obtain ⟨plain, rawPath, hp, rfl, hraw⟩ := setPath_some h
      exact ⟨fun hne => absurd hu hne, rfl, rfl, rfl⟩
    · simp only at h
      split at h
      · next user host hauth =>
        obtain ⟨plain, rawPath, hp, rfl, hraw⟩ := setPath_some h
        refine ⟨fun _ => ⟨ho, parseAuthority_some hauth, rooted_path (after_authority s) hp, ?_⟩,
          rfl, rfl, rfl⟩
        obtain rfl | rfl := hraw
        · exact Or.inl rfl
        · exact after_authority s
      · cases h
  · obtain ⟨plain, rawPath, hp, rfl, hraw⟩ := setPath_some h
    exact ⟨fun hne => absurd hu hne, rfl, rfl, rfl⟩
  · obtain ⟨plain, rawPath, hp, rfl, hraw⟩ := setPath_some h
    exact ⟨fun hne => absurd hu hne, rfl, rfl, rfl⟩

/-- A text with a question mark has a query, if only an empty one. -/
theorem setQuery_some (u : URL) (rest : Bytes) : ∃ force query before,
    u.setQuery rest = ({ u with forceQuery := force, rawQuery := query }, before) ∧
      (0x3F ∈ rest → force = true ∨ query ≠ []) := by
  unfold URL.setQuery
  split
  · exact ⟨true, u.rawQuery, _, rfl, fun _ => Or.inl rfl⟩
  · next hlast =>
    refine ⟨u.forceQuery, _, _, rfl, fun hmem => Or.inr fun hquery => hlast ?_⟩
    obtain ⟨before, query, rfl, hbefore⟩ := List.eq_append_cons_of_mem hmem
    rw [cut_append hbefore] at hquery
    obtain rfl : query = [] := hquery
    rw [List.getLast?_concat, List.count_append, List.count_eq_zero_of_not_mem hbefore]
    exact ⟨rfl, rfl⟩

/-- What is no part of a scheme is found after it. -/
theorem getScheme_some {scheme rest : Bytes} (h : getScheme s = some (scheme, rest)) {b : UInt8}
    (hb : schemeByte b = false) (hcolon : b ≠ 0x3A) (hmem : b ∈ s) : b ∈ rest := by
  unfold getScheme at h
  simp only at h
  split at h
  · next rest' hdrop =>
    split at h
    · cases h
    · split at h
      · cases h
        rw [← List.takeWhile_append_dropWhile (p := schemeByte) (l := s), hdrop, List.mem_append,
          List.mem_cons] at hmem
        obtain hmem | hmem | hmem := hmem
        · have hscheme := List.mem_takeWhile_imp hmem
          rw [hb] at hscheme
          cases hscheme
        · exact absurd hmem hcolon
        · exact hmem
      · cases h
        exact hmem
  · cases h
    exact hmem

/-- The parts of a text without its fragment. -/
structure BaseOf (s : Bytes) (u : URL) : Prop where
  authority : u.host ≠ [] → HasAuthority u
  fragment : u.fragment = []
  query : 0x3F ∈ s → u.forceQuery = true ∨ u.rawQuery ≠ []

theorem parseBase_some (h : parseBase s = some u) : BaseOf s u := by
  unfold parseBase at h
  split at h
  · cases h
  · split at h
    · next hstar =>
      cases h
      refine ⟨fun hh => absurd rfl hh, rfl, fun hmem => ?_⟩
      rw [hstar] at hmem
      revert hmem
      decide
    · split at h
      · cases h
      · next scheme rest hscheme =>
        obtain ⟨force, query, before, hset, hquery⟩ :=
          setQuery_some { scheme := scheme.map toLower } rest
        have hmark : 0x3F ∈ s → force = true ∨ query ≠ [] := fun hmem =>
          hquery (getScheme_some hscheme (by decide) (by decide) hmem)
        have hauth : ∀ {base : URL} {rest : Bytes}, base.host = [] → base.opaquePart = [] →
            base.fragment = [] → base.forceQuery = force → base.rawQuery = query →
            base.setAuthority rest = some u → BaseOf s u := by
          intro base rest hh ho hfragment' hforce hraw h
          obtain ⟨hhost, hq, hf, hfragment⟩ := setAuthority_some hh ho h
          refine ⟨hhost, hfragment.trans hfragment', fun hmem => ?_⟩
          rw [hq, hf, hforce, hraw]
          exact hmark hmem
        simp only [hset] at h
        split at h
        · split at h
          · cases h
            exact ⟨fun hh => absurd rfl hh, rfl, hmark⟩
          · split at h
            · cases h
            · exact hauth rfl rfl rfl rfl rfl h
        · exact hauth rfl rfl rfl rfl rfl h

/-- What a URL with a host is read from has an authority. -/
theorem parse_hasAuthority (h : parse s = some u) (hh : u.host ≠ []) : HasAuthority u := by
  unfold parse at h
  simp only at h
  split at h
  · cases h
  · next base hbase =>
    split at h
    · cases h
      exact (parseBase_some hbase).authority hh
    · obtain ⟨plain, raw, -, rfl⟩ := setFragment_some h
      have hauth := (parseBase_some hbase).authority hh
      exact ⟨hauth.hierarchical, hauth.host, hauth.path, hauth.rawPath⟩

theorem unescape_ne_nil {mode : Encoding} {t : Bytes} (h : unescape mode s = some t) (hs : s ≠ []) :
    t ≠ [] := by
  intro ht
  subst ht
  cases reads_of_unescape h
  exact hs rfl

/-- A number sign with something after it makes a fragment. -/
theorem parse_fragment (h : parse s = some u) (hf : (cut 0x23 s).2 ≠ []) : u.fragment ≠ [] := by
  unfold parse at h
  simp only at h
  split at h
  · cases h
  · rw [if_neg hf] at h
    obtain ⟨plain, raw, hread, rfl⟩ := setFragment_some h
    exact unescape_ne_nil hread hf

/-- A question mark makes a query, if only an empty one. -/
theorem parse_query (h : parse s = some u) (hhash : 0x23 ∉ s) (hq : 0x3F ∈ s) :
    u.forceQuery = true ∨ u.rawQuery ≠ [] := by
  unfold parse at h
  rw [cut_none hhash] at h
  simp only at h
  split at h
  · cases h
  · next base hbase =>
    cases h
    exact (parseBase_some hbase).query hq

end Url
