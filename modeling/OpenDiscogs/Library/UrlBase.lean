import OpenDiscogs.Library.UrlParts

/-! A URL as the base of others: its text without the slashes at its end, and a path after it. -/
namespace Url
open Utf8 UrlQuery

variable {u parsed : URL} {suffix : Bytes}

/-- A text without the slashes at its end. -/
def trimSlashes (s : Bytes) : Bytes := s.rdropWhile (· == 0x2F)

/-- A URL with neither a query, be it an empty one, nor a fragment. -/
structure Bare (u : URL) : Prop where
  query : u.rawQuery = []
  mark : u.forceQuery = false
  fragment : u.fragment = []

/-- What may follow a base: a path that starts with a slash and needs no escapes. -/
structure Suffix (suffix : Bytes) : Prop where
  slash : suffix.head? = some 0x2F
  plain : ∀ b ∈ suffix, shouldEscape b .path = false

/-- A URL of the same place as another, with a path that continues the other's, as it is written
and as it is read. -/
structure Continues (base : URL) (suffix : Bytes) (u : URL) : Prop where
  scheme : u.scheme = base.scheme
  user : u.user = base.user
  host : u.host = base.host
  hierarchical : u.opaquePart = []
  bare : Bare u
  written : u.escapedPath = trimSlashes base.escapedPath ++ suffix
  path : ∃ plain, unescape .path (trimSlashes base.escapedPath) = some plain ∧
    u.path = plain ++ suffix

/-- A text is what is left of it and the slashes that are cut. -/
theorem trimSlashes_split (s : Bytes) : ∃ n, s = trimSlashes s ++ List.replicate n 0x2F := by
  induction s using List.reverseRecOn with
  | nil => exact ⟨0, rfl⟩
  | append_singleton s b ih =>
    rw [trimSlashes, List.rdropWhile_concat]
    split
    · next hb =>
      obtain ⟨n, hn⟩ := ih
      refine ⟨n+1, ?_⟩
      rw [List.replicate_succ', ← List.append_assoc, ← trimSlashes, ← hn, eq_of_beq hb]
    · exact ⟨0, by simp⟩

theorem trimSlashes_last (s : Bytes) : (trimSlashes s).getLast? ≠ some 0x2F := by
  intro h
  have hne : trimSlashes s ≠ [] := by
    intro he
    rw [he] at h
    cases h
  rw [List.getLast?_eq_some_getLast hne, Option.some.injEq] at h
  exact List.rdropWhile_last_not (· == 0x2F) s hne (beq_iff_eq.mpr h)

theorem trimSlashes_append {s : Bytes} (h : s.getLast? ≠ some 0x2F) (t : Bytes) :
    trimSlashes (s ++ t) = s ++ trimSlashes t := by
  induction t using List.reverseRecOn with
  | nil =>
    rw [List.append_nil, trimSlashes, List.rdropWhile_eq_self_iff.mpr, trimSlashes,
      List.rdropWhile_nil, List.append_nil]
    intro hne hlast
    rw [beq_iff_eq] at hlast
    exact h (by rw [List.getLast?_eq_some_getLast hne, hlast])
  | append_singleton t b ih =>
    rw [← List.append_assoc, trimSlashes, trimSlashes, List.rdropWhile_concat,
      List.rdropWhile_concat]
    split
    · exact ih
    · rw [List.append_assoc]

/-- Only slashes are cut. -/
theorem mem_trimSlashes {s : Bytes} {b : UInt8} (hb : b ≠ 0x2F) : b ∈ trimSlashes s ↔ b ∈ s := by
  obtain ⟨n, hn⟩ := trimSlashes_split s
  conv_rhs => rw [hn]
  rw [List.mem_append, List.mem_replicate]
  exact ⟨Or.inl, fun h => h.resolve_right fun hr => hb hr.2⟩

/-- The text of a URL in front of its path. -/
def URL.place (u : URL) : Bytes :=
  u.scheme ++ 0x3A::0x2F::0x2F::writtenAuthority u.user u.host

theorem place_last (hh : u.host ≠ []) : u.place.getLast? ≠ some 0x2F := by
  have hne : writtenAuthority u.user u.host ≠ [] := by
    unfold writtenAuthority
    rw [ne_eq, List.append_eq_nil_iff, not_and]
    exact fun _ => escape_ne_nil hh
  have hplace : u.place = (u.scheme ++ [0x3A, 0x2F, 0x2F]) ++ writtenAuthority u.user u.host := by
    simp [URL.place]
  rw [hplace, List.getLast?_append_of_ne_nil _ hne]
  exact fun h => (mem_writtenAuthority (List.mem_of_getLast? h)).2.1 rfl

/-- A path after an authority is written with its slash. -/
theorem escapedPath_slash (ha : HasAuthority u) :
    u.escapedPath = [] ∨ u.escapedPath.head? = some 0x2F := by
  have hstar : u.path ≠ lit "*" := by
    intro he
    have hpath := ha.path
    rw [he] at hpath
    revert hpath
    decide
  rw [URL.escapedPath, if_neg fun h => hstar h.1]
  unfold escaped
  split
  · exact ha.rawPath
  · obtain hp | hp := ha.path
    · exact Or.inl (by rw [hp, escape, List.flatMap_nil])
    · obtain ⟨rest, he⟩ := List.head?_eq_some_iff.mp hp
      rw [he, escape_cons, escapeByte_plain (by decide) (by decide)]
      exact Or.inr rfl

/-- How a bare URL is written. -/
theorem string_bare (hs : u.scheme ≠ []) (hh : u.host ≠ []) (ha : HasAuthority u) (hb : Bare u) :
    u.string = u.place ++ u.escapedPath := by
  have hroot : rooted u.escapedPath = u.escapedPath := if_neg fun h =>
    (escapedPath_slash ha).elim h.1 h.2
  rw [string_absolute hs hh ha.hierarchical, hroot, if_neg (by simp [hb.query, hb.mark]),
    if_pos hb.fragment, URL.place]
  simp

/-- A path without its last slashes is read on its own. -/
theorem unescape_trimSlashes (u : URL) : ∃ plain,
    unescape .path (trimSlashes u.escapedPath) = some plain := by
  have hread := reads_of_unescape (unescape_escapedPath u)
  obtain ⟨n, hn⟩ := trimSlashes_split u.escapedPath
  cases n with
  | zero =>
    rw [List.replicate_zero, List.append_nil] at hn
    exact ⟨_, hn ▸ unescape_escapedPath u⟩
  | succ n =>
    rw [hn, List.replicate_succ] at hread
    obtain ⟨x, -, -, hx, -⟩ := hread.split (by decide) (by decide)
    exact ⟨x, hx.unescape⟩

theorem unescape_suffix (h : Suffix suffix) : unescape .path suffix = some suffix := by
  have hsame := escape_plain h.plain (by decide)
  rw [← hsame, unescape_escape (fits_path suffix), hsame]

theorem validEncoded_path (b : UInt8) (h : pathByte b = true) :
    (b ∈ lit "!$&'()*+,;=:@[]%" || !shouldEscape b .path) = true := by
  obtain hd | hm | hs := pathByte_cases h
  · obtain rfl | hb := escapeDigit_cases b hd
    · decide
    · simp [shouldEscape, hb]
  · simp [hm]
  · simp [hs]

/-- A path that is set is written as it was set. -/
theorem escapedPath_setPath {v : URL} {p : Bytes} (hp : p.head? = some 0x2F)
    (hbytes : ∀ b ∈ p, pathByte b = true) (h : u.setPath p = some v) : v.escapedPath = p := by
  obtain ⟨plain, hread, rfl⟩ := Option.map_eq_some_iff.mp h
  have hstar : plain ≠ lit "*" := by
    intro he
    have hslash := rooted_path (Or.inr hp) hread
    rw [he] at hslash
    revert hslash
    decide
  rw [URL.escapedPath, if_neg fun he => hstar he.1]
  by_cases he : p = escape plain .path
  · rw [if_pos he, escaped, if_neg (by simp), ← he]
  · have hne : p ≠ [] := by
      intro hnil
      rw [hnil] at hp
      cases hp
    have hvalid : validEncoded p .path = true :=
      List.all_eq_true.mpr fun b hb => validEncoded_path b (hbytes b hb)
    rw [if_neg he, escaped, if_pos ⟨hne, hvalid, hread⟩]

/-- The path of a continued URL. -/
theorem continued_path (ha : HasAuthority u) (hsuffix : Suffix suffix) :
    (trimSlashes u.escapedPath ++ suffix).head? = some 0x2F ∧
      ∀ b ∈ trimSlashes u.escapedPath ++ suffix, pathByte b = true := by
  obtain ⟨n, hn⟩ := trimSlashes_split u.escapedPath
  constructor
  · by_cases hnil : trimSlashes u.escapedPath = []
    · rw [hnil, List.nil_append, hsuffix.slash]
    · have hhead := (escapedPath_slash ha).resolve_left fun he => hnil (by rw [he]; rfl)
      rw [hn, List.head?_append_of_ne_nil _ hnil] at hhead
      rw [List.head?_append_of_ne_nil _ hnil, hhead]
  · intro b hb
    obtain hb | hb := List.mem_append.mp hb
    · exact mem_escapedPath (by rw [hn]; exact List.mem_append_left _ hb)
    · simp [pathByte, hsuffix.plain b hb]

/-- How a URL that continues a bare one is written, and what is read from it. -/
theorem parse_trimmed (hscheme : LegalScheme u.scheme) (hh : u.host ≠ []) (ha : HasAuthority u)
    (hb : Bare u) (hsuffix : Suffix suffix) :
    parse (trimSlashes u.string ++ suffix) =
      (parseHost u.scheme (escape u.host .host)).bind fun host =>
        { scheme := u.scheme, user := u.user, host := host : URL }.setPath
          (trimSlashes u.escapedPath ++ suffix) := by
  obtain ⟨hslash, hbytes⟩ := continued_path ha hsuffix
  have htext : trimSlashes u.string ++ suffix = u.scheme ++ 0x3A::0x2F::0x2F::(writtenAuthority
      u.user u.host ++ (trimSlashes u.escapedPath ++ suffix) ++ question []) := by
    rw [string_bare hscheme.ne_nil hh ha hb, trimSlashes_append (place_last hh), URL.place,
      question, if_pos rfl]
    simp
  rw [htext, parse_written hscheme u.user u.host (Or.inr hslash) hbytes (by simp)]

/-- A bare URL that is read back from the way it is written is the base of other URLs. -/
theorem parse_continued (hscheme : LegalScheme u.scheme) (hh : u.host ≠ []) (ha : HasAuthority u)
    (hb : Bare u) (hlegal : LegalHost u.scheme u.host) (hsuffix : Suffix suffix) :
    ∃ parsed, parse (trimSlashes u.string ++ suffix) = some parsed ∧
      Continues u suffix parsed := by
  obtain ⟨hslash, hbytes⟩ := continued_path ha hsuffix
  obtain ⟨plain, hplain⟩ := unescape_trimSlashes u
  have hread : unescape .path (trimSlashes u.escapedPath ++ suffix) = some (plain ++ suffix) :=
    ((reads_of_unescape hplain).append (reads_of_unescape (unescape_suffix hsuffix))).unescape
  have hset : ∃ rawPath, ({ scheme := u.scheme, user := u.user, host := u.host } : URL).setPath
      (trimSlashes u.escapedPath ++ suffix) =
        some { scheme := u.scheme, user := u.user, host := u.host,
               path := plain ++ suffix, rawPath := rawPath } := by
    rw [URL.setPath, hread]
    exact ⟨_, rfl⟩
  obtain ⟨rawPath, hset⟩ := hset
  have hwritten := escapedPath_setPath hslash hbytes hset
  rw [parse_trimmed hscheme hh ha hb hsuffix, parseHost_escape hlegal, Option.bind_some, hset]
  exact ⟨_, rfl, rfl, rfl, rfl, rfl, ⟨rfl, rfl, rfl⟩, hwritten, plain, hplain, rfl⟩

theorem suffix_plain (h : Suffix suffix) : 0x23 ∉ suffix ∧ 0x3F ∉ suffix := by
  have hno : ∀ b ∈ suffix, b ≠ 0x3F ∧ b ≠ 0x23 := fun b hb =>
    (pathByte_visible b (by simp [pathByte, h.plain b hb])).2
  exact ⟨fun hmem => (hno _ hmem).2 rfl, fun hmem => (hno _ hmem).1 rfl⟩

/-- A bare URL is read from a text without a question mark and without a number sign, if it does not
end in one. -/
theorem Bare.marks (hb : Bare parsed) {s : Bytes} (hsuffix : Suffix suffix)
    (h : parse (s ++ suffix) = some parsed) : 0x23 ∉ s ∧ 0x3F ∉ s := by
  have hhash : 0x23 ∉ s := by
    intro hmem
    obtain ⟨before, after, rfl, hbefore⟩ := List.eq_append_cons_of_mem hmem
    refine parse_fragment h ?_ hb.fragment
    rw [List.append_assoc, List.cons_append, cut_append hbefore]
    intro hnil
    have hslash := hsuffix.slash
    rw [(List.append_eq_nil_iff.mp hnil).2] at hslash
    cases hslash
  refine ⟨hhash, fun hmem => ?_⟩
  have hnone : 0x23 ∉ s ++ suffix := by
    rw [List.mem_append, not_or]
    exact ⟨hhash, (suffix_plain hsuffix).1⟩
  obtain hf | hq := parse_query h hnone (List.mem_append_left _ hmem)
  · rw [hb.mark] at hf
    cases hf
  · exact hq hb.query

/-- Only a bare URL is the base of other URLs, and only one that is read back. -/
theorem bare_of_continued (hscheme : LegalScheme u.scheme) (hh : u.host ≠ []) (ha : HasAuthority u)
    (hsuffix : Suffix suffix) (h : parse (trimSlashes u.string ++ suffix) = some parsed)
    (hb : Bare parsed) : Bare u ∧ LegalHost u.scheme u.host := by
  obtain ⟨hhash, hquestion⟩ := hb.marks hsuffix h
  rw [mem_trimSlashes (by decide), string_absolute hscheme.ne_nil hh ha.hierarchical] at hhash
  rw [mem_trimSlashes (by decide), string_absolute hscheme.ne_nil hh ha.hierarchical] at hquestion
  have hbare : Bare u := by
    constructor
    · by_contra hq
      rw [if_pos (Or.inr hq)] at hquestion
      simp at hquestion
    · by_contra hf
      rw [if_pos (Or.inl (eq_true_of_ne_false hf))] at hquestion
      simp at hquestion
    · by_contra hf
      rw [if_neg hf] at hhash
      simp at hhash
  refine ⟨hbare, ?_⟩
  rw [parse_trimmed hscheme hh ha hbare hsuffix, Option.bind_eq_some_iff] at h
  obtain ⟨host, hhost, -⟩ := h
  exact legalHost_of_escape hhost

end Url
