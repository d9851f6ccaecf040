import OpenDiscogs.Library.UrlHost

/-! Absolute URLs: how the parts are written one after the other, and how they are found again. -/
namespace Url
open Utf8 UrlQuery

/-- A scheme in small letters. -/
structure LegalScheme (scheme : Bytes) : Prop where
  letter : scheme.head?.any isLetter = true
  bytes : scheme.all schemeByte = true
  small : scheme.map toLower = scheme

/-- The user and the host as they are written. -/
def writtenAuthority (user : Option Userinfo) (host : Bytes) : Bytes :=
  (match user with
    | some user => user.string ++ [0x40]
    | none => []) ++ escape host .host

/-- A path that starts with a slash if there is one. -/
def rooted (path : Bytes) : Bytes :=
  if path ≠ [] ∧ path.head? ≠ some 0x2F then 0x2F::path else path

/-- A query after its question mark. -/
def question (query : Bytes) : Bytes := if query = [] then [] else 0x3F::query

variable {scheme authority path query : Bytes} {u : URL}

theorem LegalScheme.ne_nil (h : LegalScheme scheme) : scheme ≠ [] := by
  intro he
  subst he
  cases h.letter

/-- A scheme is found before its colon. -/
theorem getScheme_append (h : LegalScheme scheme) (rest : Bytes) :
    getScheme (scheme ++ 0x3A::rest) = some (scheme, rest) := by
  have hall : ∀ b ∈ scheme, schemeByte b = true := List.all_eq_true.mp h.bytes
  have hcolon : schemeByte 0x3A = false := by decide
  obtain ⟨b, s, rfl⟩ := List.exists_cons_of_ne_nil h.ne_nil
  have hletter : isLetter b = true := h.letter
  have htake : (b::s ++ 0x3A::rest).takeWhile schemeByte = b::s := by
    rw [List.takeWhile_append_of_pos hall, List.takeWhile_cons_of_neg (by simp [hcolon]),
      List.append_nil]
  have hdrop : (b::s ++ 0x3A::rest).dropWhile schemeByte = 0x3A::rest := by
    rw [List.dropWhile_append_of_pos hall, List.dropWhile_cons_of_neg (by simp [hcolon])]
  simp only [getScheme, htake, hdrop, hletter, if_true]

theorem cut_none {sep : UInt8} {s : Bytes} (h : sep ∉ s) : cut sep s = (s, []) := by
  rw [cut, takeWhile_no_sep h, dropWhile_no_sep h, List.tail_nil]

theorem setQuery_question {rest : Bytes} (h : 0x3F ∉ rest) (u : URL) :
    u.setQuery (rest ++ question query) =
      ({ u with rawQuery := query }, rest) := by
  unfold question URL.setQuery
  by_cases hq : query = []
  · rw [if_pos hq, hq, List.append_nil, cut_none h, if_neg]
    intro hlast
    exact h (List.mem_of_getLast? hlast.1)
  · rw [if_neg hq, cut_append h, if_neg]
    intro hlast
    obtain ⟨hl, hc⟩ := hlast
    have hmem : 0x3F ∈ query := by
      obtain h | ⟨front, b, rfl⟩ := List.eq_nil_or_concat query
      · exact absurd h hq
      · have hassoc : rest ++ 0x3F::front.concat b = (rest ++ 0x3F::front) ++ [b] := by simp
        rw [hassoc, List.getLast?_concat, Option.some.injEq] at hl
        simp [hl]
    rw [List.count_append, List.count_cons_self] at hc
    have := List.count_pos_iff.mpr hmem
    omega

theorem setAuthority_slashes (hs : u.scheme ≠ []) (ha : 0x2F ∉ authority)
    (hp : path = [] ∨ path.head? = some 0x2F) :
    u.setAuthority (0x2F::0x2F::(authority ++ path)) =
      (parseAuthority u.scheme authority).bind fun pair =>
        { u with user := pair.1, host := pair.2 }.setPath path := by
  have htake : (authority ++ path).takeWhile (· != 0x2F) = authority := by
    obtain rfl | hp := hp
    · rw [List.append_nil, takeWhile_no_sep ha]
    · obtain ⟨rest, rfl⟩ := List.head?_eq_some_iff.mp hp
      exact takeWhile_append_sep ha rest
  rw [URL.setAuthority, if_neg fun h => hs h.1]
  simp only [htake, List.drop_left]
  cases parseAuthority u.scheme authority <;> rfl

theorem schemeByte_visible : ∀ b, schemeByte b = true → Visible b ∧ b ≠ 0x23 :=
  forall_byte (by decide)

/-- An absolute URL without a fragment is read part by part. -/
theorem parse_absolute (hscheme : LegalScheme scheme) (ha : 0x2F ∉ authority)
    (hp : path = [] ∨ path.head? = some 0x2F) (hq : 0x3F ∉ authority ++ path)
    {raw : Bytes}
    (hraw : raw = scheme ++ 0x3A::0x2F::0x2F::(authority ++ path ++ question query))
    (hvisible : ∀ b ∈ raw, Visible b ∧ b ≠ 0x23) :
    parse raw = (parseAuthority scheme authority).bind fun pair =>
      { scheme, user := pair.1, host := pair.2, rawQuery := query : URL }.setPath path := by
  have hctl : ¬(raw.any fun b => b < 0x20 || b == 0x7F) = true := by
    rw [List.any_eq_true]
    intro h
    obtain ⟨b, hb, h⟩ := h
    simp only [Bool.or_eq_true, decide_eq_true_eq, beq_iff_eq] at h
    obtain ⟨hlo, hhi⟩ := (hvisible b hb).1
    obtain h | rfl := h
    · exact UInt8.lt_asymm hlo h
    · exact UInt8.lt_irrefl _ hhi
  have hstar : raw ≠ lit "*" := by
    intro he
    have hcolon : 0x3A ∈ raw := by simp [hraw]
    rw [he] at hcolon
    revert hcolon
    decide
  have hslashes : 0x3F ∉ 0x2F::0x2F::(authority ++ path) := by simpa using hq
  have hbase : parseBase raw = (parseAuthority scheme authority).bind fun pair =>
      { scheme, user := pair.1, host := pair.2, rawQuery := query : URL }.setPath path := by
    have hget : getScheme raw = some (scheme, 0x2F::0x2F::(authority ++ path) ++ question query) := by
      rw [hraw, getScheme_append hscheme]
      simp
    rw [parseBase, if_neg hctl, if_neg hstar, hget]
    simp only [setQuery_question hslashes, hscheme.small]
    rw [if_neg (by simp), setAuthority_slashes hscheme.ne_nil ha hp]
  rw [parse, cut_none fun h => (hvisible _ h).2 rfl]
  simp only [hbase]
  cases (parseAuthority scheme authority).bind _ <;> rfl

/-- What is written of a user is legal there. -/
theorem validUserinfo_byte (b : UInt8) (h : shouldEscape b .userPassword = false) :
    (alphanumeric b || b ∈ lit "-._:~!$&'()*+,;=%@") = true := by
  have hmarks : (lit "-_.~" ++ lit "$&+,;=").all (· ∈ lit "-._:~!$&'()*+,;=%@") = true := by decide
  have hb : alphanumeric b = true ∨ b ∈ lit "-_.~" ++ lit "$&+,;=" := by
    unfold shouldEscape at h
    split at h
    · next hword =>
      obtain hword | hword := Bool.or_eq_true_iff.mp hword
      · exact Or.inl hword
      · exact Or.inr (List.mem_append_left _ (of_decide_eq_true hword))
    · exact Or.inr (List.mem_append_right _ (by simpa using h))
  obtain hb | hb := hb
  · rw [hb, Bool.true_or]
  · rw [List.all_eq_true.mp hmarks b hb, Bool.or_true]

theorem validUserinfo_escapeDigit (b : UInt8) (h : escapeDigit b = true) :
    (alphanumeric b || b ∈ lit "-._:~!$&'()*+,;=%@") = true := by
  obtain rfl | hb := escapeDigit_cases b h
  · decide
  · rw [hb, Bool.true_or]

theorem validUserinfo_escape (s : Bytes) : validUserinfo (escape s .userPassword) = true := by
  refine List.all_eq_true.mpr fun b hb => ?_
  obtain ⟨-, hs⟩ | hd | ⟨-, hq⟩ := mem_escape hb
  · exact validUserinfo_byte b hs
  · exact validUserinfo_escapeDigit b hd
  · cases hq

/-- A user is read back from the way it is written. -/
theorem parseUserinfo_string (user : Userinfo) : parseUserinfo user.string = some user := by
  obtain ⟨username, password⟩ := user
  have hcolon : ∀ s : Bytes, 0x3A ∉ escape s .userPassword := fun s =>
    not_mem_escape (by decide) (by decide) (by decide)
  cases password with
  | none =>
    rw [parseUserinfo, Userinfo.string, List.append_nil, if_pos (validUserinfo_escape username),
      if_neg (hcolon username), unescape_escape (fits_userPassword username), Option.map_some]
  | some password =>
    have hvalid : validUserinfo
        (escape username .userPassword ++ 0x3A::escape password .userPassword) = true := by
      rw [validUserinfo, List.all_append, List.all_cons, Bool.and_eq_true, Bool.and_eq_true]
      exact ⟨validUserinfo_escape username, by decide, validUserinfo_escape password⟩
    rw [parseUserinfo, Userinfo.string, if_pos hvalid, if_pos (by simp),
      cut_append (hcolon username)]
    simp only [unescape_escape (fits_userPassword username),
      unescape_escape (fits_userPassword password)]

/-- The bytes that end an authority or a part of it. -/
def delimits (b : UInt8) : Bool := b = 0x2F || b = 0x3F || b = 0x23 || b = 0x40

/-- A user's parts and a host are written without the bytes that end them. -/
theorem delimits_escape {mode : Encoding} (hm : mode = .host ∨ mode = .userPassword) {s : Bytes}
    {c : UInt8} (h : c ∈ escape s mode) : delimits c = false := by
  have htable : ∀ mode, mode = .host ∨ mode = .userPassword → ∀ b, delimits b = true →
      shouldEscape b mode = true ∧ escapeDigit b = false ∧ b ≠ 0x2B := by
    intro mode hm
    obtain rfl | rfl := hm <;> exact forall_byte (by decide)
  by_contra hd
  obtain ⟨hs, hdigit, hplus⟩ := htable mode hm c (eq_true_of_ne_false hd)
  exact not_mem_escape hs hdigit hplus h

theorem mem_userinfo {user : Userinfo} {c : UInt8} (h : c ∈ user.string) :
    Visible c ∧ delimits c = false := by
  obtain ⟨username, password⟩ := user
  have hescape : ∀ {s : Bytes}, c ∈ escape s .userPassword → Visible c ∧ delimits c = false :=
    fun h => ⟨visible_escape h, delimits_escape (Or.inr rfl) h⟩
  obtain h | h := List.mem_append.mp h
  · exact hescape h
  · cases password with
    | none => simp at h
    | some password =>
      obtain rfl | h := List.mem_cons.mp h
      · decide
      · exact hescape h

/-- An authority is written without the bytes that end it. -/
theorem mem_writtenAuthority {user : Option Userinfo} {host : Bytes} {c : UInt8}
    (h : c ∈ writtenAuthority user host) : Visible c ∧ c ≠ 0x2F ∧ c ≠ 0x3F ∧ c ≠ 0x23 := by
  have hplain : delimits c = false → c ≠ 0x2F ∧ c ≠ 0x3F ∧ c ≠ 0x23 := by
    simp [delimits]
    tauto
  obtain h | h := List.mem_append.mp h
  · cases user with
    | none => simp at h
    | some user =>
      obtain h | h := List.mem_append.mp h
      · exact ⟨(mem_userinfo h).1, hplain (mem_userinfo h).2⟩
      · obtain rfl := List.mem_singleton.mp h
        decide
  · exact ⟨visible_escape h, hplain (delimits_escape (Or.inl rfl) h)⟩

/-- An authority is read back up to its host. -/
theorem parseAuthority_written (user : Option Userinfo) (host : Bytes) :
    parseAuthority scheme (writtenAuthority user host) =
      (parseHost scheme (escape host .host)).map fun host => (user, host) := by
  have hat : 0x40 ∉ escape host .host := by
    intro h
    have hd := delimits_escape (Or.inl rfl) h
    cases hd
  cases user with
  | none => rw [parseAuthority, writtenAuthority, List.nil_append, Ip.cutLast_none hat]
  | some user =>
    have hcut : writtenAuthority (some user) host = user.string ++ 0x40::escape host .host := by
      simp [writtenAuthority]
    rw [parseAuthority, hcut, Ip.cutLast_append hat]
    simp only [List.tail_cons, parseUserinfo_string]
    cases parseHost scheme (escape host .host) <;> rfl

/-- How a URL with a scheme and a host is written. -/
theorem string_absolute (hs : u.scheme ≠ []) (hh : u.host ≠ []) (ho : u.opaquePart = []) :
    u.string = u.scheme ++ 0x3A::0x2F::0x2F::(writtenAuthority u.user u.host ++
      rooted u.escapedPath ++ (if u.forceQuery ∨ u.rawQuery ≠ [] then 0x3F::u.rawQuery else []) ++
      (if u.fragment = [] then [] else 0x23::u.escapedFragment)) := by
  have hfront : u.front = u.scheme ++ 0x3A::0x2F::0x2F::writtenAuthority u.user u.host := by
    have hslashes : lit "//" = [0x2F, 0x2F] := rfl
    unfold URL.front writtenAuthority
    cases u.user <;> simp [hs, hh, hslashes]
  have hne : u.front ≠ [] := by
    rw [hfront]
    simp
  unfold URL.string rooted
  rw [if_neg (by simp [ho])]
  simp only [hne, hh, false_and, if_false, ne_eq, not_false_iff, and_true, List.append_nil]
  rw [hfront]
  by_cases hp : u.escapedPath ≠ [] ∧ u.escapedPath.head? ≠ some 0x2F
  · simp [hp]
  · simp [hp]

/-- What a path is written with. -/
def pathByte (b : UInt8) : Bool :=
  escapeDigit b || b ∈ lit "!$&'()*+,;=:@[]%" || !shouldEscape b .path

theorem pathByte_cases {b : UInt8} (h : pathByte b = true) :
    escapeDigit b = true ∨ b ∈ lit "!$&'()*+,;=:@[]%" ∨ shouldEscape b .path = false := by
  rw [pathByte, Bool.or_eq_true, Bool.or_eq_true, decide_eq_true_iff, Bool.not_eq_true', or_assoc]
    at h
  exact h

theorem pathByte_visible (b : UInt8) (h : pathByte b = true) : Visible b ∧ b ≠ 0x3F ∧ b ≠ 0x23 := by
  have hmarks : (lit "!$&'()*+,;=:@[]%").all (fun b => Visible b) = true := by decide
  have hvisible : Visible b := by
    obtain hd | hm | hs := pathByte_cases h
    · exact visible_escapeDigit b hd
    · exact of_decide_eq_true (List.all_eq_true.mp hmarks b hm)
    · exact (plain_byte .path b hs).1
  refine ⟨hvisible, fun he => ?_, fun he => ?_⟩
  · rw [he] at h
    exact absurd h (by decide)
  · rw [he] at h
    exact absurd h (by decide)

/-- However a path is written, it is read back. -/
theorem unescape_escapedPath (u : URL) : unescape .path u.escapedPath = some u.path := by
  unfold URL.escapedPath
  split
  · next h =>
    rw [h.1]
    decide
  · unfold escaped
    split
    · next h => exact h.2.2
    · exact unescape_escape (fits_path u.path)

theorem mem_escapedPath {c : UInt8} (h : c ∈ u.escapedPath) : pathByte c = true := by
  unfold URL.escapedPath at h
  split at h
  · have hall : ∀ c ∈ lit "*", pathByte c = true := by decide +kernel
    exact hall c h
  · unfold escaped at h
    split at h
    · next hraw =>
      have hc := List.all_eq_true.mp hraw.2.1 c h
      rw [pathByte, Bool.or_assoc, hc, Bool.or_true]
    · obtain ⟨-, hs⟩ | hd | ⟨-, hq⟩ := mem_escape h
      · simp [pathByte, hs]
      · simp [pathByte, hd]
      · cases hq

theorem unescape_slash (s : Bytes) :
    unescape .path (0x2F::s) = (unescape .path s).map (0x2F::·) := by
  rw [unescape_plain (by decide), if_neg (by simp)]
  rfl

/-- A path gets the slash that it lacks. -/
theorem rooted_escapedPath (h : u.path ≠ []) (hs : u.path.head? ≠ some 0x2F) :
    rooted u.escapedPath = 0x2F::u.escapedPath := by
  have hread := unescape_escapedPath u
  rw [rooted, if_pos]
  constructor
  · intro he
    rw [he, unescape, Option.some.injEq] at hread
    exact h hread.symm
  · intro hhead
    obtain ⟨rest, he⟩ := List.head?_eq_some_iff.mp hhead
    rw [he, unescape_slash, Option.map_eq_some_iff] at hread
    obtain ⟨t, -, hpath⟩ := hread
    exact hs (by rw [← hpath]; rfl)

theorem mem_question (hquery : ∀ b ∈ query, Visible b ∧ b ≠ 0x23) {b : UInt8}
    (hb : b ∈ question query) : Visible b ∧ b ≠ 0x23 := by
  unfold question at hb
  split at hb
  · cases hb
  · obtain rfl | hb := List.mem_cons.mp hb
    · decide
    · exact hquery b hb

/-- An absolute URL is read back from the way its parts are written, if its host is. -/
theorem parse_written (hscheme : LegalScheme scheme) (user : Option Userinfo) (host : Bytes)
    (hp : path = [] ∨ path.head? = some 0x2F) (hpath : ∀ b ∈ path, pathByte b = true)
    (hquery : ∀ b ∈ query, Visible b ∧ b ≠ 0x23) :
    parse (scheme ++ 0x3A::0x2F::0x2F::(writtenAuthority user host ++ path ++ question query)) =
      (parseHost scheme (escape host .host)).bind fun host =>
        { scheme, user, host, rawQuery := query : URL }.setPath path := by
  have hslash : 0x2F ∉ writtenAuthority user host := fun h => (mem_writtenAuthority h).2.1 rfl
  have hmark : 0x3F ∉ writtenAuthority user host ++ path := by
    rw [List.mem_append, not_or]
    exact ⟨fun h => (mem_writtenAuthority h).2.2.1 rfl,
      fun h => (pathByte_visible _ (hpath _ h)).2.1 rfl⟩
  have hvisible : ∀ b ∈ scheme ++
      0x3A::0x2F::0x2F::(writtenAuthority user host ++ path ++ question query),
      Visible b ∧ b ≠ 0x23 := by
    intro b hb
    simp only [List.mem_append, List.mem_cons] at hb
    obtain hb | rfl | rfl | rfl | (hb | hb) | hb := hb
    · exact schemeByte_visible b (List.all_eq_true.mp hscheme.bytes b hb)
    · decide
    · decide
    · decide
    · exact ⟨(mem_writtenAuthority hb).1, (mem_writtenAuthority hb).2.2.2⟩
    · exact ⟨(pathByte_visible b (hpath b hb)).1, (pathByte_visible b (hpath b hb)).2.2⟩
    · exact mem_question hquery hb
  rw [parse_absolute hscheme hslash hp hmark rfl hvisible, parseAuthority_written]
  cases parseHost scheme (escape host .host) <;> rfl

end Url
