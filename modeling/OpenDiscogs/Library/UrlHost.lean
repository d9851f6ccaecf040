import OpenDiscogs.Library.UrlEscape

/-! The hosts a URL can carry: those that are read back from the way they are written. -/
namespace Url
open Utf8 UrlQuery

/-- The two schemes whose hosts have no colons but the port's. -/
abbrev WebScheme (scheme : Bytes) : Prop := scheme = lit "http" ∨ scheme = lit "https"

def portDigits (port : Bytes) : Bool := port.all fun c => 0x30 ≤ c && c ≤ 0x39

/-- An address in brackets: it may have a zone, which is ASCII. -/
structure LegalLiteral (address : Bytes) : Prop where
  literal : Ip.isLiteral address = true
  front : Fits .host (address.takeWhile (· != 0x25))
  zone : Fits .zone (address.dropWhile (· != 0x25))

/-- A host with or without a port, in brackets or not. -/
inductive LegalHost (scheme : Bytes) : Bytes → Prop
  | name {name : Bytes} (hbracket : 0x5B ∉ name) (hfits : Fits .host name) (hcolon : 0x3A ∉ name) :
      LegalHost scheme name
  | port {name port : Bytes} (hbracket : 0x5B ∉ name) (hfits : Fits .host name)
      (hcolon : WebScheme scheme → 0x3A ∉ name) (hport : portDigits port = true) :
      LegalHost scheme (name ++ 0x3A::port)
  | literal {address closing : Bytes} (hbracket : 0x5B ∉ address) (hlegal : LegalLiteral address)
      (hport : validOptionalPort closing = true) :
      LegalHost scheme (0x5B::(address ++ 0x5D::closing))

variable {scheme s t : Bytes} {c : UInt8}

theorem validOptionalPort_colon (port : Bytes) :
    validOptionalPort (0x3A::port) = portDigits port := by
  simp [validOptionalPort, portDigits]

/-- A port is nothing, or digits after a colon. -/
theorem validOptionalPort_iff {closing : Bytes} : validOptionalPort closing = true ↔
    closing = [] ∨ ∃ port, closing = 0x3A::port ∧ portDigits port = true := by
  cases closing with
  | nil => simp [validOptionalPort]
  | cons b port =>
    constructor
    · intro h
      simp only [validOptionalPort, Bool.and_eq_true, beq_iff_eq] at h
      exact Or.inr ⟨port, by rw [h.1], h.2⟩
    · intro hparts
      obtain h | ⟨port', he, hport⟩ := hparts
      · cases h
      · rw [he, validOptionalPort_colon, hport]

theorem plain_digit : ∀ c : UInt8, (0x30 ≤ c && c ≤ 0x39) = true →
    shouldEscape c .host = false ∧ c ≠ 0x3A ∧ c ≠ 0x5D ∧ c ≠ 0x5B ∧ c ≠ 0x25 :=
  forall_byte (by decide)

theorem portDigits_plain {port : Bytes} (h : portDigits port = true) {c : UInt8} (hc : c ∈ port) :
    shouldEscape c .host = false ∧ c ≠ 0x3A ∧ c ≠ 0x5D ∧ c ≠ 0x5B ∧ c ≠ 0x25 :=
  plain_digit c (List.all_eq_true.mp h c hc)

/-- Digits are written as they are. -/
theorem escape_digits {port : Bytes} (h : portDigits port = true) : escape port .host = port :=
  escape_plain (fun _ hc => (portDigits_plain h hc).1) (by decide)

/-- Digits alone are written as digits alone. -/
theorem portDigits_escape {port : Bytes} : portDigits (escape port .host) = portDigits port := by
  rw [Bool.eq_iff_iff]
  constructor
  · intro h
    refine List.all_eq_true.mpr fun c hc => ?_
    by_cases hs : shouldEscape c .host = true
    · have hp : 0x25 ∈ escape port .host := by
        refine List.mem_flatMap.mpr ⟨c, hc, ?_⟩
        rw [escapeByte, if_neg (by simp), if_pos hs]
        exact List.mem_cons_self
      exact absurd rfl (portDigits_plain h hp).2.2.2.2
    · have hc' : c ∈ escape port .host := by
        refine List.mem_flatMap.mpr ⟨c, hc, ?_⟩
        rw [escapeByte, if_neg (by simp), if_neg hs]
        exact List.mem_singleton_self c
      exact List.all_eq_true.mp h c hc'
  · intro h
    rw [escape_digits h, h]

/-- A byte that stands for itself in a host, and that no escape has. -/
abbrev HostMark (c : UInt8) : Prop := shouldEscape c .host = false ∧ escapeDigit c = false

theorem mem_escape_host (h : HostMark c) : c ∈ escape s .host ↔ c ∈ s := by
  constructor
  · intro hc
    obtain ⟨hs, -⟩ | hd | ⟨-, hq⟩ := mem_escape hc
    · exact hs
    · rw [h.2] at hd
      cases hd
    · cases hq
  · intro hc
    refine List.mem_flatMap.mpr ⟨c, hc, ?_⟩
    rw [escapeByte_plain h.1 (by decide)]
    exact List.mem_singleton_self c

/-- Where a host is cut at such a byte its written form is cut too. -/
theorem escape_host_cut (h : HostMark c) (a b : Bytes) :
    escape (a ++ c::b) .host = escape a .host ++ c::escape b .host := by
  rw [escape_append, escape_cons, escapeByte_plain h.1 (by decide), List.singleton_append]

theorem hostMark_colon : HostMark 0x3A := by decide
theorem hostMark_open : HostMark 0x5B := by decide
theorem hostMark_close : HostMark 0x5D := by decide

theorem escape_bracket (s : Bytes) : escape (0x5B::s) .host = 0x5B::escape s .host := by
  rw [escape_cons, escapeByte_plain hostMark_open.1 (by decide), List.singleton_append]

/-- A bracket that does not start the host refuses it. -/
theorem parseHost_stray (h : s.head? ≠ some 0x5B) (hb : 0x5B ∈ s) : parseHost scheme s = none := by
  unfold parseHost
  split
  · simp at h
  · rw [if_pos hb]

theorem parseHost_name (h : 0x5B ∉ s) (hcolon : 0x3A ∉ s) :
    parseHost scheme s = unescape .host s := by
  unfold parseHost
  split
  · simp at h
  · rw [if_neg h, Ip.cutLast_none hcolon]

theorem parseHost_port {front port : Bytes} (h : 0x5B ∉ front ++ 0x3A::port) (hport : 0x3A ∉ port) :
    parseHost scheme (front ++ 0x3A::port) =
      if portDigits port = true ∧ ¬(WebScheme scheme ∧ 0x3A ∈ front) then
        unescape .host (front ++ 0x3A::port)
      else none := by
  unfold parseHost
  split
  · next he => exact absurd (he ▸ List.mem_cons_self) h
  · rw [if_neg h, Ip.cutLast_append hport, ← validOptionalPort_colon]

/-- The address and the port around the last closing bracket. -/
theorem parseHost_literal {hostname closing : Bytes} (h : 0x5B ∉ hostname ++ 0x5D::closing)
    (hclosing : 0x5D ∉ closing) :
    parseHost scheme (0x5B::(hostname ++ 0x5D::closing)) = bracketedHost hostname closing := by
  rw [parseHost, Ip.cutLast_append hclosing]
  exact if_neg h

theorem parseHost_open (h : 0x5B ∈ s) : parseHost scheme (0x5B::s) = none := by
  rw [parseHost]
  split
  · exact if_pos h
  · rfl

theorem parseHost_unclosed (h : 0x5D ∉ s) : parseHost scheme (0x5B::s) = none := by
  rw [parseHost, Ip.cutLast_none h]

/-- How a text in the place of a host looks: where its brackets and its last colon stand. -/
inductive HostShape : Bytes → Prop
  | name {s : Bytes} (hopen : 0x5B ∉ s) (hcolon : 0x3A ∉ s) : HostShape s
  | port {front port : Bytes} (hopen : 0x5B ∉ front ++ 0x3A::port) (hlast : 0x3A ∉ port) :
      HostShape (front ++ 0x3A::port)
  | literal {hostname closing : Bytes} (hopen : 0x5B ∉ hostname ++ 0x5D::closing)
      (hclose : 0x5D ∉ closing) : HostShape (0x5B::(hostname ++ 0x5D::closing))
  | unclosed {s : Bytes} (hclose : 0x5D ∉ s) : HostShape (0x5B::s)
  | twice {s : Bytes} (hopen : 0x5B ∈ s) : HostShape (0x5B::s)
  | stray {s : Bytes} (hhead : s.head? ≠ some 0x5B) (hopen : 0x5B ∈ s) : HostShape s

theorem hostShape (s : Bytes) : HostShape s := by
  by_cases hb : 0x5B ∈ s
  · by_cases hhead : s.head? = some 0x5B
    · obtain ⟨inner, rfl⟩ := List.head?_eq_some_iff.mp hhead
      by_cases hopen : 0x5B ∈ inner
      · exact .twice hopen
      · cases hcut : Ip.cutLast 0x5D inner with
        | none => exact .unclosed (Ip.not_mem_of_cutLast hcut)
        | some pair =>
          obtain ⟨closing, -, hclose, rfl⟩ := Ip.cutLast_some hcut
          exact .literal hopen hclose
    · exact .stray hhead hb
  · cases hcut : Ip.cutLast 0x3A s with
    | none => exact .name hb (Ip.not_mem_of_cutLast hcut)
    | some pair =>
      obtain ⟨port, -, hlast, rfl⟩ := Ip.cutLast_some hcut
      exact .port hb hlast

theorem cutZone_cons {b : UInt8} (hb : b ≠ 0x25) (s : Bytes) : bracketedHost.cutZone (b::s) =
    (bracketedHost.cutZone s).map fun pair => (b::pair.1, pair.2) := by
  rw [bracketedHost.cutZone, if_neg]
  intro hprefix
  obtain ⟨rest, hrest⟩ := List.isPrefixOf_iff_prefix.mp hprefix
  exact hb (List.cons.inj hrest).1.symm

theorem hex_two : ∀ n < 16, hex n = 0x32 → n = 2 := by decide

theorem hex_five : ∀ n < 16, hex n = 0x35 → n = 5 := by decide

theorem hex_ne_percent : ∀ n < 16, hex n ≠ 0x25 := by decide

/-- No byte but the percent sign is written as the start of a zone. -/
theorem cutZone_escapeByte {b : UInt8} (hb : b ≠ 0x25) (s : Bytes) :
    bracketedHost.cutZone (escapeByte .host b ++ s) =
      (bracketedHost.cutZone s).map fun pair => (escapeByte .host b ++ pair.1, pair.2) := by
  rw [escapeByte, if_neg (by simp)]
  split
  · have hn := b.toNat_lt
    have hnot : ¬(lit "%25").isPrefixOf
        (0x25::hex (b.toNat/16)::hex (b.toNat%16)::s) = true := by
      intro hprefix
      obtain ⟨rest, hrest⟩ := List.isPrefixOf_iff_prefix.mp hprefix
      obtain ⟨-, htail⟩ := List.cons.inj hrest
      obtain ⟨h1, htail⟩ := List.cons.inj htail
      have htwo := hex_two _ (by omega) h1.symm
      have hfive := hex_five _ (by omega) (List.cons.inj htail).1.symm
      exact hb (UInt8.toNat_inj.mp (show b.toNat = 0x25 by omega))
    rw [List.cons_append, List.cons_append, List.cons_append, List.nil_append,
      bracketedHost.cutZone, if_neg hnot, cutZone_cons (hex_ne_percent _ (by omega)),
      cutZone_cons (hex_ne_percent _ (by omega))]
    simp [Option.map_map, Function.comp_def]
  · exact cutZone_cons hb s

theorem cutZone_escape_append {front : Bytes} (h : 0x25 ∉ front) (s : Bytes) :
    bracketedHost.cutZone (escape front .host ++ s) =
      (bracketedHost.cutZone s).map fun pair => (escape front .host ++ pair.1, pair.2) := by
  induction front with
  | nil => simp [escape]
  | cons b front ih =>
    rw [List.mem_cons, not_or] at h
    rw [escape_cons, List.append_assoc, cutZone_escapeByte (Ne.symm h.1), ih h.2, Option.map_map]
    simp [Function.comp_def]

/-- A written address is cut where its zone starts. -/
theorem cutZone_escape {front : Bytes} (h : 0x25 ∉ front) (zone : Bytes) :
    bracketedHost.cutZone (escape (front ++ 0x25::zone) .host) =
      some (escape front .host, escape (0x25::zone) .host) := by
  rw [escape_append, cutZone_escape_append h, escape_cons]
  have hp : escapeByte .host 0x25 = lit "%25" := by decide
  have hcut : ∀ s, bracketedHost.cutZone (lit "%25" ++ s) = some ([], lit "%25" ++ s) := by
    intro s
    have hprefix : (lit "%25").isPrefixOf (0x25::0x32::0x35::s) = true := rfl
    rw [show lit "%25" ++ s = 0x25::0x32::0x35::s from rfl, bracketedHost.cutZone, if_pos hprefix]
  rw [hp, hcut, Option.map_some, List.append_nil]

theorem cutZone_escape_none {front : Bytes} (h : 0x25 ∉ front) :
    bracketedHost.cutZone (escape front .host) = none := by
  have hcut := cutZone_escape_append h []
  rwa [List.append_nil] at hcut

/-- The address that stands in brackets, its zone read by the rules for zones. -/
def readAddress (hostname : Bytes) : Option Bytes :=
  match bracketedHost.cutZone hostname with
  | some (front, zone) =>
    match unescape .host front, unescape .zone zone with
    | some front, some zone => some (front ++ zone)
    | _, _ => none
  | none => unescape .host hostname

/-- A port is read as it is written. -/
theorem unescape_port {closing : Bytes} (h : validOptionalPort closing = true) :
    unescape .host closing = some closing := by
  have hplain : ∀ b ∈ closing, shouldEscape b .host = false := by
    obtain rfl | ⟨port, rfl, hport⟩ := validOptionalPort_iff.mp h
    · simp
    · rw [List.forall_mem_cons]
      exact ⟨hostMark_colon.1, fun b hb => (portDigits_plain hport hb).1⟩
  rw [← escape_plain hplain (by decide), unescape_escape (fits_plain hplain),
    escape_plain hplain (by decide)]

theorem bracketedHost_eq_some {hostname closing host : Bytes} :
    bracketedHost hostname closing = some host ↔ validOptionalPort closing = true ∧
      ∃ address, readAddress hostname = some address ∧ Ip.isLiteral address = true ∧
        host = 0x5B::(address ++ 0x5D::closing) := by
  have hdef : bracketedHost hostname closing = if validOptionalPort closing then
      match readAddress hostname, unescape .host closing with
      | some address, some colonPort =>
        if Ip.isLiteral address then some (0x5B::(address ++ 0x5D::colonPort)) else none
      | _, _ => none
    else none := rfl
  rw [hdef]
  by_cases hport : validOptionalPort closing = true
  · rw [if_pos hport, unescape_port hport]
    cases readAddress hostname with
    | none => simp
    | some address =>
      simp only [Option.ite_none_right_eq_some, Option.some.injEq, hport, true_and,
        exists_eq_left']
      exact and_congr_right fun _ => eq_comm
  · simp [hport]

/-- An address is read back from the way it is written if its parts fit, and is refused
otherwise. -/
theorem readAddress_escape {address x : Bytes} : readAddress (escape address .host) = some x ↔
    Fits .host (address.takeWhile (· != 0x25)) ∧ Fits .zone (address.dropWhile (· != 0x25)) ∧
      x = address := by
  by_cases hp : 0x25 ∈ address
  · obtain ⟨front, zone, rfl, hf⟩ := List.eq_append_cons_of_mem hp
    rw [readAddress, cutZone_escape hf, takeWhile_append_sep hf,
      dropWhile_append_sep hf, ← escape_zone (0x25::zone)]
    by_cases h1 : Fits .host front
    · by_cases h2 : Fits .zone (0x25::zone)
      · simp [unescape_escape h1, unescape_escape h2, h1, h2, eq_comm]
      · simp [unescape_escape h1, unescape_escape_none h2, h2]
    · simp [unescape_escape_none h1, h1]
  · have hnil : Fits .zone [] := by simp [Fits]
    rw [readAddress, cutZone_escape_none hp, takeWhile_no_sep hp, dropWhile_no_sep hp]
    simp only [unescape_escape_eq_some, hnil, true_and]

/-- What brackets are read back as from the way they are written. -/
theorem bracketedHost_escape {address closing host : Bytes} :
    bracketedHost (escape address .host) closing = some host ↔
      validOptionalPort closing = true ∧ LegalLiteral address ∧
        host = 0x5B::(address ++ 0x5D::closing) := by
  rw [bracketedHost_eq_some]
  constructor
  · intro h
    obtain ⟨hport, address', hread, hlit, rfl⟩ := h
    obtain ⟨hf, hz, rfl⟩ := readAddress_escape.mp hread
    exact ⟨hport, ⟨hlit, hf, hz⟩, rfl⟩
  · intro h
    obtain ⟨hport, hlegal, rfl⟩ := h
    exact ⟨hport, address, readAddress_escape.mpr ⟨hlegal.front, hlegal.zone, rfl⟩, hlegal.literal,
      rfl⟩

theorem fits_port {port : Bytes} (h : portDigits port = true) : Fits .host (0x3A::port) := by
  refine fits_plain (List.forall_mem_cons.mpr ⟨hostMark_colon.1, fun b hb => ?_⟩)
  exact (portDigits_plain h hb).1

theorem closing_plain {closing : Bytes} (h : validOptionalPort closing = true) :
    0x5B ∉ closing ∧ 0x5D ∉ closing ∧ escape closing .host = closing := by
  obtain rfl | ⟨port, rfl, hport⟩ := validOptionalPort_iff.mp h
  · simp [escape]
  · refine ⟨?_, ?_, ?_⟩
    · rw [List.mem_cons, not_or]
      exact ⟨by decide, fun hb => (portDigits_plain hport hb).2.2.2.1 rfl⟩
    · rw [List.mem_cons, not_or]
      exact ⟨by decide, fun hb => (portDigits_plain hport hb).2.2.1 rfl⟩
    · rw [escape_cons, escape_digits hport, escapeByte_plain hostMark_colon.1 (by decide),
        List.singleton_append]

theorem escape_literal (address closing : Bytes) :
    escape (0x5B::(address ++ 0x5D::closing)) .host =
      0x5B::(escape address .host ++ 0x5D::escape closing .host) := by
  rw [escape_bracket, escape_host_cut hostMark_close]

/-- A legal host is read back from the way it is written. -/
theorem parseHost_escape {host : Bytes} (h : LegalHost scheme host) :
    parseHost scheme (escape host .host) = some host := by
  cases h with
  | name hbracket hfits hcolon =>
    rw [parseHost_name (mt (mem_escape_host hostMark_open).mp hbracket)
      (mt (mem_escape_host hostMark_colon).mp hcolon), unescape_escape hfits]
  | @port name port hbracket hfits hcolon hport =>
    have hfitsAll : Fits .host (name ++ 0x3A::port) := fits_append.mpr ⟨hfits, fits_port hport⟩
    have hescape := escape_host_cut hostMark_colon name port
    have hopen : 0x5B ∉ escape name .host ++ 0x3A::escape port .host := by
      rw [← hescape, mem_escape_host hostMark_open, List.mem_append, List.mem_cons, not_or, not_or]
      exact ⟨hbracket, by decide, fun hb => (portDigits_plain hport hb).2.2.2.1 rfl⟩
    have hlast : 0x3A ∉ escape port .host := by
      rw [mem_escape_host hostMark_colon]
      exact fun hb => (portDigits_plain hport hb).2.1 rfl
    rw [hescape, parseHost_port hopen hlast, if_pos, ← hescape, unescape_escape hfitsAll]
    refine ⟨by rw [portDigits_escape, hport], fun hweb => ?_⟩
    exact hcolon hweb.1 ((mem_escape_host hostMark_colon).mp hweb.2)
  | @literal address closing hbracket hlegal hport =>
    obtain ⟨hopen, hclose, hsame⟩ := closing_plain hport
    have hinner : 0x5B ∉ escape address .host ++ 0x5D::closing := by
      rw [List.mem_append, List.mem_cons, not_or, not_or, mem_escape_host hostMark_open]
      exact ⟨hbracket, by decide, hopen⟩
    rw [escape_literal, hsame, parseHost_literal hinner hclose]
    exact bracketedHost_escape.mpr ⟨hport, hlegal, rfl⟩

theorem head_escape (h : HostMark c) (hs : s.head? ≠ some c) :
    (escape s .host).head? ≠ some c := by
  cases s with
  | nil => simp [escape]
  | cons b s =>
    rw [escape_cons]
    intro he
    have hmem : c ∈ escapeByte .host b := by
      have hne := @escape_ne_nil .host _ (List.cons_ne_nil b [])
      rw [escape_cons, escape, List.flatMap_nil, List.append_nil] at hne
      rw [List.head?_append_of_ne_nil _ hne] at he
      exact List.mem_of_mem_head? he
    obtain ⟨rfl, -⟩ | hd | ⟨-, hq⟩ := mem_escapeByte hmem
    · exact hs rfl
    · rw [h.2] at hd
      cases hd
    · cases hq

theorem validOptionalPort_escape {closing : Bytes}
    (h : validOptionalPort (escape closing .host) = true) : validOptionalPort closing = true := by
  cases closing with
  | nil => rfl
  | cons b port =>
    have hb : b = 0x3A := by
      by_contra hne
      have hhead := head_escape hostMark_colon (s := b::port) (by simpa using hne)
      obtain he | ⟨port', he, -⟩ := validOptionalPort_iff.mp h
      · exact escape_ne_nil (List.cons_ne_nil b port) he
      · exact hhead (by rw [he]; rfl)
    subst hb
    rw [escape_cons, escapeByte_plain hostMark_colon.1 (by decide), List.singleton_append,
      validOptionalPort_colon, portDigits_escape] at h
    rw [validOptionalPort_colon, h]

/-- Only a legal host is read back from the way it is written. -/
theorem legalHost_of_escape {host x : Bytes} (h : parseHost scheme (escape host .host) = some x) :
    LegalHost scheme host := by
  cases hostShape host with
  | name hopen hcolon =>
    rw [parseHost_name (mt (mem_escape_host hostMark_open).mp hopen)
      (mt (mem_escape_host hostMark_colon).mp hcolon)] at h
    exact .name hopen (unescape_escape_eq_some.mp h).1 hcolon
  | @port front port hopen hlast =>
    have hesc := mt (mem_escape_host hostMark_open).mp hopen
    have hcut := escape_host_cut hostMark_colon front port
    rw [hcut] at hesc
    rw [hcut, parseHost_port hesc (mt (mem_escape_host hostMark_colon).mp hlast), ← hcut,
      Option.ite_none_right_eq_some] at h
    obtain ⟨⟨hdigits, hweb⟩, h⟩ := h
    rw [portDigits_escape] at hdigits
    rw [mem_escape_host hostMark_colon] at hweb
    have hfits := fits_append.mp (unescape_escape_eq_some.mp h).1
    rw [List.mem_append, not_or] at hopen
    exact .port hopen.1 hfits.1 (fun hw hc => hweb ⟨hw, hc⟩) hdigits
  | literal hopen hclose =>
    have hesc := mt (mem_escape_host hostMark_open).mp hopen
    rw [escape_literal] at h
    rw [escape_host_cut hostMark_close] at hesc
    rw [parseHost_literal hesc (mt (mem_escape_host hostMark_close).mp hclose)] at h
    obtain ⟨hport, hlegal, -⟩ := bracketedHost_escape.mp h
    rw [List.mem_append, not_or] at hopen
    exact .literal hopen.1 hlegal (validOptionalPort_escape hport)
  | unclosed hclose =>
    rw [escape_bracket, parseHost_unclosed (mt (mem_escape_host hostMark_close).mp hclose)] at h
    cases h
  | twice hopen =>
    rw [escape_bracket, parseHost_open ((mem_escape_host hostMark_open).mpr hopen)] at h
    cases h
  | stray hhead hopen =>
    rw [parseHost_stray (head_escape hostMark_open hhead)
      ((mem_escape_host hostMark_open).mpr hopen)] at h
    cases h

/-- A host of one colon. -/
theorem legalHost_port {name port : Bytes} (hcolon : 0x3A ∉ name ∧ 0x3A ∉ port)
    (hbracket : 0x5B ∉ name ++ 0x3A::port) :
    LegalHost scheme (name ++ 0x3A::port) ↔ portDigits port = true ∧ Fits .host name := by
  constructor
  · intro h
    generalize he : name ++ 0x3A::port = host at h
    cases h with
    | name _ _ hno => exact absurd (by simp [← he]) hno
    | @port name' port' _ hfits _ hport =>
      have hlast : 0x3A ∉ port' := fun hb => (portDigits_plain hport hb).2.1 rfl
      have hcut := Ip.cutLast_append hcolon.2 name
      rw [he, Ip.cutLast_append hlast] at hcut
      obtain ⟨rfl, rfl⟩ : name' = name ∧ port' = port := by simpa using hcut
      exact ⟨hport, hfits⟩
    | literal => exact absurd (he ▸ List.mem_cons_self) hbracket
  · intro h
    rw [List.mem_append, not_or] at hbracket
    exact .port hbracket.1 h.2 (fun _ => hcolon.1) h.1

/-- A host in brackets. -/
theorem legalHost_literal {address closing : Bytes} (hclosing : 0x5D ∉ closing) :
    LegalHost scheme (0x5B::(address ++ 0x5D::closing)) ↔
      0x5B ∉ address ∧ validOptionalPort closing = true ∧ LegalLiteral address := by
  constructor
  · intro h
    generalize he : 0x5B::(address ++ 0x5D::closing) = host at h
    cases h with
    | name hno => exact absurd (he ▸ List.mem_cons_self) hno
    | @port name' port' hno _ _ _ =>
      cases name' with
      | nil => cases he
      | cons b name' =>
        obtain ⟨rfl, -⟩ := List.cons.inj he
        exact absurd List.mem_cons_self hno
    | @literal address' closing' hbracket hlegal hport =>
      have hcut := Ip.cutLast_append hclosing address
      rw [(List.cons.inj he).2, Ip.cutLast_append (closing_plain hport).2.1] at hcut
      obtain ⟨rfl, rfl⟩ : address' = address ∧ closing' = closing := by simpa using hcut
      exact ⟨hbracket, hport, hlegal⟩
  · intro h
    exact .literal h.1 h.2.2 h.2.1

theorem unhex_lt : ∀ c : UInt8, (unhex c).all (· < 16) = true := forall_byte (by decide)

theorem unhex_two : ∀ c : UInt8, unhex c = some 2 → c = 0x32 := forall_byte (by decide)

theorem unhex_five : ∀ c : UInt8, unhex c = some 5 → c = 0x35 := forall_byte (by decide)

/-- One escape alone stands for the percent sign. -/
theorem percent_digits {c d : UInt8} {x y : Nat} (hc : unhex c = some x) (hd : unhex d = some y)
    (h : UInt8.ofNat (x*16+y) = 0x25) : c = 0x32 ∧ d = 0x35 := by
  have hx : x < 16 := by simpa [hc] using unhex_lt c
  have hy : y < 16 := by simpa [hd] using unhex_lt d
  have hn : x*16+y = 0x25 := by
    have hnat := congrArg UInt8.toNat h
    rw [UInt8.toNat_ofNat', Nat.mod_eq_of_lt (by omega)] at hnat
    exact hnat
  obtain rfl : x = 2 := by omega
  obtain rfl : y = 5 := by omega
  exact ⟨unhex_two c hc, unhex_five d hd⟩

/-- Nothing in the text starts a zone, so nothing read from it does. -/
theorem Reads.no_percent (h : Reads .host s t) (hz : bracketedHost.cutZone s = none) :
    0x25 ∉ t := by
  induction h with
  | nil => simp
  | plain hb hlegal h ih =>
    rw [cutZone_cons hb, Option.map_eq_none_iff] at hz
    rw [if_neg (by simp), List.mem_cons, not_or]
    exact ⟨Ne.symm hb, ih hz⟩
  | @escaped c d x y s t hc hd hlegal h ih =>
    have hdigit : ∀ {c : UInt8} {x : Nat}, unhex c = some x → c ≠ 0x25 := by
      intro c x hx he
      subst he
      cases hx
    rw [bracketedHost.cutZone] at hz
    split at hz
    · cases hz
    · next hprefix =>
      rw [Option.map_eq_none_iff, cutZone_cons (hdigit hc), Option.map_eq_none_iff,
        cutZone_cons (hdigit hd), Option.map_eq_none_iff] at hz
      rw [List.mem_cons, not_or]
      refine ⟨fun he => hprefix ?_, ih hz⟩
      obtain ⟨rfl, rfl⟩ := percent_digits hc hd he.symm
      rfl

/-- Before a zone there is none, and a zone starts with an escaped percent sign. -/
theorem cutZone_some {front zone : Bytes} (h : bracketedHost.cutZone s = some (front, zone)) :
    s = front ++ zone ∧ bracketedHost.cutZone front = none ∧ ∃ rest, zone = 0x25::0x32::0x35::rest := by
  induction s generalizing front with
  | nil => cases h
  | cons b s ih =>
    rw [bracketedHost.cutZone] at h
    split at h
    · next hp =>
      cases h
      obtain ⟨rest, hrest⟩ := List.isPrefixOf_iff_prefix.mp hp
      exact ⟨rfl, rfl, rest, hrest.symm⟩
    · next hp =>
      obtain ⟨⟨front', zone'⟩, hcut, he⟩ := Option.map_eq_some_iff.mp h
      cases he
      obtain ⟨rfl, hnone, hrest⟩ := ih hcut
      refine ⟨rfl, ?_, hrest⟩
      rw [bracketedHost.cutZone, if_neg, hnone, Option.map_none]
      intro hprefix
      refine hp (List.isPrefixOf_iff_prefix.mpr ?_)
      exact (List.isPrefixOf_iff_prefix.mp hprefix).trans
        (List.cons_prefix_cons.mpr ⟨rfl, List.prefix_append _ _⟩)

/-- What an address is read from: a front that fits a host, and a zone. -/
theorem readAddress_some {hostname address : Bytes} (h : readAddress hostname = some address) :
    ∃ front zone, address = front ++ zone ∧ 0x25 ∉ front ∧ Fits .host front ∧
      (0x5B ∉ hostname → 0x5B ∉ front) ∧
      (zone = [] ∨ zone.head? = some 0x25 ∧ ∃ written, Reads .zone written zone) := by
  rw [readAddress] at h
  cases hcut : bracketedHost.cutZone hostname with
  | none =>
    rw [hcut] at h
    have hread := reads_of_unescape h
    refine ⟨address, [], by simp, hread.no_percent hcut, hread.fits, fun hno => ?_, Or.inl rfl⟩
    rwa [hread.mem_iff (by decide) (by decide) (by decide)]
  | some pair =>
    obtain ⟨front, zone⟩ := pair
    obtain ⟨rfl, hnone, rest, rfl⟩ := cutZone_some hcut
    rw [hcut] at h
    simp only at h
    split at h
    · next front' zone' hf hz =>
      cases h
      have hread := reads_of_unescape hf
      refine ⟨front', zone', rfl, hread.no_percent hnone, hread.fits, fun hno => ?_,
        Or.inr ⟨?_, _, reads_of_unescape hz⟩⟩
      · rw [hread.mem_iff (by decide) (by decide) (by decide)]
        exact fun hmem => hno (List.mem_append_left _ hmem)
      · rw [Url.unescape_hex (x := 2) (y := 5) (by decide) (by decide), if_pos (by decide),
          Option.map_eq_some_iff] at hz
        obtain ⟨u, -, rfl⟩ := hz
        rfl
    · cases h

/-- What stands in a host where it has a zone is ASCII, without an opening bracket. -/
def PlainZone (host : Bytes) : Prop :=
  ∀ inner, host = 0x5B::inner → ∀ b ∈ inner.dropWhile (· != 0x25), b < 0x80 ∧ b ≠ 0x5B

theorem closing_bytes {closing : Bytes} (h : validOptionalPort closing = true) :
    ∀ b ∈ closing, b < 0x80 ∧ b ≠ 0x5B ∧ b ≠ 0x25 := by
  have hdigit : ∀ c : UInt8, (0x30 ≤ c && c ≤ 0x39) = true → c < 0x80 ∧ c ≠ 0x5B ∧ c ≠ 0x25 :=
    forall_byte (by decide)
  obtain rfl | ⟨port, rfl, hport⟩ := validOptionalPort_iff.mp h
  · simp
  · rw [List.forall_mem_cons]
    exact ⟨by decide, fun b hb => hdigit b (List.all_eq_true.mp hport b hb)⟩

/-- An address in brackets that was read can be read back but for its zone. -/
theorem legalHost_of_bracketed {hostname closing host : Bytes} (hopen : 0x5B ∉ hostname)
    (h : bracketedHost hostname closing = some host) :
    LegalHost scheme host ↔ PlainZone host := by
  obtain ⟨hport, address, hread, hlit, rfl⟩ := bracketedHost_eq_some.mp h
  obtain ⟨front, zone, rfl, hpercent, hfits, hfront, hzone⟩ := readAddress_some hread
  have hclosing := closing_bytes hport
  rw [legalHost_literal (closing_plain hport).2.1, and_iff_right hport]
  obtain rfl | ⟨hhead, written, hwritten⟩ := hzone
  · rw [List.append_nil] at hlit ⊢
    have hplain : PlainZone (0x5B::(front ++ 0x5D::closing)) := by
      intro inner he b hb
      have hno : 0x25 ∉ front ++ 0x5D::closing := by
        rw [List.mem_append, List.mem_cons, not_or, not_or]
        exact ⟨hpercent, by decide, fun hmem => (hclosing _ hmem).2.2 rfl⟩
      rw [← (List.cons.inj he).2, dropWhile_no_sep hno] at hb
      cases hb
    refine iff_of_true ⟨hfront hopen, hlit, ?_, ?_⟩ hplain
    · rwa [takeWhile_no_sep hpercent]
    · rw [dropWhile_no_sep hpercent]
      simp [Fits]
  · obtain ⟨rest, rfl⟩ := List.head?_eq_some_iff.mp hhead
    have hcut : (front ++ 0x25::rest ++ 0x5D::closing).dropWhile (· != 0x25) =
        0x25::rest ++ 0x5D::closing := by
      rw [List.append_assoc, List.cons_append, dropWhile_append_sep hpercent]
    constructor
    · intro hlegal inner he b hb
      obtain ⟨hno, -, -, hzone⟩ := hlegal
      rw [dropWhile_append_sep hpercent] at hzone
      rw [← (List.cons.inj he).2, hcut, List.mem_append, List.mem_cons (b := 0x5D)] at hb
      obtain hb | rfl | hb := hb
      · exact ⟨hzone.ascii b hb, fun he => hno (List.mem_append_right _ (he ▸ hb))⟩
      · decide
      · exact ⟨(hclosing b hb).1, (hclosing b hb).2.1⟩
    · intro hplain
      have hzone : ∀ b ∈ 0x25::rest, b < 0x80 ∧ b ≠ 0x5B := fun b hb =>
        hplain _ rfl b (by rw [hcut]; exact List.mem_append_left _ hb)
      refine ⟨?_, hlit, ?_, ?_⟩
      · rw [List.mem_append, not_or]
        exact ⟨hfront hopen, fun hmem => (hzone _ hmem).2 rfl⟩
      · rwa [takeWhile_append_sep hpercent]
      · rw [dropWhile_append_sep hpercent]
        exact hwritten.fits_zone fun b hb => (hzone b hb).1

/-- A host that was read can be read back but for its zone. -/
theorem legalHost_of_parse {host : Bytes} (h : parseHost scheme s = some host) :
    LegalHost scheme host ↔ PlainZone host := by
  have hopen' : ∀ {t : Bytes}, Reads .host s t → 0x5B ∉ s → 0x5B ∉ t := fun hread =>
    mt (hread.mem_iff (by decide) (by decide) (by decide)).mp
  have hplain : ∀ {t : Bytes}, Reads .host s t → 0x5B ∉ s → PlainZone t := fun hread hno inner he =>
    absurd (he ▸ List.mem_cons_self) (hopen' hread hno)
  cases hostShape s with
  | name hopen hcolon =>
    rw [parseHost_name hopen hcolon] at h
    have hread := reads_of_unescape h
    refine iff_of_true (.name (hopen' hread hopen) hread.fits ?_) (hplain hread hopen)
    rwa [hread.mem_iff (by decide) (by decide) (by decide)]
  | @port front port hopen hlast =>
    rw [parseHost_port hopen hlast, Option.ite_none_right_eq_some] at h
    obtain ⟨⟨hdigits, hweb⟩, h⟩ := h
    have hread := reads_of_unescape h
    refine iff_of_true ?_ (hplain hread hopen)
    obtain ⟨x, y, rfl, hx, hy⟩ := hread.split (by decide) (by decide)
    have hport := unescape_port ((validOptionalPort_colon port).trans hdigits)
    obtain rfl : y = 0x3A::port := Option.some.inj (hy.unescape.symm.trans hport)
    have hno := hopen' hread hopen
    rw [List.mem_append, not_or] at hno
    refine .port hno.1 hx.fits (fun hw hmem => hweb ⟨hw, ?_⟩) hdigits
    rwa [hx.mem_iff (by decide) (by decide) (by decide)] at hmem
  | literal hopen hclose =>
    rw [parseHost_literal hopen hclose] at h
    rw [List.mem_append, not_or] at hopen
    exact legalHost_of_bracketed hopen.1 h
  | unclosed hclose =>
    rw [parseHost_unclosed hclose] at h
    cases h
  | twice hopen =>
    rw [parseHost_open hopen] at h
    cases h
  | stray hhead hopen =>
    rw [parseHost_stray hhead hopen] at h
    cases h

end Url
