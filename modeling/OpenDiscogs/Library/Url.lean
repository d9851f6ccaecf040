import OpenDiscogs.Library.Ip
import OpenDiscogs.Library.Strconv

/-! URLs: their parts, the escapes of each part, reading a text and writing it again. -/
namespace Url
open Utf8 UrlQuery

/-- The part of a URL that a text stands in. -/
inductive Encoding where
  | path | userPassword | host | zone | queryComponent | fragment
deriving DecidableEq

def alphanumeric (b : UInt8) : Bool :=
  (0x61 ≤ b && b ≤ 0x7A) || (0x41 ≤ b && b ≤ 0x5A) || (0x30 ≤ b && b ≤ 0x39)

/-- The bytes `-_.~`. -/
def mark (b : UInt8) : Bool := b ∈ lit "-_.~"

/-- Whether a byte must be escaped in a part. -/
def shouldEscape (b : UInt8) (mode : Encoding) : Bool :=
  if alphanumeric b || mark b then false
  else match mode with
    | .host | .zone => b ∉ lit "!$&'()*+,;=:[]<>\""
    | .path => b ∉ lit "$&+,/:;=@"
    | .userPassword => b ∉ lit "$&+,;="
    | .queryComponent => true
    | .fragment => b ∉ lit "$&+,/:;=?@!()*"

def escapeByte (mode : Encoding) (b : UInt8) : Bytes :=
  if b = 0x20 ∧ mode = .queryComponent then [0x2B]
  else if shouldEscape b mode then [0x25, hex (b.toNat/16), hex (b.toNat%16)]
  else [b]

def escape (s : Bytes) (mode : Encoding) : Bytes := s.flatMap (escapeByte mode)

/-- Whether the escape of a byte may stand in a part: a host's is not ASCII, but for the percent
sign in front of a zone. -/
def escapable (mode : Encoding) (b : UInt8) : Bool :=
  match mode with
  | .host => b == 0x25 || 0x80 ≤ b
  | .zone => b == 0x25 || b == 0x20 || !shouldEscape b .host
  | _ => true

/-- Escapes undone; a malformed one refuses the text, and so does a byte that a host must escape. -/
def unescape (mode : Encoding) : Bytes → Option Bytes
  | [] => some []
  | 0x25::c::d::s =>
    match unhex c, unhex d with
    | some x, some y =>
      if escapable mode (UInt8.ofNat (x*16+y)) then
        (unescape mode s).map (UInt8.ofNat (x*16+y)::·)
      else none
    | _, _ => none
  | 0x25::_ => none
  | b::s =>
    if (mode = .host ∨ mode = .zone) ∧ b < 0x80 ∧ shouldEscape b mode then none
    else (unescape mode s).map ((if b = 0x2B ∧ mode = .queryComponent then 0x20 else b)::·)

structure Userinfo where
  username : Bytes
  password : Option Bytes
deriving DecidableEq

structure URL where
  scheme : Bytes := []
  opaquePart : Bytes := []
  user : Option Userinfo := none
  host : Bytes := []
  path : Bytes := []
  rawPath : Bytes := []
  omitHost : Bool := false
  forceQuery : Bool := false
  rawQuery : Bytes := []
  fragment : Bytes := []
  rawFragment : Bytes := []
deriving DecidableEq

def isLetter (b : UInt8) : Bool := (0x61 ≤ b && b ≤ 0x7A) || (0x41 ≤ b && b ≤ 0x5A)

/-- What may follow the first letter of a scheme. -/
def schemeByte (b : UInt8) : Bool := alphanumeric b || b == 0x2B || b == 0x2D || b == 0x2E

/-- The scheme before the first colon, if what stands there may be one; a text that starts with a
colon is refused. -/
def getScheme (s : Bytes) : Option (Bytes × Bytes) :=
  let scheme := s.takeWhile schemeByte
  match s.dropWhile schemeByte with
  | 0x3A::rest =>
    match scheme with
    | [] => none
    | b::_ => if isLetter b then some (scheme, rest) else some ([], s)
  | _ => some ([], s)

def toLower (b : UInt8) : UInt8 := if 0x41 ≤ b ∧ b ≤ 0x5A then b+0x20 else b

def validOptionalPort : Bytes → Bool
  | [] => true
  | b::s => b == 0x3A && s.all fun c => 0x30 ≤ c && c ≤ 0x39

/-- A host in brackets is an address of version 6. -/
def bracketedHost (hostname colonPort : Bytes) : Option Bytes :=
  if validOptionalPort colonPort then
    let address := match cutZone hostname with
      | some (front, zone) =>
        match unescape .host front, unescape .zone zone with
        | some front, some zone => some (front ++ zone)
        | _, _ => none
      | none => unescape .host hostname
    match address, unescape .host colonPort with
    | some address, some colonPort =>
      if Ip.isLiteral address then some (0x5B::(address ++ 0x5D::colonPort)) else none
    | _, _ => none
  else none
where
  /-- The text from the first escaped percent sign on. -/
  cutZone : Bytes → Option (Bytes × Bytes)
    | [] => none
    | b::s =>
      if (lit "%25").isPrefixOf (b::s) then some ([], b::s)
      else (cutZone s).map fun pair => (b::pair.1, pair.2)

/-- Brackets enclose a host from its start; only in brackets may the host of a web address have
colons. -/
def parseHost (scheme host : Bytes) : Option Bytes :=
  match host with
  | 0x5B::inner =>
    match Ip.cutLast 0x5D inner with
    | some (hostname, closing) =>
      if 0x5B ∈ inner then none else bracketedHost hostname closing.tail
    | none => none
  | _ =>
    if 0x5B ∈ host then none
    else match Ip.cutLast 0x3A host with
      | some (front, colonPort) =>
        if validOptionalPort colonPort ∧
            ¬((scheme = lit "http" ∨ scheme = lit "https") ∧ 0x3A ∈ front) then
          unescape .host host
        else none
      | none => unescape .host host

def validUserinfo (s : Bytes) : Bool :=
  s.all fun b => alphanumeric b || b ∈ lit "-._:~!$&'()*+,;=%@"

def parseUserinfo (s : Bytes) : Option Userinfo :=
  if validUserinfo s then
    if 0x3A ∈ s then
      let (username, password) := cut 0x3A s
      match unescape .userPassword username, unescape .userPassword password with
      | some username, some password => some ⟨username, some password⟩
      | _, _ => none
    else (unescape .userPassword s).map fun username => ⟨username, none⟩
  else none

/-- The host is what follows the last at sign. -/
def parseAuthority (scheme authority : Bytes) : Option (Option Userinfo × Bytes) :=
  match Ip.cutLast 0x40 authority with
  | none => (parseHost scheme authority).map fun host => (none, host)
  | some (userinfo, atHost) =>
    match parseHost scheme atHost.tail, parseUserinfo userinfo with
    | some host, some user => some (some user, host)
    | _, _ => none

/-- The path is kept as it was written where that is not how it would be written. -/
def URL.setPath (u : URL) (p : Bytes) : Option URL :=
  (unescape .path p).map fun path =>
    { u with path := path, rawPath := if p = escape path .path then [] else p }

def URL.setFragment (u : URL) (f : Bytes) : Option URL :=
  (unescape .fragment f).map fun fragment =>
    { u with fragment := fragment,
             rawFragment := if f = escape fragment .fragment then [] else f }

/-- The text with and without the query after the first question mark. -/
def URL.setQuery (u : URL) (rest : Bytes) : URL × Bytes :=
  if rest.getLast? = some 0x3F ∧ rest.count 0x3F = 1 then
    ({ u with forceQuery := true }, rest.dropLast)
  else ({ u with rawQuery := (cut 0x3F rest).2 }, (cut 0x3F rest).1)

/-- The authority after two slashes, and the path. -/
def URL.setAuthority (u : URL) (rest : Bytes) : Option URL :=
  match rest with
  | 0x2F::0x2F::s =>
    if u.scheme = [] ∧ s.head? = some 0x2F then u.setPath rest
    else
      let authority := s.takeWhile (· != 0x2F)
      match parseAuthority u.scheme authority with
      | some (user, host) =>
        { u with user := user, host := host }.setPath (s.drop authority.length)
      | none => none
  | 0x2F::_ => { u with omitHost := u.scheme ≠ [] }.setPath rest
  | _ => u.setPath rest

/-- A URL without its fragment. -/
def parseBase (s : Bytes) : Option URL :=
  if s.any fun b => b < 0x20 || b == 0x7F then none
  else if s = lit "*" then some { path := lit "*" }
  else match getScheme s with
    | none => none
    | some (scheme, rest) =>
      let (u, rest) := URL.setQuery { scheme := scheme.map toLower } rest
      if rest.head? ≠ some 0x2F then
        if scheme ≠ [] then some { u with opaquePart := rest }
        else if 0x3A ∈ rest.takeWhile (· != 0x2F) then none
        else u.setAuthority rest
      else u.setAuthority rest

def parse (raw : Bytes) : Option URL :=
  let (s, fragment) := cut 0x23 raw
  match parseBase s with
  | none => none
  | some u => if fragment = [] then some u else u.setFragment fragment

def validEncoded (s : Bytes) (mode : Encoding) : Bool :=
  s.all fun b => b ∈ lit "!$&'()*+,;=:@[]%" || !shouldEscape b mode

/-- The part as it was written, if that is still what it says. -/
def escaped (raw plain : Bytes) (mode : Encoding) : Bytes :=
  if raw ≠ [] ∧ validEncoded raw mode ∧ unescape mode raw = some plain then raw
  else escape plain mode

def URL.escapedPath (u : URL) : Bytes :=
  if u.path = lit "*" ∧ u.rawPath = [] then lit "*" else escaped u.rawPath u.path .path

def URL.escapedFragment (u : URL) : Bytes := escaped u.rawFragment u.fragment .fragment

def Userinfo.string (user : Userinfo) : Bytes :=
  escape user.username .userPassword ++
    match user.password with
    | some password => 0x3A::escape password .userPassword
    | none => []

/-- The scheme and the authority as they are written. -/
def URL.front (u : URL) : Bytes :=
  let scheme := if u.scheme = [] then [] else u.scheme ++ [0x3A]
  let authority :=
    if (u.scheme = [] ∧ u.host = [] ∧ u.user = none) ∨
        (u.omitHost ∧ u.host = [] ∧ u.user = none) then []
    else
      (if u.host ≠ [] ∨ u.path ≠ [] ∨ u.user ≠ none then lit "//" else []) ++
        (match u.user with
          | some user => user.string ++ [0x40]
          | none => []) ++ escape u.host .host
  scheme ++ authority

def URL.string (u : URL) : Bytes :=
  let rest :=
    if u.opaquePart ≠ [] then (if u.scheme = [] then [] else u.scheme ++ [0x3A]) ++ u.opaquePart
    else
      let path := u.escapedPath
      let slash := if path ≠ [] ∧ path.head? ≠ some 0x2F ∧ u.host ≠ [] then [0x2F] else []
      let dot :=
        if u.front = [] ∧ slash = [] ∧ 0x3A ∈ path.takeWhile (· != 0x2F) then lit "./" else []
      u.front ++ slash ++ dot ++ path
  rest ++ (if u.forceQuery ∨ u.rawQuery ≠ [] then 0x3F::u.rawQuery else []) ++
    (if u.fragment = [] then [] else 0x23::u.escapedFragment)

end Url
