import OpenDiscogs.Library.Utf8

/-! Unpadded base64 over the URL-safe alphabet. -/
namespace Base64
open Utf8

def symbol (v : Nat) : UInt8 :=
  if v < 26 then UInt8.ofNat (0x41+v)
  else if v < 52 then UInt8.ofNat (0x61+(v-26))
  else if v < 62 then UInt8.ofNat (0x30+(v-52))
  else if v = 62 then 0x2D
  else 0x5F

def symbolValue (b : UInt8) : Option Nat :=
  if 0x41 ≤ b ∧ b ≤ 0x5A then some (b.toNat-0x41)
  else if 0x61 ≤ b ∧ b ≤ 0x7A then some (b.toNat-0x61+26)
  else if 0x30 ≤ b ∧ b ≤ 0x39 then some (b.toNat-0x30+52)
  else if b = 0x2D then some 62
  else if b = 0x5F then some 63
  else none

/-- The six-bit groups of a byte string; the last group is filled up with zero bits. -/
def sextets : Bytes → List Nat
  | a::b::c::s => a.toNat/4::(a.toNat%4*16+b.toNat/16)::(b.toNat%16*4+c.toNat/64)::c.toNat%64::
      sextets s
  | [a, b] => [a.toNat/4, a.toNat%4*16+b.toNat/16, b.toNat%16*4]
  | [a] => [a.toNat/4, a.toNat%4*16]
  | [] => []

/-- The bytes of six-bit groups. A single group left over spells no byte; the bits that a
shorter last quantum leaves over are dropped. -/
def unsextets : List Nat → Option Bytes
  | v::w::x::y::s => (unsextets s).map fun t =>
      UInt8.ofNat (v*4+w/16)::UInt8.ofNat (w%16*16+x/4)::UInt8.ofNat (x%4*64+y)::t
  | [v, w, x] => some [UInt8.ofNat (v*4+w/16), UInt8.ofNat (w%16*16+x/4)]
  | [v, w] => some [UInt8.ofNat (v*4+w/16)]
  | [_] => none
  | [] => some []

def encode (s : Bytes) : Bytes := (sextets s).map symbol

/-- Line breaks are skipped wherever they stand; any other foreign byte is refused. -/
def decode (s : Bytes) : Option Bytes :=
  ((s.filter fun b => b != 0x0D && b != 0x0A).mapM symbolValue).bind unsextets

theorem symbolValue_symbol : ∀ v < 64, symbolValue (symbol v) = some v := by decide

theorem symbol_kept : ∀ v < 64, (symbol v != 0x0D && symbol v != 0x0A) = true := by decide

theorem sextets_lt (s : Bytes) : ∀ v ∈ sextets s, v < 64 := by
  induction s using sextets.induct with
  | case1 a b c s ih =>
    have := a.toNat_lt
    have := b.toNat_lt
    have := c.toNat_lt
    simp only [sextets, List.mem_cons]
    intro v h
    obtain rfl | rfl | rfl | rfl | hv := h
    · omega
    · omega
    · omega
    · omega
    · exact ih v hv
  | case2 a b =>
    have := a.toNat_lt
    have := b.toNat_lt
    simp only [sextets, List.mem_cons, List.not_mem_nil, or_false]
    rintro v (rfl | rfl | rfl) <;> omega
  | case3 a =>
    have := a.toNat_lt
    simp only [sextets, List.mem_cons, List.not_mem_nil, or_false]
    rintro v (rfl | rfl) <;> omega
  | case4 => simp [sextets]

theorem ofNat_eq {a : UInt8} {n : Nat} (h : n = a.toNat) : UInt8.ofNat n = a := by
  rw [h, UInt8.ofNat_toNat]

theorem unsextets_sextets (s : Bytes) : unsextets (sextets s) = some s := by
  induction s using sextets.induct with
  | case1 a b c s ih =>
    have ha := a.toNat_lt
    have hb := b.toNat_lt
    have hc := c.toNat_lt
    simp only [sextets, unsextets, ih, Option.map_some, Option.some.injEq, List.cons.injEq,
      and_true]
    exact ⟨ofNat_eq (by omega), ofNat_eq (by omega), ofNat_eq (by omega)⟩
  | case2 a b =>
    have ha := a.toNat_lt
    have hb := b.toNat_lt
    simp only [sextets, unsextets, Option.some.injEq, List.cons.injEq, and_true]
    exact ⟨ofNat_eq (by omega), ofNat_eq (by omega)⟩
  | case3 a =>
    have ha := a.toNat_lt
    simp only [sextets, unsextets, Option.some.injEq, List.cons.injEq, and_true]
    exact ofNat_eq (by omega)
  | case4 => rfl

theorem mapM_symbol {vs : List Nat} (h : ∀ v ∈ vs, v < 64) :
    (vs.map symbol).mapM symbolValue = some vs := by
  induction vs with
  | nil => rfl
  | cons v vs ih =>
    have hv := symbolValue_symbol v (h v (by simp))
    have ht := ih fun w hw => h w (List.mem_cons_of_mem v hw)
    simp [List.mapM_cons, hv, ht]

/-- Decoding what was encoded gives it back, for every byte string. -/
theorem decode_encode (s : Bytes) : decode (encode s) = some s := by
  have hlt := sextets_lt s
  have hkeep : ((sextets s).map symbol).filter (fun b => b != 0x0D && b != 0x0A) =
      (sextets s).map symbol := by
    rw [List.filter_eq_self]
    intro b hb
    obtain ⟨v, hv, rfl⟩ := List.mem_map.mp hb
    exact symbol_kept v (hlt v hv)
  rw [decode, encode, hkeep, mapM_symbol hlt, Option.bind_some, unsextets_sextets]

theorem encode_ne_nil {s : Bytes} (h : s ≠ []) : encode s ≠ [] := by
  unfold encode
  match s with
  | [] => exact absurd rfl h
  | [_] | [_, _] | _::_::_::_ => simp [sextets]

theorem symbol_visible : ∀ v < 64, 0x20 < symbol v ∧ symbol v < 0x7F := by decide

/-- The letters and digits, the minus and the underscore. -/
def Alphanumeric (b : UInt8) : Prop :=
  (0x41 ≤ b ∧ b ≤ 0x5A) ∨ (0x61 ≤ b ∧ b ≤ 0x7A) ∨ (0x30 ≤ b ∧ b ≤ 0x39) ∨ b = 0x2D ∨ b = 0x5F

instance (b : UInt8) : Decidable (Alphanumeric b) := by
  unfold Alphanumeric
  infer_instance

theorem symbol_alphanumeric : ∀ v < 64, Alphanumeric (symbol v) := by decide

/-- No padding and no byte outside the alphabet. -/
theorem encode_alphanumeric (s : Bytes) : ∀ b ∈ encode s, Alphanumeric b := by
  intro b hb
  obtain ⟨v, hv, rfl⟩ := List.mem_map.mp hb
  exact symbol_alphanumeric v (sextets_lt s v hv)

/-- An encoding of some bytes is not blank. -/
theorem trimSpace_encode {s : Bytes} (h : s ≠ []) : trimSpace (encode s) ≠ [] := by
  obtain ⟨b, t, ht⟩ := List.exists_cons_of_ne_nil (encode_ne_nil h)
  obtain ⟨v, hv, rfl⟩ := List.mem_map.mp (show b ∈ encode s by rw [ht]; simp)
  rw [ht]
  exact trimSpace_visible (symbol_visible v (sextets_lt s v hv)) t

end Base64
