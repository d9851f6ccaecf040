import OpenDiscogs.Library.Json
import OpenDiscogs.Library.SqlText

/-! Documents: the JSON values of integers, texts, optional and repeated fields. -/
namespace Json
open Utf8 Strconv SqlText

/-- Only zero is written with a zero in front. -/
theorem formatNat_front {n : Nat} (h : n ≠ 0) : ∃ b t, formatNat n = b::t ∧ b ≠ 0x30 := by
  induction n using Nat.strongRecOn with
  | _ n ih =>
    by_cases hn : n < 10
    · refine ⟨digitByte n, [], formatNat_small hn, ?_⟩
      have hdigit : ∀ d < 10, d ≠ 0 → digitByte d ≠ 0x30 := by decide
      exact hdigit n hn h
    · obtain ⟨b, t, hb, hne⟩ := ih (n/10) (by omega) (by omega)
      exact ⟨b, t ++ [digitByte (n%10)], by rw [formatNat_step (by omega), hb]; rfl, hne⟩

theorem readInteger_formatNat (n : Nat) : readInteger (formatNat n) = some (formatNat n, []) := by
  by_cases hn : n = 0
  · subst hn
    decide
  · obtain ⟨b, t, hb, hne⟩ := formatNat_front hn
    have hall : ∀ c ∈ formatNat n, isDigit c = true := by
      intro c hc
      simpa [isDigit] using formatNat_digits n c hc
    have hread := readDigits_append (formatNat_ne_nil n) hall (t := []) nofun
    rw [List.append_nil] at hread
    rw [hb] at hread ⊢
    rw [readInteger]
    · exact hread
    · intro u hu
      exact hne (List.cons.inj hu).1

theorem readNumber_formatInt (n : Int) : readNumber (formatInt n) = some (formatInt n, []) := by
  have hint := readInteger_formatNat n.natAbs
  by_cases hn : n < 0
  · simp only [formatInt, if_pos hn, readNumber, readSign, hint, Option.bind_eq_bind,
      Option.bind_some, readFraction, readExponent, Option.pure_def, List.append_nil]
    rfl
  · obtain ⟨b, hhead, hlo, -⟩ := formatNat_head n.natAbs
    obtain ⟨c, t, hc⟩ := List.exists_cons_of_ne_nil (formatNat_ne_nil n.natAbs)
    have hsign : readSign (formatNat n.natAbs) = ([], formatNat n.natAbs) := by
      rw [hc, readSign]
      intro u hu
      rw [hc, List.head?_cons] at hhead
      obtain rfl := Option.some.inj hhead
      rw [(List.cons.inj hu).1] at hlo
      revert hlo
      decide
    simp only [formatInt, if_neg hn, readNumber, hsign, hint, Option.bind_eq_bind,
      Option.bind_some, readFraction, readExponent, Option.pure_def, List.append_nil,
      List.nil_append]

def integer (n : Int) : Value := .number ⟨formatInt n, readNumber_formatInt n⟩

def text (t : Text) : Value := .string t.bytes

/-- An optional field: null when it is missing. -/
def nullable {α : Type} (document : α → Value) : Option α → Value
  | none => .null
  | some a => document a

def list {α : Type} (document : α → Value) (items : List α) : Value :=
  .array (items.map document)

/-- An object with its fields in order. -/
def record (fields : List (String × Value)) : Value :=
  .object (fields.map fun field => (lit field.1, field.2))

theorem parseInt_formatInt_large {n : Int} {k : Nat} (h : n.natAbs ≤ k) :
    parseInt (formatInt n) 10 (k+1) = some n := by
  have hlt : k < 2^k := Nat.lt_two_pow_self
  refine parseInt_formatInt (by omega) ?_ ?_
  · rw [Nat.add_sub_cancel]
    omega
  · rw [Nat.add_sub_cancel]
    omega

theorem formatInt_injective {n m : Int} (h : formatInt n = formatInt m) : n = m := by
  have hn := parseInt_formatInt_large (Nat.le_max_left n.natAbs m.natAbs)
  have hm := parseInt_formatInt_large (Nat.le_max_right n.natAbs m.natAbs)
  rw [h, hm] at hn
  exact (Option.some.inj hn).symm

@[simp] theorem integer_inj {n m : Int} : integer n = integer m ↔ n = m := by
  constructor
  · intro h
    exact formatInt_injective (Number.mk.inj (Value.number.inj h))
  · intro h
    rw [h]

theorem bytes_injective {s t : Text} (h : s.bytes = t.bytes) : s = t :=
  Text.ext (encode_injective h)

@[simp] theorem text_inj {s t : Text} : text s = text t ↔ s = t :=
  ⟨fun h => bytes_injective (Value.string.inj h), fun h => by rw [h]⟩

/-- A document that is never null is told from a missing one. -/
theorem nullable_injective {α : Type} {document : α → Value} (hd : Function.Injective document)
    (hn : ∀ a, document a ≠ .null) : Function.Injective (nullable document) := by
  intro x y h
  cases x with
  | none =>
    cases y with
    | none => rfl
    | some b => exact absurd h.symm (hn b)
  | some a =>
    cases y with
    | none => exact absurd h (hn a)
    | some b => exact congrArg some (hd h)

@[simp] theorem nullable_text_inj {x y : Option Text} : nullable text x = nullable text y ↔ x = y :=
  (nullable_injective (fun _ _ => text_inj.mp) nofun).eq_iff

@[simp] theorem nullable_integer_inj {x y : Option Int} :
    nullable integer x = nullable integer y ↔ x = y :=
  (nullable_injective (fun _ _ => integer_inj.mp) nofun).eq_iff

@[simp] theorem nullable_bool_inj {x y : Option Bool} :
    nullable .bool x = nullable .bool y ↔ x = y :=
  (nullable_injective (fun _ _ => Value.bool.inj) nofun).eq_iff

theorem list_injective {α : Type} {document : α → Value} (hd : Function.Injective document) :
    Function.Injective (list document) := fun _ _ h =>
  List.map_injective_iff.mpr hd (Value.array.inj h)

/-! Nesting -/

/-- Arrays and objects are nested `n` deep at most. -/
def Value.Nests (n : Nat) (v : Value) : Prop := v.depth ≤ n

@[simp] theorem nests_null (n : Nat) : Value.null.Nests n := Nat.zero_le n

@[simp] theorem nests_bool (b : Bool) (n : Nat) : (Value.bool b).Nests n := Nat.zero_le n

@[simp] theorem nests_string (s : Bytes) (n : Nat) : (Value.string s).Nests n := Nat.zero_le n

@[simp] theorem nests_integer (i : Int) (n : Nat) : (integer i).Nests n := Nat.zero_le n

@[simp] theorem nests_text (t : Text) (n : Nat) : (text t).Nests n := Nat.zero_le n

theorem depthItems_le {items : List Value} {n : Nat} (h : ∀ v ∈ items, v.Nests n) :
    depthItems items ≤ n := by
  induction items with
  | nil => exact Nat.zero_le n
  | cons v items ih =>
    rw [depthItems]
    exact Nat.max_le.mpr ⟨h v (by simp), ih fun w hw => h w (by simp [hw])⟩

theorem depthMembers_le {members : List (Bytes × Value)} {n : Nat}
    (h : ∀ member ∈ members, member.2.Nests n) : depthMembers members ≤ n := by
  induction members with
  | nil => exact Nat.zero_le n
  | cons member members ih =>
    obtain ⟨key, v⟩ := member
    rw [depthMembers]
    exact Nat.max_le.mpr ⟨h (key, v) (by simp), ih fun w hw => h w (by simp [hw])⟩

@[simp] theorem nests_nullable {α : Type} {document : α → Value} {n : Nat}
    (h : ∀ a, (document a).Nests n) (x : Option α) : (nullable document x).Nests n := by
  cases x with
  | none => exact nests_null n
  | some a => exact h a

@[simp] theorem nests_list {α : Type} {document : α → Value} {n : Nat}
    (h : ∀ a, (document a).Nests n) (items : List α) : (list document items).Nests (n+1) := by
  rw [Value.Nests, list, Value.depth]
  refine Nat.succ_le_succ (depthItems_le fun v hv => ?_)
  obtain ⟨a, -, rfl⟩ := List.mem_map.mp hv
  exact h a

@[simp] theorem nests_record {fields : List (String × Value)} {n : Nat}
    (h : ∀ field ∈ fields, field.2.Nests n) : (record fields).Nests (n+1) := by
  rw [Value.Nests, record, Value.depth]
  refine Nat.succ_le_succ (depthMembers_le fun v hv => ?_)
  obtain ⟨field, hf, rfl⟩ := List.mem_map.mp hv
  exact h field hf

/-! Documents without ill-formed strings -/

@[simp] theorem toValid_encode (cs : List Char) : toValid (encode cs) = encode cs := by
  rw [toValid, runes_encode, List.map_map]
  exact congrArg encode (List.map_id cs)

theorem toValid_of_valid {s : Bytes} (h : validString s = true) : toValid s = s := by
  obtain ⟨cs, rfl⟩ := validString_iff.mp h
  exact toValid_encode cs

/-- Every string is well-formed: nothing in it is replaced. -/
def Value.WellFormed (v : Value) : Prop := v.valid = v

@[simp] theorem wellFormed_null : Value.null.WellFormed := rfl

@[simp] theorem wellFormed_bool (b : Bool) : (Value.bool b).WellFormed := rfl

@[simp] theorem wellFormed_integer (n : Int) : (integer n).WellFormed := rfl

theorem wellFormed_string {s : Bytes} (h : validString s = true) : (Value.string s).WellFormed :=
  congrArg Value.string (toValid_of_valid h)

@[simp] theorem wellFormed_text (t : Text) : (text t).WellFormed :=
  wellFormed_string (validString_encode t.chars)

theorem wellFormed_nullable {α : Type} {document : α → Value} {x : Option α}
    (h : ∀ a ∈ x, (document a).WellFormed) : (nullable document x).WellFormed := by
  cases x with
  | none => exact wellFormed_null
  | some a => exact h a rfl

theorem wellFormed_list {α : Type} {document : α → Value} {items : List α}
    (h : ∀ a ∈ items, (document a).WellFormed) : (list document items).WellFormed := by
  rw [Value.WellFormed, list, Value.valid, validItems_eq, List.map_map]
  exact congrArg Value.array (List.map_congr_left h)

theorem wellFormed_record {fields : List (String × Value)}
    (h : ∀ field ∈ fields, field.2.WellFormed) : (record fields).WellFormed := by
  rw [Value.WellFormed, record, Value.valid, validMembers_eq, List.map_map]
  refine congrArg Value.object (List.map_congr_left fun field hf => ?_)
  have hv : field.2.valid = field.2 := h field hf
  simp only [Function.comp_apply, validMember, lit, toValid_encode, hv]

@[simp] theorem wellFormed_nullable_text (x : Option Text) : (nullable text x).WellFormed :=
  wellFormed_nullable fun t _ => wellFormed_text t

@[simp] theorem wellFormed_nullable_integer (x : Option Int) : (nullable integer x).WellFormed :=
  wellFormed_nullable fun n _ => wellFormed_integer n

@[simp] theorem wellFormed_nullable_bool (x : Option Bool) : (nullable .bool x).WellFormed :=
  wellFormed_nullable fun b _ => wellFormed_bool b

@[simp] theorem wellFormed_list_text (ts : List Text) : (list text ts).WellFormed :=
  wellFormed_list fun t _ => wellFormed_text t

@[simp] theorem wellFormed_list_integer (ns : List Int) : (list integer ns).WellFormed :=
  wellFormed_list fun n _ => wellFormed_integer n

end Json
