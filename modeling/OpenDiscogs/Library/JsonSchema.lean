import OpenDiscogs.Library.JsonUnmarshal

/-! Schemas: what is asserted of a JSON value, and what the documents of records meet. -/
namespace Json
open Utf8 Strconv SqlText

/-- The assertions of one schema object, all of which a value meets or not. -/
abbrev Schema := Value → Bool

namespace Schema

def null : Schema
  | .null => true
  | _ => false

def boolean : Schema
  | .bool _ => true
  | _ => false

/-- Numbers without fraction and exponent. -/
def integer : Schema
  | .number n => n.literal.all fun b => b ≠ 0x2E ∧ b ≠ 0x65 ∧ b ≠ 0x45
  | _ => false

def string : Schema
  | .string _ => true
  | _ => false

/-- `"type": ["string", "null"]` and the like. -/
def anyType (types : List Schema) : Schema := fun v => types.any (· v)

/-- `"type": "object"` with `required` and `properties`; members of other names are free. -/
def object (required : List String) (properties : List (String × Schema)) : Schema
  | .object members =>
    (required.all fun name => members.any (·.1 = lit name)) &&
      members.all fun member => properties.all fun property =>
        member.1 ≠ lit property.1 || property.2 member.2
  | _ => false

/-- `"type": "array"` with `items`. -/
def array (items : Schema) : Schema
  | .array values => values.all items
  | _ => false

/-- `enum` of strings -/
def enum (texts : List String) : Schema
  | .string s => texts.any fun text => s = lit text
  | _ => false

/-- `minItems` and `maxItems`, which pass over what is no array. -/
def itemCount (minimum maximum : Nat) : Schema
  | .array values => minimum ≤ values.length ∧ values.length ≤ maximum
  | _ => true

/-- `minimum` and `maximum` of integers of 64 bits; they pass over what is no number. -/
def range (minimum maximum : Int) : Schema
  | .number n => (parseInt n.literal 10 64).any fun k => minimum ≤ k ∧ k ≤ maximum
  | _ => true

def allOf (schemas : List Schema) : Schema := fun v => schemas.all (· v)

/-- Exactly one of the schemas is met. -/
def oneOf (schemas : List Schema) : Schema := fun v => schemas.countP (· v) = 1

end Schema

/-! Documents with U+FFFD for what is ill-formed in their strings -/

@[simp] theorem valid_null : Value.null.valid = .null := rfl

@[simp] theorem valid_bool (b : Bool) : (Value.bool b).valid = .bool b := rfl

@[simp] theorem valid_integer (n : Int) : (integer n).valid = integer n := rfl

@[simp] theorem valid_string (s : Bytes) : (Value.string s).valid = .string (toValid s) := rfl

@[simp] theorem valid_text (t : Text) : (text t).valid = text t := wellFormed_text t

@[simp] theorem valid_nullable {α : Type} (document : α → Value) (x : Option α) :
    (nullable document x).valid = nullable (fun a => (document a).valid) x := by
  cases x <;> rfl

@[simp] theorem valid_list {α : Type} (document : α → Value) (items : List α) :
    (list document items).valid = list (fun a => (document a).valid) items := by
  rw [list, Value.valid, validItems_eq, List.map_map]
  rfl

@[simp] theorem valid_record (fields : List (String × Value)) :
    (record fields).valid = record (fields.map fun field => (field.1, field.2.valid)) := by
  rw [record, Value.valid, validMembers_eq, List.map_map, record, List.map_map]
  refine congrArg Value.object (List.map_congr_left fun field _ => ?_)
  simp only [Function.comp_apply, validMember, lit, toValid_encode]

/-! What documents meet -/

namespace Schema
variable {α : Type} {schema : Schema}

@[simp] theorem null_null : null .null = true := rfl

@[simp] theorem boolean_bool (b : Bool) : boolean (.bool b) = true := rfl

@[simp] theorem string_string (s : Bytes) : string (.string s) = true := rfl

@[simp] theorem string_text (t : Text) : string (text t) = true := rfl

@[simp] theorem integer_integer (n : Int) : integer (Json.integer n) = true := by
  have hdigits : ∀ b ∈ formatNat n.natAbs, b ≠ 0x2E ∧ b ≠ 0x65 ∧ b ≠ 0x45 := by
    intro b hb
    obtain ⟨hlow, hhigh⟩ := formatNat_digits _ b hb
    refine ⟨?_, ?_, ?_⟩ <;> (intro h; subst h; revert hlow hhigh; decide)
  simp only [integer, Json.integer, List.all_eq_true]
  intro b hb
  refine decide_eq_true ?_
  unfold formatInt at hb
  split at hb
  · obtain rfl | hb := List.mem_cons.mp hb
    · decide
    · exact hdigits b hb
  · exact hdigits b hb

theorem range_integer {n minimum maximum : Int} (h : minimum ≤ n ∧ n ≤ maximum)
    (hn : -2^63 ≤ n ∧ n < 2^63) : range minimum maximum (Json.integer n) = true := by
  have hparse : parseInt (formatInt n) 10 64 = some n :=
    parseInt_formatInt (by omega) (by omega) (by omega)
  simp only [range, Json.integer, hparse, Option.any_some, h, and_self, decide_true]

theorem enum_text {t : Text} {texts : List String} (h : ∃ s ∈ texts, t.bytes = lit s) :
    enum texts (text t) = true := by
  obtain ⟨s, hs, ht⟩ := h
  exact List.any_eq_true.mpr ⟨s, hs, decide_eq_true ht⟩

/-- A missing field is null; another is as its document. -/
theorem anyType_nullable {document : α → Value} {x : Option α}
    (h : ∀ a, schema (document a) = true) : anyType [schema, null] (nullable document x) = true := by
  cases x with
  | none => simp [anyType, nullable]
  | some a => simp [anyType, nullable, h a]

theorem array_list {document : α → Value} {items : List α}
    (h : ∀ a ∈ items, schema (document a) = true) : array schema (list document items) = true := by
  simp only [array, list, List.all_map, List.all_eq_true]
  exact h

/-- An object meets its schema when the required fields are there, and every field meets what is
said of its name. -/
theorem object_record {required : List String} {properties : List (String × Schema)}
    {fields : List (String × Value)} (hrequired : ∀ name ∈ required, name ∈ fields.map (·.1))
    (hfields : ∀ field ∈ fields, ∀ property ∈ properties, field.1 = property.1 →
      property.2 field.2 = true) : object required properties (record fields) = true := by
  simp only [object, record, Bool.and_eq_true, List.all_eq_true, List.any_map, List.all_map,
    List.any_eq_true, Function.comp_apply, Bool.or_eq_true, decide_eq_true_eq]
  constructor
  · intro name hname
    obtain ⟨field, hfield, rfl⟩ := List.mem_map.mp (hrequired name hname)
    exact ⟨field, hfield, rfl⟩
  · intro field hfield property hproperty
    by_cases hname : field.1 = property.1
    · exact Or.inr (hfields field hfield property hproperty hname)
    · exact Or.inl fun h => hname (Decoder.lit_inj.mp h)

end Schema
end Json
