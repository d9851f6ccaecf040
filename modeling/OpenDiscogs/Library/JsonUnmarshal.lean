import OpenDiscogs.Library.JsonDocument

/-! Decoding JSON values into typed targets: null leaves a plain target as it is, objects fill the
fields of their names, and members without a field are passed over. -/
namespace Json
open Utf8 Strconv SqlText

/-- A target takes a value into what it holds, and refuses values of another type. -/
abbrev Decoder (α : Type) := Value → α → Option α

namespace Decoder
variable {α : Type}

/-- Integers of 64 bits, as far as their literals are plain ones. -/
def int64 : Decoder Int
  | .null, previous => some previous
  | .number n, _ => parseInt n.literal 10 64
  | _, _ => none

def string : Decoder Bytes
  | .null, previous => some previous
  | .string s, _ => some s
  | _, _ => none

/-- Strings without U+0000. -/
def text : Decoder Text
  | .null, previous => some previous
  | .string s, _ => ofBytes s
  | _, _ => none

def emptyText : Text := ⟨[], List.not_mem_nil⟩

/-- A pointer is cleared by null; otherwise its target takes the value. -/
def pointer (zero : α) (target : Decoder α) : Decoder (Option α)
  | .null, _ => some none
  | v, previous => (target v (previous.getD zero)).map some

/-- An array replaces what the slice holds, and null clears it. -/
def slice (zero : α) (element : Decoder α) : Decoder (List α)
  | .null, _ => some []
  | .array items, _ => items.mapM (element · zero)
  | _, _ => none

/-- A field of a structure, under the name of its tag. -/
structure Field (α : Type) where
  name : String
  decode : Decoder α

/-- Names are compared without case; two letters have a third form. -/
def foldRune : Rune → Rune
  | .char c =>
    if 'a' ≤ c ∧ c ≤ 'z' then .char (Char.ofNat (c.toNat-0x20))
    else if c.toNat = 0x17F then .char 'S'
    else if c.toNat = 0x212A then .char 'K'
    else .char c
  | .bad b => .bad b

def foldName (key : Bytes) : List Rune := (runes key).map foldRune

/-- The field of an object's key: of that very name, or else of one that differs in case only. -/
def findField (fields : List (Field α)) (key : Bytes) : Option (Field α) :=
  match fields.find? fun f => lit f.name = key with
  | some f => some f
  | none => fields.find? fun f => foldName (lit f.name) = foldName key

def assign (fields : List (Field α)) (target : α) (member : Bytes × Value) : Option α :=
  match findField fields member.1 with
  | some f => f.decode member.2 target
  | none => some target

/-- The members of an object in turn, so that a later one overwrites an earlier one. -/
def struct (fields : List (Field α)) : Decoder α
  | .null, previous => some previous
  | .object members, previous => members.foldlM (assign fields) previous
  | _, _ => none

/-- A field of the target, taken out, decoded and put back. -/
def field {β : Type} (name : String) (get : α → β) (set : β → α → α) (decode : Decoder β) :
    Field α where
  name := name
  decode v target := (decode v (get target)).map fun b => set b target

/-- A document that is decoded to what it was made of, whatever the target held. -/
def Reads (decode : Decoder α) (document : α → Value) (a : α) : Prop :=
  ∀ previous, decode (document a) previous = some a

theorem int64_reads {n : Int} (h : -2^63 ≤ n ∧ n < 2^63) : Reads int64 integer n := by
  intro previous
  exact parseInt_formatInt (by decide) (by simpa using h.1) (by simpa using h.2)

theorem text_reads (t : Text) : Reads text Json.text t := fun _ => ofBytes_bytes t

theorem pointer_reads {zero : α} {target : Decoder α} {document : α → Value} {x : Option α}
    (hn : ∀ a, document a ≠ .null) (h : ∀ a ∈ x, Reads target document a) :
    Reads (pointer zero target) (nullable document) x := by
  intro previous
  cases x with
  | none => rfl
  | some a =>
    have ha := h a rfl (previous.getD zero)
    have hne := hn a
    rw [nullable]
    cases hd : document a with
    | null => exact absurd hd hne
    | _ =>
      rw [hd] at ha
      simp only [pointer, ha, Option.map_some]

theorem slice_reads {zero : α} {element : Decoder α} {document : α → Value} {items : List α}
    (h : ∀ a ∈ items, Reads element document a) : Reads (slice zero element) (list document) items := by
  intro previous
  rw [list, slice]
  induction items with
  | nil => rfl
  | cons a items ih =>
    rw [List.map_cons, List.mapM_cons, h a (by simp) zero, ih fun b hb => h b (by simp [hb])]
    rfl

/-- Names that stand in the program are compared as they stand there. -/
theorem lit_inj {a b : String} : lit a = lit b ↔ a = b :=
  ⟨fun h => String.toList_inj.mp (encode_injective h), congrArg lit⟩

theorem text_pointer_reads (zero : Text) (t : Option Text) :
    Reads (pointer zero text) (nullable Json.text) t :=
  pointer_reads nofun fun t _ => text_reads t

theorem text_slice_reads (zero : Text) (ts : List Text) :
    Reads (slice zero text) (list Json.text) ts :=
  slice_reads fun t _ => text_reads t

end Decoder

/-- What is wrong with a text, or with the types of what it holds. -/
inductive UnmarshalError where
  | syntaxError | unmarshalTypeError

/-- `json.Unmarshal` into a target. -/
def unmarshal {α : Type} (decode : Decoder α) (data : Bytes) (target : α) :
    Except UnmarshalError α :=
  match parse data with
  | none => .error .syntaxError
  | some v => match decode v target with
    | none => .error .unmarshalTypeError
    | some a => .ok a

/-- A target gets back what a document was written for, in any layout. -/
theorem unmarshal_written {α : Type} {decode : Decoder α} {document : α → Value} {a : α}
    (style : Style) (h : Decoder.Reads decode document a) (hn : (document a).Nests maximumDepth)
    (hw : (document a).WellFormed) (target : α) :
    unmarshal decode (style.write (document a)) target = .ok a := by
  have hparse := @parse_written style _ hn [] (by simp)
  have hvalid : (document a).valid = document a := hw
  rw [List.append_nil, hvalid] at hparse
  simp only [unmarshal, hparse, h target]

end Json
