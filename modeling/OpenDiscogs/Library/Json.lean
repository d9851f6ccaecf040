import Mathlib.Algebra.BigOperators.Group.List.Basic
import OpenDiscogs.Library.JsonLexical

/-! JSON values: the texts they are written as, in any layout, and the reader that gets them back
from these. -/
namespace Json
open Utf8

inductive Value where
  | null
  | bool (b : Bool)
  | number (n : Number)
  | string (s : Bytes)
  | array (items : List Value)
  | object (members : List (Bytes × Value))

mutual
def Style.write (style : Style) : Value → Bytes
  | .null => lit "null"
  | .bool true => lit "true"
  | .bool false => lit "false"
  | .number n => n.literal
  | .string s => style.writeString s
  | .array [] => lit "[]"
  | .array (v::items) => 0x5B::style.write v ++ style.writeItems items
  | .object [] => lit "\x7b\x7d"
  | .object ((key, v)::members) =>
    0x7B::style.writeString key ++ 0x3A::style.blank ++ style.write v ++ style.writeMembers members

/-- The items after the first, and the end of the array. -/
def Style.writeItems (style : Style) : List Value → Bytes
  | [] => [0x5D]
  | v::items => 0x2C::style.blank ++ style.write v ++ style.writeItems items

def Style.writeMembers (style : Style) : List (Bytes × Value) → Bytes
  | [] => [0x7D]
  | (key, v)::members =>
    0x2C::style.blank ++ style.writeString key ++ 0x3A::style.blank ++ style.write v ++
      style.writeMembers members
end

/-- One or more elements with commas between them, up to the closing byte; each takes a byte. -/
def readElements {α : Type} (element : Bytes → Option (α × Bytes)) (close : UInt8) :
    Nat → Bytes → Option (List α × Bytes)
  | 0, _ => none
  | fuel+1, s => do
    let (x, s) ← element s
    match skipBlank s with
    | [] => none
    | b::s =>
      if b = 0x2C then do
        let (xs, s) ← readElements element close fuel s
        return (x::xs, s)
      else if b = close then return ([x], s)
      else none

/-- Any number of elements after the opening byte. -/
def readSequence {α : Type} (element : Bytes → Option (α × Bytes)) (close : UInt8) (s : Bytes) :
    Option (List α × Bytes) :=
  if (skipBlank s).head? = some close then some ([], (skipBlank s).tail)
  else readElements element close s.length s

def readMember (value : Bytes → Option (Value × Bytes)) (s : Bytes) :
    Option ((Bytes × Value) × Bytes) :=
  match skipBlank s with
  | 0x22::s => do
    let (key, s) ← readString s
    match skipBlank s with
    | 0x3A::s => do
      let (v, s) ← value s
      return ((key, v), s)
    | _ => none
  | _ => none

def stripWord (word : String) (s : Bytes) : Option Bytes :=
  if (lit word).isPrefixOf s then some (s.drop (lit word).length) else none

def readNumberValue (s : Bytes) : Option (Value × Bytes) :=
  match h : readNumber s with
  | some (literal, rest) => some (.number ⟨literal, readNumber_literal h⟩, rest)
  | none => none

/-- A value that is no array and no object. -/
def readScalar (s : Bytes) : Option (Value × Bytes) :=
  match s with
  | [] => none
  | b::rest =>
    if b = 0x22 then (readString rest).map fun (s, rest) => (.string s, rest)
    else if b = 0x6E then (stripWord "null" s).map fun rest => (.null, rest)
    else if b = 0x74 then (stripWord "true" s).map fun rest => (.bool true, rest)
    else if b = 0x66 then (stripWord "false" s).map fun rest => (.bool false, rest)
    else readNumberValue s

/-- A value with arrays and objects nested to a given depth at most. -/
def readValue : Nat → Bytes → Option (Value × Bytes)
  | 0, s => readScalar (skipBlank s)
  | depth+1, s =>
    match skipBlank s with
    | [] => none
    | b::rest =>
      if b = 0x5B then
        (readSequence (readValue depth) 0x5D rest).map fun (items, s) => (.array items, s)
      else if b = 0x7B then
        (readSequence (readMember (readValue depth)) 0x7D rest).map fun (members, s) =>
          (.object members, s)
      else readScalar (b::rest)

def maximumDepth : Nat := 10000

/-- The value of a whole text. -/
def parse (s : Bytes) : Option Value :=
  match readValue maximumDepth s with
  | some (v, rest) => if skipBlank rest = [] then some v else none
  | none => none

mutual
/-- How deep arrays and objects are nested. -/
def Value.depth : Value → Nat
  | .array items => depthItems items+1
  | .object members => depthMembers members+1
  | _ => 0

def depthItems : List Value → Nat
  | [] => 0
  | v::items => max v.depth (depthItems items)

def depthMembers : List (Bytes × Value) → Nat
  | [] => 0
  | (_, v)::members => max v.depth (depthMembers members)
end

mutual
/-- A value with its ill-formed strings made well-formed. -/
def Value.valid : Value → Value
  | .string s => .string (toValid s)
  | .array items => .array (validItems items)
  | .object members => .object (validMembers members)
  | v => v

def validItems : List Value → List Value
  | [] => []
  | v::items => v.valid::validItems items

def validMembers : List (Bytes × Value) → List (Bytes × Value)
  | [] => []
  | (key, v)::members => (toValid key, v.valid)::validMembers members
end

/-! Reading what was written -/

theorem skipBlank_append {pre : Bytes} (h : ∀ b ∈ pre, isBlank b = true) (s : Bytes) :
    skipBlank (pre ++ s) = skipBlank s := List.dropWhile_append_of_pos h

theorem skipBlank_cons {b : UInt8} (h : isBlank b = false) (s : Bytes) : skipBlank (b::s) = b::s := by
  simp [skipBlank, h]

theorem stops_cons {b : UInt8} (h : (isDigit b = false ∧ b ≠ 0x2E ∧ b ≠ 0x65 ∧ b ≠ 0x45))
    (s : Bytes) : Stops (b::s) := by
  intro c hc
  cases hc
  exact h

/-- What is read after any blanks is what an element was written for. -/
def ReadsBack {α : Type} (element : Bytes → Option (α × Bytes)) (w : α → Bytes) (x y : α) : Prop :=
  ∀ pre rest, (∀ b ∈ pre, isBlank b = true) → Stops rest →
    element (pre ++ (w x ++ rest)) = some (y, rest)

/-- A closing byte is no comma, and ends what stands before it. -/
def Closing (b : UInt8) : Prop :=
  b ≠ 0x2C ∧ isBlank b = false ∧ (isDigit b = false ∧ b ≠ 0x2E ∧ b ≠ 0x65 ∧ b ≠ 0x45)

section Elements
variable {α : Type} {element : Bytes → Option (α × Bytes)} {w : α → Bytes} {g : α → α}
  {close : UInt8} {blank : Bytes}

/-- The elements after the first, each after a comma and blanks. -/
def furtherElements (w : α → Bytes) (blank : Bytes) (xs : List α) : Bytes :=
  xs.flatMap fun x => 0x2C::blank ++ w x

theorem furtherElements_stops (hc : Closing close) (xs : List α) (s : Bytes) :
    Stops (furtherElements w blank xs ++ close::s) ∧
      skipBlank (furtherElements w blank xs ++ close::s) =
        furtherElements w blank xs ++ close::s := by
  cases xs with
  | nil => exact ⟨stops_cons hc.2.2 s, skipBlank_cons hc.2.1 s⟩
  | cons x xs => exact ⟨stops_cons (by decide) _, skipBlank_cons (by decide) _⟩

theorem readElements_written (hc : Closing close) (hb : ∀ b ∈ blank, isBlank b = true)
    (xs : List α) (s : Bytes) : ∀ (x : α) (pre : Bytes) (fuel : Nat),
      (∀ y ∈ x::xs, ReadsBack element w y (g y)) → (∀ b ∈ pre, isBlank b = true) →
      xs.length < fuel →
      readElements element close fuel
        (pre ++ (w x ++ (furtherElements w blank xs ++ close::s))) = some ((x::xs).map g, s) := by
  induction xs with
  | nil =>
    intro x pre fuel hread hpre hfuel
    obtain ⟨n, rfl⟩ : ∃ n, fuel = n+1 := ⟨fuel-1, by omega⟩
    have hx := hread x (by simp) pre (close::s) hpre (stops_cons hc.2.2 s)
    simp only [readElements, furtherElements, List.flatMap_nil, List.nil_append, hx,
      Option.bind_eq_bind, Option.bind_some, skipBlank_cons hc.2.1, if_neg hc.1, if_true]
    rfl
  | cons y xs ih =>
    intro x pre fuel hread hpre hfuel
    obtain ⟨n, rfl⟩ : ∃ n, fuel = n+1 := ⟨fuel-1, by simp at hfuel; omega⟩
    obtain ⟨hstop, hskip⟩ := @furtherElements_stops _ w close blank hc (y::xs) s
    have hx := hread x (by simp) pre _ hpre hstop
    have hrest := ih y blank n (fun z hz => hread z (List.mem_cons_of_mem x hz)) hb
      (by simpa using hfuel)
    have hfurther : furtherElements w blank (y::xs) ++ close::s =
        0x2C::(blank ++ (w y ++ (furtherElements w blank xs ++ close::s))) := by
      simp [furtherElements, List.append_assoc]
    rw [hfurther] at hskip hx
    rw [hfurther]
    simp only [readElements, hx, hskip, Option.bind_eq_bind, Option.bind_some, if_true, hrest]
    rfl

/-- What starts an element: no blank and no closing byte. -/
def Opens (close : UInt8) (s : Bytes) : Prop := ∃ b t, s = b::t ∧ isBlank b = false ∧ b ≠ close

theorem readSequence_written (hc : Closing close) (hb : ∀ b ∈ blank, isBlank b = true) (x : α)
    (xs : List α) (hread : ∀ y ∈ x::xs, ReadsBack element w y (g y)) (ho : Opens close (w x))
    (s : Bytes) : readSequence element close
      (w x ++ (furtherElements w blank xs ++ close::s)) = some ((x::xs).map g, s) := by
  obtain ⟨b, t, hw, hblank, hclose⟩ := ho
  have hlength : xs.length ≤ (furtherElements w blank xs).length := by
    rw [furtherElements, List.length_flatMap]
    have hone : ∀ n ∈ xs.map fun x => (0x2C::blank ++ w x).length, 1 ≤ n := by
      intro n hn
      obtain ⟨y, -, rfl⟩ := List.mem_map.mp hn
      simp
    exact (List.length_map _).symm.trans_le (List.length_le_sum_of_one_le _ hone)
  have helements := readElements_written hc hb xs s x []
    (w x ++ (furtherElements w blank xs ++ close::s)).length hread (by simp) (by simp; omega)
  rw [List.nil_append] at helements
  rw [readSequence, if_neg, helements]
  rw [hw, List.cons_append, skipBlank_cons hblank]
  simpa using hclose

end Elements

theorem writeItems_eq (style : Style) (items : List Value) :
    style.writeItems items = furtherElements style.write style.blank items ++ [0x5D] := by
  induction items with
  | nil => rw [Style.writeItems]; rfl
  | cons v items ih =>
    rw [Style.writeItems, ih]
    simp [furtherElements, List.append_assoc]

def Style.writeMember (style : Style) (member : Bytes × Value) : Bytes :=
  style.writeString member.1 ++ 0x3A::style.blank ++ style.write member.2

theorem writeMembers_eq (style : Style) (members : List (Bytes × Value)) :
    style.writeMembers members =
      furtherElements style.writeMember style.blank members ++ [0x7D] := by
  induction members with
  | nil => rw [Style.writeMembers]; rfl
  | cons member members ih =>
    obtain ⟨key, v⟩ := member
    rw [Style.writeMembers, ih]
    simp [furtherElements, Style.writeMember, List.append_assoc]

theorem validItems_eq (items : List Value) : validItems items = items.map Value.valid := by
  induction items with
  | nil => rw [validItems]; rfl
  | cons v items ih => rw [validItems, ih, List.map_cons]

def validMember (member : Bytes × Value) : Bytes × Value := (toValid member.1, member.2.valid)

theorem validMembers_eq (members : List (Bytes × Value)) :
    validMembers members = members.map validMember := by
  induction members with
  | nil => rw [validMembers]; rfl
  | cons member members ih =>
    obtain ⟨key, v⟩ := member
    rw [validMembers, ih, List.map_cons]
    rfl

theorem depth_item {items : List Value} {v : Value} (h : v ∈ items) :
    v.depth ≤ depthItems items := by
  induction items with
  | nil => cases h
  | cons w items ih =>
    rw [depthItems]
    obtain rfl | h := List.mem_cons.mp h
    · exact Nat.le_max_left _ _
    · exact Nat.le_trans (ih h) (Nat.le_max_right _ _)

theorem depth_member {members : List (Bytes × Value)} {member : Bytes × Value}
    (h : member ∈ members) : member.2.depth ≤ depthMembers members := by
  induction members with
  | nil => cases h
  | cons other members ih =>
    obtain ⟨key, v⟩ := other
    rw [depthMembers]
    obtain rfl | h := List.mem_cons.mp h
    · exact Nat.le_max_left _ _
    · exact Nat.le_trans (ih h) (Nat.le_max_right _ _)

theorem write_array (style : Style) (v : Value) (items : List Value) :
    style.write (.array (v::items)) =
      0x5B::(style.write v ++ (furtherElements style.write style.blank items ++ [0x5D])) := by
  rw [Style.write, writeItems_eq]
  simp

theorem write_object (style : Style) (member : Bytes × Value) (members : List (Bytes × Value)) :
    style.write (.object (member::members)) = 0x7B::(style.writeMember member ++
      (furtherElements style.writeMember style.blank members ++ [0x7D])) := by
  obtain ⟨key, v⟩ := member
  rw [Style.write, writeMembers_eq]
  simp [Style.writeMember, List.append_assoc]

theorem number_start (n : Number) : ∃ b t, n.literal = b::t ∧ numberStart b = true := by
  obtain ⟨b, t, hn, hb⟩ := (readNumber_append n.wellFormed stops_nil).2
  exact ⟨b, t, hn, by simpa [numberStart] using hb⟩

theorem numberStart_ne {b c : UInt8} (hb : numberStart b = true) (hc : numberStart c = false) :
    b ≠ c := by
  intro h
  rw [h, hc] at hb
  cases hb

theorem numberStart_blank (b : UInt8) : numberStart b = true → isBlank b = false := by
  revert b
  exact forall_byte (by decide)

theorem blank_stops (b : UInt8) : isBlank b = true →
    isDigit b = false ∧ b ≠ 0x2E ∧ b ≠ 0x65 ∧ b ≠ 0x45 := by
  revert b
  exact forall_byte (by decide)

/-- A value is written without a blank in front, and not with a closing byte. -/
theorem write_opens (style : Style) (v : Value) :
    Opens 0x5D (style.write v) ∧ Opens 0x7D (style.write v) := by
  have hword : ∀ {s : Bytes} (b : UInt8) (t : Bytes), s = b::t → isBlank b = false →
      b ≠ 0x5D → b ≠ 0x7D → Opens 0x5D s ∧ Opens 0x7D s := by
    intro s b t hs hb h₁ h₂
    exact ⟨⟨b, t, hs, hb, h₁⟩, ⟨b, t, hs, hb, h₂⟩⟩
  cases v with
  | null => exact hword 0x6E _ (by rw [Style.write]; rfl) (by decide) (by decide) (by decide)
  | bool b =>
    cases b with
    | true => exact hword 0x74 _ (by rw [Style.write]; rfl) (by decide) (by decide) (by decide)
    | false => exact hword 0x66 _ (by rw [Style.write]; rfl) (by decide) (by decide) (by decide)
  | number n =>
    obtain ⟨b, t, hn, hb⟩ := number_start n
    exact hword b t (by rw [Style.write, hn]) (numberStart_blank b hb)
      (numberStart_ne hb (by decide)) (numberStart_ne hb (by decide))
  | string s =>
    exact hword 0x22 _ (by rw [Style.write]; rfl) (by decide) (by decide) (by decide)
  | array items =>
    cases items with
    | nil => exact hword 0x5B _ (by rw [Style.write]; rfl) (by decide) (by decide) (by decide)
    | cons v items =>
      exact hword 0x5B _ (write_array style v items) (by decide) (by decide) (by decide)
  | object members =>
    cases members with
    | nil => exact hword 0x7B _ (by rw [Style.write]; rfl) (by decide) (by decide) (by decide)
    | cons member members =>
      exact hword 0x7B _ (write_object style member members) (by decide) (by decide) (by decide)

theorem readNumberValue_literal (n : Number) {t : Bytes} (ht : Stops t) :
    readNumberValue (n.literal ++ t) = some (.number n, t) := by
  have hread := (readNumber_append n.wellFormed ht).1
  unfold readNumberValue
  split
  · next literal rest he =>
    rw [hread] at he
    cases he
    rfl
  · next he =>
    rw [hread] at he
    cases he

/-- A value that nests nothing is read by what it starts with. -/
theorem readScalar_written (style : Style) {v : Value} (hv : v.depth = 0) {rest : Bytes}
    (ht : Stops rest) : readScalar (style.write v ++ rest) = some (v.valid, rest) := by
  cases v with
  | null => rw [Style.write]; rfl
  | bool b =>
    cases b with
    | true => rw [Style.write]; rfl
    | false => rw [Style.write]; rfl
  | number n =>
    obtain ⟨b, t, hn, hb⟩ := number_start n
    have hread := readNumberValue_literal n ht
    have hquote : b ≠ 0x22 := numberStart_ne hb (by decide)
    have hletter : b ≠ 0x6E ∧ b ≠ 0x74 ∧ b ≠ 0x66 :=
      ⟨numberStart_ne hb (by decide), numberStart_ne hb (by decide), numberStart_ne hb (by decide)⟩
    rw [hn, List.cons_append] at hread
    rw [Style.write, hn, List.cons_append, Value.valid]
    · simp only [readScalar, if_neg hquote, if_neg hletter.1, if_neg hletter.2.1,
        if_neg hletter.2.2, hread]
    all_goals exact nofun
  | string s =>
    rw [Style.write, Style.writeString, Value.valid]
    simp only [List.cons_append, List.append_assoc, List.nil_append, readScalar, if_true,
      readString_written, Option.map_some]
  | array items => cases hv
  | object members => cases hv

theorem style_colon (style : Style) (s t : Bytes) :
    skipBlank (0x3A::style.blank ++ s ++ t) = 0x3A::(style.blank ++ (s ++ t)) := by
  rw [List.cons_append, List.cons_append, skipBlank_cons (by decide), List.append_assoc]

theorem readMember_written (style : Style) {value : Bytes → Option (Value × Bytes)}
    {member : Bytes × Value} (hv : ReadsBack value style.write member.2 member.2.valid) :
    ReadsBack (readMember value) style.writeMember member (validMember member) := by
  intro pre rest hpre hstop
  have hvalue := hv style.blank rest style.blank_isBlank hstop
  have hkey := readString_written style member.1
    (0x3A::style.blank ++ style.write member.2 ++ rest)
  have hskip : skipBlank (pre ++ (style.writeMember member ++ rest)) =
      0x22::((runes member.1).flatMap style.writeRune ++
        0x22::(0x3A::style.blank ++ style.write member.2 ++ rest)) := by
    rw [skipBlank_append hpre]
    simp only [Style.writeMember, Style.writeString, List.cons_append, List.append_assoc,
      List.nil_append, skipBlank_cons (show isBlank 0x22 = false by decide)]
  simp only [readMember, hskip, hkey, Option.bind_eq_bind, Option.bind_some, style_colon, hvalue]
  rfl

theorem closing_bracket : Closing 0x5D := by unfold Closing; decide

theorem closing_brace : Closing 0x7D := by unfold Closing; decide

/-- Whatever the layout, a value is read back from what was written for it, with its strings made
well-formed, as long as it is nested no deeper than the reader goes. By induction on the depth:
each element of an array or an object is one level lower. -/
theorem readValue_written (style : Style) (depth : Nat) :
    ∀ v : Value, v.depth ≤ depth → ReadsBack (readValue depth) style.write v v.valid := by
  induction depth with
  | zero =>
    intro v hv pre rest hpre hstop
    obtain ⟨⟨b, t, hw, hb, -⟩, -⟩ := write_opens style v
    rw [readValue, skipBlank_append hpre, hw, List.cons_append, skipBlank_cons hb,
      ← List.cons_append, ← hw]
    exact readScalar_written style (Nat.le_zero.mp hv) hstop
  | succ depth ih =>
    intro v hv pre rest hpre hstop
    obtain ⟨⟨b, t, hw, hb, -⟩, -⟩ := write_opens style v
    rw [readValue, skipBlank_append hpre]
    cases hd : v.depth with
    | zero =>
      have hscalar := readScalar_written style hd hstop
      have hnest : b ≠ 0x5B ∧ b ≠ 0x7B := by
        cases v with
        | null => rw [Style.write] at hw; cases hw; decide
        | bool b =>
          cases b with
          | true => rw [Style.write] at hw; cases hw; decide
          | false => rw [Style.write] at hw; cases hw; decide
        | number n =>
          obtain ⟨c, u, hn, hc⟩ := number_start n
          rw [Style.write, hn] at hw
          cases hw
          exact ⟨numberStart_ne hc (by decide), numberStart_ne hc (by decide)⟩
        | string s => rw [Style.write] at hw; cases hw; decide
        | array items => cases hd
        | object members => cases hd
      rw [hw, List.cons_append] at hscalar
      rw [hw, List.cons_append, skipBlank_cons hb]
      simp only [if_neg hnest.1, if_neg hnest.2, hscalar]
    | succ n =>
      cases v with
      | array items =>
        cases items with
        | nil => rw [Style.write]; rfl
        | cons v items =>
          have hread : ∀ w ∈ v::items, ReadsBack (readValue depth) style.write w w.valid :=
            fun w hmem => ih w (by have := depth_item hmem; simp only [Value.depth] at hv; omega)
          have hseq := readSequence_written closing_bracket style.blank_isBlank v items hread
            (write_opens style v).1 rest
          rw [write_array, List.cons_append, skipBlank_cons (by decide)]
          simp only [List.append_assoc, List.singleton_append, if_true, hseq, Option.map_some,
            Value.valid, validItems_eq]
      | object members =>
        cases members with
        | nil => rw [Style.write]; rfl
        | cons member members =>
          have hread : ∀ other ∈ member::members,
              ReadsBack (readMember (readValue depth)) style.writeMember other
                (validMember other) :=
            fun other hmem => readMember_written style
              (ih other.2 (by have := depth_member hmem; simp only [Value.depth] at hv; omega))
          have hseq := readSequence_written closing_brace style.blank_isBlank member members hread
            ⟨0x22, _, rfl, by decide, by decide⟩ rest
          rw [write_object, List.cons_append, skipBlank_cons (by decide)]
          simp only [List.append_assoc, List.singleton_append, hseq, Option.map_some,
            Value.valid, validMembers_eq]
          rfl
      | _ => cases hd

/-- A text that holds one written value and blanks after it is parsed to the value. -/
theorem parse_written (style : Style) {v : Value} (hv : v.depth ≤ maximumDepth) {after : Bytes}
    (hafter : ∀ b ∈ after, isBlank b = true) : parse (style.write v ++ after) = some v.valid := by
  have hstop : Stops after := by
    intro b hb
    exact blank_stops b (hafter b (List.mem_of_mem_head? hb))
  have hread := readValue_written style maximumDepth v hv [] after (by simp) hstop
  have hskip : skipBlank after = [] := List.dropWhile_eq_nil_iff.mpr hafter
  rw [List.nil_append] at hread
  simp only [parse, hread, hskip, if_true]

end Json
