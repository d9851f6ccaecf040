import OpenDiscogs.HttpApi.Pagination

/-! The cursors of the child collections as a codec between hashes and texts. -/
namespace OpenDiscogs
open Utf8 UrlQuery HttpApi
variable {hash : Int32} {raw : Bytes}

/-- The cursor that is sent for a hash. -/
def cursorOf (hash : Int32) : Bytes := Base64.encode (Strconv.formatInt hash.toInt)

theorem encodeHashCursor_eq (o : Option Int32) : encodeHashCursor o = o.map cursorOf := by
  cases o <;> rfl

/-- A cursor is read back as the hash it was made of, whatever the hash. -/
theorem decodeHashCursor_cursorOf (hash : Int32) :
    decodeHashCursor (cursorOf hash) = .ok (some hash) := by
  have hlo := hash.le_toInt
  have hhi := hash.toInt_lt
  have hparse : Strconv.parseInt (Strconv.formatInt hash.toInt) 10 32 = some hash.toInt :=
    Strconv.parseInt_formatInt (by omega) (by omega) (by omega)
  rw [decodeHashCursor, cursorOf, if_neg (Base64.trimSpace_encode (Strconv.formatInt_ne_nil _)),
    Base64.decode_encode]
  simp only [hparse, Int32.ofInt_toInt]

/-- The text stands for the hash, and stands in a query as it is. -/
structure CursorText (hash : Int32) (text : Bytes) : Prop where
  decoded : decodeHashCursor text = .ok (some hash)
  present : trimSpace text ≠ []
  alphabet : ∀ b ∈ text, Base64.Alphanumeric b
  escaped : escape text = text
  unescaped : unescape text = some text

/-- What a text is read as: no cursor when it is blank, and otherwise the very integer that it
encodes. -/
structure ReadsCursor (raw : Bytes) : Prop where
  absent : decodeHashCursor raw = .ok none ↔ trimSpace raw = []
  exact : ∀ hash, decodeHashCursor raw = .ok (some hash) ↔
    trimSpace raw ≠ [] ∧ (Base64.decode raw).bind Strconv.decimalValue = some hash.toInt
  refused : ∀ message, decodeHashCursor raw = .error message → message = errorCursor

theorem escape_alphanumeric {s : Bytes} (h : ∀ b ∈ s, Base64.Alphanumeric b) : escape s = s := by
  induction s with
  | nil => rfl
  | cons b s ih =>
    have hb : unreserved b = true := by
      have hclass := h b List.mem_cons_self
      simp only [Base64.Alphanumeric] at hclass
      simp only [unreserved, Bool.or_eq_true, Bool.and_eq_true, decide_eq_true_eq, beq_iff_eq]
      tauto
    have hs := ih fun c hc => h c (List.mem_cons_of_mem b hc)
    rw [escape] at hs ⊢
    rw [List.flatMap_cons, hs, escapeByte, if_pos hb, List.singleton_append]

theorem cursorText (hash : Int32) : CursorText hash (cursorOf hash) := by
  have halphabet := Base64.encode_alphanumeric (Strconv.formatInt hash.toInt)
  have hescape : escape (cursorOf hash) = cursorOf hash := escape_alphanumeric halphabet
  refine ⟨decodeHashCursor_cursorOf hash, ?_, halphabet, hescape, ?_⟩
  · exact Base64.trimSpace_encode (Strconv.formatInt_ne_nil _)
  · have hround := unescape_escape (cursorOf hash)
    rwa [hescape] at hround

theorem encodeHashCursor_injective : Function.Injective encodeHashCursor := by
  intro a b h
  have hcursor : Function.Injective cursorOf := by
    intro x y hxy
    have hdecoded := congrArg decodeHashCursor hxy
    simpa only [decodeHashCursor_cursorOf, Except.ok.injEq, Option.some.injEq] using hdecoded
  rw [encodeHashCursor_eq, encodeHashCursor_eq] at h
  exact Option.map_injective hcursor h

/-- The numeral is read at 32 bits, so that no integer is wrapped. -/
theorem parseInt_hash {decoded : Bytes} : Strconv.parseInt decoded 10 32 = some hash.toInt ↔
    Strconv.decimalValue decoded = some hash.toInt := by
  have hlo := hash.le_toInt
  have hhi := hash.toInt_lt
  rw [Strconv.parseInt_eq_decimal (by decide)]
  exact and_iff_left ⟨by omega, by omega⟩

theorem toInt_ofInt_parsed {decoded : Bytes} {n : Int}
    (h : Strconv.parseInt decoded 10 32 = some n) : (Int32.ofInt n).toInt = n := by
  obtain ⟨-, hlo, hhi⟩ := (Strconv.parseInt_eq_decimal (by decide)).mp h
  exact Int32.toInt_ofInt_of_le (by omega) (by omega)

theorem readsCursor (raw : Bytes) : ReadsCursor raw := by
  by_cases hblank : trimSpace raw = []
  · have hnone : decodeHashCursor raw = .ok none := if_pos hblank
    exact ⟨by simp [hnone, hblank], by simp [hnone, hblank], by simp [hnone]⟩
  · cases hd : Base64.decode raw with
    | none =>
      have herror : decodeHashCursor raw = .error errorCursor := by
        rw [decodeHashCursor, if_neg hblank, hd]
      exact ⟨by simp [herror, hblank], by simp [herror, hd], by simp [herror]⟩
    | some decoded =>
      cases hp : Strconv.parseInt decoded 10 32 with
      | none =>
        have herror : decodeHashCursor raw = .error errorCursor := by
          simp only [decodeHashCursor, hblank, if_false, hd, hp]
        refine ⟨by simp [herror, hblank], fun hash => ?_, by simp [herror]⟩
        rw [herror, hd, Option.bind_some, ← parseInt_hash, hp]
        simp
      | some n =>
        have hok : decodeHashCursor raw = .ok (some (Int32.ofInt n)) := by
          simp only [decodeHashCursor, hblank, if_false, hd, hp]
        have hn := toInt_ofInt_parsed hp
        refine ⟨by simp [hok, hblank], fun hash => ?_, by simp [hok]⟩
        rw [hok, hd, Option.bind_some, ← parseInt_hash, hp]
        simp only [Except.ok.injEq, Option.some.injEq, ne_eq, hblank, not_false_iff, true_and]
        rw [← Int32.toInt_inj, hn]

/-- The cursor codec: a hash is written as a text of its own that is read back as the hash, and
no text is read as another integer than it encodes. -/
theorem cursor_codec :
    (∀ hash, ∃ text, encodeHashCursor (some hash) = some text ∧ CursorText hash text) ∧
      Function.Injective encodeHashCursor ∧ ∀ raw, ReadsCursor raw :=
  ⟨fun hash => ⟨cursorOf hash, rfl, cursorText hash⟩, encodeHashCursor_injective, readsCursor⟩

end OpenDiscogs
