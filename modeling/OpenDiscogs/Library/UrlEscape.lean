import OpenDiscogs.Library.Url

/-! The escapes of a URL's parts: which bytes they leave, and what is read back from them. -/
namespace Url
open Utf8 UrlQuery

/-- A byte that an escape is made of. -/
def escapeDigit (b : UInt8) : Bool := b == 0x25 || (0x30 ≤ b && b ≤ 0x39) || (0x41 ≤ b && b ≤ 0x46)

/-- Every byte of the text can stand in the part, as it is or escaped. -/
def Fits (mode : Encoding) (s : Bytes) : Prop :=
  ∀ b ∈ s, shouldEscape b mode = true → escapable mode b = true

instance decidableFits (mode : Encoding) (s : Bytes) : Decidable (Fits mode s) :=
  inferInstanceAs (Decidable (∀ b ∈ s, shouldEscape b mode = true → escapable mode b = true))

theorem fits_append {mode : Encoding} {s t : Bytes} :
    Fits mode (s ++ t) ↔ Fits mode s ∧ Fits mode t := List.forall_mem_append

/-- What a part does not escape fits it. -/
theorem fits_plain {mode : Encoding} {s : Bytes} (h : ∀ b ∈ s, shouldEscape b mode = false) :
    Fits mode s := by
  intro b hb hs
  rw [h b hb] at hs
  cases hs

theorem escapeDigit_hex : ∀ n < 16, escapeDigit (hex n) = true := by decide

variable {mode : Encoding} {s t : Bytes} {b c : UInt8}

/-- A byte of an escaped text stands for itself, is part of an escape, or is a blank's plus sign. -/
theorem mem_escapeByte (h : c ∈ escapeByte mode b) : (c = b ∧ shouldEscape c mode = false) ∨
    escapeDigit c = true ∨ (c = 0x2B ∧ mode = .queryComponent) := by
  unfold escapeByte at h
  split at h
  · next hq => exact Or.inr (Or.inr ⟨List.mem_singleton.mp h, hq.2⟩)
  · split at h
    · have hb := b.toNat_lt
      simp only [List.mem_cons, List.not_mem_nil, or_false] at h
      refine Or.inr (Or.inl ?_)
      obtain rfl | rfl | rfl := h
      · rfl
      · exact escapeDigit_hex _ (by omega)
      · exact escapeDigit_hex _ (by omega)
    · next hs =>
      obtain rfl := List.mem_singleton.mp h
      exact Or.inl ⟨rfl, Bool.eq_false_iff.mpr hs⟩

theorem mem_escape (h : c ∈ escape s mode) : (c ∈ s ∧ shouldEscape c mode = false) ∨
    escapeDigit c = true ∨ (c = 0x2B ∧ mode = .queryComponent) := by
  obtain ⟨b, hb, hc⟩ := List.mem_flatMap.mp h
  obtain ⟨rfl, hs⟩ | h := mem_escapeByte hc
  · exact Or.inl ⟨hb, hs⟩
  · exact Or.inr h

/-- A byte that a part escapes does not stand in the escaped text. -/
theorem not_mem_escape (hs : shouldEscape c mode = true) (hd : escapeDigit c = false)
    (hp : c ≠ 0x2B) : c ∉ escape s mode := by
  intro h
  obtain ⟨-, hf⟩ | h | ⟨rfl, -⟩ := mem_escape h
  · rw [hs] at hf
    cases hf
  · rw [hd] at h
    cases h
  · exact hp rfl

/-- What no part escapes is visible and can be read as nothing else. -/
theorem plain_byte : ∀ mode b, shouldEscape b mode = false →
    Visible b ∧ b ≠ 0x25 ∧ (mode = .queryComponent → b ≠ 0x2B) := by
  have hword : ∀ b, (alphanumeric b || mark b) = true → Visible b ∧ b ≠ 0x25 ∧ b ≠ 0x2B :=
    forall_byte (by decide)
  intro mode b h
  have hmarks : ∀ {marks : Bytes}, marks.all (fun b => Visible b ∧ b ≠ 0x25) = true →
      decide (b ∉ marks) = false → Visible b ∧ b ≠ 0x25 := by
    intro marks hall hb
    have hb := List.all_eq_true.mp hall b (by simpa using hb)
    exact of_decide_eq_true hb
  unfold shouldEscape at h
  split at h
  · next hb =>
    obtain ⟨hv, hpercent, hplus⟩ := hword b hb
    exact ⟨hv, hpercent, fun _ => hplus⟩
  · cases mode with
    | queryComponent => cases h
    | path | userPassword | host | zone | fragment =>
      have hb := hmarks (by decide) h
      exact ⟨hb.1, hb.2, nofun⟩

theorem escapeDigit_cases : ∀ b, escapeDigit b = true → b = 0x25 ∨ alphanumeric b = true :=
  forall_byte (by decide)

theorem visible_escapeDigit : ∀ b, escapeDigit b = true → Visible b :=
  forall_byte (by decide)

/-- An escaped text is visible ASCII. -/
theorem visible_escape (h : c ∈ escape s mode) : Visible c := by
  obtain ⟨-, hs⟩ | hd | ⟨rfl, -⟩ := mem_escape h
  · exact (plain_byte mode c hs).1
  · exact visible_escapeDigit c hd
  · decide

theorem escape_append (s t : Bytes) (mode : Encoding) :
    escape (s ++ t) mode = escape s mode ++ escape t mode := List.flatMap_append

theorem escape_cons (b : UInt8) (s : Bytes) (mode : Encoding) :
    escape (b::s) mode = escapeByte mode b ++ escape s mode := List.flatMap_cons

/-- A byte that a part does not escape stands for itself. -/
theorem escapeByte_plain (h : shouldEscape b mode = false) (hq : mode ≠ .queryComponent) :
    escapeByte mode b = [b] := by
  rw [escapeByte, if_neg fun hb => hq hb.2, if_neg (by simp [h])]

theorem escape_plain (h : ∀ b ∈ s, shouldEscape b mode = false) (hq : mode ≠ .queryComponent) :
    escape s mode = s := by
  induction s with
  | nil => rfl
  | cons b s ih =>
    rw [List.forall_mem_cons] at h
    rw [escape_cons, escapeByte_plain h.1 hq, ih h.2, List.singleton_append]

theorem escape_ne_nil (h : s ≠ []) : escape s mode ≠ [] := by
  obtain ⟨b, t, rfl⟩ := List.exists_cons_of_ne_nil h
  rw [escape_cons]
  unfold escapeByte
  split
  · simp
  · split <;> simp

/-- A zone is written as a host is. -/
theorem escape_zone (s : Bytes) : escape s .zone = escape s .host := by
  unfold escape
  congr 1
  funext b
  simp [escapeByte, shouldEscape]

theorem unescape_plain (hb : b ≠ 0x25) (s : Bytes) : unescape mode (b::s) =
    if (mode = .host ∨ mode = .zone) ∧ b < 0x80 ∧ shouldEscape b mode then none
    else (unescape mode s).map ((if b = 0x2B ∧ mode = .queryComponent then 0x20 else b)::·) := by
  rw [unescape.eq_def]
  split
  · next he => cases he
  · next he => cases he; exact absurd rfl hb
  · next he => cases he; exact absurd rfl hb
  · next he => cases he; rfl

theorem unescape_hex {x y : Nat} {d : UInt8} (hc : unhex c = some x) (hd : unhex d = some y)
    (s : Bytes) : unescape mode (0x25::c::d::s) =
      if escapable mode (UInt8.ofNat (x*16+y)) then
        (unescape mode s).map (UInt8.ofNat (x*16+y)::·)
      else none := by
  simp [unescape, hc, hd]

/-- One byte, escaped or not, is read back where it may stand, and refuses the text elsewhere. -/
theorem unescape_escapeByte (mode : Encoding) (b : UInt8) (s : Bytes) :
    unescape mode (escapeByte mode b ++ s) =
      if shouldEscape b mode = true → escapable mode b = true then (unescape mode s).map (b::·)
      else none := by
  unfold escapeByte
  split
  · next h =>
    obtain ⟨rfl, rfl⟩ := h
    rw [List.singleton_append, unescape_plain (by decide)]
    simp [escapable]
  · split
    · next h =>
      have hb := b.toNat_lt
      rw [List.cons_append, List.cons_append, List.cons_append, List.nil_append,
        unescape_hex (unhex_hex (b.toNat/16) (by omega)) (unhex_hex (b.toNat%16) (by omega)),
        Nat.div_add_mod', UInt8.ofNat_toNat]
      simp [h]
    · next h =>
      have hs := Bool.eq_false_iff.mpr h
      obtain ⟨-, hp, hplus⟩ := plain_byte mode b hs
      have hnot : ¬(b = 0x2B ∧ mode = .queryComponent) := fun hq => hplus hq.2 hq.1
      rw [List.singleton_append, unescape_plain hp, if_neg hnot]
      simp [hs]

/-- A part reads back every text that fits it. -/
theorem unescape_escape (h : Fits mode s) : unescape mode (escape s mode) = some s := by
  induction s with
  | nil => rw [escape, List.flatMap_nil, unescape]
  | cons b s ih =>
    rw [Fits, List.forall_mem_cons] at h
    rw [escape_cons, unescape_escapeByte, if_pos h.1, ih h.2, Option.map_some]

/-- A part refuses every text that does not fit it. -/
theorem unescape_escape_none (h : ¬Fits mode s) : unescape mode (escape s mode) = none := by
  induction s with
  | nil => exact absurd (by simp [Fits]) h
  | cons b s ih =>
    rw [Fits, List.forall_mem_cons, not_and_or] at h
    rw [escape_cons, unescape_escapeByte]
    obtain hb | hs := h
    · rw [if_neg hb]
    · rw [ih hs, Option.map_none, ite_self]

/-- A text is read back from the way it is written just when it fits. -/
theorem unescape_escape_eq_some {x : Bytes} :
    unescape mode (escape s mode) = some x ↔ Fits mode s ∧ x = s := by
  by_cases h : Fits mode s
  · rw [unescape_escape h, Option.some.injEq]
    simp [h, eq_comm]
  · rw [unescape_escape_none h]
    simp [h]

theorem fits_of_escapable (h : ∀ b, escapable mode b = true) (s : Bytes) : Fits mode s :=
  fun b _ _ => h b

theorem fits_path (s : Bytes) : Fits .path s := fits_of_escapable (fun _ => rfl) s

theorem fits_userPassword (s : Bytes) : Fits .userPassword s := fits_of_escapable (fun _ => rfl) s

/-- The query's own reader reads the same. -/
theorem queryUnescape_eq (s : Bytes) : UrlQuery.unescape s = unescape .queryComponent s := by
  have hq : ¬(Encoding.queryComponent = .host ∨ Encoding.queryComponent = .zone) := by decide
  induction s using UrlQuery.unescape.induct with
  | case1 => rfl
  | case2 c d s x y hy hx ih =>
    rw [UrlQuery.unescape_hex hx hy, Url.unescape_hex hx hy, ih, escapable, if_pos rfl]
    all_goals decide
  | case3 c d s hno =>
    cases hx : unhex c with
    | none => simp [UrlQuery.unescape, Url.unescape, hx]
    | some x =>
      cases hy : unhex d with
      | none => simp [UrlQuery.unescape, Url.unescape, hx, hy]
      | some y => exact absurd hy (hno x y hx)
  | case4 s hno =>
    rw [UrlQuery.unescape, unescape]
    · exact hno
    · exact hno
  | case5 b s h1 h2 ih =>
    have hb : b ≠ 0x25 := by
      intro he
      subst he
      exact h2 rfl
    rw [UrlQuery.unescape_plain hb, Url.unescape_plain hb, ih]
    simp

/-- How a part reads a text, byte by byte. -/
inductive Reads (mode : Encoding) : Bytes → Bytes → Prop
  | nil : Reads mode [] []
  | plain {b : UInt8} {s t : Bytes} (hb : b ≠ 0x25)
      (hlegal : ¬((mode = .host ∨ mode = .zone) ∧ b < 0x80 ∧ shouldEscape b mode = true))
      (h : Reads mode s t) :
      Reads mode (b::s) ((if b = 0x2B ∧ mode = .queryComponent then 0x20 else b)::t)
  | escaped {c d : UInt8} {x y : Nat} {s t : Bytes} (hc : unhex c = some x) (hd : unhex d = some y)
      (hlegal : escapable mode (UInt8.ofNat (x*16+y)) = true) (h : Reads mode s t) :
      Reads mode (0x25::c::d::s) (UInt8.ofNat (x*16+y)::t)

theorem Reads.unescape (h : Reads mode s t) : unescape mode s = some t := by
  induction h with
  | nil => rw [Url.unescape]
  | plain hb hlegal h ih => rw [unescape_plain hb, if_neg hlegal, ih, Option.map_some]
  | escaped hc hd hlegal h ih => rw [unescape_hex hc hd, if_pos hlegal, ih, Option.map_some]

theorem reads_of_unescape (h : unescape mode s = some t) : Reads mode s t := by
  induction s using unescape.induct mode generalizing t with
  | case1 =>
    rw [unescape] at h
    cases h
    exact .nil
  | case2 c d s x y hy hx hlegal ih =>
    rw [unescape_hex hx hy, if_pos hlegal, Option.map_eq_some_iff] at h
    obtain ⟨u, hu, rfl⟩ := h
    exact .escaped hx hy hlegal (ih hu)
  | case3 c d s x y hy hx hlegal =>
    rw [unescape_hex hx hy, if_neg hlegal] at h
    cases h
  | case4 c d s hno =>
    rw [unescape] at h
    split at h
    · next x y hx hy => exact absurd hy (hno x y hx)
    · cases h
  | case5 s hno =>
    rw [unescape] at h
    · cases h
    · exact hno
  | case6 b s h1 h2 hlegal =>
    rw [unescape_plain h2, if_pos hlegal] at h
    cases h
  | case7 b s h1 h2 hlegal ih =>
    rw [unescape_plain h2, if_neg hlegal, Option.map_eq_some_iff] at h
    obtain ⟨u, hu, rfl⟩ := h
    exact .plain h2 hlegal (ih hu)

theorem Reads.append {s' t' : Bytes} (h : Reads mode s t) (h' : Reads mode s' t') :
    Reads mode (s ++ s') (t ++ t') := by
  induction h with
  | nil => exact h'
  | plain hb hlegal h ih => exact .plain hb hlegal ih
  | escaped hc hd hlegal h ih => exact .escaped hc hd hlegal ih

/-- Before a byte that is no part of an escape a text is read on its own. -/
theorem Reads.split (hb : b ≠ 0x25) (hx : unhex b = none) {u : Bytes}
    (h : Reads mode (s ++ b::u) t) : ∃ x y, t = x ++ y ∧ Reads mode s x ∧ Reads mode (b::u) y := by
  generalize he : s ++ b::u = whole at h
  induction h generalizing s with
  | nil => simp at he
  | plain hb' hlegal h ih =>
    cases s with
    | nil =>
      cases he
      exact ⟨[], _, rfl, .nil, .plain hb' hlegal h⟩
    | cons c s =>
      obtain ⟨rfl, rfl⟩ := List.cons.inj he
      obtain ⟨x, y, rfl, hr, hy⟩ := ih rfl
      exact ⟨_, y, rfl, .plain hb' hlegal hr, hy⟩
  | escaped hc hd hlegal h ih =>
    match s, he with
    | [], he => cases he; exact absurd rfl hb
    | [_], he =>
      cases he
      rw [hx] at hc
      cases hc
    | [_, _], he =>
      cases he
      rw [hx] at hd
      cases hd
    | _::_::_::s, he =>
      cases he
      obtain ⟨x, y, rfl, hr, hy⟩ := ih rfl
      exact ⟨_, y, rfl, .escaped hc hd hlegal hr, hy⟩

/-- What is read from a host fits a host again. -/
theorem Reads.fits (h : Reads .host s t) : Fits .host t := by
  induction h with
  | nil => simp [Fits]
  | @plain b s t hb hlegal h ih =>
    rw [if_neg (by simp), Fits, List.forall_mem_cons]
    refine ⟨fun hs => ?_, ih⟩
    have hhigh : 0x80 ≤ b := UInt8.not_lt.mp fun hlow => hlegal ⟨Or.inl rfl, hlow, hs⟩
    simp [escapable, hhigh]
  | escaped hc hd hlegal h ih =>
    rw [Fits, List.forall_mem_cons]
    exact ⟨fun _ => hlegal, ih⟩

theorem zone_high (b : UInt8) (h : 0x80 ≤ b) :
    shouldEscape b .zone = true ∧ escapable .zone b = false := by
  have hescaped : ∀ mode, shouldEscape b mode = true := by
    intro mode
    by_contra hs
    have hlt := (plain_byte mode b (Bool.eq_false_iff.mpr hs)).1.2
    exact absurd (UInt8.lt_of_le_of_lt h hlt) (by decide)
  have hpercent : b ≠ 0x25 := fun he => absurd (he ▸ h) (by decide)
  have hspace : b ≠ 0x20 := fun he => absurd (he ▸ h) (by decide)
  exact ⟨hescaped .zone, by simp [escapable, hescaped, hpercent, hspace]⟩

theorem Fits.ascii (h : Fits .zone s) : ∀ b ∈ s, b < 0x80 := by
  intro b hb
  by_contra hhigh
  obtain ⟨hs, he⟩ := zone_high b (UInt8.not_lt.mp hhigh)
  rw [h b hb hs] at he
  cases he

/-- What is read from a zone fits a zone again if it is ASCII. -/
theorem Reads.fits_zone (h : Reads .zone s t) (hlow : ∀ b ∈ t, b < 0x80) : Fits .zone t := by
  induction h with
  | nil => simp [Fits]
  | @plain b s t hb hlegal h ih =>
    rw [if_neg (by simp), List.forall_mem_cons] at hlow
    rw [if_neg (by simp), Fits, List.forall_mem_cons]
    exact ⟨fun hs => absurd ⟨Or.inr rfl, hlow.1, hs⟩ hlegal, ih hlow.2⟩
  | escaped hc hd hlegal h ih =>
    rw [List.forall_mem_cons] at hlow
    rw [Fits, List.forall_mem_cons]
    exact ⟨fun _ => hlegal, ih hlow.2⟩

/-- A byte of ASCII that starts no escape stands in a host as read just where it stands in the host
as written. -/
theorem Reads.mem_iff (hc : c ≠ 0x25) (hx : unhex c = none) (hlow : c < 0x80)
    (h : Reads .host s t) : c ∈ t ↔ c ∈ s := by
  induction h with
  | nil => rfl
  | plain hb hlegal h ih => simp [ih]
  | @escaped d e x y s t hd he hlegal h ih =>
    have hdc : c ≠ d := by
      intro he
      rw [he, hd] at hx
      cases hx
    have hec : c ≠ e := by
      intro hce
      rw [hce, he] at hx
      cases hx
    have hbyte : c ≠ UInt8.ofNat (x*16+y) := by
      intro hcb
      simp only [← hcb, escapable, Bool.or_eq_true, beq_iff_eq, decide_eq_true_eq] at hlegal
      exact hlegal.elim hc (UInt8.not_le.mpr hlow)
    rw [List.mem_cons, or_iff_right hbyte, ih]
    simp [hc, hdc, hec]

end Url
