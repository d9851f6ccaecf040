import Mathlib.Data.List.Infix
import OpenDiscogs.Library.SqlText

/-! Patterns of `LIKE`: what a pattern without metacharacters matches, and a text that tells any
other pattern from its own characters. -/
namespace SqlText

/-- The characters that mean something else in a pattern. -/
def metacharacters : List Char := ['%', '_', '\\']

/-- The characters of a pattern stand for themselves. -/
def Plain (p : List Char) : Prop := ∀ c ∈ p, c ∉ metacharacters

instance decidablePlain (p : List Char) : Decidable (Plain p) :=
  inferInstanceAs (Decidable (∀ c ∈ p, c ∉ metacharacters))

theorem like_percent {p s : List Char} : like ('%'::p) s = true ↔ ∃ t, t <:+ s ∧ like p t = true := by
  simp [like, List.mem_tails]

theorem like_percent_end (s : List Char) : like ['%'] s = true :=
  like_percent.mpr ⟨[], List.nil_suffix, rfl⟩

theorem like_escaped {c : Char} {p s : List Char} : like ('\\'::c::p) (c::s) = like p s := by
  simp [like]

theorem like_cons {c : Char} (h : c ∉ metacharacters) (p : List Char) :
    like (c::p) [] = false ∧ ∀ d s, like (c::p) (d::s) = (c == d && like p s) := by
  simp only [metacharacters, List.mem_cons, List.not_mem_nil, or_false, not_or] at h
  rw [like.eq_6 c p h.1 h.2.1 (fun he _ => h.2.2 he) fun _ _ he _ => h.2.2 he]
  exact ⟨rfl, fun _ _ => rfl⟩

theorem like_plain {p : List Char} (h : Plain p) (q s : List Char) :
    like (p ++ q) s = true ↔ ∃ t, s = p ++ t ∧ like q t = true := by
  induction p generalizing s with
  | nil => simp
  | cons c p ih =>
    have hp : Plain p := fun d hd => h d (List.mem_cons_of_mem c hd)
    obtain ⟨hnil, hcons⟩ := like_cons (h c (by simp)) (p ++ q)
    rw [List.cons_append]
    cases s with
    | nil => simp [hnil]
    | cons d s =>
      simp only [hcons, Bool.and_eq_true, beq_iff_eq, ih hp, List.cons_append, List.cons.injEq]
      constructor
      · intro hparts
        obtain ⟨rfl, t, rfl, ht⟩ := hparts
        exact ⟨t, ⟨rfl, rfl⟩, ht⟩
      · intro hparts
        obtain ⟨t, ⟨rfl, rfl⟩, ht⟩ := hparts
        exact ⟨rfl, t, rfl, ht⟩

/-- Between two `%`, plain characters match the texts that contain them. -/
theorem like_within {p : List Char} (h : Plain p) (s : List Char) :
    like ('%'::(p ++ ['%'])) s = true ↔ p <:+: s := by
  rw [like_percent, List.infix_iff_prefix_suffix]
  constructor
  · intro hparts
    obtain ⟨t, ht, hl⟩ := hparts
    obtain ⟨u, rfl, -⟩ := (like_plain h _ _).mp hl
    exact ⟨_, List.prefix_append p u, ht⟩
  · intro hparts
    obtain ⟨t, ⟨u, rfl⟩, ht⟩ := hparts
    exact ⟨_, ht, (like_plain h _ _).mpr ⟨u, rfl, like_percent_end u⟩⟩

/-- A shortest text that the pattern, with a `%` after it, matches: nothing for a `%`, a filler for
a `_`, the escaped character for an escape. -/
def shortest (filler : Char) : List Char → List Char
  | [] => []
  | '%'::p => shortest filler p
  | '_'::p => filler::shortest filler p
  | ['\\'] => ['%']
  | '\\'::c::p => c::shortest filler p
  | c::p => c::shortest filler p

theorem shortest_cons (filler : Char) {c : Char} (h : c ∉ metacharacters) (p : List Char) :
    shortest filler (c::p) = c::shortest filler p := by
  simp only [metacharacters, List.mem_cons, List.not_mem_nil, or_false, not_or] at h
  exact shortest.eq_6 filler c p h.1 h.2.1 (fun he _ => h.2.2 he) fun _ _ he _ => h.2.2 he

/-- Patterns by what they start with. -/
theorem pattern_cases {motive : List Char → Prop} (nil : motive [])
    (percent : ∀ p, motive p → motive ('%'::p)) (underscore : ∀ p, motive p → motive ('_'::p))
    (lone : motive ['\\']) (escape : ∀ c p, motive p → motive ('\\'::c::p))
    (plain : ∀ c p, c ∉ metacharacters → motive p → motive (c::p)) (p : List Char) : motive p := by
  fun_induction shortest 'x' p with
  | case1 => exact nil
  | case2 p ih => exact percent p ih
  | case3 p ih => exact underscore p ih
  | case4 => exact lone
  | case5 c p ih => exact escape c p ih
  | case6 c p h1 h2 h3 h4 ih =>
    refine plain c p ?_ ih
    simp only [metacharacters, List.mem_cons, List.not_mem_nil, or_false, not_or]
    refine ⟨h1, h2, ?_⟩
    intro he
    subst he
    cases p with
    | nil => exact h3 rfl rfl
    | cons d p => exact h4 d p rfl rfl

theorem like_shortest (filler : Char) (p : List Char) :
    like (p ++ ['%']) (shortest filler p) = true := by
  induction p using pattern_cases with
  | nil => exact like_percent_end []
  | percent p ih => exact like_percent.mpr ⟨_, List.suffix_refl _, ih⟩
  | underscore p ih => exact ih
  | lone => rfl
  | escape c p ih =>
    rw [List.cons_append, List.cons_append, shortest, like_escaped]
    exact ih
  | plain c p hc ih =>
    rw [shortest_cons filler hc, List.cons_append, (like_cons hc _).2]
    simpa using ih

theorem length_shortest (filler : Char) (p : List Char) :
    (shortest filler p).length ≤ p.length := by
  induction p using pattern_cases with
  | nil => exact le_refl 0
  | percent p ih => exact Nat.le_succ_of_le ih
  | underscore p ih => exact Nat.succ_le_succ ih
  | lone => exact le_refl 1
  | escape c p ih => exact Nat.le_succ_of_le (Nat.succ_le_succ ih)
  | plain c p hc ih =>
    rw [shortest_cons filler hc]
    exact Nat.succ_le_succ ih

/-- Only a plain pattern is a text that it matches with the fewest characters. -/
theorem plain_of_shortest {filler : Char} (hf : filler ≠ '_') {p : List Char}
    (h : shortest filler p = p) : Plain p := by
  induction p using pattern_cases with
  | nil => simp [Plain]
  | percent p ih =>
    have hlen := length_shortest filler p
    have heq := congrArg List.length h
    rw [shortest, List.length_cons] at heq
    omega
  | underscore p ih => exact absurd (List.cons.inj h).1 hf
  | lone => exact absurd (List.cons.inj h).1 (by decide)
  | escape c p ih =>
    have hlen := length_shortest filler p
    have heq := congrArg List.length h
    rw [shortest, List.length_cons, List.length_cons, List.length_cons] at heq
    omega
  | plain c p hc ih =>
    rw [shortest_cons filler hc, List.cons.injEq] at h
    exact List.forall_mem_cons.mpr ⟨hc, ih h.2⟩

/-- Only a plain pattern is contained in each text that it matches between two `%`. -/
theorem plain_of_within {filler : Char} (hf : filler ≠ '_') {p : List Char}
    (h : p <:+: shortest filler p) : Plain p :=
  plain_of_shortest hf (h.eq_of_length_le (length_shortest filler p)).symm

section Lower
variable {server : Server}

theorem lower_metacharacter {c : Char} : server.lower c ∈ metacharacters ↔ c ∈ metacharacters := by
  have h := server.lower_pattern
  simp only [metacharacters, List.mem_cons, List.not_mem_nil, or_false] at h ⊢
  rw [h '%' (by simp), h '_' (by simp), h '\\' (by simp)]

theorem plain_lower {p : List Char} : Plain (p.map server.lower) ↔ Plain p := by
  simp [Plain, lower_metacharacter]

theorem lower_self {m : Char} (h : m ∈ metacharacters) : server.lower m = m :=
  (server.lower_pattern m h m).mpr rfl

/-- Mapping to lower case keeps the structure of a pattern. -/
theorem map_shortest (filler : Char) (p : List Char) : (shortest filler p).map server.lower =
    shortest (server.lower filler) (p.map server.lower) := by
  have hpercent : server.lower '%' = '%' := lower_self (by decide)
  have hunderscore : server.lower '_' = '_' := lower_self (by decide)
  have hescape : server.lower '\\' = '\\' := lower_self (by decide)
  induction p using pattern_cases with
  | nil => rfl
  | percent p ih => rw [shortest, List.map_cons, hpercent, shortest, ih]
  | underscore p ih => rw [shortest, List.map_cons, List.map_cons, hunderscore, shortest, ih]
  | lone => simp only [shortest, List.map_cons, List.map_nil, hescape, hpercent]
  | escape c p ih =>
    simp only [List.map_cons, hescape, shortest, ih]
  | plain c p hc ih =>
    rw [shortest_cons filler hc, List.map_cons, List.map_cons,
      shortest_cons _ (lower_metacharacter.not.mpr hc), ih]

theorem nul_shortest {filler : Char} (hf : filler ≠ nul) {p : List Char} (h : nul ∉ p) :
    nul ∉ shortest filler p := by
  induction p using pattern_cases with
  | nil => exact h
  | percent p ih => exact ih fun hn => h (List.mem_cons_of_mem _ hn)
  | underscore p ih =>
    rw [shortest, List.mem_cons, not_or]
    exact ⟨hf.symm, ih fun hn => h (List.mem_cons_of_mem _ hn)⟩
  | lone =>
    rw [shortest]
    decide
  | escape c p ih =>
    rw [List.mem_cons, List.mem_cons, not_or, not_or] at h
    rw [shortest, List.mem_cons, not_or]
    exact ⟨h.2.1, ih h.2.2⟩
  | plain c p hc ih =>
    rw [List.mem_cons, not_or] at h
    rw [shortest_cons filler hc, List.mem_cons, not_or]
    exact ⟨h.1, ih h.2⟩

/-- The texts that contain a term once both are mapped to lower case. -/
def Contains (server : Server) (term text : Text) : Prop :=
  (term.lower server).chars <:+: (text.lower server).chars

theorem lower_substringPattern (term : Text) : ((substringPattern term).lower server).chars =
    '%'::((term.lower server).chars ++ ['%']) := by
  have hpercent : server.lower '%' = '%' := lower_self (by decide)
  simp only [Text.lower, substringPattern, List.map_cons, List.map_append, List.map_nil, hpercent]

/-- `ILIKE '%' || term || '%'` finds the texts that contain the term exactly when no character of
the term is a metacharacter. -/
theorem ilike_substring (server : Server) (term : Text) :
    (∀ text, ilike server text (substringPattern term) = true ↔ Contains server term text) ↔
      Plain term.chars := by
  simp only [ilike, lower_substringPattern]
  constructor
  · intro h
    let text : Text := ⟨shortest 'x' term.chars, nul_shortest (by decide) term.legal⟩
    have hlower : (text.lower server).chars =
        shortest (server.lower 'x') (term.lower server).chars := map_shortest 'x' term.chars
    have hfiller : server.lower 'x' ≠ '_' := fun he =>
      absurd ((server.lower_pattern '_' (by decide) 'x').mp he) (by decide)
    have hmatch : like ('%'::((term.lower server).chars ++ ['%'])) (text.lower server).chars =
        true := by
      rw [hlower]
      exact like_percent.mpr ⟨_, List.suffix_refl _, like_shortest _ _⟩
    have hcontains := (h text).mp hmatch
    rw [Contains, hlower] at hcontains
    exact plain_lower.mp (plain_of_within hfiller hcontains)
  · intro h text
    exact like_within (plain_lower.mpr h) _

end Lower

end SqlText
