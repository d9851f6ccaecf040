import Mathlib.Data.List.Sort
import Mathlib.Data.Set.Insert

/-! Reading an ordered set page by page: the least elements of a set above a cursor, and the
walks that one look-ahead element drives over a set that may change between two pages. -/
namespace Keyset
variable {κ : Type*} [LinearOrder κ]

/-- `l` lists the `n` least elements of `S` in ascending order, and all of `S` if it has fewer. -/
structure Least (S : Set κ) (n : Nat) (l : List κ) : Prop where
  ascending : l.Pairwise (· < ·)
  sound : ∀ x ∈ l, x ∈ S
  short : l.length ≤ n
  complete : ∀ x ∈ S, x ∉ l → l.length = n ∧ ∀ y ∈ l, y < x

theorem Least.mem_of_short {S : Set κ} {n : Nat} {l : List κ} (h : Least S n l)
    (hl : l.length < n) {x : κ} (hx : x ∈ S) : x ∈ l := by
  by_contra hn
  have := (h.complete x hx hn).1
  omega

/-- An ascending list of all of `S` yields its least elements by cutting it. -/
theorem least_take {S : Set κ} {all : List κ} (hs : all.Pairwise (· < ·))
    (hm : ∀ x, x ∈ all ↔ x ∈ S) (n : Nat) : Least S n (all.take n) where
  ascending := hs.sublist (List.take_sublist n all)
  sound x hx := (hm x).mp (List.mem_of_mem_take hx)
  short := List.length_take_le n all
  complete x hx hn := by
    rw [← List.take_append_drop n all, List.pairwise_append] at hs
    have hd : x ∈ all.drop n := by
      have hall := (hm x).mpr hx
      rw [← List.take_append_drop n all, List.mem_append] at hall
      exact hall.resolve_left hn
    have hlen : n < all.length := by
      have := List.length_pos_of_mem hd
      rw [List.length_drop] at this
      omega
    exact ⟨by rw [List.length_take]; omega, fun y hy => hs.2.2 y hy x hd⟩

theorem Least.take {S : Set κ} {n m : Nat} {l : List κ} (h : Least S n l) (hm : m ≤ n) :
    Least S m (l.take m) where
  ascending := h.ascending.sublist (List.take_sublist m l)
  sound x hx := h.sound x (List.mem_of_mem_take hx)
  short := List.length_take_le m l
  complete x hx hn := by
    by_cases hl : x ∈ l
    · exact (least_take h.ascending (S := {y | y ∈ l}) (fun y => Iff.rfl) m).complete x hl hn
    · have hc := h.complete x hx hl
      exact ⟨by rw [List.length_take]; omega, fun y hy => hc.2 y (List.mem_of_mem_take hy)⟩

/-- The element looked ahead at is there exactly when the page leaves some element out. -/
theorem Least.more {S : Set κ} {n : Nat} {l : List κ} (h : Least S (n+1) l) :
    n < l.length ↔ ∃ x ∈ S, x ∉ l.take n := by
  constructor
  · intro hn
    have hd : l.drop n ≠ [] := by
      rw [← List.length_pos_iff, List.length_drop]
      omega
    obtain ⟨x, hx⟩ := List.exists_mem_of_ne_nil _ hd
    refine ⟨x, h.sound x (List.mem_of_mem_drop hx), fun ht => ?_⟩
    have hs := h.ascending
    rw [← List.take_append_drop n l, List.pairwise_append] at hs
    exact lt_irrefl x (hs.2.2 x ht x hx)
  · intro hparts
    obtain ⟨x, hx, hn⟩ := hparts
    by_contra hle
    rw [List.take_of_length_le (by omega)] at hn
    have := (h.complete x hx hn).1
    omega

/-- An ascending list is determined by its elements. -/
theorem ascending_ext {a b : List κ} (ha : a.Pairwise (· < ·)) (hb : b.Pairwise (· < ·))
    (h : ∀ x, x ∈ a ↔ x ∈ b) : a = b := by
  have hp : a.Perm b := (List.perm_ext_iff_of_nodup (ha.imp ne_of_lt) (hb.imp ne_of_lt)).mpr h
  exact hp.eq_of_pairwise (fun x y _ _ hxy hyx => absurd hyx (lt_asymm hxy)) ha hb

/-- A list with one element outside an ascending list it contains is longer. -/
theorem length_lt_of_subset {a b : List κ} (ha : a.Pairwise (· < ·)) (h : a ⊆ b) {x : κ}
    (hx : x ∈ b) (hn : x ∉ a) : a.length < b.length := by
  have hsp : (x :: a).Subperm b :=
    List.subperm_of_subset (List.nodup_cons.mpr ⟨hn, ha.imp ne_of_lt⟩)
      (List.cons_subset.mpr ⟨hx, h⟩)
  exact Nat.lt_of_succ_le hsp.length_le

theorem Least.subset {S : Set κ} {n : Nat} {a b : List κ} (ha : Least S n a)
    (hb : Least S n b) : a ⊆ b := by
  intro x hx
  by_contra hn
  obtain ⟨hlen, hlt⟩ := hb.complete x (ha.sound x hx) hn
  -- every element of `b` is below `x`, so all of them are in `a` as well: one too many
  have hsub : b ⊆ a := by
    intro y hy
    by_contra hya
    exact lt_asymm (hlt y hy) ((ha.complete y (hb.sound y hy) hya).2 x hx)
  have := length_lt_of_subset hb.ascending hsub hx hn
  have := ha.short
  omega

theorem Least.unique {S : Set κ} {n : Nat} {a b : List κ} (ha : Least S n a) (hb : Least S n b) :
    a = b :=
  ascending_ext ha.ascending hb.ascending fun _ => ⟨fun h => ha.subset hb h, fun h => hb.subset ha h⟩

/-- The least elements of a union are among the least elements of its two parts. -/
theorem Least.union {S T : Set κ} {n : Nat} {a b l : List κ} (ha : Least S n a)
    (hb : Least T n b) (h : Least {x | x ∈ a ∨ x ∈ b} n l) : Least (S ∪ T) n l where
  ascending := h.ascending
  sound x hx := (h.sound x hx).imp (ha.sound x) (hb.sound x)
  short := h.short
  complete x hx hn := by
    have key : ∀ {R : Set κ} {c : List κ}, Least R n c → (∀ y ∈ c, y ∈ a ∨ y ∈ b) → x ∈ R →
        l.length = n ∧ ∀ y ∈ l, y < x := by
      intro R c hc hsub hxr
      by_cases hxc : x ∈ c
      · exact h.complete x (hsub x hxc) hn
      · -- `x` was cut off its own branch, so that branch alone fills `l` with smaller elements
        obtain ⟨hlen, hlt⟩ := hc.complete x hxr hxc
        have hle : l.length = n := by
          by_contra hne
          have hshort : l.length < n := lt_of_le_of_ne h.short hne
          have hcl : c ⊆ l := fun y hy => h.mem_of_short hshort (hsub y hy)
          have := (List.subperm_of_subset (hc.ascending.imp ne_of_lt) hcl).length_le
          omega
        refine ⟨hle, fun y hy => ?_⟩
        by_contra hxy
        have hcl : c ⊆ l := by
          intro z hz
          by_contra hzl
          exact hxy (((h.complete z (hsub z hz) hzl).2 y hy).trans (hlt z hz))
        have := length_lt_of_subset hc.ascending hcl hy fun hyc => hxy (hlt y hyc)
        omega
    obtain hx | hx := hx
    · exact key ha (fun y hy => Or.inl hy) hx
    · exact key hb (fun y hy => Or.inr hy) hx

/-- The elements above a cursor, and every element when there is none. -/
def beyond (c : Option κ) : Set κ := {x | ∀ k ∈ c, k < x}

@[simp] theorem mem_beyond_none (x : κ) : x ∈ beyond (none : Option κ) := by simp [beyond]

@[simp] theorem mem_beyond_some (k x : κ) : x ∈ beyond (some k) ↔ k < x := by simp [beyond]

/-- The pages a reader gets who asks each visited set for one element more than its page holds,
cuts that element off and goes on above the last one kept. The flag tells whether the last page
was reached before the visits ran out. -/
inductive Walk : Option κ → List (Set κ × Nat) → List (List κ) → Bool → Prop where
  | halted (c : Option κ) : Walk c [] [] false
  | last {c : Option κ} {S : Set κ} {n : Nat} {l : List κ} {rest : List (Set κ × Nat)} :
      Least (S ∩ beyond c) (n+1) l → l.length ≤ n → Walk c ((S,n)::rest) [l] true
  | more {c : Option κ} {S : Set κ} {n : Nat} {l : List κ} {rest : List (Set κ × Nat)} {k : κ}
      {pages : List (List κ)} {ended : Bool} :
      Least (S ∩ beyond c) (n+1) l → n < l.length → (l.take n).getLast? = some k →
      Walk (some k) rest pages ended → Walk c ((S,n)::rest) (l.take n::pages) ended

theorem le_getLast {l : List κ} (h : l.Pairwise (· < ·)) {k : κ} (hk : l.getLast? = some k)
    {x : κ} (hx : x ∈ l) : x ≤ k := by
  obtain ⟨ys, rfl⟩ := List.getLast?_eq_some_iff.mp hk
  obtain hx | hx := List.mem_append.mp hx
  · exact le_of_lt ((List.pairwise_append.mp h).2.2 x hx k (by simp))
  · rw [List.mem_singleton] at hx
    exact le_of_eq hx

/-- What a page keeps is in the visited set and above the cursor it was asked with. -/
theorem Least.take_sound {S : Set κ} {c : Option κ} {n m : Nat} {l : List κ}
    (h : Least (S ∩ beyond c) n l) {x : κ} (hx : x ∈ l.take m) : x ∈ S ∧ x ∈ beyond c :=
  h.sound x (List.mem_of_mem_take hx)

theorem beyond_trans {c : Option κ} {k x : κ} (hk : k ∈ beyond c) (hx : k < x) : x ∈ beyond c :=
  fun j hj => (hk j hj).trans hx

theorem Walk.beyond {c : Option κ} {visits : List (Set κ × Nat)} {pages : List (List κ)}
    {ended : Bool} (w : Walk c visits pages ended) : ∀ x ∈ pages.flatten, x ∈ beyond c := by
  induction w with
  | halted c => simp
  | last h hl => simpa using fun x hx => (h.sound x hx).2
  | more h hl hk w ih =>
    intro x hx
    obtain hx | hx := List.mem_append.mp (List.flatten_cons ▸ hx)
    · exact (h.take_sound hx).2
    · have hkm := (h.take_sound (List.mem_of_getLast? hk)).2
      exact beyond_trans hkm ((mem_beyond_some _ _).mp (ih x hx))

/-- Over any sequence of sets the elements received ascend strictly. -/
theorem Walk.ascending {c : Option κ} {visits : List (Set κ × Nat)} {pages : List (List κ)}
    {ended : Bool} (w : Walk c visits pages ended) : pages.flatten.Pairwise (· < ·) := by
  induction w with
  | halted c => simp
  | last h hl => simpa using h.ascending
  | @more c S n l rest k pages ended h hl hk w ih =>
    rw [List.flatten_cons, List.pairwise_append]
    have ht := h.ascending.sublist (List.take_sublist n l)
    refine ⟨ht, ih, fun x hx y hy => ?_⟩
    exact lt_of_le_of_lt (le_getLast ht hk hx) ((mem_beyond_some _ _).mp (w.beyond y hy))

/-- A finished walk receives every element that each visited set contains. -/
theorem Walk.covers {c : Option κ} {visits : List (Set κ × Nat)} {pages : List (List κ)}
    {ended : Bool} (w : Walk c visits pages ended) (he : ended = true) {x : κ}
    (hx : x ∈ Keyset.beyond c) (hv : ∀ v ∈ visits, x ∈ v.1) : x ∈ pages.flatten := by
  induction w with
  | halted c => cases he
  | @last c S n l rest h hl =>
    have hxs : x ∈ S := hv (S,n) (by simp)
    simpa using h.mem_of_short (by omega) ⟨hxs,hx⟩
  | @more c S n l rest k pages ended h hl hk w ih =>
    rw [List.flatten_cons, List.mem_append]
    by_cases ht : x ∈ l.take n
    · exact Or.inl ht
    · have hxs : x ∈ S := hv (S,n) (by simp)
      have hc := (h.take (Nat.le_succ n)).complete x ⟨hxs,hx⟩ ht
      have hkx : k < x := hc.2 k (List.mem_of_getLast? hk)
      exact Or.inr (ih he ((mem_beyond_some k x).mpr hkx)
        fun v hm => hv v (List.mem_cons_of_mem _ hm))

/-- Nothing is received that no visited set contains. -/
theorem Walk.sound {c : Option κ} {visits : List (Set κ × Nat)} {pages : List (List κ)}
    {ended : Bool} (w : Walk c visits pages ended) {x : κ} (hx : x ∈ pages.flatten) :
    ∃ v ∈ visits, x ∈ v.1 := by
  induction w with
  | halted c => simp at hx
  | @last c S n l rest h hl =>
    exact ⟨(S,n), by simp, (h.sound x (by simpa using hx)).1⟩
  | @more c S n l rest k pages ended h hl hk w ih =>
    obtain hx | hx := List.mem_append.mp (List.flatten_cons ▸ hx)
    · exact ⟨(S,n), by simp, (h.take_sound hx).1⟩
    · obtain ⟨v, hv, hxv⟩ := ih hx
      exact ⟨v, List.mem_cons_of_mem _ hv, hxv⟩

/-- The pages a set of `total` elements fills. -/
def pageCount (total size : Nat) : Nat := max 1 ((total+size-1)/size)

theorem pageCount_single {total size : Nat} (h : total ≤ size) : pageCount total size = 1 := by
  obtain rfl | hs := Nat.eq_zero_or_pos size
  · simp [pageCount]
  · have : (total+size-1)/size < 2 := by rw [Nat.div_lt_iff_lt_mul hs]; omega
    simp only [pageCount]
    omega

theorem pageCount_more {total size : Nat} (hs : 0 < size) (h : size < total) :
    pageCount total size = pageCount (total-size) size+1 := by
  have hstep : (total+size-1)/size = (total-size+size-1)/size+1 := by
    rw [← Nat.add_div_right _ hs]
    congr 1
    omega
  have hone : 1 ≤ (total-size+size-1)/size := by
    rw [Nat.le_div_iff_mul_le hs]
    omega
  simp only [pageCount]
  omega

/-- What is left of an ascending list above the last element of a page. -/
theorem drop_beyond {all : List κ} (hs : all.Pairwise (· < ·)) {n : Nat} {k : κ}
    (hk : (all.take n).getLast? = some k) (x : κ) : x ∈ all.drop n ↔ x ∈ all ∧ k < x := by
  have hp := hs
  rw [← List.take_append_drop n all, List.pairwise_append] at hp
  constructor
  · intro hx
    exact ⟨List.mem_of_mem_drop hx, hp.2.2 k (List.mem_of_getLast? hk) x hx⟩
  · intro h
    obtain ⟨hx, hkx⟩ := h
    rw [← List.take_append_drop n all, List.mem_append] at hx
    exact hx.resolve_left fun ht => absurd hkx (not_lt.mpr (le_getLast hp.1 hk ht))

/-- One page of a set listed by `all`: it is the front of the list, something is left, and what
is left lies beyond the page's last element. -/
theorem Least.page {S : Set κ} {c : Option κ} {n : Nat} {l all : List κ} {k : κ}
    (h : Least (S ∩ beyond c) (n+1) l) (hl : n < l.length) (hk : (l.take n).getLast? = some k)
    (hs : all.Pairwise (· < ·)) (hm : ∀ x, x ∈ all ↔ x ∈ S ∩ beyond c) :
    l.take n = all.take n ∧ n < all.length ∧
      ∀ x, x ∈ all.drop n ↔ x ∈ S ∩ beyond (some k) := by
  have hla : l = all.take (n+1) := h.unique (least_take hs hm (n+1))
  have htake : l.take n = all.take n := by rw [hla, List.take_take]; congr 1; omega
  have hkc : k ∈ beyond c := (h.take_sound (List.mem_of_getLast? hk)).2
  refine ⟨htake, ?_, fun x => ?_⟩
  · rw [hla, List.length_take] at hl
    omega
  · rw [htake] at hk
    rw [drop_beyond hs hk x, hm x, Set.mem_inter_iff, Set.mem_inter_iff, mem_beyond_some]
    exact ⟨fun hx => ⟨hx.1.1, hx.2⟩, fun hx => ⟨⟨hx.1, beyond_trans hkc hx.2⟩, hx.2⟩⟩

/-- Over a set that stays the same, in pages of one size, a finished walk receives exactly the
elements above the cursor, in order and in the least possible number of pages. -/
theorem Walk.constant {c : Option κ} {visits : List (Set κ × Nat)} {pages : List (List κ)}
    {ended : Bool} (w : Walk c visits pages ended) (he : ended = true) {S : Set κ} {n : Nat}
    (hn : 0 < n) (hv : ∀ v ∈ visits, v = (S,n)) {all : List κ} (hs : all.Pairwise (· < ·))
    (hm : ∀ x, x ∈ all ↔ x ∈ S ∩ Keyset.beyond c) :
    pages.flatten = all ∧ pages.length = pageCount all.length n := by
  induction w generalizing all with
  | halted c => cases he
  | @last c T m l rest h hl =>
    obtain ⟨rfl, rfl⟩ := Prod.mk.inj (hv (T,m) (by simp))
    have hla : l = all := ascending_ext h.ascending hs fun x =>
      ⟨fun hx => (hm x).mpr (h.sound x hx), fun hx => h.mem_of_short (by omega) ((hm x).mp hx)⟩
    subst hla
    simp [pageCount_single hl]
  | @more c T m l rest k pages ended h hl hk w ih =>
    obtain ⟨rfl, rfl⟩ := Prod.mk.inj (hv (T,m) (by simp))
    obtain ⟨htake, hlen, hleft⟩ := h.page hl hk hs hm
    obtain ⟨hflat, hcount⟩ := ih he (fun v hm' => hv v (List.mem_cons_of_mem _ hm'))
      (hs.sublist (List.drop_sublist m all)) hleft
    rw [List.flatten_cons, hflat, htake, List.take_append_drop, List.length_cons, hcount,
      List.length_drop, pageCount_more hn hlen]
    exact ⟨rfl, rfl⟩

/-- A walk that has not ended has visited fewer pages than the set fills. -/
theorem Walk.unfinished {c : Option κ} {visits : List (Set κ × Nat)} {pages : List (List κ)}
    {ended : Bool} (w : Walk c visits pages ended) (he : ended = false) {S : Set κ} {n : Nat}
    (hn : 0 < n) (hv : ∀ v ∈ visits, v = (S,n)) {all : List κ} (hs : all.Pairwise (· < ·))
    (hm : ∀ x, x ∈ all ↔ x ∈ S ∩ Keyset.beyond c) : visits.length < pageCount all.length n := by
  induction w generalizing all with
  | halted c => simp [pageCount]
  | last h hl => cases he
  | @more c T m l rest k pages ended h hl hk w ih =>
    obtain ⟨rfl, rfl⟩ := Prod.mk.inj (hv (T,m) (by simp))
    obtain ⟨_, hlen, hleft⟩ := h.page hl hk hs hm
    have hrest := ih he (fun v hm' => hv v (List.mem_cons_of_mem _ hm'))
      (hs.sublist (List.drop_sublist m all)) hleft
    rw [List.length_drop] at hrest
    rw [List.length_cons, pageCount_more hn hlen]
    omega

end Keyset
