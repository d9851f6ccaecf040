import Mathlib.Data.List.Dedup
import OpenDiscogs.Library.Keyset

/-! Bags of rows as lists: ordering by a key, duplicate elimination and key joins, and which
elements the bounded results of such queries hold. -/
namespace Rows
open Keyset
variable {α κ : Type*} [LinearOrder κ]

/-- `ORDER BY key` in ascending order. -/
def orderBy (key : α → κ) (rows : List α) : List α :=
  rows.insertionSort (fun a b => key a ≤ key b)

/-- `SELECT DISTINCT ... ORDER BY` over the selected values themselves. -/
def distinct (xs : List κ) : List κ := xs.dedup.insertionSort (· ≤ ·)

/-- Every row whose key is the joined value, for each of the values in turn. -/
def join (key : α → κ) (xs : List κ) (rows : List α) : List α :=
  xs.flatMap fun x => rows.filter fun row => key row = x

@[simp] theorem mem_orderBy {key : α → κ} {rows : List α} {row : α} :
    row ∈ orderBy key rows ↔ row ∈ rows := List.mem_insertionSort _

theorem orderBy_perm (key : α → κ) (rows : List α) : (orderBy key rows).Perm rows :=
  List.perm_insertionSort _ rows

theorem orderBy_sorted (key : α → κ) (rows : List α) :
    (orderBy key rows).Pairwise fun a b => key a ≤ key b :=
  have : Std.Total fun a b : α => key a ≤ key b := ⟨fun _ _ => le_total _ _⟩
  have : IsTrans α fun a b => key a ≤ key b := ⟨fun _ _ _ => le_trans⟩
  List.pairwise_insertionSort _ rows

/-- Rows with distinct keys come out with strictly ascending keys. -/
theorem orderBy_ascending {key : α → κ} {rows : List α} (h : (rows.map key).Nodup) :
    ((orderBy key rows).map key).Pairwise (· < ·) := by
  have hp := orderBy_sorted key rows
  have hn : ((orderBy key rows).map key).Nodup := ((orderBy_perm key rows).map key).nodup_iff.mpr h
  rw [List.pairwise_map]
  exact (hp.and (List.pairwise_map.mp hn)).imp fun h => lt_of_le_of_ne h.1 h.2

theorem orderBy_eq_self {key : α → κ} {rows : List α} (h : (rows.map key).Pairwise (· < ·)) :
    orderBy key rows = rows :=
  List.Pairwise.insertionSort_eq ((List.pairwise_map.mp h).imp le_of_lt)

@[simp] theorem mem_distinct {xs : List κ} {x : κ} : x ∈ distinct xs ↔ x ∈ xs := by
  simp [distinct]

theorem distinct_ascending (xs : List κ) : (distinct xs).Pairwise (· < ·) := by
  have hp : (distinct xs).Pairwise (· ≤ ·) := List.pairwise_insertionSort _ _
  have hn : (distinct xs).Nodup :=
    (List.perm_insertionSort _ _).nodup_iff.mpr (List.nodup_dedup xs)
  exact (hp.and hn).imp fun h => lt_of_le_of_ne h.1 h.2

/-- Rows that agree on a unique key whenever a part of them agrees on another have that other key
unique in the part. -/
theorem nodup_part {β γ : Type*} {f : α → β} {g : α → γ} {rows : List α} (h : (rows.map f).Nodup)
    (p : α → Bool)
    (hfg : ∀ r ∈ rows, ∀ r' ∈ rows, p r → p r' → g r = g r' → f r = f r') :
    ((rows.filter p).map g).Nodup := by
  have hn : rows.Pairwise fun r r' => f r ≠ f r' := List.pairwise_map.mp h
  refine List.pairwise_map.mpr ((hn.sublist List.filter_sublist).imp_of_mem ?_)
  intro r r' hr hr' hne he
  rw [List.mem_filter] at hr hr'
  exact hne (hfg r hr.1 r' hr'.1 hr.2 hr'.2 he)

theorem nodup_filter {β : Type*} {key : α → β} {rows : List α} (h : (rows.map key).Nodup) (p : α → Bool) :
    ((rows.filter p).map key).Nodup := h.sublist (List.filter_sublist.map key)

/-- `WHERE p ORDER BY key LIMIT n` reads the least keys among the rows that satisfy `p`. -/
theorem least_orderBy {key : α → κ} {rows : List α} {p : α → Bool}
    (h : ((rows.filter p).map key).Nodup) (n : Nat) :
    Least {x | ∃ row ∈ rows, p row ∧ key row = x} n
      (((orderBy key (rows.filter p)).take n).map key) := by
  rw [List.map_take]
  refine least_take (orderBy_ascending h) (fun x => ?_) n
  simp only [List.mem_map, mem_orderBy, List.mem_filter, Set.mem_ofPred_eq, and_assoc]

/-- `SELECT DISTINCT x ... LIMIT n` reads the least of the selected values. -/
theorem least_distinct (xs : List κ) (n : Nat) :
    Least {x | x ∈ xs} n ((distinct xs).take n) :=
  least_take (distinct_ascending xs) (fun _ => mem_distinct) n

@[simp] theorem mem_join {key : α → κ} {xs : List κ} {rows : List α} {row : α} :
    row ∈ join key xs rows ↔ row ∈ rows ∧ key row ∈ xs := by
  simp only [join, List.mem_flatMap, List.mem_filter, decide_eq_true_eq]
  exact ⟨fun ⟨x, hx, hr, he⟩ => ⟨hr, he ▸ hx⟩, fun ⟨hr, hx⟩ => ⟨key row, hx, hr, rfl⟩⟩

/-- Rows of a table are told apart by a key that tells them apart in it. -/
theorem eq_of_map_eq {β γ : Type*} {f : β → γ} {xs ys : List β}
    (hinj : ∀ x ∈ xs, ∀ y ∈ ys, f x = f y → x = y) (h : xs.map f = ys.map f) : xs = ys := by
  induction xs generalizing ys with
  | nil => simpa [eq_comm] using h
  | cons x xs ih =>
    cases ys with
    | nil => simp at h
    | cons y ys =>
      rw [List.map_cons, List.map_cons, List.cons.injEq] at h
      obtain rfl := hinj x (by simp) y (by simp) h.1
      rw [ih (fun a ha b hb => hinj a (List.mem_cons_of_mem _ ha) b (List.mem_cons_of_mem _ hb)) h.2]

theorem filter_key {key : α → κ} {rows : List α} (h : (rows.map key).Nodup) {row : α}
    (hr : row ∈ rows) : rows.filter (fun r => key r = key row) = [row] := by
  induction rows with
  | nil => simp at hr
  | cons r rows ih =>
    rw [List.map_cons, List.nodup_cons] at h
    obtain rfl | hr := List.mem_cons.mp hr
    · rw [List.filter_cons_of_pos (by simp), List.cons.injEq]
      refine ⟨rfl, List.filter_eq_nil_iff.mpr fun r' hr' he => h.1 ?_⟩
      exact List.mem_map.mpr ⟨r', hr', by simpa using he⟩
    · rw [List.filter_cons_of_neg, ih h.2 hr]
      intro he
      exact h.1 (List.mem_map.mpr ⟨row, hr, by simpa using Eq.symm (by simpa using he)⟩)

/-- A join on a unique key keeps the joined values as they stand, none lost and none repeated. -/
theorem map_join {key : α → κ} {rows : List α} (h : (rows.map key).Nodup) {xs : List κ}
    (hx : ∀ x ∈ xs, x ∈ rows.map key) : (join key xs rows).map key = xs := by
  induction xs with
  | nil => rfl
  | cons x xs ih =>
    obtain ⟨row, hr, rfl⟩ := List.mem_map.mp (hx x (by simp))
    have hi := ih fun y hy => hx y (List.mem_cons_of_mem _ hy)
    rw [join, List.flatMap_cons, List.map_append, filter_key h hr]
    simpa [join] using hi

theorem orderBy_join {key : α → κ} {rows : List α} (h : (rows.map key).Nodup) {xs : List κ}
    (hx : ∀ x ∈ xs, x ∈ rows.map key) (hs : xs.Pairwise (· < ·)) :
    orderBy key (join key xs rows) = join key xs rows :=
  orderBy_eq_self (by rwa [map_join h hx])

/-- Under a filter and a limit that all of its keys meet already, a join is left as it is. -/
theorem limited_join {key : α → κ} {rows : List α} (h : (rows.map key).Nodup) {xs : List κ}
    (hx : ∀ x ∈ xs, x ∈ rows.map key) (hs : xs.Pairwise (· < ·)) {p : α → Bool}
    (hp : ∀ row, key row ∈ xs → p row) {n : Nat} (hn : xs.length ≤ n) :
    (orderBy key ((join key xs rows).filter p)).take n = join key xs rows := by
  have hall : (join key xs rows).filter p = join key xs rows :=
    List.filter_eq_self.mpr fun row hr => hp row (mem_join.mp hr).2
  have hlen : (join key xs rows).length ≤ n := by
    rw [← List.length_map key, map_join h hx]
    exact hn
  rw [hall, orderBy_join h hx hs, List.take_of_length_le hlen]

end Rows
