import OpenDiscogs.Library.Keyset

/-! A client that follows the cursors of a paged service: the requests it makes, the replies it
gets, and what it has received when it stops. -/
namespace Keyset
variable {κ α σ : Type*}

/-- One page, the cursor of the next one and whether there is a next one. -/
structure Reply (κ α : Type*) where
  items : List α
  next : Option κ
  hasMore : Bool

section Client
variable (ask : Option κ → σ → Option (Reply κ α))

/-- The cursor and the visit of each request. The client passes on the cursor it was given, and
stops when there is no more, when a request is not answered or when its visits run out. -/
def requests : Option κ → List σ → List (Option κ × σ)
  | _, [] => []
  | c, v::visits => (c, v)::match ask c v with
    | some reply => if reply.hasMore then requests reply.next visits else []
    | none => []

def replies (c : Option κ) (visits : List σ) : List (Reply κ α) :=
  (requests ask c visits).filterMap fun request => ask request.1 request.2

end Client

/-- Some page said that there is no more. -/
def finished (rs : List (Reply κ α)) : Bool := rs.any fun reply => !reply.hasMore

/-- The service ended the walk: it said that there is no more, or left a request unanswered. -/
def Ended (rs : List (Reply κ α)) (visits : List σ) : Prop :=
  finished rs = true ∨ rs.length < visits.length

instance (rs : List (Reply κ α)) (visits : List σ) : Decidable (Ended rs visits) :=
  inferInstanceAs (Decidable (_ ∨ _))

def received (rs : List (Reply κ α)) : List α := rs.flatMap (·.items)

variable {ask : Option κ → σ → Option (Reply κ α)}

theorem requests_some {c : Option κ} {v : σ} {reply : Reply κ α} (h : ask c v = some reply)
    (visits : List σ) : requests ask c (v::visits) =
      (c, v)::if reply.hasMore then requests ask reply.next visits else [] := by
  rw [requests, h]

theorem replies_some {c : Option κ} {v : σ} {reply : Reply κ α} (h : ask c v = some reply)
    (visits : List σ) : replies ask c (v::visits) =
      reply::if reply.hasMore then replies ask reply.next visits else [] := by
  rw [replies, requests_some h, List.filterMap_cons, h]
  cases reply.hasMore <;> rfl

theorem mem_replies {c : Option κ} {visits : List σ} {reply : Reply κ α} :
    reply ∈ replies ask c visits ↔
      ∃ request ∈ requests ask c visits, ask request.1 request.2 = some reply :=
  List.mem_filterMap

/-- Only visits the client was given are made. -/
theorem visit_of_request {c : Option κ} {visits : List σ} {request : Option κ × σ}
    (h : request ∈ requests ask c visits) : request.2 ∈ visits := by
  induction visits generalizing c with
  | nil => simp [requests] at h
  | cons v visits ih =>
    rw [requests] at h
    obtain rfl | h := List.mem_cons.mp h
    · simp
    · split at h
      · split at h
        · exact List.mem_cons_of_mem v (ih h)
        · simp at h
      · simp at h

theorem replies_comap {τ : Type*} (g : τ → σ) (c : Option κ) (visits : List τ) :
    replies ask c (visits.map g) = replies (fun c v => ask c (g v)) c visits := by
  induction visits generalizing c with
  | nil => rfl
  | cons v visits ih =>
    cases hr : ask c (g v) with
    | none => simp [replies, requests, hr]
    | some reply =>
      rw [List.map_cons, replies_some hr, ih]
      exact (@replies_some _ _ _ (fun c v => ask c (g v)) c v reply hr visits).symm

/-- What holds of the first cursor and is passed on by every reply holds of every request. -/
theorem requests_inv {P : Option κ → Prop} {c : Option κ} {visits : List σ} (h0 : P c)
    (hstep : ∀ c v reply, P c → ask c v = some reply → P reply.next) :
    ∀ request ∈ requests ask c visits, P request.1 := by
  induction visits generalizing c with
  | nil => simp [requests]
  | cons v visits ih =>
    intro request h
    rw [requests] at h
    obtain rfl | h := List.mem_cons.mp h
    · exact h0
    · split at h
      · next reply hr =>
        split at h
        · exact ih (hstep c v reply h0 hr) request h
        · simp at h
      · simp at h

/-- A client that is answered every time either finishes or uses up its visits. -/
theorem replies_length {c : Option κ} {visits : List σ}
    (h : ∀ request ∈ requests ask c visits, (ask request.1 request.2).isSome) :
    finished (replies ask c visits) = true ∨ (replies ask c visits).length = visits.length := by
  induction visits generalizing c with
  | nil => exact Or.inr rfl
  | cons v visits ih =>
    obtain ⟨reply, hr⟩ := Option.isSome_iff_exists.mp (h (c, v) (by simp [requests]))
    rw [requests_some hr] at h
    rw [replies_some hr]
    cases hm : reply.hasMore with
    | false => exact Or.inl (by simp [finished, hm])
    | true =>
      rw [hm] at h
      obtain hf | hl := ih fun request hq => h request (List.mem_cons_of_mem _ hq)
      · exact Or.inl (by simpa [finished, hm] using hf)
      · exact Or.inr (by simpa using hl)

theorem flatten_keys (key : α → κ) (rs : List (Reply κ α)) :
    (rs.map fun reply => reply.items.map key).flatten = (received rs).map key := by
  rw [received, List.map_flatMap, List.flatMap_def]

/-- The same reply under another name for the cursor. -/
def Reply.mapNext {μ : Type*} (f : κ → μ) (reply : Reply κ α) : Reply μ α where
  items := reply.items
  next := reply.next.map f
  hasMore := reply.hasMore

/-- A client that is handed opaque names of cursors gets the replies that the cursors would get. -/
theorem replies_mapNext {μ : Type*} {f : κ → μ} {ask' : Option μ → σ → Option (Reply μ α)}
    (h : ∀ c v, ask' (c.map f) v = (ask c v).map (Reply.mapNext f)) (c : Option κ)
    (visits : List σ) :
    replies ask' (c.map f) visits = (replies ask c visits).map (Reply.mapNext f) := by
  induction visits generalizing c with
  | nil => rfl
  | cons v visits ih =>
    cases hr : ask c v with
    | none => simp [replies, requests, h, hr]
    | some reply =>
      have hr' : ask' (c.map f) v = some (reply.mapNext f) := by rw [h, hr]; rfl
      rw [replies_some hr, replies_some hr', List.map_cons, apply_ite (List.map _), ← ih]
      rfl

theorem finished_mapNext {μ : Type*} (f : κ → μ) (rs : List (Reply κ α)) :
    finished (rs.map (Reply.mapNext f)) = finished rs := by
  simp [finished, List.any_map, Function.comp_def, Reply.mapNext]

theorem received_mapNext {μ : Type*} (f : κ → μ) (rs : List (Reply κ α)) :
    received (rs.map (Reply.mapNext f)) = received rs := by
  simp [received, List.flatMap_map, Reply.mapNext]

/-- A client that is answered every time finishes unless it gives up. -/
theorem finished_of_ended {c : Option κ} {visits : List σ}
    (h : ∀ request ∈ requests ask c visits, (ask request.1 request.2).isSome)
    (he : Ended (replies ask c visits) visits) : finished (replies ask c visits) = true := by
  obtain hf | hl := replies_length h
  · exact hf
  · obtain hf | hlt := he
    · exact hf
    · omega

variable [LinearOrder κ]

/-- The reply that a paged read of a set owes to a cursor: the first `n` elements above it, the
last of them as the next cursor if there are more. -/
structure Serves (key : α → κ) (S : Set κ) (n : Nat) (c : Option κ) (reply : Reply κ α) : Prop where
  page : ∃ l, Least (S ∩ beyond c) (n+1) l ∧ reply.items.map key = l.take n ∧
    reply.hasMore = decide (n < l.length)
  next : reply.next = if reply.hasMore then (reply.items.map key).getLast? else none

section Served
variable {key : α → κ} {S : Set κ} {n : Nat} {c : Option κ} {reply : Reply κ α}

theorem Serves.next_isSome (h : Serves key S n c reply) (hn : 0 < n) :
    reply.next.isSome = reply.hasMore := by
  obtain ⟨l, hl, hi, hm⟩ := h.page
  rw [h.next]
  cases hb : reply.hasMore with
  | false => rfl
  | true =>
    rw [hb, eq_comm, decide_eq_true_eq] at hm
    have hne : l.take n ≠ [] := by
      rw [← List.length_pos_iff, List.length_take]
      omega
    rw [if_pos rfl, hi, List.getLast?_eq_some_getLast hne, Option.isSome_some]

/-- The cursor handed out is an element of the set read, above the cursor it came from. -/
theorem Serves.next_mem (h : Serves key S n c reply) {k : κ} (hk : reply.next = some k) :
    k ∈ S ∩ beyond c := by
  obtain ⟨l, hl, hi, -⟩ := h.page
  rw [h.next, hi] at hk
  split at hk
  · exact hl.sound k (List.mem_of_mem_take (List.mem_of_getLast? hk))
  · cases hk

end Served

variable {key : α → κ} {S : σ → Set κ} {n : σ → Nat} {c : Option κ} {visits : List σ}

/-- What the requests of a client have to be answered with. -/
def Served (ask : Option κ → σ → Option (Reply κ α)) (key : α → κ) (S : σ → Set κ) (n : σ → Nat)
    (c : Option κ) (visits : List σ) : Prop :=
  ∀ request ∈ requests ask c visits, ∃ reply, ask request.1 request.2 = some reply ∧
    Serves key (S request.2) (n request.2) request.1 reply

/-- A client that is served walks over the sets it visits. -/
theorem Served.walk (h : Served ask key S n c visits) (hn : ∀ v ∈ visits, 0 < n v) :
    Walk c (visits.map fun v => (S v, n v))
      ((replies ask c visits).map fun reply => reply.items.map key)
      (finished (replies ask c visits)) := by
  induction visits generalizing c with
  | nil => exact Walk.halted c
  | cons v visits ih =>
    obtain ⟨reply, hr, hs⟩ := h (c, v) (by simp [requests])
    obtain ⟨l, hl, hi, hm⟩ := hs.page
    rw [Served, requests_some hr] at h
    rw [replies_some hr, List.map_cons]
    cases hb : reply.hasMore with
    | false =>
      rw [hb, eq_comm, decide_eq_false_iff_not, not_lt] at hm
      have hall : l.take (n v) = l := List.take_of_length_le hm
      simpa [finished, hb, hi, hall] using Walk.last hl hm
    | true =>
      have hsome := hs.next_isSome (hn v (by simp))
      rw [hb] at hm h hsome
      obtain ⟨k, hk⟩ := Option.isSome_iff_exists.mp hsome
      have hlast : (l.take (n v)).getLast? = some k := by
        rw [← hi, ← hk, hs.next, hb]
        rfl
      have hrest := ih (c := reply.next) (fun request hq => h request (List.mem_cons_of_mem _ hq))
        fun w hw => hn w (List.mem_cons_of_mem v hw)
      rw [hk] at hrest
      simpa [finished, hb, hi, hk] using
        Walk.more hl (of_decide_eq_true hm.symm) hlast hrest

theorem Served.isSome (h : Served ask key S n c visits) :
    ∀ request ∈ requests ask c visits, (ask request.1 request.2).isSome := by
  intro request hq
  obtain ⟨reply, hr, -⟩ := h request hq
  rw [hr]
  rfl

/-- The keys received ascend strictly. -/
theorem Served.ascending (h : Served ask key S n c visits) (hn : ∀ v ∈ visits, 0 < n v) :
    ((received (replies ask c visits)).map key).Pairwise (· < ·) := by
  rw [← flatten_keys]
  exact (h.walk hn).ascending

/-- A finished walk has received what every visited set contains. -/
theorem Served.covers (h : Served ask key S n c visits) (hn : ∀ v ∈ visits, 0 < n v)
    (hf : finished (replies ask c visits) = true) {x : κ} (hx : x ∈ beyond c)
    (hv : ∀ v ∈ visits, x ∈ S v) : x ∈ (received (replies ask c visits)).map key := by
  rw [← flatten_keys]
  refine (h.walk hn).covers hf hx fun v hm => ?_
  obtain ⟨w, hw, rfl⟩ := List.mem_map.mp hm
  exact hv w hw

/-- Nothing is received that no visited set contains. -/
theorem Served.sound (h : Served ask key S n c visits) (hn : ∀ v ∈ visits, 0 < n v) {x : κ}
    (hx : x ∈ (received (replies ask c visits)).map key) : ∃ v ∈ visits, x ∈ S v := by
  rw [← flatten_keys] at hx
  obtain ⟨v, hv, hxv⟩ := (h.walk hn).sound hx
  obtain ⟨w, hw, rfl⟩ := List.mem_map.mp hv
  exact ⟨w, hw, hxv⟩

/-- Over a set that stays the same, a finished walk receives exactly the set above its first
cursor, in order. -/
theorem Served.exact (h : Served ask key S n c visits) (hn : ∀ v ∈ visits, 0 < n v)
    (hf : finished (replies ask c visits) = true) {T : Set κ} (hv : ∀ v ∈ visits, S v = T)
    {all : List κ} (hs : all.Pairwise (· < ·)) (ha : ∀ x, x ∈ all ↔ x ∈ T ∩ beyond c) :
    (received (replies ask c visits)).map key = all := by
  refine ascending_ext (h.ascending hn) hs fun x => ⟨fun hx => ?_, fun hx => ?_⟩
  · obtain ⟨v, hm, hxv⟩ := h.sound hn hx
    have hb : x ∈ Keyset.beyond c := (h.walk hn).beyond x (by rwa [flatten_keys])
    exact (ha x).mpr ⟨hv v hm ▸ hxv, hb⟩
  · have hx' := (ha x).mp hx
    exact h.covers hn hf hx'.2 fun v hm => (hv v hm).symm ▸ hx'.1

/-- While the set and the page size stay the same, a walk finishes after as many pages as the set
fills above its first cursor, as soon as it has that many visits. -/
theorem Served.constant (h : Served ask key S n c visits) {T : Set κ} {m : Nat} (hm : 0 < m)
    (hv : ∀ v ∈ visits, S v = T ∧ n v = m) {all : List κ} (hs : all.Pairwise (· < ·))
    (ha : ∀ x, x ∈ all ↔ x ∈ T ∩ beyond c) (hlen : pageCount all.length m ≤ visits.length) :
    finished (replies ask c visits) = true ∧
      (replies ask c visits).length = pageCount all.length m := by
  have hn : ∀ v ∈ visits, 0 < n v := fun v hw => (hv v hw).2 ▸ hm
  have hw := h.walk hn
  have hc : ∀ v ∈ visits.map fun v => (S v, n v), v = (T, m) := by
    intro v hvm
    obtain ⟨w, hw, rfl⟩ := List.mem_map.mp hvm
    rw [(hv w hw).1, (hv w hw).2]
  have hf : finished (replies ask c visits) = true := by
    by_contra hne
    have := hw.unfinished (Bool.eq_false_of_not_eq_true hne) hm hc hs ha
    rw [List.length_map] at this
    omega
  have hcount := (hw.constant hf hm hc hs ha).2
  rw [List.length_map] at hcount
  exact ⟨hf, hcount⟩

end Keyset
