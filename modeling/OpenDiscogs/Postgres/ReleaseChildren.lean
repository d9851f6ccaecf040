import OpenDiscogs.Postgres.Reads

/-! Tracks and identifiers of a release: a page query and, when the page is empty, a second
statement that asks whether the release exists. -/
namespace OpenDiscogs.Postgres
open SqlText Catalog Rows Keyset

/-- Hashes are ordered as signed integers. -/
instance hashOrder : LinearOrder Int32 where
  le_refl := Int32.le_refl
  le_trans _ _ _ := Int32.le_trans
  le_antisymm _ _ := Int32.le_antisymm
  le_total := Int32.le_total
  lt_iff_le_not_ge a b := by
    rw [Int32.not_le]
    exact ⟨fun h => ⟨Int32.le_of_lt h, h⟩, fun h => h.2⟩
  toDecidableLE := inferInstance

abbrev TrackColumns := Int32 × Option Text × Option Text × Option Text

def scanReleaseTrack : TrackColumns → Result ReleaseTrack
  | (hash, duration, position, title) => .value { hash, duration, position, title }

abbrev IdentifierColumns := Int32 × Option Text × Option Text × Option Text

def scanReleaseIdentifier : IdentifierColumns → Result ReleaseIdentifier
  | (hash, description, type, value) => .value { hash, description, type, value }

/-- `$2::integer IS NULL OR hash > $2` -/
def afterCursor (afterHash : Option Int32) (hash : Int32) : Bool :=
  match afterHash with
  | none => true
  | some after => after < hash

def trackColumns (r : ReleaseItemTrackRow) : TrackColumns :=
  (r.hash, r.duration, r.position, r.title)

def identifierColumns (r : ReleaseItemIdentifierRow) : IdentifierColumns :=
  (r.hash, r.description, r.type, r.value)

def releaseTracksSQL (t : Tables) (releaseID : Int) (afterHash : Option Int32) (limit : Nat) :
    List TrackColumns :=
  let selected := t.releaseItemTrack.filter fun r =>
    r.releaseItemID = releaseID && afterCursor afterHash r.hash
  ((orderBy (·.hash) selected).take limit).map trackColumns

def releaseIdentifiersSQL (t : Tables) (releaseID : Int) (afterHash : Option Int32)
    (limit : Nat) : List IdentifierColumns :=
  let selected := t.releaseItemIdentifier.filter fun r =>
    r.releaseItemID = releaseID && afterCursor afterHash r.hash
  ((orderBy (·.hash) selected).take limit).map identifierColumns

def releaseExistsSQL (t : Tables) (id : Int) : Bool := t.releaseItem.any (·.id = id)

def queryReleaseTracksError := "query release tracks"
def queryReleaseIdentifiersError := "query release identifiers"
def queryReleaseExistenceError := "query release existence"

/-- The first statement of a call: the page of rows after the cursor. -/
def loadChildren {α β : Type} (operation : String) (scanner : α → Result β)
    (sql : Int → Option Int32 → Nat → List α) (releaseID : Int) (request : HashPageRequest) :
    Result (HashPage β) :=
  loadHashPage request.size (operationError operation do
    let releaseID ← integerParameter releaseID
    let limit ← limitParameter request.fetchSize
    collectRows scanner (sql releaseID request.afterHash limit))

def loadReleaseTracks (t : Tables) (releaseID : Int) (request : HashPageRequest) :
    Result (HashPage ReleaseTrack) :=
  loadChildren queryReleaseTracksError scanReleaseTrack (releaseTracksSQL t) releaseID request

def loadReleaseIdentifiers (t : Tables) (releaseID : Int) (request : HashPageRequest) :
    Result (HashPage ReleaseIdentifier) :=
  loadChildren queryReleaseIdentifiersError scanReleaseIdentifier (releaseIdentifiersSQL t)
    releaseID request

def Store.requireRelease (_ : Store) (t : Tables) (releaseID : Int) : Result Unit := do
  let present ← operationError queryReleaseExistenceError do
    let releaseID ← integerParameter releaseID
    return releaseExistsSQL t releaseID
  if present then return () else .error errNotFound

/-- A page with items is returned as it is; an empty one needs the release to exist. The two
statements are separate, so each is given the state it reads. -/
def requireUnlessEmpty {α : Type} (page : Result (HashPage α)) (require : Result Unit) :
    Result (HashPage α) := do
  let page ← page
  if page.items.isEmpty then do
    require
    return page
  else return page

def Store.releaseTracks (s : Store) (atPage atExistence : Tables) (releaseID : Int)
    (request : HashPageRequest) : Result (HashPage ReleaseTrack) :=
  requireUnlessEmpty (loadReleaseTracks atPage releaseID request)
    (s.requireRelease atExistence releaseID)

def Store.releaseIdentifiers (s : Store) (atPage atExistence : Tables) (releaseID : Int)
    (request : HashPageRequest) : Result (HashPage ReleaseIdentifier) :=
  requireUnlessEmpty (loadReleaseIdentifiers atPage releaseID request)
    (s.requireRelease atExistence releaseID)

section Facts
variable {ρ α : Type} {t : Tables} {id : Int} {request : HashPageRequest}

def trackOf (r : ReleaseItemTrackRow) : ReleaseTrack where
  hash := r.hash
  duration := r.duration
  position := r.position
  title := r.title

def identifierOf (r : ReleaseItemIdentifierRow) : ReleaseIdentifier where
  hash := r.hash
  description := r.description
  type := r.type
  value := r.value

theorem scanReleaseTrack_columns (r : ReleaseItemTrackRow) :
    scanReleaseTrack (trackColumns r) = .value (trackOf r) := rfl

theorem scanReleaseIdentifier_columns (r : ReleaseItemIdentifierRow) :
    scanReleaseIdentifier (identifierColumns r) = .value (identifierOf r) := rfl

/-- The rows of a release above the cursor, up to one more than a page holds. -/
def childRows (parent : ρ → Int) (hash : ρ → Int32) (rows : List ρ) (id : Int)
    (request : HashPageRequest) : List ρ :=
  (orderBy hash (rows.filter fun r => parent r = id && afterCursor request.afterHash (hash r))).take
    request.fetchSize.toNat

theorem loadChildren_eq_value {β : Type} {operation : String} {scanner : β → Result α}
    {sql : Int → Option Int32 → Nat → List β} {columns : ρ → β} {item : ρ → α} {rows : List ρ}
    (hsql : sql id request.afterHash request.fetchSize.toNat = rows.map columns)
    (hscan : ∀ r, scanner (columns r) = .value (item r)) {page : HashPage α} :
    loadChildren operation scanner sql id request = .value page ↔
      (InRange id ∧ 0 ≤ request.fetchSize) ∧
      newHashPage (rows.map item) request.size = .value page := by
  simp only [loadChildren, loadHashPage, Outcome.bind_value, operationError_eq_value,
    integerParameter_eq_value, limitParameter_eq_value]
  constructor
  · intro h
    obtain ⟨items, ⟨_, ⟨hi, rfl⟩, _, ⟨hf, rfl⟩, hitems⟩, hp⟩ := h
    rw [hsql, collectRows_columns hscan] at hitems
    exact ⟨⟨hi, hf⟩, hitems ▸ hp⟩
  · intro h
    obtain ⟨⟨hi, hf⟩, hp⟩ := h
    refine ⟨_, ⟨_, ⟨hi, rfl⟩, _, ⟨hf, rfl⟩, ?_⟩, hp⟩
    rw [hsql, collectRows_columns hscan]

theorem loadReleaseTracks_eq_value {page : HashPage ReleaseTrack} :
    loadReleaseTracks t id request = .value page ↔ (InRange id ∧ 0 ≤ request.fetchSize) ∧
      newHashPage ((childRows (·.releaseItemID) (·.hash) t.releaseItemTrack id request).map trackOf)
        request.size = .value page :=
  loadChildren_eq_value rfl scanReleaseTrack_columns

theorem loadReleaseIdentifiers_eq_value {page : HashPage ReleaseIdentifier} :
    loadReleaseIdentifiers t id request = .value page ↔ (InRange id ∧ 0 ≤ request.fetchSize) ∧
      newHashPage ((childRows (·.releaseItemID) (·.hash) t.releaseItemIdentifier id
        request).map identifierOf) request.size = .value page :=
  loadChildren_eq_value rfl scanReleaseIdentifier_columns

theorem requireUnlessEmpty_empty {page : HashPage α} (h : page.items.isEmpty = true)
    (require : Result Unit) : requireUnlessEmpty (.value page) require =
      require >>= fun _ => pure page := by
  simp only [requireUnlessEmpty, Outcome.value_bind, h, if_true]

theorem requireUnlessEmpty_items {page : HashPage α} (h : page.items.isEmpty = false)
    (require : Result Unit) : requireUnlessEmpty (.value page) require = .value page := by
  simp only [requireUnlessEmpty, Outcome.value_bind, h, Bool.false_eq_true, if_false,
    Outcome.pure_eq]

theorem requireUnlessEmpty_eq_value {page : Result (HashPage α)} {require : Result Unit}
    {p : HashPage α} (h : requireUnlessEmpty page require = .value p) : page = .value p := by
  obtain ⟨q, hq, h⟩ := Outcome.bind_value.mp h
  split at h
  · obtain ⟨_, -, h⟩ := Outcome.bind_value.mp h
    cases h
    exact hq
  · cases h
    exact hq

theorem mem_childRows {parent : ρ → Int} {hash : ρ → Int32} {rows : List ρ} {r : ρ}
    (h : r ∈ childRows parent hash rows id request) : r ∈ rows ∧ parent r = id := by
  have hmem := List.mem_of_mem_take h
  rw [mem_orderBy, List.mem_filter, Bool.and_eq_true, decide_eq_true_eq] at hmem
  exact ⟨hmem.1, hmem.2.1⟩

/-- Every item of a page is the item of a row of the release. -/
theorem childRows_items [HashPageItem α] {parent : ρ → Int} {hash : ρ → Int32} {item : ρ → α}
    {rows : List ρ} (hs : 0 < request.size) {page : HashPage α}
    (h : newHashPage ((childRows parent hash rows id request).map item) request.size = .value page) :
    ∀ a ∈ page.items, ∃ r ∈ rows, parent r = id ∧ item r = a := by
  intro a ha
  rw [newHashPage, lookAhead_pos HashPage.mk _ hs, Outcome.value.injEq] at h
  subst h
  obtain ⟨r, hr, rfl⟩ := List.mem_map.mp (List.mem_of_mem_take ha)
  obtain ⟨hrow, hparent⟩ := mem_childRows hr
  exact ⟨r, hrow, hparent, rfl⟩

theorem releaseIdentifiers_items {s : Store} {t' : Tables} (hs : 0 < request.size)
    {page : HashPage ReleaseIdentifier}
    (h : s.releaseIdentifiers t t' id request = .value page) :
    ∀ a ∈ page.items, ∃ r ∈ t.releaseItemIdentifier, r.releaseItemID = id ∧ identifierOf r = a :=
  childRows_items hs (loadReleaseIdentifiers_eq_value.mp (requireUnlessEmpty_eq_value h)).2

theorem requireRelease_eq {s : Store} (hi : InRange id) :
    s.requireRelease t id = if releaseExistsSQL t id then .value () else .error errNotFound := by
  simp only [Store.requireRelease, integerParameter_eq hi, Outcome.value_bind, Outcome.pure_eq,
    operationError_value]

theorem releaseExistsSQL_iff : releaseExistsSQL t id = true ↔ id ∈ t.releaseItem.map (·.id) := by
  simp [releaseExistsSQL]

end Facts

end OpenDiscogs.Postgres
