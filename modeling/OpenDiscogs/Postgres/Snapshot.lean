import OpenDiscogs.Library.Rows
import OpenDiscogs.Library.Strconv
import OpenDiscogs.Postgres.Reads

/-! The state of the imports: one row for each imported collection, under the state of the whole
catalog. -/
namespace OpenDiscogs.Postgres
open Utf8 SqlText Calendar Catalog Rows

structure ReadinessRow where
  ready : Bool
  status : Text
  updatedAt : Int

structure EntityStateRow where
  entityType : Text
  status : Text

structure ImportCheckpointRow where
  entityType : Text
  dumpDate : Option Date := none
  appliedAt : Option Int := none
  processor : Option Text := none
  processorVersion : Option Text := none

structure SnapshotTables where
  readiness : List ReadinessRow := []
  entityState : List EntityStateRow := []
  importCheckpoint : List ImportCheckpointRow := []

/-- Both tables that speak of a collection have one row for it at most, and the catalog has one
state at most. -/
structure SnapshotTables.Canonical (t : SnapshotTables) : Prop where
  readinessUnique : t.readiness.length ≤ 1
  entityKey : (t.entityState.map (·.entityType)).Nodup
  checkpointKey : (t.importCheckpoint.map (·.entityType)).Nodup

instance (t : SnapshotTables) : Decidable t.Canonical :=
  decidable_of_iff (t.readiness.length ≤ 1 ∧ (t.entityState.map (·.entityType)).Nodup ∧
      (t.importCheckpoint.map (·.entityType)).Nodup)
    ⟨fun ⟨a, b, c⟩ => ⟨a, b, c⟩, fun ⟨a, b, c⟩ => ⟨a, b, c⟩⟩

def querySnapshotError := "query catalog snapshot"
def emptySnapshotError := "query catalog snapshot: canonical catalog state is empty"

/-- A number with zeros in front, up to a width. -/
def zeroPadded (width n : Nat) : List Char :=
  List.replicate (width-(Nat.toDigits 10 n).length) '0' ++ Nat.toDigits 10 n

/-- `to_char(d, 'YYYY-MM-DD')`; years before Christ are counted backwards from one. -/
def toChar (d : Date) : List Char :=
  zeroPadded 4 d.extractYear.natAbs ++ '-'::zeroPadded 2 d.month ++ '-'::zeroPadded 2 d.day

def toCharText (d : Date) : Option Text :=
  if legal : nul ∉ toChar d then some ⟨toChar d, legal⟩ else none

/-- `CASE state.entity_type WHEN ... END`: other types have no place, and nulls come last. -/
def entityRank (entityType : Text) : Nat :=
  if entityType = Text.of "artist" then 1
  else if entityType = Text.of "label" then 2
  else if entityType = Text.of "master" then 3
  else if entityType = Text.of "release" then 4
  else 5

structure SnapshotRow where
  ready : Bool
  status : Text
  updatedAt : Int
  entity : SnapshotEntity

def snapshotRow (readiness : ReadinessRow) (state : EntityStateRow)
    (checkpoint : Option ImportCheckpointRow) : SnapshotRow where
  ready := readiness.ready
  status := readiness.status
  updatedAt := readiness.updatedAt
  entity :=
    { entityType := state.entityType
      status := state.status
      dumpDate := (checkpoint.bind (·.dumpDate)).bind toCharText
      appliedAt := checkpoint.bind (·.appliedAt)
      processor := checkpoint.bind (·.processor)
      processorVersion := checkpoint.bind (·.processorVersion) }

/-- `LEFT JOIN`: a row without a partner is kept, with nulls for it. -/
def leftJoin {α β : Type} (rows : List α) (partners : List β) (on : α → β → Bool) :
    List (α × Option β) :=
  rows.flatMap fun row =>
    match partners.filter (on row) with
    | [] => [(row, none)]
    | matching => matching.map fun partner => (row, some partner)

def snapshotSQL (t : SnapshotTables) : List SnapshotRow :=
  let crossed := t.readiness.flatMap fun readiness => t.entityState.map fun state =>
    (readiness, state)
  orderBy (fun row : SnapshotRow => entityRank row.entity.entityType)
    ((leftJoin crossed t.importCheckpoint fun pair checkpoint =>
      checkpoint.entityType = pair.2.entityType).map fun row =>
        snapshotRow row.1.1 row.1.2 row.2)

/-- The state of the whole catalog is that of the first row. -/
def collectSnapshot : List SnapshotRow → Result CatalogSnapshot
  | [] => .error (.other emptySnapshotError)
  | item::items => .value
    { ready := item.ready
      status := item.status
      updatedAt := item.updatedAt
      entities := (item::items).map (·.entity) }

def Store.snapshot (t : SnapshotTables) : Result CatalogSnapshot := do
  let items ← operationError querySnapshotError
    (collectRows (fun row => .value row) (snapshotSQL t))
  collectSnapshot items

/-- What is known of a collection's import, as a row of the snapshot. -/
def importOf (t : SnapshotTables) (entityType : Text) : Option ImportCheckpointRow :=
  t.importCheckpoint.find? fun checkpoint => checkpoint.entityType = entityType

theorem filter_key_eq {t : SnapshotTables} (hc : t.Canonical) (entityType : Text) :
    (t.importCheckpoint.filter fun checkpoint => checkpoint.entityType = entityType) =
      (importOf t entityType).toList := by
  have hn := hc.checkpointKey
  unfold importOf
  generalize t.importCheckpoint = checkpoints at hn
  induction checkpoints with
  | nil => rfl
  | cons row rows ih =>
    rw [List.map_cons, List.nodup_cons] at hn
    by_cases hrow : row.entityType = entityType
    · have hnone : (rows.filter fun checkpoint => checkpoint.entityType = entityType) = [] := by
        refine List.filter_eq_nil_iff.mpr fun other hother he => ?_
        have heq : other.entityType = entityType := by simpa using he
        exact hn.1 (hrow ▸ heq ▸ List.mem_map_of_mem hother)
      simp [hrow, hnone]
    · simp [hrow, ih hn.2]

/-- One row for each collection, with its import or nulls. -/
theorem leftJoin_checkpoints {t : SnapshotTables} (hc : t.Canonical)
    (pairs : List (ReadinessRow × EntityStateRow)) :
    (leftJoin pairs t.importCheckpoint fun pair checkpoint =>
      checkpoint.entityType = pair.2.entityType) =
      pairs.map fun pair => (pair, importOf t pair.2.entityType) := by
  induction pairs with
  | nil => rfl
  | cons pair pairs ih =>
    rw [leftJoin, List.flatMap_cons, List.map_cons, ← ih, filter_key_eq hc, leftJoin]
    cases importOf t pair.2.entityType <;> rfl

theorem collectRows_value {α : Type} (rows : List α) :
    collectRows (fun row => .value row) rows = .value rows := by
  induction rows with
  | nil => rfl
  | cons row rows ih => simp only [collectRows, ih, Outcome.value_bind, Outcome.pure_eq]

theorem orderBy_map {α β κ : Type} [LinearOrder κ] (key : β → κ) (f : α → β) (rows : List α) :
    (orderBy (fun row => key (f row)) rows).map f = orderBy key (rows.map f) :=
  List.map_insertionSort (fun a b => key (f a) ≤ key (f b)) (fun a b => key a ≤ key b) f rows
    fun _ _ _ _ => Iff.rfl

/-- On a canonical state the rows of the snapshot are the collections, in the order of the catalog,
under its one state. -/
theorem snapshotSQL_eq {t : SnapshotTables} (hc : t.Canonical) {readiness : ReadinessRow}
    {rest : List ReadinessRow} (h : t.readiness = readiness::rest) :
    snapshotSQL t = (orderBy (fun state => entityRank state.entityType) t.entityState).map
      fun state => snapshotRow readiness state (importOf t state.entityType) := by
  have hrest : rest = [] := by
    have := hc.readinessUnique
    rw [h, List.length_cons] at this
    exact List.length_eq_zero_iff.mp (by omega)
  simp only [snapshotSQL, h, hrest, List.flatMap_cons, List.flatMap_nil, List.append_nil,
    leftJoin_checkpoints hc, List.map_map]
  exact (orderBy_map _ _ _).symm

/-- Without a state of the catalog there are no rows. -/
theorem snapshotSQL_nil {t : SnapshotTables} (h : t.readiness = []) : snapshotSQL t = [] := by
  simp [snapshotSQL, h, leftJoin, orderBy]

theorem snapshot_collects (t : SnapshotTables) :
    Store.snapshot t = collectSnapshot (snapshotSQL t) := by
  rw [Store.snapshot, collectRows_value, operationError_value, Outcome.value_bind]

/-- The snapshot of a canonical state lists every collection once, in the order of the catalog,
with what is known of its import; there is none exactly when the catalog or its collections have
no state. -/
theorem snapshot_eq {t : SnapshotTables} (hc : t.Canonical) : Store.snapshot t =
    match t.readiness, t.entityState with
    | [], _ => .error (.other emptySnapshotError)
    | _, [] => .error (.other emptySnapshotError)
    | readiness::_, _ => .value
      { ready := readiness.ready
        status := readiness.status
        updatedAt := readiness.updatedAt
        entities := (orderBy (fun state => entityRank state.entityType) t.entityState).map
          fun state => (snapshotRow readiness state (importOf t state.entityType)).entity } := by
  rw [snapshot_collects]
  cases hreadiness : t.readiness with
  | nil =>
    rw [snapshotSQL_nil hreadiness]
    rfl
  | cons readiness rest =>
    rw [snapshotSQL_eq hc hreadiness]
    cases hstates : orderBy (fun state : EntityStateRow => entityRank state.entityType)
        t.entityState with
    | nil =>
      have hnil : t.entityState = [] := by
        have hperm := orderBy_perm (fun state : EntityStateRow => entityRank state.entityType)
          t.entityState
        rw [hstates] at hperm
        exact hperm.symm.eq_nil
      rw [hnil]
      rfl
    | cons state states =>
      cases hs : t.entityState with
      | nil =>
        rw [hs] at hstates
        cases hstates
      | cons other others =>
        simp only [List.map_cons, collectSnapshot, List.map_map]
        rfl

/-- A snapshot has the state of the catalog, and the collections in its order. -/
theorem snapshot_value {t : SnapshotTables} (hc : t.Canonical) {snapshot : CatalogSnapshot}
    (h : Store.snapshot t = .value snapshot) :
    ∃ readiness ∈ t.readiness, snapshot.status = readiness.status ∧
      snapshot.entities = (orderBy (fun state => entityRank state.entityType) t.entityState).map
        fun state => (snapshotRow readiness state (importOf t state.entityType)).entity := by
  rw [snapshot_collects] at h
  cases hreadiness : t.readiness with
  | nil =>
    rw [snapshotSQL_nil hreadiness] at h
    cases h
  | cons readiness rest =>
    rw [snapshotSQL_eq hc hreadiness] at h
    refine ⟨readiness, List.mem_cons_self, ?_⟩
    cases hstates : orderBy (fun state : EntityStateRow => entityRank state.entityType)
        t.entityState with
    | nil =>
      rw [hstates] at h
      cases h
    | cons state states =>
      rw [hstates] at h
      cases h
      refine ⟨rfl, ?_⟩
      simp only [List.map_cons, List.map_map]
      rfl

/-- A catalog whose collections are stored in another order; one of them was imported. -/
def importedTables : SnapshotTables where
  readiness := [{ ready := false, status := Text.of "importing", updatedAt := 9 }]
  entityState := [{ entityType := Text.of "release", status := Text.of "bootstrap_pending" },
    { entityType := Text.of "artist", status := Text.of "ready" },
    { entityType := Text.of "master", status := Text.of "bootstrap_pending" },
    { entityType := Text.of "label", status := Text.of "importing" }]
  importCheckpoint := [{ entityType := Text.of "artist", appliedAt := some 7 }]

/-- A collection that was never imported. -/
def neverImported (entityType status : Text) : SnapshotEntity where
  entityType := entityType
  status := status
  dumpDate := none
  appliedAt := none
  processor := none
  processorVersion := none

theorem snapshot_imported : Store.snapshot importedTables = .value
    { ready := false, status := Text.of "importing", updatedAt := 9
      entities := [
        { neverImported (Text.of "artist") (Text.of "ready") with appliedAt := some 7 },
        neverImported (Text.of "label") (Text.of "importing"),
        neverImported (Text.of "master") (Text.of "bootstrap_pending"),
        neverImported (Text.of "release") (Text.of "bootstrap_pending")] } := by
  rw [snapshot_eq (by decide)]
  rfl

end OpenDiscogs.Postgres
