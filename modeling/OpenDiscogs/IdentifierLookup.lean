import OpenDiscogs.ChildWalk
import OpenDiscogs.Walk

/-! The lookup of releases by an identifier against the identifiers that each release lists. -/
namespace OpenDiscogs
open Utf8 SqlText Catalog HttpApi Postgres Rows Keyset

/-- A listed identifier has the value, and the type but for its case. -/
def Identifies (server : Server) (type value : Text) (item : ReleaseIdentifier) : Prop :=
  item.value = some value ∧ item.type.map (Text.lower server) = some (type.lower server)

/-- The releases one of whose listed identifiers is the one looked up. -/
def identifiedReleases (t : Tables) (listed : Int → List ReleaseIdentifier) (type value : Text) :
    Set Int :=
  {x | x ∈ t.releaseItem.map (·.id) ∧ ∃ item ∈ listed x, Identifies t.server type value item}

/-- A page has the first of the releases after its cursor, and tells whether there is another. -/
structure FirstReleases (t : Tables) (S : Set Int) (request : PageRequest) (page : Page Release) :
    Prop where
  first : Least (S ∩ {x | request.afterID < x}) request.size.toNat (page.items.map (·.id))
  more : page.hasMore = true ↔
    ∃ x ∈ S, request.afterID < x ∧ x ∉ page.items.map (·.id)
  rows : ∀ item ∈ page.items, ∃ r ∈ t.releaseItem, item = releaseOf r

section Lookup
variable {s : Store} {db : Database} {rest : Repository}

/-- Whatever the hash function does, a row matches by its type and its value. -/
theorem identifierMatches_iff {server : Server} {type value : Text}
    {r : ReleaseItemIdentifierRow} :
    identifierMatches server type value r = true ↔
      Identifies server type value (identifierOf r) := by
  simp only [identifierMatches, Bool.and_eq_true, decide_eq_true_eq, Identifies, identifierOf]
  constructor
  · intro h
    obtain ⟨⟨ht, -⟩, hv⟩ := h
    exact ⟨hv, ht⟩
  · intro h
    obtain ⟨hv, ht⟩ := h
    exact ⟨⟨ht, by rw [hv, Option.map_some]⟩, hv⟩

/-- Complete walks list the rows of the releases, so the lookup and the walks meet. -/
theorem identifiedReleases_eq {listed : Int → List ReleaseIdentifier}
    (h : ∀ x ∈ db.releaseItem.map (·.id), (listed x).Perm
      ((db.releaseItemIdentifier.filter fun r => r.releaseItemID = x).map identifierOf))
    (type value : Text) :
    identifiedReleases db.toTables listed type value = identifierSet db.toTables type value := by
  ext x
  constructor
  · intro hparts
    obtain ⟨hx, item, hitem, hidentifies⟩ := hparts
    obtain ⟨r, hr, rfl⟩ := List.mem_map.mp ((h x hx).mem_iff.mp hitem)
    rw [List.mem_filter, decide_eq_true_eq] at hr
    exact ⟨r, hr.1, identifierMatches_iff.mpr hidentifies, hr.2⟩
  · intro hparts
    obtain ⟨r, hr, hmatch, rfl⟩ := hparts
    have hx := db.canonical.identifierRelease _ (List.mem_map_of_mem hr)
    refine ⟨hx, identifierOf r, (h _ hx).mem_iff.mpr ?_, identifierMatches_iff.mp hmatch⟩
    exact List.mem_map_of_mem (List.mem_filter.mpr ⟨hr, by simp⟩)

theorem lookup_first {request : PageRequest} (hs : 0 < request.size) (type value : Text) :
    FirstReleases db.toTables (identifierSet db.toTables type value) request
      (cutPage request.size ((relatedRows db.toTables
        (matchingIdentifier db.toTables type value) request).map releaseOf)) := by
  have hfetch : request.fetchSize.toNat = request.size.toNat+1 := by
    rw [PageRequest.fetchSize]
    omega
  have hl := matchingIdentifier_least db type value request.afterID request.fetchSize.toNat
  have hids : ((relatedRows db.toTables (matchingIdentifier db.toTables type value)
      request).map releaseOf).map (·.id) =
        matchingIdentifier db.toTables type value request.afterID request.fetchSize.toNat := by
    rw [List.map_map]
    exact joined_ids hl fun x hx => identifierSet_known db hx
  rw [hfetch] at hl hids
  have hlength := congrArg List.length hids
  rw [List.length_map] at hlength
  refine ⟨?_, ?_, fun item hitem => ?_⟩
  · rw [cutPage, List.map_take, hids]
    exact hl.take (Nat.le_succ _)
  · rw [cutPage, decide_eq_true_eq, List.map_take, hids, hlength, hl.more]
    simp [and_assoc]
  · obtain ⟨r, hr, rfl⟩ := List.mem_map.mp (List.mem_of_mem_take hitem)
    exact ⟨r, (mem_join.mp hr).1, rfl⟩

end Lookup

/-- A lookup by identifier pages through the releases whose complete walks list the identifier,
under any hash function. -/
theorem identifier_lookup (s : Store) (db : Database) (rest : Repository) (path : Int → Bytes)
    (sizes : Int → List PageSize)
    (hwalk : ∀ x ∈ db.releaseItem.map (·.id),
      Ended (replies (askIdentifiers (s.repository db.toTables rest) (path x) x) none (sizes x))
        (sizes x))
    (type value : Text) {request : PageRequest} (hs : 0 < request.size)
    (ha : InRange request.afterID) :
    ∃ page, s.releasesByIdentifier db.toTables ⟨type.bytes, value.bytes⟩ request = .value page ∧
      FirstReleases db.toTables (identifiedReleases db.toTables (fun x => received
        (replies (askIdentifiers (s.repository db.toTables rest) (path x) x) none (sizes x)))
        type value) request page := by
  rw [identifiedReleases_eq fun x hx =>
    (child_walk s db rest (path x) x hx (sizes x)).2.complete (hwalk x hx)]
  exact ⟨_, (releasesByIdentifier_value hs).mpr
    ⟨ha, type, ofBytes_bytes type, value, ofBytes_bytes value, rfl⟩, lookup_first hs type value⟩

/-- Two releases with one identifier between them, in two spellings of its type, a third with
another value and the same hash, and rows without type or value. -/
def sharedIdentifier : Database where
  server := cLocale
  releaseItem := [{ id := 1 }, { id := 2 }, { id := 3 }]
  releaseItemIdentifier := [⟨2, 1, none, some (Text.of "barcode"), some (Text.of "5 012")⟩,
    ⟨1, 4, none, some (Text.of "BARCODE"), some (Text.of "5 012")⟩, ⟨1, 5, none, none, none⟩,
    ⟨3, 6, none, some (Text.of "BarCode"), some (Text.of "5 013")⟩]
  canonical := by decide

theorem identifier_lookup_shared : ∃ page,
    localStore.releasesByIdentifier sharedIdentifier.toTables
      ⟨(Text.of "BarCode").bytes, (Text.of "5 012").bytes⟩ ⟨0, 1⟩ = .value page ∧
    FirstReleases sharedIdentifier.toTables (identifiedReleases sharedIdentifier.toTables
      (fun x => received (replies (askIdentifiers
        (localStore.repository sharedIdentifier.toTables emptyRepository) [] x) none
          [⟨30, by decide⟩])) (Text.of "BarCode") (Text.of "5 012")) ⟨0, 1⟩ page :=
  identifier_lookup localStore sharedIdentifier emptyRepository (fun _ => [])
    (fun _ => [⟨30, by decide⟩]) (by decide) _ _ (by decide) ⟨by decide, by decide⟩

end OpenDiscogs
