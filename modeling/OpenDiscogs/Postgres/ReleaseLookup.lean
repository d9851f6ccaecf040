import OpenDiscogs.Postgres.Search

/-! Releases by the exact catalog number of a label, and by an exact identifier. -/
namespace OpenDiscogs.Postgres
open Utf8 SqlText Catalog Rows Keyset

def matchingCatalogNumber (t : Tables) (labelID : Int) (catalogNumber : Text) (afterID : Int)
    (limit : Nat) : List Int :=
  let selected := t.labelReleaseItem.filter fun r =>
    r.labelID = labelID && r.categoryNotation = some catalogNumber && afterID < r.releaseItemID
  ((orderBy (·.releaseItemID) selected).take limit).map (·.releaseItemID)

def releasesByCatalogNumberSQL (t : Tables) (labelID : Int) (catalogNumber : Text) (afterID : Int)
    (limit : Nat) : List ReleaseColumns :=
  let matching := matchingCatalogNumber t labelID catalogNumber afterID limit
  (orderBy (·.id) (join (·.id) matching t.releaseItem)).map releaseColumnsSQL

/-- The hash equality narrows the rows for the index; the equality of the values decides. -/
def identifierMatches (server : Server) (type value : Text) (r : ReleaseItemIdentifierRow) : Bool :=
  r.type.map (Text.lower server) = some (type.lower server) &&
  r.value.map server.md5 = some (server.md5 value) && r.value = some value

def matchingIdentifier (t : Tables) (type value : Text) (afterID : Int) (limit : Nat) : List Int :=
  let selected := t.releaseItemIdentifier.filter fun r =>
    identifierMatches t.server type value r && afterID < r.releaseItemID
  (distinct (selected.map (·.releaseItemID))).take limit

def releasesByIdentifierSQL (t : Tables) (type value : Text) (afterID : Int) (limit : Nat) :
    List ReleaseColumns :=
  let matching := matchingIdentifier t type value afterID limit
  (orderBy (·.id) (join (·.id) matching t.releaseItem)).map releaseColumnsSQL

def queryReleasesByCatalogNumberError := "query releases by catalog number"
def queryReleasesByIdentifierError := "query releases by identifier"

def Store.releasesByCatalogNumber (_ : Store) (t : Tables) (lookup : CatalogNumberLookup)
    (request : PageRequest) : Result (Page Release) :=
  loadPage request.size (operationError queryReleasesByCatalogNumberError do
    let labelID ← integerParameter lookup.labelID
    let catalogNumber ← textParameter lookup.catalogNumber
    let afterID ← integerParameter request.afterID
    let limit ← limitParameter request.fetchSize
    collectRows scanRelease (releasesByCatalogNumberSQL t labelID catalogNumber afterID limit))

def Store.releasesByIdentifier (_ : Store) (t : Tables) (lookup : IdentifierLookup)
    (request : PageRequest) : Result (Page Release) :=
  loadPage request.size (operationError queryReleasesByIdentifierError do
    let type ← textParameter lookup.type
    let value ← textParameter lookup.value
    let afterID ← integerParameter request.afterID
    let limit ← limitParameter request.fetchSize
    collectRows scanRelease (releasesByIdentifierSQL t type value afterID limit))

end OpenDiscogs.Postgres
