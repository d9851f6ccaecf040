import OpenDiscogs.CursorCodec
import OpenDiscogs.Library.Paging
import OpenDiscogs.Service

/-! Walks over the tracks and the identifiers of a release, from request texts to response pages:
the cursor is the hash of the last item seen, written as a numeral and base64-encoded. -/
namespace OpenDiscogs
open Utf8 UrlQuery SqlText Catalog HttpApi Postgres Rows Keyset

/-- A client's parameters: the cursor it was given, if any, and its page size. -/
def childValues (cursor : Option Bytes) (size : PageSize) : Values :=
  (cursor.map fun c => (lit parameterCursor, c)).toList ++
    [(lit parameterSize, Strconv.formatInt size.val)]

def childRequest (path : Bytes) (id : Int) (cursor : Option Bytes) (size : PageSize) : Request where
  path := path
  pathValueID := Strconv.formatInt id
  rawQuery := encode (childValues cursor size)

variable {α ρ : Type}

def hashReplyOf (response : HashPageResponse α) : Reply Bytes α where
  items := response.items
  next := response.nextCursor
  hasMore := response.hasMore

/-- `GET /releases/{id}/tracks` -/
def askTracks (repository : Repository) (path : Bytes) (id : Int) (cursor : Option Bytes)
    (size : PageSize) : Option (Reply Bytes ReleaseTrack) :=
  match answer ReleaseHandler.tracks repository (childRequest path id cursor size) with
  | some (.releaseTracks response) => some (hashReplyOf response)
  | _ => none

/-- `GET /releases/{id}/identifiers` -/
def askIdentifiers (repository : Repository) (path : Bytes) (id : Int) (cursor : Option Bytes)
    (size : PageSize) : Option (Reply Bytes ReleaseIdentifier) :=
  match answer ReleaseHandler.identifiers repository (childRequest path id cursor size) with
  | some (.releaseIdentifiers response) => some (hashReplyOf response)
  | _ => none

/-- What a walk over the children of a release promises a client that follows its cursors. -/
structure ChildWalk [HashPageItem α] (ask : Option Bytes → PageSize → Option (Reply Bytes α))
    (children : List α) (sizes : List PageSize) : Prop where
  complete : Ended (replies ask none sizes) sizes →
    (received (replies ask none sizes)).Perm children
  cursors : ∀ reply ∈ replies ask none sizes, reply.next.isSome = reply.hasMore ∧
    ∀ cursor ∈ reply.next, ∃ item, reply.items.getLast? = some item ∧
      decodeHashCursor cursor = .ok (some (HashPageItem.pageHash item)) ∧
      ∀ size : PageSize, parseHashCursorPage (childValues (some cursor) size) =
        .ok { afterHash := some (HashPageItem.pageHash item), size := size.val }
  pages : ∀ size : PageSize, (∀ v ∈ sizes, v = size) →
    pageCount children.length size ≤ sizes.length →
    finished (replies ask none sizes) = true ∧
      (replies ask none sizes).length = pageCount children.length size

theorem parseHashCursorPage_childValues (cursor : Option Int32) (size : PageSize) :
    parseHashCursorPage (childValues (cursor.map cursorOf) size) =
      .ok { afterHash := cursor, size := size.val } := by
  have hs := size.property
  have hsize : parseBoundedInt (Strconv.formatInt size.val) defaultPageSize 1 maximumPageSize
      parameterSize = .ok (size.val : Int) :=
    parseBoundedInt_written (by simp only [maximumPageSize]; omega) (by omega) _ _
  cases cursor with
  | none =>
    have hg : get (childValues none size) parameterSize = Strconv.formatInt size.val := rfl
    have hc : decodeHashCursor (get (childValues none size) parameterCursor) = .ok none := rfl
    rw [Option.map_none, parseHashCursorPage, hg, hc, hsize]
    rfl
  | some hash =>
    have hg : get (childValues (some (cursorOf hash)) size) parameterSize =
        Strconv.formatInt size.val := rfl
    have hc : get (childValues (some (cursorOf hash)) size) parameterCursor = cursorOf hash := rfl
    rw [Option.map_some, parseHashCursorPage, hg, hc, decodeHashCursor_cursorOf, hsize]
    rfl

section Release
variable {s : Store} {db : Database} {rest : Repository} {path : Bytes} {id : Int}

theorem known_range (h : id ∈ db.releaseItem.map (·.id)) : 1 ≤ id ∧ id ≤ maximumResourceID :=
  db.canonical.releaseKey.2 id h

theorem releaseChildRequest_eq (h : id ∈ db.releaseItem.map (·.id)) (cursor : Option Int32)
    (size : PageSize) :
    releaseChildRequest (childRequest path id (cursor.map cursorOf) size) =
      .ok (id, { afterHash := cursor, size := size.val }) := by
  have hid := known_range h
  have hmax : maximumResourceID < 2^63 := by decide
  have hpath : pathID (childRequest path id (cursor.map cursorOf) size) = .ok id := by
    simp only [pathID, childRequest, parseInt_written (n := id) (by omega)]
    exact if_neg (by omega)
  have hquery : (childRequest path id (cursor.map cursorOf) size).query =
      childValues (cursor.map cursorOf) size := parse_encode (by cases cursor <;> simp [childValues, defaultMaxParams])
  rw [releaseChildRequest, hpath, hquery, parseHashCursorPage_childValues]
  rfl

/-- The reply to a request that names its cursor by the hash itself. -/
def plainAsk [HashPageItem α] (parent : ρ → Int) (hash : ρ → Int32) (item : ρ → α)
    (rows : List ρ) (id : Int) (cursor : Option Int32) (size : PageSize) :
    Option (Reply Int32 α) :=
  let items := (childRows parent hash rows id { afterHash := cursor, size := size.val }).map item
  let page : HashPage α := ⟨items.take size.val, decide (size.val < items.length)⟩
  some { items := page.items, next := page.nextAfterHash, hasMore := page.hasMore }

theorem childPage (s : Store) (db : Database) {load : HashPageRequest → Result (HashPage α)} {parent : ρ → Int}
    {hash : ρ → Int32} {item : ρ → α} {rows : List ρ}
    (hload : ∀ request page, load request = .value page ↔
      (InRange id ∧ 0 ≤ request.fetchSize) ∧
        newHashPage ((childRows parent hash rows id request).map item) request.size = .value page)
    (h : id ∈ db.releaseItem.map (·.id)) (cursor : Option Int32) (size : PageSize) :
    let request : HashPageRequest := { afterHash := cursor, size := size.val }
    let items := (childRows parent hash rows id request).map item
    requireUnlessEmpty (load request) (s.requireRelease db.toTables id) =
      .value ⟨items.take size.val, decide (size.val < items.length)⟩ := by
  have hid := known_range h
  have hmax : maximumResourceID < 2^31 := by decide
  have hrange : InRange id := ⟨by omega, by omega⟩
  have hs := size.property
  intro request items
  have hpage : load request = .value ⟨items.take size.val, decide (size.val < items.length)⟩ := by
    refine (hload _ _).mpr ⟨⟨hrange, ?_⟩, ?_⟩
    · simp only [request, HashPageRequest.fetchSize]
      omega
    · have := lookAhead_pos HashPage.mk items (show (0 : Int) < size.val by omega)
      rwa [Int.toNat_natCast] at this
  rw [hpage]
  cases he : (items.take size.val).isEmpty with
  | true =>
    rw [requireUnlessEmpty_empty he, requireRelease_eq hrange,
      if_pos (releaseExistsSQL_iff.mpr h)]
    rfl
  | false => rw [requireUnlessEmpty_items he]

theorem askTracks_eq (h : id ∈ db.releaseItem.map (·.id)) (cursor : Option Int32)
    (size : PageSize) :
    askTracks (s.repository db.toTables rest) path id (cursor.map cursorOf) size =
      (plainAsk (·.releaseItemID) (·.hash) trackOf db.releaseItemTrack id cursor size).map
        (Reply.mapNext cursorOf) := by
  have hcall : ReleaseHandler.tracks (childRequest path id (cursor.map cursorOf) size) =
      .ok (.releaseTracks id { afterHash := cursor, size := size.val }) := by
    rw [ReleaseHandler.tracks, releaseChildRequest_eq h]
    rfl
  have hpage := childPage s db
    (fun request page => @loadReleaseTracks_eq_value db.toTables id request page) h cursor size
  rw [askTracks, answer_ok hcall]
  simp only [Call.run, Store.repository, Store.releaseTracks, hpage, Outcome.value_bind,
    Outcome.pure_eq, plainAsk, Option.map_some, hashReplyOf, hashPageResponse,
    encodeHashCursor_eq, Reply.mapNext]

theorem askIdentifiers_eq (h : id ∈ db.releaseItem.map (·.id)) (cursor : Option Int32)
    (size : PageSize) :
    askIdentifiers (s.repository db.toTables rest) path id (cursor.map cursorOf) size =
      (plainAsk (·.releaseItemID) (·.hash) identifierOf db.releaseItemIdentifier id cursor
        size).map (Reply.mapNext cursorOf) := by
  have hcall : ReleaseHandler.identifiers (childRequest path id (cursor.map cursorOf) size) =
      .ok (.releaseIdentifiers id { afterHash := cursor, size := size.val }) := by
    rw [ReleaseHandler.identifiers, releaseChildRequest_eq h]
    rfl
  have hpage := childPage s db
    (fun request page => @loadReleaseIdentifiers_eq_value db.toTables id request page) h cursor size
  rw [askIdentifiers, answer_ok hcall]
  simp only [Call.run, Store.repository, Store.releaseIdentifiers, hpage, Outcome.value_bind,
    Outcome.pure_eq, plainAsk, Option.map_some, hashReplyOf, hashPageResponse,
    encodeHashCursor_eq, Reply.mapNext]

end Release

section Walk
variable [HashPageItem α] {parent : ρ → Int} {hash : ρ → Int32} {item : ρ → α} {rows : List ρ}
  {id : Int}

theorem mem_beyond_afterCursor (cursor : Option Int32) (h : Int32) :
    h ∈ beyond cursor ↔ afterCursor cursor h = true := by
  cases cursor with
  | none => simp [afterCursor]
  | some k => simp [afterCursor]

/-- The page query reads the least hashes of a release above the cursor. -/
theorem childRows_least (hn : ((rows.filter fun r => parent r = id).map hash).Nodup)
    (request : HashPageRequest) :
    Least ({x | ∃ r ∈ rows, parent r = id ∧ hash r = x} ∩ beyond request.afterHash)
      request.fetchSize.toNat ((childRows parent hash rows id request).map hash) := by
  have hsub : (rows.filter fun r => parent r = id && afterCursor request.afterHash (hash r)) =
      (rows.filter fun r => parent r = id).filter fun r =>
        afterCursor request.afterHash (hash r) := by
    rw [List.filter_filter]
    exact List.filter_congr fun r _ => Bool.and_comm _ _
  have hl := least_orderBy
    (p := fun r => parent r = id && afterCursor request.afterHash (hash r))
    (hsub ▸ nodup_filter hn _) request.fetchSize.toNat
  have hset : {x | ∃ r ∈ rows, (parent r = id && afterCursor request.afterHash (hash r)) = true ∧
      hash r = x} = {x | ∃ r ∈ rows, parent r = id ∧ hash r = x} ∩ beyond request.afterHash := by
    ext x
    simp only [Set.mem_inter_iff, Set.mem_ofPred_eq, Bool.and_eq_true, decide_eq_true_eq,
      mem_beyond_afterCursor]
    constructor
    · intro h
      obtain ⟨r, hr, ⟨hp, ha⟩, rfl⟩ := h
      exact ⟨⟨r, hr, hp, rfl⟩, ha⟩
    · intro h
      obtain ⟨⟨r, hr, hp, rfl⟩, ha⟩ := h
      exact ⟨r, hr, ⟨hp, ha⟩, rfl⟩
  rwa [hset] at hl

theorem plainAsk_serves (hn : ((rows.filter fun r => parent r = id).map hash).Nodup)
    (hi : ∀ r, HashPageItem.pageHash (item r) = hash r) (cursor : Option Int32)
    (size : PageSize) : ∃ reply, plainAsk parent hash item rows id cursor size = some reply ∧
      Serves HashPageItem.pageHash {x | ∃ r ∈ rows, parent r = id ∧ hash r = x} size.val cursor
        reply := by
  have hl := childRows_least hn { afterHash := cursor, size := size.val }
  have hfetch : (HashPageRequest.fetchSize { afterHash := cursor, size := size.val }).toNat =
      size.val+1 := by
    simp only [HashPageRequest.fetchSize]
    omega
  have hkey : (fun r => HashPageItem.pageHash (item r)) = hash := funext hi
  rw [hfetch] at hl
  refine ⟨_, rfl, ⟨_, hl, ?_, ?_⟩, nextAfter_eq _ _ _⟩
  · simp only [List.map_take, List.map_map, Function.comp_def, hkey]
  · simp only [List.length_map]

/-- The children of a release in the order of their hashes. -/
theorem ordered_hashes (hn : ((rows.filter fun r => parent r = id).map hash).Nodup) :
    let all := (orderBy hash (rows.filter fun r => parent r = id)).map hash
    all.Pairwise (· < ·) ∧
      ∀ x, x ∈ all ↔ x ∈ {x | ∃ r ∈ rows, parent r = id ∧ hash r = x} ∩ beyond none := by
  refine ⟨orderBy_ascending hn, fun x => ?_⟩
  simp [and_assoc]

/-- An item received is the item of a row. -/
theorem plainAsk_items {sizes : List PageSize} {a : α}
    (ha : a ∈ received (replies (plainAsk parent hash item rows id) none sizes)) :
    ∃ r ∈ rows, parent r = id ∧ item r = a := by
  obtain ⟨reply, hreply, ha⟩ := List.mem_flatMap.mp ha
  obtain ⟨request, -, hr⟩ := mem_replies.mp hreply
  rw [plainAsk, Option.some.injEq] at hr
  subst hr
  obtain ⟨r, hr, rfl⟩ := List.mem_map.mp (List.mem_of_mem_take ha)
  obtain ⟨hrow, hparent⟩ := mem_childRows hr
  exact ⟨r, hrow, hparent, rfl⟩

/-- A client of opaque cursors that are made of hashes walks over the children of its release. -/
theorem childWalk_of {ask : Option Bytes → PageSize → Option (Reply Bytes α)}
    (hn : ((rows.filter fun r => parent r = id).map hash).Nodup)
    (hi : ∀ r, HashPageItem.pageHash (item r) = hash r)
    (hask : ∀ cursor size, ask (cursor.map cursorOf) size =
      (plainAsk parent hash item rows id cursor size).map (Reply.mapNext cursorOf))
    (sizes : List PageSize) :
    ChildWalk ask ((rows.filter fun r => parent r = id).map item) sizes := by
  have hreplies : replies ask none sizes =
      (replies (plainAsk parent hash item rows id) none sizes).map (Reply.mapNext cursorOf) :=
    replies_mapNext hask none sizes
  have hserves := plainAsk_serves hn hi
  have hserved : Served (plainAsk parent hash item rows id) HashPageItem.pageHash
      (fun _ => {x | ∃ r ∈ rows, parent r = id ∧ hash r = x}) Subtype.val none sizes :=
    fun request _ => hserves request.1 request.2
  have hpos : ∀ v ∈ sizes, 0 < v.val := fun v _ => v.property.1
  obtain ⟨hasc, hmem⟩ := ordered_hashes hn
  have hlen : ((orderBy hash (rows.filter fun r => parent r = id)).map hash).length =
      ((rows.filter fun r => parent r = id).map item).length := by
    rw [List.length_map, List.length_map, (orderBy_perm hash _).length_eq]
  constructor
  · intro he
    rw [Ended, hreplies, finished_mapNext, List.length_map] at he
    have hf := finished_of_ended hserved.isSome he
    have hkeys := hserved.exact hpos hf (fun _ _ => rfl) hasc hmem
    rw [hreplies, received_mapNext]
    have hitems : received (replies (plainAsk parent hash item rows id) none sizes) =
        (orderBy hash (rows.filter fun r => parent r = id)).map item := by
      refine eq_of_map_eq (f := HashPageItem.pageHash) (fun a ha b hb hab => ?_) ?_
      · obtain ⟨r, hr, hp, rfl⟩ := plainAsk_items ha
        obtain ⟨r', hr', rfl⟩ := List.mem_map.mp hb
        rw [mem_orderBy] at hr'
        rw [hi, hi] at hab
        rw [List.inj_on_of_nodup_map hn (List.mem_filter.mpr ⟨hr, by simpa using hp⟩) hr' hab]
      · rw [hkeys, List.map_map, show HashPageItem.pageHash ∘ item = hash from funext hi]
    rw [hitems]
    exact (orderBy_perm hash _).map item
  · intro reply hreply
    rw [hreplies] at hreply
    obtain ⟨plain, hplain, rfl⟩ := List.mem_map.mp hreply
    obtain ⟨request, -, hr⟩ := mem_replies.mp hplain
    obtain ⟨reply', hr', hs⟩ := hserves request.1 request.2
    have heq : plain = reply' := Option.some.inj (hr.symm.trans hr')
    subst heq
    refine ⟨?_, fun cursor hc => ?_⟩
    · simpa [Reply.mapNext] using hs.next_isSome request.2.property.1
    · obtain ⟨h, hh, rfl⟩ := Option.map_eq_some_iff.mp hc
      have hlast : (plain.items.map HashPageItem.pageHash).getLast? = some h := by
        rw [hs.next] at hh
        split at hh
        · exact hh
        · cases hh
      rw [List.getLast?_map] at hlast
      obtain ⟨a, ha, rfl⟩ := Option.map_eq_some_iff.mp hlast
      exact ⟨a, ha, decodeHashCursor_cursorOf _, fun size =>
        parseHashCursorPage_childValues (some (HashPageItem.pageHash a)) size⟩
  · intro size hconst hle
    rw [hreplies, finished_mapNext, List.length_map, ← hlen]
    rw [← hlen] at hle
    exact hserved.constant size.property.1 (fun v hv => ⟨rfl, by rw [hconst v hv]⟩) hasc hmem hle

end Walk

theorem track_hashes (db : Database) (id : Int) :
    ((db.releaseItemTrack.filter fun r => r.releaseItemID = id).map (·.hash)).Nodup := by
  refine nodup_part db.canonical.trackUnique _ fun r _ r' _ hp hp' he => ?_
  simp only [decide_eq_true_eq] at hp hp'
  rw [hp, hp', he]

theorem identifier_hashes (db : Database) (id : Int) :
    ((db.releaseItemIdentifier.filter fun r => r.releaseItemID = id).map (·.hash)).Nodup := by
  refine nodup_part db.canonical.identifierUnique _ fun r _ r' _ hp hp' he => ?_
  simp only [decide_eq_true_eq] at hp hp'
  rw [hp, hp', he]

/-- Both kinds of children of a release are walked completely, over any page sizes. -/
theorem child_walk (s : Store) (db : Database) (rest : Repository) (path : Bytes) (id : Int)
    (h : id ∈ db.releaseItem.map (·.id)) (sizes : List PageSize) :
    ChildWalk (askTracks (s.repository db.toTables rest) path id)
      ((db.releaseItemTrack.filter fun r => r.releaseItemID = id).map trackOf) sizes ∧
    ChildWalk (askIdentifiers (s.repository db.toTables rest) path id)
      ((db.releaseItemIdentifier.filter fun r => r.releaseItemID = id).map identifierOf) sizes :=
  ⟨childWalk_of (track_hashes db id) (fun _ => rfl) (askTracks_eq h) sizes,
    childWalk_of (identifier_hashes db id) (fun _ => rfl) (askIdentifiers_eq h) sizes⟩

/-- A release whose tracks have both extreme hashes and zero. -/
def extremeHashes : Database where
  server := cLocale
  releaseItem := [{ id := 1 }]
  releaseItemTrack := [{ releaseItemID := 1, hash := 2147483647 }, { releaseItemID := 1, hash := 0 },
    { releaseItemID := 1, hash := -2147483648 }]
  canonical := by decide

theorem child_walk_extremes :
    ChildWalk (askTracks (localStore.repository extremeHashes.toTables emptyRepository)
      (lit "/releases/1/tracks") 1)
      ((extremeHashes.releaseItemTrack.filter fun r => r.releaseItemID = 1).map trackOf)
      [⟨1, by decide⟩, ⟨2, by decide⟩] :=
  (child_walk localStore extremeHashes emptyRepository (lit "/releases/1/tracks") 1 (by decide)
    [⟨1, by decide⟩, ⟨2, by decide⟩]).1

end OpenDiscogs
