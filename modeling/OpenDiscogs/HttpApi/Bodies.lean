import OpenDiscogs.HttpApi.Documents

/-! What a body tells of its payload: everything but the hashes of tracks and identifiers. -/
namespace OpenDiscogs.HttpApi
open Utf8 SqlText Catalog Json

/-- Payloads of one kind, as all answers of one operation are. -/
def Payload.SameKind (p q : Payload) : Prop := p.ctorIdx = q.ctorIdx

/-- Every link and cursor is well-formed UTF-8. -/
def Payload.Readable : Payload → Prop
  | .snapshot _ => True
  | .artists p => validString p.resourceURI = true
  | .artist d => validString d.uri = true ∧ validString d.releaseURL = true ∧
      ∀ r ∈ d.members ++ d.groups ++ d.aliases, validString r.resourceURL = true
  | .artistReleases p => validString p.resourceURI = true ∧
      ∀ r ∈ p.items, validString r.resourceURL = true
  | .labels p => validString p.resourceURI = true
  | .label d => validString d.uri = true ∧ validString d.releaseURL = true ∧
      ∀ r ∈ d.parentLabel.toList ++ d.sublabels, validString r.resourceURL = true
  | .labelReleases p => validString p.resourceURI = true
  | .masters p => validString p.resourceURI = true
  | .master d => ∀ r ∈ d.artists, validString r.resourceURL = true
  | .masterReleases p => validString p.resourceURI = true ∧
      ∀ r ∈ p.items, validString r.resourceURL = true
  | .releases p => validString p.resourceURI = true
  | .release d => (∀ r ∈ d.artists, validString r.resourceURL = true) ∧
      ∀ r ∈ d.labels ++ d.companies, validString r.resourceURL = true
  | .releaseTracks p => validString p.resourceURI = true ∧
      ∀ c ∈ p.nextCursor, validString c = true
  | .releaseIdentifiers p => validString p.resourceURI = true ∧
      ∀ c ∈ p.nextCursor, validString c = true

/-- Everything of a payload but the hashes, which are not sent. -/
def Payload.sent : Payload → Payload
  | .releaseTracks p => .releaseTracks { p with items := p.items.map ({ · with hash := 0 }) }
  | .releaseIdentifiers p =>
    .releaseIdentifiers { p with items := p.items.map ({ · with hash := 0 }) }
  | p => p

namespace Documents
variable {times : TimeFormat}

@[simp] theorem url_inj {s t : Bytes} : url s = url t ↔ s = t :=
  ⟨Value.string.inj, congrArg url⟩

@[simp] theorem time_inj {s t : Int} : time times s = time times t ↔ s = t :=
  text_inj.trans times.injective.eq_iff

@[simp] theorem nullable_time_inj {x y : Option Int} :
    nullable (time times) x = nullable (time times) y ↔ x = y :=
  (nullable_injective (fun _ _ => time_inj.mp) nofun).eq_iff

@[simp] theorem nullable_url_inj {x y : Option Bytes} : nullable url x = nullable url y ↔ x = y :=
  (nullable_injective (fun _ _ => url_inj.mp) nofun).eq_iff

@[simp] theorem list_text_inj {x y : List Text} : list text x = list text y ↔ x = y :=
  (list_injective fun _ _ => text_inj.mp).eq_iff

@[simp] theorem list_integer_inj {x y : List Int} : list integer x = list integer y ↔ x = y :=
  (list_injective fun _ _ => integer_inj.mp).eq_iff

/-- Objects with the same field names agree field by field. -/
theorem snapshotEntity_injective : Function.Injective (snapshotEntity times) := by
  intro a b h
  cases a; cases b
  simpa [snapshotEntity, record] using h

theorem artist_injective : Function.Injective artist := by
  intro a b h
  cases a; cases b
  simpa [artist, artistFields, record] using h

theorem artistReference_injective : Function.Injective artistReference := by
  intro a b h
  cases a; cases b
  simpa [artistReference, record] using h

theorem artistRelease_injective : Function.Injective artistRelease := by
  intro a b h
  cases a; cases b
  simpa [artistRelease, record] using h

theorem label_injective : Function.Injective label := by
  intro a b h
  cases a; cases b
  simpa [label, labelFields, record] using h

theorem labelReference_injective : Function.Injective labelReference := by
  intro a b h
  cases a; cases b
  simpa [labelReference, record] using h

theorem labelRelease_injective : Function.Injective labelRelease := by
  intro a b h
  cases a; cases b
  simpa [labelRelease, record] using h

theorem master_injective : Function.Injective master := by
  intro a b h
  cases a; cases b
  simpa [master, record] using h

theorem masterVideo_injective : Function.Injective masterVideo := by
  intro a b h
  cases a; cases b
  simpa [masterVideo, record] using h

theorem masterRelease_injective : Function.Injective masterRelease := by
  intro a b h
  cases a; cases b
  simpa [masterRelease, record] using h

theorem release_injective : Function.Injective release := by
  intro a b h
  cases a; cases b
  simpa [release, releaseFields, record] using h

theorem releaseArtist_injective : Function.Injective releaseArtist := by
  intro a b h
  cases a; cases b
  simpa [releaseArtist, record] using h

theorem releaseLabel_injective : Function.Injective releaseLabel := by
  intro a b h
  cases a; cases b
  simpa [releaseLabel, record] using h

theorem releaseFormat_injective : Function.Injective releaseFormat := by
  intro a b h
  cases a; cases b
  simpa [releaseFormat, record] using h

theorem releaseVideo_injective : Function.Injective releaseVideo := by
  intro a b h
  cases a; cases b
  simpa [releaseVideo, record] using h

@[simp] theorem list_artistReference_inj {x y : List ArtistReference} :
    list artistReference x = list artistReference y ↔ x = y :=
  (list_injective artistReference_injective).eq_iff

theorem catalogSnapshot_injective : Function.Injective (catalogSnapshot times) := by
  intro a b h
  cases a; cases b
  simpa [catalogSnapshot, record, (list_injective snapshotEntity_injective).eq_iff] using h

theorem artistDetail_injective : Function.Injective artistDetail := by
  intro a b h
  obtain ⟨⟨⟩⟩ := a
  obtain ⟨⟨⟩⟩ := b
  simpa [artistDetail, artistFields, record, and_assoc] using h

theorem labelDetail_injective : Function.Injective labelDetail := by
  intro a b h
  obtain ⟨⟨⟩⟩ := a
  obtain ⟨⟨⟩⟩ := b
  simpa [labelDetail, labelFields, record, and_assoc,
    (list_injective labelReference_injective).eq_iff,
    (nullable_injective labelReference_injective (fun _ h => by cases h)).eq_iff] using h

theorem masterDetail_injective : Function.Injective masterDetail := by
  intro a b h
  cases a; cases b
  simpa [masterDetail, record, (list_injective masterVideo_injective).eq_iff] using h

theorem releaseDetail_injective : Function.Injective releaseDetail := by
  intro a b h
  obtain ⟨⟨⟩⟩ := a
  obtain ⟨⟨⟩⟩ := b
  simpa [releaseDetail, releaseFields, record, and_assoc,
    (list_injective releaseArtist_injective).eq_iff,
    (list_injective releaseLabel_injective).eq_iff,
    (list_injective releaseFormat_injective).eq_iff,
    (list_injective releaseVideo_injective).eq_iff] using h

theorem page_injective {α : Type} {document : α → Value} (hd : Function.Injective document) :
    Function.Injective (page document) := by
  intro p q h
  cases p; cases q
  simpa [page, record, (list_injective hd).eq_iff] using h

/-- What a track's document leaves out is its hash. -/
theorem releaseTrack_sent {a b : ReleaseTrack} (h : releaseTrack a = releaseTrack b) :
    { a with hash := 0 } = { b with hash := 0 } := by
  cases a; cases b
  simpa [releaseTrack, record] using h

theorem releaseIdentifier_sent {a b : ReleaseIdentifier}
    (h : releaseIdentifier a = releaseIdentifier b) :
    { a with hash := 0 } = { b with hash := 0 } := by
  cases a; cases b
  simpa [releaseIdentifier, record] using h

theorem hashPage_sent {α : Type} {document : α → Value} {sent : α → α}
    (hd : ∀ {a b}, document a = document b → sent a = sent b) {p q : HashPageResponse α}
    (h : hashPage document p = hashPage document q) :
    { p with items := p.items.map sent } = { q with items := q.items.map sent } := by
  have hitems : ∀ x y : List α, x.map document = y.map document → x.map sent = y.map sent := by
    intro x
    induction x with
    | nil =>
      intro y hy
      rw [List.map_eq_nil_iff.mp hy.symm]
    | cons a x ih =>
      intro y hy
      cases y with
      | nil => cases hy
      | cons b y =>
        obtain ⟨hab, htail⟩ := List.cons.inj hy
        rw [List.map_cons, List.map_cons, hd hab, ih y htail]
  cases p; cases q
  simp only [hashPage, record, list, List.map_cons, List.map_nil, Value.object.injEq,
    List.cons.injEq, Prod.mk.injEq, Value.array.injEq, nullable_url_inj, Value.bool.injEq,
    integer_inj, url_inj, true_and, and_true] at h
  simp only [h.2, hitems _ _ h.1]

/-! Documents without ill-formed strings -/

@[simp] theorem wellFormed_url {s : Bytes} (h : validString s = true) : (url s).WellFormed :=
  wellFormed_string h

@[simp] theorem wellFormed_time (t : Int) : (time times t).WellFormed := wellFormed_text _

theorem wellFormed_artistReference {r : ArtistReference} (h : validString r.resourceURL = true) :
    (artistReference r).WellFormed := wellFormed_record (by simp [h])

theorem wellFormed_labelReference {r : LabelReference} (h : validString r.resourceURL = true) :
    (labelReference r).WellFormed := wellFormed_record (by simp [h])

theorem wellFormed_releaseLabel {l : ReleaseLabel} (h : validString l.resourceURL = true) :
    (releaseLabel l).WellFormed := wellFormed_record (by simp [h])

theorem wellFormed_page {α : Type} {document : α → Value} {p : PageResponse α}
    (hu : validString p.resourceURI = true) (hd : ∀ a ∈ p.items, (document a).WellFormed) :
    (page document p).WellFormed :=
  wellFormed_record (by simp [hu, wellFormed_list hd])

theorem wellFormed_hashPage {α : Type} {document : α → Value} {p : HashPageResponse α}
    (hu : validString p.resourceURI = true) (hc : ∀ c ∈ p.nextCursor, validString c = true)
    (hd : ∀ a ∈ p.items, (document a).WellFormed) : (hashPage document p).WellFormed :=
  wellFormed_record (by
    simp [hu, wellFormed_list hd, wellFormed_nullable fun c hm => wellFormed_url (hc c hm)])

theorem wellFormed_payload {p : Payload} (h : p.Readable) : (payload times p).WellFormed := by
  cases p with
  | snapshot s =>
    refine wellFormed_record ?_
    have hentity : ∀ e : SnapshotEntity, (snapshotEntity times e).WellFormed := fun e =>
      wellFormed_record (by simp [wellFormed_nullable fun t _ => wellFormed_time t])
    simp [wellFormed_list fun e _ => hentity e]
  | artists p => exact wellFormed_page h fun a _ => wellFormed_record (by simp [artistFields])
  | artist d =>
    obtain ⟨huri, hrel, hrefs⟩ := h
    simp only [List.mem_append, or_imp, forall_and] at hrefs
    refine wellFormed_record ?_
    simp [artistFields, huri, hrel,
      wellFormed_list fun r hr => wellFormed_artistReference (hrefs.1.1 r hr),
      wellFormed_list fun r hr => wellFormed_artistReference (hrefs.1.2 r hr),
      wellFormed_list fun r hr => wellFormed_artistReference (hrefs.2 r hr)]
  | artistReleases p =>
    exact wellFormed_page h.1 fun r hr => wellFormed_record (by simp [h.2 r hr])
  | labels p => exact wellFormed_page h fun a _ => wellFormed_record (by simp [labelFields])
  | label d =>
    obtain ⟨huri, hrel, hrefs⟩ := h
    simp only [List.mem_append, Option.mem_toList, or_imp, forall_and] at hrefs
    refine wellFormed_record ?_
    simp [labelFields, huri, hrel,
      wellFormed_nullable fun r hr => wellFormed_labelReference (hrefs.1 r hr),
      wellFormed_list fun r hr => wellFormed_labelReference (hrefs.2 r hr)]
  | labelReleases p => exact wellFormed_page h fun r _ => wellFormed_record (by simp)
  | masters p => exact wellFormed_page h fun m _ => wellFormed_record (by simp)
  | master d =>
    refine wellFormed_record ?_
    have hvideo : ∀ v : MasterVideo, (masterVideo v).WellFormed := fun v =>
      wellFormed_record (by simp)
    simp [wellFormed_list fun r hr => wellFormed_artistReference (h r hr),
      wellFormed_list fun v _ => hvideo v]
  | masterReleases p =>
    exact wellFormed_page h.1 fun r hr => wellFormed_record (by simp [h.2 r hr])
  | releases p => exact wellFormed_page h fun r _ => wellFormed_record (by simp [releaseFields])
  | release d =>
    obtain ⟨hartists, hlabels⟩ := h
    simp only [List.mem_append, or_imp, forall_and] at hlabels
    refine wellFormed_record ?_
    have hartist : ∀ a ∈ d.artists, (releaseArtist a).WellFormed := fun a ha =>
      wellFormed_record (by simp [hartists a ha])
    have hformat : ∀ f : ReleaseFormat, (releaseFormat f).WellFormed := fun f =>
      wellFormed_record (by simp)
    have hvideo : ∀ v : ReleaseVideo, (releaseVideo v).WellFormed := fun v =>
      wellFormed_record (by simp)
    simp [releaseFields, wellFormed_list hartist, wellFormed_list fun f _ => hformat f,
      wellFormed_list fun v _ => hvideo v,
      wellFormed_list fun l hl => wellFormed_releaseLabel (hlabels.1 l hl),
      wellFormed_list fun l hl => wellFormed_releaseLabel (hlabels.2 l hl)]
  | releaseTracks p =>
    exact wellFormed_hashPage h.1 h.2 fun t _ => wellFormed_record (by simp)
  | releaseIdentifiers p =>
    exact wellFormed_hashPage h.1 h.2 fun i _ => wellFormed_record (by simp)

/-- Payloads of one kind with the same document are the same, but for hashes. -/
theorem payload_sent {p q : Payload} (hkind : p.SameKind q)
    (h : payload times p = payload times q) : p.sent = q.sent := by
  cases p with
  | snapshot s => cases q with
    | snapshot t => exact congrArg Payload.snapshot (catalogSnapshot_injective h)
    | _ => cases hkind
  | artists p => cases q with
    | artists q => exact congrArg Payload.artists (page_injective artist_injective h)
    | _ => cases hkind
  | artist d => cases q with
    | artist e => exact congrArg Payload.artist (artistDetail_injective h)
    | _ => cases hkind
  | artistReleases p => cases q with
    | artistReleases q =>
      exact congrArg Payload.artistReleases (page_injective artistRelease_injective h)
    | _ => cases hkind
  | labels p => cases q with
    | labels q => exact congrArg Payload.labels (page_injective label_injective h)
    | _ => cases hkind
  | label d => cases q with
    | label e => exact congrArg Payload.label (labelDetail_injective h)
    | _ => cases hkind
  | labelReleases p => cases q with
    | labelReleases q =>
      exact congrArg Payload.labelReleases (page_injective labelRelease_injective h)
    | _ => cases hkind
  | masters p => cases q with
    | masters q => exact congrArg Payload.masters (page_injective master_injective h)
    | _ => cases hkind
  | master d => cases q with
    | master e => exact congrArg Payload.master (masterDetail_injective h)
    | _ => cases hkind
  | masterReleases p => cases q with
    | masterReleases q =>
      exact congrArg Payload.masterReleases (page_injective masterRelease_injective h)
    | _ => cases hkind
  | releases p => cases q with
    | releases q => exact congrArg Payload.releases (page_injective release_injective h)
    | _ => cases hkind
  | release d => cases q with
    | release e => exact congrArg Payload.release (releaseDetail_injective h)
    | _ => cases hkind
  | releaseTracks p => cases q with
    | releaseTracks q => exact congrArg Payload.releaseTracks (hashPage_sent releaseTrack_sent h)
    | _ => cases hkind
  | releaseIdentifiers p => cases q with
    | releaseIdentifiers q =>
      exact congrArg Payload.releaseIdentifiers (hashPage_sent releaseIdentifier_sent h)
    | _ => cases hkind

end Documents

/-- A body determines what was sent: payloads of one kind without ill-formed links are the same,
but for hashes, when their bodies are. -/
theorem encodeJSON_determines {times : TimeFormat} {p q : Payload} (hkind : p.SameKind q)
    (hp : p.Readable) (hq : q.Readable)
    (h : encodeJSON times (.catalog p) = encodeJSON times (.catalog q)) : p.sent = q.sent := by
  have hparse := parse_encodeJSON times (.catalog p)
  rw [h, parse_encodeJSON] at hparse
  have hdoc : (Documents.payload times q).valid = (Documents.payload times p).valid :=
    Option.some.inj hparse
  have hwp : (Documents.payload times p).valid = _ := Documents.wellFormed_payload hp
  have hwq : (Documents.payload times q).valid = _ := Documents.wellFormed_payload hq
  rw [hwp, hwq] at hdoc
  exact Documents.payload_sent hkind hdoc.symm

end OpenDiscogs.HttpApi
