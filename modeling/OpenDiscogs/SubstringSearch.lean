import OpenDiscogs.HttpApi.Request
import OpenDiscogs.Library.Like
import OpenDiscogs.Walk

/-! The text filters of the searches against the texts that contain their terms. -/
namespace OpenDiscogs
open Utf8 SqlText Catalog HttpApi Postgres

inductive TextFilter where
  | artistName | artistRealName | labelName | masterTitle | releaseTitle

namespace TextFilter

def parameter : TextFilter → String
  | artistName => parameterName
  | artistRealName => parameterRealName
  | labelName => parameterName
  | masterTitle => parameterTitle
  | releaseTitle => parameterTitle

/-- The search by the term alone. -/
def listing (term : Bytes) : TextFilter → Listing
  | artistName => .artists { name := term, realName := [] }
  | artistRealName => .artists { name := [], realName := term }
  | labelName => .labels { name := term }
  | masterTitle => .masters { title := term, year := none }
  | releaseTitle => .releases
    { title := term, country := [], year := none, month := none, master := none }

/-- The column that is searched, with the identifiers of its rows. -/
def column (t : Tables) : TextFilter → List (Int × Option Text)
  | artistName => t.artist.map fun a => (a.id, a.name)
  | artistRealName => t.artist.map fun a => (a.id, a.realName)
  | labelName => t.label.map fun l => (l.id, l.name)
  | masterTitle => t.master.map fun m => (m.id, m.title)
  | releaseTitle => t.releaseItem.map fun r => (r.id, r.title)

end TextFilter

/-- A text contains a client's term once the case of both is folded. -/
def ContainsBytes (server : Server) (term : Bytes) (text : Text) : Prop :=
  ∃ cs, decode term = some cs ∧ cs.map server.lower <:+: (text.lower server).chars

/-- The filter finds the rows whose column has a text that contains the term. -/
def SearchesSubstring (f : TextFilter) (term : Bytes) : Prop :=
  ∀ (s : Store) (db : Database) (id : Int) (value : Option Text),
    (id, value) ∈ f.column db.toTables →
      ((f.listing term).Shows s db.toTables id ↔
        ∃ text, value = some text ∧ ContainsBytes db.server term text)

/-- No character of the term has a meaning in patterns, or one of them is in no stored text. -/
def PlainTerm (term : Bytes) : Prop := ∀ cs ∈ decode term, Plain cs ∨ nul ∈ cs

section Terms
variable {s : Store} {db : Database} {f : TextFilter} {term : Bytes} {t : Text}

theorem containsBytes_iff {server : Server} {text : Text} :
    ContainsBytes server t.bytes text ↔ Contains server t text := by
  simp [ContainsBytes, Text.bytes, Contains, Text.lower]

/-- A row of a table that is selected by its column is found among all the rows. -/
theorem selected_iff {ρ : Type} {key : ρ → Int} {column : ρ → Option Text} {rows : List ρ}
    (hk : (rows.map key).Nodup) {p : ρ → Bool} {q : Option Text → Bool}
    (hp : ∀ row, p row = q (column row)) {id : Int} {value : Option Text}
    (h : (id, value) ∈ rows.map fun row => (key row, column row)) :
    (∃ row ∈ rows, p row = true ∧ key row = id) ↔ q value = true := by
  obtain ⟨row, hrow, he⟩ := List.mem_map.mp h
  obtain ⟨rfl, rfl⟩ := Prod.mk.inj he
  constructor
  · intro hparts
    obtain ⟨row', hrow', hq, hsame⟩ := hparts
    obtain rfl := List.inj_on_of_nodup_map hk hrow' hrow hsame
    rwa [hp] at hq
  · intro hq
    exact ⟨row, hrow, by rwa [hp], rfl⟩

theorem column_id {id : Int} {value : Option Text} (h : (id, value) ∈ f.column db.toTables) :
    1 ≤ id ∧ id ≤ maximumInteger := by
  cases f with
  | artistName | artistRealName =>
    obtain ⟨row, hrow, he⟩ := List.mem_map.mp h
    cases he
    exact db.canonical.artistKey.2 _ (List.mem_map_of_mem hrow)
  | labelName =>
    obtain ⟨row, hrow, he⟩ := List.mem_map.mp h
    cases he
    exact db.canonical.labelKey.2 _ (List.mem_map_of_mem hrow)
  | masterTitle =>
    obtain ⟨row, hrow, he⟩ := List.mem_map.mp h
    cases he
    exact db.canonical.masterKey.2 _ (List.mem_map_of_mem hrow)
  | releaseTitle =>
    obtain ⟨row, hrow, he⟩ := List.mem_map.mp h
    cases he
    exact db.canonical.releaseKey.2 _ (List.mem_map_of_mem hrow)

theorem legalText_blank : LegalText [] := by decide

theorem asText_blank : asText [] = none := rfl

/-- The only parameter of the search that can be refused is the term. -/
theorem admissible_iff {request : PageRequest} :
    (f.listing term).Admissible db.toTables request ↔ LegalText term := by
  have hblank := legalText_blank
  cases f with
  | artistName => exact and_iff_left hblank
  | artistRealName => exact and_iff_right hblank
  | labelName => exact Iff.rfl
  | masterTitle => exact and_iff_left nofun
  | releaseTitle => exact (and_iff_left ⟨nofun, nofun, nofun⟩).trans (and_iff_left hblank)

theorem matching_iff {id : Int} {value : Option Text}
    (h : (id, value) ∈ f.column db.toTables) :
    id ∈ (f.listing term).matching db.toTables ↔
      containsTerm db.server (asText term) value = true := by
  have hblank : ∀ c : Option Text, containsTerm db.server (asText []) c = true := fun _ => rfl
  cases f with
  | artistName =>
    exact selected_iff db.canonical.artistKey.1 (fun a => by simp [artistMatches, hblank]) h
  | artistRealName =>
    exact selected_iff db.canonical.artistKey.1 (fun a => by simp [artistMatches, hblank]) h
  | labelName => exact selected_iff db.canonical.labelKey.1 (fun l => rfl) h
  | masterTitle =>
    exact selected_iff db.canonical.masterKey.1
      (fun m => by simp [masterMatches, unlessNull]) h
  | releaseTitle =>
    exact selected_iff db.canonical.releaseKey.1
      (fun r => by simp [matchesFilter, releaseDateParameters, releaseMatches, unlessNull,
        asText_blank]) h

/-- A database whose only row has the text in the column. -/
def TextFilter.single (server : Server) (text : Text) : TextFilter → Tables
  | artistName => { server, artist := [{ id := 1, name := some text }] }
  | artistRealName => { server, artist := [{ id := 1, realName := some text }] }
  | labelName => { server, label := [{ id := 1, name := some text }] }
  | masterTitle => { server, master := [{ id := 1, title := some text }] }
  | releaseTitle => { server, releaseItem := [{ id := 1, title := some text }] }

theorem single_canonical (server : Server) (text : Text) (f : TextFilter) :
    Canonical (f.single server text) := by
  cases f <;> constructor <;> simp [TextFilter.single, ResourceKey, References, maximumInteger]

theorem mem_single (server : Server) (text : Text) (f : TextFilter) :
    (1, some text) ∈ f.column (f.single server text) := by
  cases f <;> exact List.mem_singleton_self _

theorem single_server (server : Server) (text : Text) (f : TextFilter) :
    (f.single server text).server = server := by
  cases f <;> rfl

/-- A term with U+0000 is refused by the server, and no text contains it. -/
theorem search_refused {cs : List Char} (ht : optionalText (encode cs) = some (encode cs))
    (hnul : nul ∈ cs) : SearchesSubstring f (encode cs) := by
  intro s db id value hvalue
  refine iff_of_false ?_ ?_
  · intro hshows
    obtain ⟨request, ha⟩ := hshows.admissible
    have hlegal := admissible_iff.mp ha _ ht
    rw [ofBytes, decode_encode] at hlegal
    simp [hnul] at hlegal
  · intro h
    obtain ⟨text, rfl, cs', hcs', hinfix⟩ := h
    cases (decode_encode cs).symm.trans hcs'
    have hlower : db.server.lower nul = nul := (db.server.lower_nul nul).mpr rfl
    have hin := hinfix.mem (List.mem_map.mpr ⟨nul, hnul, hlower⟩)
    exact (text.lower db.server).legal hin

/-- A term that is a text is matched against the column of each row. -/
theorem shows_iff_ilike (ht : optionalText t.bytes = some t.bytes) {id : Int}
    {value : Option Text} (hvalue : (id, value) ∈ f.column db.toTables) :
    (f.listing t.bytes).Shows s db.toTables id ↔
      ∃ text, value = some text ∧ ilike db.server text (substringPattern t) = true := by
  have htext : asText t.bytes = some t := by rw [asText, ht, Option.bind_some, ofBytes_bytes]
  have hlegal : LegalText t.bytes := by
    intro raw hraw
    cases ht.symm.trans hraw
    rw [ofBytes_bytes]
    rfl
  rw [Listing.shows_iff (fun _ => admissible_iff.mpr hlegal) (column_id hvalue),
    matching_iff hvalue, htext]
  cases value with
  | none => simp [containsTerm]
  | some text => simp [containsTerm]

theorem search_text (ht : optionalText t.bytes = some t.bytes) :
    SearchesSubstring f t.bytes ↔ Plain t.chars := by
  constructor
  · intro hsearch
    refine (ilike_substring cLocale t).mp fun text => ?_
    let db : Database := ⟨f.single cLocale text, single_canonical cLocale text f⟩
    have hmem : (1, some text) ∈ f.column db.toTables := mem_single cLocale text f
    have hs := (shows_iff_ilike (s := localStore) ht hmem).symm.trans
      (hsearch localStore db 1 _ hmem)
    simp only [Option.some.injEq, exists_eq_left', containsBytes_iff, db, single_server] at hs
    exact hs
  · intro hp s db id value hvalue
    rw [shows_iff_ilike ht hvalue]
    simp only [containsBytes_iff, (ilike_substring db.server t).mpr hp]

end Terms

/-- A search finds the texts that contain its term, in every state, exactly when the term has no
character with a meaning in patterns. -/
theorem substring_search (f : TextFilter) {raw term : Bytes}
    (h : optionalSearchTerm raw f.parameter = .ok term) (hne : term ≠ []) :
    SearchesSubstring f term ↔ PlainTerm term := by
  obtain ⟨hvalid, -, rfl⟩ := optionalTextFilter_eq_ok.mp h
  obtain ⟨cs, rfl⟩ := validString_iff.mp hvalid
  rw [trimSpace_encode] at hne ⊢
  have hterm : optionalText (encode (trim cs)) = some (encode (trim cs)) := by
    rw [optionalText, trimSpace_encode, trim_trim, if_neg hne]
  have hplain : PlainTerm (encode (trim cs)) ↔ Plain (trim cs) ∨ nul ∈ trim cs := by
    simp [PlainTerm]
  rw [hplain]
  by_cases hnul : nul ∈ trim cs
  · exact iff_of_true (search_refused hterm hnul) (Or.inr hnul)
  · rw [or_iff_left hnul]
    exact search_text (t := ⟨trim cs, hnul⟩) hterm

theorem substring_search_bob :
    SearchesSubstring .artistName (lit "bob") ↔ PlainTerm (lit "bob") :=
  @substring_search .artistName (lit " bob ") _ (by decide) (by decide)

/-- Artist "abc" is found by the term "a_c", which the name does not contain. -/
theorem substring_search_underscore :
    optionalSearchTerm (lit "a_c") parameterName = .ok (lit "a_c") ∧
      ¬SearchesSubstring .artistName (lit "a_c") := by
  refine ⟨by decide, fun h => ?_⟩
  let name : Text := Text.of "abc"
  let db : Database := ⟨TextFilter.artistName.single cLocale name, by decide⟩
  have hmem : (1, some name) ∈ TextFilter.artistName.column db.toTables :=
    mem_single cLocale name .artistName
  have hshows : (TextFilter.artistName.listing (lit "a_c")).Shows localStore db.toTables 1 :=
    (shows_iff_ilike (t := Text.of "a_c") (by decide) hmem).mpr ⟨name, rfl, by decide⟩
  obtain ⟨text, htext, cs, hcs, hinfix⟩ := (h localStore db 1 _ hmem).mp hshows
  cases htext
  have hchars : cs = "a_c".toList := by
    rw [show decode (lit "a_c") = some "a_c".toList from by decide] at hcs
    exact (Option.some.inj hcs).symm
  rw [hchars] at hinfix
  exact absurd hinfix (by decide)

end OpenDiscogs
