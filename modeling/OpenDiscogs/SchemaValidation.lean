import OpenDiscogs.Postgres.Details
import OpenDiscogs.Statements

/-! The check of the database before the service starts: the schema, the right to use it, and the
relations in it that the statements of the service name. -/
namespace OpenDiscogs
open Utf8 SqlText Catalog OpenDiscogs.Configuration Rows
namespace Postgres

/-- A relation, and whether the current user may select from it. -/
structure RelationEntry where
  name : Text
  select : Bool
deriving DecidableEq

/-- A schema, whether the current user may use it, and its relations. -/
structure Namespace where
  name : Text
  usage : Bool
  relations : List RelationEntry := []

/-- The relations of PostgreSQL itself, whose names nobody else's start like. -/
abbrev SystemRelations := {entries : List RelationEntry //
  ∀ entry ∈ entries, entry.name.chars.take 3 = ['p', 'g', '_']}

/-- What the current user finds on a server. -/
structure SystemCatalog where
  server : Server
  system : SystemRelations := ⟨[], nofun⟩
  namespaces : List Namespace := []

namespace SystemCatalog
variable (c : SystemCatalog)

/-- The row of `pg_namespace` under a name. -/
def findNamespace (schema : Text) : Option Namespace := c.namespaces.find? (·.name = schema)

/-- `to_regclass(format('%I.%I', schema, name))`: quoted, both names are read as they stand. -/
def toRegclass (schema name : Text) : Option RelationEntry :=
  (c.findNamespace schema).bind fun entry => entry.relations.find? (·.name = name)

/-- `array_agg(table_name ORDER BY table_name)` -/
def arrayAgg (names : List Text) : List Text := @orderBy Text Text c.server.order id names

end SystemCatalog

structure SchemaState where
  schemaExists : Bool
  canUse : Bool
  missingTables : List Text
  unreadableTables : List Text

/-- The only row of the query, for a schema and required relations between commas. -/
def validateSchemaSQL (c : SystemCatalog) (schemaName names : Text) : SchemaState :=
  let schemaExists := (c.findNamespace schemaName).isSome
  let canUse := if schemaExists then (c.findNamespace schemaName).any (·.usage) else false
  let required := (stringToArray names).map fun tableName =>
    (tableName, if schemaExists && canUse then c.toRegclass schemaName tableName else none)
  { schemaExists, canUse
    missingTables := c.arrayAgg ((required.filter fun row =>
      schemaExists && canUse && row.2.isNone).map (·.1))
    unreadableTables := c.arrayAgg ((required.filter fun row =>
      row.2.any fun relation => !relation.select).map (·.1)) }

def schemaText (t : Text) : String := String.ofList t.chars

def inspectError (schemaName : Text) := s!"inspect database schema {schemaText schemaName}"

def absentError (schemaName : Text) :=
  s!"database schema {schemaText schemaName} does not exist; run an OpenDiscogs batch importer first"

def usageError (schemaName : Text) :=
  s!"current user requires USAGE on database schema {schemaText schemaName}"

/-- `strings.Join(names, ", ")` -/
def joinNames (names : List Text) : String := ", ".intercalate (names.map schemaText)

def missingError (schemaName : Text) (names : List Text) :=
  s!"database schema {schemaText schemaName} is missing required API relations: " ++
    s!"{joinNames names}; run an OpenDiscogs batch importer first"

def unreadableError (schemaName : Text) (names : List Text) :=
  s!"current user requires SELECT on database schema {schemaText schemaName} relations: " ++
    joinNames names

/-- The verdict on the row that was read, or on the error of the query. -/
def validateSchemaState (schemaName : Text) : Result SchemaState → Result Unit
  | .error e => .error (.wrap (inspectError schemaName) e)
  | .panic => .panic
  | .value state =>
    if !state.schemaExists then .error (.other (absentError schemaName))
    else if !state.canUse then .error (.other (usageError schemaName))
    else if state.missingTables ≠ [] then
      .error (.other (missingError schemaName state.missingTables))
    else if state.unreadableTables ≠ [] then
      .error (.other (unreadableError schemaName state.unreadableTables))
    else .value ()

/-- The names between the commas of `requiredAPIRelationNames`. -/
def requiredNameList : List String :=
  ["artist", "artist_alias", "artist_group", "artist_member", "artist_name_variation",
   "artist_url", "discogs_catalog_entity_state", "discogs_catalog_readiness",
   "discogs_import_checkpoint", "label", "label_release_item", "label_sub_label", "label_url",
   "master", "master_artist", "master_genre", "master_style", "master_video", "release_item",
   "release_item_artist", "release_item_credited_artist", "release_item_format",
   "release_item_genre", "release_item_identifier", "release_item_style", "release_item_track",
   "release_item_video", "release_item_work"]

theorem requiredAPIRelationNames_chars : requiredAPIRelationNames.toList =
    [','].intercalate (requiredNameList.map String.toList) := by
  unfold requiredAPIRelationNames
  rw [String.toList_append, String.toList_append, String.toList_append, String.toList_append,
    String.toList_append]
  decide +kernel

theorem requiredNameList_plain {name : String} (h : name ∈ requiredNameList) :
    ∀ c ∈ name.toList, c ≠ ',' ∧ c ≠ nul := by
  have hall : requiredNameList.all (fun name =>
      name.toList.all fun c => c ≠ ',' ∧ c ≠ nul) = true := by decide +kernel
  intro c hc
  exact of_decide_eq_true (List.all_eq_true.mp (List.all_eq_true.mp hall name h) c hc)

theorem mem_intercalate {c : Char} {parts : List (List Char)} (h : c ∈ [','].intercalate parts) :
    c = ',' ∨ ∃ part ∈ parts, c ∈ part := by
  induction parts with
  | nil => cases h
  | cons part parts ih =>
    cases parts with
    | nil =>
      rw [List.intercalate_singleton] at h
      exact Or.inr ⟨part, by simp, h⟩
    | cons next parts =>
      rw [List.intercalate_cons_cons, List.mem_append, List.mem_append, List.mem_singleton] at h
      obtain (h | h) | h := h
      · exact Or.inr ⟨part, by simp, h⟩
      · exact Or.inl h
      · exact (ih h).imp_right fun hpart => by
          obtain ⟨other, hother, hc⟩ := hpart
          exact ⟨other, List.mem_cons_of_mem part hother, hc⟩

/-- The argument `$2` -/
def requiredNames : Text where
  chars := requiredAPIRelationNames.toList
  legal := by
    rw [requiredAPIRelationNames_chars]
    intro h
    obtain he | ⟨part, hpart, hc⟩ := mem_intercalate h
    · exact absurd he (by decide)
    · obtain ⟨name, hname, rfl⟩ := List.mem_map.mp hpart
      exact (requiredNameList_plain hname _ hc).2 rfl

/-- `ValidateSchema`, when the server answers. -/
def SystemCatalog.validateSchema (c : SystemCatalog) (schemaName : Text) : Result Unit :=
  validateSchemaState schemaName (.value (validateSchemaSQL c schemaName requiredNames))

/-- The relations that the service requires. -/
def requiredRelations : List Text := stringToArray requiredNames

/-- Names without commas are the parts of the text that they are joined to. -/
theorem stringToArray_intercalate {t : Text} {names : List (List Char)} (hne : names ≠ [])
    (ht : t.chars = [','].intercalate names)
    (hplain : ∀ name ∈ names, name ≠ [] ∧ ',' ∉ name ∧ nul ∉ name) :
    (stringToArray t).map (·.chars) = names := by
  have hsplit : t.chars.splitOn ',' = names := by
    rw [ht, List.splitOn_intercalate ',' (fun name h => (hplain name h).2.1) hne]
  have htext : t.chars ≠ [] := by
    intro he
    rw [he, List.splitOn_nil] at hsplit
    exact (hplain [] (by simp [← hsplit])).1 rfl
  rw [stringToArray, if_neg htext, hsplit, List.map_filterMap]
  refine (List.filterMap_congr fun name h => ?_).trans (List.filterMap_some)
  rw [dif_pos (hplain name h).2.2]
  rfl

theorem requiredRelations_chars :
    requiredRelations.map (·.chars) = requiredNameList.map String.toList := by
  have hchars : requiredNames.chars = [','].intercalate (requiredNameList.map String.toList) := by
    unfold requiredNames
    simp only
    exact requiredAPIRelationNames_chars
  refine stringToArray_intercalate (List.cons_ne_nil _ _) hchars fun part h => ?_
  obtain ⟨name, hname, rfl⟩ := List.mem_map.mp h
  have hplain := requiredNameList_plain hname
  have hempty : ∀ name ∈ requiredNameList, name ≠ "" := by decide
  exact ⟨fun he => hempty name hname (String.toList_eq_nil_iff.mp he),
    fun hc => (hplain _ hc).1 rfl, fun hc => (hplain _ hc).2 rfl⟩

/-- What the check may find: a schema that serves, or the first thing that is wrong with it, and
in the last two cases everything that is wrong in that way, each name once. -/
inductive Verdict (c : SystemCatalog) (schemaName : Text) : Result Unit → Prop where
  | ready {entry : Namespace} (found : c.findNamespace schemaName = some entry)
      (usage : entry.usage = true) (readable : ∀ name ∈ requiredRelations, ∃ relation,
        c.toRegclass schemaName name = some relation ∧ relation.select = true) :
      Verdict c schemaName (.value ())
  | absent (missing : c.findNamespace schemaName = none) :
      Verdict c schemaName (.error (.other (absentError schemaName)))
  | unusable {entry : Namespace} (found : c.findNamespace schemaName = some entry)
      (usage : entry.usage = false) :
      Verdict c schemaName (.error (.other (usageError schemaName)))
  | missing {entry : Namespace} {names : List Text}
      (found : c.findNamespace schemaName = some entry) (usage : entry.usage = true)
      (some_missing : names ≠ []) (ascending : names.Pairwise c.server.order.lt)
      (exactly : ∀ name, name ∈ names ↔
        name ∈ requiredRelations ∧ c.toRegclass schemaName name = none) :
      Verdict c schemaName (.error (.other (missingError schemaName names)))
  | unreadable {entry : Namespace} {names : List Text}
      (found : c.findNamespace schemaName = some entry) (usage : entry.usage = true)
      (present : ∀ name ∈ requiredRelations, (c.toRegclass schemaName name).isSome = true)
      (some_unreadable : names ≠ []) (ascending : names.Pairwise c.server.order.lt)
      (exactly : ∀ name, name ∈ names ↔ name ∈ requiredRelations ∧ ∃ relation,
        c.toRegclass schemaName name = some relation ∧ relation.select = false) :
      Verdict c schemaName (.error (.other (unreadableError schemaName names)))

namespace SystemCatalog
variable {c : SystemCatalog} {schemaName : Text}

theorem mem_arrayAgg {names : List Text} {name : Text} : name ∈ c.arrayAgg names ↔ name ∈ names :=
  @mem_orderBy Text Text c.server.order id names name

theorem arrayAgg_ascending {names : List Text} (h : names.Nodup) :
    (c.arrayAgg names).Pairwise c.server.order.lt := by
  have hsorted := @orderBy_ascending Text Text c.server.order id names (by rwa [List.map_id])
  rwa [List.map_id] at hsorted

theorem requiredRelations_nodup : requiredRelations.Nodup := by
  have hnames : requiredNameList.Nodup := by decide
  refine List.Nodup.of_map (·.chars) ?_
  rw [requiredRelations_chars]
  exact hnames.map fun a b h => String.toList_inj.mp h

/-- The required rows under a condition, by their names. -/
theorem mem_required {relation : Text → Option RelationEntry}
    {p : Text × Option RelationEntry → Bool} {name : Text} :
    name ∈ c.arrayAgg (((requiredRelations.map fun tableName =>
      (tableName, relation tableName)).filter p).map (·.1)) ↔
      name ∈ requiredRelations ∧ p (name, relation name) = true := by
  simp only [mem_arrayAgg, List.mem_map, List.mem_filter]
  constructor
  · intro hparts
    obtain ⟨_, ⟨⟨tableName, hmem, rfl⟩, hp⟩, rfl⟩ := hparts
    exact ⟨hmem, hp⟩
  · intro hparts
    exact ⟨_, ⟨⟨name, hparts.1, rfl⟩, hparts.2⟩, rfl⟩

theorem required_ascending {relation : Text → Option RelationEntry}
    {p : Text × Option RelationEntry → Bool} :
    (c.arrayAgg (((requiredRelations.map fun tableName =>
      (tableName, relation tableName)).filter p).map (·.1))).Pairwise c.server.order.lt := by
  refine arrayAgg_ascending (List.Nodup.sublist (List.filter_sublist.map _) ?_)
  rw [List.map_map, show (Prod.fst ∘ fun tableName => (tableName, relation tableName)) = id from rfl,
    List.map_id]
  exact requiredRelations_nodup

/-- The required rows that are not there, and those that are not to be read. -/
def missingNames (c : SystemCatalog) (schemaName : Text) : List Text :=
  c.arrayAgg (((requiredRelations.map fun tableName =>
    (tableName, c.toRegclass schemaName tableName)).filter fun row => row.2.isNone).map (·.1))

def unreadableNames (c : SystemCatalog) (schemaName : Text) : List Text :=
  c.arrayAgg (((requiredRelations.map fun tableName =>
    (tableName, c.toRegclass schemaName tableName)).filter fun row =>
      row.2.any fun relation => !relation.select).map (·.1))

theorem validateSchemaSQL_usable {entry : Namespace}
    (found : c.findNamespace schemaName = some entry) (usage : entry.usage = true) :
    validateSchemaSQL c schemaName requiredNames =
      { schemaExists := true, canUse := true
        missingTables := c.missingNames schemaName
        unreadableTables := c.unreadableNames schemaName } := by
  simp only [validateSchemaSQL, found, usage, Option.isSome_some, Option.any_some, if_true,
    Bool.and_self, Bool.true_and]
  rfl

theorem mem_missingNames {name : Text} : name ∈ c.missingNames schemaName ↔
    name ∈ requiredRelations ∧ c.toRegclass schemaName name = none := by
  rw [missingNames, mem_required, Option.isNone_iff_eq_none]

theorem mem_unreadableNames {name : Text} : name ∈ c.unreadableNames schemaName ↔
    name ∈ requiredRelations ∧ ∃ relation,
      c.toRegclass schemaName name = some relation ∧ relation.select = false := by
  rw [unreadableNames, mem_required]
  cases c.toRegclass schemaName name with
  | none => simp
  | some relation => simp

/-- The check finds what there is. -/
theorem validateSchema_verdict (c : SystemCatalog) (schemaName : Text) :
    Verdict c schemaName (c.validateSchema schemaName) := by
  rw [validateSchema]
  cases hfound : c.findNamespace schemaName with
  | none =>
    have hexists : (validateSchemaSQL c schemaName requiredNames).schemaExists = false := by
      rw [validateSchemaSQL, hfound]
      rfl
    rw [validateSchemaState, hexists]
    exact .absent hfound
  | some entry =>
    cases husage : entry.usage with
    | false =>
      have hstate : (validateSchemaSQL c schemaName requiredNames).schemaExists = true ∧
          (validateSchemaSQL c schemaName requiredNames).canUse = false := by
        simp [validateSchemaSQL, hfound, husage]
      rw [validateSchemaState, hstate.1, hstate.2]
      exact .unusable hfound husage
    | true =>
      rw [validateSchemaSQL_usable hfound husage, validateSchemaState]
      by_cases hmissing : c.missingNames schemaName = []
      · have hpresent : ∀ name ∈ requiredRelations, (c.toRegclass schemaName name).isSome = true := by
          intro name hname
          rw [Option.isSome_iff_ne_none]
          intro hnone
          have hmem := mem_missingNames.mpr ⟨hname, hnone⟩
          rw [hmissing] at hmem
          exact absurd hmem List.not_mem_nil
        by_cases hunreadable : c.unreadableNames schemaName = []
        · simp only [hmissing, hunreadable, Bool.not_true, Bool.false_eq_true, if_false, ne_eq,
            not_true_eq_false]
          refine .ready hfound husage fun name hname => ?_
          obtain ⟨relation, hrelation⟩ := Option.isSome_iff_exists.mp (hpresent name hname)
          refine ⟨relation, hrelation, Bool.not_eq_false _ ▸ fun hselect => ?_⟩
          have hmem := mem_unreadableNames.mpr ⟨hname, relation, hrelation, hselect⟩
          rw [hunreadable] at hmem
          exact absurd hmem List.not_mem_nil
        · simp only [hmissing, Bool.not_true, Bool.false_eq_true, if_false, ne_eq, hunreadable,
            not_false_eq_true, if_true, not_true_eq_false]
          exact .unreadable hfound husage hpresent hunreadable required_ascending
            fun name => mem_unreadableNames
      · simp only [Bool.not_true, Bool.false_eq_true, if_false, ne_eq, hmissing,
          not_false_eq_true, if_true]
        exact .missing hfound husage hmissing required_ascending fun name => mem_missingNames

/-- The check succeeds exactly when the schema may be used and every required relation in it is
to be read. -/
theorem validateSchema_eq_value : c.validateSchema schemaName = .value () ↔
    (∃ entry, c.findNamespace schemaName = some entry ∧ entry.usage = true) ∧
      ∀ name ∈ requiredRelations, ∃ relation,
        c.toRegclass schemaName name = some relation ∧ relation.select = true := by
  have hverdict := validateSchema_verdict c schemaName
  generalize c.validateSchema schemaName = verdict at hverdict
  cases hverdict with
  | ready found usage readable => exact ⟨fun _ => ⟨⟨_, found, usage⟩, readable⟩, fun _ => rfl⟩
  | absent missing =>
    refine ⟨nofun, fun h => ?_⟩
    obtain ⟨⟨entry, hentry, -⟩, -⟩ := h
    rw [missing] at hentry
    cases hentry
  | unusable found usage =>
    refine ⟨nofun, fun h => ?_⟩
    obtain ⟨⟨entry, hentry, husage⟩, -⟩ := h
    rw [found] at hentry
    cases hentry
    rw [usage] at husage
    cases husage
  | missing found usage some_missing ascending exactly =>
    refine ⟨nofun, fun h => ?_⟩
    obtain ⟨name, hmem⟩ := List.exists_mem_of_ne_nil _ some_missing
    obtain ⟨hrequired, hnone⟩ := (exactly name).mp hmem
    obtain ⟨relation, hrelation, -⟩ := h.2 name hrequired
    rw [hnone] at hrelation
    cases hrelation
  | unreadable found usage present some_unreadable ascending exactly =>
    refine ⟨nofun, fun h => ?_⟩
    obtain ⟨name, hmem⟩ := List.exists_mem_of_ne_nil _ some_unreadable
    obtain ⟨hrequired, relation, hrelation, hselect⟩ := (exactly name).mp hmem
    obtain ⟨other, hother, hreadable⟩ := h.2 name hrequired
    rw [hrelation] at hother
    cases hother
    rw [hselect] at hreadable
    cases hreadable

end SystemCatalog
end Postgres

/-! The relations of the statements -/

open Postgres

/-- The relations that a statement names, unqualified all of them. -/
def SQL.relations : SQL → List String
  | .validateSchemaQuery => []
  | .snapshotSQL => ["discogs_catalog_readiness", "discogs_catalog_entity_state",
      "discogs_import_checkpoint"]
  | .releaseExistsSQL => ["release_item"]
  | .searchArtistsSQL => ["artist"]
  | .searchLabelsSQL => ["label"]
  | .searchMastersSQL => ["master"]
  | .searchReleasesSQL => ["release_item"]
  | .artistReleasesSQL => ["release_item_artist", "release_item_credited_artist", "release_item"]
  | .labelReleasesSQL => ["label_release_item", "release_item_artist", "artist",
      "release_item_format", "release_item"]
  | .masterReleasesSQL => ["release_item", "release_item_artist", "artist"]
  | .releasesByCatalogNumberSQL => ["label_release_item", "release_item"]
  | .releasesByIdentifierSQL => ["release_item_identifier", "release_item"]
  | .releaseTracksSQL => ["release_item_track"]
  | .releaseIdentifiersSQL => ["release_item_identifier"]
  | .artistQuery => ["artist_member", "artist", "artist_group", "artist_alias",
      "artist_name_variation", "artist_url"]
  | .labelQuery => ["label_sub_label", "label", "label_url"]
  | .masterQuery => ["master_genre", "master_style", "master_artist", "artist", "master_video",
      "master"]
  | .releaseQuery => ["release_item_artist", "release_item_credited_artist", "artist",
      "label_release_item", "label", "release_item_work", "release_item_format",
      "release_item_style", "release_item_genre", "release_item_video", "release_item"]

/-- Every relation that a statement names is required. -/
theorem relations_required (sql : SQL) {name : String} (h : name ∈ sql.relations) :
    name ∈ requiredNameList ∧ ∃ relation ∈ requiredRelations, relation.chars = name.toList := by
  have hmem : name ∈ requiredNameList := by
    revert h name
    cases sql <;> decide
  have hchars : name.toList ∈ requiredRelations.map (·.chars) := by
    rw [requiredRelations_chars]
    exact List.mem_map_of_mem hmem
  exact ⟨hmem, List.mem_map.mp hchars⟩

theorem required_listed {relation : Text} (h : relation ∈ requiredRelations) :
    ∃ name ∈ requiredNameList, relation.chars = name.toList := by
  have hchars : relation.chars ∈ requiredNameList.map String.toList := by
    rw [← requiredRelations_chars]
    exact List.mem_map_of_mem h
  obtain ⟨name, hname, he⟩ := List.mem_map.mp hchars
  exact ⟨name, hname, he.symm⟩

theorem required_nonempty : ∃ relation, relation ∈ requiredRelations := by
  obtain ⟨-, relation, hrelation, -⟩ :=
    @relations_required .searchArtistsSQL "artist" (List.mem_singleton_self _)
  exact ⟨relation, hrelation⟩

/-- Every required relation is named by a statement of a call. -/
theorem required_named {name : String} (h : name ∈ requiredNameList) :
    ∃ sql : SQL, sql ≠ .validateSchemaQuery ∧ name ∈ sql.relations := by
  have hcovered : ∀ name ∈ requiredNameList, name ∈ SQL.snapshotSQL.relations ∨
      name ∈ SQL.artistQuery.relations ∨ name ∈ SQL.labelQuery.relations ∨
      name ∈ SQL.masterQuery.relations ∨ name ∈ SQL.releaseQuery.relations ∨
      name ∈ SQL.releaseTracksSQL.relations ∨ name ∈ SQL.releaseIdentifiersSQL.relations := by
    decide
  obtain h | h | h | h | h | h | h := hcovered name h
  · exact ⟨.snapshotSQL, nofun, h⟩
  · exact ⟨.artistQuery, nofun, h⟩
  · exact ⟨.labelQuery, nofun, h⟩
  · exact ⟨.masterQuery, nofun, h⟩
  · exact ⟨.releaseQuery, nofun, h⟩
  · exact ⟨.releaseTracksSQL, nofun, h⟩
  · exact ⟨.releaseIdentifiersSQL, nofun, h⟩

/-- Every statement but the check itself is sent for some call. -/
theorem issued_sql (cfg : Config) (s : Store) {sql : SQL} (h : sql ≠ .validateSchemaQuery) :
    ∃ statement, Issued cfg s statement ∧ statement.sql = sql := by
  let page : PageRequest := { afterID := 0, size := 1 }
  let children : HashPageRequest := { afterHash := none, size := 1 }
  have hcall : ∀ call : HttpApi.Call, ∀ statement ∈ s.statements call,
      ∃ issued, Issued cfg s issued ∧ issued.sql = statement.sql := fun call statement hs =>
    ⟨statement, .call hs, rfl⟩
  cases sql with
  | validateSchemaQuery => exact absurd rfl h
  | snapshotSQL => exact hcall .snapshot _ (List.mem_singleton_self _)
  | releaseExistsSQL => exact hcall (.releaseTracks 1 children) _ (List.mem_cons_of_mem _
      (List.mem_singleton_self _))
  | searchArtistsSQL => exact hcall (.searchArtists ⟨[], []⟩ page) _ (List.mem_singleton_self _)
  | searchLabelsSQL => exact hcall (.searchLabels ⟨[]⟩ page) _ (List.mem_singleton_self _)
  | searchMastersSQL => exact hcall (.searchMasters ⟨[], none⟩ page) _ (List.mem_singleton_self _)
  | searchReleasesSQL =>
    exact hcall (.searchReleases ⟨[], [], none, none, none⟩ page) _ (List.mem_singleton_self _)
  | artistReleasesSQL => exact hcall (.artistReleases 1 page) _ (List.mem_singleton_self _)
  | labelReleasesSQL => exact hcall (.labelReleases 1 page) _ (List.mem_singleton_self _)
  | masterReleasesSQL => exact hcall (.masterReleases 1 page) _ (List.mem_singleton_self _)
  | releasesByCatalogNumberSQL =>
    exact hcall (.releasesByCatalogNumber ⟨1, []⟩ page) _ (List.mem_singleton_self _)
  | releasesByIdentifierSQL =>
    exact hcall (.releasesByIdentifier ⟨[], []⟩ page) _ (List.mem_singleton_self _)
  | releaseTracksSQL => exact hcall (.releaseTracks 1 children) _ (List.mem_cons_self ..)
  | releaseIdentifiersSQL => exact hcall (.releaseIdentifiers 1 children) _ (List.mem_cons_self ..)
  | artistQuery => exact hcall (.artist 1) _ (List.mem_singleton_self _)
  | labelQuery => exact hcall (.label 1) _ (List.mem_singleton_self _)
  | masterQuery => exact hcall (.master 1) _ (List.mem_singleton_self _)
  | releaseQuery => exact hcall (.release 1) _ (List.mem_singleton_self _)

/-! Names without a schema -/

namespace Postgres.SystemCatalog
variable {c : SystemCatalog} {schemaName : Text}

/-- A relation of a schema of the path, if the schema is there and may be used. -/
def searchSchema (c : SystemCatalog) (name : String) (schema : Bytes) : Option RelationEntry :=
  (c.namespaces.find? fun entry => entry.name.bytes = schema).bind fun entry =>
    if entry.usage then entry.relations.find? fun relation => relation.name.chars = name.toList
    else none

/-- What a name without a schema stands for: PostgreSQL's own relations are searched before the
path. -/
def resolve (c : SystemCatalog) (path : List Bytes) (name : String) : Option RelationEntry :=
  (c.system.1.find? fun relation => relation.name.chars = name.toList).or
    (path.findSome? (c.searchSchema name))

theorem bytes_inj {a b : Text} : a.bytes = b.bytes ↔ a = b :=
  ⟨fun h => Text.ext (encode_injective h), congrArg Text.bytes⟩

/-- A required name is none of PostgreSQL's own, and is searched in the schema alone. -/
theorem resolve_required {relation : Text} {name : String} (h : name ∈ requiredNameList)
    (hname : relation.chars = name.toList) : c.resolve [schemaName.bytes] name =
      (c.findNamespace schemaName).bind fun entry =>
        if entry.usage then entry.relations.find? (·.name = relation) else none := by
  have hsystem : c.system.1.find? (fun entry => entry.name.chars = name.toList) = none := by
    have hprefix : ∀ name ∈ requiredNameList, name.toList.take 3 ≠ ['p', 'g', '_'] := by
      decide +kernel
    refine List.find?_eq_none.mpr fun entry hentry he => hprefix name h ?_
    rw [← of_decide_eq_true he]
    exact c.system.2 entry hentry
  have hrelation : ∀ entry : RelationEntry, entry.name.chars = name.toList ↔ entry.name = relation := by
    intro entry
    rw [← hname]
    exact ⟨Text.ext, congrArg Text.chars⟩
  rw [resolve, hsystem, Option.none_or]
  simp only [List.findSome?_cons, List.findSome?_nil, searchSchema, bytes_inj, hrelation,
    findNamespace]
  cases (c.namespaces.find? fun entry => entry.name = schemaName).bind _ <;> rfl

/-- A required name stands for a readable relation when the schema may be used and has it. -/
theorem readable_iff {relation : Text} {name : String} (h : name ∈ requiredNameList)
    (hname : relation.chars = name.toList) :
    (∃ found, c.resolve [schemaName.bytes] name = some found ∧ found.select = true) ↔
      (∃ entry, c.findNamespace schemaName = some entry ∧ entry.usage = true) ∧
        ∃ found, c.toRegclass schemaName relation = some found ∧ found.select = true := by
  rw [resolve_required h hname, toRegclass]
  cases c.findNamespace schemaName with
  | none => simp
  | some entry =>
    cases husage : entry.usage with
    | false => simp [husage]
    | true => simp [husage]

end Postgres.SystemCatalog

section Started
variable {resolve : Resolver} {values : RawValues} {cfg : Config} {τ : Type} {driver : Driver τ}
  {queryTracer : Option τ} {pool : PoolConfig τ}

/-- The path that connections of a pool search. -/
def PoolConfig.path (pool : PoolConfig τ) : Option (List Bytes) :=
  (pool.connConfig.runtimeParams databaseSearchPathName).bind SearchPath.read

/-- The one schema of an accepted configuration is the path of its connections. -/
theorem databaseConfig_path (hv : validate resolve values = .ok cfg)
    (hpool : databaseConfig driver cfg queryTracer = .ok pool) :
    PoolConfig.path pool = some [cfg.database.schema] := by
  obtain ⟨parsed, -, h⟩ := Except.bind_eq_ok.mp hpool
  cases h
  simp only [PoolConfig.path, Function.update_self, Option.bind_some]
  exact (validate_validated hv).searchPath_read

/-- The check succeeds exactly when a search of the one schema finds every relation that any
statement of the service names, as one that the current user may select from. -/
theorem validateSchema_issued (cfg : Config) (s : Store) (c : SystemCatalog) (schemaName : Text) :
    c.validateSchema schemaName = .value () ↔ ∀ statement, Issued cfg s statement →
      ∀ name ∈ statement.sql.relations, ∃ relation,
        c.resolve [schemaName.bytes] name = some relation ∧ relation.select = true := by
  rw [SystemCatalog.validateSchema_eq_value]
  constructor
  · intro h statement hissued name hmem
    obtain ⟨hlisted, relation, hrelation, hchars⟩ := relations_required statement.sql hmem
    exact (SystemCatalog.readable_iff hlisted hchars).mpr ⟨h.1, h.2 relation hrelation⟩
  · intro h
    have hreadable : ∀ relation ∈ requiredRelations,
        (∃ entry, c.findNamespace schemaName = some entry ∧ entry.usage = true) ∧
          ∃ found, c.toRegclass schemaName relation = some found ∧ found.select = true := by
      intro relation hrelation
      obtain ⟨name, hlisted, hchars⟩ := required_listed hrelation
      obtain ⟨sql, hsql, hmem⟩ := required_named hlisted
      obtain ⟨statement, hissued, rfl⟩ := issued_sql cfg s hsql
      exact (SystemCatalog.readable_iff hlisted hchars).mp (h statement hissued name hmem)
    obtain ⟨relation, hrelation⟩ := required_nonempty
    exact ⟨(hreadable relation hrelation).1, fun name hmem => (hreadable name hmem).2⟩

end Started

def publicSchema : Text := Text.of "public"

/-- A server whose schema `public` has some relations, to be read all of them. -/
def grantedCatalog (names : List Text) : SystemCatalog where
  server := cLocale
  namespaces := [⟨publicSchema, true, names.map fun name => ⟨name, true⟩⟩]

theorem grantedCatalog_relation {names : List Text} {name : Text} (h : name ∈ names) :
    (grantedCatalog names).toRegclass publicSchema name = some ⟨name, true⟩ := by
  have hfind : (names.map fun name => RelationEntry.mk name true).find? (·.name = name) =
      some ⟨name, true⟩ := by
    induction names with
    | nil => cases h
    | cons other names ih =>
      by_cases he : other = name
      · simp [he]
      · simpa [he] using ih (List.mem_of_ne_of_mem (Ne.symm he) h)
  exact hfind

theorem grantedCatalog_valid :
    (grantedCatalog requiredRelations).validateSchema publicSchema = .value () :=
  SystemCatalog.validateSchema_eq_value.mpr
    ⟨⟨_, rfl, rfl⟩, fun _ h => ⟨_, grantedCatalog_relation h, rfl⟩⟩

end OpenDiscogs
