import OpenDiscogs.Library.Interleave
import OpenDiscogs.Postgres.ReleaseChildren

/-! Release children read while imports commit: when the two statements of a call give the answer
of one committed state. -/
namespace OpenDiscogs.Postgres
open SqlText Catalog Rows Interleave

variable {α ρ : Type}

/-- Where a call stands: before its page query, before its existence query, or at its end. -/
inductive ChildPhase (α : Type) where
  | querying
  | confirming (page : HashPage α)
  | returned (result : Result (HashPage α))

def ChildPhase.result : ChildPhase α → Option (Result (HashPage α))
  | querying => none
  | confirming _ => none
  | returned result => some result

section Statements
variable (load : Tables → Result (HashPage α)) (require : Tables → Result Unit)

/-- The next statement of the call, on the state that is current. -/
def childStep (db : Database) : ChildPhase α → ChildPhase α
  | .querying => match load db.toTables with
    | .value page => if page.items.isEmpty then .confirming page else .returned (.value page)
    | r => .returned r
  | .confirming page => .returned (require db.toTables >>= fun _ => pure page)
  | .returned r => .returned r

/-- The whole call on two given states. -/
def childCall (atPage atExistence : Database) : Result (HashPage α) :=
  requireUnlessEmpty (load atPage.toTables) (require atExistence.toTables)

end Statements

variable {load : Tables → Result (HashPage α)} {require : Tables → Result Unit}

/-- A run reads one state or two, and returns what the call gives on them. -/
theorem childRun_result {db : Database} {reads current : List Database}
    {result : Result (HashPage α)}
    (run : Run (childStep load require) ChildPhase.result db .querying reads current result) :
    ∃ first ∈ current,
      ((reads = [first] ∧ ∀ second, result = childCall load require first second) ∨
      ∃ second ∈ current, reads = [first, second] ∧ result = childCall load require first second ∧
        ∃ page, load first.toTables = .value page ∧ page.items.isEmpty = true) := by
  obtain ⟨-, hr⟩ | ⟨first, rest, rfl, hfirst, -, d, current', hsub, run'⟩ := run.next
  · cases hr
  refine ⟨first, hfirst, ?_⟩
  -- a call that has returned reads nothing more
  have hdone : ∀ {r : Result (HashPage α)} {d : Database} {reads current : List Database},
      Run (childStep load require) ChildPhase.result d (.returned r) reads current result →
        reads = [] ∧ result = r := by
    intro r d reads current run
    obtain ⟨rfl, hr⟩ | ⟨_, _, -, -, hr, -⟩ := run.next
    · exact ⟨rfl, (Option.some.inj hr).symm⟩
    · cases hr
  rw [childStep] at run'
  cases hload : load first.toTables with
  | value page =>
    simp only [hload] at run'
    cases he : page.items.isEmpty with
    | true =>
      simp only [he, if_true] at run'
      obtain ⟨-, hr⟩ | ⟨second, rest, rfl, hsecond, -, d', current'', -, run''⟩ := run'.next
      · cases hr
      obtain ⟨rfl, rfl⟩ := hdone run''
      refine Or.inr ⟨second, hsub hsecond, rfl, ?_, page, rfl, he⟩
      rw [childCall, hload, requireUnlessEmpty_empty he]
    | false =>
      simp only [he, Bool.false_eq_true, if_false] at run'
      obtain ⟨rfl, rfl⟩ := hdone run'
      exact Or.inl ⟨rfl, fun second => by rw [childCall, hload, requireUnlessEmpty_items he]⟩
  | error e =>
    simp only [hload] at run'
    obtain ⟨rfl, rfl⟩ := hdone run'
    exact Or.inl ⟨rfl, fun second => by rw [childCall, hload]; rfl⟩
  | panic =>
    simp only [hload] at run'
    obtain ⟨rfl, rfl⟩ := hdone run'
    exact Or.inl ⟨rfl, fun second => by rw [childCall, hload]; rfl⟩

/-- What the two statements say about a release that is present in a state or not, with children
after the cursor or childless. The first statement fails on every state or on none. -/
structure ChildView (load : Tables → Result (HashPage α)) (require : Tables → Result Unit)
    (present childless : Database → Prop) : Prop where
  orphanless : ∀ db, ¬present db → childless db
  empty : ∀ (db db' : Database) page, load db.toTables = .value page →
    (load db'.toTables = .value ⟨[], false⟩ ↔ childless db')
  known : ∀ (db db' : Database) page, load db.toTables = .value page → present db' →
    require db'.toTables = .value ()
  unknown : ∀ (db db' : Database) page, load db.toTables = .value page → ¬present db' →
    require db'.toTables = .error errNotFound

/-- The release is in the first state read, or missing in the second, or childless in a state that
was current. -/
def Unskewed (present childless : Database → Prop) (reads current : List Database) : Prop :=
  ∀ first second, reads = [first, second] →
    present first ∨ ¬present second ∨ ∃ db ∈ current, present db ∧ childless db

variable {present childless : Database → Prop}

/-- The call on one state in which the release is missing, and in which it is childless. -/
theorem ChildView.call_missing (hv : ChildView load require present childless) {db first : Database}
    {page : HashPage α} (hload : load first.toTables = .value page) (h : ¬present db) :
    childCall load require db db = .error errNotFound := by
  have hp := (hv.empty first db page hload).mpr (hv.orphanless db h)
  rw [childCall, hp, requireUnlessEmpty_empty rfl, hv.unknown first db page hload h]
  rfl

theorem ChildView.call_childless (hv : ChildView load require present childless)
    {db first : Database} {page : HashPage α} (hload : load first.toTables = .value page)
    (h : present db) : childCall load require db db = .value ⟨[], false⟩ ↔ childless db := by
  rw [← hv.empty first db page hload, childCall]
  cases load db.toTables with
  | value p =>
    cases he : p.items.isEmpty with
    | true =>
      rw [requireUnlessEmpty_empty he, hv.known first db page hload h]
      rfl
    | false => rw [requireUnlessEmpty_items he]
  | error e => exact Iff.rfl
  | panic => exact Iff.rfl

/-- A run returns the answer of some state that was current exactly when it is unskewed. -/
theorem ChildView.consistent_iff (hv : ChildView load require present childless) {db : Database}
    {reads current : List Database} {result : Result (HashPage α)}
    (run : Run (childStep load require) ChildPhase.result db .querying reads current result) :
    (∃ d ∈ current, result = childCall load require d d) ↔
      Unskewed present childless reads current := by
  obtain ⟨first, hfirst, ⟨rfl, hresult⟩ | ⟨second, hsecond, rfl, rfl, page, hload, he⟩⟩ :=
    childRun_result run
  · exact ⟨fun _ _ _ h => by simp at h, fun _ => ⟨first, hfirst, hresult first⟩⟩
  -- the first page was empty, so the existence query decides between it and "not found"
  have hcall : ∀ d, childCall load require first d = require d.toTables >>= fun _ => pure page :=
    fun d => by rw [childCall, hload, requireUnlessEmpty_empty he]
  by_cases hs : present second
  · by_cases hf : present first
    · refine ⟨fun _ f s hfs => ?_, fun _ => ⟨first, hfirst, ?_⟩⟩
      · obtain ⟨rfl, -⟩ : first = f ∧ second = s := by simpa using hfs
        exact Or.inl hf
      · rw [hcall, hcall, hv.known first second _ hload hs, hv.known first first _ hload hf]
    · -- an empty answer for a release that was missing when its page was read
      have hpage : page = ⟨[], false⟩ := by
        have := (hv.empty first first page hload).mpr (hv.orphanless first hf)
        rw [hload, Outcome.value.injEq] at this
        exact this
      have hresult : childCall load require first second = .value ⟨[], false⟩ := by
        rw [hcall, hv.known first second _ hload hs, hpage]
        rfl
      rw [hresult]
      constructor
      · intro hparts f s _
        obtain ⟨d, hd, hsame⟩ := hparts
        by_cases hp : present d
        · exact Or.inr (Or.inr ⟨d, hd, hp, (hv.call_childless hload hp).mp hsame.symm⟩)
        · rw [hv.call_missing hload hp] at hsame
          cases hsame
      · intro hskew
        obtain h | h | ⟨d, hd, hp, hc⟩ := hskew first second rfl
        · exact absurd h hf
        · exact absurd hs h
        · exact ⟨d, hd, ((hv.call_childless hload hp).mpr hc).symm⟩
  · refine ⟨fun _ f s hfs => ?_, fun _ => ⟨second, hsecond, ?_⟩⟩
    · obtain ⟨-, rfl⟩ : first = f ∧ second = s := by simpa using hfs
      exact Or.inr (Or.inl hs)
    · rw [hv.call_missing hload hs, hcall, hv.unknown first second _ hload hs]
      rfl

section Children
variable {s : Store} {id : Int} {request : HashPageRequest}

def Present (id : Int) (db : Database) : Prop := id ∈ db.releaseItem.map (·.id)

def Trackless (id : Int) (afterHash : Option Int32) (db : Database) : Prop :=
  ∀ r ∈ db.releaseItemTrack, r.releaseItemID = id → afterCursor afterHash r.hash = false

def Identifierless (id : Int) (afterHash : Option Int32) (db : Database) : Prop :=
  ∀ r ∈ db.releaseItemIdentifier, r.releaseItemID = id → afterCursor afterHash r.hash = false

theorem newHashPage_empty {items : List α} {size : Int} (hs : 0 ≤ size) :
    newHashPage items size = .value ⟨[], false⟩ ↔ items = [] := by
  rw [newHashPage, lookAhead]
  split
  · next hlt =>
    rw [slice, if_neg (by omega)]
    simp only [Outcome.value_bind, Outcome.pure_eq, Outcome.value.injEq, HashPage.mk.injEq,
      Bool.true_eq_false, and_false, false_iff]
    intro he
    subst he
    simp at hlt
    omega
  · simp

/-- A negative size panics whatever was read. -/
theorem size_of_newHashPage {items : List α} {size : Int} {page : HashPage α}
    (h : newHashPage items size = .value page) : 0 ≤ size := by
  by_contra hneg
  rw [newHashPage, lookAhead, if_pos (by omega), slice, if_pos (by omega)] at h
  cases h

theorem childRows_empty {parent : ρ → Int} {hash : ρ → Int32} {rows : List ρ}
    (hs : 0 ≤ request.size) : childRows parent hash rows id request = [] ↔
      ∀ r ∈ rows, parent r = id → afterCursor request.afterHash (hash r) = false := by
  have hf : request.fetchSize.toNat ≠ 0 := by
    rw [HashPageRequest.fetchSize]
    omega
  rw [childRows, List.take_eq_nil_iff, or_iff_right hf, ← List.length_eq_zero_iff,
    (orderBy_perm hash _).length_eq, List.length_eq_zero_iff, List.filter_eq_nil_iff]
  simp

/-- Both kinds of children view a release alike. -/
theorem childView {load : Tables → Result (HashPage α)} {parent : ρ → Int} {hash : ρ → Int32}
    {rows : Tables → List ρ} {item : ρ → α}
    (hload : ∀ t page, load t = .value page ↔ (InRange id ∧ 0 ≤ request.fetchSize) ∧
      newHashPage ((childRows parent hash (rows t) id request).map item) request.size =
        .value page)
    (hparent : ∀ db : Database, ∀ r ∈ rows db.toTables,
      parent r ∈ db.releaseItem.map (·.id)) :
    ChildView load (fun t => s.requireRelease t id) (Present id) (fun db =>
      ∀ r ∈ rows db.toTables, parent r = id → afterCursor request.afterHash (hash r) = false) where
  orphanless db h r hr he := absurd (he ▸ hparent db r hr) h
  empty db db' page h := by
    obtain ⟨hlegal, hpage⟩ := (hload _ _).mp h
    have hs := size_of_newHashPage hpage
    rw [hload, and_iff_right hlegal, newHashPage_empty hs, List.map_eq_nil_iff,
      childRows_empty hs]
  known db db' page h hp := by
    rw [requireRelease_eq ((hload _ _).mp h).1.1, if_pos (releaseExistsSQL_iff.mpr hp)]
  unknown db db' page h hp := by
    rw [requireRelease_eq ((hload _ _).mp h).1.1, if_neg fun he => hp (releaseExistsSQL_iff.mp he)]

end Children

/-- A call of `ReleaseTracks` from start to end, among commits. -/
def TrackRun (s : Store) (id : Int) (request : HashPageRequest) (db : Database)
    (reads current : List Database) (result : Result (HashPage ReleaseTrack)) : Prop :=
  Run (childStep (fun t => loadReleaseTracks t id request) fun t => s.requireRelease t id)
    ChildPhase.result db .querying reads current result

/-- A call of `ReleaseIdentifiers` from start to end, among commits. -/
def IdentifierRun (s : Store) (id : Int) (request : HashPageRequest) (db : Database)
    (reads current : List Database) (result : Result (HashPage ReleaseIdentifier)) : Prop :=
  Run (childStep (fun t => loadReleaseIdentifiers t id request) fun t => s.requireRelease t id)
    ChildPhase.result db .querying reads current result

/-- A call answers as it would have on one of the states that were current exactly when its two
statements do not straddle the commit of a release together with its children. -/
theorem releaseChildren_consistent (s : Store) (id : Int) (request : HashPageRequest) :
    (∀ db reads current result, TrackRun s id request db reads current result →
      ((∃ d ∈ current, result = s.releaseTracks d.toTables d.toTables id request) ↔
        Unskewed (Present id) (Trackless id request.afterHash) reads current)) ∧
    ∀ db reads current result, IdentifierRun s id request db reads current result →
      ((∃ d ∈ current, result = s.releaseIdentifiers d.toTables d.toTables id request) ↔
        Unskewed (Present id) (Identifierless id request.afterHash) reads current) := by
  constructor
  · intro db reads current result run
    have hv : ChildView (fun t => loadReleaseTracks t id request)
        (fun t => s.requireRelease t id) (Present id) (Trackless id request.afterHash) :=
      childView (fun t page => loadReleaseTracks_eq_value)
        fun db r hr => db.canonical.trackRelease _ (List.mem_map_of_mem hr)
    exact hv.consistent_iff run
  · intro db reads current result run
    have hv : ChildView (fun t => loadReleaseIdentifiers t id request)
        (fun t => s.requireRelease t id) (Present id) (Identifierless id request.afterHash) :=
      childView (fun t page => loadReleaseIdentifiers_eq_value)
        fun db r hr => db.canonical.identifierRelease _ (List.mem_map_of_mem hr)
    exact hv.consistent_iff run

/-- A catalog before its first import, and after the import of one release with a track. -/
def beforeImport : Database where
  server := cLocale
  canonical := by decide

def afterImport : Database where
  server := cLocale
  releaseItem := [{ id := 1 }]
  releaseItemTrack := [{ releaseItemID := 1, hash := 7 }]
  canonical := by decide

/-- The import commits after the existence query has found the release missing. -/
theorem importedRun_late : TrackRun localStore 1 ⟨none, 20⟩ beforeImport [beforeImport, beforeImport]
    [beforeImport, afterImport] (.error errNotFound) :=
  .statement rfl (.statement rfl (.commit (.returned rfl)))

theorem releaseChildren_consistent_late :
    ∃ d ∈ [beforeImport, afterImport], .error errNotFound =
      localStore.releaseTracks d.toTables d.toTables 1 ⟨none, 20⟩ :=
  ((releaseChildren_consistent localStore 1 ⟨none, 20⟩).1 _ _ _ _ importedRun_late).mpr
    fun first second h => by
      obtain ⟨rfl, rfl⟩ : beforeImport = first ∧ beforeImport = second := by simpa using h
      exact Or.inr (Or.inl (by simp [Present, beforeImport]))

/-- The import commits between the two statements: the release that has a track is answered with
an empty page, which neither state gives. -/
theorem releaseTracks_skewed :
    TrackRun localStore 1 ⟨none, 20⟩ beforeImport [beforeImport, afterImport]
      [beforeImport, afterImport] (.value ⟨[], false⟩) ∧
    ¬∃ d ∈ [beforeImport, afterImport], .value ⟨[], false⟩ =
      localStore.releaseTracks d.toTables d.toTables 1 ⟨none, 20⟩ := by
  refine ⟨.statement rfl (.commit (.statement rfl (.returned rfl))), ?_⟩
  have hbefore : localStore.releaseTracks beforeImport.toTables beforeImport.toTables 1
      ⟨none, 20⟩ = .error errNotFound := rfl
  have hafter : localStore.releaseTracks afterImport.toTables afterImport.toTables 1
      ⟨none, 20⟩ = .value ⟨[{ hash := 7, duration := none, position := none, title := none }],
        false⟩ := rfl
  intro hparts
  obtain ⟨d, hd, h⟩ := hparts
  simp only [List.mem_cons, List.not_mem_nil, or_false] at hd
  obtain rfl | rfl := hd
  · rw [hbefore] at h
    cases h
  · rw [hafter] at h
    cases h

end OpenDiscogs.Postgres
