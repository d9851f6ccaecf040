import OpenDiscogs.HttpApi.Handlers
import OpenDiscogs.Postgres.Details
import OpenDiscogs.Postgres.ReleaseChildren

/-! The service as its client meets it: a handler in front of a store that reads one state. -/
namespace OpenDiscogs
open Utf8 Catalog HttpApi Postgres

/-- The store as the repository of the handlers, on one state. The reads that are not part of it
here are those of some other repository. -/
def Postgres.Store.repository (s : Store) (t : Tables) (rest : Repository) : Repository :=
  { rest with
    searchArtists := s.searchArtists t
    artistReleases := s.artistReleases t
    searchLabels := s.searchLabels t
    labelReleases := s.labelReleases t
    searchMasters := s.searchMasters t
    masterReleases := s.masterReleases t
    searchReleases := s.searchReleases t
    releasesByCatalogNumber := s.releasesByCatalogNumber t
    releasesByIdentifier := s.releasesByIdentifier t
    release := s.release t
    releaseTracks := s.releaseTracks t t
    releaseIdentifiers := s.releaseIdentifiers t t }

/-- A repository that finds nothing. -/
def emptyRepository : Repository where
  snapshot := .error errNotFound
  searchArtists _ _ := .error errNotFound
  artist _ := .error errNotFound
  artistReleases _ _ := .error errNotFound
  searchLabels _ _ := .error errNotFound
  label _ := .error errNotFound
  labelReleases _ _ := .error errNotFound
  searchMasters _ _ := .error errNotFound
  master _ := .error errNotFound
  masterReleases _ _ := .error errNotFound
  searchReleases _ _ := .error errNotFound
  releasesByCatalogNumber _ _ := .error errNotFound
  releasesByIdentifier _ _ := .error errNotFound
  release _ := .error errNotFound
  releaseTracks _ _ := .error errNotFound
  releaseIdentifiers _ _ := .error errNotFound

/-- The payload of a request that is accepted and whose repository call succeeds. -/
def answer (handler : Handler) (repository : Repository) (request : Request) : Option Payload :=
  match handler request with
  | .error _ => none
  | .ok call => match call.run repository request.path with
    | .value payload => some payload
    | _ => none

theorem answer_ok {handler : Handler} {repository : Repository} {request : Request} {call : Call}
    (h : handler request = .ok call) : answer handler repository request =
      match call.run repository request.path with
      | .value payload => some payload
      | _ => none := by
  rw [answer, h]

theorem answer_eq_some {handler : Handler} {repository : Repository} {request : Request}
    {payload : Payload} : answer handler repository request = some payload ↔
      ∃ call, handler request = .ok call ∧ call.run repository request.path = .value payload := by
  unfold answer
  cases handler request with
  | error e => simp
  | ok call =>
    simp only [Except.ok.injEq, exists_eq_left']
    cases call.run repository request.path with
    | value p => simp
    | error e => simp
    | panic => simp

/-- The page sizes that the service accepts. -/
abbrev PageSize := {n : Nat // 1 ≤ n ∧ n ≤ 30}

end OpenDiscogs
