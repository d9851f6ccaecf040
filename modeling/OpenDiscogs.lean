import OpenDiscogs.AcceptedRequests
import OpenDiscogs.App.Serve
import OpenDiscogs.App.Startup
import OpenDiscogs.ArtistReleases
import OpenDiscogs.Config.DatabaseUrl
import OpenDiscogs.Config.Precedence
import OpenDiscogs.Consistency
import OpenDiscogs.Documented
import OpenDiscogs.ExactLookup
import OpenDiscogs.FailedRequests
import OpenDiscogs.HttpApi.BufferPool
import OpenDiscogs.HttpApi.RequestAccounting
import OpenDiscogs.IdentifierLookup
import OpenDiscogs.Links
import OpenDiscogs.Management
import OpenDiscogs.MasterReleases
import OpenDiscogs.Postgres.ReadConsistency
import OpenDiscogs.ReleaseDates
import OpenDiscogs.ReleaseSearch
import OpenDiscogs.SearchFilters
import OpenDiscogs.Statements
import OpenDiscogs.SubstringSearch
import OpenDiscogs.Views
