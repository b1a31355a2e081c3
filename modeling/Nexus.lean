import Nexus.Lib.Machine
import Nexus.Lib.GoMap
import Nexus.Lib.PairedIndex
import Nexus.Lib.RuleCombining
import Nexus.Go.Runtime
import Nexus.Go.Strings
import Nexus.Go.Http
import Nexus.Go.Base32
import Nexus.Users.Model
import Nexus.Rbac.Permissions
import Nexus.Policy.Types
import Nexus.Policy.Engine
import Nexus.Policy.EngineProperties
import Nexus.Policy.Handler
import Nexus.Audit.Logger
import Nexus.Audit.Handler
import Nexus.Security.RateLimit
import Nexus.Lib.Streak
import Nexus.Security.RateLimitMachine
import Nexus.Auth.Errors
import Nexus.Auth.Store
import Nexus.Auth.StoreProperties
import Nexus.Auth.Service
import Nexus.Auth.ServiceProperties
import Nexus.Auth.Directory
import Nexus.Auth.DirectoryProperties
import Nexus.Auth.RegistrationProperties
import Nexus.Auth.Totp
import Nexus.Auth.TotpProperties
import Nexus.Auth.Middleware
import Nexus.Auth.Handler
import Nexus.Auth.MfaHandler
import Nexus.Server.World
import Nexus.Server.Routes
import Nexus.Server.RouteProperties
import Nexus.Server.AccessProperties
import Nexus.Server.EnrolmentProperties
import Nexus.Server.LockoutProperties
import Nexus.Server.MediationProperties
import Nexus.Auth.StoreMachine
import Nexus.Auth.StoreMachineProperties
import Nexus.Lib.Table
import Nexus.Auth.StorePostgres
import Nexus.Auth.StorePostgresProperties
import Nexus.Go.Bcrypt
import Nexus.Audit.LoggerProperties
import Nexus.Auth.Hashing
import Nexus.Server.LoginProperties
import Nexus.Lib.BigEndian
import Nexus.Python.Bytes
import Nexus.Security.TotpVerify
import Nexus.Lib.OneTimeCode
import Nexus.Security.TotpVerifyProperties
import Nexus.Go.Base32Properties
import Nexus.Python.Base32Properties
import Nexus.Security.TotpAgreement
import Nexus.Audit.Trail
import Nexus.Audit.PagingProperties
import Nexus.Server.RoleProperties
import Nexus.Security.RateLimitProperties
import Nexus.Security.Replicas
import Nexus.Security.ReplicasProperties
import Nexus.Go.JsonText
import Nexus.Postgres.Jsonb
import Nexus.Postgres.JsonbProperties
import Nexus.Audit.LoggerPostgres
import Nexus.Audit.LoggerPostgresProperties
import Nexus.Server.AuditableProperties
import Nexus.Server.Shutdown
import Nexus.Server.ShutdownProperties
import Nexus.Lib.Replay
import Nexus.Server.Concurrent
import Nexus.Server.ConcurrentProperties
import Nexus.Server.ReplayProperties
import Nexus.Policy.AliasProperties
import Nexus.Audit.HandlerProperties
import Nexus.Security.SecretRoundTrip
import Nexus.Server.AdmissionProperties
import Nexus.Frontend.ApiClient
import Nexus.Frontend.AuthProvider
import Nexus.Frontend.SessionProperties
import Nexus.Auth.TotpUriProperties
import Nexus.JavaScript.Json
import Nexus.JavaScript.JsonProperties
import Nexus.Auth.Token
import Nexus.Auth.TokenProperties
import Nexus.Frontend.SettingsPage
import Nexus.Frontend.SettingsPageProperties
import Nexus.Lib.Sql
import Nexus.Lib.SqlReplay
import Nexus.Database.Migrations
import Nexus.Lib.SqlTime
import Nexus.Database.MigrationProperties
import Nexus.Lib.SqlRows
import Nexus.Database.UsersProperties
import Nexus.Go.JsonDecode
import Nexus.Go.JsonEncode
import Nexus.Go.Mux
import Nexus.JavaScript.EncodeProperties
import Nexus.JavaScript.Stringify
import Nexus.JavaScript.StringifyProperties
import Nexus.Lib.Refinement
import Nexus.Server.GuardProperties
import Nexus.Server.ResponseProperties
import Nexus.Server.SequentialProperties
import Nexus.Frontend.ApiCalls
import Nexus.Frontend.ApiCallsProperties
import Nexus.Frontend.JourneyProperties
import Nexus.Frontend.ApiResponses
import Nexus.Frontend.ApiResponsesProperties
import Nexus.Frontend.LoginPage
import Nexus.Frontend.LoginPageProperties
import Nexus.Lib.Ledger
import Nexus.Policy.EngineLedger
import Nexus.Server.DeploymentProperties
import Nexus.Server.PolicyApiProperties
import Nexus.Frontend.Pages
import Nexus.Frontend.PagesProperties
