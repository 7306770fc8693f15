import Marreta.Config.ConnectionUrls
import Marreta.Config.FeatureFlags
import Marreta.Cache.Redis
import Marreta.Runtime.MathNamespace
import Marreta.Runtime.TimeNamespace
import Marreta.Db.BulkWrites
import Marreta.Db.Injection
import Marreta.Db.Placeholders
import Marreta.Db.Selection
import Marreta.Doc.Aggregation
import Marreta.Doc.Bson
import Marreta.Doc.IndexNames
import Marreta.Doc.PipelineStages
import Marreta.Format.Idempotence
import Marreta.Migrations.Convergence
import Marreta.Migrations.DesiredTables
import Marreta.Migrations.DownMigrations
import Marreta.Migrations.Commands
import Marreta.Migrations.Files
import Marreta.Migrations.Inventory
import Marreta.Migrations.ReplayErrors
import Marreta.Migrations.SqlSplitting
import Marreta.Project.PublicRoutes
import Marreta.Project.SchemaChecks
import Marreta.Runtime.Equality
import Marreta.Runtime.JsonText
import Marreta.Runtime.Lexical
import Marreta.Runtime.ListMethods
import Marreta.Runtime.NativeQuery
import Marreta.Runtime.Operators
import Marreta.Runtime.Replies
import Marreta.Runtime.Scopes
import Marreta.Runtime.Stops
import Marreta.Runtime.Traces
import Marreta.Runtime.Transactions
import Marreta.Scenario.Mocks
import Marreta.Scenario.Routes
import Marreta.Schema.Soundness
import Marreta.Schema.TextInputs
import Marreta.Server.ApiKeys
import Marreta.Server.Freezing
import Marreta.Server.Gate
import Marreta.Server.InputSchemas
import Marreta.Server.Registration
import Marreta.Server.Responses
import Marreta.Server.TraceContext
import Marreta.Syntax.PipelineLayout
import Marreta.Syntax.Scan
import Marreta.Lint.BlockLints
import Marreta.Lint.ProjectErrors
import Marreta.Lint.Termination
import Marreta.Lint.UnusedDeclarations
import Marreta.Server.Consumers
import Marreta.OpenApi.Contract
import Marreta.OpenApi.DocumentedStatuses
import Marreta.Config.Version
import Marreta.Runtime.Intervals
import Marreta.Scenario.ResponseLiterals
import Marreta.Server.SigningKeys
import Marreta.Tooling.Positions
import Marreta.Runtime.TimeZones
import Marreta.Tooling.ProviderUse
import Marreta.Server.RequestLogs
import Marreta.Runtime.Constructors
import Marreta.Foundation.Numbering
import Marreta.OpenApi.Document
import Marreta.OpenApi.OperationIds
import Marreta.OpenApi.ShownSchemas
import Marreta.OpenApi.DocumentNames
