import Toolchain.Storage.TemporaryFiles
import Toolchain.Storage.Durability
import Toolchain.Execution.Names
import Toolchain.Storage.Metering
import Toolchain.BuildSense.Retention
import Toolchain.BuildSense.BuildsQueue
import Toolchain.BuildSense.SearchBridge
import Toolchain.BuildSense.ArtifactResults
import Toolchain.BuildSense.RawStore
import Toolchain.Storage.ActionUpdates
import Toolchain.Storage.RedisReads
import Toolchain.Pypi.PythonTags
import Toolchain.Workflow.Guards
import Toolchain.Workflow.DocumentedCounts
import Toolchain.Workflow.Conservation
import Toolchain.Workflow.Release
import Toolchain.Pypi.ModuleMap
import Toolchain.Pypi.PythonGraph
import Toolchain.Pypi.Dumps
import Toolchain.Pypi.UrlFetcher
import Toolchain.SatResolver.Preferences
import Toolchain.SatResolver.Reachability
import Toolchain.SatResolver.Termination
import Toolchain.SatResolver.LazyGraph
import Toolchain.SatResolver.MavenConfig
import Toolchain.SatResolver.ResultGraph
import Toolchain.SatResolver.Report
import Toolchain.Storage.DarkLaunchWrites
import Toolchain.Storage.ByteStreamWrite
import Toolchain.Storage.Exactness
import Toolchain.Proxy.ByteStream
import Toolchain.Proxy.WriteRetries
import Toolchain.Execution.SingleExecution
import Toolchain.Execution.Cancellation
import Toolchain.Execution.Agreement
import Toolchain.Site.RefreshTokens
import Toolchain.Site.Subscriptions
import Toolchain.Util.DynamoDbMutex
import Toolchain.BuildSense.Outcomes
import Toolchain.BuildSense.RawData
import Toolchain.Pants.AuthClient
import Toolchain.Pants.Batches
import Toolchain.Maven.PackageVersions
import Toolchain.Maven.VersionSpec
