import OnlyJs.Bridge.DbExec.Delivery
import OnlyJs.Bridge.DbExport.RoundTrip
import OnlyJs.Bridge.DbStream.Stop
import OnlyJs.Bridge.Runtime.Isolation
import OnlyJs.Bridge.Runtime.KillSwitch
import OnlyJs.Bridge.DbExport.Expiry
import OnlyJs.Bridge.DbExport.Completeness
import OnlyJs.Bridge.Placeholder.Stability
import OnlyJs.Bridge.DbExport.Slots
import OnlyJs.Bridge.DbImport.Accounting
import OnlyJs.Bridge.DbSession.Visibility
import OnlyJs.Bridge.Guard.Hiding
import OnlyJs.Bridge.DbPolicy.Relayout
import OnlyJs.Serve.HandleApi
import OnlyJs.Serve.Tasks
import OnlyJs.Serve.SingleFlight
import OnlyJs.Serve.Multipart.Agreement
import OnlyJs.Oj.Converge
import OnlyJs.Oj.CronFidelity
import OnlyJs.Oj.Migrate.ExactlyOnce
import OnlyJs.Oj.PlatformNames
import OnlyJs.Oj.Reload.Generations
import OnlyJs.Oj.MountFetch
import OnlyJs.Bridge.FramePool.Service
import OnlyJs.Bridge.ClientDb.Calls
import OnlyJs.Bridge.WsHub.Rooms
import OnlyJs.Bridge.TaskPool.Sessions
import OnlyJs.Bridge.Mail.Send
import OnlyJs.Bridge.Fs.Jail
import OnlyJs.Contract.Meaning
import OnlyJs.Bridge.Blob.Refinement
import OnlyJs.Bridge.Exec.Truthful
import OnlyJs.Bridge.DbSurface.Mediated
import OnlyJs.Bridge.Explain.Faithful
import OnlyJs.Bridge.Query.Transparent
import OnlyJs.Bridge.Query.Unfiltered
import OnlyJs.Bridge.Guard.LetterCase
import OnlyJs.Bridge.RemoteBus.Delivery
import OnlyJs.Bridge.PoolCall.Cancel
import OnlyJs.Bridge.Mgmt.Lifecycle
import OnlyJs.Plugin.Mail.Faithful
import OnlyJs.Plugin.Mq.Consumption
import OnlyJs.Serve.Ranges
import OnlyJs.Serve.Smuggling
import OnlyJs.Serve.Table.Slots
import OnlyJs.Serve.Generations
import OnlyJs.Serve.HeadMeta.Metadata
import OnlyJs.Oj.Migrate.Verify
import OnlyJs.Bridge.ClientDb.DialScan
import OnlyJs.Secret.SealedTree
import OnlyJs.Bridge.Kv
import OnlyJs.Bridge.DbPolicy.RedactSql
import OnlyJs.Bridge.CommonJs
import OnlyJs.Bridge.DbStream.Wrapper
import OnlyJs.Serve.McpTools
import OnlyJs.Oj.Extract
import OnlyJs.Plugin.ShapeTag
import OnlyJs.Plugin.Mq.Deadline
import OnlyJs.Plugin.S3Upload
import OnlyJs.Plugin.RowJson
