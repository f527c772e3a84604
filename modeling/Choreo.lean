import Choreo.Session.TurnFlags
import Choreo.Session.TurnIds
import Choreo.Session.RedoMemory
import Choreo.Session.ToolCalls
import Choreo.Daemon.AccountProviders
import Choreo.Daemon.ModelPrefetch
import Choreo.Daemon.Subsessions
import Choreo.Daemon.Requests
import Choreo.Daemon.Delivery
import Choreo.Transport.Messages
import Choreo.Database.TurnCodec
import Choreo.Vm.Reclaim
import Choreo.Protocols.ResponsesInput
import Choreo.Acp.Attachment
import Choreo.Client.KnownServers
import Choreo.Daemon.AccountsFile
import Choreo.Mcp.Tools
import Choreo.Tui.Drafts
import Choreo.Daemon.Backlog
import Choreo.Agent.ConfigMirror
import Choreo.Daemon.Timestamps
import Choreo.Database.Turns
import Choreo.Protocols.EchoGuard
import Choreo.Session.UndoRedo
import Choreo.Vm.Layout
import Choreo.Session.Accounting
import Choreo.Client.ResultChunks
import Choreo.Tools.EditFile
import Choreo.Tools.LineDrain
import Choreo.Protocols.Retry
import Choreo.Protocols.ToolCallIds
import Choreo.Protocols.GoogleStream
import Choreo.Protocols.AnthropicRequest
import Choreo.Tui.TerminalFilter
import Choreo.Catalog.Refresh
import Choreo.Protocols.SseBlocks
import Choreo.Tui.PlainWrap
import Choreo.Im.Bridge
import Choreo.Tui.SessionList
import Choreo.Tui.DiffParse
import Choreo.Tui.HitTest
import Choreo.Vm.GuestKv
import Choreo.Content.Revisions
import Choreo.Tools.FindWalk
