import TelegramMcp.Lib.Rust
import TelegramMcp.Lib.System
import TelegramMcp.Lib.Txn
import TelegramMcp.Lib.Keyed
import TelegramMcp.Lib.FullText
import TelegramMcp.Lib.Replay
import TelegramMcp.Lib.Newest
import TelegramMcp.Lib.Utf8
import TelegramMcp.Lib.WinPath
import TelegramMcp.Lib.WinJoin
import TelegramMcp.Lib.Proc
import TelegramMcp.Lib.Forest
import TelegramMcp.Lib.Arith
import TelegramMcp.Lib.Gregorian
import TelegramMcp.Serde.Json
import TelegramMcp.Serde.Decode
import TelegramMcp.Aliases
import TelegramMcp.TgClient
import TelegramMcp.History.Types
import TelegramMcp.History.Store
import TelegramMcp.History.Effects
import TelegramMcp.History.Atomicity
import TelegramMcp.History.Search
import TelegramMcp.History.Coherence
import TelegramMcp.History.Paging
import TelegramMcp.History.Retention
import TelegramMcp.History.Unread
import TelegramMcp.History.Migration
import TelegramMcp.Updater.Mapping
import TelegramMcp.Updater.Media
import TelegramMcp.Updater.Polling
import TelegramMcp.Updater.Ingestion
import TelegramMcp.Server.Error
import TelegramMcp.Server.FilePath
import TelegramMcp.Server.ToolsIo
import TelegramMcp.Server.Tools
import TelegramMcp.Server.Delivery
import TelegramMcp.Server.Process
import TelegramMcp.Server.Recency
import TelegramMcp.Server.Provenance
import TelegramMcp.Server.Retention
import TelegramMcp.Server.MessageIds
import TelegramMcp.Server.Config
import TelegramMcp.Server.SendTargets
import TelegramMcp.LocalPipe.Process
import TelegramMcp.LocalPipe.Discovery
import TelegramMcp.LocalPipe.Server
import TelegramMcp.LocalPipe.Auth
import TelegramMcp.Hook.Cli
import TelegramMcp.Hook.Calls
import TelegramMcp.Hook.Replies
import TelegramMcp.Hook.Split
import TelegramMcp.Hook.Invocations
import TelegramMcp.Server.Walk
import TelegramMcp.Hook.Question
import TelegramMcp.Hook.LocalInput
import TelegramMcp.Hook.Discovery
import TelegramMcp.Hook.McpClient
import TelegramMcp.Hook.Handshake
import TelegramMcp.Hook.Main
import TelegramMcp.Hook.Conduct
import TelegramMcp.Hook.Options
import TelegramMcp.Hook.Relay
import TelegramMcp.TgClient.Download
import TelegramMcp.LocalPipe.Backoff
import TelegramMcp.LocalPipe.Civil
import TelegramMcp.Lib.Simulation
import TelegramMcp.History.Archive
import TelegramMcp.Server.Messages
import TelegramMcp.Server.Main
import TelegramMcp.Server.Start
import TelegramMcp.Updater.Requests
