import FastoNoSQL.Sds.Grammar
import FastoNoSQL.Sds.Json
import FastoNoSQL.Command.Dispatch
import FastoNoSQL.Driver.Understood
import FastoNoSQL.Driver.Translated
import FastoNoSQL.Driver.History
import FastoNoSQL.Driver.Interrupt
import FastoNoSQL.Driver.ExecuteLoop
import FastoNoSQL.Driver.Leaves
import FastoNoSQL.Store.CreateLoad
import FastoNoSQL.Store.Rename
import FastoNoSQL.Store.DeleteReports
import FastoNoSQL.Store.Keys
import FastoNoSQL.Store.Content
import FastoNoSQL.Store.Counts
import FastoNoSQL.Store.Flush
import FastoNoSQL.Redis.Forwarding
import FastoNoSQL.Redis.Replies
import FastoNoSQL.Redis.Redirection
import FastoNoSQL.Redis.SentinelInfo
import FastoNoSQL.Redis.Sync
import FastoNoSQL.Redis.Latency
import FastoNoSQL.Redis.Session
import FastoNoSQL.Redis.Stopping
import FastoNoSQL.Redis.Editing
import FastoNoSQL.Redis.ClusterInfos
import FastoNoSQL.Redis.BigKeys
import FastoNoSQL.Redis.Content
import FastoNoSQL.Redis.Conversion
import FastoNoSQL.Redis.ReaderSafety
import FastoNoSQL.Redis.ContextLink
import FastoNoSQL.Ssdb.Requests
import FastoNoSQL.Server.Databases
import FastoNoSQL.Server.Requests
import FastoNoSQL.Server.Registry
import FastoNoSQL.Settings.CommandLine
import FastoNoSQL.Settings.Manager
import FastoNoSQL.Settings.Lists
import FastoNoSQL.Driver.WatchedCommands
import FastoNoSQL.Gui.KeyInfo
import FastoNoSQL.Gui.RemoveBranch
import FastoNoSQL.Gui.Mirrors
import FastoNoSQL.Gui.KeyDialog
import FastoNoSQL.Gui.Paging
import FastoNoSQL.Gui.HexEdit
import FastoNoSQL.Gui.EditedKey
