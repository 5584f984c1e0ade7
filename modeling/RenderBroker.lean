import RenderBroker.Command.Arguments
import RenderBroker.Command.Console
import RenderBroker.Command.Help
import RenderBroker.Command.Reply
import RenderBroker.Extensions
import RenderBroker.Failure
import RenderBroker.Fault
import RenderBroker.Files.Tree
import RenderBroker.Json.Reader
import RenderBroker.Json.Token
import RenderBroker.Json.Value
import RenderBroker.Log
import RenderBroker.Loop.Basic
import RenderBroker.Loop.Client
import RenderBroker.Loop.Handler
import RenderBroker.Loop.History
import RenderBroker.Loop.Poller
import RenderBroker.Loop.Service
import RenderBroker.Loop.Stopping
import RenderBroker.Main
import RenderBroker.Options.Basic
import RenderBroker.Options.Document
import RenderBroker.Options.Settings
import RenderBroker.Path
import RenderBroker.Proofs.History
import RenderBroker.Proofs.Moves
import RenderBroker.Render.Backend
import RenderBroker.Render.Bridge
import RenderBroker.Render.Channel
import RenderBroker.Render.Crew
import RenderBroker.Render.Handle
import RenderBroker.Render.Locking
import RenderBroker.Render.Loopback
import RenderBroker.Render.Notice
import RenderBroker.Render.Queue
import RenderBroker.Render.Request
import RenderBroker.Render.Task
import RenderBroker.Render.Thread
import RenderBroker.Server.Config
import RenderBroker.Server.Connector
import RenderBroker.Server.Host
import RenderBroker.Server.Link
import RenderBroker.Server.Location
import RenderBroker.Server.Renderer
import RenderBroker.Server.Script
import RenderBroker.Server.Transit
import RenderBroker.Stream.Capacity
import RenderBroker.Stream.Descriptor
import RenderBroker.Stream.Input
import RenderBroker.Stream.Outcome
import RenderBroker.Stream.Output
import RenderBroker.Surface.Scene
import RenderBroker.Surface.Texture
import RenderBroker.Text.Blank
import RenderBroker.Text.Decimal
import RenderBroker.Text.Hidden
import RenderBroker.Text.Quoted
import RenderBroker.Text.Split
import RenderBroker.Text.Utf8
import RenderBroker.Turns
import RenderBroker.Version
import RenderBroker.Proofs.Sessions
import RenderBroker.Proofs.Steps
import RenderBroker.Proofs.Lives
import RenderBroker.Proofs.Callbacks
import RenderBroker.Proofs.Renderer
import RenderBroker.Proofs.Contexts
import RenderBroker.Proofs.Requests
import RenderBroker.Proofs.Marks
import RenderBroker.Proofs.Interests
import RenderBroker.Proofs.Textures
import RenderBroker.Proofs.Shutdown
import RenderBroker.Proofs.Frames
import RenderBroker.Proofs.Owners
import RenderBroker.Proofs.Outputs
import RenderBroker.Proofs.Surfaces
import RenderBroker.Proofs.Executions
import RenderBroker.Proofs.Locks
import RenderBroker.Proofs.Neighbours
import RenderBroker.Proofs.Accounts
import RenderBroker.Proofs.Lookups
import RenderBroker.Proofs.Listening
import RenderBroker.Proofs.Lifecycle
import RenderBroker.Proofs.Documents
import RenderBroker.Proofs.Wakeups
import RenderBroker.Proofs.Precedence
import RenderBroker.Proofs.Buffers
import RenderBroker.Proofs.Flushes
import RenderBroker.Proofs.Growth
import RenderBroker.Proofs.Levels
import RenderBroker.Proofs.Versions
import RenderBroker.Proofs.Entries
import RenderBroker.Proofs.Overrides
import RenderBroker.Proofs.Verdicts
import RenderBroker.Proofs.Allowances
import RenderBroker.Proofs.Lexemes
import RenderBroker.Proofs.Skipping
import RenderBroker.Proofs.Objects
import RenderBroker.Proofs.Fields
import RenderBroker.Proofs.Values
