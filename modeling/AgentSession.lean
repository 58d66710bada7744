import AgentSession.Text.Utf8
import AgentSession.Text.Blank
import AgentSession.Text.Decimal
import AgentSession.Text.Cut
import AgentSession.Text.Quoted
import AgentSession.Number.Literal
import AgentSession.Number.Shortest
import AgentSession.Json.Basic
import AgentSession.Json.Printer
import AgentSession.Json.Field
import AgentSession.Json.Reader
import AgentSession.Json.PatchDocument
import AgentSession.StateStore
import AgentSession.Identifier
import AgentSession.Request.Wire
import AgentSession.Event.Wire
import AgentSession.Framing.Framer
import AgentSession.Session.Handle
import AgentSession.Registry
import AgentSession.Middleware.Chain
import AgentSession.Middleware.Retry
import AgentSession.Middleware.Builtin
import AgentSession.Config.Load
import AgentSession.Agent.Drive
import AgentSession.Agent.Script
import AgentSession.Event.Sample
import AgentSession.Framing.Body
import AgentSession.Middleware.Recorder
import AgentSession.Session.Recorder
import AgentSession.CommandLine.Replay
import AgentSession.Main
import AgentSession.Files
import AgentSession.FailureLabel
import AgentSession.Text.Hex
import AgentSession.DocumentType
import AgentSession.Proofs.Framing.Grammar
import AgentSession.Proofs.Agent.Pieces
import AgentSession.Proofs.Agent.Correspondence
import AgentSession.Proofs.Agent.Record
import AgentSession.Proofs.Agent.Delivery
import AgentSession.Proofs.Dict
import AgentSession.Proofs.Json.Field
import AgentSession.Proofs.Json.Alias
import AgentSession.Proofs.Message.RoundTrip
import AgentSession.Proofs.Event.RoundTrip
import AgentSession.Proofs.Event.Lenient
import AgentSession.Proofs.Message.Locate
import AgentSession.Proofs.Session.History
import AgentSession.Proofs.Shuffle
import AgentSession.Proofs.Session.Streams
import AgentSession.Proofs.Session.Interleaving
import AgentSession.Proofs.Session.Gathering
import AgentSession.Proofs.Message.Change
import AgentSession.Proofs.Session.Operation
import AgentSession.Proofs.Session.Effects
import AgentSession.Proofs.Session.Failures
import AgentSession.Proofs.Session.Identifiers
import AgentSession.Proofs.Session.OpenStreams
import AgentSession.Proofs.Session.Buffers
import AgentSession.Proofs.Session.BufferRuns
import AgentSession.Proofs.Session.CallPieces
import AgentSession.Proofs.Session.OpenCalls
import AgentSession.Proofs.Json.Edit
import AgentSession.Proofs.StateStore.Undo
import AgentSession.Proofs.Json.FailingPatch
import AgentSession.Proofs.Json.WholeDocument
import AgentSession.Proofs.Session.NullState
import AgentSession.Proofs.Session.Phases
import AgentSession.Proofs.Session.Hooks
import AgentSession.Proofs.Agent.Reception
import AgentSession.Proofs.Agent.Preparation
import AgentSession.Proofs.Agent.Malformed
import AgentSession.Proofs.Session.Announcements
import AgentSession.Proofs.Agent.CallPhases
import AgentSession.Proofs.Agent.Lifecycle
import AgentSession.Proofs.Session.Mirror
import AgentSession.Proofs.Agent.Operations
import AgentSession.Proofs.Agent.Attempts
import AgentSession.Proofs.Framing.Body
import AgentSession.Proofs.Session.Appending
import AgentSession.Proofs.Agent.NewMessages
import AgentSession.Proofs.Session.Parts
import AgentSession.Proofs.Middleware.Builtin
import AgentSession.Proofs.Agent.Observation
import AgentSession.Proofs.Agent.Reading
import AgentSession.Proofs.Agent.Filtering
import AgentSession.Proofs.Json.Lens
import AgentSession.Proofs.Json.Inverse
import AgentSession.Proofs.Agent.Payloads
import AgentSession.Proofs.Agent.Isolation
import AgentSession.Proofs.Json.Creation
import AgentSession.Proofs.Json.Relocation
import AgentSession.Proofs.Json.PatchDocument
import AgentSession.Proofs.Json.Bounds
import AgentSession.Proofs.Framing.Decoding
import AgentSession.Proofs.Session.ContentForms
import AgentSession.Proofs.Session.Thinking
import AgentSession.Proofs.Middleware.Visits
import AgentSession.Proofs.Middleware.Phases
import AgentSession.Proofs.Middleware.Retry
import AgentSession.Proofs.Json.Token
import AgentSession.Proofs.Json.Lexing
import AgentSession.Proofs.Json.Compact
import AgentSession.Proofs.Config.Comments
import AgentSession.Proofs.Config.CommentedText
import AgentSession.Proofs.Text.Replace
import AgentSession.Proofs.Config.References
import AgentSession.Proofs.Config.Substitution
import AgentSession.Proofs.Config.Loading
import AgentSession.Proofs.Config.Layers
import AgentSession.Proofs.Request.RoundTrip
import AgentSession.Proofs.Identifier
