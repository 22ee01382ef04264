import ChatPipeline.Main
import ChatPipeline.Agent
import ChatPipeline.Graph.Concurrent
import ChatPipeline.Failure.Catalogue
import ChatPipeline.Showcase
import ChatPipeline.Proofs.Graph.Building
import ChatPipeline.Proofs.Graph.Reachability
import ChatPipeline.Proofs.Graph.Acceptance
import ChatPipeline.Proofs.Graph.Steps
import ChatPipeline.Proofs.Graph.Walk
import ChatPipeline.Proofs.Graph.Iteration
import ChatPipeline.Proofs.Graph.Interleaving
import ChatPipeline.Proofs.Graph.Limit
import ChatPipeline.Proofs.Graph.Acyclic
import ChatPipeline.Proofs.Graph.Chain
import ChatPipeline.Proofs.Graph.Kinds
import ChatPipeline.Proofs.Template.Pieces
import ChatPipeline.Proofs.Template.Variables
import ChatPipeline.Proofs.Template.Rendering
import ChatPipeline.Proofs.Template.Independence
import ChatPipeline.Proofs.Template.Faults
import ChatPipeline.Proofs.Template.Positions
import ChatPipeline.Proofs.Template.Segments
import ChatPipeline.Proofs.Template.Parts
import ChatPipeline.Proofs.Template.Naming
import ChatPipeline.Proofs.Graph.History
import ChatPipeline.Proofs.Agent.Conversation
import ChatPipeline.Proofs.Agent.Bound
import ChatPipeline.Proofs.Tool.Batch
import ChatPipeline.Proofs.Tool.Answering
import ChatPipeline.Proofs.Tool.Results
import ChatPipeline.Proofs.Tool.Stock
import ChatPipeline.Proofs.Schema.Acceptance
import ChatPipeline.Proofs.Schema.Arguments
import ChatPipeline.Proofs.Completion.Retelling
import ChatPipeline.Proofs.Text.Digits
import ChatPipeline.Proofs.Json.Texts
import ChatPipeline.Proofs.Json.Spelling
import ChatPipeline.Proofs.Json.Numbers
import ChatPipeline.Proofs.Json.Doubles
import ChatPipeline.Proofs.Json.Notations
import ChatPipeline.Proofs.Json.RoundTrip
import ChatPipeline.Proofs.Assistant
import ChatPipeline.Proofs.Graph.Rejection
import ChatPipeline.Proofs.Schema.Depth
import ChatPipeline.Proofs.Schema.RoundTrip
import ChatPipeline.Proofs.Schema.Inlining
import ChatPipeline.Proofs.Schema.Descriptions
import ChatPipeline.Proofs.Schema.Endless
import ChatPipeline.Proofs.Schema.Refusals
import ChatPipeline.Proofs.Tool.Timing
import ChatPipeline.Proofs.Tool.Failures
import ChatPipeline.Proofs.Agent.Endings
import ChatPipeline.Proofs.Json.Composition
import ChatPipeline.Proofs.Tool.Registration
import ChatPipeline.Proofs.Text.Trimming
import ChatPipeline.Proofs.Settings.Sources
import ChatPipeline.Proofs.Tool.Decoding
import ChatPipeline.Proofs.Graph.Search
import ChatPipeline.Proofs.Text.Octets
import ChatPipeline.Proofs.Web.Escape
import ChatPipeline.Proofs.Web.Address
import ChatPipeline.Proofs.Text.Integers
import ChatPipeline.Proofs.Weather.Request
import ChatPipeline.Proofs.Weather.Answer
import ChatPipeline.Proofs.Text.Lines
import ChatPipeline.Proofs.Files.Paths
import ChatPipeline.Proofs.Files.Globbing
import ChatPipeline.Proofs.Files.Finding
