import TurboAgent.ToolExecutor.AtMostOnce
import TurboAgent.Policy.Confinement
import TurboAgent.ToolNode.Approval
import TurboAgent.Router.Admission
import TurboAgent.Router.LoopDiscipline
import TurboAgent.AgentContext.Consistency
import TurboAgent.Harness.Lossless
import TurboAgent.Provider.ChatStream
import TurboAgent.Provider.Conversation
import TurboAgent.Speech.Discipline
import TurboAgent.Codex.Isolation
import TurboAgent.Mcp.Mirroring
import TurboAgent.Mcp.Selection
import TurboAgent.Memory.RoundTrip
import TurboAgent.Memory.Query
import TurboAgent.Resilience.Discipline
import TurboAgent.Router.GroupDiscipline
import TurboAgent.Runtime.History
import TurboAgent.VectorStore.Splitter
import TurboAgent.Chain.Runs
import TurboAgent.Graph.Budget
import TurboAgent.Graph.Executors
import TurboAgent.Runtime.Publication
import TurboAgent.AgentCompiler.Budget
import TurboAgent.Events.Schemas
import TurboAgent.Praktor.Coverage
import TurboAgent.StateGraph.UpdateLog
import TurboAgent.StateGraph.Resumption
import TurboAgent.StateGraph.RoundTrip
import TurboAgent.StateGraph.Typing
import TurboAgent.AgentCompiler.Dependencies
import TurboAgent.AgentCompiler.Optimizer
import TurboAgent.Graph.Builder
import TurboAgent.Runtime.Chain
import TurboAgent.SnapshotStore.Naming
import TurboAgent.SnapshotStore.Latest
import TurboAgent.StateGraph.Failures
import TurboAgent.StateGraph.Merge
import TurboAgent.Harness.Manifest
import TurboAgent.StateFlow.Extraction
import TurboAgent.ToolRegistry.Bridge
import TurboAgent.AgentCompiler.KeyOrder
import TurboAgent.AgentCompiler.Templates
import TurboAgent.Workspace.Edit
import TurboAgent.SpeechOutput.Utf8
import TurboAgent.SpeechOutput.Delivery
import TurboAgent.Diagram.Rendering
import TurboAgent.Runnables.Agreement
import TurboAgent.Codex.Framing
import TurboAgent.Knowledge.Failures
import TurboAgent.Knowledge.Filters
import TurboAgent.Harness.TurnStatus
import TurboAgent.Sandbox.Concurrent
