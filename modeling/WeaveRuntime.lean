import WeaveRuntime.Tools.Orchestration.Lanes
import WeaveRuntime.TaskLists.Scheduling
import WeaveRuntime.Jobs.Timestamps
import WeaveRuntime.Teammates.Settlement
import WeaveRuntime.TurnEngine.OneOutcome
import WeaveRuntime.TurnEngine.Ghosts
import WeaveRuntime.Hooks.Templates
import WeaveRuntime.Skills.Reinterpreted
import WeaveRuntime.Skills.Availability
import WeaveRuntime.Delegation.Bounded
import WeaveRuntime.TurnEngine.Observers
import WeaveRuntime.Tools.DecidedInput
import WeaveRuntime.Tools.Agreement
import WeaveRuntime.Packages.Completeness
import WeaveRuntime.Transcripts.Equivalent
import WeaveRuntime.Compaction.Exchanges
import WeaveRuntime.Teams.Agreement
import WeaveRuntime.Teams.Lifecycle
import WeaveRuntime.Memory.Quiescence
import WeaveRuntime.Memory.Rollback
import WeaveRuntime.ToolSchemas.Arguments
import WeaveRuntime.Spawning.ChildRuns
import WeaveRuntime.Spawning.Depth
import WeaveRuntime.TaskLists.SingleInProgress
import WeaveRuntime.TaskLists.Footprint
import WeaveRuntime.ContextWindow.Overlap
import WeaveRuntime.TurnEngine.RetryBudget
import WeaveRuntime.TurnEngine.Provenance
import WeaveRuntime.TurnEngine.RetriedRequests
import WeaveRuntime.TurnEngine.StreamAssembly
import WeaveRuntime.Permissions.Audit
import WeaveRuntime.Teammates.Duplicates
import WeaveRuntime.Contracts.PrivateContext
import WeaveRuntime.ContextWindow.Unspilled
import WeaveRuntime.Teammates.Stopping
import WeaveRuntime.Hooks.Isolation
import WeaveRuntime.WebResearch.Sufficiency
import WeaveRuntime.Memory.Deltas
import WeaveRuntime.Memory.Documents
import WeaveRuntime.Sessions.Processable
import WeaveRuntime.Devtools.Edit
import WeaveRuntime.Kits.Git
import WeaveRuntime.TurnEngine.SkillUpdates
import WeaveRuntime.Hosts.Helpers
