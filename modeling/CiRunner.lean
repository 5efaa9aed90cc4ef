import CiRunner.CommandLine.Commands
import CiRunner.Main
import CiRunner.Proofs.Branch.LastMatch
import CiRunner.Proofs.Branch.Semantics
import CiRunner.Proofs.Run.Isolation
import CiRunner.Proofs.Run.LateTimer
import CiRunner.Proofs.Run.Results
import CiRunner.Proofs.Server.Lifecycle
import CiRunner.Proofs.Server.RunTable
import CiRunner.Proofs.Server.Unsigned
import CiRunner.Workflow.BuildTool
import CiRunner.Workflow.JobDraft
import CiRunner.Proofs.Event.Starting
import CiRunner.Proofs.Success
import CiRunner.Proofs.Workflow.Order
import CiRunner.Proofs.Workflow.Reading
import CiRunner.Proofs.Run.Dependencies
import CiRunner.Proofs.Run.Course
import CiRunner.Proofs.Run.Variables
import CiRunner.Proofs.Run.Faults
import CiRunner.Proofs.Run.Deadlines
import CiRunner.Proofs.Run.Cancellation
import CiRunner.Proofs.Run.Clones
import CiRunner.Proofs.Server.Repository
import CiRunner.Proofs.Server.GitArguments
import CiRunner.Proofs.Server.Malformed
import CiRunner.Proofs.Run.Telling
import CiRunner.Proofs.Workflow.Writing
import CiRunner.Proofs.Workflow.Escapes
import CiRunner.Proofs.Server.Obstruction
import CiRunner.Proofs.Run.Checkouts
import CiRunner.Proofs.Run.Output
import CiRunner.Proofs.CommandLine.Prediction
import CiRunner.Proofs.Run.Limits
import CiRunner.Proofs.Run.Context
import CiRunner.Proofs.Run.Signals
import CiRunner.Proofs.Server.Capacity
import CiRunner.Proofs.Server.Signatures
import CiRunner.Proofs.Workflow.Kinds
import CiRunner.Proofs.Workflow.Filters
import CiRunner.Proofs.Run.Headings
import CiRunner.Proofs.Run.Interruptions
import CiRunner.Proofs.CommandLine.ExitCodes
import CiRunner.Proofs.Event.Checkout
import CiRunner.Proofs.FileTree.Ways
import CiRunner.Proofs.Run.Streams
import CiRunner.Proofs.Workflow.Environments
import CiRunner.Proofs.Workflow.Drafts
import CiRunner.Proofs.Run.MissingCommands
import CiRunner.Proofs.CommandLine.WorkflowFile
