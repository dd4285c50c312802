import DebBuilder.Lib.Protocol
import DebBuilder.Lib.Dict
import DebBuilder.Execution.Drain
import DebBuilder.Execution.CancelOutcome
import DebBuilder.Run.Store
import DebBuilder.Pipeline.Settlement
import DebBuilder.Automation.Validity
import DebBuilder.Automation.Backoff
import DebBuilder.Scheduler.Requests
import DebBuilder.Validation.Attempts
import DebBuilder.Validation.Eligibility
import DebBuilder.Validation.Readers
import DebBuilder.Validation.Intent
import DebBuilder.Storage.Pressure
import DebBuilder.Recovery.Restart
import DebBuilder.Publishing.Retirement
import DebBuilder.Publishing.Index
import DebBuilder.Storage.Pruning
import DebBuilder.Containment.Blockers
import DebBuilder.Containment.Identity
import DebBuilder.Containment.Limits
import DebBuilder.Recipe.Retention
import DebBuilder.Archive.Agreement
import DebBuilder.Archive.Payload
import DebBuilder.Source.Exact
import DebBuilder.Source.Versions
import DebBuilder.Preparation.Status
import DebBuilder.Toolchain.Semantics
import DebBuilder.Toolchain.Support
import DebBuilder.Workspace.Slots
import DebBuilder.Workspace.Pressure
import DebBuilder.Elf.Relations
import DebBuilder.Lib.FileTree
import DebBuilder.Elf.Links
import DebBuilder.Elf.Shlibdeps
import DebBuilder.Elf.Resolver
import DebBuilder.Elf.Traversal
import DebBuilder.Command.Output
import DebBuilder.Upstream.Identity
import DebBuilder.Upstream.Canonical
import DebBuilder.Notifications.Pairing
import DebBuilder.Lib.LiveTree
import DebBuilder.Exported.FailClosed
import DebBuilder.Lib.ControlRules
import DebBuilder.Lib.UnitRules
import DebBuilder.Packaging.Control
import DebBuilder.Packaging.Unit
import DebBuilder.Auth.Safety
import DebBuilder.Observation.SingleFlight
import DebBuilder.Resources.Evidence
import DebBuilder.Github.Token
import DebBuilder.Github.Download
import DebBuilder.Elf.Filtering
import DebBuilder.Transactions.Exact
import DebBuilder.Runtimes.Agreement
import DebBuilder.Lib.History
import DebBuilder.Maintenance.Served
import DebBuilder.Lifecycle.Quiescence
import DebBuilder.Exported.Public
import DebBuilder.Validation.Ownership
