import Wakii.Journal.OutcomeReload
import Wakii.Journal.SentOnce
import Wakii.Layout.TransitionsSound
import Wakii.Remote.E2EEArrival
import Wakii.Orchestration.RelayRuns
import Wakii.Git.AdmissionRuns
import Wakii.Terminal.StreamJsonBytes
import Wakii.Terminal.Paging
import Wakii.Terminal.InputLedgerRuns
import Wakii.Mutations.MutationRuns
import Wakii.Orchestration.GateRuns
import Wakii.Orchestration.ReadyTasks
import Wakii.Layout.StoredSession
import Wakii.Workspaces.LifecycleRuns
import Wakii.Layout.ProjectedOrder
import Wakii.Layout.PtyOwnershipSound
import Wakii.Layout.RecordGuard
import Wakii.Layout.LoadGroupTree
import Wakii.Layout.LoadRetirementRun
import Wakii.Layout.LoadSessionSound
import Wakii.Layout.TabOrderMoves
import Wakii.Journal.QueueMoves
import Wakii.Daemon.BackpressureRuns
import Wakii.Journal.JournalItemKeysSound
import Wakii.Journal.InputPlacesSound
import Wakii.Journal.NewestTurnSound
import Wakii.Daemon.StreamDataSound
import Wakii.Journal.LifecycleBatchSound
import Wakii.Terminal.BellDetector
import Wakii.Terminal.AnsiNormalizationSound
import Wakii.Terminal.SynchronizedOutput
import Wakii.Remote.E2EETranscript
import Wakii.Terminal.Mode2031
import Wakii.Terminal.CommandFinishedSound
import Wakii.Terminal.TailSentinels
import Wakii.Terminal.AgentStatusOscSound
import Wakii.Layout.SplitRatios
