import A3sBench.ArchivePipelineRuns
import A3sBench.Asset
import A3sBench.AtomicWrite
import A3sBench.BenchRun
import A3sBench.CandidateRecord
import A3sBench.CanonicalDecimal
import A3sBench.CaptureRuns
import A3sBench.CodexPackage
import A3sBench.CodexResume
import A3sBench.Comparison
import A3sBench.ConnectHandler
import A3sBench.CrashPoints
import A3sBench.DockerImages
import A3sBench.JournalRuns
import A3sBench.ResultRecord
import A3sBench.RunInput
import A3sBench.SeedCacheRuns
import A3sBench.SnapshotIdentity
import A3sBench.RunCompletion
import A3sBench.Suite
import A3sBench.SuiteReports
import A3sBench.ImportMounts
import A3sBench.ProxyHosts
import A3sBench.Relay
import A3sBench.RemoteTransport
import A3sBench.ComparisonReport
import A3sBench.GameFinish
import A3sBench.SuiteProgress
import A3sBench.ResultFraming
import A3sBench.JudgeMetrics
import A3sBench.StructuredResult
import A3sBench.LegacyJudge
import A3sBench.Submission
import A3sBench.TurnHistory
import A3sBench.StableAbsence
import A3sBench.WorkspaceInventory
import A3sBench.SecretRedaction
import A3sBench.TokenRedaction
import A3sBench.ResumePolicy
import A3sBench.CandidateDeadline
import A3sBench.SubmissionPatterns
import A3sBench.StaleSweep
import A3sBench.ArchiveDelivery
import A3sBench.CodexHomeRuns
import A3sBench.TaskPanics
import A3sBench.BoundedDrain
import A3sBench.ExportBudget
import A3sBench.TerminalExport
import A3sBench.LockCreation
import A3sBench.RecordedMetrics
import A3sBench.JudgeCommand
import A3sBench.ConcurrentPreparation
import A3sBench.LockRuns
import A3sBench.CodexLifecycle
import A3sBench.SweepCompleteness
