import ZfsEvacuation.SystemContract
import ZfsEvacuation.AttachLockPolicy
import ZfsEvacuation.SettlePeriod
import ZfsEvacuation.AbortConvergence
import ZfsEvacuation.LeaderElection
import ZfsEvacuation.LeaderSafety
import ZfsEvacuation.GroupReservation
import ZfsEvacuation.SyncedViews
import ZfsEvacuation.TransferSlots
import ZfsEvacuation.AttemptRecord
import ZfsEvacuation.CommitRecord
import ZfsEvacuation.LockedMode
import ZfsEvacuation.RelayStaleness
import ZfsEvacuation.FailedStart
import ZfsEvacuation.EvacAnchor
import ZfsEvacuation.SwapRecord
import ZfsEvacuation.SwapWindow
import ZfsEvacuation.SourceLast
import ZfsEvacuation.TransferClocks
import ZfsEvacuation.FinalizerEdits
import ZfsEvacuation.TargetChoice
import ZfsEvacuation.AllowedTopologies
import ZfsEvacuation.FollowerPlace
import ZfsEvacuation.Linearization
import ZfsEvacuation.LockUpdates
import ZfsEvacuation.RelayTask
import ZfsEvacuation.RelayIntegrity
import ZfsEvacuation.StatusShape
import ZfsEvacuation.RecordedFields
import ZfsEvacuation.CountedOnce
import ZfsEvacuation.TransferNames
import ZfsEvacuation.SnapshotAgents
import ZfsEvacuation.SnapshotTeardown
import ZfsEvacuation.AnchorVote
import ZfsEvacuation.PeerNetworks
import ZfsEvacuation.PvRendering
import ZfsEvacuation.StatusReplacement
import ZfsEvacuation.VolumeDocument
import ZfsEvacuation.SchedulerFilters
import ZfsEvacuation.AnchorNode
import ZfsEvacuation.GroupTogether
import ZfsEvacuation.CapacityArithmetic
import ZfsEvacuation.TriggerRuns
import ZfsEvacuation.DestinationHandles
import ZfsEvacuation.SwapSurvival
import ZfsEvacuation.GenuineCopy
import ZfsEvacuation.FailedUnwound
import ZfsEvacuation.QuietCopy
import ZfsEvacuation.LandedDatasets
import ZfsEvacuation.CleanupRounds
import ZfsEvacuation.CleanupConvergence
import ZfsEvacuation.IssuedCalls
import ZfsEvacuation.Footprint
import ZfsEvacuation.CommittedCompletion
import ZfsEvacuation.RollForward
import ZfsEvacuation.AccessRules
import ZfsEvacuation.Authorization
import ZfsEvacuation.Amortized
import ZfsEvacuation.RelayProgress
import ZfsEvacuation.LockOwners
import ZfsEvacuation.UpdateContention
import ZfsEvacuation.LeaseTakeover
import ZfsEvacuation.NextReconcile
