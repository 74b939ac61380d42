import EffectLatch.OverdueLeases
import EffectLatch.ListenerShutdown
import EffectLatch.GrantReplies
import EffectLatch.WireConversation
import EffectLatch.ResponseTransport
import EffectLatch.LaunchHandover
import EffectLatch.EngineReturns
import EffectLatch.EngineInvocations
import EffectLatch.RuntimeEngine
import EffectLatch.LiveLeases
import EffectLatch.SupervisedCompletion
import EffectLatch.SupervisedExecution
import EffectLatch.ClaimProgress
import EffectLatch.ConfiguredCapacities
import EffectLatch.ServiceAvailability
import EffectLatch.LeaseContents
import EffectLatch.ControlReplies
import EffectLatch.DaemonCalls
import EffectLatch.StoreProgress
import EffectLatch.AuditTrail
import EffectLatch.RoleConfinement
import EffectLatch.ControlSystem
import EffectLatch.ControlApi
import EffectLatch.ReservationAtomicity
import EffectLatch.CleanupPermits
import EffectLatch.BoundedBypass
import EffectLatch.HashFraming
import EffectLatch.RequestTransport
import EffectLatch.RunnerSequencing
import EffectLatch.TenantIsolation
import EffectLatch.ConfigurationConfinement
import EffectLatch.RunJournals
import EffectLatch.QueueCapacity
import EffectLatch.LeaseExpiryBounds
import EffectLatch.LockCycles
import EffectLatch.LockOrdering
import EffectLatch.LockProtocol
import EffectLatch.IdempotentAdmission
import EffectLatch.SchedulerCorruption
import EffectLatch.RevocationFinality
import EffectLatch.ClaimSelection
import EffectLatch.EventHeads
import EffectLatch.AncestryLiveness
import EffectLatch.EffectBudgetConservation
import EffectLatch.LeaseFencing
import EffectLatch.RunStateRefinement
import EffectLatch.SlotAccounting
import EffectLatch.OrdinalDiscipline
import EffectLatch.ModuleSurface
import EffectLatch.FrameRoundTrips
import EffectLatch.RunNormalization
import EffectLatch.ReapDraining
import EffectLatch.GrantCheckExactness
import EffectLatch.AuthenticationExactness
