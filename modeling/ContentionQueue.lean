import ContentionQueue.Lib.Machine
import ContentionQueue.Lib.Line
import ContentionQueue.Lib.Locks
import ContentionQueue.Lib.Stacks
import ContentionQueue.System
import ContentionQueue.Transition
import ContentionQueue.Guards
import ContentionQueue.Refinement
import ContentionQueue.Permission
import ContentionQueue.Ownership
import ContentionQueue.Accounting
import ContentionQueue.Unwinding
import ContentionQueue.Fold
import ContentionQueue.Progress
import ContentionQueue.Poison
import ContentionQueue.Reporting
import ContentionQueue.Alarms
import ContentionQueue.Overlay
import ContentionQueue.Discipline
import ContentionQueue.Indifference
import ContentionQueue.Handle
import ContentionQueue.Lib.Protocol
import ContentionQueue.Lib.Budget
import ContentionQueue.Lib.Simulation
import ContentionQueue.Lib.Sequential
import ContentionQueue.Service
import ContentionQueue.Nesting
import ContentionQueue.Aftermath
import ContentionQueue.Calm
import ContentionQueue.Effort
import ContentionQueue.Batches
import ContentionQueue.Lifecycle
import ContentionQueue.Disguise
import ContentionQueue.WaitLoop
import ContentionQueue.StateByte
import ContentionQueue.LockAndProcess
import ContentionQueue.Linearization
import ContentionQueue.Hangs
import ContentionQueue.PoisonFlag
