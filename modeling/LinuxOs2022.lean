import LinuxOs2022.Syscall.Sharing
import LinuxOs2022.Syscall.ErrorReporting
import LinuxOs2022.Syscall.KernelHalf
import LinuxOs2022.Syscall.HeapUse
import LinuxOs2022.Syscall.TableWalk
import LinuxOs2022.Syscall.SegmentBounds
import LinuxOs2022.Syscall.SegmentReporting
import LinuxOs2022.Syscall.MmAccess
import LinuxOs2022.Syscall.SegmentSize
import LinuxOs2022.Scheduler.CpuNumber
import LinuxOs2022.Scheduler.StartStop
import LinuxOs2022.Scheduler.Inheritance
import LinuxOs2022.Scheduler.ThreadGroup
import LinuxOs2022.Scheduler.Accounting
import LinuxOs2022.Scheduler.IntResult
import LinuxOs2022.Scheduler.WakeUps
import LinuxOs2022.Scheduler.DeadReference
import LinuxOs2022.Scheduler.LoadCount
import LinuxOs2022.Scheduler.UclampIdle
import LinuxOs2022.Scheduler.Unprivileged
import LinuxOs2022.Scheduler.CfsRuns
import LinuxOs2022.Scheduler.UclampEffective
