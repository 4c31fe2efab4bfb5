import RtThread.Blocking.EventOrder
import RtThread.Blocking.MailboxFifo
import RtThread.Blocking.PriorityOrder
import RtThread.Blocking.WaitOutcome
import RtThread.Clock.HardExpiry
import RtThread.Clock.Millisecond
import RtThread.Clock.Oversleep
import RtThread.Clock.SoftCheckLaws
import RtThread.Device.CanRxQueue
import RtThread.Device.SharedDeviceAgreement
import RtThread.Dfs.NormalizeInPlace
import RtThread.Dfs.PollWakeups
import RtThread.Dfs.Ramfs
import RtThread.Dfs.RomfsRoundTrip
import RtThread.Dfs.SelectView
import RtThread.Driver.CompletionKept
import RtThread.Driver.PipeDelivery
import RtThread.Driver.RingBlockQueue
import RtThread.Driver.RingBufferForce
import RtThread.Driver.WorkQueueCancel
import RtThread.Driver.WorkQueueSafety
import RtThread.Driver.Wqueue
import RtThread.Finsh.HeapInvariant
import RtThread.Finsh.MshSplit
import RtThread.Finsh.NumberToken
import RtThread.Finsh.ShellLine
import RtThread.Finsh.StringNodes
import RtThread.Interrupt.SignalledWait
import RtThread.Ipc.MessageQueueOrder
import RtThread.Ipc.PriorityInheritance
import RtThread.Kservice.AlignedAlloc
import RtThread.Kservice.IntegerConversion
import RtThread.Kservice.Memory
import RtThread.Libc.Calendar
import RtThread.Libc.ClockLaws
import RtThread.Libdl.ArmRelocate
import RtThread.Libdl.LoadHistory
import RtThread.Libdl.SectionLaws
import RtThread.Mem.MempoolBlocks
import RtThread.Mem.MempoolWaiters
import RtThread.Mem.SlabLaws
import RtThread.Memheap.Requests
import RtThread.Pthreads.Barrier
import RtThread.Pthreads.Cleanup
import RtThread.Pthreads.LifetimeLaws
import RtThread.Pthreads.NamedSemLaws
import RtThread.Pthreads.Once
import RtThread.Pthreads.RwLockDestroy
import RtThread.Pthreads.ThreadKeyLaws
import RtThread.Scheduler.Decision
import RtThread.Scheduler.Reclaim
import RtThread.Scheduler.Uniprocessor
import RtThread.Scheduler.WakeOnce
import RtThread.Serial.DmaRx
import RtThread.Serial.DmaTxOrder
import RtThread.Signal.MaskedSignals
