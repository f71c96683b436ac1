import SentinelStack.Lib.Scan
import SentinelStack.Lib.Bytes
import SentinelStack.Lib.Blocks
import SentinelStack.Vmi.Bridge
import SentinelStack.Vmi.BridgeDelivery
import SentinelStack.Vmi.ThreatPolicy
import SentinelStack.Vmi.BridgeEmission
import SentinelStack.Vmi.Memory
import SentinelStack.Vmi.PhysicalRead
import SentinelStack.Vmi.Translation
import SentinelStack.Vmi.Memslots
import SentinelStack.Vmi.VirtualRead
import SentinelStack.Vmi.MemslotWrite
import SentinelStack.Vmi.NptGuard
import SentinelStack.Vmi.NpfHandler
import SentinelStack.Vmi.GuardPoll
import SentinelStack.Vmi.GuardAlerts
import SentinelStack.Vmi.GuardLifecycle
import SentinelStack.Vmi.Heki
import SentinelStack.Vmi.Drawbridge
import SentinelStack.Vmi.KvmiLink
import SentinelStack.Cc.Shared
import SentinelStack.Cc.ProcMaps
import SentinelStack.Cc.VmaLoader
import SentinelStack.Cc.Check
import SentinelStack.Cc.Hooks
import SentinelStack.Cc.Attribution
import SentinelStack.Cc.LibcBase
import SentinelStack.Cc.FileAttribution
import SentinelStack.Cc.CallGraph
import SentinelStack.Cc.ForkTrack
import SentinelStack.Cc.PidReuse
import SentinelStack.Cc.StartUp
import SentinelStack.Cc.Lifetime
import SentinelStack.Cc.Elf
import SentinelStack.Cc.Signature
import SentinelStack.Cc.Revocation
import SentinelStack.Cc.Policy
import SentinelStack.Cc.MainPolicy
import SentinelStack.Cc.Provenance
import SentinelStack.Cc.CallerCfi
import SentinelStack.Cc.Learning
import SentinelStack.Cc.Dump
import SentinelStack.Cc.AuditJson
import SentinelStack.Cc.PolicyKeys
import SentinelStack.Cc.SentinelPass
import SentinelStack.Cc.IntentScope
import SentinelStack.Vmi.PolicyHistory
import SentinelStack.Vmi.TaskWalker
import SentinelStack.Vmi.PrivilegeBaseline
import SentinelStack.Arm.Stage2
import SentinelStack.Arm.Stage1Walk
import SentinelStack.Smm.SpiLockdown
import SentinelStack.Smm.MeiHook
import SentinelStack.Lib.FirstBy
import SentinelStack.Vmi.BaselineReuse
import SentinelStack.Vmi.ProcessDetectors
import SentinelStack.Vmi.GuardPages
import SentinelStack.Cc.Seeding
import SentinelStack.Vmi.PollHistory
import SentinelStack.Cc.ModuleIds
import SentinelStack.Vmi.RemoteTransfer
import SentinelStack.Smm.MeiModule
import SentinelStack.Smm.TrapPolicy
import SentinelStack.Smm.S3Resume
import SentinelStack.Cc.SymbolSearch
import SentinelStack.Cc.PolicyGate
import SentinelStack.Vmi.FallbackLog
import SentinelStack.Vmi.AlertStream
import SentinelStack.Lib.Fnv
import SentinelStack.Vmi.RegionHash
import SentinelStack.Vmi.JsonEscape
import SentinelStack.Vmi.PolicySlots
import SentinelStack.Cc.BlockCoverage
import SentinelStack.Cc.PassSemantics
import SentinelStack.Lib.Lts
import SentinelStack.Lib.Ring
import SentinelStack.Lib.Tally
import SentinelStack.Cc.Dashboard
import SentinelStack.Lib.SaveArea
import SentinelStack.Arm.Hypervisor
import SentinelStack.Smm.TrapStub
import SentinelStack.Vmi.QemuCmdline
import SentinelStack.Lib.Handles
import SentinelStack.Vmi.SessionHandles
import SentinelStack.Vmi.DaemonHandles
import SentinelStack.Cc.Enforcement
import SentinelStack.Vmi.MainLoop
import SentinelStack.Vmi.BtfOffsets
