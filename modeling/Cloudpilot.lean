import Cloudpilot.Common.CardFormat
import Cloudpilot.Common.Cli
import Cloudpilot.Common.GunzipRuns
import Cloudpilot.Common.ZipArchive
import Cloudpilot.Emulator.ImageRoundTrip
import Cloudpilot.Emulator.Storage.RestoredMounts
import Cloudpilot.Emulator.TailpatchRuns
import Cloudpilot.Emulator.Watchpoints
import Cloudpilot.Hardware.BankMapped.MappedRuns
import Cloudpilot.Hardware.EmRegsVZ.SpiStatus
import Cloudpilot.Hardware.EmRegsVZ.WordRuns
import Cloudpilot.Hardware.MemoryRoundTrip
import Cloudpilot.Hardware.MemoryStick.HostRestored
import Cloudpilot.Hardware.MemoryStick.ProgramReports
import Cloudpilot.Hardware.RtcAlarm
import Cloudpilot.Hardware.SDCard.Arguments
import Cloudpilot.Hardware.SDCard.BufferInvariant
import Cloudpilot.Hardware.ScreenTracking.ScreenRuns
import Cloudpilot.Hardware.Uart.StreamRuns
import Cloudpilot.Network.HandleTable
import Cloudpilot.Network.SocketOptions
import Cloudpilot.Uarm.Ac97.Ac97Runs
import Cloudpilot.Uarm.ClockInterrupts
import Cloudpilot.Uarm.Cpu.ShifterOperand
import Cloudpilot.Uarm.Gpio.DetectedEdges
import Cloudpilot.Uarm.ICache.Ranges
import Cloudpilot.Uarm.InjectedCall
import Cloudpilot.Uarm.Lcd.MissedWrite
import Cloudpilot.Uarm.Lcd.WriteTracking
import Cloudpilot.Uarm.Memcpy.Agreement
import Cloudpilot.Uarm.Mmc.CardSize
import Cloudpilot.Uarm.Mmc.TransferRuns
import Cloudpilot.Uarm.NandFlash.FlashRuns
import Cloudpilot.Uarm.PaceMode.ExceptionEntry
import Cloudpilot.Uarm.Patches.Once
import Cloudpilot.Uarm.Peripherals.ScheduledWork
import Cloudpilot.Uarm.Scheduling.Accounting
import Cloudpilot.Uarm.Scheduling.CyclesToNext
import Cloudpilot.Uarm.Scheduling.TickGrid
import Cloudpilot.Uarm.Session.RleSafety
import Cloudpilot.Uarm.Session.RleTermination
import Cloudpilot.Uarm.Session.SessionRoundTrip
import Cloudpilot.Uarm.Snapshot.Lossless
import Cloudpilot.Uarm.TimrSleep
import Cloudpilot.Vfs.CopyFailures
import Cloudpilot.Vfs.DiskIo
import Cloudpilot.Vfs.OverwriteDirectory
import Cloudpilot.Vfs.UnzipConfined
import Cloudpilot.Web.NetworkSuspend
import Cloudpilot.Web.SnapshotInvariant
import Cloudpilot.Web.VfsSync
