import FailurePlayground.Lib.Transition
import FailurePlayground.Lib.Memory
import FailurePlayground.Lib.Bytes
import FailurePlayground.Lib.Interleaving
import FailurePlayground.Lib.Parties
import FailurePlayground.Lib.SlotTable
import FailurePlayground.Lib.Words
import FailurePlayground.Lib.CString
import FailurePlayground.Lib.Numeral
import FailurePlayground.Lib.Json
import FailurePlayground.Arena
import FailurePlayground.ArenaLayout
import FailurePlayground.ArenaSession
import FailurePlayground.ArenaLaw
import FailurePlayground.ArenaContainment
import FailurePlayground.ArenaAlloc
import FailurePlayground.ArenaFree
import FailurePlayground.Event
import FailurePlayground.Runner
import FailurePlayground.EventPipe
import FailurePlayground.EventDelivery
import FailurePlayground.TornRecord
import FailurePlayground.FatalEvents
import FailurePlayground.RunLoop
import FailurePlayground.Consumers
import FailurePlayground.EventStrings
import FailurePlayground.Headless
import FailurePlayground.JsonLines
import FailurePlayground.Tui
import FailurePlayground.TrustBoundary
import FailurePlayground.ChaosIo
import FailurePlayground.IoQuota
import FailurePlayground.IoTable
import FailurePlayground.Rand
import FailurePlayground.Seeding
import FailurePlayground.ChaosNet
import FailurePlayground.NetProgress
import FailurePlayground.NetFilter
import FailurePlayground.NetIntegrity
import FailurePlayground.NetClose
import FailurePlayground.NetKnobs
import FailurePlayground.RecordStream
import FailurePlayground.SplitBrain
import FailurePlayground.Lockstep
import FailurePlayground.TimedCancel
import FailurePlayground.ArenaOverrun
import FailurePlayground.IoSequential
import FailurePlayground.Lib.KeyedTable
import FailurePlayground.StatsTable
import FailurePlayground.StatsPane
import FailurePlayground.Lib.Wrap
import FailurePlayground.LogPane
import FailurePlayground.Overlay
import FailurePlayground.ClockJump
import FailurePlayground.JsonValid
import FailurePlayground.Lib.Ledger
import FailurePlayground.NetPair
import FailurePlayground.EventTimes
import FailurePlayground.RaceCounter
import FailurePlayground.TuiKeys
import FailurePlayground.DeadlockClassic
import FailurePlayground.HerdTimes
import FailurePlayground.HerdRun
import FailurePlayground.HerdProgress
import FailurePlayground.RunHandle
import FailurePlayground.CascadingFailure
import FailurePlayground.CascadeRun
import FailurePlayground.CascadeSeeded
import FailurePlayground.CascadeProgress
import FailurePlayground.CommandLine
import FailurePlayground.ConnectionReset
import FailurePlayground.ConnectionRun
import FailurePlayground.ConnectionProgress
import FailurePlayground.CancelMidwrite
import FailurePlayground.MidwriteReturns
import FailurePlayground.FlakyEnvironment
import FailurePlayground.FlakyRun
import FailurePlayground.FlakyProgress
import FailurePlayground.RunVerdict
import FailurePlayground.VerdictTold
import FailurePlayground.HeadlessVerdict
import FailurePlayground.Lib.Slots
import FailurePlayground.CascadeClosing
import FailurePlayground.FlakyClosing
