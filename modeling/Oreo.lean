import Oreo.Bench.Allocations
import Oreo.Bench.CompleteSends
import Oreo.Bench.CtxSwitch.Peers
import Oreo.Bench.CtxSwitch.Scheduling
import Oreo.Bench.Fork.Fresh
import Oreo.Bench.Hangs
import Oreo.Bench.Monitor.Arguments
import Oreo.Bench.Read.EndOfFile
import Oreo.Bench.Recv.Rounds
import Oreo.Bench.Reports
import Oreo.Bench.Signals
import Oreo.Bench.SocketLeaks
import Oreo.Bench.Threads.Timestamps
import Oreo.Blindside.Attack
import Oreo.Blindside.Counters
import Oreo.Blindside.Isolation
import Oreo.Blindside.Silence
import Oreo.Main.Units
import Oreo.OsEval.Agreement
import Oreo.OsEval.Average
import Oreo.OsEval.Completion
import Oreo.OsEval.Coverage
import Oreo.OsEval.NullResult
import Oreo.OsEval.OneLine
import Oreo.OsEval.ResultsFile
import Oreo.OsEval.Selection
import Oreo.OsEval.Transfers
import Oreo.OsEval.WaitTests
import Oreo.OsEval.Rebinding
import Oreo.Utils.Aggregate.Minority
import Oreo.Utils.ClosestK.Repeated
import Oreo.Utils.CollectResults.Rescale
import Oreo.Utils.CreateAndFill.Postcondition
