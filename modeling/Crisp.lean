import Crisp.Proofs.CyclicRun
import Crisp.Proofs.Alignment
import Crisp.Proofs.VocabGradient
import Crisp.Lib.Runs
import Crisp.Proofs.OnPolicy
import Crisp.Proofs.Snapshots
import Crisp.Proofs.SampleWeights
import Crisp.Lib.Dirs
import Crisp.Proofs.QueueSafety
import Crisp.Proofs.EvaluationCoverage
import Crisp.Proofs.RetryableFailure
import Crisp.Proofs.PairedSource
import Crisp.Proofs.Admission
import Crisp.Proofs.PhaseAgreement
import Crisp.Proofs.FinalWeights
import Crisp.Proofs.SampleMean
import Crisp.Proofs.MixtureFloor
import Crisp.Proofs.LossFamily
import Crisp.Proofs.Transport
import Crisp.Proofs.ScheduleAgreement
import Crisp.Proofs.TeacherCopy
import Crisp.Proofs.EmaAlgebra
import Crisp.Proofs.PairedBlocks
import Crisp.Lib.SortKeys
import Crisp.Ref.MathCycle
import Crisp.Proofs.SplitLaws
import Crisp.Ref.TextIndex
import Crisp.Lib.UnionFind
import Crisp.Proofs.TextIndex
import Crisp.Lib.Grouping
import Crisp.Proofs.Components
import Crisp.Ref.Eligible
import Crisp.Proofs.Eligible
import Crisp.Lib.Regex
import Crisp.Lib.Pieces
import Crisp.Ref.ProcessEval
import Crisp.Proofs.BoxedAnswer
import Crisp.Ref.CodeSandbox
import Crisp.Proofs.ExtractProgram
import Crisp.Proofs.MergeResults
import Crisp.Ref.RunName
import Crisp.Proofs.RunName
import Crisp.Lib.Json
import Crisp.Ref.Checkpoint
import Crisp.Proofs.CheckpointIdentity
import Crisp.Lib.Simulate
import Crisp.Proofs.CyclicRetry
import Crisp.Ref.TargetMemory
import Crisp.Proofs.TargetMemory
import Crisp.Ref.Pilot
import Crisp.Proofs.Pilot
import Crisp.Lib.Differencing
import Crisp.Ref.SeqlenBalancing
import Crisp.Proofs.KarmarkarKarp
import Crisp.Lib.Packing
import Crisp.Proofs.BinPacking
import Crisp.Ref.DpSchedule
import Crisp.Proofs.DpSchedule
import Crisp.Ref.TrainShards
import Crisp.Proofs.TrainShards
import Crisp.Ref.DataSource
import Crisp.Proofs.DataSource
import Crisp.Lib.Turns
import Crisp.Ref.TicketLock
import Crisp.Proofs.TicketLock
import Crisp.Proofs.TicketTurns
import Crisp.Ref.EvaluateCheckpoint
import Crisp.Proofs.EvaluateCheckpoint
import Crisp.Ref.EvaluationRecord
import Crisp.Proofs.EvaluationRecord
import Crisp.Lib.Distinct
import Crisp.Proofs.EvaluationMetrics
import Crisp.Lib.Zigzag
import Crisp.Ref.ContextParallel
import Crisp.Proofs.ContextParallel
import Crisp.Ref.LossFunction
import Crisp.Proofs.LossFunction
import Crisp.Ref.ResponseChunks
import Crisp.Proofs.ResponseChunks
import Crisp.Lib.Decay
import Crisp.Ref.Advantages
import Crisp.Proofs.Advantages
