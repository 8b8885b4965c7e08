import Chip8.Editor.Server
import Chip8.Main
import Chip8.Proofs.MemoryCells
import Chip8.Proofs.OpcodeFields
import Chip8.Proofs.ImageLayout
import Chip8.Proofs.OperandSpelling
import Chip8.Proofs.TextPieces
import Chip8.Proofs.LoadedProgram
import Chip8.Proofs.StepEffects
import Chip8.Proofs.CallStack
import Chip8.Proofs.TimerUpdates
import Chip8.Proofs.RegisterRange
import Chip8.Proofs.StackDepth
import Chip8.Proofs.SpriteDrawing
import Chip8.Proofs.ReachableStates
import Chip8.Proofs.NumeralDigits
import Chip8.Proofs.WrittenLines
import Chip8.Proofs.ListingRoundTrip
import Chip8.Proofs.StateRanges
import Chip8.Proofs.StepFaults
import Chip8.Proofs.MachineSteps
import Chip8.Proofs.MachineHistory
import Chip8.Proofs.ForgottenHistory
import Chip8.Proofs.PublishedFrame
import Chip8.Proofs.OpcodeRoundTrip
import Chip8.Proofs.OutsideInfluence
import Chip8.Proofs.SourceLanguage
import Chip8.Proofs.AcceptedSources
import Chip8.Proofs.ReportedFaults
import Chip8.Proofs.LabelReferences
import Chip8.Proofs.JoinedSources
import Chip8.Proofs.Relocation
import Chip8.Proofs.WindowPicture
import Chip8.Proofs.DocumentEvents
import Chip8.Proofs.RunCourse
import Chip8.Proofs.WindowedStart
import Chip8.Proofs.DebuggerHistory
import Chip8.Proofs.FilePrograms
import Chip8.Proofs.DebuggerLoading
import Chip8.Proofs.KeptBreakpoints
import Chip8.Proofs.OperandFaults
import Chip8.Proofs.FirstFault
import Chip8.Proofs.LayoutNoise
import Chip8.Proofs.DrawnSprites
import Chip8.Proofs.StepChanges
import Chip8.Proofs.ControlFlow
import Chip8.Proofs.BlockTransfers
import Chip8.Proofs.ByteArithmetic
import Chip8.Proofs.RunLoop
import Chip8.Proofs.RefusedPrograms
import Chip8.Proofs.TimerSlices
import Chip8.Proofs.LeftoverTime
import Chip8.Proofs.ThrottledRun
import Chip8.Proofs.LaggedValues
import Chip8.Proofs.SeededRange
import Chip8.Proofs.DiagnosedLines
import Chip8.Proofs.RefusedCommands
import Chip8.Proofs.HoveredWord
import Chip8.Proofs.MemoryHistory
import Chip8.Proofs.OfferedItems
import Chip8.Proofs.OperandOutcomes
