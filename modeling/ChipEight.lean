import ChipEight.Main
import ChipEight.Machine.Tracing
import ChipEight.Memory.Dump
import ChipEight.Proofs.CallStackContents
import ChipEight.Proofs.CycleOutcomes
import ChipEight.Proofs.Runs
import ChipEight.Proofs.SubroutineBracketing
import ChipEight.Proofs.ByteRegisters
import ChipEight.Proofs.WellFormedMachines
import ChipEight.Proofs.DisplayShape
import ChipEight.Proofs.ReachableMachines
import ChipEight.Proofs.ChannelFlow
import ChipEight.Proofs.SpritePixels
import ChipEight.Proofs.DecodingByDigits
import ChipEight.Proofs.SpritesDrawnTwice
import ChipEight.Proofs.PausedSessions
import ChipEight.Proofs.WrittenParts
import ChipEight.Proofs.KeyStates
import ChipEight.Proofs.HostRounds
import ChipEight.Proofs.KeyWaits
import ChipEight.Proofs.CountdownSpacing
import ChipEight.Proofs.Redraws
import ChipEight.Proofs.SessionCourse
import ChipEight.Proofs.SessionAccounts
import ChipEight.Proofs.StalePictures
import ChipEight.Proofs.GlyphsInMemory
import ChipEight.Proofs.LoadedPrograms
import ChipEight.Proofs.StackRequests
import ChipEight.Proofs.WrappingAccesses
import ChipEight.Proofs.TracedCycles
import ChipEight.Proofs.WatchedSessions
import ChipEight.Proofs.AssemblyTexts
import ChipEight.Proofs.TraceLines
import ChipEight.Proofs.WindowPixels
import ChipEight.Proofs.WindowRequests
import ChipEight.Proofs.ProgramSteps
import ChipEight.Proofs.WindowSystemCalls
import ChipEight.Proofs.WindowSessions
import ChipEight.Proofs.FlagArithmetic
import ChipEight.Proofs.FrequentLooks
import ChipEight.Proofs.SpriteCounts
import ChipEight.Proofs.PressedKeys
import ChipEight.Proofs.ProgramReports
import ChipEight.Proofs.MissingBorrows
import ChipEight.Proofs.LoadAttempts
import ChipEight.Proofs.SavedRegisters
import ChipEight.Proofs.OppositeSkips
import ChipEight.Proofs.SeparatedTexts
import ChipEight.Proofs.PrintedPictures
import ChipEight.Proofs.MemoryDumps
import ChipEight.Proofs.MachineTexts
import ChipEight.Proofs.DecimalIntegers
import ChipEight.Proofs.OptionNames
import ChipEight.Proofs.OptionGroups
import ChipEight.Proofs.KeyViews
import ChipEight.Proofs.PolledKeyboards
import ChipEight.Proofs.DecimalDigits
import ChipEight.Proofs.AlignedInstructions
