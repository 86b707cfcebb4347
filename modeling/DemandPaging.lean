import DemandPaging.Address
import DemandPaging.Bytes
import DemandPaging.Text.Numeral
import DemandPaging.Text.Blank
import DemandPaging.Block.Error
import DemandPaging.Error
import DemandPaging.Halt
import DemandPaging.PageTable.Entry
import DemandPaging.PageTable.Directory
import DemandPaging.Frame.CoreMap
import DemandPaging.Frame.Placement
import DemandPaging.Frame.Pool
import DemandPaging.Replacement.SecondChance
import DemandPaging.Frame.Memory
import DemandPaging.Frame.Table
import DemandPaging.Console
import DemandPaging.Block.Basic
import DemandPaging.File.Basic
import DemandPaging.Swap.SlotBitmap
import DemandPaging.Space.Backing
import DemandPaging.Space.Supplement
import DemandPaging.Swap.Store
import DemandPaging.Machine
import DemandPaging.Kernel.Basic
import DemandPaging.Kernel.Transfer
import DemandPaging.Kernel.Allocation
import DemandPaging.Kernel.Fault
import DemandPaging.Kernel.Mapping
import DemandPaging.Kernel.Registration
import DemandPaging.Kernel.Teardown
import DemandPaging.Kernel.UserCopy
import DemandPaging.Boot
import DemandPaging.Config.Parser
import DemandPaging.Config.Printer
import DemandPaging.Kernel.Agenda
import DemandPaging.Lock.Guarded
import DemandPaging.Kernel.Call
import DemandPaging.Kernel.Thread
import DemandPaging.Proofs.Rules
import DemandPaging.Proofs.Ensures
import DemandPaging.Proofs.Spaces
import DemandPaging.Proofs.Steps
import DemandPaging.Proofs.Slots
import DemandPaging.Proofs.Advance
import DemandPaging.Proofs.Coherence
import DemandPaging.Proofs.Transfers
import DemandPaging.Proofs.Victims
import DemandPaging.Proofs.Evictions
import DemandPaging.Proofs.Allocations
import DemandPaging.Proofs.Faults
import DemandPaging.Proofs.Copies
import DemandPaging.Proofs.Mappings
import DemandPaging.Proofs.Unmappings
import DemandPaging.Proofs.Teardowns
import DemandPaging.Proofs.Actions
import DemandPaging.Proofs.Runs
import DemandPaging.Proofs.Persistence
import DemandPaging.Proofs.Residency
import DemandPaging.Proofs.SwapSlots
import DemandPaging.Proofs.FlatMemory
import DemandPaging.Proofs.Durability
import DemandPaging.Proofs.Refaults
import DemandPaging.Proofs.StackGrowth
import DemandPaging.Proofs.MappedRegistrations
import DemandPaging.Proofs.Interleavings
import DemandPaging.Proofs.InterruptedEvictions
import DemandPaging.Proofs.Completions
import DemandPaging.Proofs.TurnedSwitches
import DemandPaging.Proofs.CompleteTeardowns
import DemandPaging.Proofs.DestroyedSpaces
import DemandPaging.Proofs.Outcomes
import DemandPaging.Proofs.Steadiness
import DemandPaging.Proofs.SteadyVictims
import DemandPaging.Proofs.SteadyEvictions
import DemandPaging.Proofs.SteadyFrames
import DemandPaging.Proofs.SteadyFaults
import DemandPaging.Proofs.SteadyCopies
import DemandPaging.Proofs.SteadyMappings
import DemandPaging.Proofs.SteadyTeardowns
import DemandPaging.Proofs.Histories
import DemandPaging.Proofs.FailedEvictions
import DemandPaging.Proofs.LeftoverEntries
import DemandPaging.Proofs.Traces
import DemandPaging.Proofs.FramesInFlight
import DemandPaging.Proofs.Marks
import DemandPaging.Proofs.MarkedEvictions
import DemandPaging.Proofs.MarkedFaults
import DemandPaging.Proofs.MarkedUnmappings
import DemandPaging.Proofs.MarkedRegistrations
import DemandPaging.Proofs.ChangedPages
import DemandPaging.Proofs.Placements
import DemandPaging.Proofs.Answers
import DemandPaging.Proofs.AnsweredEvictions
import DemandPaging.Proofs.AnsweredFaults
import DemandPaging.Proofs.Renamings
import DemandPaging.Proofs.Agreements
import DemandPaging.Proofs.Twins
import DemandPaging.Proofs.TwinEvictions
import DemandPaging.Proofs.TwinFaults
import DemandPaging.Proofs.TwinCalls
import DemandPaging.Proofs.InvisiblePlacements
import DemandPaging.Proofs.Shortages
import DemandPaging.Proofs.WriteProtection
import DemandPaging.Proofs.Replays
import DemandPaging.Proofs.FreeSlots
import DemandPaging.Proofs.SlotTransfers
import DemandPaging.Proofs.StoredPages
import DemandPaging.Proofs.TicketOrder
import DemandPaging.Proofs.ClockHand
import DemandPaging.Proofs.SecondTurns
import DemandPaging.Proofs.FreeRuns
import DemandPaging.Proofs.PoolRuns
import DemandPaging.Proofs.StaleEvictions
import DemandPaging.Proofs.StaleCalls
import DemandPaging.Proofs.Rounds
import DemandPaging.Proofs.BlankFrames
import DemandPaging.Proofs.Disturbances
import DemandPaging.Proofs.ConfinedFaults
import DemandPaging.Proofs.LastingContents
import DemandPaging.Proofs.ExactCopies
import DemandPaging.Proofs.CutWords
import DemandPaging.Proofs.OptionGrammar
import DemandPaging.Proofs.FiledPages
import DemandPaging.Proofs.LoadedSegments
import DemandPaging.Proofs.MappedFiles
import DemandPaging.Proofs.PageRemovals
import DemandPaging.Proofs.RemovedMappings
import DemandPaging.Proofs.OwnedFrames
import DemandPaging.Proofs.StackBounds
import DemandPaging.Proofs.TransferCounts
import DemandPaging.Proofs.MappingNumbers
import DemandPaging.Proofs.EntryHistories
import DemandPaging.Proofs.GrowingFiles
