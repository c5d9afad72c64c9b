import Pocky.Lib.Run
import Pocky.Lib.Tiling
import Pocky.Lib.Vector
import Pocky.Lib.Chains
import Pocky.Lib.Walk
import Pocky.Lib.Consuming
import Pocky.Lib.Arcs
import Pocky.Lib.Ownership
import Pocky.Lib.ByteMemory
import Pocky.Memory.PhysicalMemory
import Pocky.Memory.PhysicalMemoryLaws
import Pocky.Memory.Heap
import Pocky.Memory.HeapLaws
import Pocky.Memory.HeapFrames
import Pocky.Memory.HeapRuns
import Pocky.Memory.HeapAccounting
import Pocky.Memory.HeapAlignment
import Pocky.Memory.VirtualMemory
import Pocky.Memory.PageTableEntryLaws
import Pocky.Memory.PageTree
import Pocky.Memory.Translation
import Pocky.Memory.VirtualMemoryLaws
import Pocky.Memory.PageTables
import Pocky.Memory.TableWalks
import Pocky.Memory.PageWrites
import Pocky.Memory.AddressLookup
import Pocky.Memory.FrameShortage
import Pocky.Core.Ipc
import Pocky.Core.IpcLaws
import Pocky.Core.IpcManager
import Pocky.Core.IpcManagerLaws
import Pocky.Lib.Calls
import Pocky.Memory.PagedMemory
import Pocky.Memory.FrameOwnership
import Pocky.Memory.PagedMemoryLaws
import Pocky.Memory.ShownPages
import Pocky.Memory.SettledMemory
import Pocky.Core.SharedMemory
import Pocky.Core.SharedMemoryLaws
import Pocky.Core.Scheduler
import Pocky.Core.SchedulerLaws
import Pocky.Core.ProcessManager
import Pocky.Core.ProcessLaws
import Pocky.Core.KernelInvariants
import Pocky.Core.RunQueueLaws
import Pocky.Core.BlockingLaws
import Pocky.Core.WakeLaws
import Pocky.Core.TerminationLaws
import Pocky.Core.StackLaws
import Pocky.Core.Context
import Pocky.Core.ContextLaws
import Pocky.Fs.Disk
import Pocky.Fs.Fat32
import Pocky.Fs.Directory
import Pocky.Fs.Files
import Pocky.Fs.VolumeLaws
import Pocky.Fs.DirectoryLaws
import Pocky.Fs.AllocationLaws
import Pocky.Fs.Tables
import Pocky.Fs.ChainLaws
import Pocky.Fs.Geometry
import Pocky.Fs.Supply
import Pocky.Fs.Endings
import Pocky.Fs.WriteEntry
import Pocky.Fs.RemovalLaws
import Pocky.Fs.PathLaws
import Pocky.Fs.PathFolding
import Pocky.Fs.DeleteFile
import Pocky.Fs.LongNames
import Pocky.Fs.HandingOut
import Pocky.Fs.Entries
import Pocky.Fs.SoundVolume
import Pocky.Fs.FileData
import Pocky.Fs.DataWrites
import Pocky.Fs.StoredBytes
import Pocky.Fs.WriteFile
import Pocky.Fs.Tree
import Pocky.Fs.TreeOperations
import Pocky.Fs.Runs
import Pocky.Fs.EntryRoundTrip
import Pocky.Lib.Moves
import Pocky.Lib.Taking
import Pocky.Lib.Lines
import Pocky.Shell.ChangeDirectory
import Pocky.Shell.ChangeDirectoryLaws
import Pocky.Shell.Editor
import Pocky.Lib.Zipper
import Pocky.Shell.EditorLaws
import Pocky.Shell.EditorRuns
import Pocky.Fs.FileRewriting
import Pocky.Fs.Lookups
import Pocky.Fs.CreationLaws
import Pocky.Fs.CreateDelete
import Pocky.Fs.Emptiness
import Pocky.Fs.NewDirectory
import Pocky.Fs.Renaming
import Pocky.Fs.AllOrNothing
import Pocky.Fs.ExposedBytes
import Pocky.Fs.MovedOperations
import Pocky.Fs.AbsolutePaths
import Pocky.Lib.Rooted
import Pocky.Fs.Hierarchy
import Pocky.Fs.RecursiveDelete
import Pocky.Fs.Pruning
import Pocky.Fs.PrunedTree
import Pocky.Fs.NestedDeletes
import Pocky.Fs.Catalogue
import Pocky.Fs.Subtrees
import Pocky.Fs.Thinning
import Pocky.Fs.Dangling
import Pocky.Core.ProgramLoading
import Pocky.Core.BackingLaws
import Pocky.Core.LoadingLaws
import Pocky.Core.FailedSetUp
import Pocky.Core.SelectionLaws
import Pocky.Core.BalanceLaws
import Pocky.Core.StackWindows
import Pocky.Core.InitialStack
import Pocky.Shell.VisualDeletion
import Pocky.Shell.FailedSave
import Pocky.Shell.Screen
import Pocky.Shell.ScreenLaws
import Pocky.Core.PageBytes
import Pocky.Core.ConfinedLoading
import Pocky.Lib.Glob
import Pocky.Text.Wildcard
import Pocky.Core.Multiboot
import Pocky.Lib.Wrapping
import Pocky.Shell.Pager
import Pocky.Text.Printf
import Pocky.Text.FormatEnds
import Pocky.Text.Directives
import Pocky.Text.PrintedStrings
import Pocky.Text.PrintedNumbers
import Pocky.Text.Snprintf
import Pocky.Shell.Cat
import Pocky.Shell.Terminal
import Pocky.Shell.TerminalLaws
import Pocky.Shell.CommandLine
import Pocky.Shell.CommandLineLaws
import Pocky.Shell.AliasedCommands
import Pocky.Lib.FirstGreatest
import Pocky.Lib.Slots
import Pocky.Fs.RelabelledTree
import Pocky.Fs.RenamedTree
import Pocky.Fs.LosslessRenames
import Pocky.Lib.Traced
import Pocky.Lib.RecordLayout
import Pocky.Hw.Acpi
import Pocky.Hw.Smp
import Pocky.Hw.SmpLaws
import Pocky.Hw.RsdpLaws
import Pocky.Memory.MappedPages
import Pocky.Hw.TableMapping
import Pocky.Fs.MirroredTables
import Pocky.Memory.ByteMoves
import Pocky.Text.UnsignedNumbers
import Pocky.Fs.DistinctNames
import Pocky.Fs.NamedVolume
import Pocky.Fs.NamedCalls
import Pocky.Fs.UniqueNames
import Pocky.Lib.Simulation
import Pocky.Lib.Blocks
import Pocky.Containers.Vector
import Pocky.Containers.VectorLaws
import Pocky.Containers.VectorRuns
import Pocky.Lib.Turns
import Pocky.Core.FairnessLaws
import Pocky.Lib.WordStack
import Pocky.Core.Interrupts
import Pocky.Core.InterruptLaws
import Pocky.Core.InterruptedRuns
import Pocky.Core.DescriptorTable
import Pocky.Fs.HeldFiles
import Pocky.Fs.FileStore
import Pocky.Fs.FileStoreRuns
import Pocky.Drivers.Ata
import Pocky.Drivers.AtaLaws
import Pocky.Drivers.AtaRuns
import Pocky.Core.Fork
import Pocky.Core.ForkLaws
import Pocky.Drivers.Keyboard
import Pocky.Drivers.KeyboardLaws
import Pocky.Shell.Typing
import Pocky.Shell.Paging
import Pocky.Shell.AliasFile
