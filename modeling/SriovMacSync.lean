import SriovMacSync.Interaction.Judgement
import SriovMacSync.Data.Mac
import SriovMacSync.Data.MacGrammar
import SriovMacSync.Netlink.Walks
import SriovMacSync.Netlink.VfInfo
import SriovMacSync.Custody.Batch
import SriovMacSync.Custody.Bookkeeping
import SriovMacSync.Custody.Operations
import SriovMacSync.Growth.Additions
import SriovMacSync.Growth.BatchAdditions
import SriovMacSync.Growth.DriverAnswers
import SriovMacSync.Growth.Wire
import SriovMacSync.Ownership.Ground
import SriovMacSync.Ownership.Views
import SriovMacSync.Ownership.Concurrency
import SriovMacSync.Ownership.Crashes
import SriovMacSync.Ownership.Foreign
import SriovMacSync.Agreement.Learns
import SriovMacSync.Bpf.Machine
import SriovMacSync.Data.Bytes
import SriovMacSync.Netlink.Messages
import SriovMacSync.Netlink.NoiseFilter
import SriovMacSync.Absence.Grace
import SriovMacSync.Cache.Disk
import SriovMacSync.Cache.Invisible
import SriovMacSync.Flushing.Clean
import SriovMacSync.Flushing.Residue
import SriovMacSync.Removals.Guarding
import SriovMacSync.Removals.Noted
import SriovMacSync.Allowance.Course
import SriovMacSync.Allowance.Kept
import SriovMacSync.Cache.Check
import SriovMacSync.Pressure.Pass
import SriovMacSync.Cache.Appending
import SriovMacSync.Netlink.Dump
import SriovMacSync.Data.FirstCome
import SriovMacSync.Topology.Autodetect
import SriovMacSync.Agreement.Keeps
import SriovMacSync.Pressure.Batch
import SriovMacSync.Pressure.Crowding
import SriovMacSync.Memory.Lines
import SriovMacSync.Memory.Shelf
import SriovMacSync.Memory.Notes
import SriovMacSync.Memory.Sections
import SriovMacSync.Memory.Files
import SriovMacSync.Memory.Aside
import SriovMacSync.Memory.Forgetting
import SriovMacSync.Memory.Reflecting
import SriovMacSync.Memory.Reflections
import SriovMacSync.Memory.Taking
import SriovMacSync.Memory.Renames
import SriovMacSync.Daemon.Loop
import SriovMacSync.Daemon.Waiting
import SriovMacSync.Memory.Apart
import SriovMacSync.Memory.Preceding
import SriovMacSync.Memory.Refusals
import SriovMacSync.Data.Loops
import SriovMacSync.Data.Search
import SriovMacSync.Data.Chains
import SriovMacSync.Topology.Reachability
import SriovMacSync.Topology.Resolutions
import SriovMacSync.Topology.Coverage
import SriovMacSync.Daemon.Pacing
import SriovMacSync.Cache.Probing
import SriovMacSync.Preview.Predictions
import SriovMacSync.Handover.Tenure
import SriovMacSync.Locks.Progress
import SriovMacSync.Storage.Whole
import SriovMacSync.Sysfs.Extras
import SriovMacSync.Cards.Settling
import SriovMacSync.Cards.Telling
import SriovMacSync.Netlink.Lifetimes
import SriovMacSync.Netlink.Notifications
import SriovMacSync.Invocation.CommandLine
import SriovMacSync.Invocation.Configuration
import SriovMacSync.Invocation.Pairs
