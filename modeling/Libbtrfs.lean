import Libbtrfs.Core.Bytes
import Libbtrfs.Core.Interleaving
import Libbtrfs.Core.Ring
import Libbtrfs.Error
import Libbtrfs.SendStream.TlvLaws
import Libbtrfs.SendStream.Attribute
import Libbtrfs.SendStream.Tlv
import Libbtrfs.SendStream.SchemaLaws
import Libbtrfs.SendStream.Command
import Libbtrfs.SendStream.Handler
import Libbtrfs.SendStream.ReadStream
import Libbtrfs.SendStream.Decoder
import Libbtrfs.SendStream.Refinement
import Libbtrfs.SendStream.RoundTrip
import Libbtrfs.SendStream.NoPanic
import Libbtrfs.SendStream.Buffered
import Libbtrfs.SendStream.BufferedSteps
import Libbtrfs.SendStream.BufferedInvariant
import Libbtrfs.SendStream.BufferedSafety
import Libbtrfs.SendStream.BufferedDelivery
import Libbtrfs.SendStream.BufferedSchedules
import Libbtrfs.SendStream.BufferedErrors
import Libbtrfs.SendStream.BufferedProgress
import Libbtrfs.SendStream.HandlerErrors
import Libbtrfs.Core.Forest
import Libbtrfs.Subvol.Iterator
import Libbtrfs.Subvol.Traversal
import Libbtrfs.Subvol.Rootref
import Libbtrfs.Core.Pathname
import Libbtrfs.Subvol.FileSystem
import Libbtrfs.Subvol.FileSystemLaws
import Libbtrfs.Subvol.Destroy
import Libbtrfs.Subvol.Nested
import Libbtrfs.Subvol.DestroyAll
import Libbtrfs.Subvol.DestroyElsewhere
import Libbtrfs.Core.Paging
import Libbtrfs.TreeSearch.Query
import Libbtrfs.TreeSearch.Successors
import Libbtrfs.TreeSearch.Search
import Libbtrfs.TreeSearch.Batch
import Libbtrfs.TreeSearch.Loop
import Libbtrfs.TreeSearch.Paged
import Libbtrfs.TreeSearch.Resuming
import Libbtrfs.TreeSearch.Builder
import Libbtrfs.TreeSearch.RootRef
import Libbtrfs.TreeSearch.Subvolumes
import Libbtrfs.TreeSearch.Capacity
import Libbtrfs.Core.Program
import Libbtrfs.Receive.HandleFull
import Libbtrfs.Receive.Methods
import Libbtrfs.Receive.Serving
import Libbtrfs.Receive.Carrying
import Libbtrfs.Receive.Buffers
import Libbtrfs.Receive.Failing
import Libbtrfs.Receive.Sealing
import Libbtrfs.Receive.Operands
import Libbtrfs.Receive.Confinement
import Libbtrfs.Receive.Xattr
import Libbtrfs.Receive.Write
import Libbtrfs.Subvol.Faults
import Libbtrfs.Subvol.FaultyTraversal
import Libbtrfs.Core.Worklist
import Libbtrfs.Subvol.Bounded
import Libbtrfs.Subvol.GetPath
import Libbtrfs.Subvol.Ancestors
import Libbtrfs.Core.Consumer
import Libbtrfs.SendStream.Receiving
import Libbtrfs.SendStream.Sufficing
import Libbtrfs.SendStream.BufferedSufficing
import Libbtrfs.SendStream.Send
import Libbtrfs.SendStream.BlockingSend
import Libbtrfs.Core.Backward
import Libbtrfs.Core.Packed
import Libbtrfs.TreeSearch.RootItem
import Libbtrfs.TreeSearch.Layout
import Libbtrfs.TreeSearch.TreeItem
import Libbtrfs.TreeSearch.View
import Libbtrfs.TreeSearch.Decoding
import Libbtrfs.TreeSearch.OwnBytes
import Libbtrfs.Subvol.Info
import Libbtrfs.Subvol.InfoLaws
import Libbtrfs.Subvol.Informing
import Libbtrfs.SendStream.Grammar
import Libbtrfs.SendStream.DataGrammar
import Libbtrfs.Core.Utf8
import Libbtrfs.Subvol.Walk
import Libbtrfs.Subvol.Enumerating
import Libbtrfs.Subvol.Readonly
import Libbtrfs.Subvol.ReadonlyLaws
import Libbtrfs.Fs.Info
import Libbtrfs.Dev.Info
import Libbtrfs.Dev.Listing
import Libbtrfs.Dev.Finishing
import Libbtrfs.Core.Rounds
import Libbtrfs.Subvol.GetDefault
import Libbtrfs.Subvol.Defaulting
import Libbtrfs.Core.ExactSize
import Libbtrfs.Fs.Spaces
import Libbtrfs.Subvol.VolName
import Libbtrfs.Dev.Remove
import Libbtrfs.Subvol.ParentName
import Libbtrfs.TreeSearch.TreeIdOrder
import Libbtrfs.TreeSearch.Walking
import Libbtrfs.Core.Checkpoint
import Libbtrfs.SendStream.Progress
import Libbtrfs.SendStream.Reporting
import Libbtrfs.SendStream.Positions
import Libbtrfs.SendStream.SendRefinement
import Libbtrfs.SendStream.Taking
import Libbtrfs.SendStream.PlainSend
import Libbtrfs.SendStream.Awaiting
import Libbtrfs.SendStream.Joining
import Libbtrfs.SendStream.BufferedPanics
import Libbtrfs.SendStream.ReceivingProgress
import Libbtrfs.SendStream.SendProgress
import Libbtrfs.SendStream.BufferedSend
import Libbtrfs.SendStream.Conversation
import Libbtrfs.Receive.Stream
import Libbtrfs.Receive.Panicking
import Libbtrfs.Receive.Running
import Libbtrfs.Subvol.Handling
import Libbtrfs.Subvol.BestEffort
import Libbtrfs.Subvol.Inside
import Libbtrfs.Subvol.AbsolutePath
import Libbtrfs.Subvol.Create
import Libbtrfs.Subvol.Volumes
import Libbtrfs.Subvol.Creating
import Libbtrfs.Core.Settings
import Libbtrfs.TreeSearch.Ranges
import Libbtrfs.SendStream.Options
import Libbtrfs.Core.Priority
import Libbtrfs.Fs.BlockGroup
import Libbtrfs.Core.Sweep
import Libbtrfs.TreeSearch.Changing
import Libbtrfs.Subvol.DefaultChanging
