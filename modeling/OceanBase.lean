import OceanBase.Define
import OceanBase.Lib.Run
import OceanBase.Memtable.MvccRow
import OceanBase.Memtable.RowWrites
import OceanBase.Lib.Residue
import OceanBase.Palf.LSNAllocator
import OceanBase.Palf.FixedSlidingWindow
import OceanBase.Lib.Mem
import OceanBase.Palf.LogWriteBuf
import OceanBase.Palf.LogGroupBuffer
import OceanBase.Lib.Bytes
import OceanBase.Common.Checksum
import OceanBase.Common.Serialization
import OceanBase.Palf.LogEntryHeader
import OceanBase.Palf.LogGroupEntryHeader
import OceanBase.Common.UnifySerialize
import OceanBase.Palf.LSNAllocatorIds
import OceanBase.Palf.LogGroupTruncate
import OceanBase.Common.TimeConvert
import OceanBase.Tx.UndoStatus
import OceanBase.Blocksstable.IntegerBaseDiffDecoder
import OceanBase.Palf.ElectionAcceptor
import OceanBase.Palf.ElectionProposer
import OceanBase.Palf.ElectionVoting
import OceanBase.Tx.IdService
import OceanBase.Tx.IdServiceRuns
import OceanBase.Lib.KthLargest
import OceanBase.Palf.LogSlidingWindow
import OceanBase.Common.EncoderBounds
import OceanBase.Palf.HeaderCodec
import OceanBase.Lib.Compare
import OceanBase.Palf.ElectionPriority
import OceanBase.Palf.VoteChoice
import OceanBase.Lib.Digits
import OceanBase.Common.Number
import OceanBase.Common.NumberCompare
import OceanBase.Lib.Quorum
import OceanBase.Palf.LogConfigMgr
import OceanBase.Palf.ConfigChange
import OceanBase.Common.TimeWeek
import OceanBase.Blocksstable.BitStream
import OceanBase.Lib.LittleEndian
import OceanBase.Blocksstable.BitStream
import OceanBase.Blocksstable.IntegerBaseDiffEncoder
import OceanBase.Blocksstable.IntegerBaseDiffRead
import OceanBase.Common.NumberParse
import OceanBase.Lib.LinkedChain
import OceanBase.Memtable.RowChain
import OceanBase.Memtable.ReplayChain
import OceanBase.Memtable.ChainRefinement
import OceanBase.Common.FastFormat
import OceanBase.Common.NumberText
import OceanBase.Common.NumberFormat
