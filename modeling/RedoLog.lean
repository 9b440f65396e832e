import RedoLog.Basic
import RedoLog.Block
import RedoLog.LogSys
import RedoLog.Buffer
import RedoLog.Group
import RedoLog.GroupIO
import RedoLog.ReadSeg
import RedoLog.Writer
import RedoLog.BufferInv
import RedoLog.Checkpoint
import RedoLog.System
import RedoLog.Runs
import RedoLog.Flush
import RedoLog.Watermark
import RedoLog.CheckpointSafety
import RedoLog.Margin
import RedoLog.WriteLow
import RedoLog.BufferSize
import RedoLog.RecGroup
import RedoLog.Growth
import RedoLog.BlockNo
import RedoLog.Extend
import RedoLog.BlockFormat
import RedoLog.Recovery
import RedoLog.CheckpointBlock
import RedoLog.FileHeader
import RedoLog.CheckpointNo
import RedoLog.Progress
import RedoLog.Completion
