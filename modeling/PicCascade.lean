import PicCascade.LineSet
import PicCascade.Text.Hex
import PicCascade.Text.Structure
import PicCascade.LittleEndian
import PicCascade.Snapshot.Header
import PicCascade.Snapshot.Error
import PicCascade.Snapshot.Reader
import PicCascade.Snapshot.Item
import PicCascade.Snapshot.Container
import PicCascade.Snapshot.Container.Parser
import PicCascade.Snapshot.Container.Value
import PicCascade.Chip.Position
import PicCascade.Chip.Registers
import PicCascade.Chip.Arbitration
import PicCascade.Chip.Basic
import PicCascade.Chip.Command
import PicCascade.Chip.Record
import PicCascade.Config
import PicCascade.Counters
import PicCascade.Pair.Basic
import PicCascade.Pair.Acknowledge
import PicCascade.Pair.Ports
import PicCascade.Pair.Saved
import PicCascade.Pair.Text
import PicCascade.Pair.Operation
import PicCascade.Platform.PortBus
import PicCascade.Platform.Latch
import PicCascade.Platform.Scratch
import PicCascade.Platform.Board
import PicCascade.Platform.Handler
import PicCascade.Platform.Machine
import PicCascade.Proofs.Snapshot.Reader
import PicCascade.Proofs.Snapshot.Container
import PicCascade.Proofs.Snapshot.Defect
import PicCascade.Proofs.Snapshot.Layout
import PicCascade.Proofs.Chip.Output
import PicCascade.Proofs.Chip.Service
import PicCascade.Proofs.Chip.Command
import PicCascade.Proofs.Chip.Record
import PicCascade.Proofs.Pair.Settle
import PicCascade.Proofs.Pair.Change
import PicCascade.Proofs.Pair.History
import PicCascade.Proofs.Pair.Level
import PicCascade.Proofs.Pair.Cascade
import PicCascade.Proofs.Pair.Agree
import PicCascade.Proofs.Pair.Restore
import PicCascade.Proofs.Pair.Delivery
import PicCascade.Proofs.Chip.Nesting
import PicCascade.Proofs.Pair.Nesting
import PicCascade.Proofs.Layout
import PicCascade.Proofs.Platform.Ports
import PicCascade.Proofs.Platform.Traffic
import PicCascade.Proofs.Snapshot.Value
import PicCascade.Proofs.Snapshot.Canonical
import PicCascade.Proofs.Pair.Load
import PicCascade.Chip.Bytes
import PicCascade.Proofs.Chip.Bytes
import PicCascade.Pair.Bytes
import PicCascade.Proofs.Pair.Bytes
import PicCascade.Proofs.Pair.Range
import PicCascade.Proofs.Pair.Notification
import PicCascade.Proofs.Chip.Setup
import PicCascade.Proofs.Pair.Setup
import PicCascade.Proofs.Pair.Isolation
import PicCascade.Proofs.Pair.Rotation
import PicCascade.Proofs.Pair.Reset
import PicCascade.Proofs.Platform.Reset
import PicCascade.Proofs.Chip.Selection
import PicCascade.Proofs.Pair.Acknowledge
import PicCascade.Proofs.Pair.Resync
import PicCascade.Proofs.Platform.Preview
import PicCascade.Proofs.Pair.Mirror
import PicCascade.Proofs.Pair.Provenance
import PicCascade.Proofs.Pair.Poll
import PicCascade.Proofs.Pair.Fault
import PicCascade.Snapshot.Cursor
import PicCascade.Proofs.Snapshot.Truncation
import PicCascade.Proofs.Snapshot.Script
import PicCascade.Platform.Assembly
import PicCascade.Proofs.Platform.Sweep
import PicCascade.Proofs.Pair.Compatibility
import PicCascade.Chip.Bytes.Record
import PicCascade.Proofs.Chip.Bytes.Record
import PicCascade.Counters.Words
import PicCascade.Proofs.Pair.Counters
import PicCascade.Proofs.Pair.Counting
import PicCascade.Proofs.Pair.Exchange
import PicCascade.Platform.PortBus.Change
import PicCascade.Proofs.Platform.LastChange
