import GcodeLink.Axis
import GcodeLink.Buffer
import GcodeLink.Byte
import GcodeLink.Channel.Basic
import GcodeLink.Channel.Run
import GcodeLink.Command
import GcodeLink.Fault
import GcodeLink.Field
import GcodeLink.Filename
import GcodeLink.Framer
import GcodeLink.Homing
import GcodeLink.Line
import GcodeLink.Literal.Basic
import GcodeLink.Literal.Scaled
import GcodeLink.Literal.Spelling
import GcodeLink.Machine
import GcodeLink.Note.Basic
import GcodeLink.Note.Channel
import GcodeLink.Note.Homing
import GcodeLink.Note.Receiver
import GcodeLink.Outlet
import GcodeLink.Part
import GcodeLink.Policy
import GcodeLink.Proofs.Acknowledgement
import GcodeLink.Proofs.Byte
import GcodeLink.Proofs.Capture
import GcodeLink.Proofs.Channel.Abandonment
import GcodeLink.Proofs.Channel.Lines
import GcodeLink.Proofs.Channel.Requests
import GcodeLink.Proofs.Channel.Segments
import GcodeLink.Proofs.Channel.WholeLine
import GcodeLink.Proofs.Checksum
import GcodeLink.Proofs.Command.Agreement
import GcodeLink.Proofs.Command.Slots
import GcodeLink.Proofs.Comments
import GcodeLink.Proofs.Corruption
import GcodeLink.Proofs.Coverage
import GcodeLink.Proofs.Displacement
import GcodeLink.Proofs.Exactness
import GcodeLink.Proofs.FieldOrder
import GcodeLink.Proofs.FileNames
import GcodeLink.Proofs.Filename
import GcodeLink.Proofs.Files
import GcodeLink.Proofs.Framing
import GcodeLink.Proofs.Homing
import GcodeLink.Proofs.Isolation
import GcodeLink.Proofs.Judgement
import GcodeLink.Proofs.LetterCase
import GcodeLink.Proofs.Literal.Spelling
import GcodeLink.Proofs.Literal.Truncation
import GcodeLink.Proofs.Numbering
import GcodeLink.Proofs.Outlet
import GcodeLink.Proofs.Part.Entries
import GcodeLink.Proofs.Part.Stepping
import GcodeLink.Proofs.Part.Words
import GcodeLink.Proofs.Reading
import GcodeLink.Proofs.Receiver.Absorb
import GcodeLink.Proofs.Receiver.Invariant
import GcodeLink.Proofs.Receiver.Lines
import GcodeLink.Proofs.Receiver.Receptions
import GcodeLink.Proofs.Receiver.Step
import GcodeLink.Proofs.Receiver.Tandem
import GcodeLink.Proofs.Recording
import GcodeLink.Proofs.Rejection
import GcodeLink.Proofs.Relaxation
import GcodeLink.Proofs.Replay
import GcodeLink.Proofs.Resend
import GcodeLink.Receiver.Basic
import GcodeLink.Reply
import GcodeLink.Scale
import GcodeLink.Segment
import GcodeLink.Slot
import GcodeLink.Target
