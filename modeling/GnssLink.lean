import GnssLink.Bytes.Basic
import GnssLink.Bytes.Reader
import GnssLink.Bytes.Store
import GnssLink.Bytes.Writer
import GnssLink.Command.Basic
import GnssLink.Command.Configuration
import GnssLink.Frame.Basic
import GnssLink.Frame.Checksum
import GnssLink.Frame.Decoder
import GnssLink.Frame.Stream
import GnssLink.Link.Basic
import GnssLink.Link.Drive
import GnssLink.Link.Session
import GnssLink.Message.Basic
import GnssLink.Message.Layout
import GnssLink.Message.Navigation
import GnssLink.Message.Type
import GnssLink.Message.Version
import GnssLink.Navigation.Assembler
import GnssLink.Navigation.Solution
import GnssLink.Negotiation.BaudAlignment
import GnssLink.Negotiation.Capabilities
import GnssLink.Negotiation.Ceiling
import GnssLink.Negotiation.Error
import GnssLink.Negotiation.Plan
import GnssLink.Negotiation.PlanRun
import GnssLink.Negotiation.Reply
import GnssLink.Negotiation.Send
import GnssLink.Negotiation.VersionQuery
import GnssLink.Proofs.Frame.Wire
import GnssLink.Serial.Line
import GnssLink.Serial.Recorder
import GnssLink.Serial.Script
import GnssLink.Settings.Basic
import GnssLink.Settings.BaudRate
import GnssLink.Settings.Engine
import GnssLink.Text.Hexadecimal
import GnssLink.Text.Sentence
import GnssLink.Time
import GnssLink.Proofs.Frame.Progress
import GnssLink.Proofs.Frame.Scan
import GnssLink.Proofs.Frame.Counting
import GnssLink.Proofs.Command.Framing
import GnssLink.Proofs.Frame.RoundTrip
import GnssLink.Proofs.Negotiation.Sending
import GnssLink.Proofs.Negotiation.Remaining
import GnssLink.Proofs.Link.History
import GnssLink.Proofs.Link.Script
import GnssLink.Proofs.Link.Exchange
import GnssLink.Proofs.Link.Configuration
import GnssLink.Proofs.Link.OwnAnswer
import GnssLink.Proofs.Link.Completions
import GnssLink.Proofs.Link.Run
import GnssLink.Proofs.Link.Ceilings
import GnssLink.Proofs.Link.Publication
import GnssLink.Proofs.Link.Attempts
import GnssLink.Proofs.Link.Expiry
import GnssLink.Proofs.Link.Duration
import GnssLink.Proofs.Link.Accounting
import GnssLink.Proofs.Link.Driving
import GnssLink.Proofs.Negotiation.FirstReply
import GnssLink.Proofs.Negotiation.PlanHistory
import GnssLink.Proofs.Negotiation.WithoutFailure
import GnssLink.Proofs.Negotiation.QueryHistory
import GnssLink.Proofs.Negotiation.AlignmentHistory
import GnssLink.Proofs.Link.Spending
import GnssLink.Proofs.Link.Answering
import GnssLink.Proofs.Link.Cooperation
import GnssLink.Proofs.Link.Tolerance
import GnssLink.Proofs.Frame.Resynchronisation
import GnssLink.Proofs.Frame.Damage
import GnssLink.Proofs.Navigation.Completion
import GnssLink.Proofs.Navigation.LastReport
import GnssLink.Proofs.Navigation.FixHistory
import GnssLink.Proofs.Serial.Reads
import GnssLink.Proofs.Link.Receiving
import GnssLink.Proofs.Navigation.CombinedReport
import GnssLink.Proofs.Navigation.Course
import GnssLink.Proofs.Navigation.Ranges
import GnssLink.Proofs.Message.Parsing
import GnssLink.Proofs.Message.Placing
import GnssLink.Proofs.Message.FixedLayouts
import GnssLink.Proofs.Message.Texts
import GnssLink.Proofs.Negotiation.Learning
import GnssLink.Proofs.Bytes.Writing
import GnssLink.Proofs.Command.Accesses
import GnssLink.Proofs.Command.Encoding
import GnssLink.Proofs.Consecutive
import GnssLink.Proofs.Bytes.Attempts
import GnssLink.Proofs.Bytes.ReadingBack
import GnssLink.Proofs.Frame.WeightedSum
import GnssLink.Proofs.Command.Recovery
import GnssLink.Proofs.Negotiation.SendingHistory
