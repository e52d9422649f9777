import TransportStream.Numeral
import TransportStream.Pid
import TransportStream.Counter
import TransportStream.AdaptationControl
import TransportStream.StreamType
import TransportStream.Layout
import TransportStream.FramingError
import TransportStream.Chunks
import TransportStream.Header
import TransportStream.AdaptationField
import TransportStream.Buffer
import TransportStream.AdaptationField.Checked
import TransportStream.Packet
import TransportStream.Packet.Checked
import TransportStream.Packet.Cursor
import TransportStream.Settings.Error
import TransportStream.Log
import TransportStream.Sink
import TransportStream.Track
import TransportStream.Track.Sending
import TransportStream.Track.Checked
import TransportStream.Track.Store
import TransportStream.Continuity
import TransportStream.Text.Blank
import TransportStream.Text.Line
import TransportStream.Settings
import TransportStream.Settings.Value
import TransportStream.Settings.Lines
import TransportStream.Settings.Sources
import TransportStream.Settings.Host
import TransportStream.Registry
import TransportStream.Session
import TransportStream.Receiver
import TransportStream.Receiver.Effects
import TransportStream.Application
import TransportStream.Demo
import TransportStream.Main
import TransportStream.Proofs.Continuity.Runs
import TransportStream.Proofs.Continuity.History
import TransportStream.Proofs.Continuity.Streams
import TransportStream.Proofs.Packet.Reading
import TransportStream.Proofs.Packet.Rewriting
import TransportStream.Proofs.Packet.Visibility
import TransportStream.Proofs.Packet.Fields
import TransportStream.Proofs.Packet.Overwriting
import TransportStream.Proofs.Packet.HeaderWords
import TransportStream.Proofs.Settings.Values
import TransportStream.Proofs.Settings.LineMeaning
import TransportStream.Proofs.Settings.LineByLine
import TransportStream.Proofs.Settings.PidNumerals
import TransportStream.Proofs.Settings.Precedence
import TransportStream.Proofs.Track.Packets
import TransportStream.Proofs.Track.Buffer
import TransportStream.Proofs.Track.PacketLayout
import TransportStream.Proofs.Track.Splitting
import TransportStream.Proofs.Track.Delivery
import TransportStream.Proofs.Track.Emission
import TransportStream.Proofs.Registry.Session
import TransportStream.Proofs.Registry.Identifiers
import TransportStream.Proofs.Registry.SharedCounters
import TransportStream.Proofs.Receiver.Intake
import TransportStream.Proofs.Receiver.Accounts
import TransportStream.Proofs.Receiver.RoundTrip
import TransportStream.Proofs.Receiver.Loss
import TransportStream.Proofs.Receiver.Pieces
import TransportStream.Proofs.Receiver.Retransmission
import TransportStream.Proofs.Receiver.Selection
import TransportStream.Proofs.Receiver.PacketByPacket
import TransportStream.Proofs.Settings.Application
import TransportStream.Proofs.Settings.Publication
