import FrameLink.Frame
import FrameLink.Host
import FrameLink.Identity
import FrameLink.PipeEnds
import FrameLink.Proofs.Alignment
import FrameLink.Proofs.PacketBoundaries
import FrameLink.Proofs.Deflate.Blocks
import FrameLink.Proofs.Deflate.CodeLengths
import FrameLink.Proofs.Deflate.Codes
import FrameLink.Proofs.Deflate.Cuts
import FrameLink.Proofs.Deflate.Parts
import FrameLink.Proofs.Deflate.Reaching
import FrameLink.Proofs.Deflate.RoundTrip
import FrameLink.Proofs.Deflate.TokenBits
import FrameLink.Proofs.PacketStreams
import FrameLink.Proofs.Finishing
import FrameLink.Proofs.Joining
import FrameLink.Proofs.Locks
import FrameLink.Proofs.PacketGrammar
import FrameLink.Proofs.PairDelivery
import FrameLink.Proofs.Sending
import FrameLink.Proofs.Takings
import FrameLink.Proofs.Histories
import FrameLink.Session
import FrameLink.Proofs.Courses
import FrameLink.Proofs.Coherence
import FrameLink.Proofs.Ownership
import FrameLink.Proofs.Journals
import FrameLink.Proofs.SinkContents
import FrameLink.Proofs.Resting
import FrameLink.Proofs.Discarding
import FrameLink.Proofs.Monitors
import FrameLink.Proofs.Waiters
import FrameLink.Proofs.Misuse
import FrameLink.Proofs.PairClosing
import FrameLink.Proofs.Announcements
import FrameLink.Proofs.Layers
import FrameLink.Proofs.Independence
import FrameLink.Proofs.Arrivals
import FrameLink.Proofs.Meanwhile
import FrameLink.Proofs.Viewing
import FrameLink.Proofs.Quotas
import FrameLink.Proofs.SegmentClosing
import FrameLink.Proofs.PipeMonitors
import FrameLink.Proofs.Allowances
import FrameLink.Proofs.Metering
import FrameLink.Proofs.HeaderStreams
import FrameLink.Proofs.Endings
import FrameLink.Proofs.Isolation
