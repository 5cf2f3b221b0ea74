import FrameLink.Deflate.Encoder
import FrameLink.Frame
import FrameLink.Inflater

/-! Packets: how the payload of one is read, and how a whole one is put on the wire and taken off it. -/

namespace FrameLink

/-! The payload of the packet being read. A raw payload is read from a segment of the source; a compressed
one is inflated from that segment and seen through a window of the declared length. Closing the cursor
leaves the source at the next header. -/

inductive Cursor where
  | raw (segment : Segment)
  | deflated (window : Window) (inflater : Inflater) (segment : Segment)

namespace Cursor

def ofHeader (h : Header) : Cursor :=
  if h.isCompressed then
    .deflated ⟨extendWord h.uncompressedLength, false⟩ {} ⟨extendWord h.packetLength, false⟩
  else
    .raw ⟨extendWord h.packetLength, false⟩

def remaining : Cursor → Nat
  | .raw segment => segment.left
  | .deflated window _ _ => window.remaining

/-- Reads up to `n` bytes, and refuses to read more than remain. -/
def read (c : Cursor) (src : Source) (n : Nat) : Attempt LinkError Bytes × Cursor × Source :=
  match c with
  | .raw segment =>
    match BoundedReader.readBounded (segment, src) n with
    | (r, segment', src') => (r, .raw segment', src')
  | .deflated window inflater segment =>
    match BoundedReader.readBounded (window, inflater, segment, src) n with
    | (r, window', inflater', segment', src') => (r, .deflated window' inflater' segment', src')

/-- Reads until `n` bytes have been read or there are no more. A failure comes with what was read before
it. -/
def readFull (c : Cursor) (src : Source) (n : Nat) : Attempt LinkError Unit × Bytes × Cursor × Source :=
  match FrameLink.readFull (fun (s : Cursor × Source) k => s.1.read s.2 k) n (n + 1) #[] (c, src) with
  | (r, got, c', src') => (r, got.toList, c', src')

/-- A cursor on its way to being closed. It is still to be seen whether the deflate stream ends here, or the verdict
on the payload is known and the rest of the segment is still to be drained. -/
inductive Closing where
  | ending (inflater : Inflater) (segment : Segment)
  | draining (verdict : Except LinkError Unit) (segment : Segment)

/-- Begins to close a cursor. A compressed payload that was read to its end must also end there. -/
def close : Cursor → Closing
  | .raw segment => .draining (.ok ()) segment
  | .deflated window inflater segment =>
    if window.remaining = 0 then .ending inflater segment else .draining (.ok ()) segment

/-- The failure of a payload that is longer than its header says. -/
def tooLong : LinkError :=
  .codec "compressed payload inflates past its declared length" none

def bothOf : Except LinkError Unit → Except LinkError Unit → Except LinkError Unit
  | .ok (), r => r
  | .error e, _ => .error e

namespace Closing

/-- Drains the segment whatever the verdict is, which takes precedence over a failure to drain. -/
def drain (verdict : Except LinkError Unit) (segment : Segment) (src : Source) :
    Attempt LinkError Unit × Closing × Source :=
  match segment.drain src with
  | (.ok (), segment', src') => (Attempt.ofExcept verdict, .draining verdict segment', src')
  | (.error e, segment', src') =>
    (Attempt.ofExcept (bothOf verdict (.error (.stream e))), .draining verdict segment', src')
  | (.waiting, segment', src') => (.waiting, .draining verdict segment', src')

def run (c : Closing) (src : Source) : Attempt LinkError Unit × Closing × Source :=
  match c with
  | .draining verdict segment => drain verdict segment src
  | .ending inflater segment =>
    match Reader.readThrough (inflater, segment, src) 1 with
    | (.ok [], _, segment', src') => drain (.ok ()) segment' src'
    | (.ok _, _, segment', src') => drain (.error tooLong) segment' src'
    | (.error e, _, segment', src') => drain (.error (.ofPayloadError e)) segment' src'
    | (.waiting, inflater', segment', src') => (.waiting, .ending inflater' segment', src')

end Closing

def finish (c : Cursor) (src : Source) : Attempt LinkError Unit × Source :=
  match c.close.run src with
  | (r, _, src') => (r, src')

def describe (c : Cursor) : String :=
  let kind := match c with
    | .raw _ => "raw"
    | .deflated _ _ _ => "compressed"
  "PacketReader \x7b kind: \"" ++ kind ++ "\", remaining: " ++ toString c.remaining ++ " \x7d"

end Cursor

end FrameLink

namespace FrameLink.Packet

/-- The number of bytes of a payload as a signed word, if it fits. -/
def length? (n : Nat) : Option Int32 :=
  if n < 0x80000000 then some (Int32.ofNat n) else none

/-- Whether a payload of so many bytes is to be compressed. -/
def isCompressible (threshold : Int32) (n : Nat) : Bool :=
  0 < threshold && threshold.toInt ≤ n

/-- Puts a packet into a frame, whatever the frame held before: first room for the header, then the payload,
which is compressed when it reaches a positive threshold, and last the header in its room. -/
def encodeInto (frame : Bytes) (sequence : Int32) (payload : Bytes) (threshold : Int32) (level : Nat) :
    Except LinkError Header × Bytes :=
  match length? payload.length with
  | none => (.error (.codec s!"payload of {payload.length} bytes does not fit in a packet" none), frame)
  | some rawLength =>
    let room : Bytes := List.replicate Header.size 0
    if isCompressible threshold payload.length then
      let frame := room ++ Deflate.deflate level payload
      match length? (frame.length - Header.size) with
      | none => (.error (.codec "compressed payload does not fit in a packet" none), frame)
      | some packetLength =>
        let h := Header.compressed sequence packetLength rawLength
        (.ok h, h.encode ++ frame.drop Header.size)
    else
      let frame := room ++ payload
      let h := Header.raw sequence rawLength
      (.ok h, h.encode ++ frame.drop Header.size)

/-- A packet as it is sent: its header, and the frame that header and payload make. -/
def encode (sequence : Int32) (payload : Bytes) (threshold : Int32) (level : Nat) :
    Except LinkError (Header × Bytes) :=
  match encodeInto [] sequence payload threshold level with
  | (.ok h, frame) => .ok (h, frame)
  | (.error e, _) => .error e

/-- Reads a payload to its end, piece by piece, at most so many times. -/
def collect : Nat → Array UInt8 → Cursor → Source →
    Attempt LinkError Unit × Array UInt8 × Cursor × Source
  | 0, got, c, src => (.ok (), got, c, src)
  | reads + 1, got, c, src =>
    if c.remaining = 0 then
      (.ok (), got, c, src)
    else
      match c.read src (min c.remaining pieceSize) with
      | (.ok bs, c', src') => collect reads (got ++ bs) c' src'
      | (.error e, c', src') => (.error e, got, c', src')
      | (.waiting, c', src') => (.waiting, got, c', src')

/-- Takes the payload of a packet off a source that stands behind its header. After a failed read the rest of
the payload stays on the source. -/
def receivePayload (h : Header) (src : Source) : Attempt LinkError (Header × Bytes) × Source :=
  match collect (h.payloadLength + 1) #[] (Cursor.ofHeader h) src with
  | (.error e, _, _, src') => (.error e, src')
  | (.waiting, _, _, src') => (.waiting, src')
  | (.ok (), got, c, src') =>
    match c.finish src' with
    | (r, src'') => (r.map fun _ => (h, got.toList), src'')

def receive (limit : Option Nat) (src : Source) : Attempt LinkError (Header × Bytes) × Source :=
  match Header.receive limit [] src with
  | (.error e, _, src') => (.error e, src')
  | (.waiting, _, src') => (.waiting, src')
  | (.ok h, _, src') => receivePayload h src'

end FrameLink.Packet
