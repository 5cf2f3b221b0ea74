import FrameLink.Deflate.Decoder
import FrameLink.Reader
import FrameLink.Stream

/-! Packet headers, and the frames that packets make on the wire. A header is three signed words, which are the
sequence number the sender chose, the number of payload bytes on the wire, and the inflated length of a compressed payload
or zero for a raw one. -/

namespace FrameLink

structure Header where
  sequence : Int32
  packetLength : Int32
  uncompressedLength : Int32
  deriving DecidableEq

namespace Header

def size : Nat := 12

def raw (sequence packetLength : Int32) : Header :=
  ⟨sequence, packetLength, 0⟩

def compressed (sequence packetLength uncompressedLength : Int32) : Header :=
  ⟨sequence, packetLength, uncompressedLength⟩

/-- A positive inflated length marks a compressed payload. -/
def isCompressed (h : Header) : Bool :=
  0 < h.uncompressedLength

/-- Number of bytes the reader of the payload will see. A negative length counts as a huge one. -/
def payloadLength (h : Header) : Nat :=
  extendWord (if h.isCompressed then h.uncompressedLength else h.packetLength)

def encode (h : Header) : Bytes :=
  Bytes.ofInt32 h.sequence ++ Bytes.ofInt32 h.packetLength ++ Bytes.ofInt32 h.uncompressedLength

/-- The header that twelve bytes spell. -/
def decode (bs : Bytes) : Header :=
  ⟨Bytes.toInt32 (bs.take 4), Bytes.toInt32 ((bs.drop 4).take 4), Bytes.toInt32 ((bs.drop 8).take 4)⟩

def largest (h : Header) : Int :=
  max h.packetLength.toInt h.uncompressedLength.toInt

/-- Both lengths must be non-negative and, where there is a limit, within it. -/
def validate (limit : Option Nat) (h : Header) : Except LinkError Unit :=
  if h.packetLength < 0 then
    .error (.codec s!"negative packet length {h.packetLength.toInt}" none)
  else if h.uncompressedLength < 0 then
    .error (.codec s!"negative uncompressed length {h.uncompressedLength.toInt}" none)
  else
    match limit with
    | none => .ok ()
    | some most =>
      if most < h.largest then
        .error (.codec s!"packet size {h.largest} exceeds maximum allowed size {most}" none)
      else
        .ok ()

/-- Reads until `got` is a whole header, trying at most so many times. -/
def collect {σ : Type} [Reader σ] : Nat → Bytes → σ → Attempt IoError Unit × Bytes × σ
  | 0, got, s => (.ok (), got, s)
  | reads + 1, got, s =>
    if size ≤ got.length then
      (.ok (), got, s)
    else
      match Reader.read s (size - got.length) with
      | (.ok [], s') => (.error ⟨.unexpectedEof, "failed to fill whole buffer"⟩, got, s')
      | (.ok bs, s') => collect reads (got ++ bs) s'
      | (.error e, s') => if e.isInterruption then collect reads got s' else (.error e, got, s')
      | (.waiting, s') => (.waiting, got, s')

/-- The failure of a header read: an early end is told in the words of headers. -/
def ofReadError (e : IoError) : LinkError :=
  if e.kind = .unexpectedEof then
    .stream ⟨.unexpectedEof, s!"expected {size} header bytes, stream ended"⟩
  else
    .stream e

/-- Reads and validates one header, of which the bytes `got` have been read before. A header that does
not pass has been read all the same. -/
def receive {σ : Type} [Reader σ] (limit : Option Nat) (got : Bytes) (s : σ) :
    Attempt LinkError Header × Bytes × σ :=
  match collect (size + Reader.interruptions s + 1) got s with
  | (.ok (), got', s') =>
    (Attempt.ofExcept ((validate limit (decode got')).map fun _ => decode got'), got', s')
  | (.error e, got', s') => (.error (ofReadError e), got', s')
  | (.waiting, got', s') => (.waiting, got', s')

end Header

/-! What a string of bytes on the wire says: one frame after the other, each a header and as many bytes
as it announces. The lengths of a header are not negative, and a payload that is said to be compressed
inflates to the length that the header declares. -/

/-- A header, the payload as it is sent under it, and the payload that this stands for. -/
structure Frame where
  header : Header
  body : Bytes
  payload : Bytes

namespace Frame

def bytes (f : Frame) : Bytes :=
  f.header.encode ++ f.body

/-- The payload that a body under a header stands for, unless the two do not fit together. -/
def payload? (h : Header) (body : Bytes) : Option Bytes :=
  if h.packetLength < 0 ∨ h.uncompressedLength < 0 then
    none
  else if h.isCompressed then
    (Deflate.inflate? body).filter fun payload => payload.length = h.payloadLength
  else
    some body

/-- The first frame of a string of bytes and what follows it, if the frame is whole. -/
def split? (bs : Bytes) : Option (Frame × Bytes) :=
  if bs.length < Header.size then
    none
  else
    let h := Header.decode bs
    let rest := bs.drop Header.size
    let n := extendWord h.packetLength
    if rest.length < n then none
    else (payload? h (rest.take n)).map fun payload => (⟨h, rest.take n, payload⟩, rest.drop n)

/-- At most so many frames of a string of bytes, and what follows the last whole one. -/
def splitAll : Nat → Bytes → List Frame × Bytes
  | 0, bs => ([], bs)
  | frames + 1, bs =>
    match split? bs with
    | none => ([], bs)
    | some (f, rest) =>
      match splitAll frames rest with
      | (fs, last) => (f :: fs, last)

/-- All frames of a string of bytes, and what follows the last whole one. -/
def ofBytes (bs : Bytes) : List Frame × Bytes :=
  splitAll bs.length bs

end Frame

end FrameLink
