import FrameLink.Attempt
import FrameLink.Stream

/-! Readers, and readers that are limited to a number of bytes. All have in common a single read, which may fail or
wait, and a bound on how often it can fail. Interruptions are no failures to the reader's user: the read is tried again,
which ends because a reader can be interrupted only finitely often. -/

namespace FrameLink

/-- Something that bytes can be read from, up to so many at a time, where no bytes mean that there are no more. It can
still be interrupted so many times. -/
class Reader (σ : Type) where
  read : σ → Nat → Attempt IoError Bytes × σ
  interruptions : σ → Nat

/-- A reader that knows how many bytes it will still give out. -/
class BoundedReader (σ : Type) extends Reader σ where
  remaining : σ → Nat

instance sourceReader : Reader Source where
  read := Source.read
  interruptions := Source.failures

namespace Reader

variable {σ : Type} [Reader σ]

/-- A read that is tried again up to so many times when interrupted. -/
def readRetrying (n : Nat) : Nat → σ → Attempt IoError Bytes × σ
  | 0, s => read s n
  | tries + 1, s =>
    match read s n with
    | (.error e, s') => if e.isInterruption then readRetrying n tries s' else (.error e, s')
    | r => r

/-- A read that is tried again for as long as it is interrupted. -/
def readThrough (s : σ) (n : Nat) : Attempt IoError Bytes × σ :=
  readRetrying n (interruptions s) s

/-- Reads in pieces of up to `piece` bytes until there are no more, at most so many times, adding to
what is there already. A failure leaves what was read before it. -/
def readAll (piece : Nat) : Nat → Array UInt8 → σ → Attempt IoError Unit × Array UInt8 × σ
  | 0, got, s => (.ok (), got, s)
  | reads + 1, got, s =>
    match read s piece with
    | (.ok [], s') => (.ok (), got, s')
    | (.ok bs, s') => readAll piece reads (got ++ bs) s'
    | (.error e, s') => if e.isInterruption then readAll piece reads got s' else (.error e, got, s')
    | (.waiting, s') => (.waiting, got, s')

end Reader

/-- Reads until `n` bytes are there or a read gives none, at most so many times, adding to what is there
already. A failure leaves what was read before it. -/
def readFull {σ : Type} (read : σ → Nat → Attempt LinkError Bytes × σ) (n : Nat) :
    Nat → Array UInt8 → σ → Attempt LinkError Unit × Array UInt8 × σ
  | 0, got, s => (.ok (), got, s)
  | reads + 1, got, s =>
    if n ≤ got.size then
      (.ok (), got, s)
    else
      match read s (n - got.size) with
      | (.ok [], s') => (.ok (), got, s')
      | (.ok bs, s') => readFull read n reads (got ++ bs) s'
      | (.error e, s') => (.error e, got, s')
      | (.waiting, s') => (.waiting, got, s')

namespace BoundedReader

variable {σ : Type} [BoundedReader σ]

/-- A read that is refused when it asks for more than remains. -/
def readBounded (s : σ) (n : Nat) : Attempt LinkError Bytes × σ :=
  if remaining s < n then
    (.error (.overread n (remaining s)), s)
  else if n = 0 then
    (.ok [], s)
  else
    let r := Reader.readThrough s n
    (r.1.mapError LinkError.ofPayloadError, r.2)

end BoundedReader

/-! Readers limited to a number of bytes. A `Segment` lies directly on the byte source: closing it
consumes what its user left unread, so that the source stands at whatever follows. A `Window` lies on a
reader it does not own: closing it only marks it. Both cap a plain read at what is left and treat an early
end of the reader beneath them as a failure, though of different kinds. -/

/-- How many bytes are read at a time when nobody says how many. -/
def pieceSize : Nat := 8192

/-- One read of at most `left` bytes. An early end is a failure of kind `short` and takes nothing. -/
def cappedRead {σ : Type} [Reader σ] (short : IoKind) (left : Nat) (s : σ) (n : Nat) :
    Attempt IoError Bytes × Nat × σ :=
  if left = 0 ∨ n = 0 then
    (.ok [], left, s)
  else
    match Reader.read s (min n left) with
    | (.ok [], s') => (.error ⟨short, s!"source ended with {left} bytes still expected"⟩, left, s')
    | (.ok bs, s') => (.ok bs, left - bs.length, s')
    | (.error e, s') => (.error e, left, s')
    | (.waiting, s') => (.waiting, left, s')

structure Segment where
  left : Nat
  closed : Bool := false

structure Window where
  left : Nat
  closed : Bool := false

namespace Segment

def read (seg : Segment) (src : Source) (n : Nat) : Attempt IoError Bytes × Segment × Source :=
  match cappedRead .unexpectedEof seg.left src n with
  | (r, left, src') => (r, { seg with left := left }, src')

end Segment

instance segmentReader : BoundedReader (Segment × Source) where
  read s n := Segment.read s.1 s.2 n
  interruptions s := s.2.failures
  remaining s := s.1.left

namespace Segment

/-- Reads the segment to its end and forgets what it read. -/
def drain (seg : Segment) (src : Source) : Attempt IoError Unit × Segment × Source :=
  match Reader.readAll pieceSize (seg.left + src.failures + 1) #[] (seg, src) with
  | (r, _, s) => (r, s)

/-- Closes the segment: what is left of it is drained. A second close does nothing, even when the first
one failed. -/
def close (seg : Segment) (src : Source) : Attempt LinkError Unit × Segment × Source :=
  if seg.closed then
    (.ok (), seg, src)
  else
    match drain { seg with closed := true } src with
    | (r, s) => (r.mapError .stream, s)

end Segment

namespace Window

variable {σ : Type} [Reader σ]

/-- What the window still gives out to a bounded read: nothing once it is closed. -/
def remaining (w : Window) : Nat :=
  if w.closed then 0 else w.left

/-- One plain read through the window, which being closed does not prevent. -/
def read (w : Window) (s : σ) (n : Nat) : Attempt IoError Bytes × Window × σ :=
  match cappedRead .invalidData w.left s n with
  | (r, left, s') => (r, { w with left := left }, s')

/-- Closes the window and leaves the reader beneath alone. -/
def close (w : Window) : Window :=
  { w with closed := true }

end Window

instance windowReader {σ : Type} [Reader σ] : BoundedReader (Window × σ) where
  read s n := Window.read s.1 s.2 n
  interruptions s := Reader.interruptions s.2
  remaining s := s.1.remaining

end FrameLink
