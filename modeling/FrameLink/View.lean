import FrameLink.Link
import FrameLink.Reader

/-! The packet that a thread is reading, and the one that it is writing, seen as plain byte streams. The
input view ends where the packet ends, so that its user never asks for too much. -/

namespace FrameLink

/-! Bytes gathered by reading to the end of something whose length is not known, in room that grows with
them. How many bytes are asked for follows from the room alone: a few at first, to see whether there is
anything, and then what the room holds, which at least doubles when little of it is left. -/

/-- Bytes that have been gathered, for how many there is room, and how many may be asked for at once. -/
structure Gathered where
  bytes : Array UInt8 := #[]
  room : Nat := 0
  most : Nat := 8192

namespace Gathered

/-- How many bytes are asked for first, and for how many there has to be room later. -/
def least : Nat := 32

/-- The room once it has been made large enough to ask for more. -/
def grown (g : Gathered) : Nat :=
  if g.room < g.bytes.size + least then max (g.bytes.size + least) (2 * g.room) else g.room

def wanted (g : Gathered) : Nat :=
  if g.bytes.isEmpty then least else min (g.grown - g.bytes.size) g.most

/-- Adds bytes that were got by asking. What comes first is kept in room of its own; later on, getting as much
as may be asked for means that twice as much may be asked for. -/
def add (g : Gathered) (bs : Bytes) : Gathered where
  bytes := g.bytes ++ bs
  room := if g.bytes.isEmpty then max bs.length 8 else g.grown
  most := if !g.bytes.isEmpty && g.most ≤ bs.length then 2 * g.most else g.most

variable {σ : Type} [Reader σ]

/-- Reads until there are no more bytes, at most so many times. A failure leaves what was read before it. -/
def readAll : Nat → Gathered → σ → Attempt IoError Unit × Gathered × σ
  | 0, g, s => (.ok (), g, s)
  | reads + 1, g, s =>
    match Reader.read s g.wanted with
    | (.ok [], s') => (.ok (), g, s')
    | (.ok bs, s') => readAll reads (g.add bs) s'
    | (.error e, s') => if e.isInterruption then readAll reads g s' else (.error e, g, s')
    | (.waiting, s') => (.waiting, g, s')

end Gathered

structure InputView where
  thread : Thread
  stack : Stack

namespace InputView

/-- The answer to a call on the link as a byte stream gives it. -/
def answer (r : Attempt LinkError Reply) : Attempt IoError Bytes :=
  (r.mapError LinkError.toIoError).map fun
    | .bytes bs => bs
    | _ => []

def fetch (v : InputView) (n : Nat) : Attempt IoError Bytes × InputView :=
  match v.stack.call v.thread (.read n) with
  | (r, stack) => (answer r, { v with stack := stack })

/-- One read of up to `n` bytes; no bytes mean that the packet has ended. -/
def read (v : InputView) (n : Nat) : Attempt IoError Bytes × InputView :=
  if v.stack.base.inbound.isReading v.thread then
    v.fetch n
  else
    match v.stack.call v.thread .remaining with
    | (.ok (.count left), stack) =>
      if min n left = 0 then (.ok [], { v with stack := stack })
      else { v with stack := stack }.fetch (min n left)
    | (r, stack) => (answer r, { v with stack := stack })

def close (v : InputView) : Attempt LinkError Unit × InputView :=
  match v.stack.call v.thread .endRead with
  | (r, stack) => (r.map fun _ => (), { v with stack := stack })

end InputView

instance inputViewReader : Reader InputView where
  read := InputView.read
  interruptions _ := 0

namespace InputView

/-- Reads to the end of the packet, adding to what is there already. A failure leaves what was read before
it. -/
def readAll (v : InputView) (got : Gathered) : Attempt IoError Unit × Gathered × InputView :=
  Gathered.readAll (v.stack.base.inbound.input.left + 2) got v

/-- The text that shows a view to a programmer, without the link's number. -/
def describe : String := "InputStream \x7b transport_id: TransportId(_) \x7d"

end InputView

structure OutputView where
  thread : Thread
  stack : Stack

namespace OutputView

/-- One write, which takes all of the bytes. -/
def write (v : OutputView) (bs : Bytes) : Attempt IoError Nat × OutputView :=
  match v.stack.call v.thread (.write bs) with
  | (r, stack) => ((r.mapError LinkError.toIoError).map fun _ => bs.length, { v with stack := stack })

/-- The text that shows a view to a programmer, without the link's number. -/
def describe : String := "OutputStream \x7b transport_id: TransportId(_) \x7d"

end OutputView

end FrameLink
