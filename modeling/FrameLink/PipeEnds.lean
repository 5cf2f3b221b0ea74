import FrameLink.Attempt
import FrameLink.Stream
import FrameLink.Threads

/-! A pipe within a process: what goes in at one end comes out at the other, in order. Its reader waits
while it is empty and open. Closing it keeps what is in it. -/

namespace FrameLink

structure Pipe where
  buffer : Bytes := []
  closed : Bool := false
  deriving DecidableEq

namespace Pipe

def closedError : IoError :=
  ⟨.brokenPipe, "in-memory pipe is closed"⟩

/-- Takes up to `n` bytes out; no bytes mean that the pipe is closed and empty. A read of nothing never
waits. -/
def read (p : Pipe) (n : Nat) : Attempt IoError Bytes × Pipe :=
  if n = 0 then (.ok [], p)
  else if p.buffer.isEmpty && !p.closed then (.waiting, p)
  else (.ok (p.buffer.take n), { p with buffer := p.buffer.drop n })

/-- Puts bytes in, all or none. -/
def write (p : Pipe) (bs : Bytes) : Except IoError Nat × Pipe :=
  if p.closed then (.error closedError, p) else (.ok bs.length, { p with buffer := p.buffer ++ bs })

def close (p : Pipe) : Pipe :=
  { p with closed := true }

def source (p : Pipe) : Source :=
  { items := [.data p.buffer], live := !p.closed }

def sink (p : Pipe) : Sink :=
  { broken := if p.closed then some closedError else none }

/-- The pipe after its reader has left that much in it. -/
def afterReading (p : Pipe) (s : Source) : Pipe :=
  { p with buffer := s.data }

/-- The pipe after its writer has put that much into it. -/
def afterWriting (p : Pipe) (s : Sink) : Pipe :=
  { p with buffer := p.buffer ++ s.written }

end Pipe

/-! The two ends of a pipe in the hands of threads. One thread at a time uses the end that is read from, so
that a thread that waits for bytes keeps all others from it. Dropping either end closes the pipe. -/

structure PipeEnds where
  pipe : Pipe := {}
  hasReader : Bool := true
  hasWriter : Bool := true
  waiting : Option Thread := none

namespace PipeEnds

inductive Request where
  | read (n : Nat)
  | dropReader
  | write (bytes : Bytes)
  | flush
  | dropWriter

inductive Answer where
  | done (reply : Reply)
  | failed (cause : IoError)
  /-- There is no such end any more. -/
  | gone

/-- Whether another thread uses the end that is read from. -/
def isTakenFrom (e : PipeEnds) (me : Thread) : Bool :=
  match e.waiting with
  | some other => other ≠ me
  | none => false

def read (e : PipeEnds) (me : Thread) (n : Nat) : Option Answer × PipeEnds :=
  if e.isTakenFrom me then
    (none, e)
  else if !e.hasReader then
    (some .gone, e)
  else
    match e.pipe.read n with
    | (.ok bs, p) => (some (.done (.bytes bs)), { e with pipe := p, waiting := none })
    | (.error c, p) => (some (.failed c), { e with pipe := p, waiting := none })
    | (.waiting, p) => (none, { e with pipe := p, waiting := some me })

/-- Drops the end that is read from, and tells whether it was there. -/
def dropReader (e : PipeEnds) (me : Thread) : Option Answer × PipeEnds :=
  if e.isTakenFrom me then
    (none, e)
  else
    (some (.done (.flag e.hasReader)),
      { e with hasReader := false, pipe := if e.hasReader then e.pipe.close else e.pipe })

def write (e : PipeEnds) (bs : Bytes) : Answer × PipeEnds :=
  if e.hasWriter then
    match e.pipe.write bs with
    | (.ok n, p) => (.done (.count n), { e with pipe := p })
    | (.error c, p) => (.failed c, { e with pipe := p })
  else
    (.gone, e)

/-- Flushes the pipe, which holds nothing back. -/
def flush (e : PipeEnds) : Answer :=
  if e.hasWriter then .done .done else .gone

/-- Drops the end that is written to, and tells whether it was there. -/
def dropWriter (e : PipeEnds) : Answer × PipeEnds :=
  (.done (.flag e.hasWriter),
    { e with hasWriter := false, pipe := if e.hasWriter then e.pipe.close else e.pipe })

def serving : Work PipeEnds Request Answer :=
  fun me request e =>
    match request with
    | .read n =>
      match e.read me n with
      | (r, e') => (r, request, e')
    | .dropReader =>
      match e.dropReader me with
      | (r, e') => (r, request, e')
    | .write bs =>
      match e.write bs with
      | (r, e') => (some r, request, e')
    | .flush => (some e.flush, request, e)
    | .dropWriter =>
      match e.dropWriter with
      | (r, e') => (some r, request, e')

end PipeEnds

end FrameLink
