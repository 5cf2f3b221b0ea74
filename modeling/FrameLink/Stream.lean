import FrameLink.Attempt

/-! Byte streams, and the bytes in them. Four bytes make a word, which is written most significant byte first; signed
words are in two's complement. -/

namespace FrameLink

abbrev Bytes := List UInt8

namespace Bytes

/-- The number a string of bytes spells, most significant byte first. -/
def toNat (bs : Bytes) : Nat :=
  bs.foldl (fun n b => n * 256 + b.toNat) 0

/-- The four bytes of an unsigned word, most significant byte first. -/
def ofWord (n : Nat) : Bytes :=
  [(n / 0x1000000).toUInt8, (n / 0x10000).toUInt8, (n / 0x100).toUInt8, n.toUInt8]

def ofInt32 (i : Int32) : Bytes :=
  ofWord i.toUInt32.toNat

/-- The signed word a string of bytes spells. -/
def toInt32 (bs : Bytes) : Int32 :=
  (UInt32.ofNat bs.toNat).toInt32

end Bytes

/-- A signed word widened to 64 bits and read as unsigned: a negative word becomes huge. -/
def extendWord (i : Int32) : Nat :=
  (i.toInt % 0x10000000000000000).toNat

/-! Byte sources. A source is the list of things its reader will meet: pieces of data, failures, and
gates that hold the reader up until somebody opens them. One read never crosses the end of a piece.
After the last item a source has ended, unless it is `live`: then more may arrive and its reader
waits. -/

inductive Source.Item where
  | data (bytes : Bytes)
  | failure (error : IoError)
  | gate

structure Source where
  items : List Source.Item
  /-- How often a gate has been opened without anybody having gone through. -/
  passes : Nat := 0
  live : Bool := false

namespace Source

def Item.bytes : Item → Bytes
  | .data bs => bs
  | _ => []

/-- The bytes a source still holds, whatever else stands between them. -/
def data (s : Source) : Bytes :=
  s.items.flatMap Item.bytes

def Item.isFailure : Item → Bool
  | .failure _ => true
  | _ => false

/-- How many reads of a source can still fail. -/
def failures (s : Source) : Nat :=
  s.items.countP Item.isFailure

/-- One read of up to `n` bytes from the given items; no bytes mean that the source has ended. -/
def readItems (live : Bool) (n : Nat) : List Item → Nat → Attempt IoError Bytes × Source
  | [], passes => (if live then .waiting else .ok [], ⟨[], passes, live⟩)
  | .data [] :: rest, passes => readItems live n rest passes
  | .data (b :: bs) :: rest, passes =>
    (.ok ((b :: bs).take n), ⟨.data ((b :: bs).drop n) :: rest, passes, live⟩)
  | .failure e :: rest, passes => (.error e, ⟨rest, passes, live⟩)
  | .gate :: rest, 0 => (.waiting, ⟨.gate :: rest, 0, live⟩)
  | .gate :: rest, passes + 1 => readItems live n rest passes

/-- One read of up to `n` bytes; no bytes mean that the source has ended. -/
def read (s : Source) (n : Nat) : Attempt IoError Bytes × Source :=
  readItems s.live n s.items s.passes

def openGate (s : Source) : Source :=
  { s with passes := s.passes + 1 }

/-- A source that delivers the given bytes in one piece and ends. -/
def ofBytes (bs : Bytes) : Source :=
  { items := [.data bs] }

end Source

/-! Byte sinks. A sink is the list of things its writer will meet: limits on how much one write takes,
failures, and gates that hold the writer up until somebody opens them. After the last of them it takes
everything, unless it is broken. -/

/-- One thing the writer to a sink meets. A reply that takes bytes may set a limit to them. -/
inductive Sink.Reply where
  | takes (most : Option Nat)
  | failure (error : IoError)
  | gate

/-- What a sink will reply to writes and flushes, what every write fails with after that if the sink is broken, and
what has been done to it. -/
structure Sink where
  replies : List Sink.Reply := []
  flushes : List (Option IoError) := []
  broken : Option IoError := none
  passes : Nat := 0
  /-- Whether a write has begun and is held up. -/
  isWriting : Bool := false
  written : Bytes := []
  writeCalls : Nat := 0
  flushCalls : Nat := 0

namespace Sink

/-- Counts a write that begins now. -/
def beginWrite (s : Sink) : Sink :=
  if s.isWriting then s else { s with isWriting := true, writeCalls := s.writeCalls + 1 }

def take (s : Sink) (bs : Bytes) (n : Nat) : Attempt IoError Nat × Sink :=
  (.ok (min n bs.length), { s with isWriting := false, written := s.written ++ bs.take n })

/-- A write of the bytes to a sink that will reply so. -/
def writeReplies (s : Sink) (bs : Bytes) : List Reply → Nat → Attempt IoError Nat × Sink
  | [], passes =>
    let s' := { s with replies := [], passes := passes }
    match s.broken with
    | none => s'.take bs bs.length
    | some e => (.error e, { s' with isWriting := false })
  | .takes none :: rest, passes => { s with replies := rest, passes := passes }.take bs bs.length
  | .takes (some n) :: rest, passes => { s with replies := rest, passes := passes }.take bs n
  | .failure e :: rest, passes =>
    (.error e, { s with replies := rest, passes := passes, isWriting := false })
  | .gate :: rest, 0 => (.waiting, { s with replies := .gate :: rest, passes := 0 })
  | .gate :: rest, passes + 1 => writeReplies s bs rest passes

/-- One write, answered by how many of the bytes were taken. -/
def write (s : Sink) (bs : Bytes) : Attempt IoError Nat × Sink :=
  writeReplies s.beginWrite bs s.replies s.passes

def flush (s : Sink) : Except IoError Unit × Sink :=
  let s' := { s with flushes := s.flushes.tail, flushCalls := s.flushCalls + 1 }
  match s.flushes with
  | some e :: _ => (.error e, s')
  | _ => (.ok (), s')

def nothingTaken : IoError :=
  ⟨.writeZero, "failed to write whole buffer"⟩

/-- Writes all of the bytes in at most so many writes; what is left comes with the answer. Whoever needs more writes is
still waiting for the sink. -/
def writeSome : Nat → Bytes → Sink → Attempt IoError Unit × Bytes × Sink
  | 0, bs, s => (.waiting, bs, s)
  | writes + 1, bs, s =>
    if bs.isEmpty then
      (.ok (), [], s)
    else
      match s.write bs with
      | (.ok 0, s') => (.error nothingTaken, bs, s')
      | (.ok n, s') => writeSome writes (bs.drop n) s'
      | (.error e, s') => if e.isInterruption then writeSome writes bs s' else (.error e, bs, s')
      | (.waiting, s') => (.waiting, bs, s')

/-- Writes all of the bytes; what is left comes with the answer. There are enough writes for every sink but one that is
broken so that it interrupts its writer for ever. -/
def writeAll (bs : Bytes) (s : Sink) : Attempt IoError Unit × Bytes × Sink :=
  writeSome (bs.length + s.replies.length + 1) bs s

def openGate (s : Sink) : Sink :=
  { s with passes := s.passes + 1 }

end Sink

end FrameLink
