import FrameLink.Link
import FrameLink.PipeEnds
import FrameLink.Threads
import FrameLink.View

/-! Threads at work on the links of a session, which are either a single link over byte streams or the two
sides of a pair. -/

namespace FrameLink

/-! Two links joined within a process. What one side sends goes through a pipe to the other. Closing or
dropping a side closes both pipes; what is in them stays. Both sides ask the same compression policy. -/

inductive Side where
  | left
  | right
  deriving DecidableEq

def Side.other : Side → Side
  | .left => .right
  | .right => .left

/-- Two links and the pipes between them. The source and the sink of a side stand for its ends of the
pipes and are set whenever the side is used. -/
structure Pair where
  left : Stack
  right : Stack
  rightward : Pipe := {}
  leftward : Pipe := {}

namespace Pair

def newSide (settings : Settings) : Stack :=
  .layer { name := "MemoryTransport" }
    (.link
      { settings := settings, hook := { attached := true }, inbound := { source := Pipe.source {} },
        outbound := {} })

def new (settings : Settings) : Pair :=
  { left := newSide settings, right := newSide settings }

/-- The link on a side as it was left. -/
def stack (p : Pair) : Side → Stack
  | .left => p.left
  | .right => p.right

def setStack (p : Pair) : Side → Stack → Pair
  | .left, s => { p with left := s }
  | .right, s => { p with right := s }

def incoming (p : Pair) : Side → Pipe
  | .left => p.leftward
  | .right => p.rightward

def setIncoming (p : Pair) : Side → Pipe → Pair
  | .left, q => { p with leftward := q }
  | .right, q => { p with rightward := q }

/-- Joins a link to its ends of the pipes. -/
def plug (incoming outgoing : Pipe) (l : Link) : Link :=
  { l with
    inbound := { l.inbound with source := incoming.source }
    outbound := { l.outbound with sink := outgoing.sink } }

def closePipes (p : Pair) : Pair :=
  { p with rightward := p.rightward.close, leftward := p.leftward.close }

/-- The pair after one side has been used: what it read is out of its incoming pipe, what it wrote is in
the other one, and the other side's policy goes on from where this side left it. -/
def unplug (p : Pair) (side : Side) (s : Stack) : Pair :=
  let l := s.base
  let incoming := (p.incoming side).afterReading l.inbound.source
  let outgoing := (p.incoming side.other).afterWriting l.outbound.sink
  let follow (k : Link) : Link := { k with settings := k.settings.withPolicy l.settings.policy }
  let q := p.setStack side s
  let q := q.setStack side.other ((p.stack side.other).modifyBase follow)
  let q := (q.setIncoming side incoming).setIncoming side.other outgoing
  if 0 < l.hook.calls then q.closePipes else q

def use {α : Type} (p : Pair) (side : Side) (f : Stack → α × Stack) : α × Pair :=
  match f ((p.stack side).modifyBase (plug (p.incoming side) (p.incoming side.other))) with
  | (a, s) => (a, p.unplug side s)

def call (p : Pair) (side : Side) (me : Thread) (c : Call) : Attempt LinkError Reply × Pair :=
  p.use side (Stack.call me c)

def drop (p : Pair) : Pair :=
  p.closePipes

end Pair

/-! What threads do with a link: a single call, or several calls that make up one operation. A task that
waits keeps what it has read so far. -/

/-- A call, reading of the link until so many bytes are there, or an operation on one of the views. -/
inductive Task where
  | call (c : Call)
  | fill (n : Nat) (got : Array UInt8)
  | viewRead (n : Nat)
  | viewReadAll (got : Gathered)
  | viewWrite (bytes : Bytes)
  | viewFlush

/-- What comes of a task. A failed task may have read something before. -/
inductive Outcome where
  | ok (reply : Reply)
  | taken (n : Nat)
  | failed (cause : LinkError) (got : Option Bytes)
  | ioFailed (cause : IoError) (got : Option Bytes)

namespace Outcome

def ofCall? : Attempt LinkError Reply → Option Outcome
  | .ok reply => some (.ok reply)
  | .error e => some (.failed e none)
  | .waiting => none

def ofView? : Attempt IoError Outcome → Option Outcome
  | .ok outcome => some outcome
  | .error e => some (.ioFailed e none)
  | .waiting => none

end Outcome

namespace Task

def readBytes (me : Thread) (s : Stack) (n : Nat) : Attempt LinkError Bytes × Stack :=
  match s.call me (.read n) with
  | (r, s') =>
    (r.map fun
      | .bytes bs => bs
      | _ => [], s')

/-- Runs a task until it is done or has to wait. -/
def run (me : Thread) (t : Task) (s : Stack) : Option Outcome × Task × Stack :=
  match t with
  | .call c =>
    match s.call me c with
    | (r, s') => (Outcome.ofCall? r, t, s')
  | .fill n got =>
    match readFull (readBytes me) n (n + 1) got s with
    | (.ok (), got', s') => (some (.ok (.bytes got'.toList)), .fill n got', s')
    | (.error e, got', s') => (some (.failed e (some got'.toList)), .fill n got', s')
    | (.waiting, got', s') => (none, .fill n got', s')
  | .viewRead n =>
    match (InputView.mk me s).read n with
    | (r, v) => (Outcome.ofView? (r.map fun bs => .ok (.bytes bs)), t, v.stack)
  | .viewReadAll got =>
    match (InputView.mk me s).readAll got with
    | (.ok (), got', v) => (some (.ok (.bytes got'.bytes.toList)), .viewReadAll got', v.stack)
    | (.error e, got', v) => (some (.ioFailed e (some got'.bytes.toList)), .viewReadAll got', v.stack)
    | (.waiting, got', v) => (none, .viewReadAll got', v.stack)
  | .viewWrite bs =>
    match (OutputView.mk me s).write bs with
    | (r, v) => (Outcome.ofView? (r.map .taken), t, v.stack)
  | .viewFlush => (some (.ok .done), t, s)

end Task

inductive Wiring where
  | single (stack : Stack)
  | pair (pair : Pair)

namespace Wiring

/-- The link on a side. A single link is on the left. -/
def stack? : Wiring → Side → Option Stack
  | .single s, .left => some s
  | .single _, .right => none
  | .pair p, side => some (p.stack side)

def use {α : Type} (w : Wiring) (side : Side) (f : Stack → α × Stack) : α × Wiring :=
  match w with
  | .single s =>
    match f s with
    | (a, s') => (a, .single s')
  | .pair p =>
    match p.use side f with
    | (a, p') => (a, .pair p')

def modify (w : Wiring) (side : Side) (f : Link → Link) : Wiring :=
  (w.use side fun s => ((), s.modifyBase f)).2

def drop : Wiring → Wiring
  | .single s => .single s
  | .pair p => .pair p.drop

def work : Work Wiring (Side × Task) Outcome :=
  fun me t w =>
    match w.use t.1 fun s =>
      match t.2.run me s with
      | (r, t', s') => ((r, t'), s') with
    | ((r, t'), w') => (r, (t.1, t'), w')

end Wiring

structure Session where
  schedule : Schedule Wiring (Side × Task) Outcome
  dropped : List Side := []

namespace Session

def world (s : Session) : Wiring :=
  s.schedule.world

/-- Whether a thread is still at work on the link on a side. -/
def isInUse (s : Session) (side : Side) : Bool :=
  s.schedule.jobs.any fun j => j.result.isNone && j.task.1 = side

/-- Drops the links that have been given up once nobody is at work on them. -/
def sweep (s : Session) : Session :=
  if s.dropped.any fun side => !s.isInUse side then
    { s with schedule := s.schedule.modify Wiring.work Wiring.drop }
  else
    s

/-- Gives a thread a task on the link on a side. -/
def start (s : Session) (me : Thread) (side : Side) (t : Task) : Session :=
  { s with schedule := s.schedule.start Wiring.work me (side, t) }.sweep

/-- Gives a thread a task on the link on a side and takes its outcome. A task that has to wait goes on, but
its outcome will not be asked for. -/
def perform (s : Session) (me : Thread) (side : Side) (t : Task) : Option Outcome × Session :=
  match s.schedule.perform Wiring.work me (side, t) with
  | (r, schedule) => (r, { s with schedule := schedule }.sweep)

/-- Takes the outcome of the first task of a thread whose outcome will be asked for. -/
def take (s : Session) (me : Thread) : Option Outcome × Session :=
  match s.schedule.take me with
  | (r, schedule) => (r, { s with schedule := schedule })

def isIdle (s : Session) : Bool :=
  s.schedule.isIdle

def openSource (s : Session) (side : Side) : Session :=
  { s with
    schedule := s.schedule.modify Wiring.work fun w => w.modify side fun l =>
      { l with inbound := { l.inbound with source := l.inbound.source.openGate } } }.sweep

def openSink (s : Session) (side : Side) : Session :=
  { s with
    schedule := s.schedule.modify Wiring.work fun w => w.modify side fun l =>
      { l with outbound := { l.outbound with sink := l.outbound.sink.openGate } } }.sweep

def drop (s : Session) (side : Side) : Session :=
  { s with dropped := side :: s.dropped }.sweep

/-- The text that shows the settings of the link on a side, which asks its policy. -/
def describeSettings (s : Session) (side : Side) : String × Session :=
  match s.schedule.world.use side fun k =>
    match k.base.settings.describe with
    | (text, settings) => (text, k.modifyBase fun l => { l with settings := settings }) with
  | (text, w) => (text, { s with schedule := { s.schedule with world := w } })

/-- What has been sent to the sink of the link on a side since this was last asked, with the number of
writes and flushes. -/
def takeSent (s : Session) (side : Side) : (Bytes × Nat × Nat) × Session :=
  match s.schedule.world.use side fun k =>
    let sink := k.base.outbound.sink
    ((sink.written, sink.writeCalls, sink.flushCalls),
      k.modifyBase fun l =>
        { l with
          outbound :=
            { l.outbound with sink := { sink with written := [], writeCalls := 0, flushCalls := 0 } } }) with
  | (sent, w) => (sent, { s with schedule := { s.schedule with world := w } })

end Session

end FrameLink
