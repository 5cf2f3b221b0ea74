import FrameLink.Inbound
import FrameLink.Outbound
import FrameLink.Text.Quoted
import FrameLink.Threads

/-! Links, their settings, and layers around them. The policy of a link decides from which length on payloads are
compressed once compression is switched on; it is asked anew every time and may change its mind. -/

namespace FrameLink

/-- Decides a compression threshold whenever it is asked: the answers one after the other, of which the last is given
for ever, or `fallback` if there are none. -/
structure Policy where
  answers : List Int32
  fallback : Int32 := -1

namespace Policy

def never : Policy :=
  ⟨[], -1⟩

def threshold (n : Int32) : Policy :=
  ⟨[], n⟩

def ask (p : Policy) : Int32 × Policy :=
  match p.answers with
  | [] => (p.fallback, p)
  | [last] => (last, p)
  | first :: rest => (first, { p with answers := rest })

end Policy

/-- How many bytes the buffers hold at first, how hard to compress, from 0 to 9, and the longest payload that is
accepted from the peer. -/
structure Settings where
  bufferSize : Nat := 131072
  level : Nat := 6
  limit : Option Nat := none
  policy : Policy := .never

namespace Settings

def withBufferSize (s : Settings) (n : Nat) : Settings :=
  { s with bufferSize := n }

/-- Sets the compression level, of which 9 is the highest. -/
def withLevel (s : Settings) (n : Nat) : Settings :=
  { s with level := min n 9 }

def withLimit (s : Settings) (n : Nat) : Settings :=
  { s with limit := some n }

def withPolicy (s : Settings) (p : Policy) : Settings :=
  { s with policy := p }

/-- The text that shows the settings to a programmer. It shows the policy's answer and so asks it. -/
def describe (s : Settings) : String × Settings :=
  let limit := match s.limit with
    | none => "None"
    | some n => s!"Some({n})"
  match s.policy.ask with
  | (threshold, policy) =>
    (s!"TransportConfig \x7b initial_buffer_size: {s.bufferSize}, compression_level: {s.level}, " ++
      s!"max_packet_size: {limit}, compression_threshold: {threshold.toInt} \x7d",
     { s with policy := policy })

end Settings

/-! Links. A link carries packets over a source and a sink; threads share it, and each direction is used by
one thread at a time. A call either answers or has to wait; a thread that waits makes the same call again
to go on with it, and the state of the link tells how far it had got. -/

/-- What is done to the byte streams when a link is closed, if anything is, and how often it has been done. -/
structure Hook where
  attached : Bool := false
  failure : Option IoError := none
  calls : Nat := 0

def Hook.run (h : Hook) : Except LinkError Unit × Hook :=
  if h.attached then
    (match h.failure with
      | none => .ok ()
      | some e => .error (.stream e),
     { h with calls := h.calls + 1 })
  else
    (.ok (), h)

structure Link where
  settings : Settings := {}
  hook : Hook := {}
  /-- The compression threshold in force. Compression is off when it is negative. -/
  threshold : Int32 := -1
  closed : Bool := false
  inbound : Inbound
  outbound : Outbound

namespace Link

def isCompressing (l : Link) : Bool :=
  0 < l.threshold

/-- Switches compression on, as far as the policy allows, and tells whether it is on. -/
def enableCompression (l : Link) : Attempt LinkError Bool × Link :=
  if l.closed then
    (.error .closed, l)
  else
    match l.settings.policy.ask with
    | (answer, policy) =>
      let threshold := if 0 < answer then answer else -1
      (.ok (0 < threshold), { l with threshold := threshold, settings := l.settings.withPolicy policy })

def disableCompression (l : Link) : Attempt LinkError Unit × Link :=
  if l.closed then (.error .closed, l) else (.ok (), { l with threshold := -1 })

/-- Closes the link. A second close does nothing. -/
def close (me : Thread) (l : Link) : Attempt LinkError Unit × Link :=
  if l.closed then
    (.ok (), l)
  else
    match l.hook.run with
    | (r, hook) =>
      (Attempt.ofExcept r,
        { l with
          hook := hook, closed := true, inbound := l.inbound.close me, outbound := l.outbound.close me })

/-- The answer of the reading side and the link with that side replaced. -/
def withInbound {α : Type} (l : Link) (reply : α → Reply) (r : Attempt LinkError α × Inbound) :
    Attempt LinkError Reply × Link :=
  (r.1.map reply, { l with inbound := r.2 })

/-- The answer of the writing side and the link with that side replaced. -/
def withOutbound (l : Link) (r : Attempt LinkError Unit × Outbound) : Attempt LinkError Reply × Link :=
  (r.1.map fun _ => .done, { l with outbound := r.2 })

/-- A call by a thread, or the continuation of a call for which the thread has been waiting. -/
def call (me : Thread) (l : Link) : Call → Attempt LinkError Reply × Link
  | .beginRead => l.withInbound .sequence (l.inbound.begin l.closed l.settings.limit me)
  | .read n => l.withInbound .bytes (l.inbound.read l.closed me n)
  | .remaining => l.withInbound .count (l.inbound.remaining l.closed me)
  | .endRead => l.withInbound (fun _ => .done) (l.inbound.finish l.closed me)
  | .beginWrite sequence => l.withOutbound (l.outbound.begin l.closed me sequence)
  | .write bs => l.withOutbound (l.outbound.write l.closed me bs)
  | .restartWrite => l.withOutbound (l.outbound.restart l.closed me)
  | .endWrite => l.withOutbound (l.outbound.finish l.closed l.threshold l.settings.level me)
  | .cancelWrite => l.withOutbound (l.outbound.cancel l.closed me)
  | .enableCompression =>
    match l.enableCompression with
    | (r, l') => (r.map .flag, l')
  | .disableCompression =>
    match l.disableCompression with
    | (r, l') => (r.map fun _ => .done, l')
  | .isCompressionEnabled => (.ok (.flag l.isCompressing), l)
  | .close =>
    match l.close me with
    | (r, l') => (r.map fun _ => .done, l')
  | .isClosed => (.ok (.flag l.closed), l)

/-- The text that shows a link to a programmer, without its identity. -/
def describe (l : Link) : String :=
  s!"PacketTransport \x7b metadata: _, compression_threshold: {l.threshold.toInt}, closed: {l.closed}, " ++
    s!"read_locked: {l.inbound.lock.isHeld}, write_locked: {l.outbound.lock.isHeld}, .. \x7d"

end Link

/-! Layers around a link. A layer passes every call on to what it is wrapped around, and does something of
its own once after that has been closed. -/

/-- A layer, what fails in what it does after closing, how often it has done that, and whether its text for programmers
says so. -/
structure Layer where
  name : String
  failure : Option LinkError := none
  runs : Nat := 0
  audits : Bool := false

namespace Layer

/-- Does what is to be done after closing. The result of closing comes first if that has failed. -/
def afterClose (y : Layer) (r : Attempt LinkError Reply) : Attempt LinkError Reply × Layer :=
  let own : Attempt LinkError Reply := match y.failure with
    | none => .ok .done
    | some e => .error e
  (match r with
    | .ok _ => own
    | _ => r,
   { y with runs := y.runs + 1 })

def describeFailure : Option IoError → String
  | none => "Null"
  | some e =>
    "Object \x7b\"err\": String(" ++ Text.quoted e.kind.name ++ "), \"msg\": String(" ++
      Text.quoted e.text ++ ")\x7d"

def describeRuns (y : Layer) : String :=
  if y.audits then
    s!", calls: {y.runs}, fail: " ++ describeFailure (y.failure.bind LinkError.source?)
  else
    ""

end Layer

inductive Stack where
  | link (link : Link)
  | layer (outer : Layer) (inner : Stack)

namespace Stack

def base : Stack → Link
  | .link l => l
  | .layer _ inner => inner.base

def modifyBase (f : Link → Link) : Stack → Stack
  | .link l => .link (f l)
  | .layer y inner => .layer y (inner.modifyBase f)

/-- A call by a thread on the outermost layer. -/
def call (me : Thread) (c : Call) : Stack → Attempt LinkError Reply × Stack
  | .link l =>
    match l.call me c with
    | (r, l') => (r, .link l')
  | .layer y inner =>
    match inner.call me c with
    | (r, inner') =>
      if c = .close ∧ inner.base.closed = false then
        match y.afterClose r with
        | (r', y') => (r', .layer y' inner')
      else
        (r, .layer y inner')

/-- How often the layers that tell of it have done what is to be done after closing. -/
def audits : Stack → Nat
  | .link _ => 0
  | .layer y inner => (if y.audits then y.runs else 0) + inner.audits

/-- The text that shows a link and its layers to a programmer. -/
def describe : Stack → String
  | .link l => l.describe
  | .layer y inner => y.name ++ " \x7b inner: " ++ inner.describe ++ y.describeRuns ++ " \x7d"

end Stack

end FrameLink
