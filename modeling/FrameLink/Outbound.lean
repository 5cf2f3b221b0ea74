import FrameLink.Packet
import FrameLink.Stream
import FrameLink.Threads

/-! The writing side of a link. A transaction collects a payload, and nothing goes to the sink before it
ends; then the whole packet is sent at once, or nothing at all. Ending a transaction gives the lock up and
empties the buffer whether sending succeeds or not. A call that waits for the sink notes what it has still
to send, and is made again to go on. -/

namespace FrameLink

/-- The packet being written has a sequence number and, in `buffer`, its payload so far. While a call waits for the
sink, `sending` is what is left to send of its frame. The sink is present until it is thrown away. -/
structure Outbound where
  sink : Sink := {}
  lock : Lock := {}
  present : Bool := true
  sequence : Int32 := 0
  buffer : Bytes := []
  frame : Bytes := []
  sending : Option Bytes := none

namespace Outbound

def release (o : Outbound) (me : Thread) : Outbound :=
  { o with lock := (o.lock.release me).2 }

/-- The writing side when a transaction is over. -/
def leave (closed : Bool) (me : Thread) (o : Outbound) : Outbound :=
  { o with
    buffer := [], frame := if closed then [] else o.frame, sending := none
    present := o.present && !closed }.release me

/-- Sends what is left of the frame, empties it and ends the transaction. -/
def transmit (closed : Bool) (me : Thread) (left : Bytes) (o : Outbound) :
    Attempt LinkError Unit × Outbound :=
  match o.sink.writeAll left with
  | (.waiting, rest, sink) => (.waiting, { o with sink := sink, sending := some rest })
  | (.error e, _, sink) => (.error (.stream e), { o with sink := sink, frame := [] }.leave closed me)
  | (.ok (), _, sink) =>
    match sink.flush with
    | (r, sink') =>
      (Attempt.ofExcept (r.mapError .stream), { o with sink := sink', frame := [] }.leave closed me)

/-- Begins a transaction as the thread that has got the lock. -/
def enter (closed : Bool) (me : Thread) (sequence : Int32) (o : Outbound) :
    Attempt LinkError Unit × Outbound :=
  if closed then (.error .closed, o.release me) else (.ok (), { o with sequence := sequence, buffer := [] })

def begin (closed : Bool) (me : Thread) (sequence : Int32) (o : Outbound) :
    Attempt LinkError Unit × Outbound :=
  if closed && !o.lock.isAwaitedBy me then
    (.error .closed, o.release me)
  else
    match o.lock.acquire me "begin_write" with
    | (.ok (), lock) => enter closed me sequence { o with lock := lock }
    | (.error e, lock) => (.error e, { o with lock := lock })
    | (.waiting, lock) => (.waiting, { o with lock := lock })

/-- Why a thread may not go on with a transaction, if it may not, and the lock after that: it loses the lock
of a link that has been closed. -/
def refusal? (closed : Bool) (me : Thread) (operation : String) (o : Outbound) :
    Option (LinkError × Outbound) :=
  if closed then some (.closed, o.release me)
  else if o.lock.isHeldBy me then none
  else some (.protocolState operation "write", o)

def write (closed : Bool) (me : Thread) (bs : Bytes) (o : Outbound) : Attempt LinkError Unit × Outbound :=
  match o.refusal? closed me "write" with
  | some (e, o') => (.error e, o')
  | none => (.ok (), { o with buffer := o.buffer ++ bs })

def restart (closed : Bool) (me : Thread) (o : Outbound) : Attempt LinkError Unit × Outbound :=
  match o.refusal? closed me "restart_write" with
  | some (e, o') => (.error e, o')
  | none => (.ok (), { o with buffer := [] })

def cancel (closed : Bool) (me : Thread) (o : Outbound) : Attempt LinkError Unit × Outbound :=
  match o.refusal? closed me "cancel_write" with
  | some (e, o') => (.error e, o')
  | none => (.ok (), o.leave closed me)

/-- Sends the packet, unless its payload is empty, and ends the transaction. -/
def finish (closed : Bool) (threshold : Int32) (level : Nat) (me : Thread) (o : Outbound) :
    Attempt LinkError Unit × Outbound :=
  match o.lock.isHeldBy me, o.sending with
  | true, some rest => transmit closed me rest o
  | _, _ =>
    match o.refusal? closed me "end_write" with
    | some (e, o') => (.error e, o')
    | none =>
      if o.buffer.isEmpty then
        (.ok (), o.leave closed me)
      else if !o.present then
        (.error .closed, o.leave closed me)
      else
        match Packet.encodeInto o.frame o.sequence o.buffer threshold level with
        | (.error e, frame) => (.error e, { o with frame := frame }.leave closed me)
        | (.ok _, frame) => transmit closed me frame { o with frame := frame }

/-- The writing side of a link that this thread closes. A call that is sending throws the sink away itself
when it returns. -/
def close (me : Thread) (o : Outbound) : Outbound :=
  (if o.sending.isSome then o else { o with present := false, buffer := [], frame := [] }).release me

end Outbound

end FrameLink
