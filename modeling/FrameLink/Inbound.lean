import FrameLink.Packet
import FrameLink.Threads

/-! The reading side of a link. Between transactions the source stands at a header and the lock is free;
within one the lock is held and a cursor stands in the payload. Whatever ends a transaction, be it its owner
or a failure, leaves the source at the next header. A call that waits for the source notes how far it has
got, and is made again to go on. If the link is closed meanwhile, the call throws the input away when it
returns. -/

namespace FrameLink

/-- Where the reading side stands: between packets or inside one, or where a call waits. It waits for the rest of a
header, for some of a payload, or for what is left of a payload to pass, because the transaction has failed or is to
end. -/
inductive Input where
  | ready
  | reading (cursor : Cursor)
  | opening (got : Bytes)
  | fetching (cursor : Cursor) (n : Nat)
  | aborting (cause : LinkError) (closing : Cursor.Closing)
  | ending (closing : Cursor.Closing)
  /-- The link has been closed and the input thrown away. -/
  | gone

namespace Input

def isBusy : Input → Bool
  | .opening _ | .fetching _ _ | .aborting _ _ | .ending _ => true
  | _ => false

/-- Number of payload bytes left to read. -/
def left : Input → Nat
  | .reading c | .fetching c _ => c.remaining
  | _ => 0

/-- The input that a call leaves behind when it returns. -/
def leave (closed : Bool) (input : Input) : Input :=
  if closed then .gone else input

end Input

structure Inbound where
  source : Source
  lock : Lock := {}
  input : Input := .ready

namespace Inbound

def release (i : Inbound) (me : Thread) : Inbound :=
  { i with lock := (i.lock.release me).2 }

/-- Reads the next header, of which `got` has been read, and puts a cursor at the start of its payload. A
failure ends the transaction. -/
def openPacket (closed : Bool) (limit : Option Nat) (me : Thread) (got : Bytes) (i : Inbound) :
    Attempt LinkError Int32 × Inbound :=
  match Header.receive limit got i.source with
  | (.waiting, got', src) => (.waiting, { i with source := src, input := .opening got' })
  | (.error e, _, src) =>
    (.error (if closed then .closed else e),
      { i with source := src, input := Input.leave closed .ready }.release me)
  | (.ok h, _, src) =>
    if closed then
      (.error .closed, { i with source := src, input := .gone }.release me)
    else
      (.ok h.sequence, { i with source := src, input := .reading (Cursor.ofHeader h) })

/-- Ends a transaction that has failed: the rest of the payload passes, whatever comes of it, and the
failure is answered. -/
def abort (closed : Bool) (me : Thread) (cause : LinkError) (closing : Cursor.Closing) (i : Inbound) :
    Attempt LinkError Bytes × Inbound :=
  match closing.run i.source with
  | (.waiting, closing', src) => (.waiting, { i with source := src, input := .aborting cause closing' })
  | (_, _, src) => (.error cause, { i with source := src, input := Input.leave closed .ready }.release me)

/-- Reads from the payload. Being refused for asking too much does not end the transaction; any other failure
does. -/
def fetch (closed : Bool) (me : Thread) (n : Nat) (c : Cursor) (i : Inbound) :
    Attempt LinkError Bytes × Inbound :=
  match c.read i.source n with
  | (.waiting, c', src) => (.waiting, { i with source := src, input := .fetching c' n })
  | (.ok bs, c', src) => (.ok bs, { i with source := src, input := Input.leave closed (.reading c') })
  | (.error e, c', src) =>
    if e.isOverread then
      (.error e, { i with source := src, input := Input.leave closed (.reading c') })
    else
      abort closed me e c'.close { i with source := src }

/-- Lets the rest of the payload pass and ends the transaction. -/
def skip (closed : Bool) (me : Thread) (closing : Cursor.Closing) (i : Inbound) :
    Attempt LinkError Unit × Inbound :=
  match closing.run i.source with
  | (.waiting, closing', src) => (.waiting, { i with source := src, input := .ending closing' })
  | (r, _, src) => (r, { i with source := src, input := Input.leave closed .ready }.release me)

/-- Begins a transaction as the thread that has got the lock. -/
def enter (closed : Bool) (limit : Option Nat) (me : Thread) (i : Inbound) :
    Attempt LinkError Int32 × Inbound :=
  if closed then (.error .closed, i.release me) else openPacket closed limit me [] i

def begin (closed : Bool) (limit : Option Nat) (me : Thread) (i : Inbound) :
    Attempt LinkError Int32 × Inbound :=
  match i.lock.isHeldBy me, i.input with
  | true, .opening got => openPacket closed limit me got i
  | _, _ =>
    if closed && !i.lock.isAwaitedBy me then
      (.error .closed, i.release me)
    else
      match i.lock.acquire me "begin_read" with
      | (.ok (), lock) => enter closed limit me { i with lock := lock }
      | (.error e, lock) => (.error e, { i with lock := lock })
      | (.waiting, lock) => (.waiting, { i with lock := lock })

/-- Why a thread may not go on with a transaction, if it may not, and the lock after that: it loses the lock
of a link that has been closed. -/
def refusal? (closed : Bool) (me : Thread) (operation : String) (i : Inbound) :
    Option (LinkError × Inbound) :=
  if closed then some (.closed, i.release me)
  else if i.lock.isHeldBy me then none
  else some (.protocolState operation "read", i)

/-- Whether this thread waits in the middle of a read of the payload. -/
def isReading (i : Inbound) (me : Thread) : Bool :=
  match i.lock.isHeldBy me, i.input with
  | true, .fetching _ _ | true, .aborting _ _ => true
  | _, _ => false

def read (closed : Bool) (me : Thread) (n : Nat) (i : Inbound) : Attempt LinkError Bytes × Inbound :=
  match i.lock.isHeldBy me, i.input with
  | true, .fetching c m => fetch closed me m c i
  | true, .aborting cause closing => abort closed me cause closing i
  | _, input =>
    match i.refusal? closed me "read", input with
    | some (e, i'), _ => (.error e, i')
    | none, .reading c => fetch closed me n c i
    | none, _ => (.error .closed, i.release me)

def remaining (closed : Bool) (me : Thread) (i : Inbound) : Attempt LinkError Nat × Inbound :=
  match i.refusal? closed me "remaining", i.input with
  | some (e, i'), _ => (.error e, i')
  | none, .reading c => (.ok c.remaining, i)
  | none, _ => (.error .closed, i)

def finish (closed : Bool) (me : Thread) (i : Inbound) : Attempt LinkError Unit × Inbound :=
  match i.lock.isHeldBy me, i.input with
  | true, .ending closing => skip closed me closing i
  | _, input =>
    match i.refusal? closed me "end_read", input with
    | some (e, i'), _ => (.error e, i')
    | none, .reading c => skip closed me c.close i
    | none, _ => (.ok (), i.release me)

/-- The reading side of a link that this thread closes. A call at work on the input throws it away itself
when it returns. -/
def close (me : Thread) (i : Inbound) : Inbound :=
  { i with input := if i.input.isBusy then i.input else .gone }.release me

end Inbound

end FrameLink
