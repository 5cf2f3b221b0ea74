import FrameLink.Deflate.Decoder
import FrameLink.Reader

/-! A reader that inflates a segment of a byte source. It takes compressed bytes from the segment in
pieces, decodes them as far as they go but no more than one window ahead of its user, and gives out what
it has decoded. It asks the segment for more whenever it has no compressed byte at hand, whether it still
needs one or not. Once the segment has ended, decoding that falls short of the end of the deflate stream is
the last: what it yields beyond what its user asked for is lost. -/

namespace FrameLink.Deflate

/-! How far the taking of compressed bytes runs ahead of their decoding. The bits of a number are taken byte
by byte. Before a codeword two bytes are taken, if they are at hand and few bits are held. Where there are
four bytes at hand and room for two decoded ones, four are taken, which must do for the next two codewords of
literals or lengths; and where there is plenty of both, four are also taken in the midst of a copy. None of
this changes what is decoded. It decides which bytes of a stored block have been taken before there is room
for them. -/

/-- What the bits that were taken last have to do for: two codewords of literals or lengths, a copy, or no more than
what comes next. -/
inductive Lead.Purpose where
  | pair
  | copy
  | next

/-- How many bytes have been taken that the decoder has not begun, and whether there was plenty of input and room when
it stood at a literal last. -/
structure Lead where
  bytes : Nat := 0
  plenty : Bool := false
  purpose : Lead.Purpose := .next

namespace Lead

def has : Nat → List UInt8 → Bool
  | 0, _ => true
  | _ + 1, [] => false
  | n + 1, _ :: bytes => has n bytes

/-- Takes two bytes if they are there and fewer bits are held than the longest codeword has. -/
def forCodeword (held : Nat) (input : List UInt8) (l : Lead) : Lead :=
  if held < maxLength && has (l.bytes + 2) input then { l with bytes := l.bytes + 2 } else l

/-- Takes four bytes if fewer bits are held than two codewords may have. -/
def forSeveral (held : Nat) (l : Lead) : Lead :=
  if held < 2 * maxLength then { l with bytes := l.bytes + 4 } else l

/-- The lead before a literal or a length, given how much room there is for decoded bytes. -/
def atLiteral (room held : Nat) (input : List UInt8) (l : Lead) : Lead :=
  match l.purpose with
  | .pair => { l with purpose := .next }
  | _ =>
    if has (l.bytes + 4) input && 2 ≤ room then
      { l.forSeveral held with plenty := has (l.bytes + 14) input && 259 ≤ room, purpose := .pair }
    else
      { l.forCodeword held input with plenty := false, purpose := .next }

def atDistance (held : Nat) (input : List UInt8) (l : Lead) : Lead :=
  match l.plenty, l.purpose with
  | false, _ => { l.forCodeword held input with purpose := .next }
  | true, .copy => l
  | true, _ => { l.forSeveral held with purpose := .copy }

/-- The lead before the extra bits of a length or a distance. -/
def atExtra (held : Nat) (l : Lead) : Lead :=
  if l.plenty then { l.forSeveral held with purpose := .copy } else { l with purpose := .next }

/-- The lead before the decoder takes what it stands at: `input` follows the `spare` bits of a byte that
it has begun. -/
def prepare (room : Nat) (d : Decoder) (spare : List Bool) (input : List UInt8) (l : Lead) : Lead :=
  let held := d.depth + spare.length + 8 * l.bytes
  match d.phase with
  | .literal _ _ => l.atLiteral room held input
  | .distanceSymbol _ _ _ => l.atDistance held input
  | .number (.length _ _) _ _ _ | .number (.distance _ _ _) _ _ _ => l.atExtra held
  | .lengthSymbol _ _ _ _ _ => { bytes := (l.forCodeword held input).bytes }
  | _ => { bytes := l.bytes }

/-- The lead after the decoder has taken a bit. -/
def follow (room : Nat) (d : Decoder) (spare : List Bool) (input : List UInt8) (l : Lead) : Lead :=
  if d.depth = 0 then l.prepare room d spare input else l

def next (l : Lead) : Lead :=
  { l with bytes := l.bytes - 1 }

end Lead

end FrameLink.Deflate

namespace FrameLink

open Deflate

def inflatePiece : Nat := 32768

/-- A decoder with the bits of the byte that it has begun and the compressed bytes at hand, and how many of the
decoded bytes have been given out and how many may be. -/
structure Inflater where
  decoder : Decoder := {}
  spare : List Bool := []
  input : Bytes := []
  given : Nat := 0
  ready : Nat := 0
  /-- Whether the segment has ended and what it held has been decoded without coming to an end. -/
  exhausted : Bool := false

/-- How decoding stands: everything has been given out, there may be more, or what was to be decoded is no deflate
stream. -/
inductive Inflater.Progress where
  | finished
  | more
  | corrupt

namespace Inflater

/-- Whether everything up to `limit` is decoded and the next step would go beyond it. A symbol is decoded
before its bytes are placed, so one symbol beyond the limit may be known; a byte of a stored block that has not
been taken yet is left where it is until there is room for it. -/
def isFull (limit : Nat) (l : Lead) (d : Decoder) : Bool :=
  limit < d.out.size || limit = d.out.size && d.isAtStoredByte && l.bytes = 0

def rests (limit : Nat) (l : Lead) (d : Decoder) : Bool :=
  d.hasStopped || isFull limit l d

/-- Decodes the bits of a byte, behind which `input` follows, until there are no more or the decoder rests. -/
def decodeBits (limit : Nat) (input : Bytes) : Lead → Decoder → List Bool → Lead × Decoder × List Bool
  | l, d, [] => (l, d, [])
  | l, d, b :: bits =>
    if rests limit l d then
      (l, d, b :: bits)
    else
      let d' := d.feed b
      decodeBits limit input (l.follow (limit - d'.out.size) d' bits input) d' bits

def decodeBytes (limit : Nat) : Lead → Decoder → List Bool → Bytes → Lead × Decoder × List Bool × Bytes
  | l, d, spare, [] =>
    match decodeBits limit [] l d spare with
    | (l', d', spare') => (l', d', spare', [])
  | l, d, spare, b :: bytes =>
    match decodeBits limit (b :: bytes) l d spare with
    | (l', d', []) =>
      if rests limit l' d' then (l', d', [], b :: bytes)
      else decodeBytes limit l'.next d' (bitsOf b) bytes
    | (l', d', spare') => (l', d', spare', b :: bytes)

/-- The end of the window that the next decoded byte falls into. -/
def windowEnd (f : Inflater) : Nat :=
  (f.given / windowSize + 1) * windowSize

/-- Decodes what is at hand up to the end of the window, where `ended` tells that the segment has no more. -/
def decode (ended : Bool) (f : Inflater) : Inflater :=
  let limit := f.windowEnd
  let l := ({} : Lead).prepare (limit - f.decoder.out.size) f.decoder f.spare f.input
  match decodeBytes limit l f.decoder f.spare f.input with
  | (l', d, spare, input) =>
    { f with
      decoder := d, spare := spare, input := input, ready := min d.out.size limit,
      exhausted := ended && !rests limit l' d }

def give (f : Inflater) (n : Nat) : Bytes × Inflater :=
  let k := min n (f.ready - f.given)
  ((f.decoder.out.extract f.given (f.given + k)).toList, { f with given := f.given + k })

/-- Whether the bits so far are no deflate stream. -/
def isCorrupt (f : Inflater) : Bool :=
  match f.decoder.phase with
  | .corrupt => true
  | _ => false

def isDone (f : Inflater) : Bool :=
  match f.decoder.phase with
  | .done => true
  | _ => false

def progress (f : Inflater) : Progress :=
  if f.isCorrupt then .corrupt else if f.isDone ∧ f.given = f.ready then .finished else .more

/-- Whether decoding stopped at the end of a window and goes on at once. It does so if compressed bytes are
left, or if none will come any more. -/
def goesOn (f : Inflater) (ended : Bool) : Bool :=
  f.given = f.ready && !f.decoder.hasStopped && if ended then !f.exhausted else !f.input.isEmpty

/-- Decodes and gives out up to `n` bytes, window by window, at most so many times. -/
def decodeWindows (ended : Bool) : Nat → Nat → Inflater → Bytes × Inflater
  | 0, _, f => ([], f)
  | windows + 1, n, f =>
    match (f.decode ended).give n with
    | (bs, f') =>
      if f'.goesOn ended && bs.length < n then
        match decodeWindows ended windows (n - bs.length) f' with
        | (more, f'') => (bs ++ more, f'')
      else
        (bs, f')

/-- Gives out up to `n` bytes of what is ready or, when nothing is, of what can be decoded from the bytes
at hand. -/
def advance (f : Inflater) (ended : Bool) (n : Nat) : Bytes × Inflater :=
  if f.isCorrupt || f.exhausted then
    ([], f)
  else if f.given < f.ready then
    f.give n
  else
    decodeWindows ended (n / windowSize + 2) n f

def corruptError : IoError :=
  ⟨.invalidInput, "corrupt deflate stream"⟩

/-- What the user is told of a segment that ends inside its deflate stream. -/
def incompleteError : IoError :=
  ⟨.unexpectedEof, "incomplete deflate stream"⟩

/-- Makes sure that compressed bytes are at hand, if the segment has any left. The answer tells whether
it has none. -/
def fill (f : Inflater) (feed : Segment × Source) : Attempt IoError Bool × Inflater × Segment × Source :=
  if f.input.isEmpty then
    match Reader.read feed inflatePiece with
    | (.ok bs, feed') => (.ok bs.isEmpty, { f with input := bs }, feed')
    | (.error e, feed') => (.error e, f, feed')
    | (.waiting, feed') => (.waiting, f, feed')
  else
    (.ok false, f, feed)

/-- Takes compressed bytes and decodes them until there is something to give out, taking at most so many
pieces. -/
def pull (n : Nat) : Nat → Inflater → Segment × Source →
    Attempt IoError Bytes × Inflater × Segment × Source
  | 0, f, feed => (.ok [], f, feed)
  | pieces + 1, f, feed =>
    match f.fill feed with
    | (.error e, f', feed') => (.error e, f', feed')
    | (.waiting, f', feed') => (.waiting, f', feed')
    | (.ok ended, f', feed') =>
      match f'.advance ended n with
      | (bs, f'') =>
        match f''.progress, bs with
        | .corrupt, _ => (.error corruptError, f'', feed')
        | .finished, _ => (.ok bs, f'', feed')
        | .more, _ :: _ => (.ok bs, f'', feed')
        | .more, [] => if ended then (.error incompleteError, f'', feed') else pull n pieces f'' feed'

/-- One read of up to `n` inflated bytes; no bytes mean that the deflate stream has ended. -/
def read (f : Inflater) (feed : Segment × Source) (n : Nat) :
    Attempt IoError Bytes × Inflater × Segment × Source :=
  pull n (feed.1.left + 2) f feed

end Inflater

instance inflaterReader : Reader (Inflater × Segment × Source) where
  read s n := Inflater.read s.1 s.2 n
  interruptions s := s.2.2.failures

end FrameLink
