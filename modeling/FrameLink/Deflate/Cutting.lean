import FrameLink.Deflate.Decoder
import FrameLink.Deflate.Huffman

/-! Data cut into tokens, and the tokens into parts, each of which becomes a block. Where an echo is found, it
may be held back to see whether a longer one begins at the next byte. A part ends when its tokens take up much
room, or when it is long and they take up hardly less room than the bytes that they stand for. -/

namespace FrameLink.Deflate

/-! What a compressed block says: bytes as they are, and copies of what came before. Tokens are written with
the codewords of the block. -/

/-- A byte, or a copy of `length` bytes from `distance` bytes back. -/
inductive Token where
  | literal (byte : UInt8)
  | copy (length distance : Nat)

def wordTable (lengths : List Nat) : Array (List Bool) :=
  (codewords lengths).foldl (fun t c => t.setIfInBounds c.1 c.2) (Array.replicate lengths.length [])

/-- The codewords of the two codes of a block. -/
structure Words where
  literals : Array (List Bool)
  distances : Array (List Bool)

namespace Words

def ofLengths (literals distances : List Nat) : Words :=
  ⟨wordTable literals, wordTable distances⟩

def fixed : Words :=
  ofLengths fixedLiteralLengths fixedDistanceLengths

/-- The codeword of a literal, a length symbol or the end of a block. -/
def literal (w : Words) (symbol : Nat) : List Bool :=
  w.literals.getD symbol []

def distance (w : Words) (symbol : Nat) : List Bool :=
  w.distances.getD symbol []

end Words

/-- The last place of a table whose smallest value is no larger than the given one. -/
def placeOf (table : Array (Nat × Nat)) (value : Nat) : Nat :=
  (table.toList.countP fun entry => entry.1 ≤ value) - 1

/-- The bits that say which of the values at a place of a table is meant. -/
def extraBits (table : Array (Nat × Nat)) (value : Nat) : List Bool :=
  let entry := table.getD (placeOf table value) (0, 0)
  lowFirst entry.2 (value - entry.1)

namespace Token

def size : Token → Nat
  | .literal _ => 1
  | .copy length _ => length

def literalSymbol : Token → Nat
  | .literal b => b.toNat
  | .copy length _ => 257 + placeOf lengthBases length

def distanceSymbol? : Token → Option Nat
  | .literal _ => none
  | .copy _ distance => some (placeOf distanceBases distance)

def bits (w : Words) (t : Token) : List Bool :=
  match t with
  | .literal _ => w.literal t.literalSymbol
  | .copy length distance =>
    w.literal t.literalSymbol ++ extraBits lengthBases length ++
      (w.distance (placeOf distanceBases distance) ++ extraBits distanceBases distance)

/-- What a token adds to what came before it. -/
def apply (out : Array UInt8) : Token → Array UInt8
  | .literal b => out.push b
  | .copy length distance => Decoder.copyBack distance length out

end Token

/-- The bits of some tokens and the end of their block. -/
def tokenBits (w : Words) (tokens : List Token) : List Bool :=
  tokens.flatMap (Token.bits w) ++ w.literal endOfBlock

/-! Where data says what it has said before. To find an echo of what comes next, a trail is followed that leads
from each place to the place before it whose three bytes mix to the same number. Places are counted modulo
`2 ^ 16`, and zero stands for no place, so that nothing is found at such places. How long the trail is followed
is limited: the search goes in rounds of three places each, and a round ends early when a place is looked at
more closely. -/

def maxCopy : Nat := 258

/-- An earlier stretch of the data that agrees with what comes next: how long it is, and how far back. -/
structure Echo where
  length : Nat
  distance : Nat

/-- How many of the next `most` bytes from `i` on are the same as those from `j` on. -/
def agreement (data : Array UInt8) (i j : Nat) : Nat → Nat
  | 0 => 0
  | most + 1 =>
    if i < data.size ∧ data.getD i 0 = data.getD j 0 then agreement data (i + 1) (j + 1) most + 1 else 0

/-- Whether the two bytes from `i` on are the same as those from `j` on. -/
def sameTwo (data : Array UInt8) (i j : Nat) : Bool :=
  data.getD i 0 = data.getD j 0 && data.getD (i + 1) 0 = data.getD (j + 1) 0

/-- How far back from `i` a place is that is known modulo `2 ^ 16`. -/
def backTo (i : Nat) (place : UInt16) : Nat :=
  (i.toUInt16 - place).toNat

/-- For each mix the place where it was seen last, and for each place in the window the one before it with the same
mix. -/
structure Trail where
  last : Array UInt16 := Array.replicate windowSize 0
  before : Array UInt16 := Array.replicate windowSize 0
  entered : Nat := 0

namespace Trail

/-- What the three bytes from `i` on mix to. -/
def mix (data : Array UInt8) (i : Nat) : Nat :=
  ((data.getD i 0).toNat * 1024 ^^^ (data.getD (i + 1) 0).toNat * 32 ^^^ (data.getD (i + 2) 0).toNat) %
    windowSize

/-- Enters the next places on the trail, so many of them. -/
def enter (data : Array UInt8) : Nat → Trail → Trail
  | 0, t => t
  | places + 1, ⟨last, before, i⟩ =>
    let m := mix data i
    let previous := last.getD m 0
    enter data places
      ⟨last.setIfInBounds m i.toUInt16, before.setIfInBounds (i % windowSize) previous, i + 1⟩

/-- Follows the trail from a place of the window over so many places, to find an echo of the data from `i` on,
at most `reach` back, that is longer than the best one known. No echo is longer than `most`. -/
def search (data : Array UInt8) (t : Trail) (i reach most : Nat) (places place : Nat) (best : Echo) : Echo :=
  match places with
  | 0 => best
  | places + 1 =>
    let previous := t.before.getD place 0
    let distance := backTo i previous
    if previous = 0 ∨ reach < distance then
      best
    else
      let place' := previous.toNat % windowSize
      let j := i - distance
      if !sameTwo data (i + best.length - 1) (j + best.length - 1) then
        search data t i reach most places place' best
      else if distance = 0 then
        best
      else
        let n := if sameTwo data i j then agreement data i j most else 0
        if n ≤ best.length then
          search data t i reach most (places / 3 * 3) place' best
        else if n = most then
          ⟨n, distance⟩
        else
          search data t i reach most (places / 3 * 3) place' ⟨n, distance⟩
termination_by places

def effort (level : Nat) : Nat :=
  [0, 1, 6, 32, 16, 32, 128, 256, 512, 768, 1500].getD (min level 10) 0

/-- Looks for an echo of the data from `i` on that is longer than so many bytes. If there is none, the answer
has that length and no distance. An echo that is already long is looked for with a quarter of the effort. -/
def find (data : Array UInt8) (t : Trail) (level i length : Nat) : Echo :=
  let most := min maxCopy (data.size - i)
  let reach := min i (windowSize - most)
  let rounds := ((if length < 32 then effort level else effort level / 4) + 2) / 3
  if most ≤ length then ⟨length, 0⟩
  else t.search data i reach most (rounds * 3) (i % windowSize) ⟨length, 0⟩

end Trail

structure Part where
  tokens : List Token
  bytes : List UInt8
  /-- Whether the bytes are still at hand to be stored as they are. -/
  storable : Bool

/-- A part that begins at `start`, its tokens with the last one first, and how many bytes they stand for. -/
structure Draft where
  start : Nat
  tokens : List Token := []
  count : Nat := 0
  size : Nat := 0
  /-- How much room they take up: a byte for a literal, three for a copy, and one for each eight tokens. -/
  room : Nat := 1

namespace Draft

def add (d : Draft) (t : Token) : Draft :=
  { d with
    tokens := t :: d.tokens
    count := d.count + 1
    size := d.size + t.size
    room :=
      d.room + (match t with | .literal _ => 1 | .copy _ _ => 3) + (if d.count % 8 = 7 then 1 else 0) }

def isFull (d : Draft) : Bool :=
  65528 < d.room

/-- Whether the part is long and hardly gets shorter by being cut. -/
def isPoor (d : Draft) : Bool :=
  31744 < d.size && d.size ≤ d.room * 115 / 128

/-- The part, when the data has been cut up to `i` and so many bytes before that are at hand. -/
def finish (d : Draft) (data : Array UInt8) (i hand : Nat) : Part :=
  ⟨d.tokens.reverse, (data.extract d.start (d.start + d.size)).toList, i - d.start ≤ hand⟩

def next (d : Draft) : Draft :=
  { start := d.start + d.size }

end Draft

/-- An echo that is held back, with the byte that it begins with. -/
structure Held where
  byte : UInt8
  echo : Echo

/-- Whether an echo is of no use: it is as short as can be and far away, or it begins at the start of the
window. -/
def Echo.isUseless (e : Echo) (i : Nat) : Bool :=
  e.length = 3 && 8192 ≤ e.distance || i % windowSize = e.distance

/-- The tokens for the data from `i` on, how many bytes to go on by, and the echo held back then. -/
def chooseTokens (data : Array UInt8) (level i : Nat) (trail : Trail) (held : Option Held) :
    List Token × Nat × Option Held :=
  let byte := data.getD i 0
  let found := trail.find data level i (match held with | some h => h.echo.length | none => 2)
  let echo := if found.isUseless i then ⟨0, 0⟩ else found
  match held with
  | some ⟨earlier, ⟨length, distance⟩⟩ =>
    if echo.length ≤ length then ([.copy length distance], length - 1, none)
    else if 128 ≤ echo.length then
      ([.literal earlier, .copy echo.length echo.distance], echo.length, none)
    else ([.literal earlier], 1, some ⟨byte, echo⟩)
  | none =>
    if echo.distance = 0 then ([.literal byte], 1, none)
    else if level ≤ 3 ∨ 128 ≤ echo.length then ([.copy echo.length echo.distance], echo.length, none)
    else ([], 1, some ⟨byte, echo⟩)

/-- Cuts the data from `i` on in at most so many steps, after the parts `done`, the last one first. -/
def cutThoroughly (data : Array UInt8) (level : Nat) :
    Nat → Nat → Trail → Option Held → Draft → List Part → List Part
  | 0, i, _, _, draft, done => (draft.finish data i (min i windowSize) :: done).reverse
  | steps + 1, i, trail, held, draft, done =>
    if i < data.size then
      let ahead := min maxCopy (data.size - i)
      let trail := trail.enter data (i + ahead - 2 - trail.entered)
      match chooseTokens data level i trail held with
      | (tokens, n, held') =>
        let draft' := tokens.foldl Draft.add draft
        if draft'.isFull || draft'.isPoor then
          cutThoroughly data level steps (i + n) trail held' draft'.next
            (draft'.finish data (i + n) (min i (windowSize - ahead) + n) :: done)
        else
          cutThoroughly data level steps (i + n) trail held' draft' done
    else
      (draft.finish data i (min i windowSize) :: done).reverse

def hastyPiece : Nat := 4096

/-- What the three bytes from `i` on mix to when they are cut hastily. -/
def hastyMix (data : Array UInt8) (i : Nat) : Nat :=
  let three := (data.getD i 0).toNat + (data.getD (i + 1) 0).toNat * 256 + (data.getD (i + 2) 0).toNat * 65536
  (three ^^^ three / 131072) % hastyPiece

/-- The token for the data from `i` on, where the same three bytes may have been at `place`, at most `reach`
back. A copy goes no further than to `stop`. -/
def hastyToken (data : Array UInt8) (i stop reach : Nat) (place : UInt16) : Token :=
  let distance := backTo i place
  let n := if distance = 0 ∨ reach < distance then 0 else agreement data i (i - distance) maxCopy
  if n < 3 ∨ n = 3 ∧ 8192 ≤ distance then .literal (data.getD i 0) else .copy (min n (stop - i)) distance

/-- Cuts the data from `i` on in at most so many steps, looking at one place for each token: the last one
with the same mix. -/
def cutHastily (data : Array UInt8) : Nat → Nat → Array UInt16 → Draft → List Part → List Part
  | 0, i, _, draft, done => (draft.finish data i (min i windowSize) :: done).reverse
  | steps + 1, i, last, draft, done =>
    if i < data.size then
      let start := i / hastyPiece * hastyPiece
      let stop := min (start + hastyPiece) data.size
      let reach := min start (windowSize - (stop - start)) + (i - start)
      let m := hastyMix data i
      let place := last.getD m 0
      let near := stop < i + 4
      let token := if near then .literal (data.getD i 0) else hastyToken data i stop reach place
      let last' := if near then last else last.setIfInBounds m i.toUInt16
      let draft' := draft.add token
      let i' := i + token.size
      if draft'.isFull then
        cutHastily data steps i' last' draft'.next
          (draft'.finish data i' (min (reach + token.size) windowSize) :: done)
      else
        cutHastily data steps i' last' draft' done
    else
      (draft.finish data i (min i windowSize) :: done).reverse

/-- The parts of the data, of which the last may be empty. -/
def cut (level : Nat) (data : Array UInt8) : List Part :=
  if level ≤ 1 then cutHastily data data.size 0 (Array.replicate hastyPiece 0) { start := 0 } []
  else cutThoroughly data level data.size 0 {} none { start := 0 } []

end FrameLink.Deflate
