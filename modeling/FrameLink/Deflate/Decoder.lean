import FrameLink.Deflate.Huffman

/-! A raw deflate decoder that takes one bit at a time. What it has decoded after some bits depends on
those bits alone, so it does not matter in which pieces the compressed bytes arrive. The bits of a byte
come lowest first. -/

namespace FrameLink.Deflate

/-- What a number that is being read will be used for. -/
inductive Field where
  | block
  /-- The length of a stored block and the same with every bit flipped. -/
  | storedLength
  | storedByte (left : Nat)
  | sizes
  /-- A codeword length of the first code; the places to come, and the lengths known so far by place. -/
  | firstLength (literals distances : Nat) (places : List Nat) (known : List (Nat × Nat))
  /-- How often to repeat a codeword length beyond the smallest number of times. -/
  | repeats (first : Tree) (literals total : Nat) (lengths : Array Nat) (value least : Nat)
  | length (codes : Codes) (base : Nat)
  | distance (codes : Codes) (length base : Nat)

/-- What the next bit belongs to. -/
inductive Phase where
  /-- A number of so many bits, lowest first; its value so far, and the weight of the next bit. -/
  | number (field : Field) (missing value weight : Nat)
  | padding
  | lengthSymbol (here first : Tree) (literals total : Nat) (lengths : Array Nat)
  | literal (here : Tree) (codes : Codes)
  | distanceSymbol (here : Tree) (codes : Codes) (length : Nat)
  | done
  | corrupt

structure Decoder where
  phase : Phase := .number .block 3 0 1
  final : Bool := false
  /-- Number of bits taken, counted modulo eight. -/
  offset : Nat := 0
  /-- Number of bits taken of the current number or codeword. -/
  depth : Nat := 0
  out : Array UInt8 := #[]

namespace Decoder

/-- Whether no further bit will change anything. -/
def hasStopped (d : Decoder) : Bool :=
  match d.phase with
  | .done | .corrupt => true
  | _ => false

/-- Whether the next bit begins a byte of a stored block. -/
def isAtStoredByte (d : Decoder) : Bool :=
  match d.phase with
  | .number (.storedByte _) 8 _ _ => true
  | _ => false

/-- Waits for a number of so many bits, of which there is at least one. -/
def expect (d : Decoder) (field : Field) (bits : Nat) : Decoder :=
  { d with phase := .number field bits 0 1, depth := 0 }

def fail (d : Decoder) : Decoder :=
  { d with phase := .corrupt }

def endBlock (d : Decoder) : Decoder :=
  if d.final then { d with phase := .done } else d.expect .block 3

def stored (d : Decoder) (left : Nat) : Decoder :=
  if left = 0 then d.endBlock else d.expect (.storedByte left) 8

def symbols (d : Decoder) (codes : Codes) : Decoder :=
  { d with phase := .literal codes.literals codes, depth := 0 }

/-- The byte a distance back. The window of past output is full of zeros at first, so a distance beyond the
start of the output meets a zero. -/
def byteBack (distance : Nat) (out : Array UInt8) : UInt8 :=
  if distance ≤ out.size then out.getD (out.size - distance) 0 else 0

/-- Copies so many bytes from a distance back, one after the other, so that a copy may reach into
itself. -/
def copyBack (distance : Nat) : Nat → Array UInt8 → Array UInt8
  | 0, out => out
  | n + 1, out => copyBack distance n (out.push (byteBack distance out))

def copy (d : Decoder) (codes : Codes) (length distance : Nat) : Decoder :=
  { d with out := copyBack distance length d.out }.symbols codes

def withLength (d : Decoder) (codes : Codes) (length : Nat) : Decoder :=
  { d with phase := .distanceSymbol codes.distances codes length, depth := 0 }

/-- Whether a code of a block may be used: complete, empty, or of a single codeword of one bit. -/
def isUsable (lengths : List Nat) : Bool :=
  isComplete lengths || used lengths ≤ 1 && lengths.all (· ≤ 1)

/-- Goes on with the codeword lengths of a dynamic block, until both codes are known. -/
def withLengths (d : Decoder) (first : Tree) (literals total : Nat) (lengths : Array Nat) : Decoder :=
  if lengths.size < total then
    { d with phase := .lengthSymbol first first literals total lengths, depth := 0 }
  else if lengths.size = total then
    let l := lengths.toList.take literals
    let r := lengths.toList.drop literals
    if isUsable l && isUsable r then
      d.symbols ⟨Tree.ofLengths l, Tree.ofLengths r⟩
    else
      d.fail
  else
    d.fail

/-- Acts on a codeword length symbol. Up to 15 it is a length; the others repeat the length before, or
zero. -/
def onLengthSymbol (d : Decoder) (first : Tree) (literals total : Nat) (lengths : Array Nat) (symbol : Nat) :
    Decoder :=
  if symbol ≤ maxLength then
    d.withLengths first literals total (lengths.push symbol)
  else if symbol = 16 then
    match lengths.back? with
    | some value => d.expect (.repeats first literals total lengths value 3) 2
    | none => d.fail
  else if symbol = 17 then
    d.expect (.repeats first literals total lengths 0 3) 3
  else
    d.expect (.repeats first literals total lengths 0 11) 7

def onLiteral (d : Decoder) (codes : Codes) (symbol : Nat) : Decoder :=
  if symbol < endOfBlock then
    { d with out := d.out.push symbol.toUInt8 }.symbols codes
  else if symbol = endOfBlock then
    d.endBlock
  else
    match lengthBases[symbol - 257]? with
    | some (base, 0) => d.withLength codes base
    | some (base, bits + 1) => d.expect (.length codes base) (bits + 1)
    | none => d.fail

def onDistanceSymbol (d : Decoder) (codes : Codes) (length symbol : Nat) : Decoder :=
  match distanceBases[symbol]? with
  | some (base, 0) => d.copy codes length base
  | some (base, bits + 1) => d.expect (.distance codes length base) (bits + 1)
  | none => d.fail

/-- The length known for a place of the first code, zero if none was sent. -/
def lengthAt (known : List (Nat × Nat)) (place : Nat) : Nat :=
  (known.lookup place).getD 0

def onNumber (d : Decoder) (value : Nat) : Field → Decoder
  | .block =>
    let d := { d with final := value % 2 = 1 }
    match value / 2 with
    | 0 => if d.offset = 0 then d.expect .storedLength 32 else { d with phase := .padding }
    | 1 => d.symbols fixedCodes
    | 2 => d.expect .sizes 14
    | _ => d.fail
  | .storedLength =>
    if value % 0x10000 + value / 0x10000 = 0xffff then
      d.stored (value % 0x10000)
    else
      d.fail
  | .storedByte left => { d with out := d.out.push value.toUInt8 }.stored (left - 1)
  | .sizes =>
    let literals := value % 32 + 257
    let distances := value / 32 % 32 + 1
    if literals ≤ 286 ∧ distances ≤ 30 then
      d.expect (.firstLength literals distances (lengthOrder.take (value / 1024 + 4)) []) 3
    else
      d.fail
  | .firstLength literals distances places known =>
    match places with
    | [] => d.fail
    | [last] =>
      let lengths := (List.range 19).map (lengthAt ((last, value) :: known))
      if isComplete lengths then
        d.withLengths (Tree.ofLengths lengths) literals (literals + distances) #[]
      else
        d.fail
    | place :: rest => d.expect (.firstLength literals distances rest ((place, value) :: known)) 3
  | .repeats first literals total lengths length least =>
    d.withLengths first literals total (lengths ++ List.replicate (value + least) length)
  | .length codes base => d.withLength codes (base + value)
  | .distance codes length base => d.copy codes length (base + value)

def onBit (d : Decoder) (bit : Bool) : Decoder :=
  match d.phase with
  | .number field missing value weight =>
    let value := if bit then value + weight else value
    if missing ≤ 1 then
      d.onNumber value field
    else
      { d with phase := .number field (missing - 1) value (weight * 2) }
  | .padding => if d.offset = 0 then d.expect .storedLength 32 else d
  | .lengthSymbol tree first literals total lengths =>
    match tree.child bit with
    | .leaf symbol => d.onLengthSymbol first literals total lengths symbol
    | .node zero one => { d with phase := .lengthSymbol (.node zero one) first literals total lengths }
    | .none => d.fail
  | .literal tree codes =>
    match tree.child bit with
    | .leaf symbol => d.onLiteral codes symbol
    | .node zero one => { d with phase := .literal (.node zero one) codes }
    | .none => d.fail
  | .distanceSymbol tree codes length =>
    match tree.child bit with
    | .leaf symbol => d.onDistanceSymbol codes length symbol
    | .node zero one => { d with phase := .distanceSymbol (.node zero one) codes length }
    | .none => d.fail
  | .done => d
  | .corrupt => d

/-- Takes one bit. Once the decoder has stopped, bits change nothing. -/
def feed (d : Decoder) (bit : Bool) : Decoder :=
  if d.hasStopped then d else { d with offset := (d.offset + 1) % 8, depth := d.depth + 1 }.onBit bit

def feedAll (d : Decoder) (bits : List Bool) : Decoder :=
  bits.foldl feed d

end Decoder

/-- The bits of a byte, lowest first. -/
def bitsOf (b : UInt8) : List Bool :=
  lowFirst 8 b.toNat

def bitsOfAll (bs : List UInt8) : List Bool :=
  bs.flatMap bitsOf

/-- What a string of bytes that begins with a whole deflate stream inflates to. -/
def inflate? (bs : List UInt8) : Option (List UInt8) :=
  let d := ({} : Decoder).feedAll (bitsOfAll bs)
  match d.phase with
  | .done => some d.out.toList
  | _ => none

end FrameLink.Deflate
