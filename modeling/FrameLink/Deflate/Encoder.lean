import FrameLink.Deflate.Cutting
import FrameLink.Deflate.Huffman

/-! A raw deflate encoder. At level zero the data is stored as it is; at any other level it is cut into tokens,
with the more care the higher the level is. -/

namespace FrameLink.Deflate

/-! Prefix codes that suit how often symbols occur. The two lightest of what there is are joined until one is
left; how often a symbol has been part of a join is how long its codeword is. Of two that weigh the same, a
symbol by itself goes before symbols joined, and of those, what was there first. Codewords that come out too
long are cut down to the limit, and shorter ones are made longer until the code has room for all. -/

/-- Symbols that have been joined: how often they occur altogether, and how deep each of them lies. -/
structure Bough where
  weight : Nat
  depths : List Nat

namespace Bough

def leaf (weight : Nat) : Bough :=
  ⟨weight, [0]⟩

def join (a b : Bough) : Bough :=
  ⟨a.weight + b.weight, (a.depths ++ b.depths).map (· + 1)⟩

/-- Takes the lightest bough from two rows whose first is their lightest each, of equals that of the first
row. -/
def lightest? : List Bough → List Bough → Option (Bough × List Bough × List Bough)
  | [], [] => none
  | a :: as, [] => some (a, as, [])
  | [], b :: bs => some (b, [], bs)
  | a :: as, b :: bs => if b.weight < a.weight then some (b, a :: as, bs) else some (a, as, b :: bs)

/-- Joins the two lightest boughs of two rows at most so many times, and answers how deep all symbols lie when
one bough is left. -/
def joinAll : Nat → List Bough → List Bough → List Nat
  | 0, _, _ => []
  | joins + 1, leaves, joined =>
    match lightest? leaves joined with
    | none => []
    | some (a, leaves', joined') =>
      match lightest? leaves' joined' with
      | none => a.depths
      | some (b, leaves'', joined'') => joinAll joins leaves'' (joined'' ++ [a.join b])

end Bough

namespace Frequency

/-- Removes a codeword of the limit's length, and makes room for its symbol by splitting the longest codeword
that is shorter. The lengths are in falling order. -/
def split (limit : Nat) (lengths : List Nat) : List Nat :=
  let full := (lengths.takeWhile (· = limit)).drop 1
  match lengths.dropWhile (· = limit) with
  | [] => full
  | n :: rest => full ++ (n + 1) :: (n + 1) :: rest

def splitTimes (limit : Nat) : Nat → List Nat → List Nat
  | 0, lengths => lengths
  | times + 1, lengths => splitTimes limit times (split limit lengths)

/-- Lengths in falling order for a code whose codewords are no longer than the limit. -/
def withinLimit (limit : Nat) (lengths : List Nat) : List Nat :=
  let cut := lengths.map (min limit)
  splitTimes limit (cut.foldr (fun n taken => 1 <<< (limit - n) + taken) 0 - 1 <<< limit) cut

/-- The codeword lengths of symbols with the given numbers of occurrences, in falling order. A code of one
symbol has a codeword of one bit. -/
def depths (limit : Nat) (weights : List Nat) : List Nat :=
  match weights with
  | [_] => [1]
  | _ =>
    withinLimit limit
      ((Bough.joinAll weights.length (weights.map Bough.leaf) []).mergeSort fun a b => b ≤ a)

/-- For each symbol the length of its codeword in a code that suits how often each occurs, zero for one that
does not occur. No codeword is longer than the limit. -/
def lengths (limit : Nat) (counts : List Nat) : List Nat :=
  let occurring := (counts.zipIdx.filter fun c => 0 < c.1).mergeSort fun a b => a.1 ≤ b.1
  let assigned := occurring.zip (depths limit (occurring.map Prod.fst))
  (assigned.foldl (fun out c => out.setIfInBounds c.1.2 c.2) (Array.replicate counts.length 0)).toList

/-- How often each of so many symbols occurs in a list. -/
def count (size : Nat) (symbols : List Nat) : List Nat :=
  (symbols.foldl (fun counts s => counts.modify s (· + 1)) (Array.replicate size 0)).toList

end Frequency

/-! The blocks that parts of the data are written as. A short part goes into a fixed block, a longer one into a
dynamic block, whose codes suit it; but if that gains nothing and the bytes are at hand, they are stored. -/

/-- A symbol of the code in which a dynamic block sends codeword lengths, with the bits that follow it. -/
structure LengthItem where
  symbol : Nat
  extra : List Bool := []

namespace LengthItem

/-- Items for so many zeros, of which there are fewer than 138. -/
def fewZeros (n : Nat) : List LengthItem :=
  if n < 3 then List.replicate n { symbol := 0 }
  else if n ≤ 10 then [{ symbol := 17, extra := lowFirst 3 (n - 3) }]
  else [{ symbol := 18, extra := lowFirst 7 (n - 11) }]

/-- Items for so many repetitions of a length, of which there are fewer than six. -/
def fewRepetitions (length n : Nat) : List LengthItem :=
  if n < 3 then List.replicate n { symbol := length }
  else [{ symbol := 16, extra := lowFirst 2 (n - 3) }]

def ofRun (length n : Nat) : List LengthItem :=
  if length = 0 then
    List.replicate (n / 138) { symbol := 18, extra := lowFirst 7 127 } ++ fewZeros (n % 138)
  else
    { symbol := length } ::
      (List.replicate ((n - 1) / 6) { symbol := 16, extra := lowFirst 2 3 } ++
        fewRepetitions length ((n - 1) % 6))

/-- Items for lengths, after so many equal ones. -/
def ofLengthsAfter (length n : Nat) : List Nat → List LengthItem
  | [] => ofRun length n
  | next :: rest =>
    if next = length then ofLengthsAfter length (n + 1) rest
    else ofRun length n ++ ofLengthsAfter next 1 rest

def ofLengths : List Nat → List LengthItem
  | [] => []
  | length :: rest => ofLengthsAfter length 1 rest

end LengthItem

/-- A list without the zeros at its end beyond the first `least` places. -/
def trimZeros (least : Nat) (lengths : List Nat) : List Nat :=
  lengths.take least ++ ((lengths.drop least).reverse.dropWhile (· = 0)).reverse

/-- Codeword lengths for a code that suits how often symbols occur in a list, of which all are less than
`size`. They are given out only if they are such as a decoder takes and every symbol has a codeword, so nobody
has to rely on how they were found. -/
def suitable? (limit size : Nat) (isTaken : List Nat → Bool) (symbols : List Nat) : Option (List Nat) :=
  let lengths := Frequency.lengths limit (Frequency.count size symbols)
  let table := lengths.toArray
  if isTaken lengths && lengths.all (· ≤ limit) && symbols.all fun s => 0 < table.getD s 0 then
    some lengths
  else
    none

/-- How a dynamic block begins whose two codes have the given codeword lengths. -/
def codesHeader? (literals distances : List Nat) : Option (List Bool) :=
  let items := LengthItem.ofLengths (literals ++ distances)
  match suitable? 7 19 isComplete (items.map LengthItem.symbol) with
  | none => none
  | some first =>
    let words := wordTable first
    let sent := trimZeros 4 (lengthOrder.map fun place => first.getD place 0)
    some
      (lowFirst 5 (literals.length - 257) ++ lowFirst 5 (distances.length - 1) ++
        lowFirst 4 (sent.length - 4) ++ sent.flatMap (lowFirst 3) ++
        items.flatMap fun item => words.getD item.symbol [] ++ item.extra)

def fixedBlock (tokens : List Token) : List Bool :=
  true :: false :: tokenBits Words.fixed tokens

/-- The kind and the contents of a dynamic block, if there are codes for it. -/
def dynamicBlock? (tokens : List Token) : Option (List Bool) := do
  let literals ← suitable? maxLength 286 Decoder.isUsable (tokens.map Token.literalSymbol ++ [endOfBlock])
  let distances ← suitable? maxLength 30 Decoder.isUsable (tokens.filterMap Token.distanceSymbol?)
  let literals := trimZeros 257 literals
  let distances := trimZeros 1 distances
  let header ← codesHeader? literals distances
  some (false :: true :: (header ++ tokenBits (Words.ofLengths literals distances) tokens))

/-- The kind and the contents of a stored block that begins so many bits after the start of a byte. -/
def storedBlock (offset : Nat) (bytes : List UInt8) : List Bool :=
  false :: false ::
    (List.replicate ((14 - offset) % 8) false ++ lowFirst 16 bytes.length ++
      lowFirst 16 (65535 - bytes.length) ++ bitsOfAll bytes)

namespace Part

def compressed (p : Part) : List Bool :=
  if p.bytes.length < 48 then fixedBlock p.tokens
  else (dynamicBlock? p.tokens).getD (fixedBlock p.tokens)

/-- The block for a part, from so many bits after the start of a byte on. -/
def block (p : Part) (final : Bool) (offset : Nat) : List Bool :=
  let offset := (offset + 1) % 8
  let bits := p.compressed
  let gainsNothing := 32 < p.bytes.length && p.bytes.length ≤ (offset + bits.length) / 8 + 1
  final :: if p.storable && gainsNothing then storedBlock offset p.bytes else bits

/-- The blocks for parts, of which the last is the final one. -/
def blocks : Nat → List Part → List Bool
  | _, [] => []
  | offset, [p] => p.block true offset
  | offset, p :: q :: rest =>
    let bits := p.block false offset
    bits ++ blocks ((offset + bits.length) % 8) (q :: rest)

end Part

/-- The number eight bits spell, lowest first. -/
def byteOf (bits : List Bool) : UInt8 :=
  (bits.foldr (fun (b : Bool) n => 2 * n + b.toNat) 0).toUInt8

/-- Packs bits into bytes, lowest first, filling the last byte with zeros. -/
def packInto : Array UInt8 → List Bool → Array UInt8
  | out, [] => out
  | out, a :: b :: c :: d :: e :: f :: g :: h :: rest =>
    packInto (out.push (byteOf [a, b, c, d, e, f, g, h])) rest
  | out, a :: rest => out.push (byteOf (a :: rest))

def storedPiece : Nat := 31745

/-- Data as stored parts, at most so many of them before the last. -/
def storedParts : Nat → List UInt8 → List Bool
  | 0, bytes => true :: storedBlock 1 bytes
  | parts + 1, bytes =>
    if bytes.length < storedPiece then
      true :: storedBlock 1 bytes
    else
      false :: (storedBlock 1 (bytes.take storedPiece) ++ storedParts parts (bytes.drop storedPiece))

/-- A deflate stream that inflates to the given bytes. -/
def deflate (level : Nat) (bytes : List UInt8) : List UInt8 :=
  let bits :=
    if level = 0 then storedParts (bytes.length / storedPiece) bytes
    else Part.blocks 0 (cut level bytes.toArray)
  (packInto #[] bits).toList

end FrameLink.Deflate
