/-! Canonical prefix codes. A code is given by the length of each symbol's codeword, zero for a symbol
that has none. Codewords are handed out in order of length and then of symbol by walking through the
`2 ^ 15` leaves of a full tree of depth 15: a codeword of length `n` takes the next `2 ^ (15 - n)` of them.
The code is complete when no leaf is left over. A reader of codewords walks down the tree they span. -/

namespace FrameLink.Deflate

def maxLength : Nat := 15

/-- The low `n` bits of a number, highest first. -/
def highFirst : Nat → Nat → List Bool
  | 0, _ => []
  | n + 1, v => v.testBit n :: highFirst n v

/-- The low `n` bits of a number, lowest first. -/
def lowFirst : Nat → Nat → List Bool
  | 0, _ => []
  | n + 1, v => v.testBit 0 :: lowFirst n (v / 2)

/-- The symbols with a codeword and its length, ordered by length and then by symbol. -/
def ordered (lengths : List Nat) : List (Nat × Nat) :=
  (List.range' 1 maxLength).flatMap fun n =>
    (lengths.zipIdx.filter fun p => p.1 = n).map fun p => (p.2, p.1)

/-- The number of leaves that a codeword of a length stands for. -/
def span (n : Nat) : Nat :=
  1 <<< (maxLength - n)

/-- Hands out codewords from the given leaf on. -/
def assign : Nat → List (Nat × Nat) → List (Nat × List Bool)
  | _, [] => []
  | leaf, (symbol, n) :: rest =>
    (symbol, highFirst n (leaf / span n)) :: assign (leaf + span n) rest

def codewords (lengths : List Nat) : List (Nat × List Bool) :=
  assign 0 (ordered lengths)

def used (lengths : List Nat) : Nat :=
  lengths.countP (0 < ·)

def leaves (lengths : List Nat) : Nat :=
  lengths.foldr (fun n taken => (if n = 0 then 0 else span n) + taken) 0

/-- Whether the codewords take every leaf once. -/
def isComplete (lengths : List Nat) : Bool :=
  leaves lengths = 1 <<< maxLength

/-- Where a reader of codewords stands: the part of the tree below it, or `none` where no codeword starts like this. -/
inductive Tree where
  | none
  | leaf (symbol : Nat)
  | node (zero one : Tree)

namespace Tree

def insert (symbol : Nat) : List Bool → Tree → Tree
  | [], _ => .leaf symbol
  | false :: bits, .node zero one => .node (zero.insert symbol bits) one
  | true :: bits, .node zero one => .node zero (one.insert symbol bits)
  | false :: bits, _ => .node (Tree.none.insert symbol bits) .none
  | true :: bits, _ => .node .none (Tree.none.insert symbol bits)

def ofLengths (lengths : List Nat) : Tree :=
  (codewords lengths).foldl (fun t c => t.insert c.1 c.2) .none

def child (bit : Bool) : Tree → Tree
  | .node zero one => if bit then one else zero
  | _ => .none

end Tree

/-! The fixed numbers of the raw deflate format: what each length and distance symbol stands for, the
codes of fixed blocks, and the order in which a dynamic block sends the lengths of its first code. -/

def endOfBlock : Nat := 256

/-- For each length symbol from 257 on, the smallest length and the number of extra bits. -/
def lengthBases : Array (Nat × Nat) :=
  #[(3, 0), (4, 0), (5, 0), (6, 0), (7, 0), (8, 0), (9, 0), (10, 0), (11, 1), (13, 1), (15, 1), (17, 1),
    (19, 2), (23, 2), (27, 2), (31, 2), (35, 3), (43, 3), (51, 3), (59, 3), (67, 4), (83, 4), (99, 4),
    (115, 4), (131, 5), (163, 5), (195, 5), (227, 5), (258, 0)]

/-- For each distance symbol, the smallest distance and the number of extra bits. -/
def distanceBases : Array (Nat × Nat) :=
  #[(1, 0), (2, 0), (3, 0), (4, 0), (5, 1), (7, 1), (9, 2), (13, 2), (17, 3), (25, 3), (33, 4), (49, 4),
    (65, 5), (97, 5), (129, 6), (193, 6), (257, 7), (385, 7), (513, 8), (769, 8), (1025, 9), (1537, 9),
    (2049, 10), (3073, 10), (4097, 11), (6145, 11), (8193, 12), (12289, 12), (16385, 13), (24577, 13)]

/-- Codeword lengths of the literals and lengths of a fixed block. -/
def fixedLiteralLengths : List Nat :=
  List.replicate 144 8 ++ List.replicate 112 9 ++ List.replicate 24 7 ++ List.replicate 8 8

/-- Codeword lengths of the distances of a fixed block. -/
def fixedDistanceLengths : List Nat :=
  List.replicate 32 5

structure Codes where
  literals : Tree
  distances : Tree

def fixedCodes : Codes :=
  ⟨Tree.ofLengths fixedLiteralLengths, Tree.ofLengths fixedDistanceLengths⟩

/-- The order in which the codeword lengths of a dynamic block's first code are sent. -/
def lengthOrder : List Nat :=
  [16, 17, 18, 0, 8, 7, 9, 6, 10, 5, 11, 4, 12, 3, 13, 2, 14, 1, 15]

/-- The furthest a copy reaches back. -/
def windowSize : Nat := 32768

end FrameLink.Deflate
