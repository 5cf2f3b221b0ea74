/-! What is known about a link apart from its state: a number that tells it from all others, its kind, and
the addresses of its two ends where it has any. -/

namespace FrameLink

/-! Socket addresses: an internet address of four or sixteen bytes and a port. Addresses are read from
the usual text forms and written in the shortest of them. -/

/-- Four octets, or eight groups of two octets, and a port. -/
inductive SocketAddress where
  | v4 (octets : List Nat) (port : Nat)
  | v6 (groups : List Nat) (scope port : Nat)
  deriving DecidableEq

namespace SocketAddress

def digit? (c : Char) : Option Nat :=
  if c.isDigit then some (c.toNat - '0'.toNat)
  else if 'a' ≤ c ∧ c ≤ 'f' then some (c.toNat - 'a'.toNat + 10)
  else if 'A' ≤ c ∧ c ≤ 'F' then some (c.toNat - 'A'.toNat + 10)
  else none

/-- The number below `bound` that at least one digit spells. -/
def number? (base bound : Nat) (cs : List Char) : Option Nat :=
  let step (acc : Option Nat) (c : Char) : Option Nat := do
    let n ← acc
    let d ← digit? c
    if d < base then some (n * base + d) else none
  match cs with
  | [] => none
  | _ =>
    match cs.foldl step (some 0) with
    | some n => if n < bound then some n else none
    | none => none

/-- One of the four numbers, which has no needless zero in front. -/
def octet? (cs : List Char) : Option Nat :=
  match cs with
  | '0' :: _ :: _ => none
  | _ => if cs.length ≤ 3 then number? 10 256 cs else none

def parts (separator : Char) (cs : List Char) : List (List Char) :=
  cs.foldr (fun c acc =>
    match acc with
    | [] => [[c]]
    | part :: rest => if c = separator then [] :: part :: rest else (c :: part) :: rest) [[]]

def octets? (cs : List Char) : Option (List Nat) :=
  match (parts '.' cs).mapM octet? with
  | some os => if os.length = 4 then some os else none
  | none => none

/-- One of the eight numbers. -/
def group? (cs : List Char) : Option Nat :=
  if cs.length ≤ 4 then number? 16 65536 cs else none

/-- Groups between colons, of which the last two may be written as octets. -/
def groups? (withOctets : Bool) : List (List Char) → Option (List Nat)
  | [] => some []
  | [last] =>
    match group? last with
    | some g => some [g]
    | none =>
      match if withOctets then octets? last else none with
      | some [a, b, c, d] => some [a * 256 + b, c * 256 + d]
      | _ => none
  | first :: rest => do
    let g ← group? first
    let gs ← groups? withOctets rest
    some (g :: gs)

/-- The text before and after the first double colon, if there is one. -/
def splitGap : List Char → Option (List Char × List Char)
  | ':' :: ':' :: rest => some ([], rest)
  | c :: rest => (splitGap rest).map fun p => (c :: p.1, p.2)
  | [] => none

/-- The groups of a text that may be empty. -/
def groupsOf? (withOctets : Bool) (cs : List Char) : Option (List Nat) :=
  if cs = [] then some [] else groups? withOctets (parts ':' cs)

/-- Eight groups, where a double colon stands for one or more zeros. -/
def allGroups? (cs : List Char) : Option (List Nat) :=
  match splitGap cs with
  | none => do
    let gs ← groupsOf? true cs
    if gs.length = 8 then some gs else none
  | some (before, after) => do
    let front ← groupsOf? false before
    let back ← groupsOf? true after
    if front.length + back.length < 8 then
      some (front ++ List.replicate (8 - front.length - back.length) 0 ++ back)
    else
      none

def port? (cs : List Char) : Option Nat :=
  number? 10 65536 cs

def ofText? (s : String) : Option SocketAddress :=
  match s.toList with
  | '[' :: cs =>
    match parts ']' cs with
    | [inside, ':' :: port] => do
      let p ← port? port
      match parts '%' inside with
      | [address] => do
        let gs ← allGroups? address
        some (.v6 gs 0 p)
      | [address, scope] => do
        let gs ← allGroups? address
        let z ← number? 10 0x100000000 scope
        some (.v6 gs z p)
      | _ => none
    | _ => none
  | cs =>
    match parts ':' cs with
    | [address, port] => do
      let os ← octets? address
      let p ← port? port
      some (.v4 os p)
    | _ => none

def port : SocketAddress → Nat
  | .v4 _ port => port
  | .v6 _ _ port => port

def withPort (port : Nat) : SocketAddress → SocketAddress
  | .v4 octets _ => .v4 octets port
  | .v6 groups scope _ => .v6 groups scope port

/-- Whether every machine has the address: it leads back to the machine, or stands for all it has. -/
def isOwn : SocketAddress → Bool
  | .v4 (127 :: _) _ => true
  | .v4 octets _ => octets.all (· = 0)
  | .v6 groups _ _ => groups.take 7 = List.replicate 7 0 && groups.drop 7 ∈ [[0], [1]]

def octetsText (os : List Nat) : String :=
  ".".intercalate (os.map toString)

/-- Groups between colons, in lower case and without zeros in front. -/
def groupsText (gs : List Nat) : String :=
  ":".intercalate (gs.map fun g => String.ofList (Nat.toDigits 16 g))

def zeros (gs : List Nat) : Nat :=
  (gs.takeWhile (· = 0)).length

/-- Where the first of the longest runs of zeros starts, and its length. -/
def longestGap (gs : List Nat) : Nat × Nat :=
  (List.range gs.length).foldl (fun best i =>
    let n := zeros (gs.drop i)
    if best.2 < n then (i, n) else best) (0, 0)

/-- Writes eight groups. A run of two or more zeros becomes a double colon. -/
def addressText (gs : List Nat) : String :=
  match gs with
  | [0, 0, 0, 0, 0, 65535, a, b] => "::ffff:" ++ octetsText [a / 256, a % 256, b / 256, b % 256]
  | _ =>
    match longestGap gs with
    | (start, n) =>
      if 2 ≤ n then groupsText (gs.take start) ++ "::" ++ groupsText (gs.drop (start + n))
      else groupsText gs

def text : SocketAddress → String
  | .v4 os port => octetsText os ++ ":" ++ toString port
  | .v6 gs 0 port => "[" ++ addressText gs ++ "]:" ++ toString port
  | .v6 gs scope port => "[" ++ addressText gs ++ "%" ++ toString scope ++ "]:" ++ toString port

end SocketAddress

end FrameLink

/-! Where to listen or to connect, as people write it: a socket address, or a host and a port around the
last colon. A host is a name or a number. Numbers of four bytes may be cut into up to four parts by dots,
each decimal, octal after a zero, or hexadecimal after a zero and an x; the last part fills the bytes that
are left. -/

namespace FrameLink.Endpoint

def digitsValue (cs : List Char) : Nat :=
  cs.foldl (fun n c => n * 10 + (c.toNat - '0'.toNat)) 0

/-- The port that decimal digits spell, after a plus sign if there is one. -/
def port? (s : String) : Option Nat :=
  let digits := match s.toList with
    | '+' :: cs => cs
    | cs => cs
  if digits ≠ [] ∧ digits.all Char.isDigit ∧ digitsValue digits < 65536 then
    some (digitsValue digits)
  else
    none

/-- The text before and after the last colon, if there is one. -/
def splitLast : List Char → Option (List Char × List Char)
  | [] => none
  | c :: cs =>
    match splitLast cs with
    | some (before, after) => some (c :: before, after)
    | none => if c = ':' then some ([], cs) else none

def part? : List Char → Option Nat
  | '0' :: 'x' :: cs => SocketAddress.number? 16 0x100000000 cs
  | '0' :: 'X' :: cs => SocketAddress.number? 16 0x100000000 cs
  | '0' :: c :: cs => SocketAddress.number? 8 0x100000000 (c :: cs)
  | cs => SocketAddress.number? 10 0x100000000 cs

/-- The number of so many bytes that parts make up: one byte each, and the last the bytes that are left. -/
def combine? : Nat → List Nat → Option Nat
  | 0, _ => none
  | _, [] => none
  | bytes + 1, [last] => if last < 1 <<< (8 * (bytes + 1)) then some last else none
  | bytes + 1, first :: rest =>
    if first < 256 then (combine? bytes rest).map (first <<< (8 * bytes) + ·) else none

def octets? (host : List Char) : Option (List Nat) := do
  let parts ← (SocketAddress.parts '.' host).mapM part?
  let n ← combine? 4 parts
  some [n / 0x1000000, n / 0x10000 % 256, n / 0x100 % 256, n % 256]

def atPort? (names : String → Option (List Nat)) (host : List Char) (port : Nat) : Option SocketAddress :=
  match (octets? host).or (names (String.ofList host)) with
  | some os => some (.v4 os port)
  | none => (SocketAddress.allGroups? host).map fun gs => .v6 gs 0 port

/-- The socket address that a text stands for, given the octets of the hosts that have names. -/
def resolve? (names : String → Option (List Nat)) (s : String) : Option SocketAddress :=
  match SocketAddress.ofText? s with
  | some a => some a
  | none => do
    let (host, port) ← splitLast s.toList
    let p ← port? (String.ofList port)
    atPort? names host p

end FrameLink.Endpoint

namespace FrameLink

structure LinkId where
  value : Nat
  deriving DecidableEq

namespace LinkId

def text (i : LinkId) : String :=
  s!"Transport({i.value})"

def next (i : LinkId) : LinkId :=
  ⟨i.value + 1⟩

end LinkId

structure Identity where
  id : LinkId
  kind : String
  localAddress : Option SocketAddress := none
  peerAddress : Option SocketAddress := none
  deriving DecidableEq

end FrameLink
