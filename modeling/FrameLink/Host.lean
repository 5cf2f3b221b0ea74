import FrameLink.Attempt
import FrameLink.Identity
import FrameLink.Stream
import FrameLink.Text.Quoted

/-! The machine a link runs on, as far as links see it: which addresses answer, where one can listen, and
which programs can be started as peers. -/

namespace FrameLink

/-! How a peer process announces where it can be reached: three lines on its output, which are a marker,
a host and a port. Line ends are carriage returns and newlines in any number; what follows the third line
is of no concern. -/

structure Announcement where
  host : String
  port : Nat
  deriving DecidableEq

namespace Announcement

def marker : String := "AGNOS"

/-- An announcement as a peer prints it, with the given line ends. -/
def print (a : Announcement) (lineEnd : String) : String :=
  String.join ([marker, a.host, toString a.port].map (· ++ lineEnd))

/-- The bytes up to and with the first newline, and the rest. -/
def takeLine : Bytes → Bytes × Bytes
  | [] => ([], [])
  | b :: bs =>
    if b = 10 then
      ([b], bs)
    else
      match takeLine bs with
      | (line, rest) => (b :: line, rest)

def isLineEnd (c : Char) : Bool :=
  c = '\r' || c = '\n'

/-- A text without the line ends at its end. -/
def trimmed (s : String) : String :=
  String.ofList (s.toList.reverse.dropWhile isLineEnd).reverse

def text? (bs : Bytes) : Option String :=
  String.fromUTF8? bs.toByteArray

/-- The text of the next line, where `what` names what the line should hold. -/
def readLine (what : String) (bs : Bytes) : Except LinkError (String × Bytes) :=
  match takeLine bs with
  | ([], _) => .error (.startupFailed ("process exited before announcing its " ++ what) none)
  | (line, rest) =>
    match text? line with
    | some s => .ok (trimmed s, rest)
    | none =>
      .error (.startupFailed ("failed to read " ++ what)
        (some ⟨.invalidData, "stream did not contain valid UTF-8"⟩))

def read (bs : Bytes) : Except LinkError Announcement := do
  let (first, rest) ← readLine "startup marker" bs
  if first ≠ marker then
    throw (.startupFailed
      ("expected startup marker " ++ Text.quoted marker ++ ", got " ++ Text.quoted first) none)
  let (host, rest) ← readLine "host" rest
  let (last, _) ← readLine "port" rest
  match Endpoint.port? last with
  | some port => return ⟨host, port⟩
  | none => throw (.startupFailed ("invalid port " ++ Text.quoted last) none)

/-- The address to connect to. A host with a colon in it stands in brackets. -/
def address (a : Announcement) : String :=
  if a.host.toList.contains ':' then
    "[" ++ a.host ++ "]:" ++ toString a.port
  else
    a.host ++ ":" ++ toString a.port

end Announcement

/-- What there is outside: the octets of the hosts that have names, the port that is given to who asks for any,
whether somebody answers at an address, and what the program in a file prints, given its arguments, if there is such a
program. -/
structure Host where
  names : String → Option (List Nat)
  freePort : Nat
  answers : SocketAddress → Bool
  output? : String → List String → Option Bytes

namespace Host

/-- Arguments that make a peer program serve a single link. -/
def libraryArguments : List String := ["-m", "lib"]

/-- The failure of an address that stands for nothing. -/
def unknownAddress : IoError :=
  ⟨.invalidInput, "invalid socket address"⟩

def connect (h : Host) (address : String) : Except LinkError SocketAddress :=
  match Endpoint.resolve? h.names address with
  | none => .error (.connectionFailed address unknownAddress)
  | some a =>
    if h.answers a then .ok a
    else .error (.connectionFailed address ⟨.connectionRefused, "Connection refused"⟩)

def bind (h : Host) (address : String) : Except LinkError SocketAddress :=
  match Endpoint.resolve? h.names address with
  | none => .error (.bindFailed address unknownAddress)
  | some a =>
    if a.isOwn then .ok (if a.port = 0 then a.withPort h.freePort else a)
    else .error (.bindFailed address ⟨.addrNotAvailable, "Cannot assign requested address"⟩)

/-- Connects to a peer that has printed the given bytes. -/
def connectAnnounced (h : Host) (printed : Bytes) : Except LinkError SocketAddress := do
  let a ← Announcement.read printed
  h.connect a.address

/-- Whether a program's name is longer than that of any file: a name by itself may have 255 bytes, and a path
4095. -/
def isTooLong (program : String) : Bool :=
  (if program.contains '/' then 4095 else 255) < program.utf8ByteSize

def run (h : Host) (program : String) (arguments : List String) : Except IoError Bytes :=
  if (program :: arguments).any fun text => text.contains '\x00' then
    .error ⟨.invalidInput, "nul byte found in provided data"⟩
  else if isTooLong program then
    .error ⟨.invalidFilename, "File name too long"⟩
  else
    match h.output? program arguments with
    | some printed => .ok printed
    | none => .error ⟨.notFound, "No such file or directory"⟩

/-- Starts a program and connects to the address it announces. -/
def spawn (h : Host) (program : String) (arguments : List String) : Except LinkError SocketAddress :=
  match h.run program arguments with
  | .ok printed => h.connectAnnounced printed
  | .error e => .error (.startupFailed "failed to spawn process" (some e))

/-- Listens on this machine and connects to a peer that announces just that, with the given line ends. -/
def connectBack (h : Host) (lineEnd : String) : Except LinkError SocketAddress := do
  let a ← h.bind "127.0.0.1:0"
  h.connectAnnounced ((Announcement.mk "127.0.0.1" a.port).print lineEnd).toUTF8.toList

/-- A machine without a network, where nobody answers. It has a program that prints its arguments and two
that print nothing. -/
def isolated : Host where
  names name := if name = "localhost" then some [127, 0, 0, 1] else none
  freePort := 49152
  answers _ := false
  output? program arguments :=
    let named (name : String) : Bool := [name, "/bin/" ++ name, "/usr/bin/" ++ name].contains program
    if named "echo" then some (" ".intercalate arguments ++ "\n").toUTF8.toList
    else if named "true" || named "false" then some []
    else none

end Host

end FrameLink
