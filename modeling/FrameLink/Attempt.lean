/-! What operations come to: an answer, a failure, or no answer yet. A call that waits keeps what it has done so far
in the state beside it and goes on from there when it is run again. -/

namespace FrameLink

inductive Attempt (ε α : Type) where
  | ok (value : α)
  | error (cause : ε)
  | waiting
  deriving DecidableEq

namespace Attempt

variable {ε δ α β : Type}

def ofExcept : Except ε α → Attempt ε α
  | .ok a => .ok a
  | .error e => .error e

/-- The result, once there is one. -/
def result? : Attempt ε α → Option (Except ε α)
  | .ok a => some (.ok a)
  | .error e => some (.error e)
  | .waiting => none

def map (f : α → β) : Attempt ε α → Attempt ε β
  | .ok a => .ok (f a)
  | .error e => .error e
  | .waiting => .waiting

def mapError (f : ε → δ) : Attempt ε α → Attempt δ α
  | .ok a => .ok a
  | .error e => .error (f e)
  | .waiting => .waiting

end Attempt

/-! Failures of the byte streams beneath a link: a kind, which decides how the failure is treated, and
a text for people. -/

inductive IoKind where
  | notFound | permissionDenied | connectionRefused | connectionReset | hostUnreachable
  | networkUnreachable | connectionAborted | notConnected | addrInUse | addrNotAvailable
  | networkDown | brokenPipe | alreadyExists | wouldBlock | notADirectory | isADirectory
  | directoryNotEmpty | readOnlyFilesystem | filesystemLoop | staleNetworkFileHandle | invalidInput
  | invalidData | timedOut | writeZero | storageFull | notSeekable | quotaExceeded | fileTooLarge
  | resourceBusy | executableFileBusy | deadlock | crossesDevices | tooManyLinks | invalidFilename
  | argumentListTooLong | interrupted | unsupported | unexpectedEof | outOfMemory | inProgress
  | other | uncategorized
  deriving DecidableEq

namespace IoKind

def name : IoKind → String
  | .notFound => "NotFound"
  | .permissionDenied => "PermissionDenied"
  | .connectionRefused => "ConnectionRefused"
  | .connectionReset => "ConnectionReset"
  | .hostUnreachable => "HostUnreachable"
  | .networkUnreachable => "NetworkUnreachable"
  | .connectionAborted => "ConnectionAborted"
  | .notConnected => "NotConnected"
  | .addrInUse => "AddrInUse"
  | .addrNotAvailable => "AddrNotAvailable"
  | .networkDown => "NetworkDown"
  | .brokenPipe => "BrokenPipe"
  | .alreadyExists => "AlreadyExists"
  | .wouldBlock => "WouldBlock"
  | .notADirectory => "NotADirectory"
  | .isADirectory => "IsADirectory"
  | .directoryNotEmpty => "DirectoryNotEmpty"
  | .readOnlyFilesystem => "ReadOnlyFilesystem"
  | .filesystemLoop => "FilesystemLoop"
  | .staleNetworkFileHandle => "StaleNetworkFileHandle"
  | .invalidInput => "InvalidInput"
  | .invalidData => "InvalidData"
  | .timedOut => "TimedOut"
  | .writeZero => "WriteZero"
  | .storageFull => "StorageFull"
  | .notSeekable => "NotSeekable"
  | .quotaExceeded => "QuotaExceeded"
  | .fileTooLarge => "FileTooLarge"
  | .resourceBusy => "ResourceBusy"
  | .executableFileBusy => "ExecutableFileBusy"
  | .deadlock => "Deadlock"
  | .crossesDevices => "CrossesDevices"
  | .tooManyLinks => "TooManyLinks"
  | .invalidFilename => "InvalidFilename"
  | .argumentListTooLong => "ArgumentListTooLong"
  | .interrupted => "Interrupted"
  | .unsupported => "Unsupported"
  | .unexpectedEof => "UnexpectedEof"
  | .outOfMemory => "OutOfMemory"
  | .inProgress => "InProgress"
  | .other => "Other"
  | .uncategorized => "Uncategorized"

def all : List IoKind :=
  [.notFound, .permissionDenied, .connectionRefused, .connectionReset, .hostUnreachable,
   .networkUnreachable, .connectionAborted, .notConnected, .addrInUse, .addrNotAvailable, .networkDown,
   .brokenPipe, .alreadyExists, .wouldBlock, .notADirectory, .isADirectory, .directoryNotEmpty,
   .readOnlyFilesystem, .filesystemLoop, .staleNetworkFileHandle, .invalidInput, .invalidData,
   .timedOut, .writeZero, .storageFull, .notSeekable, .quotaExceeded, .fileTooLarge, .resourceBusy,
   .executableFileBusy, .deadlock, .crossesDevices, .tooManyLinks, .invalidFilename,
   .argumentListTooLong, .interrupted, .unsupported, .unexpectedEof, .outOfMemory, .inProgress, .other,
   .uncategorized]

def ofName? (s : String) : Option IoKind :=
  all.find? fun k => k.name = s

end IoKind

structure IoError where
  kind : IoKind
  text : String
  deriving DecidableEq

/-- Whether the failure only says that the operation was interrupted and may be tried again. -/
def IoError.isInterruption (e : IoError) : Bool :=
  e.kind = .interrupted

/-! Every way in which an operation on a link fails. Misuse (`reentrancy`, `protocolState`, `overread`)
leaves the link as it was; `codec` and `stream` mean that the byte stream is no longer aligned to
packets; the rest belongs to the life of a link. -/

inductive LinkError where
  | reentrancy (operation : String)
  | protocolState (operation transaction : String)
  | overread (requested remaining : Nat)
  | codec (reason : String) (source : Option IoError)
  | stream (source : IoError)
  | closed
  | connectionFailed (address : String) (source : IoError)
  | bindFailed (address : String) (source : IoError)
  | startupFailed (reason : String) (source : Option IoError)
  deriving DecidableEq

namespace LinkError

def message : LinkError → String
  | .reentrancy operation => operation ++ " is not reentrant"
  | .protocolState operation transaction =>
    operation ++ " requires an open " ++ transaction ++ " transaction on the calling thread"
  | .overread requested remaining =>
    s!"requested {requested} bytes but only {remaining} remain in the current packet"
  | .codec reason _ => "codec error: " ++ reason
  | .stream source => "stream error: " ++ source.text
  | .closed => "transport is closed"
  | .connectionFailed address source => "failed to connect to " ++ address ++ ": " ++ source.text
  | .bindFailed address source => "failed to bind to " ++ address ++ ": " ++ source.text
  | .startupFailed reason _ => "peer process failed to start: " ++ reason

/-- The failure of the byte stream behind this one, if there is one. -/
def source? : LinkError → Option IoError
  | .codec _ source => source
  | .stream source => some source
  | .connectionFailed _ source => some source
  | .bindFailed _ source => some source
  | .startupFailed _ source => source
  | _ => none

/-- Whether the link, or another attempt to connect, may still succeed. -/
def isRecoverable : LinkError → Bool
  | .reentrancy _ | .protocolState _ _ | .overread _ _ => true
  | .connectionFailed _ source =>
    source.kind = .connectionRefused || source.kind = .timedOut || source.kind = .interrupted
  | _ => false

/-- Whether the link should be closed and set up afresh. -/
def closesLink : LinkError → Bool
  | .codec _ _ | .stream _ | .closed => true
  | _ => false

def isOverread : LinkError → Bool
  | .overread _ _ => true
  | _ => false

/-- The kind under which the failure appears to code that knows only byte streams. -/
def ioKind : LinkError → IoKind
  | .stream source => source.kind
  | .reentrancy _ | .protocolState _ _ | .overread _ _ => .invalidInput
  | .codec _ _ => .invalidData
  | .closed => .notConnected
  | .connectionFailed _ _ => .connectionRefused
  | .bindFailed _ _ => .addrInUse
  | .startupFailed _ _ => .other

/-- The failure as code that knows only byte streams sees it. A failed stream appears as itself. -/
def toIoError : LinkError → IoError
  | .stream source => source
  | e => ⟨e.ioKind, e.message⟩

/-- The failure that a read error of a payload becomes: what the inflater objects to is a fault of the
data, all else a fault of the stream. -/
def ofPayloadError (e : IoError) : LinkError :=
  if e.kind = .invalidData ∨ e.kind = .invalidInput then
    .codec "failed to decode packet payload" (some e)
  else
    .stream e

end LinkError

end FrameLink
