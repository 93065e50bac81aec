import FleetEstimate.Real64
import FleetEstimate.Text.Quoted
import FleetEstimate.Decimal.Written

/-!
# What can go wrong

Failures form three layers. A `LinkError` is a failure of a connection; it has a
kind and may carry the failure that caused it, also one of another layer. A
`WorkerError` ends a worker's session. An `EstimationError` is a request that
cannot be run. Each has a message and the messages of the causes below it.

`LinkError.ofWorker` and `WorkerError.ofLink` take a failure across the boundary
between a call's handler, which can only fail like a link, and the session.
-/

namespace FleetEstimate

/-- The kinds of failure of an input or output operation. -/
inductive ErrorKind
  | addrInUse | addrNotAvailable | alreadyExists | argumentListTooLong | brokenPipe
  | connectionAborted | connectionRefused | connectionReset | crossesDevices | deadlock
  | directoryNotEmpty | executableFileBusy | fileTooLarge | filesystemLoop | hostUnreachable
  | inProgress | interrupted | invalidData | invalidFilename | invalidInput | isADirectory
  | networkDown | networkUnreachable | notADirectory | notConnected | notFound | notSeekable
  | other | outOfMemory | permissionDenied | quotaExceeded | readOnlyFilesystem | resourceBusy
  | staleNetworkFileHandle | storageFull | timedOut | tooManyLinks | unexpectedEof | unsupported
  | wouldBlock | writeZero | uncategorized
deriving DecidableEq, Repr

def ErrorKind.description : ErrorKind → String
  | .addrInUse => "address in use"
  | .addrNotAvailable => "address not available"
  | .alreadyExists => "entity already exists"
  | .argumentListTooLong => "argument list too long"
  | .brokenPipe => "broken pipe"
  | .connectionAborted => "connection aborted"
  | .connectionRefused => "connection refused"
  | .connectionReset => "connection reset"
  | .crossesDevices => "cross-device link or rename"
  | .deadlock => "deadlock"
  | .directoryNotEmpty => "directory not empty"
  | .executableFileBusy => "executable file busy"
  | .fileTooLarge => "file too large"
  | .filesystemLoop => "filesystem loop or indirection limit (e.g. symlink loop)"
  | .hostUnreachable => "host unreachable"
  | .inProgress => "in progress"
  | .interrupted => "operation interrupted"
  | .invalidData => "invalid data"
  | .invalidFilename => "invalid filename"
  | .invalidInput => "invalid input parameter"
  | .isADirectory => "is a directory"
  | .networkDown => "network down"
  | .networkUnreachable => "network unreachable"
  | .notADirectory => "not a directory"
  | .notConnected => "not connected"
  | .notFound => "entity not found"
  | .notSeekable => "seek on unseekable file"
  | .other => "other error"
  | .outOfMemory => "out of memory"
  | .permissionDenied => "permission denied"
  | .quotaExceeded => "quota exceeded"
  | .readOnlyFilesystem => "read-only filesystem or storage medium"
  | .resourceBusy => "resource busy"
  | .staleNetworkFileHandle => "stale network file handle"
  | .storageFull => "no storage space"
  | .timedOut => "timed out"
  | .tooManyLinks => "too many links"
  | .unexpectedEof => "unexpected end of file"
  | .unsupported => "unsupported"
  | .wouldBlock => "operation would block"
  | .writeZero => "write zero"
  | .uncategorized => "uncategorized error"

/-- The two ends do not speak the same protocol. -/
inductive ProtocolError
  | unknownFunction (name : String)
  | unexpectedTag (value : UInt32)
deriving DecidableEq, Repr

def ProtocolError.message : ProtocolError → String
  | .unknownFunction name => "no function registered as " ++ Text.quoted name
  | .unexpectedTag value =>
    let digits := String.ofList (Nat.toDigits 16 value.toNat)
    "unexpected control tag 0x" ++ "".pushn '0' (2 - digits.length) ++ digits

mutual

/-- A failure of a connection. -/
inductive LinkError
  /-- Nothing is known but its kind. -/
  | bare (kind : ErrorKind)
  /-- The platform tells it in its own words. -/
  | platform (kind : ErrorKind) (message : String)
  | carrying (kind : ErrorKind) (cause : Cause)

/-- What caused a failure of a connection. -/
inductive Cause
  | text (message : String)
  /-- The stream ended inside a message. -/
  | earlyEnd
  /-- A length prefix above `limit`. -/
  | tooLong (length limit : Nat)
  | invalidText (e : InvalidText)
  | link (e : LinkError)
  | protocol (e : ProtocolError)
  | worker (e : WorkerError)
  /-- A failure of some other sort, with the messages of the causes below it. -/
  | foreign (message : String) (causes : List String)

/-- What ends the session of a worker. -/
inductive WorkerError
  | link (e : LinkError)
  | protocol (e : ProtocolError)
  /-- A call that needs the system came before the system. -/
  | notInitialized (call : String)
  /-- The system text describes no experiment. -/
  | invalidExperiment (e : LinkError)

end

mutual

def LinkError.message : LinkError → String
  | .bare kind => kind.description
  | .platform _ message => message
  | .carrying _ cause => cause.message

def Cause.message : Cause → String
  | .text message => message
  | .earlyEnd => "early eof"
  | .tooLong length limit =>
    "length prefix " ++ toString length ++ " exceeds the limit of " ++ toString limit ++ " bytes"
  | .invalidText e => e.message
  | .link e => e.message
  | .protocol e => e.message
  | .worker e => e.message
  | .foreign message _ => message

def WorkerError.message : WorkerError → String
  | .link e => "io error: " ++ e.message
  | .protocol e => "protocol error: " ++ e.message
  | .notInitialized call => call ++ " called before the system was received"
  | .invalidExperiment e => "invalid system description: " ++ e.message

end

mutual

/-- The messages of the causes below a failure, the nearest first. What a link error
carries speaks for it and is not told twice. -/
def LinkError.causes : LinkError → List String
  | .bare _ => []
  | .platform _ _ => []
  | .carrying _ cause => cause.causes

def Cause.causes : Cause → List String
  | .link e => e.causes
  | .worker e => e.causes
  | .foreign _ causes => causes
  | _ => []

def WorkerError.causes : WorkerError → List String
  | .link e => e.message :: e.causes
  | .protocol e => [e.message]
  | .notInitialized _ => []
  | .invalidExperiment e => e.message :: e.causes

end

namespace LinkError

def kind : LinkError → ErrorKind
  | .bare kind => kind
  | .platform kind _ => kind
  | .carrying kind _ => kind

/-- The stream ended inside a message. -/
def earlyEnd : LinkError := .carrying .unexpectedEof .earlyEnd

def tooLong (length limit : Nat) : LinkError := .carrying .invalidData (.tooLong length limit)

def invalidText (e : InvalidText) : LinkError := .carrying .invalidData (.invalidText e)

/-- A protocol error where only a link can fail. -/
def ofProtocol (e : ProtocolError) : LinkError := .carrying .invalidData (.protocol e)

/-- The end of a session where only a link can fail. -/
def ofWorker : WorkerError → LinkError
  | .link e => e
  | e => .carrying .invalidData (.worker e)

end LinkError

/-- The end of a session by a failed link: what the link error carries, if that ends
a session itself. -/
def WorkerError.ofLink : LinkError → WorkerError
  | .carrying _ (.protocol e) => .protocol e
  | .carrying _ (.worker e) => e
  | e => .link e

/-- An estimation that cannot be run. -/
inductive EstimationError
  | invalidConfidence (value : Real64)
  | invalidAccuracy (value : Real64)
  /-- The experiment has no result entries. -/
  | emptyResult
  | link (e : LinkError)

namespace EstimationError

def message : EstimationError → String
  | .invalidConfidence value =>
    "confidence must lie in (0.5, 1.0), got " ++ Decimal.plain value.toFloat
  | .invalidAccuracy value => "accuracy must lie in (0.0, 1.0), got " ++ Decimal.plain value.toFloat
  | .emptyResult => "experiment produces an empty result vector"
  | .link e => "io error: " ++ e.message

def causes : EstimationError → List String
  | .link e => e.message :: e.causes
  | _ => []

end EstimationError

end FleetEstimate
