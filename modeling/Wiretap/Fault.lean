/-!
# Input and output faults

A fault is what a channel, a file or another program reports when an operation on it fails: a kind,
which decides how the service goes on, and a text for people.
-/

namespace Wiretap

/-- What went wrong, as far as a program can tell. -/
inductive FaultKind where
  | notFound
  | permissionDenied
  | connectionRefused
  | connectionReset
  | hostUnreachable
  | networkUnreachable
  | connectionAborted
  | notConnected
  | addrInUse
  | addrNotAvailable
  | networkDown
  | brokenPipe
  | alreadyExists
  | wouldBlock
  | notADirectory
  | isADirectory
  | directoryNotEmpty
  | readOnlyFilesystem
  | staleNetworkFileHandle
  | invalidInput
  | invalidData
  | timedOut
  | writeZero
  | storageFull
  | notSeekable
  | quotaExceeded
  | fileTooLarge
  | resourceBusy
  | executableFileBusy
  | deadlock
  | crossesDevices
  | tooManyLinks
  | invalidFilename
  | argumentListTooLong
  | interrupted
  | unsupported
  | unexpectedEof
  | outOfMemory
  | other
  deriving DecidableEq, Repr

namespace FaultKind

/-- Every kind with its name. -/
def names : List (FaultKind × String) :=
  [(notFound, "NotFound"), (permissionDenied, "PermissionDenied"),
    (connectionRefused, "ConnectionRefused"), (connectionReset, "ConnectionReset"),
    (hostUnreachable, "HostUnreachable"), (networkUnreachable, "NetworkUnreachable"),
    (connectionAborted, "ConnectionAborted"), (notConnected, "NotConnected"),
    (addrInUse, "AddrInUse"), (addrNotAvailable, "AddrNotAvailable"),
    (networkDown, "NetworkDown"), (brokenPipe, "BrokenPipe"), (alreadyExists, "AlreadyExists"),
    (wouldBlock, "WouldBlock"), (notADirectory, "NotADirectory"), (isADirectory, "IsADirectory"),
    (directoryNotEmpty, "DirectoryNotEmpty"), (readOnlyFilesystem, "ReadOnlyFilesystem"),
    (staleNetworkFileHandle, "StaleNetworkFileHandle"), (invalidInput, "InvalidInput"),
    (invalidData, "InvalidData"), (timedOut, "TimedOut"), (writeZero, "WriteZero"),
    (storageFull, "StorageFull"), (notSeekable, "NotSeekable"), (quotaExceeded, "QuotaExceeded"),
    (fileTooLarge, "FileTooLarge"), (resourceBusy, "ResourceBusy"),
    (executableFileBusy, "ExecutableFileBusy"), (deadlock, "Deadlock"),
    (crossesDevices, "CrossesDevices"), (tooManyLinks, "TooManyLinks"),
    (invalidFilename, "InvalidFilename"), (argumentListTooLong, "ArgumentListTooLong"),
    (interrupted, "Interrupted"), (unsupported, "Unsupported"), (unexpectedEof, "UnexpectedEof"),
    (outOfMemory, "OutOfMemory"), (other, "Other")]

/-- The name of a kind. -/
def name (k : FaultKind) : String := (names.lookup k).getD "Other"

/-- The kind of that name. -/
def ofName? (s : String) : Option FaultKind := (names.find? (·.2 == s)).map (·.1)

/-- Model of `UnixSocketProvider::is_remote_closed`: the kinds by which a channel says that its
other end has gone away. -/
def isRemoteClosed : FaultKind → Bool
  | brokenPipe | connectionReset | connectionAborted | notConnected => true
  | _ => false

end FaultKind

/-- A failed operation on a channel, a file or another program. -/
structure Fault where
  kind : FaultKind
  text : String
  deriving DecidableEq, Repr

namespace Fault

/-- Model of `end_of_stream`: the one fault that stands for every way in which the other end of a
channel can go away. -/
def endOfStream : Fault := ⟨.unexpectedEof, "channel closed by remote"⟩

/-- Model of `is_end_of_stream`. -/
def isEndOfStream (f : Fault) : Bool := f.kind = .unexpectedEof

/-- What a missing file reports. -/
def noSuchFile : Fault := ⟨.notFound, "No such file or directory (os error 2)"⟩

/-- What reading text from a file reports when its bytes are not text. -/
def notText : Fault := ⟨.invalidData, "stream did not contain valid UTF-8"⟩

/-- What writing to a pipe within the process reports when nobody reads the other end. -/
def brokenPipe : Fault := ⟨.brokenPipe, "broken pipe"⟩

/-- What writing to a socket reports when nobody reads the other end. -/
def brokenSocket : Fault := ⟨.brokenPipe, "Broken pipe (os error 32)"⟩

end Fault
end Wiretap
