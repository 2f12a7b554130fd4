import TableSnapshots.Text.Digits

/-!
# Faults

Why a file operation failed. A fault is the number that the operating system reports, a bare kind,
or a kind with a text of its own. Whether a fault is worth another attempt depends on its kind and
number only; its text is for the reader of a message.
-/

namespace TableSnapshots

/-- The kinds of fault that callers tell apart. -/
inductive FaultKind where
  | addrInUse | addrNotAvailable | alreadyExists | argumentListTooLong | brokenPipe
  | connectionAborted | connectionRefused | connectionReset | crossesDevices | deadlock
  | directoryNotEmpty | executableFileBusy | fileTooLarge | filesystemLoop | hostUnreachable
  | inProgress | interrupted | invalidData | invalidFilename | invalidInput | isADirectory
  | networkDown | networkUnreachable | notADirectory | notConnected | notFound | notSeekable
  | other | outOfMemory | permissionDenied | quotaExceeded | readOnlyFilesystem | resourceBusy
  | staleNetworkFileHandle | storageFull | timedOut | tooManyLinks | uncategorized
  | unexpectedEof | unsupported | wouldBlock | writeZero
  deriving DecidableEq, Repr

namespace FaultKind

/-- Every kind with its name and with the text that stands for a bare fault of that kind. -/
def table : List (FaultKind × String × String) := [
  (.addrInUse, "AddrInUse", "address in use"),
  (.addrNotAvailable, "AddrNotAvailable", "address not available"),
  (.alreadyExists, "AlreadyExists", "entity already exists"),
  (.argumentListTooLong, "ArgumentListTooLong", "argument list too long"),
  (.brokenPipe, "BrokenPipe", "broken pipe"),
  (.connectionAborted, "ConnectionAborted", "connection aborted"),
  (.connectionRefused, "ConnectionRefused", "connection refused"),
  (.connectionReset, "ConnectionReset", "connection reset"),
  (.crossesDevices, "CrossesDevices", "cross-device link or rename"),
  (.deadlock, "Deadlock", "deadlock"),
  (.directoryNotEmpty, "DirectoryNotEmpty", "directory not empty"),
  (.executableFileBusy, "ExecutableFileBusy", "executable file busy"),
  (.fileTooLarge, "FileTooLarge", "file too large"),
  (.filesystemLoop, "FilesystemLoop", "filesystem loop or indirection limit (e.g. symlink loop)"),
  (.hostUnreachable, "HostUnreachable", "host unreachable"),
  (.inProgress, "InProgress", "in progress"),
  (.interrupted, "Interrupted", "operation interrupted"),
  (.invalidData, "InvalidData", "invalid data"),
  (.invalidFilename, "InvalidFilename", "invalid filename"),
  (.invalidInput, "InvalidInput", "invalid input parameter"),
  (.isADirectory, "IsADirectory", "is a directory"),
  (.networkDown, "NetworkDown", "network down"),
  (.networkUnreachable, "NetworkUnreachable", "network unreachable"),
  (.notADirectory, "NotADirectory", "not a directory"),
  (.notConnected, "NotConnected", "not connected"),
  (.notFound, "NotFound", "entity not found"),
  (.notSeekable, "NotSeekable", "seek on unseekable file"),
  (.other, "Other", "other error"),
  (.outOfMemory, "OutOfMemory", "out of memory"),
  (.permissionDenied, "PermissionDenied", "permission denied"),
  (.quotaExceeded, "QuotaExceeded", "quota exceeded"),
  (.readOnlyFilesystem, "ReadOnlyFilesystem", "read-only filesystem or storage medium"),
  (.resourceBusy, "ResourceBusy", "resource busy"),
  (.staleNetworkFileHandle, "StaleNetworkFileHandle", "stale network file handle"),
  (.storageFull, "StorageFull", "no storage space"),
  (.timedOut, "TimedOut", "timed out"),
  (.tooManyLinks, "TooManyLinks", "too many links"),
  (.uncategorized, "Uncategorized", "uncategorized error"),
  (.unexpectedEof, "UnexpectedEof", "unexpected end of file"),
  (.unsupported, "Unsupported", "unsupported"),
  (.wouldBlock, "WouldBlock", "operation would block"),
  (.writeZero, "WriteZero", "write zero")]

/-- The name of a kind. -/
def name (k : FaultKind) : String :=
  ((table.find? (·.1 = k)).map (·.2.1)).getD ""

/-- The text of a bare fault of a kind. -/
def text (k : FaultKind) : String :=
  ((table.find? (·.1 = k)).map (·.2.2)).getD ""

/-- The kind of a name. -/
def ofName? (s : String) : Option FaultKind :=
  (table.find? (·.2.1 = s)).map (·.1)

/-- The kind of an error number of the operating system. -/
def ofCode (code : Int) : FaultKind :=
  match code with
  | 1 | 13 => .permissionDenied
  | 2 => .notFound
  | 4 => .interrupted
  | 7 => .argumentListTooLong
  | 11 => .wouldBlock
  | 12 => .outOfMemory
  | 16 => .resourceBusy
  | 17 => .alreadyExists
  | 18 => .crossesDevices
  | 20 => .notADirectory
  | 21 => .isADirectory
  | 22 => .invalidInput
  | 26 => .executableFileBusy
  | 27 => .fileTooLarge
  | 28 => .storageFull
  | 29 => .notSeekable
  | 30 => .readOnlyFilesystem
  | 31 => .tooManyLinks
  | 32 => .brokenPipe
  | 35 => .deadlock
  | 36 => .invalidFilename
  | 38 | 95 => .unsupported
  | 39 => .directoryNotEmpty
  | 40 => .filesystemLoop
  | 98 => .addrInUse
  | 99 => .addrNotAvailable
  | 100 => .networkDown
  | 101 => .networkUnreachable
  | 103 => .connectionAborted
  | 104 => .connectionReset
  | 107 => .notConnected
  | 110 => .timedOut
  | 111 => .connectionRefused
  | 113 => .hostUnreachable
  | 115 => .inProgress
  | 116 => .staleNetworkFileHandle
  | 122 => .quotaExceeded
  | _ => .uncategorized

end FaultKind

/-- A failed file operation. -/
inductive Fault where
  /-- The operating system reported this error number. -/
  | system (code : Int)
  /-- A kind and nothing else. -/
  | bare (kind : FaultKind)
  /-- A kind with a text of its own. -/
  | described (kind : FaultKind) (text : String)
  deriving DecidableEq, Repr

namespace Fault

/-- The kind of a fault. -/
def kind : Fault → FaultKind
  | system code => .ofCode code
  | bare kind => kind
  | described kind _ => kind

/-- The operating system's error number, if the fault has one. -/
def code? : Fault → Option Int
  | system code => some code
  | _ => none

/-- What the operating system says about an error number. -/
def systemText (code : Int) : String :=
  match code with
  | 1 => "Operation not permitted"
  | 2 => "No such file or directory"
  | 4 => "Interrupted system call"
  | 5 => "Input/output error"
  | 11 => "Resource temporarily unavailable"
  | 12 => "Cannot allocate memory"
  | 13 => "Permission denied"
  | 16 => "Device or resource busy"
  | 17 => "File exists"
  | 18 => "Invalid cross-device link"
  | 20 => "Not a directory"
  | 21 => "Is a directory"
  | 22 => "Invalid argument"
  | 23 => "Too many open files in system"
  | 24 => "Too many open files"
  | 26 => "Text file busy"
  | 27 => "File too large"
  | 28 => "No space left on device"
  | 29 => "Illegal seek"
  | 30 => "Read-only file system"
  | 31 => "Too many links"
  | 36 => "File name too long"
  | 39 => "Directory not empty"
  | 40 => "Too many levels of symbolic links"
  | 116 => "Stale file handle"
  | 122 => "Disk quota exceeded"
  | _ => "Unknown error " ++ Text.signedDecimal code

/-- The text of a fault in messages. -/
def message : Fault → String
  | system code => systemText code ++ " (os error " ++ Text.signedDecimal code ++ ")"
  | bare kind => kind.text
  | described _ text => text

/-- Nothing is there. -/
def missing : Fault := .system 2

/-- The caller may not do this. -/
def notPermitted : Fault := .system 1

/-- Something other than a directory stands where a directory is needed. -/
def notDirectory : Fault := .system 20

/-- A directory stands where a file is needed. -/
def directory : Fault := .system 21

/-- The operation makes no sense for this path. -/
def invalid : Fault := .system 22

/-- A name or a path is longer than the file system takes. -/
def nameTooLong : Fault := .system 36

/-- The directory has entries. -/
def notEmpty : Fault := .system 39

/-- Too many links lead on from one to the next. -/
def linkLoop : Fault := .system 40

/-- The directory is in use by the system itself. -/
def busy : Fault := .system 16

/-- The path has a zero character, which no path of the operating system can hold. -/
def zeroInPath : Fault :=
  .described .invalidInput "file name contained an unexpected NUL byte"

/-- The content of a file is not text. -/
def notText : Fault :=
  .described .invalidData "stream did not contain valid UTF-8"

end Fault

end TableSnapshots
