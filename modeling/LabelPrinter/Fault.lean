namespace LabelPrinter

/-- The kinds of input and output errors that a socket reports. -/
inductive IoKind where
  | notFound
  | permissionDenied
  | connectionRefused
  | connectionReset
  | hostUnreachable
  | networkUnreachable
  | connectionAborted
  | notConnected
  | addrInUse
  | addrNotAvailable
  | networkDown
  | brokenPipe
  | alreadyExists
  | wouldBlock
  | notADirectory
  | isADirectory
  | directoryNotEmpty
  | readOnlyFilesystem
  | filesystemLoop
  | staleNetworkFileHandle
  | invalidInput
  | invalidData
  | timedOut
  | writeZero
  | storageFull
  | notSeekable
  | quotaExceeded
  | fileTooLarge
  | resourceBusy
  | executableFileBusy
  | deadlock
  | crossesDevices
  | tooManyLinks
  | invalidFilename
  | argumentListTooLong
  | interrupted
  | unsupported
  | unexpectedEof
  | outOfMemory
  | inProgress
  | other
  | uncategorized
  deriving DecidableEq, Repr

namespace IoKind

def name : IoKind → String
  | .notFound => "NotFound"
  | .permissionDenied => "PermissionDenied"
  | .connectionRefused => "ConnectionRefused"
  | .connectionReset => "ConnectionReset"
  | .hostUnreachable => "HostUnreachable"
  | .networkUnreachable => "NetworkUnreachable"
  | .connectionAborted => "ConnectionAborted"
  | .notConnected => "NotConnected"
  | .addrInUse => "AddrInUse"
  | .addrNotAvailable => "AddrNotAvailable"
  | .networkDown => "NetworkDown"
  | .brokenPipe => "BrokenPipe"
  | .alreadyExists => "AlreadyExists"
  | .wouldBlock => "WouldBlock"
  | .notADirectory => "NotADirectory"
  | .isADirectory => "IsADirectory"
  | .directoryNotEmpty => "DirectoryNotEmpty"
  | .readOnlyFilesystem => "ReadOnlyFilesystem"
  | .filesystemLoop => "FilesystemLoop"
  | .staleNetworkFileHandle => "StaleNetworkFileHandle"
  | .invalidInput => "InvalidInput"
  | .invalidData => "InvalidData"
  | .timedOut => "TimedOut"
  | .writeZero => "WriteZero"
  | .storageFull => "StorageFull"
  | .notSeekable => "NotSeekable"
  | .quotaExceeded => "QuotaExceeded"
  | .fileTooLarge => "FileTooLarge"
  | .resourceBusy => "ResourceBusy"
  | .executableFileBusy => "ExecutableFileBusy"
  | .deadlock => "Deadlock"
  | .crossesDevices => "CrossesDevices"
  | .tooManyLinks => "TooManyLinks"
  | .invalidFilename => "InvalidFilename"
  | .argumentListTooLong => "ArgumentListTooLong"
  | .interrupted => "Interrupted"
  | .unsupported => "Unsupported"
  | .unexpectedEof => "UnexpectedEof"
  | .outOfMemory => "OutOfMemory"
  | .inProgress => "InProgress"
  | .other => "Other"
  | .uncategorized => "Uncategorized"

def all : List IoKind :=
  [.notFound, .permissionDenied, .connectionRefused, .connectionReset, .hostUnreachable,
    .networkUnreachable, .connectionAborted, .notConnected, .addrInUse, .addrNotAvailable,
    .networkDown, .brokenPipe, .alreadyExists, .wouldBlock, .notADirectory, .isADirectory,
    .directoryNotEmpty, .readOnlyFilesystem, .filesystemLoop, .staleNetworkFileHandle,
    .invalidInput, .invalidData, .timedOut, .writeZero, .storageFull, .notSeekable,
    .quotaExceeded, .fileTooLarge, .resourceBusy, .executableFileBusy, .deadlock,
    .crossesDevices, .tooManyLinks, .invalidFilename, .argumentListTooLong, .interrupted,
    .unsupported, .unexpectedEof, .outOfMemory, .inProgress, .other, .uncategorized]

def ofName? (s : String) : Option IoKind := all.find? fun k => k.name = s

/-- A read that ends this way has found nothing yet; the channel is still good. -/
def isIdle : IoKind → Bool
  | .wouldBlock | .timedOut | .interrupted => true
  | _ => false

end IoKind

structure IoError where
  kind : IoKind
  text : String
  deriving DecidableEq, Repr

namespace IoError

def wouldBlock : IoError := ⟨.wouldBlock, "Resource temporarily unavailable (os error 11)"⟩

def brokenPipe : IoError := ⟨.brokenPipe, "Broken pipe (os error 32)"⟩

def networkUnreachable : IoError := ⟨.networkUnreachable, "Network is unreachable (os error 101)"⟩

def connectionReset : IoError := ⟨.connectionReset, "Connection reset by peer (os error 104)"⟩

def connectionRefused : IoError := ⟨.connectionRefused, "Connection refused (os error 111)"⟩

def zeroTimeout : IoError := ⟨.invalidInput, "cannot set a 0 duration timeout"⟩

def noSuchFile : IoError := ⟨.notFound, "No such file or directory (os error 2)"⟩

def ofCode? : Nat → Option IoError
  | 2 => some noSuchFile
  | 32 => some brokenPipe
  | 101 => some networkUnreachable
  | 104 => some connectionReset
  | 111 => some connectionRefused
  | _ => none

end IoError

inductive UsbError where
  | io
  | invalidParam
  | access
  | noDevice
  | notFound
  | busy
  | timeout
  | overflow
  | pipe
  | interrupted
  | noMem
  | notSupported
  | badDescriptor
  | other
  deriving DecidableEq, Repr

namespace UsbError

def name : UsbError → String
  | .io => "Io"
  | .invalidParam => "InvalidParam"
  | .access => "Access"
  | .noDevice => "NoDevice"
  | .notFound => "NotFound"
  | .busy => "Busy"
  | .timeout => "Timeout"
  | .overflow => "Overflow"
  | .pipe => "Pipe"
  | .interrupted => "Interrupted"
  | .noMem => "NoMem"
  | .notSupported => "NotSupported"
  | .badDescriptor => "BadDescriptor"
  | .other => "Other"

def text : UsbError → String
  | .io => "Input/Output Error"
  | .invalidParam => "Invalid parameter"
  | .access => "Access denied (insufficient permissions)"
  | .noDevice => "No such device (it may have been disconnected)"
  | .notFound => "Entity not found"
  | .busy => "Resource busy"
  | .timeout => "Operation timed out"
  | .overflow => "Overflow"
  | .pipe => "Pipe error"
  | .interrupted => "System call interrupted (perhaps due to signal)"
  | .noMem => "Insufficient memory"
  | .notSupported => "Operation not supported or unimplemented on this platform"
  | .badDescriptor => "Malformed descriptor"
  | .other => "Other error"

def all : List UsbError :=
  [.io, .invalidParam, .access, .noDevice, .notFound, .busy, .timeout, .overflow,
    .pipe, .interrupted, .noMem, .notSupported, .badDescriptor, .other]

def ofName? (s : String) : Option UsbError := all.find? fun e => e.name = s

end UsbError

/-- The channel's own error behind a fault. -/
inductive Cause where
  | io (e : IoError)
  | usb (e : UsbError)
  deriving DecidableEq, Repr

def Cause.text : Cause → String
  | .io e => e.text
  | .usb e => e.text

/-- A failure of the channel. Listeners are told of it; no caller gets one back. -/
structure Fault where
  context : String
  cause : Cause
  deriving DecidableEq, Repr

namespace Fault

def message (f : Fault) : String := f.context ++ ": " ++ f.cause.text

def ioKind? (f : Fault) : Option IoKind :=
  match f.cause with
  | .io e => some e.kind
  | .usb _ => none

end Fault

end LabelPrinter
