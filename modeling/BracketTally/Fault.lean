import BracketTally.Text.Decimal

namespace BracketTally

inductive Fault.Kind
  | notFound
  | permissionDenied
  | connectionRefused
  | connectionReset
  | hostUnreachable
  | networkUnreachable
  | connectionAborted
  | notConnected
  | addrInUse
  | addrNotAvailable
  | networkDown
  | brokenPipe
  | alreadyExists
  | wouldBlock
  | notADirectory
  | isADirectory
  | directoryNotEmpty
  | readOnlyFilesystem
  | filesystemLoop
  | staleNetworkFileHandle
  | invalidInput
  | invalidData
  | timedOut
  | writeZero
  | storageFull
  | notSeekable
  | quotaExceeded
  | fileTooLarge
  | resourceBusy
  | executableFileBusy
  | deadlock
  | crossesDevices
  | tooManyLinks
  | invalidFilename
  | argumentListTooLong
  | interrupted
  | unsupported
  | unexpectedEof
  | outOfMemory
  | inProgress
  | other
  | uncategorized
  deriving DecidableEq

structure Fault where
  kind : Fault.Kind
  message : String
  deriving DecidableEq

/-- How something ends that was asked for, if it does. -/
inductive Answer (ε α : Type)
  | ok (a : α)
  | error (e : ε)
  | never
  deriving DecidableEq

namespace Answer

variable {ε δ α β : Type}

def map (f : α → β) : Answer ε α → Answer ε β
  | ok a => ok (f a)
  | error e => error e
  | never => never

def mapError (f : ε → δ) : Answer ε α → Answer δ α
  | ok a => ok a
  | error e => error (f e)
  | never => never

def ofExcept : Except ε α → Answer ε α
  | .ok a => ok a
  | .error e => error e

end Answer

-- an interrupted call is made again, and again if it is interrupted every time
def Fault.repeated {α : Type} (f : Fault) : Answer Fault α :=
  if f.kind = .interrupted then .never else .error f

theorem Fault.repeated_of_ne {α : Type} {f : Fault} (lasting : f.kind ≠ .interrupted) :
    f.repeated (α := α) = .error f := if_neg lasting

theorem Fault.repeated_of_eq {α : Type} {f : Fault} (again : f.kind = .interrupted) :
    f.repeated (α := α) = .never := if_pos again

namespace Fault.Kind

def label : Fault.Kind → String
  | notFound => "NotFound"
  | permissionDenied => "PermissionDenied"
  | connectionRefused => "ConnectionRefused"
  | connectionReset => "ConnectionReset"
  | hostUnreachable => "HostUnreachable"
  | networkUnreachable => "NetworkUnreachable"
  | connectionAborted => "ConnectionAborted"
  | notConnected => "NotConnected"
  | addrInUse => "AddrInUse"
  | addrNotAvailable => "AddrNotAvailable"
  | networkDown => "NetworkDown"
  | brokenPipe => "BrokenPipe"
  | alreadyExists => "AlreadyExists"
  | wouldBlock => "WouldBlock"
  | notADirectory => "NotADirectory"
  | isADirectory => "IsADirectory"
  | directoryNotEmpty => "DirectoryNotEmpty"
  | readOnlyFilesystem => "ReadOnlyFilesystem"
  | filesystemLoop => "FilesystemLoop"
  | staleNetworkFileHandle => "StaleNetworkFileHandle"
  | invalidInput => "InvalidInput"
  | invalidData => "InvalidData"
  | timedOut => "TimedOut"
  | writeZero => "WriteZero"
  | storageFull => "StorageFull"
  | notSeekable => "NotSeekable"
  | quotaExceeded => "QuotaExceeded"
  | fileTooLarge => "FileTooLarge"
  | resourceBusy => "ResourceBusy"
  | executableFileBusy => "ExecutableFileBusy"
  | deadlock => "Deadlock"
  | crossesDevices => "CrossesDevices"
  | tooManyLinks => "TooManyLinks"
  | invalidFilename => "InvalidFilename"
  | argumentListTooLong => "ArgumentListTooLong"
  | interrupted => "Interrupted"
  | unsupported => "Unsupported"
  | unexpectedEof => "UnexpectedEof"
  | outOfMemory => "OutOfMemory"
  | inProgress => "InProgress"
  | other => "Other"
  | uncategorized => "Uncategorized"

def all : List Fault.Kind :=
  [notFound, permissionDenied, connectionRefused, connectionReset, hostUnreachable,
    networkUnreachable, connectionAborted, notConnected, addrInUse, addrNotAvailable, networkDown,
    brokenPipe, alreadyExists, wouldBlock, notADirectory, isADirectory, directoryNotEmpty,
    readOnlyFilesystem, filesystemLoop, staleNetworkFileHandle, invalidInput, invalidData,
    timedOut, writeZero, storageFull, notSeekable, quotaExceeded, fileTooLarge, resourceBusy,
    executableFileBusy, deadlock, crossesDevices, tooManyLinks, invalidFilename,
    argumentListTooLong, interrupted, unsupported, unexpectedEof, outOfMemory, inProgress, other,
    uncategorized]

def ofLabel? (text : String) : Option Fault.Kind := all.find? (·.label == text)

theorem ofLabel?_label (k : Fault.Kind) : ofLabel? k.label = some k := by
  cases k <;> decide +kernel

def ofSystemCode : Nat → Fault.Kind
  | 1 | 13 => permissionDenied
  | 2 => notFound
  | 4 => interrupted
  | 7 => argumentListTooLong
  | 11 => wouldBlock
  | 12 => outOfMemory
  | 16 => resourceBusy
  | 17 => alreadyExists
  | 18 => crossesDevices
  | 20 => notADirectory
  | 21 => isADirectory
  | 22 => invalidInput
  | 26 => executableFileBusy
  | 27 => fileTooLarge
  | 28 => storageFull
  | 29 => notSeekable
  | 30 => readOnlyFilesystem
  | 31 => tooManyLinks
  | 32 => brokenPipe
  | 35 => deadlock
  | 36 => invalidFilename
  | 39 => directoryNotEmpty
  | 40 => filesystemLoop
  | 110 => timedOut
  | 116 => staleNetworkFileHandle
  | 122 => quotaExceeded
  | _ => uncategorized

end Fault.Kind

def Fault.ofSystem (code : Nat) (details : String) : Fault :=
  ⟨.ofSystemCode code, details ++ " (os error " ++ Text.decimal code ++ ")"⟩

end BracketTally
