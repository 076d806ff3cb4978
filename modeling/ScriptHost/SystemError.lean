/-!
# System errors

The reasons why the system refuses a request, with the text and the kind of each.
Reasons that have a number show it in their text.
-/

namespace ScriptHost

/-- Why the system refuses a request. -/
inductive SystemError
  | noSuchFile
  | accessDenied
  | busy
  | alreadyExists
  | notDirectory
  | isDirectory
  | invalidArgument
  | nameTooLong
  | notEmpty
  | tooManyLinks
  | addressInUse
  | addressUnavailable
  | networkUnreachable
  | connectionRefused
  | nulInName
  | nulInData
  | invalidText
  | notRegular
  | sourceWithoutName
  | destinationExists
deriving DecidableEq, Repr

namespace SystemError

/-- The number and the words of a reason that has a number. -/
def numbered? : SystemError → Option (Nat × String)
  | .noSuchFile => some (2, "No such file or directory")
  | .accessDenied => some (13, "Permission denied")
  | .busy => some (16, "Device or resource busy")
  | .alreadyExists => some (17, "File exists")
  | .notDirectory => some (20, "Not a directory")
  | .isDirectory => some (21, "Is a directory")
  | .invalidArgument => some (22, "Invalid argument")
  | .nameTooLong => some (36, "File name too long")
  | .notEmpty => some (39, "Directory not empty")
  | .tooManyLinks => some (40, "Too many levels of symbolic links")
  | .addressInUse => some (98, "Address already in use")
  | .addressUnavailable => some (99, "Cannot assign requested address")
  | .networkUnreachable => some (101, "Network is unreachable")
  | .connectionRefused => some (111, "Connection refused")
  | _ => none

/-- The words of a reason that has no number. -/
def words : SystemError → String
  | .nulInName => "file name contained an unexpected NUL byte"
  | .nulInData => "nul byte found in provided data"
  | .invalidText => "stream did not contain valid UTF-8"
  | .notRegular => "the source path is neither a regular file nor a symlink to a regular file"
  | .sourceWithoutName => "source has no name"
  | .destinationExists => "destination exists"
  | _ => ""

/-- The text of a reason. -/
def message (error : SystemError) : String :=
  match error.numbered? with
  | some (number, words) => words ++ " (os error " ++ toString number ++ ")"
  | none => error.words

/-- The name of the kind of a reason. -/
def kind : SystemError → String
  | .noSuchFile => "NotFound"
  | .accessDenied => "PermissionDenied"
  | .busy => "ResourceBusy"
  | .alreadyExists => "AlreadyExists"
  | .notDirectory => "NotADirectory"
  | .isDirectory => "IsADirectory"
  | .invalidArgument => "InvalidInput"
  | .nameTooLong => "InvalidFilename"
  | .notEmpty => "DirectoryNotEmpty"
  | .tooManyLinks => "FilesystemLoop"
  | .addressInUse => "AddrInUse"
  | .addressUnavailable => "AddrNotAvailable"
  | .networkUnreachable => "NetworkUnreachable"
  | .connectionRefused => "ConnectionRefused"
  | .nulInName => "InvalidInput"
  | .nulInData => "InvalidInput"
  | .invalidText => "InvalidData"
  | .notRegular => "InvalidInput"
  | .sourceWithoutName => "InvalidInput"
  | .destinationExists => "AlreadyExists"

end SystemError
end ScriptHost
