/-
Failures of the host: what a socket or a file operation may answer instead of a result.
-/
namespace EdgeTunnel

inductive OsError where
  | notFound
  | refused
  | unreachable
  | addressInUse
  | addressNotAvailable
  | notUtf8
  | invalidAddress
  | noName
  | reset
  | permissionDenied
  | notDirectory
  | isDirectory
  | nameTooLong
  /-- a file name with a NUL character -/
  | nulInName
  /-- a program or an argument with a NUL character -/
  | nulInArgument
  deriving DecidableEq, Repr

def OsError.message : OsError → String
  | .notFound => "No such file or directory (os error 2)"
  | .refused => "Connection refused (os error 111)"
  | .unreachable => "Network is unreachable (os error 101)"
  | .addressInUse => "Address already in use (os error 98)"
  | .addressNotAvailable => "Cannot assign requested address (os error 99)"
  | .notUtf8 => "stream did not contain valid UTF-8"
  | .invalidAddress => "invalid socket address"
  | .noName => "failed to lookup address information: Name or service not known"
  | .reset => "Connection reset by peer (os error 104)"
  | .permissionDenied => "Permission denied (os error 13)"
  | .notDirectory => "Not a directory (os error 20)"
  | .isDirectory => "Is a directory (os error 21)"
  | .nameTooLong => "File name too long (os error 36)"
  | .nulInName => "file name contained an unexpected NUL byte"
  | .nulInArgument => "nul byte found in provided data"

end EdgeTunnel
