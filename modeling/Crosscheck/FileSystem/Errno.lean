namespace Crosscheck

inductive Errno where
  | notFound
  | notDirectory
  | isDirectory
  | exists
  | notEmpty
  | denied
  | loop
  | nameTooLong
  | invalid
  | busy
  | otherDevice
  | notExecutable
  | noSpace
  | io
  deriving DecidableEq, Repr

def Errno.text : Errno → String
  | .notFound => "no such file or directory"
  | .notDirectory => "not a directory"
  | .isDirectory => "is a directory"
  | .exists => "file exists"
  | .notEmpty => "directory not empty"
  | .denied => "permission denied"
  | .loop => "too many levels of symbolic links"
  | .nameTooLong => "file name too long"
  | .invalid => "invalid argument"
  | .busy => "device or resource busy"
  | .otherDevice => "invalid cross-device link"
  | .notExecutable => "exec format error"
  | .noSpace => "no space left on device"
  | .io => "input/output error"

structure OsError where
  op : String
  path : String
  errno : Errno
  deriving DecidableEq, Repr

def OsError.message (e : OsError) : String := e.op ++ " " ++ e.path ++ ": " ++ e.errno.text

end Crosscheck
