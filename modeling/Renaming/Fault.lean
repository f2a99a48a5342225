/-!
# Faults of reading and writing

What a file system answers instead of doing what it is asked (`SystemError`), and what can go wrong
with the bytes of a file (`Fault`).
-/

namespace Renaming

inductive SystemError where
  | notFound
  | notADirectory
  | isADirectory
  | busy
  | nameTooLong
  | nullInPath
  | invalidArgument
  | other (message : String)
  deriving DecidableEq, Repr

def SystemError.message : SystemError → String
  | .notFound => "No such file or directory (os error 2)"
  | .notADirectory => "Not a directory (os error 20)"
  | .isADirectory => "Is a directory (os error 21)"
  | .busy => "Device or resource busy (os error 16)"
  | .nameTooLong => "File name too long (os error 36)"
  | .nullInPath => "file name contained an unexpected NUL byte"
  | .invalidArgument => "Invalid argument (os error 22)"
  | .other message => message

inductive Fault where
  /-- A line is not valid UTF-8. -/
  | invalidUtf8
  /-- The writer takes no more bytes. -/
  | writerFull
  /-- The writer refuses to flush. -/
  | flushRefused
  | system (error : SystemError)
  deriving DecidableEq, Repr

def Fault.message : Fault → String
  | .invalidUtf8 => "stream did not contain valid UTF-8"
  | .writerFull => "failed to write whole buffer"
  | .flushRefused => "flush failed"
  | .system error => error.message

end Renaming
