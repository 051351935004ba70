/-! Why the file system refuses an operation, in the words of the operating system. -/

namespace BusStub

inductive DiskFault where
  | missing
  | present
  | notDirectory
  | isDirectory
  | nameTooLong
  /-- The contents are no text. -/
  | notText
  /-- A path holds a null character. -/
  | nullInPath
  | other (text : String)
  deriving DecidableEq, Repr, Inhabited

def DiskFault.message : DiskFault → String
  | missing => "No such file or directory (os error 2)"
  | present => "File exists (os error 17)"
  | notDirectory => "Not a directory (os error 20)"
  | isDirectory => "Is a directory (os error 21)"
  | nameTooLong => "File name too long (os error 36)"
  | notText => "stream did not contain valid UTF-8"
  | nullInPath => "file name contained an unexpected NUL byte"
  | other text => text

end BusStub
