/-! What the tools need of a file system. Whatever provides it, a failure has one of a few causes,
and each has its text. -/

namespace PegKit

inductive FileError where
  | notFound
  | isDirectory
  | notDirectory
  | nameTooLong
  | nullInName
  | notUtf8
  | noSpace
  | other (text : String)
deriving DecidableEq, Repr

def FileError.message : FileError → String
  | notFound => "No such file or directory (os error 2)"
  | isDirectory => "Is a directory (os error 21)"
  | notDirectory => "Not a directory (os error 20)"
  | nameTooLong => "File name too long (os error 36)"
  | nullInName => "file name contained an unexpected NUL byte"
  | notUtf8 => "stream did not contain valid UTF-8"
  | noSpace => "No space left on device (os error 28)"
  | other text => text

class FileAccess (m : Type → Type) where
  read : String → m (Except FileError String)
  /-- Puts a text into a file, in place of what it held. -/
  write : String → String → m (Except FileError Unit)
  isFile : String → m Bool
  isDirectory : String → m Bool

end PegKit
