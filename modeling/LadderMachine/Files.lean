/-!
# Files by path

Why a file could not be read. What a path leads to is the file system's business.
-/

namespace LadderMachine

inductive ReadFault
  | notFound
  | notDirectory
  | isDirectory
  | nameTooLong
  /-- The path holds the character that ends a path for the file system. -/
  | nulInName
  | notUtf8
  /-- Any other fault, with its description. -/
  | other (description : String)
deriving DecidableEq

def ReadFault.message : ReadFault → String
  | notFound => "No such file or directory (os error 2)"
  | notDirectory => "Not a directory (os error 20)"
  | isDirectory => "Is a directory (os error 21)"
  | nameTooLong => "File name too long (os error 36)"
  | nulInName => "file name contained an unexpected NUL byte"
  | notUtf8 => "stream did not contain valid UTF-8"
  | other description => description

end LadderMachine
