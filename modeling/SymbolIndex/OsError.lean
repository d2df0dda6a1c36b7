/-!
# Errors of the operating system

What can go wrong below the program, with the operating system's own wording and number.

* `OsError`: the causes;
* `OsError.text`: their wording.
-/

namespace SymbolIndex

/-- Why the operating system, or reading what it delivers, failed. -/
inductive OsError where
  | notFound
  | permissionDenied
  | alreadyExists
  | notADirectory
  | isADirectory
  | directoryNotEmpty
  | tooManyLinks
  | nameTooLong
  | invalidArgument
  /-- a path with a NUL character in it, which no file can have -/
  | nulInPath
  /-- text that is not UTF-8 -/
  | invalidText
  /-- a cause known only by its wording -/
  | described (text : String)
  deriving DecidableEq, Repr

def OsError.text : OsError → String
  | .notFound => "No such file or directory (os error 2)"
  | .permissionDenied => "Permission denied (os error 13)"
  | .alreadyExists => "File exists (os error 17)"
  | .notADirectory => "Not a directory (os error 20)"
  | .isADirectory => "Is a directory (os error 21)"
  | .directoryNotEmpty => "Directory not empty (os error 39)"
  | .tooManyLinks => "Too many levels of symbolic links (os error 40)"
  | .nameTooLong => "File name too long (os error 36)"
  | .invalidArgument => "Invalid argument (os error 22)"
  | .nulInPath => "file name contained an unexpected NUL byte"
  | .invalidText => "stream did not contain valid UTF-8"
  | .described text => text

end SymbolIndex
