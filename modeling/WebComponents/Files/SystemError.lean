/-!
# Errors of the file system
-/

namespace WebComponents.Files

/-- Why the file system refuses an operation. -/
inductive SystemError where
  | notFound
  | alreadyExists
  | notADirectory
  | isADirectory
  | nameTooLong
  | tooManyLinks
  /-- A path with a NUL character. -/
  | nulCharacter
  /-- A file that is not UTF-8 text. -/
  | notText
  /-- The empty path, where an absolute one is needed. -/
  | emptyPath
  deriving DecidableEq, Repr

/-- The error in words. -/
def SystemError.message : SystemError → String
  | .notFound => "No such file or directory (os error 2)"
  | .alreadyExists => "File exists (os error 17)"
  | .notADirectory => "Not a directory (os error 20)"
  | .isADirectory => "Is a directory (os error 21)"
  | .nameTooLong => "File name too long (os error 36)"
  | .tooManyLinks => "Too many levels of symbolic links (os error 40)"
  | .nulCharacter => "file name contained an unexpected NUL byte"
  | .notText => "stream did not contain valid UTF-8"
  | .emptyPath => "cannot make an empty path absolute"

/-- What was being done when the file system refused. -/
inductive Activity where
  | createDirectory
  | write
  | read
  | readTypings
  | makeAbsolute
  deriving DecidableEq, Repr

/-- The failure of an activity, up to the path. -/
def Activity.message : Activity → String
  | .createDirectory => "Failed to create directory "
  | .write => "Failed to write "
  | .read => "Failed to read "
  | .readTypings => "Failed to read core typings "
  | .makeAbsolute => "Failed to resolve "

end WebComponents.Files
