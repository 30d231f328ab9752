/-!
# Files

What the library needs of a file system: the text of a file by its name, or the reason why there
is none.
-/

namespace Accessibility

/-- Why a file cannot be read. -/
inductive FileFault where
  /-- Nothing has the name. -/
  | missing
  | denied
  /-- A part of the name before its end is no directory. -/
  | notDirectory
  | directory
  | longName
  /-- The name holds the character that ends names. -/
  | cutName
  /-- The bytes of the file are no text. -/
  | notText
  /-- Any other reason, in words. -/
  | other (reason : String)
  deriving DecidableEq, Repr

namespace FileFault

/-- The wording of a fault. -/
def message : FileFault → String
  | missing => "No such file or directory (os error 2)"
  | denied => "Permission denied (os error 13)"
  | notDirectory => "Not a directory (os error 20)"
  | directory => "Is a directory (os error 21)"
  | longName => "File name too long (os error 36)"
  | cutName => "file name contained an unexpected NUL byte"
  | notText => "stream did not contain valid UTF-8"
  | other reason => reason

/-- Whether nothing was found under the name, so that there is nothing to be read. -/
def isAbsence : FileFault → Bool
  | missing | notDirectory | longName | cutName => true
  | denied | directory | notText | other _ => false

end FileFault

/-- The texts of files by name. -/
abbrev Files :=
  String → Except FileFault String

end Accessibility
