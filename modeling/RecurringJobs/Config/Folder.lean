import RecurringJobs.Config.Paths

/-!
Making a directory, with all directories above it.

A path is walked from its beginning.  What is missing on the way is made, so only what is there
already can be in the way: a file, or a directory in which nothing can be made.
-/

namespace RecurringJobs

/-- What stands at a path, as far as making directories is concerned. -/
inductive Site where
  /-- A directory, or nothing. -/
  | free
  | file
  /-- A directory in which nothing can be made. -/
  | sealed
deriving Repr, DecidableEq

/-- Why a directory cannot be made. -/
inductive FolderFault where
  | fileExists
  | notDirectory
  | noSuchPlace
  | nameTooLong
  | nulCharacter
  | other (reason : String)
deriving Repr, DecidableEq

def FolderFault.message : FolderFault → String
  | fileExists => "File exists (os error 17)"
  | notDirectory => "Not a directory (os error 20)"
  | noSuchPlace => "No such file or directory (os error 2)"
  | nameTooLong => "File name too long (os error 36)"
  | nulCharacter => "file name contained an unexpected NUL byte"
  | other reason => reason

namespace Folder

/-- The most bytes in one name. -/
def longestName : Nat := 255

/-- The most bytes in a path. -/
def longestPath : Nat := 4095

/-- Walks the names of a path that are left, below a directory. -/
def walk (site : String → Site) (dir : String) : List String → Option FolderFault
  | [] => none
  | name :: names =>
    if name.isEmpty || name = "." then walk site dir names
    else if name = ".." then walk site (Paths.parent dir) names
    else if longestName < name.utf8ByteSize then some .nameTooLong
    else
      let path := Paths.join dir name
      match site path with
      | .free => walk site path names
      | .file => some (if names.all String.isEmpty then .fileExists else .notDirectory)
      | .sealed => if names.all String.isEmpty then none else some .noSuchPlace

/-- What keeps a directory from being made. -/
def fault? (site : String → Site) (path : String) : Option FolderFault :=
  if path.toList.contains '\x00' then some .nulCharacter
  else if longestPath < path.utf8ByteSize then some .nameTooLong
  else walk site (if Paths.isAbsolute path then "/" else "") (Paths.names path)

end Folder
end RecurringJobs
