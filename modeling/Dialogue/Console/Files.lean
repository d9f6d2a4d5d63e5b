/-!
Files by name: the names on a path, the extension that tells what a file holds, and a directory of files in which
relative paths are followed.
-/

namespace Dialogue.Console

/-- Whether a part of a path stays where it is. -/
def isStay (part : List Char) : Bool := part.isEmpty || part == ['.']

def isUp (part : List Char) : Bool := part == ['.', '.']

/-- The names on a path, without the parts that stay where they are. -/
def namesOn (path : String) : List (List Char) :=
  (path.toList.splitOn '/').filter fun part => !isStay part

/-- The name of the file that a path leads to, unless it ends by going up. -/
def fileName? (path : String) : Option (List Char) :=
  (namesOn path).getLast?.filter fun name => !isUp name

/-- What stands behind the last dot of the file name. A dot in front of the whole name does not count. -/
def extension? (path : String) : Option String :=
  (fileName? path).bind fun name =>
    let behind := (name.reverse.takeWhile fun c => c != '.').reverse
    let stem := name.take (name.length - behind.length - 1)
    if behind.length < name.length && !stem.isEmpty then some (String.ofList behind) else none

inductive FileFault where
  | notFound
  | notDirectory
  | isDirectory
  | nameTooLong
deriving DecidableEq

def FileFault.message : FileFault → String
  | .notFound => "No such file or directory (os error 2)"
  | .notDirectory => "Not a directory (os error 20)"
  | .isDirectory => "Is a directory (os error 21)"
  | .nameTooLong => "File name too long (os error 36)"

/-- The files below a directory by their paths, the names on which are separated by single slashes. -/
structure Directory where
  files : List (String × List UInt8)
deriving DecidableEq

inductive Target where
  | directory
  /-- A file that may or may not exist, and whether the path says that it is a directory. -/
  | entry (path : String) (slashed : Bool)
deriving DecidableEq

namespace Directory

def find? (directory : Directory) (path : String) : Option (List UInt8) :=
  (directory.files.find? fun file => file.1 = path).map Prod.snd

def hasBelow (directory : Directory) (path : String) : Bool :=
  directory.files.any fun file => (path ++ "/").toList.isPrefixOf file.1.toList

def nameLimit : Nat := 255

def pathLimit : Nat := 4095

/-- Follows parts from above the directory, where nothing has a name. -/
def followOutside (parts : List (List Char)) : Except FileFault Target :=
  if parts.all fun part => isStay part || isUp part then .ok .directory else .error .notFound

/-- Follows the parts of a path; `here` holds the names of the directories entered, the innermost first. -/
def follow (directory : Directory) (here : List String) : List (List Char) → Except FileFault Target
  | [] => .ok .directory
  | part :: rest =>
    if isStay part then directory.follow here rest
    else if isUp part then
      match here with
      | [] => followOutside rest
      | _ :: outer => directory.follow outer rest
    else
      let name := String.ofList part
      let path := "/".intercalate (name :: here).reverse
      if nameLimit < name.utf8ByteSize then .error .nameTooLong
      else if directory.hasBelow path then directory.follow (name :: here) rest
      else if rest.all List.isEmpty then .ok (.entry path !rest.isEmpty)
      else if (directory.find? path).isSome then .error .notDirectory
      else .error .notFound

def locate (directory : Directory) (path : String) : Except FileFault Target :=
  let parts := path.toList.splitOn '/'
  if path = "" then .error .notFound
  else if pathLimit < path.utf8ByteSize then .error .nameTooLong
  else if path.toList.head? = some '/' then followOutside parts
  else directory.follow [] parts

def read (directory : Directory) (path : String) : Except FileFault (List UInt8) :=
  match directory.locate path with
  | .error fault => .error fault
  | .ok .directory => .error .isDirectory
  | .ok (.entry name slashed) =>
    match directory.find? name with
    | none => .error .notFound
    | some bytes => if slashed then .error .notDirectory else .ok bytes

/-- Writes a file in place of one of that name. -/
def write (directory : Directory) (path : String) (bytes : List UInt8) : Except FileFault Directory :=
  match directory.locate path with
  | .error fault => .error fault
  | .ok .directory | .ok (.entry _ true) => .error .isDirectory
  | .ok (.entry name false) => .ok ⟨(name, bytes) :: directory.files.filter fun file => file.1 ≠ name⟩

end Directory

end Dialogue.Console
