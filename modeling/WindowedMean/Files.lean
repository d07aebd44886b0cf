/-! A small tree of files, looked up by path.

    A path is a row of names with slashes between them, taken from the directory the program runs
    in, or from the root if it begins with a slash. Empty names and `.` stay where they are, `..` goes
    back up; what is gone through on the way has to be a directory. Above the directory the program
    runs in there are only directories, and the root is all that is known of it. -/

namespace WindowedMean

/-- What stands at a path: a directory, or a file with its bytes. -/
inductive Entry where
  | directory
  | file (bytes : ByteArray)

/-- What stands at a path, if anything does. -/
abbrev FileSystem := String → Option Entry

/-- Files and directories by their full rows of names. The directories above them exist too. -/
structure FileTree where
  entries : List (List String × Entry)

namespace FileTree

/-- The names between the slashes of a path. -/
def names (path : String) : List String := (path.toList.splitOn '/').map .ofList

/-- A tree of the given paths. -/
def ofPaths (paths : List (String × Entry)) : FileTree :=
  ⟨paths.map fun (p, e) => ((names p).filter fun n => n != "" && n != ".", e)⟩

/-- What stands at a row of names. -/
def at? (t : FileTree) (row : List String) : Option Entry :=
  if row.isEmpty then some .directory
  else
    match t.entries.lookup row with
    | some e => some e
    | none => if t.entries.any fun (r, _) => row.isPrefixOf r then some .directory else none

/-- The name leads to no place below. -/
def staysAbove (name : String) : Bool := name == "" || name == "." || name == ".."

/-- What is reached from a row of names by a path. -/
def walk (t : FileTree) (here : List String) : List String → Option Entry
  | [] => t.at? here
  | n :: path =>
    match t.at? here with
    | some .directory =>
      if n = "" ∨ n = "." then t.walk here path
      else if n = ".." then
        if here.isEmpty then if path.all staysAbove then some .directory else none
        else t.walk here.dropLast path
      else t.walk (here ++ [n]) path
    | _ => none

/-- What stands at a path. An empty path names nothing. -/
def find (t : FileTree) : FileSystem := fun path =>
  if path = "" then none
  else if path.startsWith "/" then if (names path).all staysAbove then some .directory else none
  else t.walk [] (names path)

end FileTree

end WindowedMean
