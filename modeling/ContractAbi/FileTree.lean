import ContractAbi.Text.Basic

/-!
# Files and directories

A tree of files, paths through it, and the search for interface files in it. The order in which a
directory lists its entries has no bearing on the result of the search.
-/

namespace ContractAbi

/-- A file with its contents, or a directory with its named entries. -/
inductive FileTree
  | file (contents : ByteArray)
  | directory (children : List (String × FileTree))
  deriving Inhabited

/-! ### Names and paths -/

namespace Path

/-- The names on a path. Empty ones and those of a directory itself lead nowhere. -/
def names (path : String) : List String :=
  (Text.split path "/").filter fun name => name ≠ "" ∧ name ≠ "."

/-- The last name on a path, unless it leads back up. -/
def fileName? (path : String) : Option String :=
  (names path).getLast?.filter (· ≠ "..")

/-- What stands behind the last point of a name, if something stands before it. -/
def extension? (name : String) : Option String :=
  match Text.cutChars '.' name.toList.reverse with
  | none => none
  | some (_, []) => none
  | some (extension, _ :: _) => some (String.ofList extension.reverse)

/-- Whether the file at a path has an extension. -/
def hasExtension (extension path : String) : Bool :=
  (fileName? path).bind extension? = some extension

/-- Whether the file at a path may hold an interface. -/
def isInterface (path : String) : Bool :=
  hasExtension "json" path || hasExtension "abi" path

/-- The path that goes on from `start` through some names. -/
def join (start : String) (names : List String) : String :=
  start ++ (if start.toList.getLast? = some '/' then "" else "/") ++ "/".intercalate names

end Path

namespace FileTree

/-! ### Looking a path up -/

/-- Follow a path from `here`, which lies in the directories `above`, the innermost first. -/
def follow (above : List FileTree) (here : FileTree) : List String → Option FileTree
  | [] => some here
  | name :: rest =>
    match here with
    | file _ => none
    | directory children =>
      -- a slash too many asks for a directory, and here is one
      if name = "" ∨ name = "." then follow above here rest
      else if name = ".." then
        match above with
        -- above the tree there is nothing to be seen
        | [] => none
        | parent :: above => follow above parent rest
      else
        match children.lookup name with
        | none => none
        | some child => follow (here :: above) child rest

/-- What lies at a path that begins in the tree. -/
def at? (tree : FileTree) (path : String) : Option FileTree :=
  if path = "" ∨ path.toList.head? = some '/' then none
  else follow [] tree (Text.split path "/")

/-! ### Building a tree -/

/-- Put something into an entry of a directory; `change` tells what from what was there. -/
def alter (name : String) (change : Option FileTree → FileTree) :
    List (String × FileTree) → List (String × FileTree)
  | [] => [(name, change none)]
  | (other, child) :: rest =>
    if other = name then (name, change (some child)) :: rest
    else (other, child) :: alter name change rest

/-- Put `leaf` at the end of a path, and directories on the way there. A directory that is there
already stays as it is. -/
def put (leaf : FileTree) : List String → Option FileTree → FileTree
  | [], some (directory children) => directory children
  | [], _ => leaf
  | name :: rest, some (directory children) => directory (alter name (put leaf rest) children)
  | name :: rest, _ => directory [(name, put leaf rest none)]

/-- The tree with some directories and files. -/
def ofPaths (directories : List String) (files : List (String × ByteArray)) : FileTree :=
  let empty := directory []
  let withDirectories := directories.foldl
    (fun tree path => put empty (Path.names path) (some tree)) empty
  files.foldl (fun tree (path, contents) => put (file contents) (Path.names path) (some tree))
    withDirectories

/-! ### Searching -/

mutual

/-- All files of a tree: the names on the way there, and the contents. -/
def files : FileTree → List (List String × ByteArray)
  | file contents => [([], contents)]
  | directory children => childFiles children

/-- All files of some entries. -/
def childFiles : List (String × FileTree) → List (List String × ByteArray)
  | [] => []
  | (name, child) :: rest =>
    child.files.map (fun (names, contents) => (name :: names, contents)) ++ childFiles rest

end

/-- The interface files at or below `path`, with their contents, in the order that compares paths
name by name. -/
def interfaceFiles (path : String) : FileTree → List (String × ByteArray)
  | file contents => if Path.isInterface path then [(path, contents)] else []
  | directory children =>
    let found := (childFiles children).filter fun (names, _) =>
      names.getLast?.any Path.isInterface
    (found.mergeSort fun a b => !decide (b.1 < a.1)).map fun (names, contents) =>
      (Path.join path names, contents)

end FileTree

end ContractAbi
