namespace NodeSchema

/-- Why a file cannot be used. -/
inductive FileFault where
  | missing
  | present
  | notDirectory
  | isDirectory
  | nameTooLong
  | nulInName
  | other (description : String)
deriving DecidableEq

def FileFault.message : FileFault → String
  | missing => "No such file or directory (os error 2)"
  | present => "File exists (os error 17)"
  | notDirectory => "Not a directory (os error 20)"
  | isDirectory => "Is a directory (os error 21)"
  | nameTooLong => "File name too long (os error 36)"
  | nulInName => "file name contained an unexpected NUL byte"
  | other description => description

/-- How a path ends: with a name, with a slash after it, or with a single dot, perhaps with slashes
after that. -/
inductive PathEnd where
  | name
  | slash
  | dot
deriving DecidableEq

/-- A path, of which empty parts and single dots have been taken out. -/
structure Path where
  absolute : Bool
  parts : List String
  ending : PathEnd
deriving DecidableEq

def PathEnd.ofPieces (pieces : List String) : PathEnd :=
  if (pieces.filter (· != "")).getLast? = some "." then .dot
  else if pieces.getLast? = some "" then .slash
  else .name

def Path.ofText (text : String) : Path :=
  let pieces := (text.toList.splitOn '/').map String.ofList
  { absolute := text.toList.head? == some '/'
    parts := pieces.filter fun piece => piece != "" && piece != "."
    ending := .ofPieces pieces }

/-- A path one step further down. -/
def joinPath (directory name : String) : String :=
  if directory = "" then name
  else if directory.toList.getLast? = some '/' then directory ++ name
  else directory ++ "/" ++ name

inductive Entry where
  | directory
  | file (text : String)
deriving DecidableEq

/-- What there is, by the full list of names that lead to it, and where relative paths start. The
root is always there. Of a file system this leaves out links, permissions, files that are no text,
and the end of the space: every file can be read as a text and takes any text. -/
structure FileTree where
  entries : List (List String × Entry)
  home : List String
deriving DecidableEq

namespace FileTree

def get? (tree : FileTree) (place : List String) : Option Entry :=
  if place = [] then some .directory else tree.entries.lookup place

def put (tree : FileTree) (place : List String) (entry : Entry) : FileTree :=
  { tree with entries := (place, entry) :: tree.entries.filter (·.1 != place) }

/-- Follows names from a directory. What the last name leads to need not be there. -/
def follow (tree : FileTree) (place : List String) : List String → Except FileFault (List String)
  | [] => .ok place
  | part :: parts =>
    match tree.get? place with
    | none => .error .missing
    | some (.file _) => .error .notDirectory
    | some .directory =>
      if part = ".." then tree.follow place.dropLast parts
      else if 255 < part.utf8ByteSize then .error .nameTooLong
      else tree.follow (place ++ [part]) parts

/-- Follows names to a directory that is there. -/
def enter (tree : FileTree) (place parts : List String) : Except FileFault (List String) := do
  let place ← tree.follow place parts
  match tree.get? place with
  | none => .error .missing
  | some (.file _) => .error .notDirectory
  | some .directory => .ok place

/-- Where a path starts. -/
def start (tree : FileTree) (path : Path) : List String :=
  if path.absolute then [] else tree.home

/-- The place that a path leads to. A dot at the end is a step into a directory. -/
def locate (tree : FileTree) (path : Path) : Except FileFault (List String) :=
  match path.ending with
  | .dot => tree.enter (tree.start path) path.parts
  | _ => tree.follow (tree.start path) path.parts

/-- Whether a path can be asked for at all. -/
def pathFault? (text : String) : Option FileFault :=
  if text.toList.contains '\x00' then some .nulInName
  else if text = "" then some .missing
  else if 4096 ≤ text.utf8ByteSize then some .nameTooLong
  else none

/-- The text of a file. -/
def read (tree : FileTree) (path : String) : Except FileFault String :=
  match pathFault? path with
  | some fault => .error fault
  | none => do
    let path := Path.ofText path
    let place ← tree.locate path
    match tree.get? place with
    | none => .error .missing
    | some .directory => .error .isDirectory
    | some (.file text) => if path.ending = .name then .ok text else .error .notDirectory

/-- Replaces the text of a file or makes a new file in a directory that is there. Only a directory
may be meant by a slash at the end, whatever the last name leads to. -/
def write (tree : FileTree) (path text : String) : Except FileFault FileTree :=
  match pathFault? path with
  | some fault => .error fault
  | none => do
    let path := Path.ofText path
    match path.ending with
    | .slash => do
      let _ ← tree.enter (tree.start path) path.parts.dropLast
      .error .isDirectory
    | _ => do
      let place ← tree.locate path
      if tree.get? place = some .directory then .error .isDirectory
      else .ok (tree.put place (.file text))

/-- Makes one directory. -/
def makeDirectory (tree : FileTree) (path : Path) : Except FileFault FileTree := do
  let place ← tree.locate path
  if (tree.get? place).isSome then .error .present else .ok (tree.put place .directory)

def isDirectory (tree : FileTree) (path : Path) : Bool :=
  match tree.locate path with
  | .ok place => tree.get? place == some .directory
  | .error _ => false

/-- Makes a directory unless it is there already. -/
def ensureDirectory (tree : FileTree) (path : Path) : Except FileFault FileTree :=
  match tree.makeDirectory path with
  | .ok tree => .ok tree
  | .error fault => if tree.isDirectory path then .ok tree else .error fault

/-- Makes a directory and those on the way to it, which stay if a later one cannot be made. The
parts of the path are given from the last to the first. -/
def makeDirectoriesFrom (tree : FileTree) (absolute : Bool) (ending : PathEnd) :
    List String → FileTree × Except FileFault Unit
  | [] => (tree, .ok ())
  | part :: parents =>
    let path : Path := ⟨absolute, (part :: parents).reverse, ending⟩
    match tree.ensureDirectory path with
    | .ok tree => (tree, .ok ())
    | .error .missing =>
      match tree.makeDirectoriesFrom absolute .name parents with
      | (tree, .error fault) => (tree, .error fault)
      | (tree, .ok ()) =>
        match tree.ensureDirectory path with
        | .ok tree => (tree, .ok ())
        | .error fault => (tree, .error fault)
    | .error fault => (tree, .error fault)

def makeDirectories (tree : FileTree) (path : String) : FileTree × Except FileFault Unit :=
  if path = "" then (tree, .ok ())
  else
    match pathFault? path with
    | some fault => (tree, .error fault)
    | none =>
      let path := Path.ofText path
      tree.makeDirectoriesFrom path.absolute path.ending path.parts.reverse

/-- A tree with one directory, where relative paths start. -/
def empty : FileTree := ⟨[(["home"], .directory)], ["home"]⟩

/-- Adds a file with the directories on the way to it. -/
def add (tree : FileTree) (path text : String) : FileTree :=
  let parts := (Path.ofText path).parts
  let (tree, _) := tree.makeDirectoriesFrom false .name parts.dropLast.reverse
  tree.put (tree.home ++ parts) (.file text)

def ofFiles (files : List (String × String)) : FileTree :=
  files.foldl (fun tree (path, text) => tree.add path text) empty

/-- The files below the directory where relative paths start, with their relative paths. -/
def files (tree : FileTree) : List (String × String) :=
  tree.entries.filterMap fun (place, entry) =>
    match entry with
    | .file text =>
      if tree.home.isPrefixOf place then
        some ("/".intercalate (place.drop tree.home.length), text)
      else none
    | .directory => none

/-- The files that were not there before or had another text. -/
def changes (before after : FileTree) : List (String × String) :=
  after.files.filter fun (path, text) => before.files.lookup path != some text

@[simp] theorem get?_put_self (tree : FileTree) {place : List String} (entry : Entry)
    (h : place ≠ []) : (tree.put place entry).get? place = some entry := by
  simp [get?, put, h]

theorem lookup_filter_of_ne {place other : List String} (h : other ≠ place)
    (entries : List (List String × Entry)) :
    (entries.filter (·.1 != place)).lookup other = entries.lookup other := by
  induction entries with
  | nil => rfl
  | cons e entries ih =>
    obtain ⟨p, entry⟩ := e
    by_cases hp : p = place
    · subst hp
      simp only [bne_self_eq_false, Bool.false_eq_true, not_false_eq_true, List.filter_cons_of_neg,
        ih, List.lookup_cons, beq_eq_false_iff_ne.2 h]
    · simp [hp, ih, List.lookup_cons]

theorem get?_put_of_ne (tree : FileTree) {place other : List String} (entry : Entry)
    (h : other ≠ place) : (tree.put place entry).get? other = tree.get? other := by
  simp only [get?, put, List.lookup_cons, beq_eq_false_iff_ne.2 h, lookup_filter_of_ne h]

end FileTree

end NodeSchema
