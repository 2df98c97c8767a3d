import Registrar.Files.System

/-!
# File trees

Files as a value: a tree of directories with files at its leaves. A place in it is the row of names that lead
there from the root. `FileTree.system` gives the operations of a file system on such a value.

A path is followed name by name. What has been passed on the way is kept as a trail, since `..` leads back along
it and not to the place that the names alone would suggest.

The current directory may have been removed, and directories above it with it. Such a directory is at no place any more.
`..` leads out of it, and no other name leads anywhere.
-/

namespace Registrar

namespace FileTree

/-- The names that lead to a place from the root. -/
abbrev Place := List FileName

/-- What there can be at a place: a file with its bytes, or a directory with what is in it, by name. -/
inductive Entry where
  | file (content : Utf8.Bytes)
  | directory (children : List (FileName × Entry))
deriving Repr, Inhabited

namespace Entry

/-- What is in a directory; there is nothing in a file. -/
def children : Entry → List (FileName × Entry)
  | .file _ => []
  | .directory children => children

/-- What is in a directory under a name. -/
def child? (e : Entry) (name : FileName) : Option Entry := e.children.lookup name

/-- What there is at a place under an entry. -/
def get? (e : Entry) : Place → Option Entry
  | [] => some e
  | name :: names => (e.child? name).bind (·.get? names)

/-- The directory with an entry under a name, in the place of what was there. -/
def putChild (e : Entry) (name : FileName) (new : Entry) : Entry :=
  .directory ((name, new) :: e.children.filter (·.1 != name))

/-- The entry with a new one at a place under it. Directories that are missing on the way are made. -/
def put (new : Entry) : Place → Entry → Entry
  | [], _ => new
  | name :: names, e => e.putChild name (put new names ((e.child? name).getD (.directory [])))

theorem child?_putChild (e : Entry) (name : FileName) (new : Entry) :
    (e.putChild name new).child? name = some new := by
  simp [putChild, child?, children]

/-- What was put at a place is there. -/
theorem get?_put (new : Entry) (place : Place) (e : Entry) : (put new place e).get? place = some new := by
  induction place generalizing e with
  | nil => rfl
  | cons name names ih => simp [put, get?, child?_putChild, ih]

mutual
/-- The files at a place and under it, with their places. -/
def files (place : Place) : Entry → List (Place × Utf8.Bytes)
  | .file content => [(place, content)]
  | .directory children => filesIn place children

/-- The files under the names of a directory. -/
def filesIn (place : Place) : List (FileName × Entry) → List (Place × Utf8.Bytes)
  | [] => []
  | (name, e) :: rest => files (place ++ [name]) e ++ filesIn place rest
end

end Entry

end FileTree

/-- What there is under the root, and the current directory. -/
structure FileTree where
  root : FileTree.Entry := .directory []
  /-- The current directory, or the last one on the way to it that was not removed. -/
  current : FileTree.Place := []
  /-- How many directories from there on, down to the current one, were removed. -/
  removed : Nat := 0
deriving Repr, Inhabited

namespace FileTree

/-- What there is at a place. -/
def entry? (tree : FileTree) (place : Place) : Option Entry := tree.root.get? place

/-- The tree with an entry in the place of what was there. -/
def put (tree : FileTree) (place : Place) (entry : Entry) : FileTree :=
  { tree with root := entry.put place tree.root }

/-! ## Following paths -/

/-- The names that were passed, the last one first, each with what there is at its place. -/
abbrev Trail := List (FileName × Option Entry)

/-- The place to which a trail leads. -/
def Trail.place (trail : Trail) : Place := (trail.map (·.1)).reverse

/-- What there is at the end of a trail. -/
def found (tree : FileTree) : Trail → Option Entry
  | [] => some tree.root
  | (_, entry) :: _ => entry

/-- How many bytes a name may take. -/
def nameLimit : Nat := 255

/-- The name of a directory for itself. -/
def here : FileName := .ofText "."

/-- The name of a directory for the one above it. -/
def above : FileName := .ofText ".."

/-- Follows names from the end of a trail. All but the last must lead to directories. -/
def walk (tree : FileTree) (trail : Trail) : List FileName → Except Refusal Trail
  | [] => .ok trail
  | name :: names =>
    match tree.found trail with
    | none => .error .notFound
    | some (.file _) => .error .notDirectory
    | some (.directory children) =>
      if name = here then tree.walk trail names
      else if name = above then tree.walk trail.tail names
      else if nameLimit < name.length then .error .nameTooLong
      else tree.walk ((name, children.lookup name) :: trail) names

/-- How many bytes a path may take. -/
def pathLimit : Nat := 4095

/-- Names from the root that lead where the given ones lead from the current directory, of which some directories on the
way were removed. -/
def fromRoot (tree : FileTree) : (removed : Nat) → List FileName → Except Refusal (List FileName)
  | 0, names => .ok (tree.current ++ names)
  -- a removed directory is at no place, but to ask, to make and to write come to the same there and at the root
  | _ + 1, [] => .ok []
  | removed + 1, name :: names =>
    if name = here then tree.fromRoot (removed + 1) names
    else if name = above then tree.fromRoot removed names
    else .error .notFound

/-- The names of a path from the root on. -/
def names? (tree : FileTree) (p : Path) : Except FileError (List FileName) :=
  match p.untaken? with
  | some error => .error error
  | none =>
    if pathLimit < (FileName.ofText p.render).length then .error (.refused .nameTooLong p.render)
    else if p.isAbsolute then .ok (p.names.map FileName.ofText)
    else (tree.fromRoot tree.removed (p.names.map FileName.ofText)).mapError (.refused · p.render)

/-- The trail of a path. -/
def follow (tree : FileTree) (p : Path) : Except FileError Trail :=
  match tree.names? p with
  | .error error => .error error
  | .ok names => (tree.walk [] names).mapError (.refused · p.render)

/-- The path of the current directory, if it is there. -/
def currentPath? (tree : FileTree) : Except FileError Path :=
  match tree.removed, tree.entry? tree.current with
  | 0, some (.directory _) => .ok { anchor := .root, names := tree.current.map FileName.decode }
  | _, _ => .error (.noCurrent .notFound)

/-! ## Operations -/

/-- Work on a file tree that may fail. -/
abbrev Access := ExceptT FileError (StateM FileTree)

/-- The place to which a path leads, and what is there. -/
def find (p : Path) : Access (Place × Option Entry) := do
  let tree ← get
  let trail ← ofExcept (tree.follow p)
  return (trail.place, tree.found trail)

/-- Whether a path leads to a directory. -/
def isDirectory (p : Path) : Access Bool := do
  match (← find p).2 with
  | none => throw (.refused .notFound p.render)
  | some (.file _) => return false
  | some (.directory _) => return true

/-- The bytes of a file. -/
def read (p : Path) : Access Utf8.Bytes := do
  match (← find p).2 with
  | none => throw (.refused .notFound p.render)
  | some (.directory _) => throw (.refused .isDirectory p.render)
  | some (.file content) => return content

/-- Makes a directory. -/
def makeDirectory (p : Path) : Access Unit := do
  let (place, entry) ← find p
  if entry.isSome then throw (.refused .alreadyExists p.render)
  modify (·.put place (.directory []))

/-- Writes a text behind what `kept` leaves of a file. The file is made before the text is looked at. -/
def writeAfter (kept : Utf8.Bytes → Utf8.Bytes) (p : Path) (text : Text) : Access Unit := do
  let (place, entry) ← find p
  let content ← match entry with
    | none => pure []
    | some (.file content) => pure (kept content)
    | some (.directory _) => throw (.refused .isDirectory p.render)
  modify (·.put place (.file content))
  let bytes ← ofExcept ((Utf8.encode text).mapError FileError.unencodable)
  modify (·.put place (.file (content ++ bytes)))

/-- Writes a text at the end of a file. -/
def append (p : Path) (text : Text) : Access Unit := writeAfter id p text

/-- Makes a text the content of a file. -/
def write (p : Path) (text : Text) : Access Unit := writeAfter (fun _ => []) p text

/-- The file system of a file tree. -/
def system : FileSystem (StateM FileTree) where
  currentDirectory := do ofExcept (← get).currentPath?
  isDirectory := isDirectory
  read := read
  makeDirectory := makeDirectory
  append := append
  write := write

/-! ## Comparing -/

/-- Whether a text comes before another one or is the same, by the numbers of the code points. -/
def precedes : Text → Text → Bool
  | [], _ => true
  | _ :: _, [] => false
  | c :: cs, d :: ds => c.toNat < d.toNat || (c == d && precedes cs ds)

/-- The files of the tree that are new or have changed since an earlier one, with their paths, in the order of
these. -/
def changesSince (tree earlier : FileTree) : List (Text × Utf8.Bytes) :=
  let changed := (tree.root.files []).filterMap fun (place, content) =>
    let path := (Path.mk .root (place.map FileName.decode)).render
    match earlier.entry? place with
    | some (.file before) => if before = content then none else some (path, content)
    | _ => some (path, content)
  changed.mergeSort fun a b => precedes a.1 b.1

end FileTree

end Registrar
