/-!
# Folders and files

A `FileTree` is a tree of folders, and of files with their bytes, in which one folder is the current
one. Paths start there, or with its own path, or at the top. They are followed one part at a time,
so that nothing lies below a file, and `..` leads to the folder above.

* `find?_put` — an entry that was put is found;
* `find?_put_of_ne` — nothing else changes.
-/

namespace ClientMetrics

/-- Why a file or a folder cannot be used. -/
inductive FileFault where
  | missing
  | alreadyThere
  | notFolder
  | isFolder
  /-- The bytes are no text. -/
  | notText
  deriving DecidableEq, Repr

/-- The text of a fault. -/
def FileFault.message : FileFault → String
  | missing => "No such file or directory (os error 2)"
  | alreadyThere => "File exists (os error 17)"
  | notFolder => "Not a directory (os error 20)"
  | isFolder => "Is a directory (os error 21)"
  | notText => "stream did not contain valid UTF-8"

/-- A path below another one. -/
def joinPath (base path : String) : String :=
  if path.startsWith "/" then path
  else if base = "" ∨ base.endsWith "/" then base ++ path
  else base ++ "/" ++ path

/-- What lies at a place. -/
inductive FileEntry where
  | folder
  | file (content : ByteArray)

/-- Two entries are the same: folders, or files with the same bytes. -/
def FileEntry.same : FileEntry → FileEntry → Bool
  | folder, folder => true
  | file a, file b => a.data == b.data
  | _, _ => false

/-- A place in a tree: the names that lead there from the top. -/
abbrev Place := List String

/-- Folders and files. -/
structure FileTree where
  /-- The path of the current folder. -/
  root : String
  /-- The place of the current folder. -/
  here : Place := []
  entries : List (Place × FileEntry) := []

namespace FileTree

/-- What lies at a place, if anything does. -/
def find? (t : FileTree) (place : Place) : Option FileEntry :=
  if place = [] then some .folder else t.entries.lookup place

/-- The tree with an entry at a place, which takes the place of what was there. -/
def put (t : FileTree) (place : Place) (e : FileEntry) : FileTree :=
  { t with entries := (place, e) :: t.entries.filter (·.1 ≠ place) }

/-- The place that some parts of a path lead to, starting in a folder. Nothing need lie there, but
what is passed on the way has to be a folder. -/
def walk (t : FileTree) (start : Place) : List String → Except FileFault Place
  | [] => .ok start
  | part :: parts =>
    match t.find? start with
    | none => .error .missing
    | some (.file _) => .error .notFolder
    | some .folder =>
      if part = "" ∨ part = "." then walk t start parts
      else if part = ".." then walk t start.dropLast parts
      else walk t (start ++ [part]) parts

/-- A text cut at its slashes. -/
def cutAtSlashes : List Char → List (List Char)
  | [] => [[]]
  | c :: cs =>
    if c = '/' then [] :: cutAtSlashes cs
    else
      match cutAtSlashes cs with
      | [] => [[c]]
      | part :: parts => (c :: part) :: parts

/-- The parts of a path, which slashes separate. -/
def splitPath (path : List Char) : List String := (cutAtSlashes path).map .ofList

/-- Where a path starts, and the parts that follow. -/
def parts (t : FileTree) (path : String) : Place × List String :=
  let inside := (t.root ++ "/").toList
  if path = t.root then (t.here, [])
  else if inside.isPrefixOf path.toList then
    (t.here, splitPath (path.toList.drop inside.length))
  else (if path.startsWith "/" then [] else t.here, splitPath path.toList)

/-- The places on the way that some parts of a path describe, starting in a folder. -/
def placesAlong (start : Place) : List String → List Place
  | [] => []
  | part :: parts =>
    let place :=
      if part = "" ∨ part = "." then start
      else if part = ".." then start.dropLast
      else start ++ [part]
    place :: placesAlong place parts

/-- The places that a path passes. -/
def placesOn (t : FileTree) (path : String) : List Place :=
  let (start, parts) := t.parts path
  placesAlong start parts

/-- The place that a path leads to. -/
def locate (t : FileTree) (path : String) : Except FileFault Place :=
  if path = "" then .error .missing
  else
    let (start, parts) := t.parts path
    t.walk start parts

/-- Something lies where a path leads. -/
def exists? (t : FileTree) (path : String) : Bool :=
  match t.locate path with
  | .ok place => (t.find? place).isSome
  | .error _ => false

/-- The bytes of a file. -/
def readBytes (t : FileTree) (path : String) : Except FileFault ByteArray := do
  match t.find? (← t.locate path) with
  | none => .error .missing
  | some .folder => .error .isFolder
  | some (.file content) => .ok content

/-- The text of a file. -/
def readText (t : FileTree) (path : String) : Except FileFault String := do
  match String.fromUTF8? (← t.readBytes path) with
  | some text => .ok text
  | none => .error .notText

/-- Writes a file into a folder that is there. -/
def write (t : FileTree) (path : String) (content : ByteArray) : Except FileFault FileTree := do
  let place ← t.locate path
  match t.find? place with
  | some .folder => .error .isFolder
  | _ => .ok (t.put place (.file content))

/-- Makes the folders on the way that some parts of a path describe, starting in a folder. -/
def makeAlong (t : FileTree) (start : Place) : List String → Except FileFault FileTree
  | [] => .ok t
  | part :: parts =>
    if part = "" ∨ part = "." then t.makeAlong start parts
    else if part = ".." then t.makeAlong start.dropLast parts
    else
      let place := start ++ [part]
      match t.find? place with
      | none => (t.put place .folder).makeAlong place parts
      | some .folder => t.makeAlong place parts
      | some (.file _) => .error (if parts.all (· = "") then .alreadyThere else .notFolder)

/-- Makes a folder and all folders above it that are missing. -/
def makeFolders (t : FileTree) (path : String) : Except FileFault FileTree :=
  let (start, parts) := t.parts path
  t.makeAlong start parts

/-- An entry that was put is found. -/
theorem find?_put (t : FileTree) {place : Place} (e : FileEntry) (h : place ≠ []) :
    (t.put place e).find? place = some e := by
  simp [find?, put, h]

/-- Putting an entry changes nothing elsewhere. -/
theorem find?_put_of_ne (t : FileTree) {place other : Place} (e : FileEntry) (h : other ≠ place) :
    (t.put place e).find? other = t.find? other := by
  unfold find? put
  split
  · rfl
  · have hb : (other == place) = false := by simpa using h
    simp only [List.lookup_cons, hb]
    induction t.entries with
    | nil => rfl
    | cons x xs ih =>
      obtain ⟨p, v⟩ := x
      -- entries of the place that was put are gone, and all others are kept
      by_cases hp : p = place
      · subst hp
        simp only [ne_eq, not_true_eq_false, decide_false, Bool.false_eq_true, not_false_eq_true,
          List.filter_cons_of_neg, List.lookup_cons, hb]
        exact ih
      · rw [List.filter_cons_of_pos (by simpa using hp), List.lookup_cons, List.lookup_cons, ih]

end FileTree

end ClientMetrics
