/-
  TagExpander.FileTree — a file system in memory.

  A tree maps places, lists of names from the root down, to files, directories and
  symbolic links.  Paths are walked one segment at a time: a link is replaced by its
  target, at most forty times, `..` goes up, and everything but the last segment must
  be a directory.

  Main results:
    * `node?_put` — what is found at a place after a change.
-/

import TagExpander.Shell
import TagExpander.Text.Basic

namespace TagExpander

/-- The name of a file, a directory or a link. -/
abbrev Name := List Char

/-- A place in a tree: the names from the root down to it. -/
abbrev Place := List Name

/-- What stands at a place. -/
inductive Entity where
  /-- A regular file with its bytes. -/
  | file (bytes : ByteArray)
  /-- A directory. -/
  | directory
  /-- A symbolic link to a path. -/
  | link (target : Path)

/-- A file system in memory, as a process sees it. -/
structure FileTree where
  /-- What stands where, except for the root, which is a directory. -/
  entities : List (Place × Entity)
  /-- The working directory. -/
  current : Place
  /-- The environment variables. -/
  environment : List (String × String)

namespace FileTree

/-! ## §1. Places -/

/-- An empty tree. -/
def empty : FileTree :=
  ⟨[], [], []⟩

instance : Inhabited FileTree :=
  ⟨empty⟩

/-- What stands at a place. -/
def node? (t : FileTree) (place : Place) : Option Entity :=
  if place = [] then some .directory else t.entities.lookup place

/-- Puts something at a place. -/
def put (t : FileTree) (place : Place) (entity : Entity) : FileTree :=
  { t with entities := (place, entity) :: t.entities }

/-- What is found at a place after a change. -/
theorem node?_put (t : FileTree) (place other : Place) (entity : Entity) (h : place ≠ []) :
    (t.put place entity).node? other = if other = place then some entity else t.node? other := by
  unfold node? put
  by_cases ho : other = place
  · subst ho
    simp [h]
  · have hb : (other == place) = false := by simpa using ho
    simp [List.lookup_cons, ho, hb]

/-- Puts something at a place, with directories on the way to it. -/
def putDeep (t : FileTree) (place : Place) (entity : Entity) : FileTree :=
  let ancestors := (List.range place.length).map fun n => place.take n
  let missing := ancestors.filter fun p => (t.node? p).isNone
  (missing.foldl (fun t p => t.put p .directory) t).put place entity

/-! ## §2. Walking along a path -/

/-- Where a walk ends. -/
inductive Found where
  /-- At something, in a place without links. -/
  | existing (place : Place) (entity : Entity)
  /-- At the place of nothing, in a directory. -/
  | missing (place : Place)

/-- The most links that are followed on the way along one path. -/
def maxLinks : Nat := 40

/-- The longest name, in bytes. -/
def maxNameLength : Nat := 255

/-- The longest path, in bytes. -/
def maxPathLength : Nat := 4095

/-- Walks on from a place, along segments, following at most `links` links.  A walk to
    the place of a file that may be `new` does not look up a last name with a slash
    behind it. -/
def walk (t : FileTree) (new : Bool) (links : Nat) (place : Place) (segments : List Name) :
    Except FileFault Found :=
  match segments with
  | [] =>
    match t.node? place with
    | some entity => .ok (.existing place entity)
    | none => .error .notFound
  | segment :: rest =>
    match t.node? place with
    | some .directory =>
      if segment = [] ∨ segment = ['.'] then t.walk new links place rest
      else if segment = ['.', '.'] then t.walk new links place.dropLast rest
      else if new && !rest.isEmpty && rest.all List.isEmpty then .error .isDirectory
      else if maxNameLength < Text.bytes segment then .error .nameTooLong
      else
        let next := place ++ [segment]
        match t.node? next with
        | none => if rest.isEmpty then .ok (.missing next) else .error .notFound
        | some (.link target) =>
          match links with
          | 0 => .error .tooManyLinks
          | links + 1 =>
            t.walk new links (if target.isAbsolute then [] else place)
              (Path.segments target.chars ++ rest)
        | some _ => t.walk new links next rest
    | some _ => .error .notDirectory
    | none => .error .notFound
termination_by (links, segments.length)

/-- Walks along a path from the working directory, or from the root. -/
def locate (t : FileTree) (new : Bool) (path : Path) : Except FileFault Found :=
  if path.chars.contains '\x00' then .error .badName
  else if path.chars.isEmpty then .error .notFound
  else if maxPathLength < Text.bytes path.chars then .error .nameTooLong
  else t.walk new maxLinks (if path.isAbsolute then [] else t.current) (Path.segments path.chars)

/-- What stands at the end of a path. -/
def resolve (t : FileTree) (path : Path) : Except FileFault (Place × Entity) :=
  match t.locate false path with
  | .ok (.existing place entity) => .ok (place, entity)
  | .ok (.missing _) => .error .notFound
  | .error fault => .error fault

/-! ## §3. Operations -/

/-- The absolute path of a place. -/
def pathOf (place : Place) : Path :=
  match place with
  | [] => ⟨['/']⟩
  | names => ⟨names.flatMap fun name => '/' :: name⟩

/-- The text of a file. -/
def read (t : FileTree) (path : Path) : Except FileFault String :=
  match t.resolve path with
  | .ok (_, .file bytes) =>
    match String.fromUTF8? bytes with
    | some text => .ok text
    | none => .error .notText
  | .ok _ => .error .isDirectory
  | .error fault => .error fault

/-- The absolute path without links and `..`, if it leads to anything. -/
def canonical (t : FileTree) (path : Path) : Option Path :=
  match t.resolve path with
  | .ok (place, _) => some (pathOf place)
  | .error _ => none

/-- Does the path lead to anything? -/
def present (t : FileTree) (path : Path) : Bool :=
  (t.canonical path).isSome

/-- Does the path lead to a regular file? -/
def isFile (t : FileTree) (path : Path) : Bool :=
  match t.resolve path with
  | .ok (_, .file _) => true
  | _ => false

/-- Makes a text the content of a file, which is created if need be. -/
def write (t : FileTree) (path : Path) (text : String) : Except FileFault FileTree :=
  match t.locate true path with
  | .error fault => .error fault
  | .ok (.existing _ .directory) => .error .isDirectory
  | .ok (.existing place _) | .ok (.missing place) => .ok (t.put place (.file text.toUTF8))

/-- The value of an environment variable: what stands behind the name and `=` in a line
    `NAME=VALUE` of the environment. -/
def variableValue? (t : FileTree) (name : String) : Option String :=
  let front := (name ++ "=").toList
  t.environment.findSome? fun (key, value) =>
    let line := (key ++ "=" ++ value).toList
    if front.isPrefixOf line then some (String.ofList (line.drop front.length)) else none

/-- Reading the files of a tree. -/
def files {m : Type → Type} [Monad m] (t : FileTree) : Files m where
  read path := pure (t.read path)
  canonical path := pure (t.canonical path)

/-- A shell in which the tree is the state. -/
def shell : Shell (StateM FileTree) where
  read path := return (← get).read path
  canonical path := return (← get).canonical path
  present path := return (← get).present path
  isFile path := return (← get).isFile path
  currentDir := return some (pathOf (← get).current)
  environment name := return (← get).variableValue? name
  write path text := do
    match (← get).write path text with
    | .error fault => return .error fault
    | .ok t =>
      set t
      return .ok ()

end FileTree

end TagExpander
