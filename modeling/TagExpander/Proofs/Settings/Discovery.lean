/-
  TagExpander.Proofs.Settings.Discovery — the nearest settings file, and that settings are valid.

  Without a name, a settings file is looked for from the working directory up, and the first
  path that leads to a regular file is the one.  From /a/b:

      /a/b/rw.toml   a directory        passed over
      /a/rw.toml     a regular file     loaded, or refused
      /rw.toml       whatever it is     not looked at

  A file that is refused is not passed over: it is the nearest one all the same, and there
  are no settings.  On every way the settings that are loaded were checked, except for the
  defaults, which are valid by themselves.

  Main results:
    * `load_ok` — settings that are loaded are valid, and name their file.
    * `nearestFile?_of_plain` — the nearest file, by what stands where.
    * `load_valid` — both, and what the result depends on.
-/
import Mathlib.Data.List.Infix
import TagExpander.Proofs.FileTree.Places
import TagExpander.Proofs.Settings.Precedence

namespace TagExpander

/-! ## §1. The nearest file. -/

namespace FileTree

open Settings (fileName)

/-- The bytes of the regular file that a path leads to. -/
def fileAt? (t : FileTree) (path : Path) : Option ByteArray :=
  match t.resolve path with
  | .ok (_, .file bytes) => some bytes
  | _ => none

theorem isSome_fileAt? (t : FileTree) (path : Path) : (t.fileAt? path).isSome = t.isFile path := by
  rw [fileAt?, isFile]
  cases t.resolve path with
  | error fault => rfl
  | ok found =>
      obtain ⟨place, entity⟩ := found
      cases entity <;> rfl

theorem fileAt?_eq_some {t : FileTree} {path : Path} {bytes : ByteArray}
    (h : t.fileAt? path = some bytes) : ∃ place, t.resolve path = .ok (place, .file bytes) := by
  unfold fileAt? at h
  split at h
  next place _ hresolve =>
    cases h
    exact ⟨place, hresolve⟩
  next => cases h

/-- The settings file in the working directory, or else in the nearest directory above it that
    has one: its path, and what it holds. -/
def nearestFile? (t : FileTree) : Option (Path × ByteArray) :=
  ((pathOf t.current).ancestors.map (·.join fileName)).findSome? fun path =>
    (t.fileAt? path).map (path, ·)

/-- The nearest file is a regular file, and there is none in a nearer directory. -/
theorem nearestFile?_eq_some_iff {t : FileTree} {path : Path} {bytes : ByteArray} :
    t.nearestFile? = some (path, bytes) ↔
      ∃ nearer dir farther, (pathOf t.current).ancestors = nearer ++ dir :: farther ∧
        path = dir.join fileName ∧ t.fileAt? path = some bytes ∧
        ∀ other ∈ nearer, t.isFile (other.join fileName) = false := by
  unfold nearestFile?
  rw [List.findSome?_map, List.findSome?_eq_some_iff]
  constructor
  · rintro ⟨nearer, dir, farther, hancestors, hdir, hnearer⟩
    obtain ⟨_, hfile, ⟨⟩⟩ := Option.map_eq_some_iff.1 hdir
    refine ⟨nearer, dir, farther, hancestors, rfl, hfile, fun other hmem => ?_⟩
    rw [← isSome_fileAt?, Option.map_eq_none_iff.1 (hnearer other hmem)]
    rfl
  · rintro ⟨nearer, dir, farther, hancestors, rfl, hfile, hnearer⟩
    refine ⟨nearer, dir, farther, hancestors, ?_, fun other hmem => ?_⟩
    · show (t.fileAt? (dir.join fileName)).map _ = _
      rw [hfile]
      rfl
    · have hnone := hnearer other hmem
      rw [← isSome_fileAt?, Option.isSome_eq_false_iff, Option.isNone_iff_eq_none] at hnone
      exact Option.map_eq_none_iff.2 hnone

/-- The settings file of a directory, if a regular file stands there: its place, and what it
    holds. -/
def fileIn? (t : FileTree) (dir : Place) : Option (Place × ByteArray) :=
  match t.node? (dir ++ [fileName.chars]) with
  | some (.file bytes) => some (dir ++ [fileName.chars], bytes)
  | _ => none

/-- The nearest settings file, by what stands in the directories. -/
def placedFile? (t : FileTree) : Option (Place × ByteArray) :=
  t.current.inits.reverse.findSome? t.fileIn?

/-- The working directory is there, paths to the settings files above it are not too long,
    and no link has their name. -/
structure Plain (t : FileTree) : Prop where
  leads : t.Leads t.current
  short : Text.bytes (pathOf (t.current ++ [fileName.chars])).chars ≤ maxPathLength
  noLink : ∀ dir, dir <+: t.current → ∀ target,
    t.node? (dir ++ [fileName.chars]) ≠ some (.link target)

theorem walkable_fileName : Walkable fileName.chars where
  isName := ⟨by decide, by decide⟩
  noZero := by decide
  short := by decide

theorem bytes_pathOf_le {dir place : Place} (h : dir <+: place) (name : Name) :
    Text.bytes (pathOf (dir ++ [name])).chars ≤ Text.bytes (pathOf (place ++ [name])).chars := by
  obtain ⟨rest, rfl⟩ := h
  rw [pathOf_append_singleton, pathOf_append_singleton]
  have hplace : textOfPlace (dir ++ rest) = textOfPlace dir ++ textOfPlace rest :=
    List.flatMap_append
  simp only [hplace, Text.bytes_append]
  omega

/-- The path of the settings file of a directory. -/
theorem join_fileName {t : FileTree} {dir : Place} (h : t.Leads dir) :
    (pathOf dir).join fileName = pathOf (dir ++ [fileName.chars]) :=
  join_name h.isName walkable_fileName.isName

theorem fileAt?_join {t : FileTree} (h : t.Plain) {dir : Place} (hdir : dir <+: t.current) :
    (t.fileAt? ((pathOf dir).join fileName)).map ((pathOf dir).join fileName, ·) =
      (t.fileIn? dir).map fun found => (pathOf found.1, found.2) := by
  have hleads : t.Leads dir := h.leads.of_prefix hdir
  have hshort := (bytes_pathOf_le hdir fileName.chars).trans h.short
  rw [join_fileName hleads, fileAt?, fileIn?,
    resolve_pathOf_append hleads walkable_fileName hshort (h.noLink dir hdir)]
  cases t.node? (dir ++ [fileName.chars]) with
  | none => rfl
  | some entity => cases entity <;> rfl

/-- **The nearest file is where it stands.** -/
theorem nearestFile?_of_plain {t : FileTree} (h : t.Plain) :
    t.nearestFile? = t.placedFile?.map fun found => (pathOf found.1, found.2) := by
  unfold nearestFile? placedFile?
  rw [ancestors_pathOf h.leads.isName, List.map_map, List.findSome?_map, List.map_findSome?,
    ← List.head?_filterMap, ← List.head?_filterMap]
  refine congrArg List.head? (List.filterMap_congr fun dir hmem => ?_)
  exact fileAt?_join h ((List.mem_inits _ _).1 (List.mem_reverse.1 hmem))

end FileTree

namespace Settings

open FileTree (pathOf maxPathLength)

/-! ## §2. Settings that are loaded. -/

section Routes

variable {shell : Shell Id} {path : Path} {s : Settings}

/-- The settings of a file were checked, and name the file. -/
theorem loadFile_ok (h : (loadFile shell path).run = .ok s) :
    s.validate = .ok () ∧ s.file = some path := by
  rw [loadFile_eq] at h
  cases hstored : storedAt shell path with
  | error fault =>
      rw [hstored] at h
      cases h
  | ok stored =>
      rw [hstored] at h
      obtain ⟨rfl, hvalid⟩ := checked_eq_ok_iff.1 h
      exact ⟨hvalid, rfl⟩

/-- The defaults are valid, wherever they are seen from. -/
theorem validate_defaultsFrom (dir : Path) : (defaultsFrom dir).validate = .ok () := by
  have hdepth : 1 ≤ defaultMaxDepth ∧ defaultMaxDepth ≤ 1000 := by decide
  exact validate_eq_ok_iff.2 ⟨Path.join_ne_nil dir (by decide), hdepth⟩

end Routes

variable {t u : FileTree} {named : Option Path} {o : Option Overrides} {s : Settings}

/-- The file that is found is the nearest one. -/
theorem discover?_still (t : FileTree) :
    (discover? t.still (pathOf t.current)).run = t.nearestFile?.map Prod.fst := by
  have hfirst : ∀ paths, (firstFile? t.still paths).run =
      (paths.findSome? fun path => (t.fileAt? path).map (path, ·)).map Prod.fst := by
    intro paths
    induction paths with
    | nil => rfl
    | cons path paths ih =>
        rw [firstFile?]
        show (if t.isFile path then some path else (firstFile? t.still paths).run) = _
        rw [ih, ← FileTree.isSome_fileAt?, List.findSome?_cons]
        cases t.fileAt? path <;> rfl
  exact hfirst _

/-- Without a name, the nearest file is loaded, or the defaults are taken. -/
theorem loadIn_found (t : FileTree) :
    loadIn t none none =
      match t.nearestFile? with
      | some (path, _) => (loadFile t.still path).run
      | none => .ok (defaultsFrom (pathOf t.current)) := by
  have hdir : t.still.currentDir = some (pathOf t.current) := rfl
  rw [loadIn_eq, load_none, loadBase_none hdir, discover?_still]
  cases t.nearestFile? <;> rfl

theorem loadIn_named (t : FileTree) (path : Path) :
    loadIn t (some path) none =
      if t.present path then (loadFile t.still path).run else .error (.notFound path) := by
  rw [loadIn_eq, load_none, loadBase_some]
  rfl

/-- Settings that are loaded without overrides are valid, and name their file. -/
theorem load_ok_none (h : loadIn t named none = .ok s) :
    s.validate = .ok () ∧ s.file = named.or (t.nearestFile?.map Prod.fst) := by
  cases named with
  | some path =>
      rw [loadIn_named] at h
      split at h
      · exact loadFile_ok h
      · cases h
  | none =>
      rw [loadIn_found] at h
      cases hnearest : t.nearestFile? with
      | some found =>
          rw [hnearest] at h
          exact loadFile_ok h
      | none =>
          rw [hnearest] at h
          cases h
          exact ⟨validate_defaultsFrom _, rfl⟩

/-- **Settings that are loaded are valid, and name their file.** -/
theorem load_ok (h : loadIn t named o = .ok s) :
    s.validate = .ok () ∧ s.file = named.or (t.nearestFile?.map Prod.fst) := by
  cases o with
  | none => exact load_ok_none h
  | some o =>
      rw [loadIn_some] at h
      cases hload : loadIn t named none with
      | error fault =>
          rw [hload] at h
          cases h
      | ok own =>
          rw [hload] at h
          -- overrides do not touch the file
          obtain ⟨rfl, hvalid⟩ := checked_eq_ok_iff.1 h
          exact ⟨hvalid, (load_ok_none hload).2⟩

/-! ## §3. What the result depends on. -/

/-- Overrides are put over whatever is loaded without them. -/
theorem loadIn_congr {named' : Option Path} (h : loadIn u named' none = loadIn t named none) :
    loadIn u named' o = loadIn t named o := by
  cases o with
  | none => exact h
  | some o => rw [loadIn_some, loadIn_some, h]

theorem present_of_fileAt? {path : Path} {bytes : ByteArray} (h : t.fileAt? path = some bytes) :
    t.present path = true := by
  obtain ⟨place, hresolve⟩ := FileTree.fileAt?_eq_some h
  rw [FileTree.present, FileTree.canonical, hresolve]
  rfl

theorem read_of_fileAt? {path : Path} {bytes : ByteArray} (h : t.fileAt? path = some bytes) :
    t.read path = FileTree.textOf bytes := by
  obtain ⟨place, hresolve⟩ := FileTree.fileAt?_eq_some h
  exact FileTree.read_of_resolve hresolve

theorem fileAt?_of_nearestFile? {path : Path} {bytes : ByteArray}
    (h : t.nearestFile? = some (path, bytes)) : t.fileAt? path = some bytes := by
  obtain ⟨_, _, _, _, _, hfile, _⟩ := FileTree.nearestFile?_eq_some_iff.1 h
  exact hfile

/-- **Without a name, the nearest file is loaded as if it were named**, and nothing is loaded
    in its place if it is refused. -/
theorem loadIn_nearest {path : Path} {bytes : ByteArray}
    (h : t.nearestFile? = some (path, bytes)) : loadIn t none o = loadIn t (some path) o := by
  refine loadIn_congr ?_
  rw [loadIn_found, loadIn_named, h, if_pos (present_of_fileAt? (fileAt?_of_nearestFile? h))]

/-- Two trees in which the same can be seen of the settings: the environment, and the file that
    is named, or else the working directory and the nearest file. -/
structure SameView (t u : FileTree) (named : Option Path) : Prop where
  environment : ∀ name, u.variableValue? name = t.variableValue? name
  atPath : ∀ path, named = some path → u.present path = t.present path ∧ u.read path = t.read path
  nearest : named = none → u.current = t.current ∧ u.nearestFile? = t.nearestFile?

/-- **The result depends on nothing else.** -/
theorem SameView.loadIn_eq (h : SameView t u named) : loadIn u named o = loadIn t named o := by
  have henvironment : u.still.environment = t.still.environment := funext h.environment
  refine loadIn_congr ?_
  cases named with
  | some path =>
      obtain ⟨hpresent, hread⟩ := h.atPath path rfl
      have hload : loadFile u.still path = loadFile t.still path :=
        loadFile_congr hread henvironment
      rw [loadIn_named, loadIn_named, hpresent, hload]
  | none =>
      obtain ⟨hcurrent, hnearest⟩ := h.nearest rfl
      rw [loadIn_found, loadIn_found, hnearest, hcurrent]
      cases hfound : t.nearestFile? with
      | none => rfl
      | some found =>
          have hread : u.still.read found.1 = t.still.read found.1 :=
            (read_of_fileAt? (fileAt?_of_nearestFile? (hnearest.trans hfound))).trans
              (read_of_fileAt? (fileAt?_of_nearestFile? hfound)).symm
          have hload : loadFile u.still found.1 = loadFile t.still found.1 :=
            loadFile_congr hread henvironment
          exact congrArg Id.run hload

/-- Two trees are seen alike if the same file is the nearest, whatever else stands in them. -/
theorem SameView.of_plain (ht : t.Plain) (hu : u.Plain)
    (henvironment : ∀ name, u.variableValue? name = t.variableValue? name)
    (hcurrent : u.current = t.current) (hplaced : u.placedFile? = t.placedFile?) :
    SameView t u none where
  environment := henvironment
  atPath := nofun
  nearest _ := ⟨hcurrent, by
    rw [FileTree.nearestFile?_of_plain hu, FileTree.nearestFile?_of_plain ht, hplaced]⟩

/-! ## §4. Loading. -/

/-- **Settings that are loaded are valid.**  They come from the file that is named, or else
    from the nearest one, or else they are the defaults.  A nearest file that is refused is not
    passed over.  Nothing else in the tree matters: with a name, what else stands there, and
    without one, what is further up, and what of that name is not a regular file. -/
theorem load_valid (t : FileTree) (named : Option Path) (o : Option Overrides) :
    (∀ s, loadIn t named o = .ok s →
      (s.validate = .ok () ∧ 1 ≤ s.maxDepth ∧ s.maxDepth ≤ 1000 ∧ s.sourceDir.chars ≠ []) ∧
        s.file = named.or (t.nearestFile?.map Prod.fst)) ∧
    (∀ path bytes, t.nearestFile? = some (path, bytes) →
      loadIn t none o = loadIn t (some path) o) ∧
    (∀ u, SameView t u named → loadIn u named o = loadIn t named o) ∧
    (t.Plain → t.nearestFile? = t.placedFile?.map fun found => (pathOf found.1, found.2)) ∧
    (∀ u, t.Plain → u.Plain → (∀ name, u.variableValue? name = t.variableValue? name) →
      u.current = t.current → u.placedFile? = t.placedFile? →
      loadIn u none o = loadIn t none o) := by
  refine ⟨fun s h => ?_, ?_, ?_, FileTree.nearestFile?_of_plain, ?_⟩
  · obtain ⟨hvalid, hfile⟩ := load_ok h
    obtain ⟨hdir, hpos, hle⟩ := validate_eq_ok_iff.1 hvalid
    exact ⟨⟨hvalid, hpos, hle, hdir⟩, hfile⟩
  · intro path bytes h
    exact loadIn_nearest h
  · intro u h
    exact h.loadIn_eq
  · intro u ht hu henvironment hcurrent hplaced
    exact (SameView.of_plain ht hu henvironment hcurrent hplaced).loadIn_eq

/-- A tree with the working directory `a/b`, with a settings file in `a` that has no sound limit
    of nesting, and with other things besides. -/
def stackedTree (others : List (Place × Entity)) : FileTree :=
  ⟨([['a']], .directory) :: ([['a'], ['b']], .directory) ::
      ([['a'], fileName.chars], .file "[shortcodes]\nmax_depth = 0\n".toUTF8) :: others,
    [['a'], ['b']], []⟩

theorem plain_stackedTree {others : List (Place × Entity)}
    (hnear : ∀ target,
      (stackedTree others).node? [['a'], ['b'], fileName.chars] ≠ some (.link target))
    (hroot : ∀ target, (stackedTree others).node? [fileName.chars] ≠ some (.link target)) :
    (stackedTree others).Plain where
  leads := by
    have ha : FileTree.Walkable ['a'] := ⟨⟨by decide, by decide⟩, by decide, by decide⟩
    have hb : FileTree.Walkable ['b'] := ⟨⟨by decide, by decide⟩, by decide, by decide⟩
    exact ((FileTree.leads_nil _).append_singleton ha rfl).append_singleton hb rfl
  short := show Text.bytes (pathOf [['a'], ['b'], fileName.chars]).chars ≤ maxPathLength by decide
  noLink dir hdir target := by
    have hplaces : dir = [] ∨ dir = [['a']] ∨ dir = [['a'], ['b']] := by
      simpa [stackedTree] using (List.mem_inits _ _).2 hdir
    rcases hplaces with rfl | rfl | rfl
    · exact hroot target
    · exact nofun
    · exact hnear target

/-- The nearest file is refused, and the one at the root, which would do, is not loaded in its
    place; without it, and without the directory that is passed over, the result is the same. -/
theorem load_valid_stacked :
    let o : Overrides := ⟨none, some 5⟩
    let t := stackedTree [([['a'], ['b'], fileName.chars], .directory),
      ([fileName.chars], .file "[shortcodes]\nmax_depth = 4\n".toUTF8)]
    let u := stackedTree []
    (t.Plain ∧ u.Plain ∧ u.placedFile? = t.placedFile?) ∧
      loadIn t none (some o) = .error (.invalid .noDepth) ∧
      loadIn u none (some o) = .error (.invalid .noDepth) := by
  intro o t u
  have ht : t.Plain := plain_stackedTree nofun nofun
  have hu : u.Plain := plain_stackedTree nofun nofun
  have hplaced : t.placedFile? =
      some ([['a'], fileName.chars], "[shortcodes]\nmax_depth = 0\n".toUTF8) := rfl
  obtain ⟨-, hnamed, -, hnearest, hsame⟩ := load_valid t none (some o)
  have hnearest : t.nearestFile? =
      some (pathOf [['a'], fileName.chars], "[shortcodes]\nmax_depth = 0\n".toUTF8) := by
    rw [hnearest ht, hplaced]
    rfl
  have hfile := fileAt?_of_nearestFile? hnearest
  have hread := (read_of_fileAt? hfile).trans (FileTree.textOf_toUTF8 _)
  have hparse : Stored.parse? "[shortcodes]\nmax_depth = 0\n" = some ⟨none, some 0⟩ := by
    decide +kernel
  have hload : loadIn t none (some o) = .error (.invalid .noDepth) := by
    rw [hnamed _ _ hnearest, loadIn_of_read (present_of_fileAt? hfile) hread hparse]
    decide +kernel
  refine ⟨⟨ht, hu, rfl⟩, hload, ?_⟩
  rw [hsame u ht hu (fun _ => rfl) rfl rfl]
  exact hload

end Settings

end TagExpander
