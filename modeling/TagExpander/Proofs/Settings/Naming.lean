/-
  TagExpander.Proofs.Settings.Naming — a settings file that is named, and one that is found.

  The settings file of the working directory D can be named, and without a name it is found.
  The two ways give the file another path, `rw.toml` and `D/rw.toml`, and a relative source
  directory starts from where the path says:

      named    rw.toml      →   docs       seen from D the same directory
      found    D/rw.toml    →   D/docs

  So they agree, with one exception.  What is checked not to be empty is the source directory
  as it is seen from the path.  An empty one stays empty when the file is named, and is
  refused; when the file is found it is D with a slash behind it, and passes.

  Main results:
    * `Furnished.alike` — the two ways agree, unless the source directory is empty.
    * `load_named_empty`, `load_found_empty` — what they do if it is.
    * `load_named_found` — both cases, and that the directories are the same.
-/
import TagExpander.Proofs.Settings.Discovery

namespace TagExpander

/-! ## §1. Seen from a directory. -/

namespace Path

theorem nil_join (p : Path) : Path.join ⟨[]⟩ p = p := by
  unfold join
  split
  · rfl
  · rfl

theorem isAbsolute_join {dir : Path} (h : dir.isAbsolute = true) (p : Path) :
    (dir.join p).isAbsolute = true := by
  obtain ⟨rest, hdir⟩ : ∃ rest, dir.chars = '/' :: rest :=
    List.head?_eq_some_iff.1 (by simpa [isAbsolute] using h)
  unfold join
  split
  next hp => exact hp
  next => split <;> simp [isAbsolute, hdir]

/-- Seen from an absolute directory twice is seen from it once. -/
theorem join_join {dir : Path} (h : dir.isAbsolute = true) (p : Path) :
    dir.join (dir.join p) = dir.join p :=
  if_pos (isAbsolute_join h p)

end Path

namespace Settings

open FileTree (pathOf maxPathLength)

theorem isAbsolute_pathOf (place : Place) : (pathOf place).isAbsolute = true := by
  cases place <;> rfl

/-! ## §2. Results that agree. -/

/-- Two results agree, seen from a directory: the same fault, or settings with the same limit of
    nesting and the same source directory.  The file may go by another path. -/
inductive Alike (dir : Path) : Except Fault Settings → Except Fault Settings → Prop where
  | fault (fault : Fault) : Alike dir (.error fault) (.error fault)
  | settings {s s' : Settings} (depth : s.maxDepth = s'.maxDepth)
      (sourceDir : dir.join s.sourceDir = dir.join s'.sourceDir) : Alike dir (.ok s) (.ok s')

section Alike

variable {dir : Path} {s s' : Settings} {x y : Except Fault Settings}

/-- Settings that agree pass the check alike, if none of them or both are without a source
    directory. -/
theorem Alike.checked (hdepth : s.maxDepth = s'.maxDepth)
    (hdir : dir.join s.sourceDir = dir.join s'.sourceDir)
    (hempty : s.sourceDir.chars.isEmpty = s'.sourceDir.chars.isEmpty) :
    Alike dir (checked s) (checked s') := by
  have hvalidate : s.validate = s'.validate := by
    rw [validate, validate, hempty, hdepth]
  rw [Settings.checked, Settings.checked, hvalidate]
  cases s'.validate with
  | error fault => exact .fault fault
  | ok _ => exact .settings hdepth hdir

/-- Results that agree do so with overrides. -/
theorem Alike.overridden (o : Overrides) (h : Alike dir x y)
    (hx : ∀ s, x = .ok s → s.sourceDir.chars ≠ []) (hy : ∀ s, y = .ok s → s.sourceDir.chars ≠ []) :
    Alike dir (x.bind fun s => Settings.checked (s.override o))
      (y.bind fun s => Settings.checked (s.override o)) := by
  cases h with
  | fault fault => exact .fault fault
  | @settings s s' depth sourceDir =>
      have hne : s.sourceDir.chars ≠ [] := hx s rfl
      have hne' : s'.sourceDir.chars ≠ [] := hy s' rfl
      refine .checked (congrArg o.maxDepth.getD depth) ?_ ?_
      · show dir.join (o.sourceDir.getD _) = dir.join (o.sourceDir.getD _)
        cases o.sourceDir with
        | none => exact sourceDir
        | some given => rfl
      · show (o.sourceDir.getD _).chars.isEmpty = (o.sourceDir.getD _).chars.isEmpty
        cases o.sourceDir with
        | none =>
            exact (List.isEmpty_eq_false_iff.2 hne).trans (List.isEmpty_eq_false_iff.2 hne').symm
        | some given => rfl

end Alike

/-! ## §3. The file of the working directory. -/

/-- The working directory is at its place, and its settings file has a path that is not too
    long. -/
structure Furnished (t : FileTree) : Prop where
  leads : t.Leads t.current
  isFile : t.isFile fileName = true
  short : Text.bytes ((pathOf t.current).join fileName).chars ≤ maxPathLength

/-- The path under which the settings file of the working directory is found. -/
def ownFile (t : FileTree) : Path :=
  (pathOf t.current).join fileName

variable {t : FileTree}

namespace Furnished

theorem resolve_ownFile (h : Furnished t) : t.resolve (ownFile t) = t.resolve fileName :=
  FileTree.resolve_join_current h.leads (by decide) h.short

/-- By either path, the same is read. -/
theorem storedAt_ownFile (h : Furnished t) :
    storedAt t.still (ownFile t) = storedAt t.still fileName := by
  have hread : t.still.read (ownFile t) = t.still.read fileName := by
    show t.read (ownFile t) = t.read fileName
    rw [FileTree.read, FileTree.read, h.resolve_ownFile]
  rw [storedAt, storedAt, hread]

theorem exists_bytes (h : Furnished t) : ∃ bytes, t.fileAt? fileName = some bytes := by
  have hsome := h.isFile
  rw [← FileTree.isSome_fileAt?] at hsome
  exact Option.isSome_iff_exists.1 hsome

/-- The file is the nearest one. -/
theorem nearestFile? (h : Furnished t) : ∃ bytes, t.nearestFile? = some (ownFile t, bytes) := by
  obtain ⟨bytes, hbytes⟩ := h.exists_bytes
  obtain ⟨farther, hancestors⟩ : ∃ farther,
      (pathOf t.current).ancestors = [] ++ pathOf t.current :: farther := by
    rw [Path.ancestors]
    split
    next => exact ⟨[], rfl⟩
    next above _ => exact ⟨above.ancestors, rfl⟩
  refine ⟨bytes, FileTree.nearestFile?_eq_some_iff.2
    ⟨[], pathOf t.current, farther, hancestors, rfl, ?_, nofun⟩⟩
  rw [FileTree.fileAt?, h.resolve_ownFile]
  exact hbytes

/-- The settings, when the file is named. -/
theorem loadIn_named (h : Furnished t) :
    loadIn t (some fileName) none = (storedAt t.still fileName).bind fun stored =>
      checked ⟨stored.dir, stored.maxDepth.getD defaultMaxDepth, some fileName⟩ := by
  obtain ⟨bytes, hbytes⟩ := h.exists_bytes
  rw [Settings.loadIn_named, if_pos (present_of_fileAt? hbytes), loadFile_eq]
  -- the path has no directory, so nothing comes in front
  have hparent : fileName.parent? = some ⟨[]⟩ := by decide
  refine congrArg _ (funext fun stored => ?_)
  rw [ofStored, hparent]
  show checked ⟨Path.join ⟨[]⟩ stored.dir, _, _⟩ = _
  rw [Path.nil_join]

/-- The settings, when the file is found. -/
theorem loadIn_found (h : Furnished t) :
    loadIn t none none = (storedAt t.still fileName).bind fun stored =>
      checked ⟨(pathOf t.current).join stored.dir, stored.maxDepth.getD defaultMaxDepth,
        some (ownFile t)⟩ := by
  obtain ⟨bytes, hnearest⟩ := h.nearestFile?
  have hparent : (ownFile t).parent? = some (pathOf t.current) := by
    rw [ownFile, FileTree.join_fileName h.leads]
    exact FileTree.parent?_pathOf h.leads.isName FileTree.walkable_fileName.isName
  rw [Settings.loadIn_found, hnearest]
  dsimp only
  rw [loadFile_eq, h.storedAt_ownFile]
  refine congrArg _ (funext fun stored => ?_)
  rw [ofStored, hparent]
  rfl

/-- **The two ways agree**, unless the file gives an empty source directory. -/
theorem alike (h : Furnished t)
    (hdir : ∀ depth, storedAt t.still fileName ≠ .ok ⟨some "", depth⟩) (o : Option Overrides) :
    Alike (pathOf t.current) (loadIn t (some fileName) o) (loadIn t none o) := by
  have hown : Alike (pathOf t.current) (loadIn t (some fileName) none) (loadIn t none none) := by
    rw [h.loadIn_named, h.loadIn_found]
    cases hstored : storedAt t.still fileName with
    | error fault => exact .fault fault
    | ok stored =>
        have hne : stored.dir.chars ≠ [] := by
          refine Stored.dir_ne_nil fun heq => hdir stored.maxDepth ?_
          rw [hstored, ← heq]
        have hjoin : ((pathOf t.current).join stored.dir).chars ≠ [] := Path.join_ne_nil _ hne
        refine .checked rfl (Path.join_join (isAbsolute_pathOf _) _).symm ?_
        exact (List.isEmpty_eq_false_iff.2 hne).trans (List.isEmpty_eq_false_iff.2 hjoin).symm
  cases o with
  | none => exact hown
  | some o =>
      have hloaded : ∀ named s, loadIn t named none = .ok s → s.sourceDir.chars ≠ [] := by
        intro named s hload
        exact (validate_eq_ok_iff.1 (load_ok hload).1).1
      rw [loadIn_some, loadIn_some]
      exact hown.overridden o (hloaded _) (hloaded _)

/-- A file that is named is refused if it gives an empty source directory. -/
theorem load_named_empty (h : Furnished t) {depth : Option Nat}
    (hstored : storedAt t.still fileName = .ok ⟨some "", depth⟩) (o : Option Overrides) :
    loadIn t (some fileName) o = .error (.invalid .noSourceDir) := by
  have hown : loadIn t (some fileName) none = .error (.invalid .noSourceDir) := by
    rw [h.loadIn_named, hstored]
    rfl
  cases o with
  | none => exact hown
  | some o =>
      rw [loadIn_some, hown]
      rfl

/-- If it is found, the source directory is the working directory. -/
theorem load_found_empty (h : Furnished t) {depth : Option Nat}
    (hstored : storedAt t.still fileName = .ok ⟨some "", depth⟩) :
    loadIn t none none = checked ⟨(pathOf t.current).join ⟨[]⟩, depth.getD defaultMaxDepth,
      some (ownFile t)⟩ := by
  rw [h.loadIn_found, hstored]
  rfl

end Furnished

/-- **A settings file that is named, and one that is found.**  If the file of the working
    directory does not give an empty source directory, it comes to the same fault, or to the
    same limit of nesting and to source directories that are the same seen from the working
    directory, and lead to the same.  If it does, it is refused when it is named, and gives the
    working directory when it is found. -/
theorem load_named_found (t : FileTree) (o : Option Overrides) (h : Furnished t) :
    ((∀ depth, storedAt t.still fileName ≠ .ok ⟨some "", depth⟩) →
      Alike (pathOf t.current) (loadIn t (some fileName) o) (loadIn t none o)) ∧
    (∀ s s', loadIn t (some fileName) o = .ok s → loadIn t none o = .ok s' →
      Text.bytes ((pathOf t.current).join s.sourceDir).chars ≤ maxPathLength →
      t.resolve s.sourceDir = t.resolve s'.sourceDir) ∧
    ∀ depth, storedAt t.still fileName = .ok ⟨some "", depth⟩ →
      loadIn t (some fileName) o = .error (.invalid .noSourceDir) ∧
        loadIn t none none = checked ⟨(pathOf t.current).join ⟨[]⟩, depth.getD defaultMaxDepth,
          some (ownFile t)⟩ := by
  refine ⟨fun hdir => h.alike hdir o, fun s s' hnamed hfound hshort => ?_, fun depth hstored => ?_⟩
  · have hdir : ∀ depth, storedAt t.still fileName ≠ .ok ⟨some "", depth⟩ := by
      intro depth hstored
      cases hnamed.symm.trans (h.load_named_empty hstored o)
    have halike := h.alike hdir o
    rw [hnamed, hfound] at halike
    cases halike with | settings _ hjoin =>
    have hne : s.sourceDir.chars ≠ [] := (validate_eq_ok_iff.1 (load_ok hnamed).1).1
    have hne' : s'.sourceDir.chars ≠ [] := (validate_eq_ok_iff.1 (load_ok hfound).1).1
    rw [← FileTree.resolve_join_current h.leads hne hshort,
      ← FileTree.resolve_join_current h.leads hne' (hjoin ▸ hshort), hjoin]
  · exact ⟨h.load_named_empty hstored o, h.load_found_empty hstored⟩

/-! ## §4. Trees with a settings file in the working directory. -/

theorem resolve_of_node {bytes : ByteArray} (hleads : t.Leads t.current)
    (hnode : t.node? (t.current ++ [fileName.chars]) = some (.file bytes))
    (hshort : Text.bytes (ownFile t).chars ≤ maxPathLength) :
    t.resolve fileName = .ok (t.current ++ [fileName.chars], .file bytes) := by
  rw [← FileTree.resolve_join_current hleads (by decide) hshort]
  rw [ownFile, FileTree.join_fileName hleads] at hshort
  rw [FileTree.join_fileName hleads,
    FileTree.resolve_pathOf_append hleads FileTree.walkable_fileName hshort, hnode]
  rw [hnode]
  exact nofun

theorem storedAt_of_resolve {place : Place} {text : String} {stored : Stored}
    (hresolve : t.resolve fileName = .ok (place, .file text.toUTF8))
    (hparse : Stored.parse? text = some stored) :
    storedAt t.still fileName = (expandDir t.variableValue? stored.sourceDir).map fun dir =>
      ⟨dir, stored.maxDepth⟩ := by
  have hread : (t.still.read fileName).run = .ok text :=
    (FileTree.read_of_resolve hresolve).trans (FileTree.textOf_toUTF8 text)
  rw [storedAt, hread]
  dsimp only
  rw [hparse]
  rfl

theorem furnished_of_node {bytes : ByteArray} (hleads : t.Leads t.current)
    (hnode : t.node? (t.current ++ [fileName.chars]) = some (.file bytes))
    (hshort : Text.bytes (ownFile t).chars ≤ maxPathLength) : Furnished t where
  leads := hleads
  isFile := by
    rw [FileTree.isFile, resolve_of_node hleads hnode hshort]
  short := hshort

/-- A tree with the working directory `d`, and with a settings file of this text in it. -/
def dirTree (text : String) : FileTree :=
  ⟨[([['d']], .directory), ([['d'], fileName.chars], .file text.toUTF8)], [['d']], []⟩

theorem leads_dirTree (text : String) : (dirTree text).Leads (dirTree text).current := by
  have hd : FileTree.Walkable ['d'] := ⟨⟨by decide, by decide⟩, by decide, by decide⟩
  exact (FileTree.leads_nil _).append_singleton hd rfl

/-- In a directory below the root, the two ways agree on the directory `a` below it. -/
theorem load_named_found_dir :
    let t := dirTree "[docs]\nsource_dir = \"a\"\n"
    Furnished t ∧ storedAt t.still fileName = .ok ⟨some "a", none⟩ ∧
      loadIn t (some fileName) none = .ok ⟨.ofString "a", 10, some fileName⟩ ∧
      loadIn t none none = .ok ⟨.ofString "/d/a", 10, some (.ofString "/d/rw.toml")⟩ ∧
      Alike (.ofString "/d") (loadIn t (some fileName) none) (loadIn t none none) ∧
      t.resolve (.ofString "a") = t.resolve (.ofString "/d/a") := by
  intro t
  have hshort : Text.bytes (ownFile t).chars ≤ maxPathLength := by decide
  have hnode : t.node? (t.current ++ [fileName.chars]) =
      some (.file "[docs]\nsource_dir = \"a\"\n".toUTF8) := rfl
  have h : Furnished t := furnished_of_node (leads_dirTree _) hnode hshort
  have hstored : storedAt t.still fileName = .ok ⟨some "a", none⟩ := by
    rw [storedAt_of_resolve (resolve_of_node (leads_dirTree _) hnode hshort)
      (show Stored.parse? _ = some ⟨some "a", none⟩ by decide +kernel)]
    rfl
  have hnamed : loadIn t (some fileName) none = .ok ⟨.ofString "a", 10, some fileName⟩ := by
    rw [h.loadIn_named, hstored]
    decide +kernel
  have hfound : loadIn t none none =
      .ok ⟨.ofString "/d/a", 10, some (.ofString "/d/rw.toml")⟩ := by
    rw [h.loadIn_found, hstored]
    decide +kernel
  obtain ⟨halike, hsame, -⟩ := load_named_found t none h
  refine ⟨h, hstored, hnamed, hfound, halike fun depth heq => ?_, ?_⟩
  · simp [hstored] at heq
  · exact hsame _ _ hnamed hfound (by decide)

/-- **An empty source directory is refused when the file is named, and not when it is found.** -/
theorem load_named_found_empty :
    let t := rootTree "[docs]\nsource_dir = \"\"\n"
    Furnished t ∧ loadIn t (some fileName) none = .error (.invalid .noSourceDir) ∧
      loadIn t none none = .ok ⟨.ofString "/", 10, some rootFile⟩ := by
  intro t
  have hleads : t.Leads t.current := FileTree.leads_nil t
  have hshort : Text.bytes (ownFile t).chars ≤ maxPathLength := by decide
  have hnode : t.node? (t.current ++ [fileName.chars]) =
      some (.file "[docs]\nsource_dir = \"\"\n".toUTF8) := rfl
  have h : Furnished t := furnished_of_node hleads hnode hshort
  have hstored : storedAt t.still fileName = .ok ⟨some "", none⟩ := by
    rw [storedAt_of_resolve (resolve_of_node hleads hnode hshort)
      (show Stored.parse? _ = some ⟨some "", none⟩ by decide +kernel)]
    rfl
  refine ⟨h, h.load_named_empty hstored none, ?_⟩
  rw [h.load_found_empty hstored]
  decide +kernel

end Settings

end TagExpander
