/-
  TagExpander.Proofs.Settings.Precedence — settings of the command line over those of a file.

  The file is loaded and checked by itself first; then the settings of the command line take
  the place of its own, and the result is checked once more:

      file  ── load, check ──→  settings  ── override ──→  settings  ── check ──→  result
                     │                                          │
                     ↓ fault                                    ↓ fault

  So what the file holds in the place of an overridden setting is not seen in the result,
  but it must pass the first check: a file that cannot be loaded by itself cannot be loaded
  with settings that would mend it either.

  Main results:
    * `load_some` — the two stages of loading.
    * `load_overrides` — which of the file's settings can be seen.
    * `load_checks_overridden` — settings that are overridden, and still checked.
-/
import Mathlib.Data.String.Basic
import TagExpander.Proofs.FileTree.Rewriting
import TagExpander.Proofs.Settings.Loading

namespace TagExpander.Settings

/-! ## §1. The two stages. -/

/-- The settings, if they are valid. -/
def checked (s : Settings) : Except Fault Settings :=
  s.validate.map fun _ => s

theorem checked_eq_ok_iff {s s' : Settings} :
    checked s = .ok s' ↔ s' = s ∧ s.validate = .ok () := by
  rw [checked]
  cases s.validate with
  | error fault => exact iff_of_false nofun fun h => nomatch h.2
  | ok _ => exact ⟨fun h => ⟨(Except.ok.inj h).symm, rfl⟩, fun h => congrArg Except.ok h.1.symm⟩

theorem checked_eq_error_iff {s : Settings} {fault : Fault} :
    checked s = .error fault ↔ s.validate = .error fault := by
  rw [checked]
  cases s.validate with
  | error fault' =>
      show Except.error fault' = .error fault ↔ Except.error fault' = .error fault
      rw [Except.error.injEq, Except.error.injEq]
  | ok _ => exact iff_of_false nofun nofun

section Stages

variable {m : Type → Type} [Monad m] [LawfulMonad m] (shell : Shell m) (named : Option Path)

theorem load_none : load shell named none = loadBase shell named := by
  refine Eq.trans (bind_congr fun result => ?_) (bind_pure _)
  cases result <;> rfl

/-- **The two stages of loading**: the settings by themselves, and then with overrides. -/
theorem load_some (o : Overrides) :
    load shell named (some o) =
      (fun result => result.bind fun s => checked (s.override o)) <$> load shell named none := by
  rw [load_none, map_eq_pure_bind]
  refine bind_congr fun result => ?_
  cases result <;> rfl

end Stages

/-! ## §2. Files that differ in what is overridden. -/

/-- A depth that a file may hold. -/
def DepthSound (depth : Option Nat) : Prop :=
  ∀ n, depth = some n → 1 ≤ n ∧ n ≤ maxDepthLimit

/-- A source directory that a file may hold: all variables in it are set, and it is not empty. -/
def DirSound (value? : String → Option String) (dir : Option String) : Prop :=
  ∀ text, dir = some text →
    ∃ expanded, expandReferences (m := Id) value? text = .ok expanded ∧ expanded ≠ ""

/-- Two files hold the same settings, apart from sound ones that are overridden. -/
structure SameBut (value? : String → Option String) (o : Overrides) (a b : Stored) : Prop where
  sourceDir : a.sourceDir = b.sourceDir ∨
    o.sourceDir ≠ none ∧ DirSound value? a.sourceDir ∧ DirSound value? b.sourceDir
  maxDepth : a.maxDepth = b.maxDepth ∨
    o.maxDepth ≠ none ∧ DepthSound a.maxDepth ∧ DepthSound b.maxDepth

section Files

variable {value? : String → Option String} {o : Overrides} {shell : Shell Id} {path : Path}

/-- Settings that are checked by themselves, and then once more with overrides. -/
def checkedTwice (o : Overrides) (s : Settings) : Except Fault Settings :=
  (checked s).bind fun s => checked (s.override o)

/-- A value that is overridden does not matter. -/
theorem getD_eq_of_given {α : Type} {given : Option α} {x y : α} (h : x = y ∨ given ≠ none) :
    given.getD x = given.getD y := by
  cases given with
  | none => exact h.resolve_right fun hgiven => hgiven rfl
  | some _ => rfl

/-- Settings that differ only where they are sound and overridden pass the checks alike. -/
theorem checkedTwice_congr {s s' : Settings}
    (hdir : s.sourceDir = s'.sourceDir ∨
      o.sourceDir ≠ none ∧ s.sourceDir.chars ≠ [] ∧ s'.sourceDir.chars ≠ [])
    (hdepth : s.maxDepth = s'.maxDepth ∨ o.maxDepth ≠ none ∧
      (1 ≤ s.maxDepth ∧ s.maxDepth ≤ maxDepthLimit) ∧
      (1 ≤ s'.maxDepth ∧ s'.maxDepth ≤ maxDepthLimit))
    (hfile : s.file = s'.file) : checkedTwice o s = checkedTwice o s' := by
  have hoverride : s.override o = s'.override o := by
    rw [override, override, getD_eq_of_given (hdir.imp_right And.left),
      getD_eq_of_given (hdepth.imp_right And.left), hfile]
  have hvalidate : s.validate = s'.validate := by
    have hempty : s.sourceDir.chars.isEmpty = s'.sourceDir.chars.isEmpty := by
      rcases hdir with heq | ⟨-, hne, hne'⟩
      · rw [heq]
      · rw [List.isEmpty_eq_false_iff.2 hne, List.isEmpty_eq_false_iff.2 hne']
    rcases hdepth with heq | ⟨-, ⟨hpos, hle⟩, hpos', hle'⟩
    · rw [validate, validate, hempty, heq]
    · rw [validate, validate, hempty, if_neg (Nat.ne_of_gt hpos), if_neg (Nat.not_lt.2 hle),
        if_neg (Nat.ne_of_gt hpos'), if_neg (Nat.not_lt.2 hle')]
  rw [checkedTwice, checkedTwice, checked, checked, hvalidate]
  cases s'.validate with
  | error fault => rfl
  | ok _ => exact congrArg checked hoverride

/-- A limit of nesting that is sound is within the bounds, or the default is. -/
theorem DepthSound.bounds {depth : Option Nat} (h : DepthSound depth) :
    1 ≤ depth.getD defaultMaxDepth ∧ depth.getD defaultMaxDepth ≤ maxDepthLimit := by
  cases depth with
  | none => decide
  | some n => exact h n rfl

/-- The source directory of a file, with its references replaced. -/
def expandDir (value? : String → Option String) : Option String → Except Fault (Option String)
  | none => .ok none
  | some text =>
    match (expandReferences (m := Id) value? text).run with
    | .ok dir => .ok (some dir)
    | .error name => .error (.unset "docs.source_dir" name)

theorem DirSound.expandDir {dir : Option String} (h : DirSound value? dir) :
    ∃ dir', Settings.expandDir value? dir = .ok dir' ∧ dir' ≠ some "" := by
  cases dir with
  | none => exact ⟨none, rfl, nofun⟩
  | some text =>
      obtain ⟨expanded, hexpand, hne⟩ := h text rfl
      refine ⟨some expanded, ?_, fun heq => hne (Option.some.inj heq)⟩
      rw [Settings.expandDir, show (expandReferences (m := Id) value? text).run = _ from hexpand]

theorem expandStored_eq (stored : Stored) :
    (expandStored shell stored).run =
      (expandDir shell.environment stored.sourceDir).map fun dir => ⟨dir, stored.maxDepth⟩ := by
  obtain ⟨dir, depth⟩ := stored
  cases dir with
  | none => rfl
  | some text =>
      show (match (expandReferences shell.environment text).run with | .ok _ => _ | .error _ => _) =
        Except.map _ (match (expandReferences shell.environment text).run with
          | .ok _ => _ | .error _ => _)
      cases (expandReferences shell.environment text).run <;> rfl

/-- The source directory that a settings file gives. -/
def Stored.dir (stored : Stored) : Path :=
  (stored.sourceDir.map Path.ofString).getD defaultSourceDir

theorem Stored.dir_ne_nil {stored : Stored} (h : stored.sourceDir ≠ some "") :
    stored.dir.chars ≠ [] := by
  rw [dir]
  cases hdir : stored.sourceDir with
  | none => decide
  | some text =>
      rw [hdir] at h
      intro hnil
      exact h (congrArg some (String.toList_eq_nil_iff.1 hnil))

/-- The source directory of a file is not empty if what is written there is not. -/
theorem sourceDir_ofStored_ne_nil {stored : Stored} (h : stored.sourceDir ≠ some "") :
    (ofStored path stored).sourceDir.chars ≠ [] :=
  Path.join_ne_nil _ (Stored.dir_ne_nil h)

/-- What a settings file holds, with its references replaced. -/
def storedAt (shell : Shell Id) (path : Path) : Except Fault Stored :=
  match (shell.read path).run with
  | .error cause => .error (.unreadable cause)
  | .ok text =>
    match Stored.parse? text with
    | none => .error .unparsable
    | some stored =>
      (expandDir shell.environment stored.sourceDir).map fun dir => ⟨dir, stored.maxDepth⟩

/-- The settings of a file are what it holds, checked. -/
theorem loadFile_eq (shell : Shell Id) (path : Path) :
    (loadFile shell path).run =
      (storedAt shell path).bind fun stored => checked (ofStored path stored) := by
  obtain ⟨text, hread⟩ : ∃ result, shell.read path = pure result := ⟨_, rfl⟩
  rw [loadFile, storedAt, hread, pure_bind]
  cases text with
  | error cause => rfl
  | ok text =>
      dsimp only [Id.run_pure]
      cases Stored.parse? text with
      | none => rfl
      | some stored =>
          dsimp only
          rw [← expandStored_eq]
          obtain ⟨expanded, hexpand⟩ : ∃ result, expandStored shell stored = pure result :=
            ⟨_, rfl⟩
          rw [hexpand, pure_bind]
          cases expanded <;> rfl

/-- The settings of a file, with overrides. -/
theorem loadFile_overridden {text : String} {stored : Stored} (hread : shell.read path = .ok text)
    (hparse : Stored.parse? text = some stored) :
    ((loadFile shell path).run.bind fun s => checked (s.override o)) =
      (expandDir shell.environment stored.sourceDir).bind fun dir =>
        checkedTwice o (ofStored path ⟨dir, stored.maxDepth⟩) := by
  have hread' : (shell.read path).run = .ok text := hread
  rw [loadFile_eq, storedAt, hread']
  dsimp only
  rw [hparse]
  dsimp only
  cases expandDir shell.environment stored.sourceDir <;> rfl

/-- Only the text of a file and the environment matter. -/
theorem loadFile_congr {shell' : Shell Id} (hread : shell.read path = shell'.read path)
    (henvironment : shell.environment = shell'.environment) :
    loadFile shell path = loadFile shell' path := by
  unfold loadFile expandStored
  rw [hread, henvironment]

/-- **Two files that differ only where they are sound and overridden** come to the same. -/
theorem expandDir_congr {a b : Stored} (h : SameBut value? o a b) :
    ((expandDir value? a.sourceDir).bind fun dir =>
        checkedTwice o (ofStored path ⟨dir, a.maxDepth⟩)) =
      (expandDir value? b.sourceDir).bind fun dir =>
        checkedTwice o (ofStored path ⟨dir, b.maxDepth⟩) := by
  -- the two checks see of the depth only whether it is within the bounds
  have hdepth : ∀ dir dir', (ofStored path ⟨dir, a.maxDepth⟩).maxDepth =
        (ofStored path ⟨dir', b.maxDepth⟩).maxDepth ∨ o.maxDepth ≠ none ∧
      (1 ≤ (ofStored path ⟨dir, a.maxDepth⟩).maxDepth ∧
        (ofStored path ⟨dir, a.maxDepth⟩).maxDepth ≤ maxDepthLimit) ∧
      (1 ≤ (ofStored path ⟨dir', b.maxDepth⟩).maxDepth ∧
        (ofStored path ⟨dir', b.maxDepth⟩).maxDepth ≤ maxDepthLimit) := by
    intro dir dir'
    rcases h.maxDepth with heq | ⟨hgiven, ha, hb⟩
    · exact .inl (congrArg (Option.getD · defaultMaxDepth) heq)
    · exact .inr ⟨hgiven, ha.bounds, hb.bounds⟩
  rcases h.sourceDir with heq | ⟨hgiven, ha, hb⟩
  · rw [heq]
    cases expandDir value? b.sourceDir with
    | error fault => rfl
    | ok dir => exact checkedTwice_congr (.inl rfl) (hdepth dir dir) rfl
  · obtain ⟨dir, hdir, hne⟩ := ha.expandDir
    obtain ⟨dir', hdir', hne'⟩ := hb.expandDir
    rw [hdir, hdir']
    exact checkedTwice_congr (.inr ⟨hgiven, sourceDir_ofStored_ne_nil hne,
      sourceDir_ofStored_ne_nil hne'⟩) (hdepth dir dir') rfl

end Files

/-! ## §3. Trees that differ in one file. -/

/-- What loading the settings comes to in a tree. -/
def loadIn (t : FileTree) (named : Option Path) (overrides : Option Overrides) :
    Except Fault Settings :=
  ((load FileTree.shell named overrides).run t).run.1

theorem loadIn_eq (t : FileTree) (named : Option Path) (overrides : Option Overrides) :
    loadIn t named overrides = (load t.still named overrides).run :=
  congrArg Prod.fst (answers_load t named overrides)

theorem loadIn_some (t : FileTree) (named : Option Path) (o : Overrides) :
    loadIn t named (some o) = (loadIn t named none).bind fun s => checked (s.override o) := by
  rw [loadIn_eq, loadIn_eq, load_some]
  rfl

/-- The bytes are a text that holds these settings. -/
def Holds (bytes : ByteArray) (stored : Stored) : Prop :=
  ∃ text, FileTree.textOf bytes = .ok text ∧ Stored.parse? text = some stored

section Rewrite

variable {t : FileTree} {place : Place} {old new : ByteArray} {o : Overrides} {a b : Stored}
  (hfile : t.node? place = some (.file old)) (hold : Holds old a) (hnew : Holds new b)
  (hsame : SameBut t.variableValue? o a b)
include hfile

theorem firstFile?_rewrite (paths : List Path) :
    firstFile? (t.put place (.file new)).still paths = firstFile? t.still paths := by
  induction paths with
  | nil => rfl
  | cons path paths ih =>
      rw [firstFile?, firstFile?, ih]
      show (if (t.put place (.file new)).isFile path then _ else _ : Id (Option Path)) =
        if t.isFile path then _ else _
      rw [FileTree.isFile_rewrite hfile]

include hold hnew hsame

theorem loadFile_rewrite (path : Path) :
    ((loadFile (t.put place (.file new)).still path).run.bind fun s => checked (s.override o)) =
      (loadFile t.still path).run.bind fun s => checked (s.override o) := by
  obtain ⟨text, htext, ha⟩ := hold
  obtain ⟨text', htext', hb⟩ := hnew
  rcases FileTree.read_rewrite hfile new path with ⟨hread, hread'⟩ | hread
  · rw [loadFile_overridden (hread'.trans htext') hb, loadFile_overridden (hread.trans htext) ha]
    exact (expandDir_congr hsame).symm
  · have hcongr : loadFile (t.put place (.file new)).still path = loadFile t.still path :=
      loadFile_congr hread rfl
    rw [hcongr]

/-- **The same settings are loaded**, with overrides, after the file was given other bytes. -/
theorem loadIn_rewrite (named : Option Path) :
    loadIn (t.put place (.file new)) named (some o) = loadIn t named (some o) := by
  have hload := loadFile_rewrite hfile hold hnew hsame
  rw [loadIn_eq, loadIn_eq, load_some, load_some, load_none, load_none]
  show ((loadBase (t.put place (.file new)).still named).run.bind _) =
    (loadBase t.still named).run.bind _
  cases named with
  | some path =>
      have hpresent : (t.put place (.file new)).still.present path = t.still.present path :=
        FileTree.present_rewrite hfile new path
      rw [loadBase_some, loadBase_some, hpresent]
      split
      · exact hload path
      · rfl
  | none =>
      have hdiscover : discover? (t.put place (.file new)).still (FileTree.pathOf t.current) =
          discover? t.still (FileTree.pathOf t.current) := firstFile?_rewrite hfile _
      have hdir : (t.put place (.file new)).still.currentDir =
          some (FileTree.pathOf t.current) := rfl
      have hdir' : t.still.currentDir = some (FileTree.pathOf t.current) := rfl
      rw [loadBase_none hdir, loadBase_none hdir', hdiscover]
      cases (discover? t.still (FileTree.pathOf t.current)).run with
      | some path => exact hload path
      | none => rfl

end Rewrite

/-- A file that is named is loaded and checked by itself, and then with the overrides. -/
theorem loadIn_of_read {t : FileTree} {path : Path} {text : String} {stored : Stored}
    (hpresent : t.present path = true) (hread : t.read path = .ok text)
    (hparse : Stored.parse? text = some stored) (o : Overrides) :
    loadIn t (some path) (some o) = (expandDir t.variableValue? stored.sourceDir).bind fun dir =>
      checkedTwice o (ofStored path ⟨dir, stored.maxDepth⟩) := by
  have hpresent' : (t.still.present path).run = true := hpresent
  rw [loadIn_some, loadIn_eq, load_none, loadBase_some, if_pos hpresent']
  exact loadFile_overridden hread hparse

/-! ## §4. Overrides. -/

/-- **What overrides do.**  Settings are loaded with overrides exactly if they are loaded
    without, and are valid with the overrides in their place.  A file may be given any
    other settings where they are overridden, as long as these are sound by themselves. -/
theorem load_overrides (t : FileTree) (named : Option Path) (o : Overrides) :
    (∀ s, loadIn t named (some o) = .ok s ↔
      ∃ own, loadIn t named none = .ok own ∧ s = own.override o ∧ s.validate = .ok ()) ∧
    (∀ fault, loadIn t named (some o) = .error fault ↔
      loadIn t named none = .error fault ∨
        ∃ own, loadIn t named none = .ok own ∧ (own.override o).validate = .error fault) ∧
    ∀ place old new a b, t.node? place = some (.file old) → Holds old a → Holds new b →
      SameBut t.variableValue? o a b →
      loadIn (t.put place (.file new)) named (some o) = loadIn t named (some o) := by
  refine ⟨fun s => ?_, fun fault => ?_, ?_⟩
  · rw [loadIn_some]
    cases loadIn t named none with
    | error fault => exact iff_of_false nofun fun ⟨own, hown, _⟩ => nomatch hown
    | ok own =>
        show checked (own.override o) = .ok s ↔ _
        rw [checked_eq_ok_iff]
        constructor
        · rintro ⟨rfl, hvalid⟩
          exact ⟨own, rfl, rfl, hvalid⟩
        · rintro ⟨own, ⟨⟩, rfl, hvalid⟩
          exact ⟨rfl, hvalid⟩
  · rw [loadIn_some]
    cases loadIn t named none with
    | error own =>
        show Except.error own = .error fault ↔ _
        exact (or_iff_left fun ⟨own, hown, _⟩ => nomatch hown).symm
    | ok own =>
        show checked (own.override o) = .error fault ↔ _
        rw [checked_eq_error_iff]
        constructor
        · intro h
          exact .inr ⟨own, rfl, h⟩
        · rintro (h | ⟨own, ⟨⟩, h⟩)
          · cases h
          · exact h
  · intro place old new a b hfile hold hnew hsame
    exact loadIn_rewrite hfile hold hnew hsame named

/-- A tree with a settings file of this text at its root. -/
def rootTree (text : String) : FileTree :=
  ⟨[([fileName.chars], .file text.toUTF8)], [], []⟩

/-- The settings file of such a tree. -/
def rootFile : Path := .ofString "/rw.toml"

theorem resolve_rootTree (text : String) :
    (rootTree text).resolve rootFile = .ok ([fileName.chars], .file text.toUTF8) := by
  have hlocate : (rootTree text).locate false rootFile =
      (rootTree text).walk false FileTree.maxLinks [] [[], fileName.chars] := rfl
  have hroot : (rootTree text).node? [] = some .directory := rfl
  have hfile : (rootTree text).node? [fileName.chars] = some (.file text.toUTF8) := rfl
  rw [FileTree.resolve, hlocate, FileTree.walk, hroot]
  dsimp only
  rw [if_pos (.inl rfl), FileTree.walk_name hroot (by decide) (by decide) (by decide) (by decide),
    List.nil_append, hfile]
  dsimp only
  rw [FileTree.walk, hfile]

/-- What a settings file of this text comes to. -/
theorem loadIn_rootTree {text : String} {stored : Stored}
    (hparse : Stored.parse? text = some stored) (o : Overrides) :
    loadIn (rootTree text) (some rootFile) (some o) =
      (expandDir (rootTree text).variableValue? stored.sourceDir).bind fun dir =>
        checkedTwice o (ofStored rootFile ⟨dir, stored.maxDepth⟩) := by
  have hpresent : (rootTree text).present rootFile = true := by
    rw [FileTree.present, FileTree.canonical, resolve_rootTree]
    rfl
  have hread : (rootTree text).read rootFile = .ok text :=
    (FileTree.read_of_resolve (resolve_rootTree text)).trans (FileTree.textOf_toUTF8 text)
  exact loadIn_of_read hpresent hread hparse o

/-- A limit of nesting that is overridden may be any other one within the bounds. -/
theorem load_overrides_depth :
    let four := "[shortcodes]\nmax_depth = 4\n"
    let most := "[shortcodes]\nmax_depth = 1000\n"
    let o : Overrides := ⟨none, some 5⟩
    let t := rootTree four
    (t.node? [fileName.chars] = some (.file four.toUTF8) ∧ Holds four.toUTF8 ⟨none, some 4⟩ ∧
        Holds most.toUTF8 ⟨none, some 1000⟩ ∧
        SameBut t.variableValue? o ⟨none, some 4⟩ ⟨none, some 1000⟩) ∧
      loadIn t (some rootFile) (some o) = .ok ⟨.ofString "/docs", 5, some rootFile⟩ ∧
      loadIn (t.put [fileName.chars] (.file most.toUTF8)) (some rootFile) (some o) =
        .ok ⟨.ofString "/docs", 5, some rootFile⟩ := by
  intro four most o t
  have hfile : t.node? [fileName.chars] = some (.file four.toUTF8) := rfl
  have hparse : Stored.parse? four = some ⟨none, some 4⟩ := by decide +kernel
  have hfour : Holds four.toUTF8 ⟨none, some 4⟩ := ⟨four, FileTree.textOf_toUTF8 four, hparse⟩
  have hmost : Holds most.toUTF8 ⟨none, some 1000⟩ :=
    ⟨most, FileTree.textOf_toUTF8 most, by decide +kernel⟩
  have hsame : SameBut t.variableValue? o ⟨none, some 4⟩ ⟨none, some 1000⟩ := by
    refine ⟨.inl rfl, .inr ⟨nofun, ?_, ?_⟩⟩
    · rintro n ⟨⟩
      decide
    · rintro n ⟨⟩
      decide
  have hload : loadIn t (some rootFile) (some o) = .ok ⟨.ofString "/docs", 5, some rootFile⟩ := by
    rw [loadIn_rootTree hparse]
    decide +kernel
  refine ⟨⟨hfile, hfour, hmost, hsame⟩, hload, ?_⟩
  rw [(load_overrides t (some rootFile) o).2.2 _ _ _ _ _ hfile hfour hmost hsame]
  exact hload

/-- **What is overridden is still checked.**  With a limit of nesting of 0 in the file, the
    settings cannot be loaded, although the limit is overridden and nothing else is wrong; with
    another one in its place they can.  So it is with a source directory that refers to a
    variable that is not set. -/
theorem load_checks_overridden :
    (Stored.parse? "[shortcodes]\nmax_depth = 4\n" = some ⟨none, some 4⟩ ∧
      Stored.parse? "[shortcodes]\nmax_depth = 0\n" = some ⟨none, some 0⟩ ∧
      loadIn (rootTree "[shortcodes]\nmax_depth = 4\n") (some rootFile) (some ⟨none, some 5⟩) =
        .ok ⟨.ofString "/docs", 5, some rootFile⟩ ∧
      loadIn (rootTree "[shortcodes]\nmax_depth = 0\n") (some rootFile) (some ⟨none, some 5⟩) =
        .error (.invalid .noDepth)) ∧
    (Stored.parse? "[docs]\nsource_dir = \"a\"\n" = some ⟨some "a", none⟩ ∧
      Stored.parse? "[docs]\nsource_dir = \"$\x7bA\x7d\"\n" = some ⟨some "$\x7bA\x7d", none⟩ ∧
      loadIn (rootTree "[docs]\nsource_dir = \"a\"\n") (some rootFile)
          (some ⟨some (.ofString "b"), none⟩) = .ok ⟨.ofString "b", 10, some rootFile⟩ ∧
      loadIn (rootTree "[docs]\nsource_dir = \"$\x7bA\x7d\"\n") (some rootFile)
          (some ⟨some (.ofString "b"), none⟩) = .error (.unset "docs.source_dir" "A")) := by
  have hfour : Stored.parse? "[shortcodes]\nmax_depth = 4\n" = some ⟨none, some 4⟩ := by
    decide +kernel
  have hzero : Stored.parse? "[shortcodes]\nmax_depth = 0\n" = some ⟨none, some 0⟩ := by
    decide +kernel
  have hplain : Stored.parse? "[docs]\nsource_dir = \"a\"\n" = some ⟨some "a", none⟩ := by
    decide +kernel
  have hunset : Stored.parse? "[docs]\nsource_dir = \"$\x7bA\x7d\"\n" =
      some ⟨some "$\x7bA\x7d", none⟩ := by decide +kernel
  refine ⟨⟨hfour, hzero, ?_, ?_⟩, hplain, hunset, ?_, ?_⟩
  · rw [loadIn_rootTree hfour]
    decide +kernel
  · rw [loadIn_rootTree hzero]
    decide +kernel
  · rw [loadIn_rootTree hplain]
    decide +kernel
  · rw [loadIn_rootTree hunset]
    decide +kernel

end TagExpander.Settings
