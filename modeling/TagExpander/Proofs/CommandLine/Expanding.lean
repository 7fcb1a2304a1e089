/-
  TagExpander.Proofs.CommandLine.Expanding — the document that the command comes to.

  The command loads the settings, reads the file and its metadata, and expands the tags:

      settings ──→ text ──→ metadata ──→ pass ──→ document
         │           │         │          │
         ↓           ↓         ↓          ↓          a fault

  None of these steps does more than look at the tree.

  Main results:
    * `answers_process`, `answers_expand` — a pass only looks at the tree, and so do all steps
      up to the document.
    * `run_expand_eq_ok` — the document that these steps come to.
-/
import TagExpander.CommandLine.Run
import TagExpander.Proofs.Pass.Independent
import TagExpander.Proofs.Pass.Seams
import TagExpander.Proofs.Settings.Precedence

namespace TagExpander

/-! ## §1. Passes that only look. -/

/-- Computations that look at a tree. -/
abbrev Looking := ReaderM FileTree

/-- The files of the tree that is looked at. -/
def Looking.files : Files Looking where
  read path t := t.read path
  canonical path t := t.canonical path

/-- A look at the tree is a step that leaves it alone. -/
def Translation.ofLooking : Translation Looking (StateM FileTree) where
  app x t := (x t, t)
  app_pure _ := rfl
  app_bind _ _ := rfl

/-- A look at a tree that is known. -/
def Translation.lookAt (t : FileTree) : Translation Looking Id where
  app x := x t
  app_pure _ := rfl
  app_bind _ _ := rfl

/-- **A pass only looks at the tree.** -/
theorem FileTree.answers_process {σ : Type} (t : FileTree) (e : Expander Looking σ)
    (document : Document) (signal : StopSignal) :
    t.Answers ((e.withFiles FileTree.shell.toFiles).process document signal)
      ((e.withFiles t.still.toFiles).process document signal) := by
  -- both passes are translations of one that looks at a tree
  have hstate := Pass.process_translate .ofLooking { e with files := Looking.files } document signal
  have hstill := Pass.process_translate (.lookAt t) { e with files := Looking.files } document signal
  have hrun := congrFun hstate t
  show (e.withFiles FileTree.shell.toFiles).process document signal t = _
  rw [show (e.withFiles FileTree.shell.toFiles).process document signal t = _ from hrun.symm]
  exact congrArg (·, t) hstill

namespace FileTree.Answers

variable {t : FileTree} {ε α β : Type}

/-- The steps of a computation that can fail. -/
theorem bindExcept {x : ExceptT ε (StateM FileTree) α} {a : ExceptT ε Id α}
    {f : α → ExceptT ε (StateM FileTree) β} {g : α → ExceptT ε Id β}
    (hx : t.Answers x.run a.run) (hf : ∀ a, t.Answers (f a).run (g a).run) :
    t.Answers (x >>= f).run (a >>= g).run := by
  rw [ExceptT.run_bind, ExceptT.run_bind]
  refine hx.bind fun r => ?_
  cases r with
  | ok a => exact hf a
  | error e => exact .pure _

/-- A step that cannot fail. -/
theorem liftExcept {x : StateM FileTree α} {a : Id α} (hx : t.Answers x a) :
    t.Answers (ExceptT.lift x : ExceptT ε _ α).run (ExceptT.lift a : ExceptT ε Id α).run :=
  hx.bind fun _ => .pure _

end FileTree.Answers

namespace CommandLine

/-! ## §2. The steps up to the document. -/

variable (t : FileTree) (o : Options)

theorem answers_readFile (path : Path) :
    t.Answers (readFile FileTree.shell path).run (readFile t.still path).run := by
  have hread : t.Answers (FileTree.shell.read path) (t.still.read path) := rfl
  refine hread.liftExcept.bindExcept fun text => ?_
  cases text with
  | ok text => exact .pure _
  | error cause => exact .pure _

theorem answers_readMetadata (path : Path) :
    t.Answers (readMetadata FileTree.shell path).run (readMetadata t.still path).run := by
  refine (answers_readFile t path).bindExcept fun text => ?_
  split
  · exact .pure _
  · split
    · exact .pure _
    · exact .pure _

theorem answers_metadata :
    t.Answers (o.metadata FileTree.shell).run (o.metadata t.still).run := by
  unfold Options.metadata
  cases o.metaFile with
  | none => exact .pure _
  | some path => exact (answers_readMetadata t path).bindExcept fun base => .pure _

/-- **All steps up to the document only look at the tree.** -/
theorem answers_expand : t.Answers (o.expand FileTree.shell).run (o.expand t.still).run := by
  unfold Options.expand
  refine (Settings.answers_load t o.config (some o.overrides)).liftExcept.bindExcept fun r => ?_
  cases r with
  | error cause => exact .pure _
  | ok settings =>
      refine (answers_readFile t o.file).bindExcept fun text => ?_
      refine (answers_metadata t o).bindExcept fun metadata => ?_
      have hpass := t.answers_process (⟨Builtin.registry, Looking.files, settings.sourceDir,
        some o.file, settings.maxDepth⟩ : Expander Looking Unit) ⟨text, metadata⟩ .clear
      refine hpass.liftExcept.bindExcept fun outcome => ?_
      cases outcome.result with
      | error cause => exact .pure _
      | ok d => exact .pure _

/-! ## §3. The document. -/

/-- What the command takes for the metadata of a file: none without a file, none of a blank
    file, and else the fields of the mapping that it holds. -/
inductive BaseMetadata (t : FileTree) : Option Path → Metadata → Prop where
  | unnamed : BaseMetadata t none .empty
  | blank {path : Path} {text : String} (hread : t.read path = .ok text)
      (hblank : Text.allBlank text.toList = true) : BaseMetadata t (some path) .empty
  | mapping {path : Path} {text : String} {fields : Fields Json.Value}
      (hread : t.read path = .ok text) (hblank : Text.allBlank text.toList = false)
      (hparse : Yaml.parse? text = some fields) :
      BaseMetadata t (some path) (.ofFields fields)

/-- The document that the command comes to: the result of the pass over the text of the file,
    with the metadata of the metadata file overwritten by the entries one after the other,
    below the source directory and up to the limit of nesting of the settings. -/
inductive Expands (t : FileTree) (o : Options) (d : Document) : Prop where
  | intro {settings : Settings} {text : String} {base : Metadata} {outcome : Pass.Outcome Unit}
      (hload : Settings.loadIn t o.config (some o.overrides) = .ok settings)
      (hread : t.read o.file = .ok text) (hbase : BaseMetadata t o.metaFile base)
      (hpass : ((expander FileTree.shell settings o.file).process
        ⟨text, base.insertAll o.entries⟩ .clear).run t = (outcome, t))
      (hresult : outcome.result = .ok d) : Expands t o d

/-- One step of a computation that can fail, where it does not. -/
theorem run_bind_eq_ok {ε α β : Type} {x : ExceptT ε Id α} {f : α → ExceptT ε Id β} {b : β} :
    (x >>= f).run.run = .ok b ↔ ∃ a, x.run.run = .ok a ∧ (f a).run.run = .ok b := by
  have hbind : (x >>= f).run.run =
      match x.run.run with
      | .ok a => (f a).run.run
      | .error e => .error e := by
    rw [ExceptT.run_bind]
    show (match x.run.run with | .ok a => (f a).run | .error e => pure (.error e) : Id _).run = _
    cases x.run.run <;> rfl
  rw [hbind]
  cases x.run.run with
  | ok a =>
      constructor
      · intro h
        exact ⟨a, rfl, h⟩
      · rintro ⟨_, ⟨⟩, h⟩
        exact h
  | error e => exact iff_of_false nofun fun ⟨_, h, _⟩ => nomatch h

theorem run_readFile_eq_ok {path : Path} {text : String} :
    (readFile t.still path).run.run = .ok text ↔ t.read path = .ok text := by
  obtain ⟨answer, hanswer⟩ : ∃ answer, t.still.read path = pure answer := ⟨_, rfl⟩
  have hread : t.read path = answer := hanswer
  rw [readFile, hanswer, hread]
  cases answer with
  | ok text' => exact Iff.of_eq ((Except.ok.injEq _ _).trans (Except.ok.injEq _ _).symm)
  | error cause => exact iff_of_false nofun nofun

/-- What a file gives for metadata. -/
theorem run_readMetadata_eq_ok {path : Path} {base : Metadata} :
    (readMetadata t.still path).run.run = .ok base ↔ BaseMetadata t (some path) base := by
  rw [readMetadata, run_bind_eq_ok]
  constructor
  · intro h
    obtain ⟨text, hread, hbase⟩ := h
    rw [run_readFile_eq_ok] at hread
    split at hbase
    next hblank =>
      cases hbase
      exact .blank hread hblank
    next hblank =>
      split at hbase
      next fields hparse =>
        cases hbase
        exact .mapping hread (Bool.not_eq_true _ ▸ hblank) hparse
      next => cases hbase
  · intro h
    cases h with
    | @blank _ text hread hblank =>
        refine ⟨text, (run_readFile_eq_ok t).2 hread, ?_⟩
        rw [if_pos hblank]
        rfl
    | @mapping _ text fields hread hblank hparse =>
        refine ⟨text, (run_readFile_eq_ok t).2 hread, ?_⟩
        rw [hblank, if_neg Bool.false_ne_true, hparse]
        rfl

theorem run_metadata_eq_ok {metadata : Metadata} :
    (o.metadata t.still).run.run = .ok metadata ↔
      ∃ base, BaseMetadata t o.metaFile base ∧ metadata = base.insertAll o.entries := by
  unfold Options.metadata
  cases o.metaFile with
  | none =>
      constructor
      · intro h
        cases h
        exact ⟨_, .unnamed, rfl⟩
      · rintro ⟨base, ⟨⟩, rfl⟩
        rfl
  | some path =>
      refine run_bind_eq_ok.trans (exists_congr fun base => and_congr ?_ ?_)
      · exact run_readMetadata_eq_ok t
      · constructor
        · intro h
          cases h
          rfl
        · rintro rfl
          rfl

/-- The steps that follow when the settings are loaded. -/
def Options.expandUnder (o : Options) (shell : Shell Id) (settings : Settings) :
    ExceptT Fault Id Document := do
  let text ← readFile shell o.file
  let metadata ← o.metadata shell
  let outcome ← ((expander shell settings o.file).process ⟨text, metadata⟩ .clear : Id _)
  match outcome.result with
  | .ok document => pure document
  | .error cause => throw (.expansion cause)

theorem run_expand :
    (o.expand t.still).run.run =
      match Settings.loadIn t o.config (some o.overrides) with
      | .ok settings => (o.expandUnder t.still settings).run.run
      | .error cause => .error (.settings cause) := by
  obtain ⟨loaded, hloaded⟩ :
      ∃ loaded, Settings.load t.still o.config (some o.overrides) = pure loaded := ⟨_, rfl⟩
  rw [Options.expand, Settings.loadIn_eq, hloaded]
  cases loaded with
  | ok settings => rfl
  | error cause => rfl

/-- A pass in the tree comes to the outcome that it has where the tree stays as it is. -/
theorem run_process_eq {settings : Settings} {file : Path} {document : Document}
    {outcome : Pass.Outcome Unit} :
    ((expander FileTree.shell settings file).process document .clear).run t = (outcome, t) ↔
      ((expander t.still settings file).process document .clear).run = outcome := by
  have hpass := t.answers_process (⟨Builtin.registry, Looking.files, settings.sourceDir,
    some file, settings.maxDepth⟩ : Expander Looking Unit) document .clear
  have hrun : ((expander FileTree.shell settings file).process document .clear).run t =
      (((expander t.still settings file).process document .clear).run, t) := hpass
  rw [hrun]
  constructor
  · intro h
    exact congrArg Prod.fst h
  · rintro rfl
    rfl

/-- **The document that the steps come to.** -/
theorem run_expand_eq_ok {d : Document} :
    (o.expand t.still).run.run = .ok d ↔ Expands t o d := by
  rw [run_expand]
  constructor
  · intro h
    -- a document is there, so no step failed
    split at h
    next settings hload =>
      obtain ⟨text, hread, h⟩ := run_bind_eq_ok.1 h
      obtain ⟨metadata, hmetadata, h⟩ := run_bind_eq_ok.1 h
      obtain ⟨base, hbase, rfl⟩ := (run_metadata_eq_ok t o).1 hmetadata
      obtain ⟨outcome, houtcome, h⟩ := run_bind_eq_ok.1 h
      refine .intro hload ((run_readFile_eq_ok t).1 hread) hbase
        ((run_process_eq t).2 (Except.ok.inj houtcome)) ?_
      split at h
      next document hresult =>
        cases h
        exact hresult
      next => cases h
    next => cases h
  · intro h
    obtain ⟨hload, hread, hbase, hpass, hresult⟩ := h
    rw [hload]
    refine run_bind_eq_ok.2 ⟨_, (run_readFile_eq_ok t).2 hread, ?_⟩
    refine run_bind_eq_ok.2 ⟨_, (run_metadata_eq_ok t o).2 ⟨_, hbase, rfl⟩, ?_⟩
    refine run_bind_eq_ok.2 ⟨_, congrArg Except.ok ((run_process_eq t).1 hpass), ?_⟩
    rw [hresult]
    rfl

/-- The document is determined by the tree and the options. -/
theorem Expands.unique {t : FileTree} {o : Options} {d d' : Document} (h : Expands t o d)
    (h' : Expands t o d') : d = d' :=
  Except.ok.inj (((run_expand_eq_ok t o).2 h).symm.trans ((run_expand_eq_ok t o).2 h'))

/-- A text without markers is its own expansion. -/
theorem Expands.of_not_containsMarker {t : FileTree} {o : Options} {settings : Settings}
    {text : String} {base : Metadata}
    (hload : Settings.loadIn t o.config (some o.overrides) = .ok settings)
    (hread : t.read o.file = .ok text) (hbase : BaseMetadata t o.metaFile base)
    (hmarker : Markup.containsMarker text = false) :
    Expands t o ⟨text, base.insertAll o.entries⟩ := by
  let d : Document := ⟨text, base.insertAll o.entries⟩
  have hpass : (expander FileTree.shell settings o.file).process d .clear =
      pure ⟨.ok d, [.spliced d.content], .clear⟩ :=
    Pass.process_of_not_containsMarker _ (show Markup.containsMarker d.content = false from hmarker)
      .clear
  exact .intro hload hread hbase (congrFun hpass t) rfl

end CommandLine

end TagExpander
