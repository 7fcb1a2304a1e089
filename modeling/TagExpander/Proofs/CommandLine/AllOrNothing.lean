/-
  TagExpander.Proofs.CommandLine.AllOrNothing — what a run of the command leaves.

  All steps up to the document only look at the tree, and the last one writes the text:

      document ──→ written ──→ exit code 0
         │            │
         ↓ fault      ↓ fault  exit code 1

  So a run that fails leaves the tree as it was and the standard output empty, and one that
  does not has delivered the whole text to one of the two.

  Main results:
    * `run_eq` — what a run comes to, by the document and the write.
    * `run_all_or_nothing` — what a run leaves.
-/
import TagExpander.Proofs.CommandLine.Expanding
import TagExpander.Proofs.FileTree.Writing

namespace TagExpander.CommandLine

/-! ## §1. The end of a run. -/

variable (t : FileTree) (o : Options)

section Steps

variable {ε α β : Type} {t t' : FileTree} {x : StateM FileTree α} {a : α}

/-- One step of a computation in a tree, and then the others. -/
theorem run_bind_of_run (h : x.run t = (a, t')) (f : α → StateM FileTree β) :
    (x >>= f).run t = (f a).run t' := by
  rw [StateT.run_bind, h]
  rfl

variable {y : ExceptT ε (StateM FileTree) α}

theorem run_bind_of_ok (h : y.run.run t = (.ok a, t')) (f : α → ExceptT ε (StateM FileTree) β) :
    (y >>= f).run.run t = (f a).run.run t' := by
  rw [ExceptT.run_bind, run_bind_of_run h]

theorem run_bind_of_error {e : ε} (h : y.run.run t = (.error e, t'))
    (f : α → ExceptT ε (StateM FileTree) β) : (y >>= f).run.run t = (.error e, t') := by
  rw [ExceptT.run_bind, run_bind_of_run h]
  rfl

theorem run_lift_of_run (h : x.run t = (a, t')) :
    (ExceptT.lift x : ExceptT ε _ α).run.run t = (.ok a, t') := by
  show (x >>= fun a => pure (Except.ok a)).run t = _
  rw [run_bind_of_run h]
  rfl

end Steps

/-- Are reports coloured in a tree? -/
def coloursIn (t : FileTree) : Bool :=
  (t.variableValue? "CLICOLOR_FORCE").any (· != "0")

/-- What the program leaves when it fails. -/
def Fault.exit (colours : Bool) (fault : Fault) : Exit :=
  ⟨1, "", Style.failure.paint colours ("Error: " ++ fault.message) ++ "\n"⟩

/-- What the program leaves when the text of a document is to be written: it may be that this
    fails, and else there is a text to print, and a report. -/
def Options.exit (o : Options) (colours : Bool) (d : Document) :
    Except Fault (String × String) → Exit
  | .ok (out, report) =>
      ⟨0, out, report ++ if o.printMetadata then metadataReport colours d else ""⟩
  | .error fault => fault.exit colours

/-- What the writing of a document comes to, with the tree that it leaves. -/
def Options.written (o : Options) (d : Document) (t : FileTree) :
    Except Fault (String × String) × FileTree :=
  match o.output with
  | none => (.ok (d.content, ""), t)
  | some path =>
      match t.write path d.content with
      | .ok t' =>
          (.ok ("", Style.success.paint (coloursIn t) ("Wrote " ++ path.toString) ++ "\n"), t')
      | .error cause => (.error (.unwritable cause), t)

theorem run_shell_write (path : Path) (text : String) :
    (FileTree.shell.write path text).run t =
      match t.write path text with
      | .ok t' => (.ok (), t')
      | .error cause => (.error cause, t) := by
  unfold FileTree.shell
  dsimp only
  rw [run_bind_of_run (x := get) rfl]
  cases t.write path text <;> rfl

theorem run_write (d : Document) :
    (o.write FileTree.shell (coloursIn t) d).run.run t = o.written d t := by
  unfold Options.write Options.written
  cases o.output with
  | none => rfl
  | some path =>
      have hwrite := run_shell_write t path d.content
      dsimp only
      cases hresult : t.write path d.content with
      | ok t' =>
          rw [hresult] at hwrite
          exact run_bind_of_ok (run_lift_of_run hwrite) _
      | error cause =>
          rw [hresult] at hwrite
          exact run_bind_of_ok (run_lift_of_run hwrite) _

/-- **What a run comes to**: a fault of the steps up to the document, or what the writing of
    the document comes to. -/
theorem run_eq :
    (o.run FileTree.shell).run t =
      match (o.expand t.still).run.run with
      | .ok d => (o.exit (coloursIn t) d (o.written d t).1, (o.written d t).2)
      | .error fault => (fault.exit (coloursIn t), t) := by
  have hexpand : (o.expand FileTree.shell).run.run t = ((o.expand t.still).run.run, t) :=
    answers_expand t o
  have hcolours : (reportColours FileTree.shell).run t = (coloursIn t, t) := rfl
  unfold Options.run
  rw [run_bind_of_run hcolours]
  dsimp only
  cases hresult : (o.expand t.still).run.run with
  | error fault =>
      rw [hresult] at hexpand
      exact run_bind_of_run (run_bind_of_error hexpand _) _
  | ok d =>
      rw [hresult] at hexpand
      have hwrite := run_write t o d
      dsimp only
      -- whatever comes of the writing is passed on
      generalize o.written d t = written at hwrite ⊢
      obtain ⟨result, t'⟩ := written
      cases result with
      | ok printed =>
          refine run_bind_of_run (a := Except.ok _) ?_ _
          exact (run_bind_of_ok hexpand _).trans (run_bind_of_ok hwrite _)
      | error fault =>
          refine run_bind_of_run (a := Except.error _) ?_ _
          exact (run_bind_of_ok hexpand _).trans (run_bind_of_error hwrite _)

/-! ## §2. All or nothing. -/

/-- The text of a document was delivered: it stands on the standard output, and the tree is as
    it was; or it is all of the file, and neither stands anything on the standard output nor has
    anything else changed in the tree. -/
inductive Delivered (t : FileTree) (o : Options) (d : Document) (out : String) (t' : FileTree) :
    Prop where
  | printed (hoption : o.output = none) (hout : out = d.content) (htree : t' = t)
  | filed {path : Path} {place : Place} (hoption : o.output = some path) (hout : out = "")
      (hplace : t.Writable path place) (htree : t' = t.put place (.file d.content.toUTF8))
      (hnodes : ∀ other, t'.node? other =
        if other = place then some (.file d.content.toUTF8) else t.node? other)
      (hread : t.Closed → t'.read path = .ok d.content)

/-- A text is delivered, or the tree stays as it is. -/
theorem written_cases (d : Document) :
    (∃ out report t', o.written d t = (.ok (out, report), t') ∧ Delivered t o d out t' ∧
      ∀ path, o.output = some path → ∃ place, t.Writable path place) ∨
    ∃ fault path, o.written d t = (.error fault, t) ∧ o.output = some path ∧
      ∀ place, ¬t.Writable path place := by
  unfold Options.written
  cases hoption : o.output with
  | none => exact .inl ⟨_, _, _, rfl, .printed hoption rfl rfl, nofun⟩
  | some path =>
      dsimp only
      cases hresult : t.write path d.content with
      | ok t' =>
          obtain ⟨place, hplace, rfl⟩ := FileTree.write_eq_ok_iff.1 hresult
          refine .inl ⟨_, _, _, rfl, ?_, ?_⟩
          · exact .filed hoption rfl hplace rfl (FileTree.node?_of_write hplace d.content)
              fun hclosed => hclosed.read_of_write hplace d.content
          · rintro _ ⟨⟩
            exact ⟨place, hplace⟩
      | error cause =>
          -- at a place for it the write would have succeeded
          refine .inr ⟨_, path, rfl, rfl, fun place hplace => ?_⟩
          have hok : t.write path d.content = .ok (t.put place (.file d.content.toUTF8)) :=
            FileTree.write_eq_ok_iff.2 ⟨place, hplace, rfl⟩
          cases hresult.symm.trans hok

/-- **A run of the command** fails and leaves nothing, or delivers the text of the document.
    It does so if there is one, and a place for it. -/
theorem run_cases :
    ∃ exit t', (o.run FileTree.shell).run t = (exit, t') ∧
      (exit.code = 1 ∧ exit.out = "" ∧ t' = t ∨
        exit.code = 0 ∧ ∃ d, Expands t o d ∧ Delivered t o d exit.out t') ∧
      (exit.code = 0 ↔ ∃ d, Expands t o d ∧
        ∀ path, o.output = some path → ∃ place, t.Writable path place) := by
  rw [run_eq]
  cases hresult : (o.expand t.still).run.run with
  | error fault =>
      refine ⟨_, _, rfl, .inl ⟨rfl, rfl, rfl⟩, iff_of_false Nat.one_ne_zero ?_⟩
      rintro ⟨d, hexpands, -⟩
      cases hresult.symm.trans ((run_expand_eq_ok t o).2 hexpands)
  | ok d =>
      have hexpands := (run_expand_eq_ok t o).1 hresult
      refine ⟨_, _, rfl, ?_⟩
      rcases written_cases t o d with ⟨out, report, t', hwritten, hdelivered, hplaces⟩ |
        ⟨fault, path, hwritten, hoption, hnone⟩
      · rw [hwritten]
        refine ⟨.inr ⟨rfl, d, hexpands, hdelivered⟩, iff_of_true rfl ⟨d, hexpands, hplaces⟩⟩
      · rw [hwritten]
        refine ⟨.inl ⟨rfl, rfl, rfl⟩, iff_of_false Nat.one_ne_zero ?_⟩
        rintro ⟨-, -, hplaces⟩
        obtain ⟨place, hplace⟩ := hplaces path hoption
        exact hnone place hplace

/-- **Printing the metadata changes only the report.** -/
theorem run_printMetadata (b : Bool) {exit : Exit} {t' : FileTree}
    (h : (o.run FileTree.shell).run t = (exit, t')) :
    ∃ exit', (Options.run FileTree.shell { o with printMetadata := b }).run t = (exit', t') ∧
      exit'.code = exit.code ∧ exit'.out = exit.out := by
  rw [run_eq] at h ⊢
  -- neither the steps up to the document nor the writing ask whether the metadata are printed
  have hexpand : Options.expand t.still { o with printMetadata := b } = o.expand t.still := rfl
  have hwritten (d : Document) : Options.written { o with printMetadata := b } d t =
      o.written d t := rfl
  rw [hexpand]
  cases hresult : (o.expand t.still).run.run with
  | error fault =>
      rw [hresult] at h
      cases h
      exact ⟨_, rfl, rfl, rfl⟩
  | ok d =>
      rw [hresult] at h
      cases h
      refine ⟨_, rfl, ?_⟩
      rw [hwritten]
      cases (o.written d t).1 with
      | ok printed => exact ⟨rfl, rfl⟩
      | error fault => exact ⟨rfl, rfl⟩

/-- A command line that is understood runs the command. -/
theorem run_of_read {words : List String} {o : Options}
    (h : Options.read (t.variableValue? "RW_META_FILE") words = .ok o) :
    (run FileTree.shell words).run t = (o.run FileTree.shell).run t := by
  have hvariable : (FileTree.shell.environment "RW_META_FILE").run t =
      (t.variableValue? "RW_META_FILE", t) := rfl
  unfold run
  rw [run_bind_of_run hvariable, h]

/-- **All or nothing.**  A run either fails, with nothing on the standard output and the tree
    as it was, or the whole text of the document is delivered, to the file that is named or
    else to the standard output.  It fails only for want of a document, or of a place for it,
    and never because the metadata are to be printed. -/
theorem run_all_or_nothing (t : FileTree) (words : List String) (o : Options)
    (hread : Options.read (t.variableValue? "RW_META_FILE") words = .ok o) :
    ∃ exit t', (run FileTree.shell words).run t = (exit, t') ∧
      (exit.code = 1 ∧ exit.out = "" ∧ t' = t ∨
        exit.code = 0 ∧ ∃ d, Expands t o d ∧ Delivered t o d exit.out t') ∧
      (exit.code = 0 ↔ ∃ d, Expands t o d ∧
        ∀ path, o.output = some path → ∃ place, t.Writable path place) ∧
      ∀ b, ∃ exit', (Options.run FileTree.shell { o with printMetadata := b }).run t =
        (exit', t') ∧ exit'.code = exit.code ∧ exit'.out = exit.out := by
  obtain ⟨exit, t', hrun, hcases, hcode⟩ := run_cases t o
  exact ⟨exit, t', (run_of_read t hread).trans hrun, hcases, hcode,
    fun b => run_printMetadata t o b hrun⟩

/-- A tree with one file at its root. -/
theorem closed_rootTree (text : String) : (Settings.rootTree text).Closed := by
  refine ⟨rfl, fun place name entity h => ?_⟩
  have hne : place ++ [name] ≠ [] := List.concat_ne_nil name place
  rw [FileTree.node?, if_neg hne, Settings.rootTree, List.lookup_cons] at h
  cases hplace : place ++ [name] == [Settings.fileName.chars] with
  | false =>
      rw [hplace] at h
      cases h
  | true =>
      have heq : place ++ [name] = [] ++ [Settings.fileName.chars] := eq_of_beq hplace
      rw [List.append_inj_left' heq rfl]
      rfl

/-- A file that is copied to a new one, as no tag stands in it. -/
theorem run_all_or_nothing_copy :
    let text := "[shortcodes]\nmax_depth = 4\n"
    let t := Settings.rootTree text
    let words := ["expand", "/rw.toml", "--config", "/rw.toml", "--output", "/out.md"]
    ∃ o, Options.read (t.variableValue? "RW_META_FILE") words = .ok o ∧
      ∃ exit t', (run FileTree.shell words).run t = (exit, t') ∧ exit.code = 0 ∧
        exit.out = "" ∧ t'.read (.ofString "/out.md") = .ok text := by
  intro text t words
  let o : Options := ⟨Settings.rootFile, some Settings.rootFile, ⟨none, none⟩, none, [],
    some (.ofString "/out.md"), false, false⟩
  have hread : Options.read (t.variableValue? "RW_META_FILE") words = .ok o := by
    rfl
  obtain ⟨exit, t', hrun, hcases, hcode, -⟩ := run_all_or_nothing t words o hread
  have hsource : t.read Settings.rootFile = .ok text :=
    (FileTree.read_of_resolve (Settings.resolve_rootTree text)).trans (FileTree.textOf_toUTF8 text)
  have hplace : t.Writable (.ofString "/out.md") ["out.md".toList] := by
    have hlocate : t.locate true (.ofString "/out.md") =
        t.walk true FileTree.maxLinks [] [[], "out.md".toList] := rfl
    have hroot : t.node? [] = some .directory := rfl
    have hnone : t.node? ["out.md".toList] = none := rfl
    refine .inl ?_
    rw [hlocate, FileTree.walk, hroot]
    dsimp only
    rw [if_pos (.inl rfl), FileTree.walk_name hroot (by decide) (by decide) (by decide)
      (by decide), List.nil_append, hnone]
    rfl
  have hexpands : Expands t o ⟨text, .empty⟩ := by
    have hload : Settings.loadIn t (some Settings.rootFile) (some ⟨none, none⟩) =
        .ok ⟨.ofString "/docs", 4, some Settings.rootFile⟩ := by
      rw [Settings.loadIn_rootTree
        (show Settings.Stored.parse? text = some ⟨none, some 4⟩ by decide +kernel)]
      decide +kernel
    have hmarker : Markup.containsMarker text = false := by decide +kernel
    exact Expands.of_not_containsMarker hload hsource .unnamed hmarker
  have hdone : exit.code = 0 := by
    refine hcode.2 ⟨_, hexpands, ?_⟩
    rintro path ⟨⟩
    exact ⟨_, hplace⟩
  refine ⟨o, hread, exit, t', hrun, hdone, ?_⟩
  rcases hcases with ⟨hone, -, -⟩ | ⟨-, d, hd, hdelivered⟩
  · cases hone.symm.trans hdone
  · cases hd.unique hexpands
    cases hdelivered with
    | printed hoption => cases hoption
    | filed hoption hout hplace' htree hnodes hback =>
        cases hoption
        exact ⟨hout, hback (closed_rootTree text)⟩

end TagExpander.CommandLine
