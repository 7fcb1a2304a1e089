/-
  TagExpander.Proofs.Pass.Confined — inclusion stays below the base directory.

  With the builtin handlers, files are read for `Include` alone.  What it reads lies
  below the base directory, in writing and, where both exist, by the links.  The text of
  a tag may come from anywhere, so the check is made for every tag anew, at every depth:

      text of the tag  →  names left on the stack  →  path below the base  →  its target

  A tag whose path fails the check reads nothing, and ends the pass.

  Main results:
    * `Builtin.settle_inclusion` — what an inclusion asks for.
    * `Builtin.included_of_runs` — what becomes of it.
    * `process_builtins_confined` — nothing outside the base directory is ever read.
-/
import TagExpander.Proofs.Handler.Echoes
import TagExpander.Proofs.Pass.Settled
import TagExpander.Proofs.Pass.Trace
import TagExpander.Proofs.Pass.WellMarked
import TagExpander.Proofs.Path.Descend

namespace TagExpander

variable {m : Type → Type} {σ : Type} {canon : Path → Option Path}

/-! ## §1. Paths below a directory. -/

namespace Path

/-- Links do not lead from the path out of the directory, where both have a canonical
    form. -/
def LeadsInto (canon : Path → Option Path) (base path : Path) : Prop :=
  ∀ target root, canon path = some target → canon base = some root →
    root.components <+: target.components

instance (base path : Path) : Decidable (LeadsInto canon base path) :=
  match htarget : canon path, hroot : canon base with
  | some target, some root =>
      decidable_of_iff (root.components <+: target.components) (by simp [LeadsInto, htarget, hroot])
  | none, _ => isTrue (by simp [LeadsInto, htarget])
  | some _, none => isTrue (by simp [LeadsInto, hroot])

/-- The path lies below the directory: its components are those of the directory, and
    names behind them, and links do not lead out of it. -/
structure Below (canon : Path → Option Path) (base path : Path) : Prop where
  components : ∃ names : List (List Char),
    path.components = base.components ++ names.map .normal
  leadsInto : LeadsInto canon base path

end Path

/-! ## §2. What an inclusion asks for. -/

namespace Context

/-- A descent along a text ends where the stack of its names says. -/
theorem components_descend_ofString (base : Path) (text : String) :
    (descend base 0 (Path.ofString text).components).map Path.components =
      (Path.reduce [] (Path.ofString text).components).map
        fun names => base.components ++ names.map .normal := by
  have hbase : base.components = base.components ++ ([] : List (List Char)).reverse.map .normal :=
    (List.append_nil _).symm
  exact components_descend hbase fun _ hname => Path.isName_of_mem_components hname

/-- The path that a text stands for, if that lies below the base directory. -/
def below? (canon : Path → Option Path) (c : Context) (text : String) : Option Path :=
  (descend c.baseDir 0 (Path.ofString text).components).filter
    fun path => decide (Path.LeadsInto canon c.baseDir path)

/-- What is found is where the stack of names says, unless links lead elsewhere. -/
theorem below?_eq (canon : Path → Option Path) (c : Context) (text : String) :
    match Path.reduce [] (Path.ofString text).components with
    | none => c.below? canon text = none
    | some names =>
      ∃ path, descend c.baseDir 0 (Path.ofString text).components = some path ∧
        path.components = c.baseDir.components ++ names.map .normal ∧
        c.below? canon text = if Path.LeadsInto canon c.baseDir path then some path else none := by
  have hcomponents := components_descend_ofString c.baseDir text
  cases hreduce : Path.reduce [] (Path.ofString text).components with
  | none =>
      rw [hreduce, Option.map_none, Option.map_eq_none_iff] at hcomponents
      show c.below? canon text = none
      rw [below?, hcomponents]
      rfl
  | some names =>
      rw [hreduce, Option.map_some, Option.map_eq_some_iff] at hcomponents
      obtain ⟨path, hdescend, hnames⟩ := hcomponents
      refine ⟨path, hdescend, hnames, ?_⟩
      rw [below?, hdescend, Option.filter_some]
      simp only [decide_eq_true_eq]

/-- What is found below the base directory lies there. -/
theorem below_of_below? {c : Context} {text : String} {path : Path}
    (h : c.below? canon text = some path) : Path.Below canon c.baseDir path := by
  have hfound := c.below?_eq canon text
  cases hreduce : Path.reduce [] (Path.ofString text).components with
  | none =>
      rw [hreduce, h] at hfound
      cases hfound
  | some names =>
      rw [hreduce, h] at hfound
      obtain ⟨path', -, hnames, hpath⟩ := hfound
      split at hpath
      next hleads =>
        cases hpath
        exact ⟨⟨names, hnames⟩, hleads⟩
      next => cases hpath

theorem settle_resolveSafe (c : Context) (text : String) :
    (c.resolveSafe text).settle canon = .done (c.below? canon text) := by
  unfold resolveSafe below?
  cases descend c.baseDir 0 (Path.ofString text).components with
  | none => rfl
  | some path =>
      rw [Option.filter_some]
      simp only [Script.settle]
      cases htarget : canon path with
      | none => rw [if_pos (by simp [Path.LeadsInto, htarget])]; rfl
      | some target =>
          cases hroot : canon c.baseDir with
          | none => rw [if_pos (by simp [Path.LeadsInto, hroot])]; rfl
          | some root =>
              have hleads : Path.LeadsInto canon c.baseDir path ↔
                  target.startsWith root = true := by
                simp [Path.LeadsInto, Path.startsWith, htarget, hroot]
              dsimp only
              by_cases h : target.startsWith root = true
              · rw [if_pos h, if_pos (decide_eq_true (hleads.2 h))]
                rfl
              · rw [if_neg h, if_neg fun hd => h (hleads.1 (of_decide_eq_true hd))]
                rfl

end Context

/-- Handlers without a state are settled by their answers. -/
theorem Handler.settle_stateless [Inhabited σ]
    (answer : Invocation → Script (Except HandlerFault Output)) :
    (Handler.stateless answer : Handler σ).settle canon =
      .stateless fun call => (answer call).settle canon := by
  unfold settle stateless
  congr 1
  funext state call
  -- behind the answer there is nothing to settle but the state
  exact Script.settle_bind _ _

namespace Builtin

/-- The text of the path that an inclusion asks for. -/
def requested (call : Invocation) : Except HandlerFault String :=
  bound call ["Path"] >>= (textOf · "Path")

/-- **An inclusion asks for one file below the base directory**, or for nothing. -/
theorem settle_inclusion (call : Invocation) :
    (inclusion call).settle canon =
      match requested call with
      | .error fault => .done (.error fault)
      | .ok text =>
        match call.context.below? canon text with
        | none => .done (.error (outsideFault text))
        | some path => includeFile path := by
  unfold inclusion requested
  cases bound call ["Path"] >>= (textOf · "Path") with
  | error fault => rfl
  | ok text =>
      dsimp only
      rw [Script.settle_bind, Context.settle_resolveSafe]
      cases call.context.below? canon text with
      | none => rfl
      | some path =>
          refine congrArg (Script.read path) (funext fun answer => ?_)
          cases answer <;> rfl

/-- What becomes of an inclusion: a file below the base directory is read, or nothing is
    read and the inclusion is refused with a message. -/
inductive Included (canon : Path → Option Path) (baseDir : Path) (call : Invocation)
    (readings : List Script.Reading) (Refused : String → Prop) : Prop where
  /-- No path is asked for. -/
  | unheard {fault : HandlerFault} (hrequested : requested call = .error fault)
      (hnothing : readings = []) (hrefused : Refused fault.message)
  /-- The path goes up too far, or starts at the root. -/
  | outside {text : String} (hrequested : requested call = .ok text)
      (hreduce : Path.reduce [] (Path.ofString text).components = none)
      (hnothing : readings = []) (hrefused : Refused (outsideFault text).message)
  /-- The path stays below the base directory in writing, and is led out by a link. -/
  | ledOut {text : String} {names : List (List Char)} {path : Path}
      (hrequested : requested call = .ok text)
      (hreduce : Path.reduce [] (Path.ofString text).components = some names)
      (hdescend : Context.descend baseDir 0 (Path.ofString text).components = some path)
      (hnames : path.components = baseDir.components ++ names.map .normal)
      (hleads : ¬Path.LeadsInto canon baseDir path)
      (hnothing : readings = []) (hrefused : Refused (outsideFault text).message)
  /-- The path lies below the base directory. -/
  | read {text : String} {names : List (List Char)} {path : Path}
      {answer : Except FileFault String} (hrequested : requested call = .ok text)
      (hreduce : Path.reduce [] (Path.ofString text).components = some names)
      (hdescend : Context.descend baseDir 0 (Path.ofString text).components = some path)
      (hnames : path.components = baseDir.components ++ names.map .normal)
      (hleads : Path.LeadsInto canon baseDir path) (hread : readings = [⟨path, answer⟩])

theorem Included.imp {baseDir : Path} {call : Invocation} {readings : List Script.Reading}
    {R R' : String → Prop} (h : Included canon baseDir call readings R)
    (himp : ∀ message, R message → R' message) : Included canon baseDir call readings R' := by
  cases h with
  | unheard hrequested hnothing hrefused => exact .unheard hrequested hnothing (himp _ hrefused)
  | outside hrequested hreduce hnothing hrefused =>
      exact .outside hrequested hreduce hnothing (himp _ hrefused)
  | ledOut hrequested hreduce hdescend hnames hleads hnothing hrefused =>
      exact .ledOut hrequested hreduce hdescend hnames hleads hnothing (himp _ hrefused)
  | read hrequested hreduce hdescend hnames hleads hread =>
      exact .read hrequested hreduce hdescend hnames hleads hread

/-- The faults of what is asked for are faults of the arguments. -/
theorem eq_argument_of_requested {call : Invocation} {fault : HandlerFault}
    (h : requested call = .error fault) : fault = .argument fault.message := by
  unfold requested bound textOf at h
  cases hbind : call.arguments.bind ["Path"] with
  | error f =>
      rw [hbind] at h
      cases h
      rfl
  | ok b =>
      rw [hbind] at h
      replace h : (b.requireText "Path").mapError .ofBinding = .error fault := h
      cases htext : b.requireText "Path" with
      | error f =>
          rw [htext] at h
          cases h
          rfl
      | ok text =>
          rw [htext] at h
          cases h

/-- **An inclusion reads below the base directory, or is refused** with a fault of its
    arguments. -/
theorem included_of_runs {call : Invocation} {signal : StopSignal}
    {ran : Script.Ran (Except HandlerFault Output)}
    (h : ((inclusion call).settle canon).Runs signal ran) :
    Included canon call.context.baseDir call ran.readings
      fun message => ran.result = .error (.argument message) := by
  -- one case for each of the ways in which the settled script can go
  rw [settle_inclusion] at h
  cases hrequested : requested call with
  | error fault =>
      rw [hrequested] at h
      rw [h.of_done]
      exact .unheard hrequested rfl (congrArg Except.error (eq_argument_of_requested hrequested))
  | ok text =>
      rw [hrequested] at h
      dsimp only at h
      have hbelow := call.context.below?_eq canon text
      cases hreduce : Path.reduce [] (Path.ofString text).components with
      | none =>
          rw [hreduce] at hbelow
          rw [hbelow] at h
          rw [h.of_done]
          exact .outside hrequested hreduce rfl rfl
      | some names =>
          rw [hreduce] at hbelow
          obtain ⟨path, hdescend, hnames, hpath⟩ := hbelow
          rw [hpath] at h
          by_cases hleads : Path.LeadsInto canon call.context.baseDir path
          · rw [if_pos hleads] at h
            cases h with
            | @read _ _ _ rest answer h =>
                have hrest : rest.readings = [] := by
                  cases answer <;> rw [h.of_done]
                have hread : ⟨path, answer⟩ :: rest.readings = [⟨path, answer⟩] := by
                  rw [hrest]
                exact .read hrequested hreduce hdescend hnames hleads hread
          · rw [if_neg hleads] at h
            rw [h.of_done]
            exact .ledOut hrequested hreduce hdescend hnames hleads rfl rfl

theorem reads_inclusion (call : Invocation) :
    ((inclusion call).settle canon).Reads (Path.Below canon call.context.baseDir) := by
  rw [settle_inclusion]
  split
  next => exact .done _
  next text _ =>
    split
    next => exact .done _
    next path hbelow =>
      refine .read (Context.below_of_below? hbelow) fun answer => ?_
      cases answer <;> exact .done _

/-- Among the builtin handlers, settled, all but `Include` ask for nothing. -/
theorem handler_cases [Inhabited σ] {name : String} {entry : Entry σ}
    (h : ((registry : Registry σ).settle canon).resolve? name = some entry) :
    (entry.name = "Include" ∧
        entry.handler = .stateless fun call => (inclusion call).settle canon) ∨
      (entry.name ≠ "Include" ∧ ∃ answer, entry.handler = pureHandler answer) := by
  rw [Registry.resolve?_settle] at h
  obtain ⟨entry, hresolve, rfl⟩ := Option.map_eq_some_iff.1 h
  have hmem := mem_entries_of_resolve? hresolve
  simp only [entries, List.mem_cons, List.not_mem_nil, or_false] at hmem
  -- in the order of the entries, `Include` last
  rcases hmem with rfl | rfl | rfl | rfl | rfl
  · exact .inr ⟨by simp [Entry.settle], raw, Handler.settle_stateless _⟩
  · exact .inr ⟨by simp [Entry.settle], metadataValue, Handler.settle_stateless _⟩
  · exact .inr ⟨by simp [Entry.settle], forEach, Handler.settle_stateless _⟩
  · exact .inr ⟨by simp [Entry.settle], condition, Handler.settle_stateless _⟩
  · exact .inl ⟨rfl, Handler.settle_stateless _⟩

section Settled

variable [Inhabited σ] {name : String} {entry : Entry σ}

/-- **The builtin handlers read files below the base directory only.** -/
theorem reads_settled (h : ((registry : Registry σ).settle canon).resolve? name = some entry)
    (state : σ) (call : Invocation) :
    (entry.handler.execute state call).Reads (Path.Below canon call.context.baseDir) := by
  rcases handler_cases h with ⟨-, hhandler⟩ | ⟨-, answer, hhandler⟩
  · rw [hhandler]
    exact (reads_inclusion call).bind fun _ => .done _
  · rw [hhandler]
    exact .done _

variable {state : σ} {call : Invocation} {signal : StopSignal}
  {ran : Script.Ran (σ × Except HandlerFault Output)}

theorem readings_eq_nil (h : ((registry : Registry σ).settle canon).resolve? name = some entry)
    (hran : (entry.handler.execute state call).Runs signal ran) (hname : entry.name ≠ "Include") :
    ran.readings = [] := by
  obtain ⟨hinclude, -⟩ | ⟨-, answer, hhandler⟩ := handler_cases h
  · exact absurd hinclude hname
  · rw [hhandler] at hran
    obtain ⟨answered, hanswered, -, hreadings⟩ := Script.Runs.of_stateless hran
    rw [hreadings, hanswered.of_done]

theorem included_of_settled (h : ((registry : Registry σ).settle canon).resolve? name = some entry)
    (hran : (entry.handler.execute state call).Runs signal ran) (hname : entry.name = "Include") :
    Included canon call.context.baseDir call ran.readings
      fun message => ran.result.2 = .error (.argument message) := by
  obtain ⟨-, hhandler⟩ | ⟨hother, -⟩ := handler_cases h
  · rw [hhandler] at hran
    obtain ⟨answered, hanswered, hresult, hreadings⟩ := Script.Runs.of_stateless hran
    rw [hreadings, hresult]
    exact included_of_runs hanswered
  · exact absurd hname hother

end Settled

end Builtin

namespace Pass

/-! ## §3. Passes. -/

/-- The builtin handlers over files that are read by `read`, where the canonical forms are
    those of `canon` throughout. -/
def builtinsOver [Monad m] [Inhabited σ] (read : Path → m (Except FileFault String))
    (canon : Path → Option Path) (baseDir : Path) (sourcePath : Option Path) (maxDepth : Nat) :
    Expander m σ :=
  ⟨Builtin.registry, ⟨read, fun path => pure (canon path)⟩, baseDir, sourcePath, maxDepth⟩

/-- **Nothing outside the base directory is ever read**, with the builtin handlers, whatever
    the document, the metadata and the files are, where canonical forms do not change.
    * What lies outside makes no difference to a pass.
    * What an execution reads lies below the base directory, and nothing is read but for
      `Include`.
    * An `Include` reads the path that it asks for, or it reads nothing, and the pass fails
      because of the arguments of its tag. -/
theorem process_builtins_confined [Monad m] [LawfulMonad m] [Inhabited σ]
    (read : Path → m (Except FileFault String)) (canon : Path → Option Path) (baseDir : Path)
    (sourcePath : Option Path) (maxDepth : Nat) (document : Document) (signal : StopSignal) :
    (∀ read' : Path → m (Except FileFault String),
      (∀ path, Path.Below canon baseDir path → read' path = read path) →
        (builtinsOver read' canon baseDir sourcePath maxDepth : Expander m σ).process document
            signal =
          (builtinsOver read canon baseDir sourcePath maxDepth).process document signal) ∧
    Always (fun o => ∀ call, .executed call ∈ o.events →
        (∀ reading ∈ call.readings, Path.Below canon baseDir reading.path) ∧
        (call.handlerName ≠ "Include" → call.readings = []) ∧
        (call.handlerName = "Include" →
          Builtin.Included canon baseDir call.invocation call.readings fun message =>
            o.result = .error (.argument call.tagName message)))
      ((builtinsOver read canon baseDir sourcePath maxDepth : Expander m σ).process document
        signal) := by
  -- the pass is one with settled handlers, and those read below the base directory
  let e : Expander m σ := builtinsOver read canon baseDir sourcePath maxDepth
  have hcanon : ∀ path, e.files.canonical path = pure (canon path) := fun _ => rfl
  constructor
  · intro read' hread
    let e' : Expander m σ := builtinsOver read' canon baseDir sourcePath maxDepth
    have hcanon' : ∀ path, e'.files.canonical path = pure (canon path) := fun _ => rfl
    show e'.process document signal = e.process document signal
    rw [← process_settle e canon hcanon, ← process_settle e' canon hcanon']
    refine process_congr_files (e.settle canon) e'.files ?_ hread rfl document signal
    -- no handler asks for anything that the two do not agree on
    intro name entry state call hresolve hbase
    have hreads := Builtin.reads_settled hresolve state call
    rwa [hbase] at hreads
  · show Always _ (e.process document signal)
    rw [← process_settle e canon hcanon]
    refine (always_process _ document signal).mono ?_
    intro o ho
    obtain ⟨evs, r, hrun, rfl⟩ := ho
    intro call hcall
    obtain ⟨p, depth, tag, entry, hx⟩ := hrun.trace.executes_of_mem hcall
    have hbase : call.invocation.context.baseDir = baseDir := by
      rw [hx.invocation]
      rfl
    rw [hx.handlerName, ← hbase]
    refine ⟨(Builtin.reads_settled hx.resolves call.before call.invocation).of_mem_readings hx.runs,
      Builtin.readings_eq_nil hx.resolves hx.runs, fun hname => ?_⟩
    refine (Builtin.included_of_settled hx.resolves hx.runs hname).imp fun message hrefused => ?_
    rw [hrun.result_of_failed (executed_mem_of_outcomeOf hcall) hrefused]
    rfl

/-- A directory with a link that leads out of it. -/
def linkedForms (path : Path) : Option Path :=
  if path = .ofString "docs/link.md" then some (.ofString "/etc/secret.md")
  else if path = .ofString "docs" then some (.ofString "/srv/docs")
  else none

/-- The paths that a pass has read, in order. -/
def pathsRead (evs : List (Event σ)) : List Path :=
  evs.flatMap fun
    | .executed call => call.readings.map (·.path)
    | _ => []

/-- A pass over three inclusions; the second one follows the link to a secret. -/
def passOverLink (secret : String) : Outcome Unit :=
  ((builtinsOver
      (fun path => pure (.ok (if path = .ofString "docs/link.md" then secret else "text")))
      linkedForms (.ofString "docs") none defaultMaxDepth : Expander Id Unit).process
    (.ofContent "<?# Include a/.././b.md /?><?# Include link.md /?><?# Include c.md /?>")
    .clear).run

/-- The first inclusion is read; the second one ends the pass, and what is behind the link
    makes no difference. -/
theorem process_builtins_confined_link :
    pathsRead (passOverLink "one").events = [.ofString "docs/b.md"] ∧
      (passOverLink "one").result = .error
        (.argument "Include" "Path `link.md` is outside the base directory") ∧
      (∀ call, .executed call ∈ (passOverLink "one").events →
        ∀ reading ∈ call.readings, Path.Below linkedForms (.ofString "docs") reading.path) ∧
      passOverLink "two" = passOverLink "one" := by
  have hlink : ¬Path.Below linkedForms (.ofString "docs") (.ofString "docs/link.md") :=
    fun h => absurd h.leadsInto (by decide +kernel)
  have hconfined := process_builtins_confined (m := Id) (σ := Unit)
    (fun path => pure (.ok (if path = .ofString "docs/link.md" then "one" else "text")))
    linkedForms (.ofString "docs") none defaultMaxDepth
    (.ofContent "<?# Include a/.././b.md /?><?# Include link.md /?><?# Include c.md /?>") .clear
  refine ⟨by decide +kernel, Outcome.failure?_eq_some_iff.1 (by decide +kernel),
    fun call hcall => (always_id_iff.1 hconfined.2 call hcall).1, ?_⟩
  refine congrArg Id.run (hconfined.1 _ fun path hpath => ?_)
  have hne : path ≠ .ofString "docs/link.md" := by
    rintro rfl
    exact hlink hpath
  rw [if_neg hne, if_neg hne]

end Pass

end TagExpander
