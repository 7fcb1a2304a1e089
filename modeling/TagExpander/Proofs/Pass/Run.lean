/-
  TagExpander.Proofs.Pass.Run — the runs of a pass, as a relation.

  A pass works in a monad, carries its progress along and notes what happens.  Here
  its runs are described without the monad: `Run e source p piece evs r` says that
  from the progress `p` a piece of the work (a text, the spans of a text, the output
  of a tag) can be done with the events `evs` and the result `r`.  The progress
  afterwards is no part of the relation, since it is a function of the events:

      p.replay evs

  The answers to what a handler asks for are left open, so a relation covers all
  surroundings at once.

  Main results:
    * `always_expand`, `always_process` — whatever the surroundings, what a pass does
      is one of its runs.
-/
import TagExpander.Proofs.Pass.Always
import TagExpander.Proofs.Pass.Replay
import TagExpander.Pass.Expand
import TagExpander.Handler.Builtin

namespace TagExpander

/-! ## §1. Scripts. -/

namespace Script

/-- The ways in which a script can run, with any answers to its requests. -/
inductive Runs {α : Type} : StopSignal → Script α → Ran α → Prop where
  | done (signal : StopSignal) (a : α) : Runs signal (.done a) ⟨a, signal, []⟩
  | read {signal : StopSignal} {path : Path} {next : Except FileFault String → Script α}
      {ran : Ran α} (answer : Except FileFault String) (h : Runs signal (next answer) ran) :
      Runs signal (.read path next) { ran with readings := ⟨path, answer⟩ :: ran.readings }
  | canonical {signal : StopSignal} {path : Path} {next : Option Path → Script α} {ran : Ran α}
      (answer : Option Path) (h : Runs signal (next answer) ran) :
      Runs signal (.canonical path next) ran
  | stop {signal : StopSignal} {next : Script α} {ran : Ran α} (h : Runs signal.raise next ran) :
      Runs signal (.stop next) ran
  | isStopped {signal : StopSignal} {next : Bool → Script α} {ran : Ran α}
      (h : Runs signal (next signal.isRaised) ran) : Runs signal (.isStopped next) ran

/-- Whatever the files are, a script runs in one of its ways. -/
theorem always_run {m : Type → Type} [Monad m] [LawfulMonad m] {α : Type} (files : Files m)
    (signal : StopSignal) (s : Script α) : Always (Runs signal s) (s.run files signal) := by
  induction s generalizing signal with
  | done a => exact .pure (.done signal a)
  | read path next ih =>
      refine (always_true (files.read path)).bind fun answer _ => ?_
      exact (ih answer signal).bind fun ran h => .pure (.read answer h)
  | canonical path next ih =>
      refine (always_true (files.canonical path)).bind fun answer _ => ?_
      exact (ih answer signal).mono fun ran h => .canonical answer h
  | stop next ih => exact (ih signal.raise).mono fun ran h => .stop h
  | isStopped next ih => exact (ih signal.isRaised signal).mono fun ran h => .isStopped h

end Script

namespace Pass

variable {m : Type → Type} {σ : Type}

/-! ## §2. Runs. -/

/-- An execution of a handler, started from some progress. -/
structure Executes (e : Expander m σ) (source : String) (p : Progress σ) (depth : Nat)
    (tag : Markup.Tag) (entry : Entry σ) (call : Call σ) : Prop where
  /-- Nobody has asked to stop. -/
  running : p.signal.isRaised = false
  /-- The handler is that of the name of the tag. -/
  resolves : e.registry.resolve? tag.name = some entry
  tagName : call.tagName = tag.name
  handlerName : call.handlerName = entry.name
  /-- The handler is given the tag, the text of the whole document, and the metadata
      as they stand. -/
  invocation : call.invocation =
    ⟨tag.arguments, tag.content, ⟨source, p.metadata⟩, contextOf e tag depth⟩
  before : call.before = p.found entry
  runs : (entry.handler.execute call.before call.invocation).Runs p.signal
    ⟨(call.after, call.result), call.signal, call.readings⟩

/-- The events of an execution: a new instance is created right in front of it. -/
def called (p : Progress σ) (entry : Entry σ) (call : Call σ) : List (Event σ) :=
  p.creation entry ++ [.executed call]

/-- How a tag can be handed to its handler, with the events and what comes of it. -/
inductive Invoked (e : Expander m σ) (source : String) (p : Progress σ) (depth : Nat)
    (tag : Markup.Tag) : List (Event σ) → Except Failure (Output × Kind) → Prop where
  | stopped (h : p.signal.isRaised = true) :
      Invoked e source p depth tag [] (.error .stopped)
  | unknown (h : p.signal.isRaised = false) (hr : e.registry.resolve? tag.name = none) :
      Invoked e source p depth tag [] (.error (.unknown tag.name))
  | failed {entry : Entry σ} {call : Call σ} {fault : HandlerFault}
      (h : Executes e source p depth tag entry call) (hr : call.result = .error fault) :
      Invoked e source p depth tag (called p entry call) (.error (.ofHandler tag.name fault))
  | executed {entry : Entry σ} {call : Call σ} {output : Output}
      (h : Executes e source p depth tag entry call) (hr : call.result = .ok output) :
      Invoked e source p depth tag (called p entry call) (.ok (output, entry.kind))

/-- A piece of the work of a pass. -/
inductive Piece where
  /-- A text is expanded. -/
  | text (depth : Nat) (text : String)
  /-- The spans of a text are put into the result. -/
  | spans (depth : Nat) (spans : List Markup.Span)
  /-- The documents that a tag puts out take its place. -/
  | output (depth : Nat) (tagName : String) (raw : Bool) (docs : List Document)

/-- How a piece of work can be done, with the events and the text that comes of it.
    Tags are handled from left to right; a document is put out, and its metadata are
    merged, before its text is expanded; the text is expanded before the next
    document is put out. -/
inductive Run (e : Expander m σ) (source : String) :
    Progress σ → Piece → List (Event σ) → Except Failure String → Prop where
  | plain {p : Progress σ} {depth : Nat} {text : String}
      (h : Markup.containsMarker text = false) :
      Run e source p (.text depth text) [.spliced text] (.ok text)
  | tooDeep {p : Progress σ} {depth : Nat} {text : String}
      (h : Markup.containsMarker text = true) (hd : e.maxDepth < depth) :
      Run e source p (.text depth text) [] (.error (.tooDeep e.maxDepth))
  | malformed {p : Progress σ} {depth : Nat} {text : String} {cause : Markup.Malformed}
      (h : Markup.containsMarker text = true) (hd : depth ≤ e.maxDepth)
      (hs : Markup.scan e.registry.isRaw text = .error cause) :
      Run e source p (.text depth text) [.scanned text] (.error (.malformed cause none))
  | scanned {p : Progress σ} {depth : Nat} {text : String} {spans : List Markup.Span}
      {evs : List (Event σ)} {r : Except Failure String}
      (h : Markup.containsMarker text = true) (hd : depth ≤ e.maxDepth)
      (hs : Markup.scan e.registry.isRaw text = .ok spans)
      (hw : Run e source (p.apply (.scanned text)) (.spans depth spans) evs r) :
      Run e source p (.text depth text) (.scanned text :: evs) r
  | finished {p : Progress σ} {depth : Nat} : Run e source p (.spans depth []) [] (.ok "")
  | literal {p : Progress σ} {depth : Nat} {text : String} {spans : List Markup.Span}
      {evs : List (Event σ)} {r : Except Failure String}
      (h : Run e source (p.apply (.spliced text)) (.spans depth spans) evs r) :
      Run e source p (.spans depth (.literal text :: spans)) (.spliced text :: evs)
        (r.map (text ++ ·))
  | refused {p : Progress σ} {depth : Nat} {tag : Markup.Tag} {spans : List Markup.Span}
      {evs : List (Event σ)} {failure : Failure}
      (h : Invoked e source p depth tag evs (.error failure)) :
      Run e source p (.spans depth (.tag tag :: spans)) evs (.error failure)
  | cut {p : Progress σ} {depth : Nat} {tag : Markup.Tag} {spans : List Markup.Span}
      {evs evs' : List (Event σ)} {output : Output} {kind : Kind} {failure : Failure}
      (h : Invoked e source p depth tag evs (.ok (output, kind)))
      (ho : Run e source (p.replay evs)
        (.output depth tag.name (kind == .raw || output.isRaw) output.docs) evs' (.error failure)) :
      Run e source p (.spans depth (.tag tag :: spans)) (evs ++ evs') (.error failure)
  | tag {p : Progress σ} {depth : Nat} {tag : Markup.Tag} {spans : List Markup.Span}
      {evs evs' evs'' : List (Event σ)} {output : Output} {kind : Kind} {text : String}
      {r : Except Failure String}
      (h : Invoked e source p depth tag evs (.ok (output, kind)))
      (ho : Run e source (p.replay evs)
        (.output depth tag.name (kind == .raw || output.isRaw) output.docs) evs' (.ok text))
      (hw : Run e source (p.replay (evs ++ evs')) (.spans depth spans) evs'' r) :
      Run e source p (.spans depth (.tag tag :: spans)) (evs ++ evs' ++ evs'')
        (r.map (text ++ ·))
  | nothing {p : Progress σ} {depth : Nat} {tagName : String} {raw : Bool} :
      Run e source p (.output depth tagName raw []) [] (.ok "")
  | exempt {p : Progress σ} {depth : Nat} {tagName : String} {d : Document}
      {docs : List Document} {evs : List (Event σ)} {r : Except Failure String}
      (h : Run e source (p.replay [.emitted tagName d true, .spliced d.content])
        (.output depth tagName true docs) evs r) :
      Run e source p (.output depth tagName true (d :: docs))
        (.emitted tagName d true :: .spliced d.content :: evs) (r.map (d.content ++ ·))
  | broken {p : Progress σ} {depth : Nat} {tagName : String} {d : Document}
      {docs : List Document} {evs : List (Event σ)} {failure : Failure}
      (h : Run e source (p.apply (.emitted tagName d false)) (.text (depth + 1) d.content) evs
        (.error failure)) :
      Run e source p (.output depth tagName false (d :: docs)) (.emitted tagName d false :: evs)
        (.error (failure.inOutputOf tagName))
  | document {p : Progress σ} {depth : Nat} {tagName : String} {d : Document}
      {docs : List Document} {evs evs' : List (Event σ)} {text : String}
      {r : Except Failure String}
      (h : Run e source (p.apply (.emitted tagName d false)) (.text (depth + 1) d.content) evs
        (.ok text))
      (hd : Run e source (p.replay (.emitted tagName d false :: evs))
        (.output depth tagName false docs) evs' r) :
      Run e source p (.output depth tagName false (d :: docs))
        (.emitted tagName d false :: evs ++ evs') (r.map (text ++ ·))

/-! ## §3. What a pass does is a run. -/

/-- The step is what a run of a piece of work comes to. -/
def IsRun (e : Expander m σ) (source : String) (p : Progress σ) (piece : Piece)
    (s : Step σ String) : Prop :=
  ∃ evs, Run e source p piece evs s.1 ∧ s.2 = p.replay evs

/-- The step is what a run comes to, put behind the text that is woven already. -/
def IsRunBehind (e : Expander m σ) (source : String) (woven : String) (p : Progress σ)
    (piece : Piece) (s : Step σ String) : Prop :=
  ∃ r, IsRun e source p piece (r, s.2) ∧ s.1 = r.map (woven ++ ·)

/-- What a run does stands behind what has happened before. -/
theorem IsRun.history_suffix {e : Expander m σ} {source : String} {p : Progress σ} {piece : Piece}
    {s : Step σ String} (h : IsRun e source p piece s) : p.history <:+ s.2.history := by
  obtain ⟨evs, -, hs⟩ := h
  rw [hs, Progress.history_replay]
  exact List.suffix_append _ _

theorem IsRunBehind.history_suffix {e : Expander m σ} {source woven : String} {p : Progress σ}
    {piece : Piece} {s : Step σ String} (h : IsRunBehind e source woven p piece s) :
    p.history <:+ s.2.history := by
  obtain ⟨r, hrun, -⟩ := h
  exact hrun.history_suffix

/-- Text may be put behind another text in two parts. -/
theorem map_append (woven text : String) (r : Except Failure String) :
    r.map (woven ++ text ++ ·) = (r.map (text ++ ·)).map (woven ++ ·) := by
  cases r with
  | error failure => rfl
  | ok rest =>
      show Except.ok (woven ++ text ++ rest) = Except.ok (woven ++ (text ++ rest))
      rw [String.append_assoc]

/-- A changed result is one of a success. -/
theorem exists_of_map_eq_ok {α β : Type} {r : Except Failure α} {f : α → β} {b : β}
    (h : r.map f = .ok b) : ∃ a, r = .ok a ∧ b = f a := by
  cases r with
  | error failure => cases h
  | ok a =>
      cases h
      exact ⟨a, rfl, rfl⟩

/-- Nothing is put behind the woven text. -/
theorem ok_eq_map_empty (woven : String) :
    (.ok woven : Except Failure String) = (Except.ok "").map (woven ++ ·) := by
  show Except.ok woven = Except.ok (woven ++ "")
  rw [String.append_empty]

/-- Nothing is put in front of a text that is expanded by itself. -/
theorem isRun_of_behind_empty {e : Expander m σ} {source : String} {p : Progress σ}
    {piece : Piece} {s : Step σ String} (h : IsRunBehind e source "" p piece s) :
    IsRun e source p piece s := by
  obtain ⟨r, hrun, hs⟩ := h
  have hr : r.map ("" ++ ·) = r := by
    cases r with
    | error failure => rfl
    | ok text =>
        show Except.ok ("" ++ text) = Except.ok text
        rw [String.empty_append]
  obtain ⟨s, q⟩ := s
  rw [hr] at hs
  subst hs
  exact hrun

/-- What is left of a pass that ends with some progress. -/
def outcomeOf (q : Progress σ) (r : Except Failure String) : Outcome σ :=
  ⟨r.map fun content => ⟨content, q.metadata⟩, q.disposeAll.events, q.signal⟩

section Runs

variable [Monad m] [LawfulMonad m] (e : Expander m σ) (source : String)

/-- What a tag is handed to its handler with, and what comes of it. -/
theorem always_invoke (depth : Nat) (tag : Markup.Tag) (p : Progress σ) :
    Always (fun s => ∃ evs, Invoked e source p depth tag evs s.1 ∧ s.2 = p.replay evs)
      (invoke e source depth tag p) := by
  unfold invoke
  by_cases hstop : p.signal.isRaised = true
  · rw [if_pos hstop]
    exact .pure ⟨[], .stopped hstop, rfl⟩
  · rw [if_neg hstop]
    rw [Bool.not_eq_true] at hstop
    cases hentry : e.registry.resolve? tag.name with
    | none => exact .pure ⟨[], .unknown hstop hentry, rfl⟩
    | some entry =>
        simp only [Progress.enter_eq]
        refine (Script.always_run e.files _ _).bind fun ran hran => ?_
        rw [Progress.signal_creation] at hran
        obtain ⟨⟨after, result⟩, signal, readings⟩ := ran
        -- the call as it is noted in the history
        let call : Call σ := ⟨tag.name, entry.name,
          ⟨tag.arguments, tag.content, ⟨source, p.metadata⟩, contextOf e tag depth⟩,
          p.found entry, after, readings, signal, result⟩
        have hcall : Executes e source p depth tag entry call :=
          ⟨hstop, hentry, rfl, rfl, rfl, rfl, hran⟩
        have hleave : (p.replay (p.creation entry)).leave call =
            p.replay (called p entry call) := by
          rw [called, Progress.replay_append]
          rfl
        cases result with
        | error fault => exact .pure ⟨_, .failed hcall rfl, hleave⟩
        | ok output => exact .pure ⟨_, .executed hcall rfl, hleave⟩

/-- The output of a tag is put into the result by a run, if its texts are expanded by
    runs. -/
theorem always_weaveOutput (depth : Nat) (tagName : String) (raw : Bool) (inner : Inner m σ)
    (hinner : ∀ text p, Always (IsRun e source p (.text (depth + 1) text)) (inner text p))
    (docs : List Document) (woven : String) (p : Progress σ) :
    Always (IsRunBehind e source woven p (.output depth tagName raw docs))
      (weaveOutput inner tagName raw woven docs p) := by
  -- on the documents; every one changes the progress that the next one starts from
  induction docs generalizing woven p with
  | nil => exact .pure ⟨.ok "", ⟨[], .nothing, rfl⟩, ok_eq_map_empty woven⟩
  | cons d docs ih =>
      unfold weaveOutput
      cases raw with
      | true =>
          rw [if_pos rfl]
          refine (ih _ _).mono ?_
          intro s hs
          obtain ⟨_, q⟩ := s
          obtain ⟨r, ⟨evs, hrun, rfl⟩, rfl⟩ := hs
          exact ⟨_, ⟨_, .exempt hrun, rfl⟩, map_append woven d.content r⟩
      | false =>
          rw [if_neg Bool.false_ne_true]
          -- the text of the document first, then the documents behind it
          refine (hinner _ _).bind ?_
          intro s hs
          obtain ⟨r, q⟩ := s
          obtain ⟨evs, hrun, rfl⟩ := hs
          cases r with
          | error failure => exact .pure ⟨_, ⟨_, .broken hrun, rfl⟩, rfl⟩
          | ok text =>
              refine (ih _ _).mono ?_
              intro s hs
              obtain ⟨_, q⟩ := s
              obtain ⟨r, ⟨evs', hrun', rfl⟩, rfl⟩ := hs
              refine ⟨_, ⟨_, .document hrun hrun', ?_⟩, map_append woven text r⟩
              rw [Progress.replay_append]
              rfl

/-- The spans of a text are put into the result by a run, if output is expanded by
    runs. -/
theorem always_weave (depth : Nat) (inner : Inner m σ)
    (hinner : ∀ text p, Always (IsRun e source p (.text (depth + 1) text)) (inner text p))
    (spans : List Markup.Span) (woven : String) (p : Progress σ) :
    Always (IsRunBehind e source woven p (.spans depth spans))
      (weave e source depth inner woven spans p) := by
  -- on the spans; a tag is handled, its output woven, and the rest goes on from there
  induction spans generalizing woven p with
  | nil => exact .pure ⟨.ok "", ⟨[], .finished, rfl⟩, ok_eq_map_empty woven⟩
  | cons span spans ih =>
      unfold weave
      cases span with
      | literal text =>
          refine (ih _ _).mono ?_
          intro s hs
          obtain ⟨_, q⟩ := s
          obtain ⟨r, ⟨evs, hrun, rfl⟩, rfl⟩ := hs
          exact ⟨_, ⟨_, .literal hrun, rfl⟩, map_append woven text r⟩
      | tag tag =>
          refine (always_invoke e source depth tag p).bind ?_
          intro s hs
          obtain ⟨answer, q⟩ := s
          obtain ⟨evs, hinvoked, rfl⟩ := hs
          cases answer with
          | error failure => exact .pure ⟨_, ⟨_, .refused hinvoked, rfl⟩, rfl⟩
          | ok answer =>
              obtain ⟨output, kind⟩ := answer
              refine (always_weaveOutput e source depth tag.name _ inner hinner output.docs
                woven _).bind ?_
              intro s hs
              obtain ⟨_, q⟩ := s
              obtain ⟨r, ⟨evs', hrun, rfl⟩, rfl⟩ := hs
              cases r with
              | error failure =>
                  refine .pure ⟨_, ⟨_, .cut hinvoked hrun, ?_⟩, rfl⟩
                  rw [Progress.replay_append]
              | ok text =>
                  refine (ih _ _).mono ?_
                  intro s hs
                  obtain ⟨_, q⟩ := s
                  obtain ⟨r, ⟨evs'', hrun', rfl⟩, rfl⟩ := hs
                  rw [← Progress.replay_append] at hrun'
                  refine ⟨_, ⟨_, .tag hinvoked hrun hrun', ?_⟩, map_append woven text r⟩
                  show ((p.replay evs).replay evs').replay evs'' = _
                  rw [Progress.replay_append, Progress.replay_append]

/-- **What the expansion of a text does is one of its runs.** -/
theorem always_expand (levels depth : Nat) (hlevels : levels + depth = e.maxDepth + 1)
    (text : String) (p : Progress σ) :
    Always (IsRun e source p (.text depth text)) (expand e source levels depth text p) := by
  -- on the levels that are left, which the depth makes up to a fixed number
  induction levels generalizing depth text p with
  | zero =>
      unfold expand
      split
      next hmarker => exact .pure ⟨[], .tooDeep hmarker (by omega), rfl⟩
      next hmarker =>
        rw [Bool.not_eq_true] at hmarker
        exact .pure ⟨_, .plain hmarker, rfl⟩
  | succ levels ih =>
      unfold expand
      split
      next hmarker =>
        cases hscan : Markup.scan e.registry.isRaw text with
        | error cause => exact .pure ⟨_, .malformed hmarker (by omega) hscan, rfl⟩
        | ok spans =>
            refine (always_weave e source depth _ ?_ spans "" _).mono ?_
            · intro text p
              exact ih (depth + 1) (by omega) text p
            · intro s hs
              obtain ⟨evs, hrun, hq⟩ := isRun_of_behind_empty hs
              exact ⟨_, .scanned hmarker (by omega) hscan hrun, hq⟩
      next hmarker =>
        rw [Bool.not_eq_true] at hmarker
        exact .pure ⟨_, .plain hmarker, rfl⟩

/-- **What a pass does is a run from its start.** -/
theorem always_process (document : Document) (signal : StopSignal) :
    Always (fun o => ∃ evs r,
        Run e document.content (.start document.metadata signal) (.text 0 document.content) evs r ∧
        o = outcomeOf ((Progress.start document.metadata signal).replay evs) r)
      (e.process document signal) := by
  unfold Expander.process
  refine (always_expand e document.content (e.maxDepth + 1) 0 rfl document.content _).bind ?_
  intro s hs
  obtain ⟨r, q⟩ := s
  obtain ⟨evs, hrun, rfl⟩ := hs
  exact .pure ⟨evs, r, hrun, rfl⟩

end Runs

/-- The events of a pass are those that have happened when it ends, and behind them the
    disposals of its instances, in the order of their creation. -/
theorem events_outcomeOf_eq (q : Progress σ) (r : Except Failure String) :
    (outcomeOf q r).events =
      q.history.reverse ++ q.instances.map fun i => .disposed i.name i.state := by
  show List.reverse (List.reverse _ ++ q.history) = _
  rw [List.reverse_append, List.reverse_reverse]

/-- What has happened when a pass ends is what its run has done. -/
theorem events_outcomeOf (metadata : Metadata) (signal : StopSignal) (evs : List (Event σ))
    (r : Except Failure String) :
    (outcomeOf ((Progress.start metadata signal).replay evs) r).events =
      evs ++ ((Progress.start metadata signal).replay evs).instances.map
        fun i => .disposed i.name i.state := by
  rw [events_outcomeOf_eq, Progress.history_replay]
  show List.reverse (evs.reverse ++ []) ++ _ = _
  rw [List.append_nil, List.reverse_reverse]

theorem eq_disposed_of_mem {instances : List (Instance σ)} {ev : Event σ}
    (h : ev ∈ instances.map fun i => .disposed i.name i.state) :
    ∃ name state, ev = .disposed name state := by
  obtain ⟨i, -, rfl⟩ := List.mem_map.1 h
  exact ⟨i.name, i.state, rfl⟩

/-! ## §4. Passes to look at. -/

/-- The failure of a pass, if it fails. -/
def Outcome.failure? (o : Outcome σ) : Option Failure :=
  match o.result with
  | .ok _ => none
  | .error failure => some failure

theorem Outcome.failure?_eq_some_iff {o : Outcome σ} {failure : Failure} :
    o.failure? = some failure ↔ o.result = .error failure := by
  unfold failure?
  cases o.result <;> simp

/-- The builtin handlers, where no file can be read. -/
def builtinsAlone : Expander Id Unit :=
  ⟨Builtin.registry, ⟨fun _ => .error .notFound, fun _ => none⟩, ⟨[]⟩, none, defaultMaxDepth⟩

/-- The builtin handlers and one whose output is its own tag, under a limit. -/
def selfReference (limit : Nat) : Expander Id Unit :=
  ⟨Builtin.registry.register ⟨"Self", .standard,
      Builtin.pureHandler fun _ => .ok (.ofContent "<?# Self /?>")⟩,
    ⟨fun _ => .error .notFound, fun _ => none⟩, ⟨[]⟩, none, limit⟩

/-- A loop over two items that shows each of them; names are spelled in several ways. -/
def loopDocument : Document :=
  ⟨"<?# ForEach Items Item ?><?# meta Item /?>,<?#/ FOREACH ?>",
    Metadata.empty.insert "Items" (.array [.bool true, .bool false])⟩

end Pass

end TagExpander
