/-
  TagExpander.Proofs.Pass.Independent — documents do not get in each other's way.

  A pass starts with nothing but its document and the stop signal.  If no handler asks to
  stop, the signal stays as it is, so a pass leaves nothing behind for the next one.  And
  if the files stay as they are, passes may take turns where they wait for a file: each of
  them is a tree of its requests, and what becomes of it does not depend on when they are
  answered.

      one by one     ‹d₁ … › ‹d₂ …… ›          by turns     ‹d₁ ›‹d₂ …›‹d₁ …›‹d₂ ›

  Main results:
    * `Trace.signal_eq` — without a handler that asks to stop, the signal stays.
    * `process_translate` — a pass in one monad is a pass in another.
    * `processAll_independent` — the outcomes are those of the passes by themselves.
-/
import TagExpander.Proofs.Handler.Echoes
import TagExpander.Proofs.Pass.Trace

namespace TagExpander

variable {m n : Type → Type} {σ α β : Type}

/-! ## §1. Handlers that do not ask to stop. -/

/-- No handler asks to stop where nobody has done so. -/
def Registry.NeverStops (r : Registry σ) : Prop :=
  ∀ name entry, r.resolve? name = some entry → ∀ state call ran,
    (entry.handler.execute state call).Runs .clear ran → ran.signal = .clear

/-- Where there is no signal, none can be raised. -/
theorem Script.Runs.signal_absent {signal : StopSignal} {s : Script α} {ran : Ran α}
    (h : s.Runs signal ran) (habsent : signal = .absent) : ran.signal = .absent := by
  induction h with
  | done => exact habsent
  | read _ _ ih => exact ih habsent
  | canonical _ _ ih => exact ih habsent
  | stop _ ih =>
      rw [habsent] at ih
      exact ih rfl
  | isStopped _ ih => exact ih habsent

namespace Pass

section Signal

variable {e : Expander m σ} (hquiet : e.registry.NeverStops) {source : String} {p : Progress σ}
include hquiet

theorem Executes.signal_eq {depth : Nat} {tag : Markup.Tag} {entry : Entry σ} {call : Call σ}
    (h : Executes e source p depth tag entry call) : call.signal = p.signal := by
  have hrunning := h.running
  have hruns := h.runs
  cases hsignal : p.signal with
  | absent => exact hruns.signal_absent hsignal
  | clear =>
      rw [hsignal] at hruns
      exact hquiet tag.name entry h.resolves _ _ _ hruns
  | raised =>
      rw [hsignal] at hrunning
      cases hrunning

/-- **The signal stays as it is** along the events of a pass. -/
theorem Trace.signal_eq {evs : List (Event σ)} (h : Trace e source p evs) :
    (p.replay evs).signal = p.signal := by
  induction h with
  | nil => rfl
  | @inert p ev evs hev _ ih =>
      have hsignal : (p.apply ev).signal = p.signal := by
        cases ev with
        | executed call => cases hev
        | _ => rfl
      exact ih.trans hsignal
  | @execution p depth tag entry call evs hx _ ih =>
      have hsignal : (p.replay (called p entry call)).signal = p.signal := by
        rw [called, Progress.replay_append]
        exact hx.signal_eq hquiet
      rw [Progress.replay_append]
      exact ih.trans hsignal

theorem always_signal [Monad m] [LawfulMonad m] (document : Document) (signal : StopSignal) :
    Always (fun o => o.signal = signal) (e.process document signal) := by
  refine (always_process e document signal).mono ?_
  intro o ho
  obtain ⟨evs, r, hrun, rfl⟩ := ho
  exact hrun.trace.signal_eq hquiet

/-- The passes one by one: each starts with the signal that the first one started with. -/
theorem processAll_eq_mapM [Monad m] [LawfulMonad m] (docs : List Document)
    (signal : StopSignal) :
    e.processAll docs signal =
      (fun outcomes => (outcomes, signal)) <$> docs.mapM (e.process · signal) := by
  induction docs with
  | nil => simp [Expander.processAll]
  | cons d docs ih =>
      have hstep : e.processAll (d :: docs) signal =
          e.process d signal >>= fun o =>
            e.processAll docs signal >>= fun run => pure (o :: run.1, run.2) := by
        rw [Expander.processAll]
        exact (always_signal hquiet d signal).bind_congr fun o ho => by rw [ho]
      rw [hstep, ih, List.mapM_cons]
      simp only [map_bind, bind_map_left, map_pure]

end Signal

end Pass

/-! ## §2. Passes in other monads. -/

/-- Computations of one monad as computations of another. -/
structure Translation (m n : Type → Type) [Monad m] [Monad n] where
  /-- The computation in the other monad. -/
  app {α : Type} : m α → n α
  app_pure {α : Type} (a : α) : app (pure a) = pure a
  app_bind {α β : Type} (x : m α) (f : α → m β) : app (x >>= f) = app x >>= fun a => app (f a)

/-- Files that are read in the other monad. -/
def Files.translate [Monad m] [Monad n] (t : Translation m n) (files : Files m) : Files n :=
  ⟨fun path => t.app (files.read path), fun path => t.app (files.canonical path)⟩

/-- The expander with these files. -/
def Expander.withFiles (e : Expander m σ) (files : Files n) : Expander n σ :=
  { e with files }

@[simp] theorem Expander.registry_withFiles (e : Expander m σ) (files : Files n) :
    (e.withFiles files).registry = e.registry := rfl

section Translation

variable [Monad m] [Monad n] (t : Translation m n)

theorem Script.run_translate (files : Files m) (signal : StopSignal) (s : Script α) :
    t.app (s.run files signal) = s.run (files.translate t) signal := by
  induction s generalizing signal with
  | done a => exact t.app_pure _
  | read path next ih =>
      rw [run, t.app_bind]
      refine congrArg (t.app (files.read path) >>= ·) (funext fun answer => ?_)
      rw [t.app_bind, ih answer signal]
      exact congrArg (_ >>= ·) (funext fun ran => t.app_pure _)
  | canonical path next ih =>
      rw [run, t.app_bind]
      exact congrArg (t.app (files.canonical path) >>= ·)
        (funext fun answer => ih answer signal)
  | stop next ih => exact ih signal.raise
  | isStopped next ih => exact ih signal.isRaised signal

namespace Pass

variable (e : Expander m σ) (source : String)

theorem invoke_translate (depth : Nat) (tag : Markup.Tag) (p : Progress σ) :
    t.app (invoke e source depth tag p) =
      invoke (e.withFiles (e.files.translate t)) source depth tag p := by
  unfold invoke
  split
  · exact t.app_pure _
  · rw [e.registry_withFiles]
    cases e.registry.resolve? tag.name with
    | none => exact t.app_pure _
    | some entry =>
        dsimp only
        rw [t.app_bind, Script.run_translate]
        refine congrArg (_ >>= ·) (funext fun ran => ?_)
        cases ran.result.2 with
        | error fault => exact t.app_pure _
        | ok output => exact t.app_pure _

theorem weaveOutput_translate {inner : Inner m σ} {inner' : Inner n σ}
    (hinner : ∀ text p, t.app (inner text p) = inner' text p) (tagName : String) (raw : Bool)
    (docs : List Document) (woven : String) (p : Progress σ) :
    t.app (weaveOutput inner tagName raw woven docs p) =
      weaveOutput inner' tagName raw woven docs p := by
  induction docs generalizing woven p with
  | nil => exact t.app_pure _
  | cons d docs ih =>
      unfold weaveOutput
      dsimp only
      split
      · exact ih _ _
      · rw [t.app_bind, hinner]
        refine congrArg (_ >>= ·) (funext fun s => ?_)
        obtain ⟨r, q⟩ := s
        cases r with
        | error failure => exact t.app_pure _
        | ok text => exact ih _ _

theorem weave_translate (depth : Nat) {inner : Inner m σ} {inner' : Inner n σ}
    (hinner : ∀ text p, t.app (inner text p) = inner' text p) (spans : List Markup.Span)
    (woven : String) (p : Progress σ) :
    t.app (weave e source depth inner woven spans p) =
      weave (e.withFiles (e.files.translate t)) source depth inner' woven spans p := by
  induction spans generalizing woven p with
  | nil => exact t.app_pure _
  | cons span spans ih =>
      cases span with
      | literal text => exact ih _ _
      | tag tag =>
          unfold weave
          rw [t.app_bind, invoke_translate]
          refine congrArg (_ >>= ·) (funext fun s => ?_)
          obtain ⟨answer, q⟩ := s
          cases answer with
          | error failure => exact t.app_pure _
          | ok answer =>
              show t.app (_ >>= _) = _ >>= _
              rw [t.app_bind, weaveOutput_translate t hinner]
              refine congrArg (_ >>= ·) (funext fun s => ?_)
              obtain ⟨r, q⟩ := s
              cases r with
              | error failure => exact t.app_pure _
              | ok text => exact ih _ _

theorem expand_translate (levels depth : Nat) (text : String) (p : Progress σ) :
    t.app (expand e source levels depth text p) =
      expand (e.withFiles (e.files.translate t)) source levels depth text p := by
  -- on the levels that are left; a level is woven by way of the next one
  induction levels generalizing depth text p with
  | zero =>
      unfold expand
      split
      · exact t.app_pure _
      · exact t.app_pure _
  | succ levels ih =>
      unfold expand
      split
      · rw [e.registry_withFiles]
        cases Markup.scan e.registry.isRaw text with
        | error cause => exact t.app_pure _
        | ok spans => exact weave_translate t e source depth (ih (depth + 1)) spans "" _
      · exact t.app_pure _

/-- **A pass in one monad is a pass in another**, where its files are read in the other. -/
theorem process_translate (document : Document) (signal : StopSignal) :
    t.app (e.process document signal) =
      (e.withFiles (e.files.translate t)).process document signal := by
  unfold Expander.process
  rw [t.app_bind, expand_translate]
  exact congrArg (_ >>= ·) (funext fun s => t.app_pure _)

end Pass

end Translation

/-- What is known anyway may be given as a result. -/
def Translation.known [Monad m] [LawfulMonad m] : Translation Id m where
  app x := pure x.run
  app_pure _ := rfl
  app_bind x f := (pure_bind x.run fun a => pure (f a).run).symm

/-! ## §3. Computations that take turns. -/

/-- A computation that stands still where it waits for a file. -/
inductive Suspended (α : Type) where
  /-- The end. -/
  | done (result : α)
  /-- A file is to be read. -/
  | read (path : Path) (next : Except FileFault String → Suspended α)
  /-- A path is to be resolved. -/
  | canonical (path : Path) (next : Option Path → Suspended α)

namespace Suspended

/-- Goes on with another computation. -/
def bind (f : α → Suspended β) : Suspended α → Suspended β
  | .done a => f a
  | .read path next => .read path fun answer => (next answer).bind f
  | .canonical path next => .canonical path fun answer => (next answer).bind f

instance : Monad Suspended where
  pure := .done
  bind s f := s.bind f

/-- Files that are waited for. -/
def files : Files Suspended :=
  ⟨fun path => .read path .done, fun path => .canonical path .done⟩

variable (files : Files Id)

/-- The result, where the files stay as they are. -/
def result : Suspended α → α
  | .done a => a
  | .read path next => (next (files.read path).run).result
  | .canonical path next => (next (files.canonical path).run).result

theorem result_bind (s : Suspended α) (f : α → Suspended β) :
    (s.bind f).result files = (f (s.result files)).result files := by
  induction s with
  | done a => rfl
  | read path next ih => exact ih _
  | canonical path next ih => exact ih _

/-- A computation that waits, as one for which the files are known. -/
def translation : Translation Suspended Id where
  app s := pure (s.result files)
  app_pure _ := rfl
  app_bind s f := result_bind files s f

/-- A computation gets what it waits for. -/
inductive Step : Suspended α → Suspended α → Prop where
  | read (path : Path) (next : Except FileFault String → Suspended α) :
      Step (.read path next) (next (files.read path).run)
  | canonical (path : Path) (next : Option Path → Suspended α) :
      Step (.canonical path next) (next (files.canonical path).run)

/-- One of several computations gets what it waits for. -/
inductive Turn : List (Suspended α) → List (Suspended α) → Prop where
  | head {s s' : Suspended α} {rest : List (Suspended α)} (h : Step files s s') :
      Turn (s :: rest) (s' :: rest)
  | tail {s : Suspended α} {rest rest' : List (Suspended α)} (h : Turn rest rest') :
      Turn (s :: rest) (s :: rest')

/-- Any number of turns. -/
inductive Turns : List (Suspended α) → List (Suspended α) → Prop where
  | refl {waiting : List (Suspended α)} : Turns waiting waiting
  | step {waiting mid left : List (Suspended α)} (h : Turn files waiting mid)
      (hrest : Turns mid left) : Turns waiting left

variable {files}

theorem Step.result_eq {s s' : Suspended α} (h : Step files s s') :
    s'.result files = s.result files := by
  cases h <;> rfl

/-- A turn does not change what becomes of any computation. -/
theorem Turn.result_eq {waiting left : List (Suspended α)} (h : Turn files waiting left) :
    left.map (·.result files) = waiting.map (·.result files) := by
  induction h with
  | head h => rw [List.map_cons, List.map_cons, h.result_eq]
  | tail _ ih => rw [List.map_cons, List.map_cons, ih]

theorem Turns.result_eq {waiting left : List (Suspended α)} (h : Turns files waiting left) :
    left.map (·.result files) = waiting.map (·.result files) := by
  induction h with
  | refl => rfl
  | step h _ ih => exact ih.trans h.result_eq

/-- Where no turn is left, all computations are at their end. -/
theorem eq_done_of_no_turn {left : List (Suspended α)} (h : ∀ next, ¬Turn files left next) :
    left = (left.map (·.result files)).map .done := by
  induction left with
  | nil => rfl
  | cons s left ih =>
      have hrest := ih fun next hnext => h _ (.tail hnext)
      rw [List.map_cons, List.map_cons, ← hrest]
      cases s with
      | done a => rfl
      | read path next => exact absurd (.head (.read path next)) (h _)
      | canonical path next => exact absurd (.head (.canonical path next)) (h _)

/-- Every turn shortens what is left, so there is an end to them. -/
theorem acc_turn_cons (s : Suspended α) {rest : List (Suspended α)}
    (h : Acc (fun left waiting => Turn files waiting left) rest) :
    Acc (fun left waiting => Turn files waiting left) (s :: rest) := by
  -- on the first computation, and within each of its places on the turns of the others
  induction s generalizing rest with
  | done a =>
      induction h with
      | intro rest _ ih =>
          refine .intro _ fun left hturn => ?_
          cases hturn with
          | head hstep => cases hstep
          | tail hturn => exact ih _ hturn
  | read path next ihs =>
      induction h with
      | intro rest hrest ih =>
          refine .intro _ fun left hturn => ?_
          cases hturn with
          | head hstep =>
              cases hstep
              exact ihs _ (.intro rest hrest)
          | tail hturn => exact ih _ hturn
  | canonical path next ihs =>
      induction h with
      | intro rest hrest ih =>
          refine .intro _ fun left hturn => ?_
          cases hturn with
          | head hstep =>
              cases hstep
              exact ihs _ (.intro rest hrest)
          | tail hturn => exact ih _ hturn

theorem acc_turn (waiting : List (Suspended α)) :
    Acc (fun left waiting => Turn files waiting left) waiting := by
  induction waiting with
  | nil => exact .intro _ nofun
  | cons s waiting ih => exact acc_turn_cons s ih

/-- However computations take turns, they come to an end, with these results. -/
structure EndsWith (files : Files Id) (waiting : List (Suspended α)) (results : List α) :
    Prop where
  /-- The turns come to an end. -/
  ends : Acc (fun left waiting => Turn files waiting left) waiting
  /-- Where no turn is left, each computation has its result. -/
  results : ∀ left, Turns files waiting left → (∀ next, ¬Turn files left next) →
    left = results.map .done

theorem endsWith_results (waiting : List (Suspended α)) :
    EndsWith files waiting (waiting.map (·.result files)) where
  ends := acc_turn waiting
  results left hturns hend := by
    rw [← hturns.result_eq]
    exact eq_done_of_no_turn hend

end Suspended

/-! ## §4. Several documents. -/

namespace Pass

/-- What becomes of a pass, where the files stay as they are. -/
def outcomeWith (e : Expander m σ) (files : Files Id) (signal : StopSignal) (d : Document) :
    Outcome σ :=
  ((e.withFiles files).process d signal).run

/-- The pass, as a computation that waits for its files. -/
def suspended (e : Expander m σ) (signal : StopSignal) (d : Document) : Suspended (Outcome σ) :=
  (e.withFiles Suspended.files).process d signal

section Several

variable (e : Expander m σ) (files : Files Id) (signal : StopSignal) (d : Document)

theorem result_suspended : (suspended e signal d).result files = outcomeWith e files signal d :=
  congrArg Id.run
    (process_translate (Suspended.translation files) (e.withFiles Suspended.files) d signal)

theorem signal_outcomeWith (hquiet : e.registry.NeverStops) :
    (outcomeWith e files signal d).signal = signal := by
  have hquiet' : (e.withFiles files).registry.NeverStops := hquiet
  have hsignal := always_id_iff.1 (always_signal hquiet' d signal)
  exact hsignal

theorem process_eq_pure [Monad m] [LawfulMonad m] (hfiles : e.files = files.translate .known) :
    e.process d signal = pure (outcomeWith e files signal d) := by
  have htranslate : pure (outcomeWith e files signal d) =
      (e.withFiles (files.translate .known)).process d signal :=
    process_translate (Translation.known : Translation Id m) (e.withFiles files) d signal
  rw [← hfiles] at htranslate
  exact htranslate.symm

end Several

/-- **Documents are independent.**  Where no handler asks to stop, several documents are
    expanded by their own passes, one by one, whatever the files do.  And if the files stay
    as they are, each pass has an outcome that depends on its document alone: it has it
    by itself, however often it is made; among the passes of other documents, whether these
    fail or not; and where the passes take turns. -/
theorem processAll_independent [Monad m] [LawfulMonad m] (e : Expander m σ)
    (hquiet : e.registry.NeverStops) (docs : List Document) (signal : StopSignal) :
    e.processAll docs signal =
        (fun outcomes => (outcomes, signal)) <$> docs.mapM (e.process · signal) ∧
      ∀ files : Files Id, e.files = files.translate .known →
        (∀ d, e.process d signal = pure (outcomeWith e files signal d)) ∧
        (∀ d, (e.process d signal >>= fun first => e.process d first.signal >>= fun second =>
            pure (first, second)) =
          pure (outcomeWith e files signal d, outcomeWith e files signal d)) ∧
        e.processAll docs signal = pure (docs.map (outcomeWith e files signal), signal) ∧
        ((fun run => run.1.flatMap (·.events)) <$> e.processAll docs signal =
          pure (docs.flatMap fun d => (outcomeWith e files signal d).events)) ∧
        Suspended.EndsWith files (docs.map (suspended e signal))
          (docs.map (outcomeWith e files signal)) := by
  refine ⟨processAll_eq_mapM hquiet docs signal, fun files hfiles => ?_⟩
  have hsingle : ∀ d, e.process d signal = pure (outcomeWith e files signal d) :=
    fun d => process_eq_pure e files signal d hfiles
  have hall : e.processAll docs signal = pure (docs.map (outcomeWith e files signal), signal) := by
    rw [processAll_eq_mapM hquiet]
    simp only [hsingle, List.mapM_pure, map_pure]
  refine ⟨hsingle, ?_, hall, ?_, ?_⟩
  · intro d
    rw [hsingle, pure_bind, signal_outcomeWith e files signal d hquiet, hsingle, pure_bind]
  · rw [hall, map_pure, List.flatMap_map]
  · have hresults : (docs.map (suspended e signal)).map (·.result files) =
        docs.map (outcomeWith e files signal) := by
      rw [List.map_map]
      exact List.map_congr_left fun d _ => result_suspended e files signal d
    rw [← hresults]
    exact Suspended.endsWith_results _

/-- A handler that counts its tags, and one that puts out the text of a file. -/
def counting : Expander Id Nat where
  registry := [⟨"Count", .standard, ⟨0, fun n _ => .done (n + 1, .ok (.ofContent (toString n)))⟩⟩,
    ⟨"Read", .standard, ⟨0, fun n _ => .read (.ofString "notes") fun answer =>
      .done (n, match answer with
        | .ok text => .ok (.ofContent text)
        | .error fault => .error (.fault fault.message []))⟩⟩].foldl Registry.register .empty
  files := ⟨fun _ => .ok "<?# Count /?>", fun _ => none⟩
  baseDir := .ofString "."
  sourcePath := none
  maxDepth := defaultMaxDepth

theorem neverStops_counting : counting.registry.NeverStops := by
  intro name entry hresolve state call ran hran
  rcases Registry.mem_of_resolve? hresolve with hmem | hnone
  · simp only [List.mem_cons, List.not_mem_nil, or_false] at hmem
    rcases hmem with rfl | rfl
    · cases hran
      rfl
    · cases hran with
      | read answer hran =>
          cases hran
          rfl
  · cases hnone

/-- A document with two counted tags, one with an unknown tag, and one with a tag whose
    output is counted. -/
def countedDocuments : List Document :=
  [.ofContent "<?# Count /?><?# Count /?>", .ofContent "<?# Count /?><?# Missing /?>",
    .ofContent "<?# Read /?>, <?# count /?>"]

/-- The counts start anew in each document, and the second one fails by itself. -/
theorem processAll_independent_counting :
    counting.registry.NeverStops ∧
      (counting.processAll countedDocuments .clear).run.1.map
          (fun o => o.result.toOption.map (·.content)) = [some "01", none, some "0, 1"] ∧
      (counting.processAll countedDocuments .clear).run.1[1]?.bind (·.failure?) =
        some (.unknown "Missing") ∧
      Suspended.EndsWith counting.files (countedDocuments.map (suspended counting .clear))
        (counting.processAll countedDocuments .clear).run.1 := by
  obtain ⟨-, hfixed⟩ := processAll_independent counting neverStops_counting countedDocuments .clear
  obtain ⟨-, -, hall, -, hturns⟩ := hfixed counting.files rfl
  refine ⟨neverStops_counting, by decide +kernel, by decide +kernel, ?_⟩
  rw [hall]
  exact hturns

end Pass

end TagExpander
