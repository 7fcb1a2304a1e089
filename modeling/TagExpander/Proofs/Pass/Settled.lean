/-
  TagExpander.Proofs.Pass.Settled — passes in which canonical forms do not change.

  Where the canonical form of a path is the same whenever it is asked for, a script may
  as well know it from the start: it is settled, and asks only for what can change.  A
  pass is the same with settled handlers, so its runs may be taken to be runs of them.

  Main results:
    * `Script.run_settle` — a settled script runs as the script does.
    * `Pass.process_congr` — a pass is determined by how tags are handed to handlers.
    * `Pass.process_settle` — a pass with settled handlers is the same.
    * `Pass.process_congr_files` — what no handler asks for makes no difference.
-/
import TagExpander.Proofs.Pass.Run

namespace TagExpander

variable {m : Type → Type} {σ : Type}

/-! ## §1. Scripts. -/

namespace Script

variable {α β : Type} {canon : Path → Option Path}

/-- The script with its requests for canonical forms answered. -/
def settle (canon : Path → Option Path) : Script α → Script α
  | .done a => .done a
  | .read path next => .read path fun answer => (next answer).settle canon
  | .canonical path next => (next (canon path)).settle canon
  | .stop next => .stop (next.settle canon)
  | .isStopped next => .isStopped fun answer => (next answer).settle canon

theorem settle_bind (s : Script α) (f : α → Script β) :
    (s.bind f).settle canon = (s.settle canon).bind fun a => (f a).settle canon := by
  induction s with
  | done a => rfl
  | read path next ih => exact congrArg (Script.read path) (funext ih)
  | canonical path next ih => exact ih (canon path)
  | stop next ih => exact congrArg Script.stop ih
  | isStopped next ih => exact congrArg Script.isStopped (funext ih)

/-- **A settled script runs as the script does**, where canonical forms do not change. -/
theorem run_settle [Monad m] [LawfulMonad m] {files : Files m}
    (hcanon : ∀ path, files.canonical path = pure (canon path)) (signal : StopSignal)
    (s : Script α) : (s.settle canon).run files signal = s.run files signal := by
  induction s generalizing signal with
  | done a => rfl
  | read path next ih =>
      refine congrArg (files.read path >>= ·) (funext fun answer => ?_)
      rw [ih answer signal]
  | canonical path next ih =>
      show ((next (canon path)).settle canon).run files signal =
        files.canonical path >>= fun answer => (next answer).run files signal
      rw [hcanon, pure_bind, ih (canon path) signal]
  | stop next ih => exact ih signal.raise
  | isStopped next ih => exact ih signal.isRaised signal

/-- All files that the script can ask for have the property. -/
inductive Reads (P : Path → Prop) : Script α → Prop where
  | done (a : α) : Reads P (.done a)
  | read {path : Path} {next : Except FileFault String → Script α} (hpath : P path)
      (h : ∀ answer, Reads P (next answer)) : Reads P (.read path next)
  | canonical {path : Path} {next : Option Path → Script α} (h : ∀ answer, Reads P (next answer)) :
      Reads P (.canonical path next)
  | stop {next : Script α} (h : Reads P next) : Reads P (.stop next)
  | isStopped {next : Bool → Script α} (h : ∀ answer, Reads P (next answer)) :
      Reads P (.isStopped next)

namespace Reads

variable {P : Path → Prop} {s : Script α}

theorem bind {f : α → Script β} (hs : Reads P s) (hf : ∀ a, Reads P (f a)) :
    Reads P (s.bind f) := by
  induction hs with
  | done a => exact hf a
  | read hpath _ ih => exact .read hpath ih
  | canonical _ ih => exact .canonical ih
  | stop _ ih => exact .stop ih
  | isStopped _ ih => exact .isStopped ih

/-- Nothing else is read. -/
theorem of_mem_readings {signal : StopSignal} {ran : Ran α} (h : Reads P s)
    (hran : Runs signal s ran) : ∀ reading ∈ ran.readings, P reading.path := by
  induction hran with
  | done => exact nofun
  | read answer _ ih =>
      cases h with
      | read hpath h =>
          intro reading hmem
          rcases List.mem_cons.1 hmem with rfl | hmem
          · exact hpath
          · exact ih (h answer) reading hmem
  | canonical answer _ ih =>
      cases h with
      | canonical h => exact ih (h answer)
  | stop _ ih =>
      cases h with
      | stop h => exact ih h
  | isStopped _ ih =>
      cases h with
      | isStopped h => exact ih (h _)

/-- What all other files are makes no difference. -/
theorem run_congr [Monad m] {files files' : Files m} (h : Reads P s)
    (hread : ∀ path, P path → files.read path = files'.read path)
    (hcanon : files.canonical = files'.canonical) (signal : StopSignal) :
    s.run files signal = s.run files' signal := by
  induction h generalizing signal with
  | done a => rfl
  | @read path next hpath _ ih =>
      show files.read path >>= _ = files'.read path >>= _
      rw [hread path hpath]
      refine congrArg (files'.read path >>= ·) (funext fun answer => ?_)
      rw [ih answer signal]
  | @canonical path next _ ih =>
      show files.canonical path >>= _ = files'.canonical path >>= _
      rw [hcanon]
      exact congrArg (files'.canonical path >>= ·) (funext fun answer => ih answer signal)
  | stop _ ih => exact ih signal.raise
  | isStopped _ ih => exact ih signal.isRaised signal

end Reads

end Script

/-! ## §2. Registries. -/

/-- The handler with settled scripts. -/
def Handler.settle (canon : Path → Option Path) (h : Handler σ) : Handler σ :=
  { h with execute state call := (h.execute state call).settle canon }

/-- The entry with a settled handler. -/
def Entry.settle (canon : Path → Option Path) (entry : Entry σ) : Entry σ :=
  { entry with handler := entry.handler.settle canon }

/-- The registry with settled handlers. -/
def Registry.settle (canon : Path → Option Path) (r : Registry σ) : Registry σ where
  entries := r.entries.map (·.settle canon)
  distinct := by
    rw [List.map_map]
    exact r.distinct

theorem Registry.resolve?_settle (canon : Path → Option Path) (r : Registry σ) (name : String) :
    (r.settle canon).resolve? name = (r.resolve? name).map (·.settle canon) := by
  unfold resolve? settle
  rw [List.find?_map]
  rfl

theorem Registry.isRaw_settle (canon : Path → Option Path) (r : Registry σ) :
    (r.settle canon).isRaw = r.isRaw := by
  funext name
  unfold isRaw
  rw [resolve?_settle, Option.any_map]
  rfl

/-- The expander with settled handlers. -/
def Expander.settle (canon : Path → Option Path) (e : Expander m σ) : Expander m σ :=
  { e with registry := e.registry.settle canon }

namespace Pass

/-! ## §3. Passes. -/

section Congruence

variable [Monad m] {e e' : Expander m σ} (source : String)

theorem weave_congr
    (hinvoke : ∀ depth tag p, invoke e source depth tag p = invoke e' source depth tag p)
    (depth : Nat) (inner : Inner m σ) (woven : String) (spans : List Markup.Span)
    (p : Progress σ) :
    weave e source depth inner woven spans p = weave e' source depth inner woven spans p := by
  induction spans generalizing woven p with
  | nil => rfl
  | cons span spans ih =>
      cases span with
      | literal text => exact ih (woven ++ text) _
      | tag tag =>
          simp only [weave, hinvoke, ih]

theorem expand_congr (hraw : e.registry.isRaw = e'.registry.isRaw)
    (hdepth : e.maxDepth = e'.maxDepth)
    (hinvoke : ∀ depth tag p, invoke e source depth tag p = invoke e' source depth tag p)
    (levels depth : Nat) (text : String) (p : Progress σ) :
    expand e source levels depth text p = expand e' source levels depth text p := by
  -- on the levels that are left; a level is woven by way of the next one
  induction levels generalizing depth text p with
  | zero => simp only [expand, hdepth]
  | succ levels ih =>
      have hinner : expand e source levels (depth + 1) = expand e' source levels (depth + 1) :=
        funext fun text => funext fun p => ih (depth + 1) text p
      simp only [expand, hraw, hinner, weave_congr source hinvoke]

/-- **A pass is determined by how tags are handed to their handlers**, by which of them
    are raw, and by the limit of nesting. -/
theorem process_congr (hraw : e.registry.isRaw = e'.registry.isRaw)
    (hdepth : e.maxDepth = e'.maxDepth)
    (hinvoke : ∀ source depth tag p, invoke e source depth tag p = invoke e' source depth tag p)
    (document : Document) (signal : StopSignal) :
    e.process document signal = e'.process document signal := by
  unfold Expander.process
  rw [expand_congr document.content hraw hdepth (hinvoke document.content), hdepth]

end Congruence

/-- **A pass with settled handlers is the same**, where canonical forms do not change. -/
theorem process_settle [Monad m] [LawfulMonad m] (e : Expander m σ) (canon : Path → Option Path)
    (hcanon : ∀ path, e.files.canonical path = pure (canon path)) (document : Document)
    (signal : StopSignal) :
    (e.settle canon).process document signal = e.process document signal := by
  have hresolve : ∀ name, (e.settle canon).registry.resolve? name =
      (e.registry.resolve? name).map (·.settle canon) :=
    Registry.resolve?_settle canon e.registry
  have hinvoke : ∀ source depth tag p,
      invoke (e.settle canon) source depth tag p = invoke e source depth tag p := by
    intro source depth tag p
    unfold invoke
    rw [hresolve]
    cases e.registry.resolve? tag.name with
    | none => rfl
    | some entry =>
        have hrun : ∀ state call signal,
            ((entry.settle canon).handler.execute state call).run (e.settle canon).files signal =
              (entry.handler.execute state call).run e.files signal :=
          fun state call signal => Script.run_settle hcanon signal _
        simp only [Option.map_some, hrun]
        rfl
  refine process_congr ?_ ?_ hinvoke document signal
  · exact Registry.isRaw_settle canon e.registry
  · rfl

/-- **What no handler asks for makes no difference to a pass.** -/
theorem process_congr_files [Monad m] (e : Expander m σ) (files : Files m) {P : Path → Prop}
    (hreads : ∀ name entry state (call : Invocation), e.registry.resolve? name = some entry →
      call.context.baseDir = e.baseDir → (entry.handler.execute state call).Reads P)
    (hread : ∀ path, P path → files.read path = e.files.read path)
    (hcanon : files.canonical = e.files.canonical) (document : Document) (signal : StopSignal) :
    Expander.process { e with files } document signal = e.process document signal := by
  have hinvoke : ∀ source depth tag p,
      invoke { e with files } source depth tag p = invoke e source depth tag p := by
    intro source depth tag p
    unfold invoke
    dsimp only
    cases hresolve : e.registry.resolve? tag.name with
    | none => rfl
    | some entry =>
        have hrun : ∀ state signal,
            (entry.handler.execute state ⟨tag.arguments, tag.content, ⟨source, p.metadata⟩,
                contextOf e tag depth⟩).run files signal =
              (entry.handler.execute state ⟨tag.arguments, tag.content, ⟨source, p.metadata⟩,
                contextOf e tag depth⟩).run e.files signal :=
          fun state signal => (hreads _ _ state _ hresolve rfl).run_congr hread hcanon signal
        dsimp only [contextOf] at hrun ⊢
        simp only [hrun]
  refine process_congr ?_ ?_ hinvoke document signal
  · rfl
  · rfl

end Pass

end TagExpander
