/-
  TagExpander.Pass.Expand — expanding the tags of a document.

  A text is scanned, its tags are handled from left to right, and what their handlers
  put out takes their place.  Output that is not raw is expanded in turn, before the
  next tag is handled, down to a limit of nesting; its metadata are merged first.
  Text without markers is never looked at, at any depth.

  The recursion is on the levels of nesting that are left, so every pass ends.

  Main results:
    * `expand_of_not_containsMarker` — text without markers stands for itself.
-/

import TagExpander.Pass.Progress

namespace TagExpander

/-- The limit of nesting, where none is chosen. -/
def defaultMaxDepth : Nat := 10

/-- What passes have in common. -/
structure Expander (m : Type → Type) (σ : Type) where
  /-- The handlers. -/
  registry : Registry σ
  /-- How files are read. -/
  files : Files m
  /-- The directory that relative paths start from. -/
  baseDir : Path
  /-- The path of the document, if it is known. -/
  sourcePath : Option Path
  /-- How deeply handler output may be nested. -/
  maxDepth : Nat

namespace Pass

variable {m : Type → Type} [Monad m] {σ : Type}

/-- The result of a step, with the state after it; a step that fails leaves a state,
    too. -/
abbrev Step (σ α : Type) := Except Failure α × Progress σ

/-- How a text at the next depth is expanded. -/
abbrev Inner (m : Type → Type) (σ : Type) := String → Progress σ → m (Step σ String)

/-! ## §1. One tag -/

/-- The surroundings of a tag. -/
def contextOf (e : Expander m σ) (tag : Markup.Tag) (depth : Nat) : Context :=
  ⟨e.sourcePath, e.baseDir, tag.line, depth⟩

/-- Executes the handler of a tag; gives its output and the kind of the handler. -/
def invoke (e : Expander m σ) (source : String) (depth : Nat) (tag : Markup.Tag)
    (p : Progress σ) : m (Step σ (Output × Kind)) :=
  if p.signal.isRaised then pure (.error .stopped, p)
  else
    match e.registry.resolve? tag.name with
    | none => pure (.error (.unknown tag.name), p)
    | some entry => do
      let call : Invocation :=
        ⟨tag.arguments, tag.content, ⟨source, p.metadata⟩, contextOf e tag depth⟩
      let (state, p) := p.enter entry
      let ran ← (entry.handler.execute state call).run e.files p.signal
      let (after, result) := ran.result
      let p := p.leave ⟨tag.name, entry.name, call, state, after, ran.readings, ran.signal, result⟩
      match result with
      | .error fault => pure (.error (.ofHandler tag.name fault), p)
      | .ok output => pure (.ok (output, entry.kind), p)

/-- Puts the documents of a tag behind the text that is woven already. -/
def weaveOutput (inner : Inner m σ) (tagName : String) (raw : Bool) :
    (woven : String) → List Document → Progress σ → m (Step σ String)
  | woven, [], p => pure (.ok woven, p)
  | woven, d :: ds, p => do
    let p := p.merge tagName d raw
    if raw then
      weaveOutput inner tagName raw (woven ++ d.content) ds (p.record (.spliced d.content))
    else
      match ← inner d.content p with
      | (.error failure, p) => pure (.error (failure.inOutputOf tagName), p)
      | (.ok text, p) => weaveOutput inner tagName raw (woven ++ text) ds p

/-! ## §2. All tags of a text -/

/-- Puts the spans of a text behind the text that is woven already. -/
def weave (e : Expander m σ) (source : String) (depth : Nat) (inner : Inner m σ) :
    (woven : String) → List Markup.Span → Progress σ → m (Step σ String)
  | woven, [], p => pure (.ok woven, p)
  | woven, .literal text :: spans, p =>
    weave e source depth inner (woven ++ text) spans (p.record (.spliced text))
  | woven, .tag tag :: spans, p => do
    match ← invoke e source depth tag p with
    | (.error failure, p) => pure (.error failure, p)
    | (.ok (output, kind), p) =>
      match ← weaveOutput inner tag.name (kind == .raw || output.isRaw) woven output.docs p with
      | (.error failure, p) => pure (.error failure, p)
      | (.ok woven, p) => weave e source depth inner woven spans p

/-- Expands a text at a depth, with `levels` levels of nesting left, this one
    included. -/
def expand (e : Expander m σ) (source : String) :
    (levels depth : Nat) → String → Progress σ → m (Step σ String)
  | levels, depth, text, p =>
    if Markup.containsMarker text then
      match levels with
      | 0 => pure (.error (.tooDeep e.maxDepth), p)
      | levels + 1 =>
        match Markup.scan e.registry.isRaw text with
        | .error cause => pure (.error (.malformed cause none), p.record (.scanned text))
        | .ok spans =>
          weave e source depth (expand e source levels (depth + 1)) "" spans
            (p.record (.scanned text))
    else pure (.ok text, p.record (.spliced text))

/-- Text without markers stands for itself. -/
theorem expand_of_not_containsMarker {e : Expander m σ} {source : String} {levels depth : Nat}
    {text : String} {p : Progress σ} (h : Markup.containsMarker text = false) :
    expand e source levels depth text p = pure (.ok text, p.record (.spliced text)) := by
  cases levels <;> simp [expand, h]

/-! ## §3. A pass -/

/-- What is left of a pass. -/
structure Outcome (σ : Type) where
  /-- The expanded document, or the first failure. -/
  result : Except Failure Document
  /-- What happened, in order. -/
  events : List (Event σ)
  /-- The stop signal afterwards. -/
  signal : StopSignal

end Pass

namespace Expander

variable {m : Type → Type} [Monad m] {σ : Type}

/-- Expands the tags of a document.  Whatever the result, the instances that were
    created are disposed of at the end. -/
def process (e : Expander m σ) (document : Document) (signal : StopSignal) :
    m (Pass.Outcome σ) := do
  let (result, p) ←
    Pass.expand e document.content (e.maxDepth + 1) 0 document.content
      (.start document.metadata signal)
  let document := result.map fun content => (⟨content, p.metadata⟩ : Document)
  let p := p.disposeAll
  pure ⟨document, p.events, p.signal⟩

/-- Expands several documents, one after the other; only the stop signal passes from
    one to the next. -/
def processAll (e : Expander m σ) : List Document → StopSignal →
    m (List (Pass.Outcome σ) × StopSignal)
  | [], signal => pure ([], signal)
  | d :: ds, signal => do
    let outcome ← e.process d signal
    let (outcomes, signal) ← e.processAll ds outcome.signal
    pure (outcome :: outcomes, signal)

end Expander

end TagExpander
