/-
  TagExpander.Pass.Progress — the state of a pass.

  A pass carries along the metadata as they stand, the handler instances it has
  created, the stop signal, and the history of what it has done.  There is one
  instance for each name, in any spelling; it is created by the first tag of its
  name, keeps its state from tag to tag, and is disposed of when the pass ends.

  Main results:
    * `state?_setState` — what an instance finds is what its last tag left.
-/

import TagExpander.Registry
import TagExpander.Failure

namespace TagExpander.Pass

/-! ## §1. History -/

/-- One execution of a handler. -/
structure Call (σ : Type) where
  /-- The name of the tag, as written. -/
  tagName : String
  /-- The name of the handler, as registered. -/
  handlerName : String
  /-- What the handler was given. -/
  invocation : Invocation
  /-- The state of the instance before. -/
  before : σ
  /-- The state of the instance after. -/
  after : σ
  /-- What was read on the way. -/
  readings : List Script.Reading
  /-- The stop signal after the execution. -/
  signal : StopSignal
  /-- What came of it. -/
  result : Except HandlerFault Output

/-- What happens in a pass. -/
inductive Event (σ : Type) where
  /-- A text was scanned for tags. -/
  | scanned (text : String)
  /-- An instance of a handler was created. -/
  | created (handlerName : String) (state : σ)
  /-- A handler was executed. -/
  | executed (call : Call σ)
  /-- A document was put out by a tag, and its metadata were merged. -/
  | emitted (tagName : String) (document : Document) (raw : Bool)
  /-- A text was put into the result: text outside of tags, or raw output. -/
  | spliced (text : String)
  /-- An instance was disposed of, in its last state. -/
  | disposed (handlerName : String) (state : σ)

/-! ## §2. Instances -/

/-- An instance of a handler. -/
structure Instance (σ : Type) where
  /-- The name of the handler, as registered. -/
  name : String
  /-- Its state. -/
  state : σ

/-- The state of the instance of a name, if there is one. -/
def state? {σ : Type} (instances : List (Instance σ)) (name : String) : Option σ :=
  (instances.find? fun i => Text.same i.name name).map Instance.state

/-- Sets the state of the instance of a name. -/
def setState {σ : Type} (instances : List (Instance σ)) (name : String) (state : σ) :
    List (Instance σ) :=
  instances.map fun i => if Text.same i.name name then { i with state } else i

/-- What an instance finds is what was set last. -/
theorem state?_setState {σ : Type} (instances : List (Instance σ)) (name other : String)
    (state : σ) :
    state? (setState instances name state) other =
      if Text.fold name = Text.fold other then (state? instances other).map fun _ => state
      else state? instances other := by
  induction instances with
  | nil => simp [state?, setState]
  | cons i is ih =>
    simp only [state?, setState] at ih ⊢
    simp only [List.map_cons, List.find?_cons]
    have hname :
        (if Text.same i.name name then { i with state } else i : Instance σ).name = i.name := by
      split <;> rfl
    rw [hname]
    by_cases ho : Text.same i.name other = true
    · simp only [ho, Option.map_some]
      by_cases hn : Text.same i.name name = true
      · simp [hn, (Text.same_iff.1 hn).symm.trans (Text.same_iff.1 ho)]
      · have hne : ¬ Text.fold name = Text.fold other := by
          intro h
          exact hn (Text.same_iff.2 ((Text.same_iff.1 ho).trans h.symm))
        simp [hn, hne]
    · simp only [Bool.not_eq_true] at ho
      simpa [ho] using ih

/-! ## §3. Progress -/

/-- What a pass carries along. -/
structure Progress (σ : Type) where
  /-- The metadata as they stand. -/
  metadata : Metadata
  /-- The instances, in the order of their creation. -/
  instances : List (Instance σ)
  /-- The stop signal. -/
  signal : StopSignal
  /-- What has happened, latest first. -/
  history : List (Event σ)

namespace Progress

variable {σ : Type}

/-- The start of a pass. -/
def start (metadata : Metadata) (signal : StopSignal) : Progress σ :=
  ⟨metadata, [], signal, []⟩

/-- Notes an event. -/
def record (p : Progress σ) (event : Event σ) : Progress σ :=
  { p with history := event :: p.history }

/-- Merges the metadata of a document that was put out. -/
def merge (p : Progress σ) (tagName : String) (document : Document) (raw : Bool) : Progress σ :=
  { p with metadata := p.metadata.merge document.metadata }.record
    (.emitted tagName document raw)

/-- The state of the instance of an entry, created if need be. -/
def enter (p : Progress σ) (entry : Entry σ) : σ × Progress σ :=
  match state? p.instances entry.name with
  | some state => (state, p)
  | none =>
    let state := entry.handler.initial
    let created : Instance σ := ⟨entry.name, state⟩
    (state, { p with instances := p.instances ++ [created] }.record (.created entry.name state))

/-- Takes over what an execution leaves. -/
def leave (p : Progress σ) (call : Call σ) : Progress σ :=
  { p with
    instances := setState p.instances call.handlerName call.after
    signal := call.signal }.record (.executed call)

/-- Disposes of all instances, in the order of their creation. -/
def disposeAll (p : Progress σ) : Progress σ :=
  { p with
    instances := []
    history := (p.instances.map fun i => .disposed i.name i.state).reverse ++ p.history }

/-- What has happened, in order. -/
def events (p : Progress σ) : List (Event σ) :=
  p.history.reverse

end Progress

end TagExpander.Pass
