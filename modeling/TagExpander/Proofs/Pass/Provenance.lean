/-
  TagExpander.Proofs.Pass.Provenance — where the text of a result comes from.

  A document grows into a tree.  A text with markers has the spans of its scan below it,
  a tag has one execution of its handler, and the documents that come of it; a document
  that is expanded has the tree of its text, and one that is exempt is a leaf, as the
  literal texts are:

      document ── literal · occurrence ─┬─ expanded ── literal · occurrence ── exempt
                                        └─ expanded ── literal

  A pass walks over this tree once, depth first, and its result is the text of the
  leaves.

  Main results:
    * `Run.grows` — the events of a run that succeeds are the walk over its tree.
    * `Grows.textsScanned_events` — only the document and the documents that are expanded
      are scanned, each of them once.
    * `process_provenance` — both for every pass that succeeds.
-/
import TagExpander.Proofs.Markup.Plain
import TagExpander.Proofs.Pass.Trace

namespace TagExpander.Pass

variable {m : Type → Type} {σ : Type}

/-! ## §1. Trees. -/

/-- What a piece of work grows into; `rest` is what stands behind, on the same level. -/
inductive Growth (σ : Type) where
  | done
  /-- Text outside of tags. -/
  | literal (text : String) (rest : Growth σ)
  /-- A text with markers, with the tree of its spans. -/
  | scanned (text : String) (inside : Growth σ)
  /-- An execution for a tag, with the tree of its output. -/
  | occurrence (call : Call σ) (output rest : Growth σ)
  /-- A document whose text is taken as it is. -/
  | exempt (d : Document) (rest : Growth σ)
  /-- A document with the tree of its text. -/
  | expanded (d : Document) (inside rest : Growth σ)

namespace Growth

/-- The texts at the leaves, from left to right. -/
def leaves : Growth σ → List String
  | done => []
  | literal text rest => text :: rest.leaves
  | scanned _ inside => inside.leaves
  | occurrence _ output rest => output.leaves ++ rest.leaves
  | exempt d rest => d.content :: rest.leaves
  | expanded _ inside rest => inside.leaves ++ rest.leaves

/-- The walk over a tree: a text is scanned before its spans are looked at, and all that
    grows out of an occurrence comes before what stands behind it. -/
def events : Growth σ → List (Event σ)
  | done => []
  | literal text rest => .spliced text :: rest.events
  | scanned text inside => .scanned text :: inside.events
  | occurrence call output rest => .executed call :: (output.events ++ rest.events)
  | exempt d rest => .spliced d.content :: rest.events
  | expanded _ inside rest => inside.events ++ rest.events

/-- The texts of the documents that are expanded, in order. -/
def textsExpanded : Growth σ → List String
  | done => []
  | literal _ rest => rest.textsExpanded
  | scanned _ inside => inside.textsExpanded
  | occurrence _ output rest => output.textsExpanded ++ rest.textsExpanded
  | exempt _ rest => rest.textsExpanded
  | expanded d inside rest => d.content :: (inside.textsExpanded ++ rest.textsExpanded)

end Growth

/-- The tree belongs to the piece of work.  The spans of a text are those of its scan;
    there is one occurrence for each of its tags, and what it puts out is exempt if its
    handler is raw or its output is. -/
inductive Grows (e : Expander m σ) (source : String) : Piece → Growth σ → Prop where
  | plain {depth : Nat} {text : String} (h : Markup.containsMarker text = false)
      (hs : Markup.scan e.registry.isRaw text = .ok (Markup.literalSpans text.toList)) :
      Grows e source (.text depth text) (.literal text .done)
  | scanned {depth : Nat} {text : String} {spans : List Markup.Span} {inside : Growth σ}
      (h : Markup.containsMarker text = true)
      (hs : Markup.scan e.registry.isRaw text = .ok spans)
      (hw : Grows e source (.spans depth spans) inside) :
      Grows e source (.text depth text) (.scanned text inside)
  | finished {depth : Nat} : Grows e source (.spans depth []) .done
  | literal {depth : Nat} {text : String} {spans : List Markup.Span} {rest : Growth σ}
      (h : Grows e source (.spans depth spans) rest) :
      Grows e source (.spans depth (.literal text :: spans)) (.literal text rest)
  | occurrence {p : Progress σ} {depth : Nat} {tag : Markup.Tag} {spans : List Markup.Span}
      {entry : Entry σ} {call : Call σ} {result : Output} {output rest : Growth σ}
      (hx : Executes e source p depth tag entry call) (hr : call.result = .ok result)
      (ho : Grows e source
        (.output depth tag.name (entry.kind == .raw || result.isRaw) result.docs) output)
      (h : Grows e source (.spans depth spans) rest) :
      Grows e source (.spans depth (.tag tag :: spans)) (.occurrence call output rest)
  | nothing {depth : Nat} {tagName : String} {raw : Bool} :
      Grows e source (.output depth tagName raw []) .done
  | exempt {depth : Nat} {tagName : String} {d : Document} {docs : List Document}
      {rest : Growth σ} (h : Grows e source (.output depth tagName true docs) rest) :
      Grows e source (.output depth tagName true (d :: docs)) (.exempt d rest)
  | expanded {depth : Nat} {tagName : String} {d : Document} {docs : List Document}
      {inside rest : Growth σ} (hd : Grows e source (.text (depth + 1) d.content) inside)
      (h : Grows e source (.output depth tagName false docs) rest) :
      Grows e source (.output depth tagName false (d :: docs)) (.expanded d inside rest)

/-! ## §2. What the events tell. -/

/-- Events of the work on texts: scans, executions, and texts put into the result. -/
def Event.isWork : Event σ → Bool
  | .scanned _ | .executed _ | .spliced _ => true
  | .created _ _ | .emitted _ _ _ | .disposed _ _ => false

/-- The texts that were put into the result, in order. -/
def textsSpliced (evs : List (Event σ)) : List String :=
  evs.filterMap fun
    | .spliced text => some text
    | _ => none

/-- The texts that were scanned, in order. -/
def textsScanned (evs : List (Event σ)) : List String :=
  evs.filterMap fun
    | .scanned text => some text
    | _ => none

/-- The text that a piece of work is, if it is one. -/
def Piece.ownText : Piece → List String
  | .text _ content => [content]
  | .spans _ _ | .output _ _ _ _ => []

theorem textsSpliced_append (evs evs' : List (Event σ)) :
    textsSpliced (evs ++ evs') = textsSpliced evs ++ textsSpliced evs' :=
  List.filterMap_append

theorem textsScanned_append (evs evs' : List (Event σ)) :
    textsScanned (evs ++ evs') = textsScanned evs ++ textsScanned evs' :=
  List.filterMap_append

/-- What only work tells is told by all events. -/
theorem filterMap_filter_isWork {α : Type} {f : Event σ → Option α}
    (hf : ∀ ev, (if ev.isWork then f ev else none) = f ev) (evs : List (Event σ)) :
    (evs.filter Event.isWork).filterMap f = evs.filterMap f := by
  rw [List.filterMap_filter, funext hf]

theorem textsSpliced_filter_isWork (evs : List (Event σ)) :
    textsSpliced (evs.filter Event.isWork) = textsSpliced evs :=
  filterMap_filter_isWork (fun ev => by cases ev <;> rfl) evs

theorem textsScanned_filter_isWork (evs : List (Event σ)) :
    textsScanned (evs.filter Event.isWork) = textsScanned evs :=
  filterMap_filter_isWork (fun ev => by cases ev <;> rfl) evs

/-- The leaves of a tree are what the walk over it puts into the result. -/
theorem Growth.textsSpliced_events (g : Growth σ) : textsSpliced g.events = g.leaves := by
  induction g with
  | done => rfl
  | literal text rest ih => exact congrArg (text :: ·) ih
  | scanned text inside ih => exact ih
  | occurrence call output rest ihOutput ihRest =>
      show textsSpliced (output.events ++ rest.events) = _
      rw [textsSpliced_append, ihOutput, ihRest]
      rfl
  | exempt d rest ih => exact congrArg (d.content :: ·) ih
  | expanded d inside rest ihInside ihRest =>
      show textsSpliced (inside.events ++ rest.events) = _
      rw [textsSpliced_append, ihInside, ihRest]
      rfl

/-- Of an execution only itself is work. -/
theorem filter_isWork_called (p : Progress σ) (entry : Entry σ) (call : Call σ) :
    (called p entry call).filter Event.isWork = [.executed call] := by
  rcases called_cases p entry call with ⟨-, -, hcall⟩ | ⟨-, -, hcall⟩ <;> rw [hcall] <;> rfl

/-- No work is done when instances are disposed of. -/
theorem filter_isWork_disposals (instances : List (Instance σ)) :
    (instances.map fun i => Event.disposed i.name i.state).filter Event.isWork = [] := by
  rw [List.filter_map]
  exact List.map_eq_nil_iff.2 (List.filter_eq_nil_iff.2 fun _ _ => Bool.false_ne_true)

/-- **Only texts that are to be expanded are scanned**, each of them once, and of these the
    ones with markers. -/
theorem Grows.textsScanned_events {e : Expander m σ} {source : String} {piece : Piece}
    {g : Growth σ} (h : Grows e source piece g) :
    textsScanned g.events = (piece.ownText ++ g.textsExpanded).filter Markup.containsMarker := by
  induction h with
  | @plain _ content hplain _ =>
      show [] = List.filter _ [content]
      rw [List.filter_cons_of_neg (ne_true_of_eq_false hplain), List.filter_nil]
  | scanned hmarker _ _ ih =>
      exact (congrArg (_ :: ·) ih).trans (List.filter_cons_of_pos hmarker).symm
  | finished | nothing => rfl
  | literal _ ih | exempt _ ih => exact ih
  | @occurrence _ _ _ _ _ _ _ output rest _ _ _ _ ihOutput ihRest =>
      show textsScanned (output.events ++ rest.events) =
        (output.textsExpanded ++ rest.textsExpanded).filter _
      rw [textsScanned_append, ihOutput, ihRest]
      exact (List.filter_append _ _).symm
  | @expanded _ _ d _ inside rest _ _ ihInside ihRest =>
      -- the document itself comes first, then what is expanded inside of it
      show textsScanned (inside.events ++ rest.events) =
        (d.content :: inside.textsExpanded ++ rest.textsExpanded).filter _
      rw [textsScanned_append, ihInside, ihRest]
      exact (List.filter_append _ _).symm

/-! ## §3. Runs. -/

section Run

variable {e : Expander m σ} {source : String} {p : Progress σ}

/-- **The events of a run that succeeds are the walk over its tree**, and its text is that
    of the leaves. -/
theorem Run.grows {piece : Piece} {evs : List (Event σ)} {r : Except Failure String}
    (h : Run e source p piece evs r) {text : String} (hr : r = .ok text) :
    ∃ g, Grows e source piece g ∧ evs.filter Event.isWork = g.events ∧
      text = String.join g.leaves := by
  -- every part of a run that succeeds has succeeded, and has its tree
  induction h generalizing text with
  | @plain p depth content hplain =>
      cases hr
      refine ⟨.literal content .done, .plain hplain
        (Markup.scan_of_not_containsMarker _ hplain), rfl, ?_⟩
      rw [Growth.leaves, Growth.leaves, String.join_cons, String.join_nil, String.append_empty]
  | tooDeep _ _ | malformed _ _ _ | refused _ | cut _ _ _ | broken _ _ => cases hr
  | scanned hmarker _ hs _ ih =>
      obtain ⟨g, hg, hevents, rfl⟩ := ih hr
      exact ⟨_, .scanned hmarker hs hg, congrArg (_ :: ·) hevents, rfl⟩
  | finished =>
      cases hr
      exact ⟨.done, .finished, rfl, rfl⟩
  | literal _ ih =>
      obtain ⟨rest, hrest, rfl⟩ := exists_of_map_eq_ok hr
      obtain ⟨g, hg, hevents, rfl⟩ := ih hrest
      exact ⟨_, .literal hg, congrArg (_ :: ·) hevents, String.join_cons.symm⟩
  | tag h _ _ iho ihw =>
      obtain ⟨rest, hrest, rfl⟩ := exists_of_map_eq_ok hr
      cases h with
      | executed hx hresult =>
          obtain ⟨output, houtput, heventsOutput, rfl⟩ := iho rfl
          obtain ⟨g, hg, hevents, rfl⟩ := ihw hrest
          refine ⟨_, .occurrence hx hresult houtput hg, ?_, String.join_append.symm⟩
          rw [List.filter_append, List.filter_append, filter_isWork_called, heventsOutput,
            hevents, List.append_assoc]
          rfl
  | nothing =>
      cases hr
      exact ⟨.done, .nothing, rfl, rfl⟩
  | exempt _ ih =>
      obtain ⟨rest, hrest, rfl⟩ := exists_of_map_eq_ok hr
      obtain ⟨g, hg, hevents, rfl⟩ := ih hrest
      exact ⟨_, .exempt hg, congrArg (_ :: ·) hevents, String.join_cons.symm⟩
  | document _ _ ih ihd =>
      obtain ⟨rest, hrest, rfl⟩ := exists_of_map_eq_ok hr
      obtain ⟨inside, hinside, heventsInside, rfl⟩ := ih rfl
      obtain ⟨g, hg, hevents, rfl⟩ := ihd hrest
      refine ⟨_, .expanded hinside hg, ?_, String.join_append.symm⟩
      rw [List.cons_append, List.filter_cons_of_neg Bool.false_ne_true, List.filter_append,
        heventsInside, hevents]
      rfl

/-- The text of a run that succeeds is made up of the texts that were put into it. -/
theorem Run.eq_join_textsSpliced {piece : Piece} {evs : List (Event σ)} {text : String}
    (h : Run e source p piece evs (.ok text)) : text = String.join (textsSpliced evs) := by
  obtain ⟨g, -, hevents, rfl⟩ := h.grows rfl
  rw [← textsSpliced_filter_isWork, hevents, g.textsSpliced_events]

end Run

/-! ## §4. Passes. -/

/-- If a pass succeeds, its run has the text of the result. -/
theorem eq_ok_of_outcomeOf {q : Progress σ} {r : Except Failure String} {result : Document}
    (h : (outcomeOf q r).result = .ok result) : r = .ok result.content := by
  obtain ⟨text, rfl, rfl⟩ := exists_of_map_eq_ok
    (show r.map (fun content => (⟨content, q.metadata⟩ : Document)) = .ok result from h)
  rfl

/-- The work of a pass is that of its run. -/
theorem filter_isWork_outcomeOf (metadata : Metadata) (signal : StopSignal)
    (evs : List (Event σ)) (r : Except Failure String) :
    (outcomeOf ((Progress.start metadata signal).replay evs) r).events.filter Event.isWork =
      evs.filter Event.isWork := by
  rw [events_outcomeOf, List.filter_append, filter_isWork_disposals, List.append_nil]

/-- **Where the text of a result comes from.**  If a pass succeeds, its document has grown
    into a tree.  The events are the walk over this tree, depth first and from left to
    right, with one execution for each tag of a text that was scanned; the result is the
    text of the leaves, which are literal texts and exempt documents.  The texts that were
    scanned are those with markers among the document and the documents that handlers have
    put out to be expanded, each of them once and no others. -/
theorem process_provenance [Monad m] [LawfulMonad m] (e : Expander m σ) (document : Document)
    (signal : StopSignal) :
    Always (fun o => ∀ result, o.result = .ok result →
        ∃ g, Grows e document.content (.text 0 document.content) g ∧
          o.events.filter Event.isWork = g.events ∧
          textsSpliced o.events = g.leaves ∧ result.content = String.join g.leaves ∧
          textsScanned o.events =
            (document.content :: g.textsExpanded).filter Markup.containsMarker)
      (e.process document signal) := by
  refine (always_process e document signal).mono ?_
  intro o ho result hresult
  obtain ⟨evs, r, hrun, rfl⟩ := ho
  obtain ⟨g, hg, hevents, htext⟩ := hrun.grows (eq_ok_of_outcomeOf hresult)
  rw [← filter_isWork_outcomeOf document.metadata signal evs r] at hevents
  refine ⟨g, hg, hevents, ?_, htext, ?_⟩
  · rw [← textsSpliced_filter_isWork, hevents, g.textsSpliced_events]
  · rw [← textsScanned_filter_isWork, hevents]
    exact hg.textsScanned_events

/-- The texts of a pass over a loop: the document and its two items are scanned, and the
    values that they show are exempt. -/
theorem process_provenance_loop :
    let o := (builtinsAlone.process loopDocument .clear).run
    textsSpliced o.events = ["true", ",", "false", ","] ∧
      textsScanned o.events =
        [loopDocument.content, "<?# meta Item /?>,", "<?# meta Item /?>,"] ∧
      ∀ result, o.result = .ok result →
        ∃ g, Grows builtinsAlone loopDocument.content (.text 0 loopDocument.content) g ∧
          o.events.filter Event.isWork = g.events ∧
          textsSpliced o.events = g.leaves ∧ result.content = String.join g.leaves ∧
          textsScanned o.events =
            (loopDocument.content :: g.textsExpanded).filter Markup.containsMarker := by
  have h := always_id_iff.1 (process_provenance builtinsAlone loopDocument .clear)
  exact ⟨by decide +kernel, by decide +kernel, h⟩

end TagExpander.Pass
