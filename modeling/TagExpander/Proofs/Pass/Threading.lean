/-
  TagExpander.Proofs.Pass.Threading — the metadata that handlers see.

  The documents that tags put out stand in one order, that of their emission: a
  document comes behind the tag that puts it out, in front of everything that its own
  text gives rise to, and in front of the later documents of the same tag.

      executed T · emitted d₁ · ‹text of d₁› · emitted d₂ · ‹text of d₂› · …

  Every handler, at whatever depth, sees the text of the whole document with the first
  metadata overwritten by the documents that stand before it in this order.

  Main results:
    * `Run.unfolds` — the events of a run stand in this order.
    * `process_threads_metadata` — what handlers see, and what is left in the end.
-/
import TagExpander.Proofs.Pass.Trace

namespace TagExpander.Pass

variable {m : Type → Type} {σ : Type}

/-! ## §1. The order of emission. -/

/-- What a stretch of a history tells of. -/
inductive Stretch where
  /-- A text, from its first event to its last. -/
  | text (text : String)
  /-- The rest of a text that was scanned. -/
  | tags
  /-- The documents that a tag has still to put out. -/
  | documents (tagName : String) (docs : List Document)

/-- Histories in the order of emission; the flag tells whether they come to their end, or
    break off in a failure.  Nothing is said here of the progress of the pass. -/
inductive Unfolds : Stretch → List (Event σ) → Bool → Prop where
  | cut {stretch : Stretch} : Unfolds stretch [] false
  | spliced {text : String} : Unfolds (.text text) [.spliced text] true
  | scanned {text : String} {evs : List (Event σ)} {whole : Bool} (h : Unfolds .tags evs whole) :
      Unfolds (.text text) (.scanned text :: evs) whole
  | finished : Unfolds .tags [] true
  | literal {text : String} {evs : List (Event σ)} {whole : Bool} (h : Unfolds .tags evs whole) :
      Unfolds .tags (.spliced text :: evs) whole
  | created {name : String} {state : σ} {evs : List (Event σ)} {whole : Bool}
      (h : Unfolds .tags evs whole) : Unfolds .tags (.created name state :: evs) whole
  | failed {call : Call σ} {fault : HandlerFault} (hr : call.result = .error fault) :
      Unfolds .tags [.executed call] false
  | interrupted {call : Call σ} {output : Output} {evs : List (Event σ)}
      (hr : call.result = .ok output)
      (h : Unfolds (.documents call.tagName output.docs) evs false) :
      Unfolds .tags (.executed call :: evs) false
  | tag {call : Call σ} {output : Output} {evs evs' : List (Event σ)} {whole : Bool}
      (hr : call.result = .ok output)
      (h : Unfolds (.documents call.tagName output.docs) evs true)
      (h' : Unfolds .tags evs' whole) : Unfolds .tags (.executed call :: evs ++ evs') whole
  | nothing {tagName : String} : Unfolds (.documents tagName []) [] true
  | broken {tagName : String} {d : Document} {docs : List Document} {raw : Bool}
      {evs : List (Event σ)} (h : Unfolds (.text d.content) evs false) :
      Unfolds (.documents tagName (d :: docs)) (.emitted tagName d raw :: evs) false
  | document {tagName : String} {d : Document} {docs : List Document} {raw : Bool}
      {evs evs' : List (Event σ)} {whole : Bool} (h : Unfolds (.text d.content) evs true)
      (h' : Unfolds (.documents tagName docs) evs' whole) :
      Unfolds (.documents tagName (d :: docs)) (.emitted tagName d raw :: evs ++ evs') whole

/-- What the history of a piece of work tells of. -/
def Piece.stretch : Piece → Stretch
  | .text _ content => .text content
  | .spans _ _ => .tags
  | .output _ tagName _ docs => .documents tagName docs

/-- Work on a text comes to its end if it does without the text in front. -/
theorem isOk_map (r : Except Failure String) (f : String → String) : (r.map f).isOk = r.isOk := by
  cases r <;> rfl

/-- The creation of an instance stands in front of its execution. -/
theorem Unfolds.of_creation {p : Progress σ} {entry : Entry σ} {call : Call σ}
    {evs : List (Event σ)} {whole : Bool} (h : Unfolds .tags (.executed call :: evs) whole) :
    Unfolds .tags (called p entry call ++ evs) whole := by
  rcases called_cases p entry call with ⟨-, -, hcall⟩ | ⟨-, -, hcall⟩
  · rw [hcall]
    exact h
  · rw [hcall]
    exact .created h

section Run

variable {e : Expander m σ} {source : String} {p : Progress σ}

/-- **The events of a run stand in the order of emission.** -/
theorem Run.unfolds {piece : Piece} {evs : List (Event σ)} {r : Except Failure String}
    (h : Run e source p piece evs r) : Unfolds piece.stretch evs r.isOk := by
  -- an occurrence is a creation, if there is one, and its execution; then its documents
  induction h with
  | plain _ => exact .spliced
  | tooDeep _ _ => exact .cut
  | malformed _ _ _ => exact .scanned .cut
  | scanned _ _ _ _ ih => exact .scanned ih
  | finished => exact .finished
  | literal _ ih =>
      rw [isOk_map]
      exact .literal ih
  | refused h =>
      cases h with
      | stopped _ => exact .cut
      | unknown _ _ => exact .cut
      | failed hx hr =>
          rw [← List.append_nil (called _ _ _)]
          exact .of_creation (.failed hr)
  | cut h _ ih =>
      cases h with
      | executed hx hr =>
          rw [Piece.stretch, ← hx.tagName] at ih
          exact .of_creation (.interrupted hr ih)
  | tag h _ _ iho ihw =>
      rw [isOk_map, List.append_assoc]
      cases h with
      | executed hx hr =>
          rw [Piece.stretch, ← hx.tagName] at iho
          exact .of_creation (.tag hr iho ihw)
  | nothing => exact .nothing
  | exempt _ ih =>
      rw [isOk_map]
      exact .document .spliced ih
  | broken _ ih => exact .broken ih
  | document _ _ ih ihd =>
      rw [isOk_map]
      exact .document ih ihd

/-! ## §2. What handlers see. -/

/-- No document is put out by a creation. -/
theorem documentsOf_append_creation (evs : List (Event σ)) (entry : Entry σ) :
    documentsOf (evs ++ p.creation entry) = documentsOf evs := by
  unfold Progress.creation documentsOf
  rw [List.filterMap_append]
  split <;> exact List.append_nil _

/-- A handler sees the text of the whole document, and the metadata overwritten by the
    documents that stand before it. -/
theorem Trace.document_eq {evs before after : List (Event σ)} {call : Call σ}
    (h : Trace e source p evs) (hs : evs = before ++ .executed call :: after) :
    call.invocation.document = ⟨source, overwritten p.metadata (documentsOf before)⟩ := by
  obtain ⟨earlier, depth, tag, entry, -, rfl, hx⟩ := h.split_executed hs
  rw [hx.invocation, documentsOf_append_creation, Progress.metadata_replay]

end Run

/-- **The metadata of a pass.**  Its events stand in the order of emission.  A handler
    sees the text of the document and its metadata, overwritten by the documents that
    stand before it; if the pass succeeds, all documents were put out, and the metadata
    are overwritten by all of them.  Overwriting is done key by key: the last document
    that has a value for the key decides. -/
theorem process_threads_metadata [Monad m] [LawfulMonad m] (e : Expander m σ)
    (document : Document) (signal : StopSignal) :
    Always (fun o => ∃ evs ends whole,
        o.events = evs ++ ends ∧ (∀ ev ∈ ends, ∃ name state, ev = .disposed name state) ∧
        Unfolds (.text document.content) evs whole ∧
        (∀ before call after, evs = before ++ .executed call :: after →
          call.invocation.document =
            ⟨document.content, overwritten document.metadata (documentsOf before)⟩) ∧
        (∀ result, o.result = .ok result →
          whole = true ∧ result.metadata = overwritten document.metadata (documentsOf evs)) ∧
        ∀ docs key, (overwritten document.metadata docs).get? key =
          (docs.reverse.findSome? (·.metadata.get? key)).or (document.metadata.get? key))
      (e.process document signal) := by
  refine (always_process e document signal).mono ?_
  intro o ho
  obtain ⟨evs, r, hrun, rfl⟩ := ho
  refine ⟨evs, _, r.isOk, events_outcomeOf _ _ _ _, fun _ => eq_disposed_of_mem, hrun.unfolds, ?_,
    ?_, get?_overwritten document.metadata⟩
  · intro before call after hs
    exact hrun.trace.document_eq hs
  · intro result hresult
    cases r with
    | error failure => cases hresult
    | ok content =>
        cases hresult
        exact ⟨rfl, Progress.metadata_replay _ _⟩

/-- The metadata of a pass in which a loop puts out two documents. -/
theorem process_threads_metadata_loop :
    (documentsOf (builtinsAlone.process loopDocument .clear).run.events).map (·.content) =
        ["<?# meta Item /?>,", "true", "<?# meta Item /?>,", "false"] ∧
      ∃ evs ends whole,
        (builtinsAlone.process loopDocument .clear).run.events = evs ++ ends ∧
        (∀ ev ∈ ends, ∃ name state, ev = .disposed name state) ∧
        Unfolds (.text loopDocument.content) evs whole ∧
        (∀ before call after, evs = before ++ .executed call :: after →
          call.invocation.document =
            ⟨loopDocument.content, overwritten loopDocument.metadata (documentsOf before)⟩) ∧
        (∀ result, (builtinsAlone.process loopDocument .clear).run.result = .ok result →
          whole = true ∧
            result.metadata = overwritten loopDocument.metadata (documentsOf evs)) ∧
        ∀ docs key, (overwritten loopDocument.metadata docs).get? key =
          (docs.reverse.findSome? (·.metadata.get? key)).or (loopDocument.metadata.get? key) := by
  have h := always_id_iff.1 (process_threads_metadata builtinsAlone loopDocument .clear)
  exact ⟨by decide +kernel, h⟩

end TagExpander.Pass
