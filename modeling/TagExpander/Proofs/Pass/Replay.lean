/-
  TagExpander.Proofs.Pass.Replay — the progress of a pass as a function of its events.

  A pass notes what happens.  `p.replay evs` is the progress that the events lead to,
  so whatever a pass carries along can be read off its history: the metadata are the
  first ones, overwritten by the documents that were put out (`metadata_replay`); the
  signal is that behind the last execution (`signal_replay`); the instances are those
  that were created, in this order (`names_replay`).
-/
import TagExpander.Pass.Progress

namespace TagExpander.Pass

variable {σ : Type}

/-! ## §1. Replaying events. -/

namespace Progress

/-- The progress after an event. -/
def apply (p : Progress σ) : Event σ → Progress σ
  | .created name state =>
    let created : Instance σ := ⟨name, state⟩
    { p with instances := p.instances ++ [created] }.record (.created name state)
  | .executed call => p.leave call
  | .emitted tagName document raw => p.merge tagName document raw
  | .scanned text => p.record (.scanned text)
  | .spliced text => p.record (.spliced text)
  | .disposed name state => p.record (.disposed name state)

/-- The progress after events, one after the other. -/
def replay (p : Progress σ) (evs : List (Event σ)) : Progress σ :=
  evs.foldl apply p

@[simp] theorem replay_cons (p : Progress σ) (ev : Event σ) (evs : List (Event σ)) :
    p.replay (ev :: evs) = (p.apply ev).replay evs := rfl

theorem replay_append (p : Progress σ) (evs evs' : List (Event σ)) :
    p.replay (evs ++ evs') = (p.replay evs).replay evs' :=
  List.foldl_append

/-- An event is noted when it happens. -/
theorem history_apply (p : Progress σ) (ev : Event σ) :
    (p.apply ev).history = ev :: p.history := by
  cases ev <;> rfl

/-- The history holds the events, latest first. -/
theorem history_replay (p : Progress σ) (evs : List (Event σ)) :
    (p.replay evs).history = evs.reverse ++ p.history := by
  induction evs generalizing p with
  | nil => rfl
  | cons ev evs ih =>
      rw [replay_cons, ih, history_apply, List.reverse_cons, List.append_assoc]
      rfl

/-- The creation of the instance of an entry, if there is none. -/
def creation (p : Progress σ) (entry : Entry σ) : List (Event σ) :=
  match state? p.instances entry.name with
  | some _ => []
  | none => [.created entry.name entry.handler.initial]

/-- What an instance finds when its handler is executed. -/
def found (p : Progress σ) (entry : Entry σ) : σ :=
  (state? p.instances entry.name).getD entry.handler.initial

/-- An instance is created exactly if there is none. -/
theorem enter_eq (p : Progress σ) (entry : Entry σ) :
    p.enter entry = (p.found entry, p.replay (p.creation entry)) := by
  unfold enter found creation
  cases state? p.instances entry.name <;> rfl

/-- The creation of an instance leaves the signal alone. -/
theorem signal_creation (p : Progress σ) (entry : Entry σ) :
    (p.replay (p.creation entry)).signal = p.signal := by
  unfold creation
  split <;> rfl

end Progress

/-! ## §2. What the history shows. -/

/-- The documents that were put out, in order. -/
def documentsOf (evs : List (Event σ)) : List Document :=
  evs.filterMap fun
    | .emitted _ document _ => some document
    | _ => none

/-- Metadata overwritten by those of documents, one after the other. -/
def overwritten (metadata : Metadata) (docs : List Document) : Metadata :=
  docs.foldl (fun metadata d => metadata.merge d.metadata) metadata

/-- Key by key: the value is that of the last document that has one, or else the first. -/
theorem get?_overwritten (metadata : Metadata) (docs : List Document) (key : String) :
    (overwritten metadata docs).get? key =
      (docs.reverse.findSome? (·.metadata.get? key)).or (metadata.get? key) := by
  induction docs generalizing metadata with
  | nil => rfl
  | cons d docs ih =>
      -- the later documents come first, then this one, then the first metadata
      show (overwritten (metadata.merge d.metadata) docs).get? key = _
      rw [ih, Metadata.get?_merge, List.reverse_cons, List.findSome?_append,
        List.findSome?_singleton, Option.or_assoc]

/-- The names of the instances that were created, in order. -/
def createdNames (evs : List (Event σ)) : List String :=
  evs.filterMap fun
    | .created name _ => some name
    | _ => none

/-- The stop signal behind the last execution. -/
def lastSignal (signal : StopSignal) : List (Event σ) → StopSignal
  | [] => signal
  | .executed call :: evs => lastSignal call.signal evs
  | _ :: evs => lastSignal signal evs

namespace Progress

/-- The metadata are the first ones, overwritten by the documents that were put out. -/
theorem metadata_replay (p : Progress σ) (evs : List (Event σ)) :
    (p.replay evs).metadata = overwritten p.metadata (documentsOf evs) := by
  induction evs generalizing p with
  | nil => rfl
  | cons ev evs ih =>
      rw [replay_cons, ih]
      cases ev <;> rfl

/-- The signal is the one behind the last execution. -/
theorem signal_replay (p : Progress σ) (evs : List (Event σ)) :
    (p.replay evs).signal = lastSignal p.signal evs := by
  induction evs generalizing p with
  | nil => rfl
  | cons ev evs ih =>
      rw [replay_cons, ih]
      cases ev <;> rfl

/-- An execution keeps the names of the instances. -/
theorem names_setState (instances : List (Instance σ)) (name : String) (state : σ) :
    (setState instances name state).map (·.name) = instances.map (·.name) := by
  unfold setState
  rw [List.map_map]
  apply List.map_congr_left
  intro i _
  show (if _ then _ else _ : Instance σ).name = i.name
  split <;> rfl

/-- The instances are those that were created, in this order. -/
theorem names_replay (p : Progress σ) (evs : List (Event σ)) :
    (p.replay evs).instances.map (·.name) = p.instances.map (·.name) ++ createdNames evs := by
  induction evs generalizing p with
  | nil => exact (List.append_nil _).symm
  | cons ev evs ih =>
      rw [replay_cons, ih]
      cases ev with
      | created name state =>
          show (p.instances ++ [(⟨name, state⟩ : Instance σ)]).map (·.name) ++ createdNames evs = _
          rw [List.map_append, List.append_assoc]
          rfl
      | executed call =>
          show (setState _ _ _).map (·.name) ++ createdNames evs = _
          rw [names_setState]
          rfl
      | _ => rfl

end Progress

end TagExpander.Pass
