/-
  TagExpander.Proofs.Pass.Trace — the events of a run, one after the other.

  A trace is a run without its nesting: executions of handlers, each with the progress
  that it starts from, and in between the events that no handler has a part in.  What
  holds of all executions of a pass, at any depth, is proved along its trace.

  Main results:
    * `Run.trace` — the events of a run are a trace.
    * `Trace.split_executed`, `Trace.split_created` — a place in a trace where a
      handler is executed, or an instance created.
    * `Run.result_of_failed` — a handler that fails ends the run with its fault.
-/
import TagExpander.Proofs.Pass.Run

namespace TagExpander.Pass

variable {m : Type → Type} {σ : Type}

/-! ## §1. Traces. -/

/-- Events that no handler has a part in. -/
def Event.isInert : Event σ → Bool
  | .scanned _ | .emitted _ _ _ | .spliced _ => true
  | .created _ _ | .executed _ | .disposed _ _ => false

/-- Is this an execution of a handler? -/
def Event.isExecution : Event σ → Bool
  | .executed _ => true
  | .created _ _ | .scanned _ | .emitted _ _ _ | .spliced _ | .disposed _ _ => false

/-- A run without its nesting: executions of handlers, each with the progress that it
    starts from, and inert events. -/
inductive Trace (e : Expander m σ) (source : String) :
    Progress σ → List (Event σ) → Prop where
  | nil {p : Progress σ} : Trace e source p []
  | inert {p : Progress σ} {ev : Event σ} {evs : List (Event σ)} (hev : ev.isInert = true)
      (h : Trace e source (p.apply ev) evs) : Trace e source p ([ev] ++ evs)
  | execution {p : Progress σ} {depth : Nat} {tag : Markup.Tag} {entry : Entry σ} {call : Call σ}
      {evs : List (Event σ)} (hx : Executes e source p depth tag entry call)
      (h : Trace e source (p.replay (called p entry call)) evs) :
      Trace e source p (called p entry call ++ evs)

variable {e : Expander m σ} {source : String} {p : Progress σ}

/-- Traces can be put together. -/
theorem Trace.append {evs evs' : List (Event σ)} (h : Trace e source p evs)
    (h' : Trace e source (p.replay evs) evs') : Trace e source p (evs ++ evs') := by
  induction h with
  | nil => exact h'
  | inert hev _ ih => exact .inert hev (ih h')
  | execution hx _ ih =>
      rw [Progress.replay_append] at h'
      rw [List.append_assoc]
      exact .execution hx (ih h')

/-- What becomes of a tag is one execution at most. -/
theorem Invoked.trace {depth : Nat} {tag : Markup.Tag} {evs : List (Event σ)}
    {r : Except Failure (Output × Kind)} (h : Invoked e source p depth tag evs r) :
    Trace e source p evs := by
  cases h with
  | stopped _ => exact .nil
  | unknown _ _ => exact .nil
  | failed hx _ =>
      rw [← List.append_nil (called p _ _)]
      exact .execution hx .nil
  | executed hx _ =>
      rw [← List.append_nil (called p _ _)]
      exact .execution hx .nil

/-- The events of a run are a trace. -/
theorem Run.trace {piece : Piece} {evs : List (Event σ)} {r : Except Failure String}
    (h : Run e source p piece evs r) : Trace e source p evs := by
  induction h with
  | plain _ => exact .inert rfl .nil
  | tooDeep _ _ => exact .nil
  | malformed _ _ _ => exact .inert rfl .nil
  | scanned _ _ _ _ ih => exact .inert rfl ih
  | finished => exact .nil
  | literal _ ih => exact .inert rfl ih
  | refused h => exact h.trace
  | cut h _ ih => exact h.trace.append ih
  | tag h _ _ iho ihw => exact (h.trace.append iho).append ihw
  | nothing => exact .nil
  | exempt _ ih => exact .inert rfl (.inert rfl ih)
  | broken _ ih => exact .inert rfl ih
  | document _ _ ih ihd => exact Trace.append (.inert rfl ih) ihd

/-! ## §2. Places in a trace. -/

/-- A place in two lists put together lies in the one or in the other. -/
theorem append_eq_append_cons {α : Type} {xs ys before after : List α} {x : α}
    (h : xs ++ ys = before ++ x :: after) :
    (∃ mid, xs = before ++ x :: mid ∧ after = mid ++ ys) ∨
      ∃ mid, before = xs ++ mid ∧ ys = mid ++ x :: after := by
  rcases List.append_eq_append_iff.1 h with ⟨mid, hbefore, hys⟩ | ⟨mid, hxs, hafter⟩
  · exact .inr ⟨mid, hbefore, hys⟩
  · cases mid with
    | nil => exact .inr ⟨[], by rw [hxs, List.append_nil, List.append_nil], hafter.symm⟩
    | cons y mid =>
        obtain ⟨rfl, rfl⟩ := List.cons.inj hafter
        exact .inl ⟨mid, hxs, rfl⟩

/-- What holds at every place of a list, of the elements in front, the one there, and those
    behind it. -/
def Everywhere {α : Type} (P : List α → α → List α → Prop) (xs : List α) : Prop :=
  ∀ before x after, xs = before ++ x :: after → P before x after

section Everywhere

variable {α : Type} {P Q : List α → α → List α → Prop} {xs ys : List α} {x : α}

theorem everywhere_nil : Everywhere P [] := by
  intro before x after h
  simp at h

theorem everywhere_cons (h : P [] x xs) (hxs : Everywhere (fun before => P (x :: before)) xs) :
    Everywhere P (x :: xs) := by
  intro before y after heq
  cases before with
  | nil =>
      obtain ⟨rfl, rfl⟩ := List.cons.inj heq
      exact h
  | cons z before =>
      obtain ⟨rfl, hrest⟩ := List.cons.inj heq
      exact hxs before y after hrest

theorem everywhere_append (hxs : Everywhere (fun before x after => P before x (after ++ ys)) xs)
    (hys : Everywhere (fun before => P (xs ++ before)) ys) : Everywhere P (xs ++ ys) := by
  intro before y after heq
  rcases append_eq_append_cons heq with ⟨mid, hmid, rfl⟩ | ⟨mid, rfl, hmid⟩
  · exact hxs before y mid hmid
  · exact hys mid y after hmid

theorem Everywhere.mono (h : Everywhere P xs)
    (himp : ∀ before x after, P before x after → Q before x after) : Everywhere Q xs :=
  fun before x after heq => himp before x after (h before x after heq)

/-- What holds at every place of a list that stands behind earlier elements, of all the
    elements in front and the one there. -/
def EverywhereBehind (P : List α → α → Prop) (earlier xs : List α) : Prop :=
  Everywhere (fun before x _ => P (earlier ++ before) x) xs

theorem everywhereBehind_nil {P : List α → α → Prop} {earlier : List α} :
    EverywhereBehind P earlier [] :=
  everywhere_nil

theorem everywhereBehind_cons {P : List α → α → Prop} {earlier : List α} (h : P earlier x)
    (hxs : EverywhereBehind P (earlier ++ [x]) xs) : EverywhereBehind P earlier (x :: xs) := by
  refine everywhere_cons ?_ (hxs.mono ?_)
  · rw [List.append_nil]
    exact h
  · intro before y _ hy
    rw [List.append_assoc] at hy
    exact hy

theorem everywhereBehind_append {P : List α → α → Prop} {earlier : List α}
    (hxs : EverywhereBehind P earlier xs) (hys : EverywhereBehind P (earlier ++ xs) ys) :
    EverywhereBehind P earlier (xs ++ ys) := by
  refine everywhere_append hxs (hys.mono ?_)
  intro before y _ hy
  rw [List.append_assoc] at hy
  exact hy

end Everywhere

/-- An execution is one event, or two if its instance is created for it. -/
theorem called_cases (p : Progress σ) (entry : Entry σ) (call : Call σ) :
    (state? p.instances entry.name ≠ none ∧ p.creation entry = [] ∧
        called p entry call = [.executed call]) ∨
      (state? p.instances entry.name = none ∧
        p.creation entry = [.created entry.name entry.handler.initial] ∧
        called p entry call =
          [.created entry.name entry.handler.initial, .executed call]) := by
  unfold called Progress.creation
  cases state? p.instances entry.name with
  | some state => exact .inl ⟨nofun, rfl, rfl⟩
  | none => exact .inr ⟨rfl, rfl, rfl⟩

/-- A place in one event. -/
theorem singleton_eq_append_cons {α : Type} {a x : α} {before after : List α}
    (h : [a] = before ++ x :: after) : before = [] ∧ a = x ∧ after = [] := by
  cases before with
  | nil =>
      obtain ⟨hx, hafter⟩ := List.cons.inj h
      exact ⟨rfl, hx, hafter.symm⟩
  | cons b before => simp at h

/-- A place behind another element. -/
theorem cons_eq_append_cons {α : Type} {a x : α} {xs before after : List α}
    (h : a :: xs = before ++ x :: after) (hne : a ≠ x) :
    ∃ rest, before = a :: rest ∧ xs = rest ++ x :: after := by
  cases before with
  | nil => exact absurd (List.cons.inj h).1 hne
  | cons b rest =>
      obtain ⟨rfl, hrest⟩ := List.cons.inj h
      exact ⟨rest, rfl, hrest⟩

/-- An execution does not stand at another event. -/
theorem cons_eq_append_executed {ev : Event σ} {evs before after : List (Event σ)} {call : Call σ}
    (h : ev :: evs = before ++ .executed call :: after) (hev : ev.isExecution = false) :
    ∃ rest, before = ev :: rest ∧ evs = rest ++ .executed call :: after := by
  refine cons_eq_append_cons h ?_
  rintro rfl
  cases hev

/-- An execution is the last event of its own. -/
theorem called_eq_append_executed {entry : Entry σ} {call call' : Call σ}
    {before mid : List (Event σ)}
    (h : called p entry call' = before ++ .executed call :: mid) :
    before = p.creation entry ∧ call' = call := by
  rcases called_cases p entry call' with ⟨-, hcreation, hcall⟩ | ⟨-, hcreation, hcall⟩
  · rw [hcall] at h
    obtain ⟨rfl, hcall', -⟩ := singleton_eq_append_cons h
    exact ⟨hcreation.symm, Event.executed.inj hcall'⟩
  · rw [hcall] at h
    cases before with
    | nil => simp at h
    | cons b before =>
        obtain ⟨rfl, hrest⟩ := List.cons.inj h
        obtain ⟨rfl, hcall', -⟩ := singleton_eq_append_cons hrest
        exact ⟨hcreation.symm, Event.executed.inj hcall'⟩

/-- A creation is the first of the two events of an execution without an instance. -/
theorem called_eq_append_created {entry : Entry σ} {call : Call σ} {before mid : List (Event σ)}
    {name : String} {state : σ}
    (h : called p entry call = before ++ .created name state :: mid) :
    before = [] ∧ mid = [.executed call] ∧ state? p.instances entry.name = none ∧
      entry.name = name ∧ entry.handler.initial = state := by
  rcases called_cases p entry call with ⟨-, -, hcall⟩ | ⟨hnone, -, hcall⟩
  · rw [hcall] at h
    obtain ⟨-, hcall', -⟩ := singleton_eq_append_cons h
    cases hcall'
  · rw [hcall] at h
    cases before with
    | nil =>
        obtain ⟨hcreated, hmid⟩ := List.cons.inj h
        obtain ⟨hname, hstate⟩ := Event.created.inj hcreated
        exact ⟨rfl, hmid.symm, hnone, hname, hstate⟩
    | cons b before =>
        obtain ⟨-, hrest⟩ := List.cons.inj h
        obtain ⟨-, hcall', -⟩ := singleton_eq_append_cons hrest
        cases hcall'

/-- Where a handler is executed, the instance is created right in front, or it was
    there. -/
theorem Trace.split_executed {evs before after : List (Event σ)} {call : Call σ}
    (h : Trace e source p evs) (hs : evs = before ++ .executed call :: after) :
    ∃ earlier depth tag entry, Trace e source p earlier ∧
      before = earlier ++ (p.replay earlier).creation entry ∧
      Executes e source (p.replay earlier) depth tag entry call := by
  -- the place lies in the first step of the trace, or in what follows
  induction h generalizing before with
  | nil => simp at hs
  | inert hev _ ih =>
      rcases append_eq_append_cons hs with ⟨mid, hev', _⟩ | ⟨mid, rfl, hmid⟩
      · obtain ⟨-, rfl, -⟩ := singleton_eq_append_cons hev'
        cases hev
      · obtain ⟨earlier, depth, tag, entry, htrace, rfl, hx⟩ := ih hmid
        exact ⟨_ :: earlier, depth, tag, entry, .inert hev htrace, rfl, hx⟩
  | @execution p depth tag entry call' evs hx _ ih =>
      rcases append_eq_append_cons hs with ⟨mid, hcalled, _⟩ | ⟨mid, rfl, hmid⟩
      · obtain ⟨rfl, rfl⟩ := called_eq_append_executed hcalled
        exact ⟨[], depth, tag, entry, .nil, rfl, hx⟩
      · obtain ⟨earlier, depth', tag', entry', htrace, rfl, hx'⟩ := ih hmid
        -- what follows starts from the progress behind this execution
        rw [← Progress.replay_append] at hx' ⊢
        refine ⟨called p entry call' ++ earlier, depth', tag', entry', .execution hx htrace, ?_,
          hx'⟩
        rw [List.append_assoc]

/-- Where an instance is created, there was none, and the next event is its first
    execution. -/
theorem Trace.split_created {evs before after : List (Event σ)} {name : String} {state : σ}
    (h : Trace e source p evs) (hs : evs = before ++ .created name state :: after) :
    ∃ depth tag entry call rest, Trace e source p before ∧ after = .executed call :: rest ∧
      state? (p.replay before).instances entry.name = none ∧
      entry.name = name ∧ entry.handler.initial = state ∧
      Executes e source (p.replay before) depth tag entry call := by
  induction h generalizing before with
  | nil => simp at hs
  | inert hev _ ih =>
      rcases append_eq_append_cons hs with ⟨mid, hev', _⟩ | ⟨mid, rfl, hmid⟩
      · obtain ⟨-, rfl, -⟩ := singleton_eq_append_cons hev'
        cases hev
      · obtain ⟨depth, tag, entry, call, rest, htrace, hafter, hx⟩ := ih hmid
        exact ⟨depth, tag, entry, call, rest, .inert hev htrace, hafter, hx⟩
  | @execution p depth tag entry call evs hx _ ih =>
      rcases append_eq_append_cons hs with ⟨mid, hcalled, hafter⟩ | ⟨mid, rfl, hmid⟩
      · obtain ⟨rfl, rfl, hnone, hname, hstate⟩ := called_eq_append_created hcalled
        exact ⟨depth, tag, entry, call, evs, .nil, hafter, hnone, hname, hstate, hx⟩
      · obtain ⟨depth', tag', entry', call', rest, htrace, hafter, hnone, hname, hstate, hx'⟩ :=
          ih hmid
        rw [← Progress.replay_append] at hx' hnone
        exact ⟨depth', tag', entry', call', rest, .execution hx htrace, hafter, hnone, hname,
          hstate, hx'⟩

/-- No instance is disposed of in a trace. -/
theorem Trace.not_mem_disposed {evs : List (Event σ)} (h : Trace e source p evs) (name : String)
    (state : σ) : .disposed name state ∉ evs := by
  induction h with
  | nil => exact List.not_mem_nil
  | inert hev _ ih =>
      rw [List.mem_append, List.mem_singleton, not_or]
      refine ⟨?_, ih⟩
      intro heq
      subst heq
      cases hev
  | @execution p depth tag entry call evs hx _ ih =>
      rw [List.mem_append, not_or]
      refine ⟨?_, ih⟩
      rcases called_cases p entry call with ⟨-, -, hcall⟩ | ⟨-, -, hcall⟩ <;> rw [hcall] <;> simp

/-! ## §3. Failures. -/

/-- There is one execution in the events of an execution. -/
theorem eq_of_executed_mem_called {entry : Entry σ} {call call' : Call σ}
    (h : .executed call ∈ called p entry call') : call' = call := by
  obtain ⟨before, after, hs⟩ := List.append_of_mem h
  exact (called_eq_append_executed hs).2

theorem Invoked.result_of_failed {depth : Nat} {tag : Markup.Tag} {evs : List (Event σ)}
    {r : Except Failure (Output × Kind)} (h : Invoked e source p depth tag evs r) {call : Call σ}
    {fault : HandlerFault} (hcall : .executed call ∈ evs) (hfault : call.result = .error fault) :
    r = .error (.ofHandler call.tagName fault) := by
  cases h with
  | stopped _ | unknown _ _ => cases hcall
  | failed hx hr =>
      obtain rfl := eq_of_executed_mem_called hcall
      rw [hr] at hfault
      cases hfault
      rw [hx.tagName]
  | executed hx hr =>
      obtain rfl := eq_of_executed_mem_called hcall
      cases hr.symm.trans hfault

/-- A fault of a handler is told as it is, wherever it comes up. -/
theorem inOutputOf_ofHandler (producer name : String) (fault : HandlerFault) :
    (Failure.ofHandler name fault).inOutputOf producer = .ofHandler name fault := by
  cases fault <;> rfl

/-- **A handler that fails ends the run with its fault**, at any depth. -/
theorem Run.result_of_failed {piece : Piece} {evs : List (Event σ)} {r : Except Failure String}
    (h : Run e source p piece evs r) {call : Call σ} {fault : HandlerFault}
    (hcall : .executed call ∈ evs) (hfault : call.result = .error fault) :
    r = .error (.ofHandler call.tagName fault) := by
  -- a part of a run that has ended well has no such call, and behind a failure there is nothing
  induction h with
  | plain _ | malformed _ _ _ => simp at hcall
  | tooDeep _ _ | finished | nothing => cases hcall
  | scanned _ _ _ _ ih => exact ih ((List.mem_cons.1 hcall).resolve_left nofun)
  | literal _ ih =>
      rw [ih ((List.mem_cons.1 hcall).resolve_left nofun)]
      rfl
  | refused h => cases h.result_of_failed hcall hfault; rfl
  | cut h _ ih =>
      rcases List.mem_append.1 hcall with hcall | hcall
      · cases h.result_of_failed hcall hfault
      · exact ih hcall
  | tag h _ _ iho ihw =>
      rcases List.mem_append.1 hcall with hcall | hcall
      · rcases List.mem_append.1 hcall with hcall | hcall
        · cases h.result_of_failed hcall hfault
        · cases iho hcall
      · rw [ihw hcall]
        rfl
  | exempt _ ih =>
      have hrest := (List.mem_cons.1 hcall).resolve_left nofun
      rw [ih ((List.mem_cons.1 hrest).resolve_left nofun)]
      rfl
  | @broken _ _ tagName _ _ _ _ _ ih =>
      obtain hfailure := Except.error.inj (ih ((List.mem_cons.1 hcall).resolve_left nofun))
      rw [hfailure, inOutputOf_ofHandler]
  | document _ _ ih ihd =>
      rcases List.mem_append.1 hcall with hcall | hcall
      · cases ih ((List.mem_cons.1 hcall).resolve_left nofun)
      · rw [ihd hcall]
        rfl

/-! ## §4. Places in the events of a pass. -/

/-- Where something else than a disposal stands in the events of a pass, it stands in those
    of its run. -/
theorem split_outcomeOf {metadata : Metadata} {signal : StopSignal}
    {evs before after : List (Event σ)} {r : Except Failure String} {ev : Event σ}
    (hev : ∀ name state, ev ≠ .disposed name state)
    (h : (outcomeOf ((Progress.start metadata signal).replay evs) r).events =
      before ++ ev :: after) : ∃ rest, evs = before ++ ev :: rest := by
  rw [events_outcomeOf] at h
  rcases append_eq_append_cons h with ⟨rest, hrest, -⟩ | ⟨mid, -, hmid⟩
  · exact ⟨rest, hrest⟩
  · have hmem : ev ∈ ((Progress.start metadata signal).replay evs).instances.map
        fun i => Event.disposed i.name i.state := by
      rw [hmid]
      exact List.mem_append_right _ List.mem_cons_self
    obtain ⟨name, state, hdisposed⟩ := eq_disposed_of_mem hmem
    exact absurd hdisposed (hev name state)

theorem executed_mem_of_outcomeOf {metadata : Metadata} {signal : StopSignal}
    {evs : List (Event σ)} {r : Except Failure String} {call : Call σ}
    (h : .executed call ∈ (outcomeOf ((Progress.start metadata signal).replay evs) r).events) :
    .executed call ∈ evs := by
  obtain ⟨before, after, hs⟩ := List.append_of_mem h
  obtain ⟨rest, rfl⟩ := split_outcomeOf nofun hs
  exact List.mem_append_right _ List.mem_cons_self

/-- Every execution of a pass is one of a handler of its registry. -/
theorem Trace.executes_of_mem {document : Document} {signal : StopSignal} {evs : List (Event σ)}
    {r : Except Failure String} {call : Call σ}
    (h : Trace e document.content (.start document.metadata signal) evs)
    (hcall : .executed call ∈
      (outcomeOf ((Progress.start document.metadata signal).replay evs) r).events) :
    ∃ p depth tag entry, Executes e document.content p depth tag entry call := by
  obtain ⟨before, after, hs⟩ := List.append_of_mem (executed_mem_of_outcomeOf hcall)
  obtain ⟨earlier, depth, tag, entry, -, -, hx⟩ := h.split_executed hs
  exact ⟨_, depth, tag, entry, hx⟩

end TagExpander.Pass
