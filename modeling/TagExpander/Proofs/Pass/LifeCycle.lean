/-
  TagExpander.Proofs.Pass.LifeCycle — the life of the handler instances of a pass.

  The first tag of a name, in whatever spelling and at whatever depth, creates an
  instance of its handler; the tags of that name are handled by this instance, each
  in the state that the one before has left; and when the pass ends, well or badly,
  every instance is disposed of once, in the order of creation:

      created A · executed A · … · executed A · … · disposed A · disposed B

  Main results:
    * `Trace.state?_replay` — what an instance finds is what its last event left.
    * `process_lifeCycle` — every pass keeps to this order.
-/
import Mathlib.Data.List.Nodup
import TagExpander.Proofs.Pass.Trace

namespace TagExpander.Pass

variable {m : Type → Type} {σ : Type}

/-! ## §1. What an instance was left in. -/

/-- The state in which an event leaves the instance of a name, if it concerns it. -/
def Event.leaves (name : String) : Event σ → Option σ
  | .created other state => if Text.same other name then some state else none
  | .executed call => if Text.same call.handlerName name then some call.after else none
  | .scanned _ | .emitted _ _ _ | .spliced _ | .disposed _ _ => none

/-- The state in which the instance of a name was left last: by its creation, or by an
    execution. -/
def lastState (name : String) : List (Event σ) → Option σ
  | [] => none
  | ev :: evs => (lastState name evs).or (ev.leaves name)

theorem lastState_singleton (name : String) (ev : Event σ) :
    lastState name [ev] = ev.leaves name := by
  rw [lastState, lastState, Option.none_or]

theorem lastState_append (name : String) (evs evs' : List (Event σ)) :
    lastState name (evs ++ evs') = (lastState name evs').or (lastState name evs) := by
  induction evs with
  | nil => rw [List.nil_append, lastState, Option.or_none]
  | cons ev evs ih =>
      show (lastState name (evs ++ evs')).or (ev.leaves name) = _
      rw [ih, Option.or_assoc]
      rfl

/-- No instance is found if there is none of the name. -/
theorem state?_eq_none {instances : List (Instance σ)} {name : String} :
    state? instances name = none ↔ ∀ i ∈ instances, ¬ Text.same i.name name = true := by
  rw [state?, Option.map_eq_none_iff, List.find?_eq_none]

/-- Instances are found under every spelling of their names. -/
theorem state?_congr (instances : List (Instance σ)) {name other : String}
    (h : Text.fold name = Text.fold other) : state? instances name = state? instances other := by
  unfold state? Text.same
  rw [h]

theorem lastState_congr (evs : List (Event σ)) {name other : String}
    (h : Text.fold name = Text.fold other) : lastState name evs = lastState other evs := by
  induction evs with
  | nil => rfl
  | cons ev evs ih =>
      show (lastState name evs).or _ = (lastState other evs).or _
      have hsame : ∀ n, Text.same n name = Text.same n other := by
        intro n
        unfold Text.same
        rw [h]
      rw [ih]
      cases ev <;> simp only [Event.leaves, hsame]

/-- A new instance is found if there was none of its name. -/
theorem state?_append_singleton (instances : List (Instance σ)) (i : Instance σ) (name : String) :
    state? (instances ++ [i]) name =
      (state? instances name).or (if Text.same i.name name then some i.state else none) := by
  unfold state?
  rw [List.find?_append, Option.map_or, List.find?_singleton]
  split <;> rfl

/-- What an execution does to what instances find. -/
theorem state?_replay_called (p : Progress σ) (entry : Entry σ) (call : Call σ)
    (hname : call.handlerName = entry.name) (name : String) :
    state? (p.replay (called p entry call)).instances name =
      (lastState name (called p entry call)).or (state? p.instances name) := by
  rcases called_cases p entry call with ⟨hsome, -, hcall⟩ | ⟨hnone, -, hcall⟩
  -- an instance was there: the execution sets its state, if it is the one asked for
  · obtain ⟨state, hstate⟩ := Option.ne_none_iff_exists'.1 hsome
    have hinstances : (p.replay [.executed call]).instances =
        setState p.instances call.handlerName call.after := rfl
    rw [hcall, hinstances, lastState_singleton, Event.leaves, state?_setState, hname]
    by_cases h : Text.fold entry.name = Text.fold name
    · rw [if_pos h, if_pos (Text.same_iff.2 h), ← state?_congr p.instances h, hstate,
        Option.map_some, Option.some_or]
    · rw [if_neg h, if_neg (fun hs => h (Text.same_iff.1 hs)), Option.none_or]
  -- there was none: it is added first, and then its state is set
  · have hinstances :
        (p.replay [.created entry.name entry.handler.initial, .executed call]).instances =
          setState (p.instances ++ [⟨entry.name, entry.handler.initial⟩]) call.handlerName
            call.after := rfl
    rw [hcall, hinstances, lastState, lastState_singleton, Event.leaves, Event.leaves,
      state?_setState, state?_append_singleton, hname]
    by_cases h : Text.fold entry.name = Text.fold name
    · rw [if_pos h, if_pos (Text.same_iff.2 h), if_pos (Text.same_iff.2 h),
        ← state?_congr p.instances h, hnone, Option.none_or, Option.map_some, Option.some_or,
        Option.some_or]
    · have hne : ¬ Text.same entry.name name = true := fun hs => h (Text.same_iff.1 hs)
      rw [if_neg h, if_neg hne, if_neg hne, Option.or_none, Option.none_or, Option.none_or]

section Trace

variable {e : Expander m σ} {source : String} {p : Progress σ}

/-- **What an instance finds is what its last event left**, or else what it found at the
    start. -/
theorem Trace.state?_replay {evs : List (Event σ)} (h : Trace e source p evs) (name : String) :
    state? (p.replay evs).instances name =
      (lastState name evs).or (state? p.instances name) := by
  induction h with
  | nil => rfl
  | @inert p ev evs hev _ ih =>
      have hleaves : ev.leaves name = none ∧ (p.apply ev).instances = p.instances := by
        cases ev with
        | scanned _ | emitted _ _ _ | spliced _ => exact ⟨rfl, rfl⟩
        | created _ _ | executed _ | disposed _ _ => cases hev
      show state? ((p.apply ev).replay evs).instances name =
        ((lastState name evs).or (ev.leaves name)).or _
      rw [ih, hleaves.1, hleaves.2, Option.or_none]
  | @execution p depth tag entry call evs hx _ ih =>
      rw [Progress.replay_append, ih, lastState_append, Option.or_assoc,
        state?_replay_called p entry call hx.handlerName]

/-- No two instances have the same name. -/
theorem Trace.nodup_replay {evs : List (Event σ)} (h : Trace e source p evs)
    (hp : ((p.instances.map (·.name)).map Text.fold).Nodup) :
    (((p.replay evs).instances.map (·.name)).map Text.fold).Nodup := by
  induction h with
  | nil => exact hp
  | @inert p ev evs hev _ ih =>
      apply ih
      cases ev with
      | scanned _ | emitted _ _ _ | spliced _ => exact hp
      | created _ _ | executed _ | disposed _ _ => cases hev
  | @execution p depth tag entry call evs hx _ ih =>
      rw [Progress.replay_append]
      apply ih
      rw [Progress.names_replay, List.map_append]
      rcases called_cases p entry call with ⟨-, -, hcall⟩ | ⟨hnone, -, hcall⟩
      · have hcreated : createdNames (called p entry call) = [] := by
          rw [hcall]
          rfl
        rw [hcreated, List.map_nil, List.append_nil]
        exact hp
      -- the new name differs from all others, or its instance would have been found
      · have hcreated : createdNames (called p entry call) = [entry.name] := by
          rw [hcall]
          rfl
        rw [hcreated, List.map_singleton, ← List.concat_eq_append, List.nodup_concat]
        refine ⟨?_, hp⟩
        intro hmem
        obtain ⟨name, hname, hfold⟩ := List.mem_map.1 hmem
        obtain ⟨i, hi, rfl⟩ := List.mem_map.1 hname
        exact state?_eq_none.1 hnone i hi (Text.same_iff.2 hfold)

end Trace

/-- Every instance of a list is found under its name, if no two have the same. -/
theorem state?_of_mem {instances : List (Instance σ)} {i : Instance σ}
    (hd : ((instances.map (·.name)).map Text.fold).Nodup) (hi : i ∈ instances) :
    state? instances i.name = some i.state := by
  induction instances with
  | nil => cases hi
  | cons j instances ih =>
      rw [List.map_cons, List.map_cons, List.nodup_cons] at hd
      rcases List.mem_cons.1 hi with rfl | hi
      · simp only [state?, List.find?_cons, Text.same_refl, Option.map_some]
      -- the first instance is another one, so its name is another one
      · have hne : Text.same j.name i.name = false := by
          rw [Bool.eq_false_iff]
          intro hs
          rw [Text.same_iff.1 hs] at hd
          exact hd.1 (List.mem_map_of_mem (List.mem_map_of_mem hi))
        simp only [state?, List.find?_cons, hne] at ih ⊢
        exact ih hd.2 hi

/-! ## §2. The order of life. -/

/-- The life of the instances of a pass until it ends. -/
structure LifeCycle (registry : Registry σ) (signal : StopSignal) (evs : List (Event σ)) :
    Prop where
  /-- Nothing is disposed of yet. -/
  undisposed : ∀ name state, .disposed name state ∉ evs
  /-- There is one instance for a name in all its spellings. -/
  distinct : ((createdNames evs).map Text.fold).Nodup
  /-- An instance is created, while nobody has asked to stop, for a tag of a registered
      name without one; the next event is its first execution, in its first state. -/
  created : ∀ before name state after, evs = before ++ .created name state :: after →
    lastState name before = none ∧ (lastSignal signal before).isRaised = false ∧
      ∃ entry call rest, after = .executed call :: rest ∧
        registry.resolve? call.tagName = some entry ∧ call.handlerName = name ∧
        entry.name = name ∧ entry.handler.initial = state ∧ call.before = state
  /-- A handler is executed, while nobody has asked to stop, for a tag of its name in any
      spelling, in the state in which its instance was left last. -/
  executed : ∀ before call after, evs = before ++ .executed call :: after →
    lastState call.tagName before = some call.before ∧
      (lastSignal signal before).isRaised = false ∧
      ∃ entry, registry.resolve? call.tagName = some entry ∧ call.handlerName = entry.name ∧
        (entry.handler.execute call.before call.invocation).Runs (lastSignal signal before)
          ⟨(call.after, call.result), call.signal, call.readings⟩

/-- Each instance that was created is disposed of once, in the order of creation, in the
    state in which it was left last. -/
def DisposesOf (evs ends : List (Event σ)) : Prop :=
  ∃ instances : List (Instance σ), ends = instances.map (fun i => .disposed i.name i.state) ∧
    instances.map (·.name) = createdNames evs ∧
    ∀ i ∈ instances, lastState i.name evs = some i.state

section Start

variable {e : Expander m σ} {source : String} {metadata : Metadata} {signal : StopSignal}
  {evs : List (Event σ)}

/-- What an instance finds in the course of a pass is what its last event left. -/
theorem Trace.state?_start (h : Trace e source (.start metadata signal) evs) (name : String) :
    state? ((Progress.start metadata signal).replay evs).instances name = lastState name evs := by
  rw [h.state?_replay]
  exact Option.or_none

/-- An execution finds its instance in the state in which it was left last. -/
theorem Executes.lastState_eq {depth : Nat} {tag : Markup.Tag} {entry : Entry σ} {call : Call σ}
    (h : Trace e source (.start metadata signal) evs)
    (hx : Executes e source ((Progress.start metadata signal).replay evs) depth tag entry call) :
    lastState call.tagName
      (evs ++ ((Progress.start metadata signal).replay evs).creation entry) = some call.before := by
  have hname : Text.fold entry.name = Text.fold call.tagName := by
    rw [hx.tagName]
    exact Registry.fold_name_of_resolve? hx.resolves
  have hfound := hx.before
  rw [← lastState_congr _ hname, lastState_append]
  rcases called_cases ((Progress.start metadata signal).replay evs) entry call with
    ⟨hsome, hcreation, -⟩ | ⟨hnone, hcreation, -⟩
  · obtain ⟨state, hstate⟩ := Option.ne_none_iff_exists'.1 hsome
    rw [Progress.found, hstate] at hfound
    rw [h.state?_start] at hstate
    rw [hcreation, hstate, hfound]
    rfl
  · rw [Progress.found, hnone] at hfound
    rw [hcreation, hfound, lastState, Event.leaves, if_pos (Text.same_refl entry.name)]
    rfl

/-- The events of a pass until it ends keep to the order. -/
theorem Trace.lifeCycle (h : Trace e source (.start metadata signal) evs) :
    LifeCycle e.registry signal evs where
  undisposed := h.not_mem_disposed
  distinct := by
    have hd := h.nodup_replay List.nodup_nil
    rw [Progress.names_replay] at hd
    exact hd
  created := by
    intro before name state after hs
    obtain ⟨depth, tag, entry, call, rest, htrace, hafter, hnone, rfl, rfl, hx⟩ :=
      h.split_created hs
    rw [htrace.state?_start] at hnone
    have hrunning := hx.running
    rw [Progress.signal_replay] at hrunning
    refine ⟨hnone, hrunning, entry, call, rest, hafter, ?_, hx.handlerName, rfl, rfl, ?_⟩
    · rw [hx.tagName]
      exact hx.resolves
    · rw [hx.before, Progress.found, htrace.state?_start, hnone]
      rfl
  executed := by
    intro before call after hs
    obtain ⟨earlier, depth, tag, entry, htrace, rfl, hx⟩ := h.split_executed hs
    -- the creation right in front does not change the signal
    have hsignal : lastSignal signal
          (earlier ++ ((Progress.start metadata signal).replay earlier).creation entry) =
        ((Progress.start metadata signal).replay earlier).signal := by
      rw [← Progress.signal_creation _ entry, ← Progress.replay_append, Progress.signal_replay]
      rfl
    rw [hsignal]
    refine ⟨hx.lastState_eq htrace, hx.running, entry, ?_, hx.handlerName, hx.runs⟩
    rw [hx.tagName]
    exact hx.resolves

/-- The instances that are left at the end are those that were created. -/
theorem Trace.disposesOf (h : Trace e source (.start metadata signal) evs) :
    DisposesOf evs (((Progress.start metadata signal).replay evs).instances.map
      fun i => .disposed i.name i.state) := by
  refine ⟨_, rfl, Progress.names_replay _ _, ?_⟩
  intro i hi
  rw [← h.state?_start]
  exact state?_of_mem (h.nodup_replay List.nodup_nil) hi

end Start

/-- **Every pass keeps to the order of life**, whatever its handlers, its limit of nesting
    and its stop signal, and whether it ends well or in a failure: its events are those of
    the life of its instances, and behind them the disposal of each. -/
theorem process_lifeCycle [Monad m] [LawfulMonad m] (e : Expander m σ) (document : Document)
    (signal : StopSignal) :
    Always (fun o => ∃ evs ends, o.events = evs ++ ends ∧ LifeCycle e.registry signal evs ∧
        DisposesOf evs ends)
      (e.process document signal) := by
  refine (always_process e document signal).mono ?_
  intro o ho
  obtain ⟨evs, r, hrun, rfl⟩ := ho
  exact ⟨evs, _, events_outcomeOf _ _ _ _, hrun.trace.lifeCycle, hrun.trace.disposesOf⟩

/-- The order of life in a pass with two instances, one of which is executed twice. -/
theorem process_lifeCycle_loop :
    createdNames (builtinsAlone.process loopDocument .clear).run.events = ["ForEach", "Meta"] ∧
      ∃ evs ends, (builtinsAlone.process loopDocument .clear).run.events = evs ++ ends ∧
        LifeCycle builtinsAlone.registry .clear evs ∧ DisposesOf evs ends := by
  have h := always_id_iff.1 (process_lifeCycle builtinsAlone loopDocument .clear)
  exact ⟨by decide +kernel, h⟩

end TagExpander.Pass
