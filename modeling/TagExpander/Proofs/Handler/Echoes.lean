/-
  TagExpander.Proofs.Handler.Echoes — what handlers put out to be expanded.

  The builtin handlers make up no text that is expanded.  A loop and a condition give
  back the content of their tag, an inclusion the text of the file that it has read;
  metadata values and the content of a raw tag are taken as they are.

  Main results:
    * `Script.Runs.of_bind` — a run of two scripts in a row is a run of each.
    * `Builtin.echoes` — what the builtin handlers put out to be expanded is the content
      of the tag, or what `Include` has read.
-/
import TagExpander.Proofs.Pass.Run

namespace TagExpander

/-! ## §1. Scripts in a row. -/

namespace Script

variable {α β : Type} {signal : StopSignal}

/-- A script that is at its end has nothing to ask. -/
theorem Runs.of_done {a : α} {ran : Ran α} (h : Runs signal (.done a) ran) :
    ran = ⟨a, signal, []⟩ := by
  cases h
  rfl

/-- A run of a script that goes on with another one is a run of the one, and then a run of
    the other. -/
theorem Runs.of_bind {s : Script α} {f : α → Script β} {ran : Ran β}
    (h : Runs signal (s.bind f) ran) :
    ∃ first rest, Runs signal s first ∧ Runs first.signal (f first.result) rest ∧
      ran = { rest with readings := first.readings ++ rest.readings } := by
  -- on the first script; each of its requests is the next one of the run
  induction s generalizing signal ran with
  | done a => exact ⟨⟨a, signal, []⟩, ran, .done signal a, h, rfl⟩
  | read path next ih =>
      cases h with
      | read answer h =>
          obtain ⟨first, rest, hfirst, hrest, rfl⟩ := ih answer h
          exact ⟨_, rest, .read answer hfirst, hrest, rfl⟩
  | canonical path next ih =>
      cases h with
      | canonical answer h =>
          obtain ⟨first, rest, hfirst, hrest, rfl⟩ := ih answer h
          exact ⟨first, rest, .canonical answer hfirst, hrest, rfl⟩
  | stop next ih =>
      cases h with
      | stop h =>
          obtain ⟨first, rest, hfirst, hrest, rfl⟩ := ih h
          exact ⟨first, rest, .stop hfirst, hrest, rfl⟩
  | isStopped next ih =>
      cases h with
      | isStopped h =>
          obtain ⟨first, rest, hfirst, hrest, rfl⟩ := ih signal.isRaised h
          exact ⟨first, rest, .isStopped hfirst, hrest, rfl⟩

/-- A handler without a state runs as its answer does. -/
theorem Runs.of_stateless {σ : Type} [Inhabited σ]
    {answer : Invocation → Script (Except HandlerFault Output)} {state : σ} {call : Invocation}
    {ran : Ran (σ × Except HandlerFault Output)}
    (h : Runs signal ((Handler.stateless answer).execute state call) ran) :
    ∃ answered, Runs signal (answer call) answered ∧ ran.result.2 = answered.result ∧
      ran.readings = answered.readings := by
  obtain ⟨answered, rest, hanswered, hrest, rfl⟩ := of_bind h
  rw [hrest.of_done]
  exact ⟨answered, hanswered, rfl, List.append_nil _⟩

end Script

/-! ## §2. Registries. -/

variable {σ : Type}

/-- An entry that is found was registered. -/
theorem Registry.mem_of_resolve? {entries : List (Entry σ)} {r : Registry σ} {name : String}
    {entry : Entry σ} (h : (entries.foldl Registry.register r).resolve? name = some entry) :
    entry ∈ entries ∨ r.resolve? name = some entry := by
  induction entries generalizing r with
  | nil => exact .inr h
  | cons e entries ih =>
      rcases ih h with hmem | hfound
      · exact .inl (List.mem_cons_of_mem e hmem)
      · rw [Registry.resolve?_register] at hfound
        split at hfound
        · cases hfound
          exact .inl List.mem_cons_self
        · exact .inr hfound

/-- What the handlers put out to be expanded is the content of the tag, or a file that the
    handler of the name `reader` has read. -/
def Registry.Echoes (registry : Registry σ) (reader : String) : Prop :=
  ∀ {name : String} {entry : Entry σ} {state : σ} {call : Invocation} {signal : StopSignal}
    {ran : Script.Ran (σ × Except HandlerFault Output)} {output : Output} {d : Document},
    registry.resolve? name = some entry → (entry.handler.execute state call).Runs signal ran →
    ran.result.2 = .ok output → (entry.kind == .raw || output.isRaw) = false → d ∈ output.docs →
    d.content = call.content ∨
      entry.name = reader ∧ ∃ path, ⟨path, .ok d.content⟩ ∈ ran.readings

/-! ## §3. The builtin handlers. -/

/-- Two steps in a row succeed if the one does, and then the other. -/
theorem exists_of_bind_eq_ok {ε α β : Type} {x : Except ε α} {f : α → Except ε β} {b : β}
    (h : (x >>= f) = .ok b) : ∃ a, x = .ok a ∧ f a = .ok b := by
  cases x with
  | error fault => cases h
  | ok a => exact ⟨a, rfl, h⟩

namespace Builtin

variable {call : Invocation} {output : Output} {d : Document}

/-- A metadata value is put out as it is, or there is nothing. -/
theorem metadataValue_eq_ok (h : metadataValue call = .ok output) :
    (∃ text, output = .ofRaw text) ∨ output = .none := by
  obtain ⟨args, -, h⟩ := exists_of_bind_eq_ok h
  obtain ⟨key, -, h⟩ := exists_of_bind_eq_ok h
  split at h
  next text _ => exact .inl ⟨text, (Except.ok.inj h).symm⟩
  · exact .inr (Except.ok.inj h).symm

/-- A metadata value is not expanded. -/
theorem isRaw_of_metadataValue (h : metadataValue call = .ok output) (hd : d ∈ output.docs) :
    output.isRaw = true := by
  rcases metadataValue_eq_ok h with ⟨text, rfl⟩ | rfl
  · rfl
  · cases hd

/-- A loop gives back the content of its tag, once for every item. -/
theorem content_of_forEach (h : forEach call = .ok output) (hd : d ∈ output.docs) :
    d.content = call.content := by
  obtain ⟨args, -, h⟩ := exists_of_bind_eq_ok h
  obtain ⟨_, -, h⟩ := exists_of_bind_eq_ok h
  obtain ⟨valueKey, -, h⟩ := exists_of_bind_eq_ok h
  dsimp only at h
  split at h
  · cases h
    cases hd
  · cases h
    obtain ⟨item, -, rfl⟩ := List.mem_map.1 hd
    rfl

/-- A condition puts out the content of its tag, or nothing. -/
theorem condition_eq_ok (h : condition call = .ok output) :
    output = .ofContent call.content ∨ output = .none := by
  have whatever : ∀ holds : Bool,
      (if holds then .ofContent call.content else .none : Output) = .ofContent call.content ∨
        (if holds then .ofContent call.content else .none : Output) = .none := by
    intro holds
    cases holds with
    | false => exact .inr rfl
    | true => exact .inl rfl
  obtain ⟨args, -, h⟩ := exists_of_bind_eq_ok h
  obtain ⟨key, -, h⟩ := exists_of_bind_eq_ok h
  cases h
  exact whatever _

/-- A condition gives back the content of its tag, or nothing. -/
theorem content_of_condition (h : condition call = .ok output) (hd : d ∈ output.docs) :
    d.content = call.content := by
  rcases condition_eq_ok h with rfl | rfl
  · rw [List.mem_singleton.1 hd]
    rfl
  · cases hd

/-- An inclusion puts out what was read. -/
theorem inclusion_eq_ok {signal : StopSignal} {ran : Script.Ran (Except HandlerFault Output)}
    (hran : (inclusion call).Runs signal ran) (h : ran.result = .ok output) :
    ∃ path text, ⟨path, .ok text⟩ ∈ ran.readings ∧ output = .ofContent text := by
  unfold inclusion at hran
  split at hran
  · rw [hran.of_done] at h
    cases h
  · obtain ⟨first, rest, -, hrest, rfl⟩ := hran.of_bind
    cases hpath : first.result with
    | none =>
        rw [hpath] at hrest
        rw [hrest.of_done] at h
        cases h
    | some path =>
        rw [hpath] at hrest
        cases hrest with
        | read answer hrest =>
            cases answer with
            | error cause =>
                rw [hrest.of_done] at h
                cases h
            | ok text =>
                rw [hrest.of_done] at h ⊢
                cases h
                exact ⟨path, text, List.mem_append_right _ List.mem_cons_self, rfl⟩

/-- An inclusion gives back what was read. -/
theorem read_of_inclusion {signal : StopSignal} {ran : Script.Ran (Except HandlerFault Output)}
    (hran : (inclusion call).Runs signal ran) (h : ran.result = .ok output)
    (hd : d ∈ output.docs) : ∃ path, ⟨path, .ok d.content⟩ ∈ ran.readings := by
  obtain ⟨path, text, hread, rfl⟩ := inclusion_eq_ok hran h
  rw [List.mem_singleton.1 hd]
  exact ⟨path, hread⟩

/-- A handler that asks for nothing gives its answer. -/
theorem result_of_pureHandler [Inhabited σ] {answer : Invocation → Except HandlerFault Output}
    {state : σ} {signal : StopSignal} {ran : Script.Ran (σ × Except HandlerFault Output)}
    (h : ((pureHandler answer).execute state call).Runs signal ran) :
    ran.result.2 = answer call := by
  obtain ⟨answered, hanswered, hresult, -⟩ := Script.Runs.of_stateless h
  rw [hresult, hanswered.of_done]

/-- What is found in the registry of the builtin handlers is one of them. -/
theorem mem_entries_of_resolve? [Inhabited σ] {name : String} {entry : Entry σ}
    (h : (registry : Registry σ).resolve? name = some entry) :
    entry ∈ (entries : List (Entry σ)) := by
  rcases Registry.mem_of_resolve? h with hmem | hnone
  · exact hmem
  · cases hnone

/-- **What the builtin handlers put out to be expanded** is the content of the tag, or what
    an inclusion has read. -/
theorem echoes [Inhabited σ] : (registry : Registry σ).Echoes "Include" := by
  intro name entry state call signal ran output d hresolve hran hresult hraw hd
  rw [Bool.or_eq_false_iff] at hraw
  obtain ⟨hkind, hraw⟩ := hraw
  have hmem := mem_entries_of_resolve? hresolve
  simp only [entries, List.mem_cons, List.not_mem_nil, or_false] at hmem
  rcases hmem with rfl | rfl | rfl | rfl | rfl
  -- nothing that `Raw` and `Meta` put out is expanded
  · cases hkind
  · rw [result_of_pureHandler hran] at hresult
    cases hraw.symm.trans (isRaw_of_metadataValue hresult hd)
  -- `ForEach` and `If` give back the content of their tag, and `Include` what it reads
  · rw [result_of_pureHandler hran] at hresult
    exact .inl (content_of_forEach hresult hd)
  · rw [result_of_pureHandler hran] at hresult
    exact .inl (content_of_condition hresult hd)
  · obtain ⟨answered, hanswered, hresult', hreadings⟩ := Script.Runs.of_stateless hran
    rw [hresult'] at hresult
    rw [hreadings]
    exact .inr ⟨rfl, read_of_inclusion hanswered hresult hd⟩

/-- **What is put out for a metadata value, or for its default, is not expanded.** -/
theorem isRaw_of_meta [Inhabited σ] {name : String} {entry : Entry σ} {state : σ}
    {signal : StopSignal} {ran : Script.Ran (σ × Except HandlerFault Output)}
    (hresolve : (registry : Registry σ).resolve? name = some entry) (hname : entry.name = "Meta")
    (hran : (entry.handler.execute state call).Runs signal ran)
    (hresult : ran.result.2 = .ok output) (hd : d ∈ output.docs) : output.isRaw = true := by
  have hmem := mem_entries_of_resolve? hresolve
  simp only [entries, List.mem_cons, List.not_mem_nil, or_false] at hmem
  rcases hmem with rfl | rfl | rfl | rfl | rfl
  -- all names but that of `Meta` are others
  · simp at hname
  · rw [result_of_pureHandler hran] at hresult
    exact isRaw_of_metadataValue hresult hd
  all_goals simp at hname

end Builtin

end TagExpander
