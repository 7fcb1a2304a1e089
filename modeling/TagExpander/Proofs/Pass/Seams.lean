/-
  TagExpander.Proofs.Pass.Seams — markers in a result.

  Where no text is exempt, every text that is put into a result is free of markers.  The
  result need not be: the texts are only put together, and what has been expanded is not
  scanned again, so a marker can come up across a seam:

      <│?# B /?>      the text `<` in front of a tag that puts out `?# B /?>`

  Main results:
    * `Run.containsMarker_textsSpliced` — no text that is put into the result contains a
      marker.
    * `process_seams` — a result contains a marker exactly if one stands across a seam;
      a result without markers is expanded to itself.
-/
import TagExpander.Proofs.Handler.Echoes
import TagExpander.Proofs.Pass.Provenance

namespace TagExpander

variable {m : Type → Type} {σ : Type}

/-- Every handler is a standard one, and puts out no text that is taken as it is. -/
structure Registry.NeverRaw (registry : Registry σ) : Prop where
  standard : ∀ {name : String} {entry : Entry σ}, registry.resolve? name = some entry →
    entry.kind = .standard
  expanded : ∀ {name : String} {entry : Entry σ} {state : σ} {call : Invocation}
    {signal : StopSignal} {ran : Script.Ran (σ × Except HandlerFault Output)} {output : Output},
    registry.resolve? name = some entry → (entry.handler.execute state call).Runs signal ran →
    ran.result.2 = .ok output → output.isRaw = false

namespace Pass

/-! ## §1. Texts that are put into a result. -/

/-- No text of a piece of work is put into the result with a marker in it. -/
def Piece.Unmarked : Piece → Prop
  | .text _ _ => True
  | .spans _ found => ∀ literal, .literal literal ∈ found → Markup.containsMarker literal = false
  | .output _ _ raw _ => raw = false

section Run

variable {e : Expander m σ} {source : String} {p : Progress σ}

/-- What a tag puts out is expanded. -/
theorem Invoked.unmarked (hnever : e.registry.NeverRaw) {depth : Nat} {tag : Markup.Tag}
    {evs : List (Event σ)} {output : Output} {kind : Kind}
    (h : Invoked e source p depth tag evs (.ok (output, kind))) :
    (Piece.output depth tag.name (kind == .raw || output.isRaw) output.docs).Unmarked := by
  cases h with
  | @executed entry call _ hx hr =>
      show (entry.kind == .raw || output.isRaw) = false
      rw [hnever.standard hx.resolves, hnever.expanded hx.resolves hx.runs hr]
      rfl

/-- An execution puts no text into the result. -/
theorem Invoked.textsSpliced_eq {depth : Nat} {tag : Markup.Tag} {evs : List (Event σ)}
    {r : Except Failure (Output × Kind)} (h : Invoked e source p depth tag evs r) :
    textsSpliced evs = [] := by
  cases h with
  | stopped _ | unknown _ _ => rfl
  | failed _ _ | executed _ _ =>
      rw [← textsSpliced_filter_isWork, filter_isWork_called]
      rfl

/-- **No text that is put into the result contains a marker**, if no handler is raw. -/
theorem Run.containsMarker_textsSpliced (hnever : e.registry.NeverRaw) {piece : Piece}
    {evs : List (Event σ)} {r : Except Failure String} (h : Run e source p piece evs r)
    (hpiece : piece.Unmarked) : ∀ text ∈ textsSpliced evs, Markup.containsMarker text = false := by
  -- texts are put into the result where they have no markers, or as literals of a scan
  induction h with
  | plain hplain =>
      intro text htext
      rw [List.mem_singleton.1 htext]
      exact hplain
  | tooDeep _ _ | malformed _ _ _ | finished | nothing => exact nofun
  | scanned _ _ hs _ ih =>
      exact ih fun literal hliteral => Markup.containsMarker_literal hs hliteral
  | @literal _ _ text _ _ _ _ ih =>
      have hrest := ih fun literal hliteral => hpiece literal (List.mem_cons_of_mem _ hliteral)
      exact List.forall_mem_cons.2 ⟨hpiece text List.mem_cons_self, hrest⟩
  | refused h =>
      rw [h.textsSpliced_eq]
      exact nofun
  | cut h _ ih =>
      rw [textsSpliced_append, h.textsSpliced_eq, List.nil_append]
      exact ih (h.unmarked hnever)
  | tag h _ _ iho ihw =>
      have hrest := ihw fun literal hliteral => hpiece literal (List.mem_cons_of_mem _ hliteral)
      rw [textsSpliced_append, textsSpliced_append, h.textsSpliced_eq, List.nil_append]
      exact List.forall_mem_append.2 ⟨iho (h.unmarked hnever), hrest⟩
  | exempt _ _ => cases hpiece
  | broken _ ih => exact ih trivial
  | @document _ _ _ _ _ evs evs' _ _ _ _ ih ihd =>
      show ∀ text ∈ textsSpliced (evs ++ evs'), _
      rw [textsSpliced_append]
      exact List.forall_mem_append.2 ⟨ih trivial, ihd hpiece⟩

end Run

/-! ## §2. Passes. -/

variable [Monad m]

/-- A document without markers is expanded to itself. -/
theorem process_of_not_containsMarker [LawfulMonad m] (e : Expander m σ) {document : Document}
    (h : Markup.containsMarker document.content = false) (signal : StopSignal) :
    e.process document signal = pure ⟨.ok document, [.spliced document.content], signal⟩ := by
  rw [Expander.process, expand_of_not_containsMarker h, pure_bind]
  rfl

/-- **Markers in a result.**  With handlers that are never raw, a result is made up of
    texts of which none contains a marker.  It contains one exactly if a marker stands
    across a seam of these texts; and if none does, the result is expanded to itself. -/
theorem process_seams [LawfulMonad m] (e : Expander m σ) (hnever : e.registry.NeverRaw)
    (document : Document) (signal : StopSignal) :
    Always (fun o => ∀ result, o.result = .ok result →
        result.content = String.join (textsSpliced o.events) ∧
        (∀ text ∈ textsSpliced o.events, Markup.containsMarker text = false) ∧
        (Markup.containsMarker result.content = true ↔
          Markup.SeamMarker (textsSpliced o.events)) ∧
        (¬Markup.SeamMarker (textsSpliced o.events) → ∀ signal',
          e.process result signal' =
            pure ⟨.ok result, [.spliced result.content], signal'⟩))
      (e.process document signal) := by
  refine (always_process e document signal).mono ?_
  intro o ho result hresult
  obtain ⟨evs, r, hrun, rfl⟩ := ho
  have htexts : textsSpliced (outcomeOf ((Progress.start document.metadata signal).replay evs)
      r).events = textsSpliced evs := by
    rw [← textsSpliced_filter_isWork, filter_isWork_outcomeOf, textsSpliced_filter_isWork]
  rw [htexts]
  rw [eq_ok_of_outcomeOf hresult] at hrun
  have hcontent := hrun.eq_join_textsSpliced
  have hplain := hrun.containsMarker_textsSpliced hnever trivial
  have hseam : Markup.containsMarker result.content = true ↔
      Markup.SeamMarker (textsSpliced evs) := by
    rw [hcontent]
    exact Markup.containsMarker_join_iff hplain
  refine ⟨hcontent, hplain, hseam, fun hnone signal' => ?_⟩
  rw [← hseam, Bool.not_eq_true] at hnone
  exact process_of_not_containsMarker e hnone signal'

/-! ## §3. A marker across a seam. -/

/-- Two standard handlers of fixed output: `A` puts out `?# B /?>`, and `B` puts out `b`. -/
def fixedOutputs : Expander Id Unit where
  registry := [⟨"A", .standard, Builtin.pureHandler fun _ => .ok (.ofContent "?# B /?>")⟩,
    ⟨"B", .standard, Builtin.pureHandler fun _ => .ok (.ofContent "b")⟩].foldl
      Registry.register .empty
  files := ⟨fun _ => .error .notFound, fun _ => none⟩
  baseDir := ⟨[]⟩
  sourcePath := none
  maxDepth := defaultMaxDepth

theorem neverRaw_fixedOutputs : fixedOutputs.registry.NeverRaw where
  standard := by
    intro name entry hresolve
    rcases Registry.mem_of_resolve? hresolve with hmem | hnone
    · simp only [List.mem_cons, List.not_mem_nil, or_false] at hmem
      rcases hmem with rfl | rfl <;> rfl
    · cases hnone
  expanded := by
    intro name entry state call signal ran output hresolve hran hresult
    rcases Registry.mem_of_resolve? hresolve with hmem | hnone
    · simp only [List.mem_cons, List.not_mem_nil, or_false] at hmem
      rcases hmem with rfl | rfl <;>
        · rw [Builtin.result_of_pureHandler hran] at hresult
          cases hresult
          rfl
    · cases hnone

theorem exists_of_toOption_map {ε α β : Type} {r : Except ε α} {f : α → β} {b : β}
    (h : r.toOption.map f = some b) : ∃ a, r = .ok a ∧ f a = b := by
  cases r with
  | error fault => cases h
  | ok a => exact ⟨a, rfl, Option.some.inj h⟩

/-- Two tags next to each other put out two texts without a marker across the seam. -/
theorem process_seams_adjacent :
    fixedOutputs.registry.NeverRaw ∧
      let o := (fixedOutputs.process (.ofContent "<?# B /?><?# A /?>") .clear).run
      textsSpliced o.events = ["b", "?# B /?>"] ∧
        ¬Markup.SeamMarker (textsSpliced o.events) ∧
        ∃ result, o.result = .ok result ∧ result.content = "b?# B /?>" ∧
          Markup.containsMarker result.content = false ∧
          ∀ signal', fixedOutputs.process result signal' =
            pure ⟨.ok result, [.spliced result.content], signal'⟩ := by
  refine ⟨neverRaw_fixedOutputs, ?_⟩
  have h := always_id_iff.1
    (process_seams fixedOutputs neverRaw_fixedOutputs (.ofContent "<?# B /?><?# A /?>") .clear)
  have htexts : textsSpliced (fixedOutputs.process (.ofContent "<?# B /?><?# A /?>")
      .clear).run.events = ["b", "?# B /?>"] := by decide +kernel
  have hnone : ¬Markup.SeamMarker ["b", "?# B /?>"] := by decide +kernel
  rw [← htexts] at hnone
  obtain ⟨result, hresult, hcontent⟩ := exists_of_toOption_map
    (show (fixedOutputs.process (.ofContent "<?# B /?><?# A /?>") .clear).run.result.toOption.map
      (·.content) = some "b?# B /?>" by decide +kernel)
  obtain ⟨-, -, hmarker, hagain⟩ := h result hresult
  refine ⟨htexts, hnone, result, hresult, hcontent, ?_, hagain hnone⟩
  rw [← Bool.not_eq_true, hmarker]
  exact hnone

/-- Behind `<`, the output of `A` makes up a tag, which is left as text; it is expanded
    when the result is processed again. -/
theorem process_splitTag :
    fixedOutputs.registry.NeverRaw ∧
      ∃ result, (fixedOutputs.process (.ofContent "<<?# A /?>") .clear).run.result = .ok result ∧
        Markup.containsMarker result.content = true ∧
        ∃ again, (fixedOutputs.process result .clear).run.result = .ok again ∧
          again.content ≠ result.content := by
  have hfirst : (fixedOutputs.process (.ofContent "<<?# A /?>") .clear).run.result.toOption.map
      (·.content) = some "<?# B /?>" := by decide +kernel
  have hsecond : ((fixedOutputs.process (.ofContent "<<?# A /?>") .clear).run.result.toOption.bind
      fun result => (fixedOutputs.process result .clear).run.result.toOption).map (·.content) =
        some "b" := by decide +kernel
  obtain ⟨result, hresult, hcontent⟩ := exists_of_toOption_map hfirst
  rw [hresult] at hsecond
  obtain ⟨again, hagain, hb⟩ := exists_of_toOption_map
    (show (fixedOutputs.process result .clear).run.result.toOption.map (·.content) = some "b"
      from hsecond)
  refine ⟨neverRaw_fixedOutputs, result, hresult, ?_, again, hagain, ?_⟩
  · rw [hcontent]
    decide +kernel
  · rw [hcontent, hb]
    decide

end Pass

end TagExpander
