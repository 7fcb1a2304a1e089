/-
  TagExpander.Proofs.Pass.WellMarked — malformed markers show at once.

  A document whose markers are malformed fails before any handler is executed.  If they
  are not, and neither are those of the files that are included, no malformed markers
  come up later, however deeply output is nested: the content of a tag scans by itself
  if the text around it does, and the builtin handlers put out nothing else.

  Main results:
    * `Run.wellMarked` — a run that starts from texts that scan meets no other ones.
    * `process_builtins_wellMarked` — with the builtin handlers, malformed markers are
      met at the start or not at all.
-/
import TagExpander.Proofs.Handler.Echoes
import TagExpander.Proofs.Markup.Fragment
import TagExpander.Proofs.Markup.Plain

namespace TagExpander

/-! ## §1. Failures. -/

/-- Is the failure one of markers? -/
def Failure.isMalformed : Failure → Bool
  | .malformed _ _ => true
  | .unknown _ | .argument _ _ | .fault _ _ _ | .tooDeep _ | .stopped => false

theorem Failure.isMalformed_inOutputOf (name : String) (f : Failure) :
    (f.inOutputOf name).isMalformed = f.isMalformed := by
  cases f with
  | malformed cause producer => cases producer <;> rfl
  | _ => rfl

theorem Failure.isMalformed_ofHandler (name : String) (fault : HandlerFault) :
    (ofHandler name fault).isMalformed = false := by
  cases fault <;> rfl

namespace Pass

variable {m : Type → Type} {σ : Type}

/-! ## §2. Texts that scan. -/

/-- The text scans. -/
def Scans (isRaw : String → Bool) (text : String) : Prop :=
  ∃ spans, Markup.scan isRaw text = .ok spans

instance (isRaw : String → Bool) (text : String) : Decidable (Scans isRaw text) :=
  match h : Markup.scan isRaw text with
  | .ok spans => .isTrue ⟨spans, h⟩
  | .error _ => .isFalse fun ⟨_, hok⟩ => nomatch h.symm.trans hok

/-- The texts that the handler of a name has read, in order. -/
def textsRead (reader : String) (evs : List (Event σ)) : List String :=
  evs.flatMap fun
    | .executed call =>
      if call.handlerName = reader then call.readings.filterMap (·.answer.toOption) else []
    | _ => []

theorem textsRead_append (reader : String) (evs evs' : List (Event σ)) :
    textsRead reader (evs ++ evs') = textsRead reader evs ++ textsRead reader evs' :=
  List.flatMap_append

/-- What a handler has read is among the texts read. -/
theorem mem_textsRead {evs : List (Event σ)} {call : Call σ} {path : Path} {text : String}
    (hcall : .executed call ∈ evs) (h : ⟨path, .ok text⟩ ∈ call.readings) :
    text ∈ textsRead call.handlerName evs := by
  refine List.mem_flatMap.2 ⟨_, hcall, ?_⟩
  show text ∈ if call.handlerName = call.handlerName then _ else _
  rw [if_pos rfl]
  exact List.mem_filterMap.2 ⟨_, h, rfl⟩

/-- All texts of a piece of work that are still to be scanned do scan. -/
def Piece.WellMarked (isRaw : String → Bool) : Piece → Prop
  | .text _ content => Scans isRaw content
  | .spans _ found => ∀ tag, .tag tag ∈ found → isRaw tag.name = false → Scans isRaw tag.content
  | .output _ _ raw docs => raw = false → ∀ d ∈ docs, Scans isRaw d.content

/-- The work does not end in malformed markers. -/
def WellEnded (r : Except Failure String) : Prop :=
  ∀ failure, r = .error failure → failure.isMalformed = false

theorem WellEnded.ok (text : String) : WellEnded (.ok text) := nofun

theorem WellEnded.error {failure : Failure} (h : failure.isMalformed = false) :
    WellEnded (.error failure) := by
  intro failure' heq
  cases heq
  exact h

theorem WellEnded.map {r : Except Failure String} (h : WellEnded r) (f : String → String) :
    WellEnded (r.map f) := by
  cases r with
  | error failure => exact h
  | ok text => exact .ok (f text)

/-! ## §3. Runs. -/

section Run

variable {e : Expander m σ} {source : String} {p : Progress σ} {reader : String}

/-- What a tag puts out scans if its content does, and what the reader has read. -/
theorem Invoked.wellMarked (hechoes : e.registry.Echoes reader) {depth : Nat} {tag : Markup.Tag}
    {evs : List (Event σ)} {output : Output} {kind : Kind}
    (h : Invoked e source p depth tag evs (.ok (output, kind)))
    (htag : e.registry.isRaw tag.name = false → Scans e.registry.isRaw tag.content)
    (hreads : ∀ text ∈ textsRead reader evs, Scans e.registry.isRaw text) :
    (Piece.output depth tag.name (kind == .raw || output.isRaw) output.docs).WellMarked
      e.registry.isRaw := by
  cases h with
  | @executed entry call _ hx hr =>
      intro hraw d hd
      rcases hechoes hx.resolves hx.runs hr hraw hd with hcontent | ⟨hname, path, hpath⟩
      -- output of a raw handler is not expanded, so the name of the tag is not raw
      · rw [hcontent, hx.invocation]
        apply htag
        rw [Registry.isRaw_eq hx.resolves]
        exact (Bool.or_eq_false_iff.1 hraw).1
      · rw [← hname, ← hx.handlerName] at hreads
        exact hreads _ (mem_textsRead (List.mem_append_right _ List.mem_cons_self) hpath)

/-- A tag that fails does so for another reason than its markers. -/
theorem Invoked.isMalformed_eq_false {depth : Nat} {tag : Markup.Tag} {evs : List (Event σ)}
    {failure : Failure} (h : Invoked e source p depth tag evs (.error failure)) :
    failure.isMalformed = false := by
  cases h with
  | stopped _ | unknown _ _ => rfl
  | failed _ _ => exact Failure.isMalformed_ofHandler _ _

/-- **A run that starts from texts that scan meets no other ones**, if what is read does
    scan, too. -/
theorem Run.wellMarked (hechoes : e.registry.Echoes reader) {piece : Piece}
    {evs : List (Event σ)} {r : Except Failure String} (h : Run e source p piece evs r)
    (hpiece : piece.WellMarked e.registry.isRaw)
    (hreads : ∀ text ∈ textsRead reader evs, Scans e.registry.isRaw text) : WellEnded r := by
  -- the texts of a piece are scanned one after the other, and give the texts of the next
  induction h with
  | plain _ => exact .ok _
  | tooDeep _ _ => exact .error rfl
  | malformed _ _ hs =>
      obtain ⟨spans, hok⟩ := hpiece
      cases hs.symm.trans hok
  | scanned _ _ hs _ ih =>
      exact ih (fun tag htag hraw => Markup.scan_content hs htag hraw) hreads
  | finished => exact .ok _
  | literal _ ih =>
      exact (ih (fun tag htag => hpiece tag (List.mem_cons_of_mem _ htag)) hreads).map _
  | refused h => exact .error h.isMalformed_eq_false
  | cut h _ ih =>
      rw [textsRead_append] at hreads
      have hoccurrence := h.wellMarked hechoes (hpiece _ List.mem_cons_self)
        fun text htext => hreads text (List.mem_append_left _ htext)
      exact ih hoccurrence fun text htext => hreads text (List.mem_append_right _ htext)
  | tag h _ _ iho ihw =>
      rw [textsRead_append] at hreads
      refine (ihw (fun tag htag => hpiece tag (List.mem_cons_of_mem _ htag)) ?_).map _
      exact fun text htext => hreads text (List.mem_append_right _ htext)
  | nothing => exact .ok _
  | exempt _ ih => exact (ih nofun hreads).map _
  | broken _ ih =>
      have hfailure := ih (hpiece rfl _ List.mem_cons_self) hreads _ rfl
      exact .error ((Failure.isMalformed_inOutputOf _ _).trans hfailure)
  | @document p depth tagName d docs evs evs' _ _ _ _ _ ihd =>
      rw [textsRead_append] at hreads
      refine (ihd (fun _ d hd => hpiece rfl d (List.mem_cons_of_mem _ hd)) ?_).map _
      exact fun text htext => hreads text (List.mem_append_right _ htext)

/-- A text whose markers are malformed is scanned, and that is all. -/
theorem Run.of_scan_error {text : String} {cause : Markup.Malformed} {evs : List (Event σ)}
    {r : Except Failure String} (h : Run e source p (.text 0 text) evs r)
    (hs : Markup.scan e.registry.isRaw text = .error cause) :
    evs = [.scanned text] ∧ r = .error (.malformed cause none) := by
  cases h with
  | plain hplain => cases hplain.symm.trans (Markup.containsMarker_of_scan_error hs)
  | tooDeep _ hd => exact absurd hd (Nat.not_lt_zero _)
  | malformed _ _ hs' =>
      cases hs.symm.trans hs'
      exact ⟨rfl, rfl⟩
  | scanned _ _ hs' _ => cases hs.symm.trans hs'

end Run

/-! ## §4. Passes. -/

/-- **With the builtin handlers, malformed markers are met at the start or not at all.**
    The content of a tag that is not raw scans if the text around it does.  A document
    that does not scan fails with no handler created or executed.  If it scans, and every
    text that is included does, the pass does not fail because of markers, whatever the
    files, the metadata and the limit of nesting are. -/
theorem process_builtins_wellMarked [Monad m] [LawfulMonad m] [Inhabited σ] (files : Files m)
    (baseDir : Path) (sourcePath : Option Path) (maxDepth : Nat) (document : Document)
    (signal : StopSignal) :
    (∀ isRaw text spans tag, Markup.scan isRaw text = .ok spans → .tag tag ∈ spans →
      isRaw tag.name = false → Scans isRaw tag.content) ∧
    Always (fun o =>
        (∀ cause, Markup.scan (Builtin.registry : Registry σ).isRaw document.content =
            .error cause →
          o.result = .error (.malformed cause none) ∧
            (∀ name state, .created name state ∉ o.events) ∧
            ∀ call, .executed call ∉ o.events) ∧
        (Scans (Builtin.registry : Registry σ).isRaw document.content →
          (∀ text ∈ textsRead "Include" o.events,
            Scans (Builtin.registry : Registry σ).isRaw text) →
          ∀ cause producer, o.result ≠ .error (.malformed cause producer)))
      (Expander.process ⟨(Builtin.registry : Registry σ), files, baseDir, sourcePath, maxDepth⟩
        document signal) := by
  refine ⟨fun isRaw text spans tag hs htag hraw => Markup.scan_content hs htag hraw, ?_⟩
  refine (always_process _ document signal).mono ?_
  intro o ho
  obtain ⟨evs, r, hrun, rfl⟩ := ho
  rw [events_outcomeOf]
  constructor
  · intro cause hs
    obtain ⟨rfl, rfl⟩ := hrun.of_scan_error hs
    exact ⟨rfl, by simp [Progress.start, Progress.apply], by simp⟩
  · intro hscans hreads cause producer hresult
    rw [textsRead_append] at hreads
    have hended := hrun.wellMarked Builtin.echoes hscans
      fun text htext => hreads text (List.mem_append_left _ htext)
    cases r with
    | ok text => cases hresult
    | error failure =>
        cases hresult
        cases hended _ rfl

/-- The builtin handlers, where every file holds a condition around a metadata value. -/
def builtinsWithPart : Expander Id Unit :=
  ⟨Builtin.registry,
    ⟨fun _ => .ok "<?# If Item ?>[<?# Meta Item /?>]<?#/ If ?>", fun path => some path⟩,
    ⟨[]⟩, none, defaultMaxDepth⟩

/-- A loop that includes a file for each of its items. -/
def includeLoop : Document :=
  ⟨"<?# ForEach Items Item ?><?# Include part.md /?>;<?#/ ForEach ?>",
    Metadata.empty.insert "Items" (.array [.bool true, .bool false])⟩

/-- The pass over the loop reads the file twice, and scans what it reads. -/
theorem process_builtins_wellMarked_includeLoop :
    let o := (builtinsWithPart.process includeLoop .clear).run
    o.result.toOption.map (·.content) = some "[true];;" ∧
      (textsRead "Include" o.events).length = 2 ∧
      Scans builtinsWithPart.registry.isRaw includeLoop.content ∧
      (∀ text ∈ textsRead "Include" o.events, Scans builtinsWithPart.registry.isRaw text) ∧
      ∀ cause producer, o.result ≠ .error (.malformed cause producer) := by
  have h := always_id_iff.1
    (process_builtins_wellMarked (σ := Unit) builtinsWithPart.files ⟨[]⟩ none defaultMaxDepth
      includeLoop .clear).2
  have hscans : Scans builtinsWithPart.registry.isRaw includeLoop.content := by decide +kernel
  have hrun : let o := (builtinsWithPart.process includeLoop .clear).run
      o.result.toOption.map (·.content) = some "[true];;" ∧
        (textsRead "Include" o.events).length = 2 ∧
        ∀ text ∈ textsRead "Include" o.events, Scans builtinsWithPart.registry.isRaw text := by
    decide +kernel
  obtain ⟨hcontent, hcount, hreads⟩ := hrun
  exact ⟨hcontent, hcount, hscans, hreads, h.2 hscans hreads⟩

end Pass

end TagExpander
