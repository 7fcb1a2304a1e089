/-
  TagExpander.Proofs.Pass.Origin — where the markup of a pass comes from.

  With the builtin handlers, tags are looked for in the document and in the files that
  are included, and in nothing else.  Metadata values and defaults are put out as they
  are; a loop puts its items into the metadata, and gives back its own content:

      document ⊇ content of a loop ⊇ content of a condition …      file ⊇ content …

  So every text that is scanned stands, without gaps, in the document or in a file that
  was read before.

  Main results:
    * `Run.drawn` — a run that starts from parts of what is at hand scans nothing else.
    * `process_builtins_origin` — so does every pass with the builtin handlers.
-/
import TagExpander.Proofs.Pass.Trace
import TagExpander.Proofs.Pass.WellMarked

namespace TagExpander

/-! ## §1. Parts of texts. -/

/-- The text stands in another one, without gaps. -/
def PartOf (text whole : String) : Prop :=
  text.toList <:+: whole.toList

instance (text whole : String) : Decidable (PartOf text whole) :=
  inferInstanceAs (Decidable (_ <:+: _))

theorem PartOf.refl (text : String) : PartOf text text :=
  List.infix_refl _

theorem PartOf.trans {a b c : String} (hab : PartOf a b) (hbc : PartOf b c) : PartOf a c :=
  List.IsInfix.trans hab hbc

namespace Pass

variable {m : Type → Type} {σ : Type}

/-- The text stands in the document, or in a text that the reader has read so far. -/
def Drawn (source reader : String) (evs : List (Event σ)) (text : String) : Prop :=
  PartOf text source ∨ ∃ read ∈ textsRead reader evs, PartOf text read

section Drawn

variable {source reader : String} {evs : List (Event σ)} {text whole : String}

/-- What is at hand stays at hand. -/
theorem Drawn.append (h : Drawn source reader evs text) (evs' : List (Event σ)) :
    Drawn source reader (evs ++ evs') text := by
  rcases h with hsource | ⟨read, hread, hpart⟩
  · exact .inl hsource
  · refine .inr ⟨read, ?_, hpart⟩
    rw [textsRead_append]
    exact List.mem_append_left _ hread

theorem Drawn.part (h : Drawn source reader evs whole) (hpart : PartOf text whole) :
    Drawn source reader evs text := by
  rcases h with hsource | ⟨read, hread, hwhole⟩
  · exact .inl (hpart.trans hsource)
  · exact .inr ⟨read, hread, hpart.trans hwhole⟩

end Drawn

/-- Behind the earlier events, only texts that are at hand are scanned. -/
def ScansDrawn (source reader : String) (earlier evs : List (Event σ)) : Prop :=
  Everywhere (fun before ev _ => ∀ text, ev = .scanned text →
    Drawn source reader (earlier ++ before) text) evs

section ScansDrawn

variable {source reader : String} {earlier evs evs' : List (Event σ)} {ev : Event σ}

theorem scansDrawn_iff : ScansDrawn source reader earlier evs ↔
    EverywhereBehind (fun before ev => ∀ text, ev = .scanned text →
      Drawn source reader before text) earlier evs :=
  Iff.rfl

theorem ScansDrawn.nil : ScansDrawn source reader earlier ([] : List (Event σ)) :=
  scansDrawn_iff.2 everywhereBehind_nil

theorem ScansDrawn.cons (h : ∀ text, ev = .scanned text → Drawn source reader earlier text)
    (hevs : ScansDrawn source reader (earlier ++ [ev]) evs) :
    ScansDrawn source reader earlier (ev :: evs) :=
  scansDrawn_iff.2 (everywhereBehind_cons h (scansDrawn_iff.1 hevs))

theorem ScansDrawn.append (h : ScansDrawn source reader earlier evs)
    (h' : ScansDrawn source reader (earlier ++ evs) evs') :
    ScansDrawn source reader earlier (evs ++ evs') :=
  scansDrawn_iff.2 (everywhereBehind_append (scansDrawn_iff.1 h) (scansDrawn_iff.1 h'))

/-- Nothing is scanned by an execution. -/
theorem ScansDrawn.of_called (p : Progress σ) (entry : Entry σ) (call : Call σ) :
    ScansDrawn source reader earlier (called p entry call) := by
  rcases called_cases p entry call with ⟨-, -, hcall⟩ | ⟨-, -, hcall⟩
  · rw [hcall]
    exact .cons nofun .nil
  · rw [hcall]
    exact .cons nofun (.cons nofun .nil)

end ScansDrawn

/-! ## §2. Runs. -/

/-- All texts of a piece of work that may still be scanned have the property. -/
def Piece.Offers (D : String → Prop) : Piece → Prop
  | .text _ content => D content
  | .spans _ found => ∀ tag, .tag tag ∈ found → D tag.content
  | .output _ _ raw docs => raw = false → ∀ d ∈ docs, D d.content

section Run

variable {e : Expander m σ} {source : String} {p : Progress σ} {reader : String}

/-- What a tag puts out to be expanded is its content, or was read for it. -/
theorem Invoked.offers (hechoes : e.registry.Echoes reader) {depth : Nat} {tag : Markup.Tag}
    {earlier evs : List (Event σ)} {output : Output} {kind : Kind}
    (h : Invoked e source p depth tag evs (.ok (output, kind)))
    (htag : Drawn source reader earlier tag.content) :
    (Piece.output depth tag.name (kind == .raw || output.isRaw) output.docs).Offers
      (Drawn source reader (earlier ++ evs)) := by
  cases h with
  | @executed entry call _ hx hr =>
      intro hraw d hd
      rcases hechoes hx.resolves hx.runs hr hraw hd with hcontent | ⟨hname, path, hpath⟩
      · rw [hcontent, hx.invocation]
        exact htag.append _
      · rw [← hx.handlerName] at hname
        rw [← hname]
        have hcall : .executed call ∈ earlier ++ called p entry call :=
          List.mem_append_right _ (List.mem_append_right _ List.mem_cons_self)
        exact .inr ⟨_, mem_textsRead hcall hpath, .refl _⟩

theorem Invoked.scansDrawn {depth : Nat} {tag : Markup.Tag} {earlier evs : List (Event σ)}
    {r : Except Failure (Output × Kind)} (h : Invoked e source p depth tag evs r) :
    ScansDrawn source reader earlier evs := by
  cases h with
  | stopped _ | unknown _ _ => exact .nil
  | failed _ _ | executed _ _ => exact .of_called _ _ _

/-- **A run that starts from parts of what is at hand scans nothing else.** -/
theorem Run.drawn (hechoes : e.registry.Echoes reader) {piece : Piece} {evs : List (Event σ)}
    {r : Except Failure String} (h : Run e source p piece evs r) {earlier : List (Event σ)}
    (hpiece : piece.Offers (Drawn source reader earlier)) :
    ScansDrawn source reader earlier evs := by
  -- the content of a tag stands in the text around it, so parts lead to parts
  induction h generalizing earlier with
  | plain _ => exact .cons nofun .nil
  | tooDeep _ _ | finished | nothing => exact .nil
  | malformed _ _ _ =>
      refine .cons ?_ .nil
      rintro _ ⟨⟩
      exact hpiece
  | scanned _ _ hs _ ih =>
      refine .cons ?_ (ih fun tag htag => ?_)
      · rintro _ ⟨⟩
        exact hpiece
      · exact (Drawn.part hpiece (Markup.content_infix hs htag)).append _
  | literal _ ih =>
      exact .cons nofun (ih fun tag htag => (hpiece tag (List.mem_cons_of_mem _ htag)).append _)
  | refused h => exact h.scansDrawn
  | cut h _ ih => exact h.scansDrawn.append (ih (h.offers hechoes (hpiece _ List.mem_cons_self)))
  | tag h _ _ iho ihw =>
      have houtput := iho (h.offers hechoes (hpiece _ List.mem_cons_self))
      refine (h.scansDrawn.append houtput).append (ihw fun tag htag => ?_)
      exact (hpiece tag (List.mem_cons_of_mem _ htag)).append _
  | exempt _ ih => exact .cons nofun (.cons nofun (ih nofun))
  | broken _ ih => exact .cons nofun (ih ((hpiece rfl _ List.mem_cons_self).append _))
  | document _ _ ih ihd =>
      refine ScansDrawn.append (.cons nofun (ih ?_)) (ihd fun _ d hd => ?_)
      · exact (hpiece rfl _ List.mem_cons_self).append _
      · exact (hpiece rfl d (List.mem_cons_of_mem _ hd)).append _

end Run

/-! ## §3. Passes. -/

/-- **Where the markup of a pass comes from.**  With the builtin handlers, whatever the
    metadata are and whether the pass succeeds or not:
    * a text that is scanned stands, without gaps, in the document or in a text that was
      read before for an inclusion;
    * what a handler puts out to be expanded is the content of its tag, or what was read
      for it;
    * what is put out for a metadata value, or for its default, is not expanded. -/
theorem process_builtins_origin [Monad m] [LawfulMonad m] [Inhabited σ] (files : Files m)
    (baseDir : Path) (sourcePath : Option Path) (maxDepth : Nat) (document : Document)
    (signal : StopSignal) :
    Always (fun o =>
        (∀ before text after, o.events = before ++ .scanned text :: after →
          PartOf text document.content ∨
            ∃ read ∈ textsRead "Include" before, PartOf text read) ∧
        (∀ call output, .executed call ∈ o.events → call.result = .ok output →
          ((Builtin.registry : Registry σ).isRaw call.tagName || output.isRaw) = false →
          ∀ d ∈ output.docs, d.content = call.invocation.content ∨
            call.handlerName = "Include" ∧ ∃ path, ⟨path, .ok d.content⟩ ∈ call.readings) ∧
        ∀ call output, .executed call ∈ o.events → call.handlerName = "Meta" →
          call.result = .ok output → output.docs ≠ [] → output.isRaw = true)
      (Expander.process ⟨(Builtin.registry : Registry σ), files, baseDir, sourcePath, maxDepth⟩
        document signal) := by
  refine (always_process _ document signal).mono ?_
  intro o ho
  obtain ⟨evs, r, hrun, rfl⟩ := ho
  refine ⟨?_, ?_, ?_⟩
  · intro before text after hs
    obtain ⟨rest, hrest⟩ := split_outcomeOf nofun hs
    have hoffers : (Piece.text 0 document.content).Offers
        (Drawn document.content "Include" ([] : List (Event σ))) := .inl (.refl _)
    exact hrun.drawn Builtin.echoes hoffers before _ rest hrest text rfl
  · intro call output hcall hr hraw d hd
    obtain ⟨p, depth, tag, entry, hx⟩ := hrun.trace.executes_of_mem hcall
    rw [hx.tagName, Registry.isRaw_eq hx.resolves] at hraw
    rw [hx.handlerName]
    exact Builtin.echoes hx.resolves hx.runs hr hraw hd
  · intro call output hcall hname hr hdocs
    obtain ⟨p, depth, tag, entry, hx⟩ := hrun.trace.executes_of_mem hcall
    obtain ⟨d, hd⟩ := List.exists_mem_of_ne_nil _ hdocs
    rw [hx.handlerName] at hname
    exact Builtin.isRaw_of_meta hx.resolves hname hx.runs hr hd

/-- A loop that shows its items, which look like tags. -/
def taggedItems : Document :=
  ⟨"<?# ForEach Items Item ?><?# Meta Item /?>,<?#/ ForEach ?>",
    Metadata.empty.insert "Items" (.array [.string "<?# Raw ?>", .string "<?# If Items /?>"])⟩

/-- The pass over the loop puts its items out as they are; nothing but parts of the
    document is scanned. -/
theorem process_builtins_origin_taggedItems :
    let o := (builtinsAlone.process taggedItems .clear).run
    o.result.toOption.map (·.content) = some "<?# Raw ?>,<?# If Items /?>," ∧
      ∀ text, .scanned text ∈ o.events → PartOf text taggedItems.content := by
  have hdrawn := (always_id_iff.1 (process_builtins_origin (σ := Unit) builtinsAlone.files ⟨[]⟩ none
    defaultMaxDepth taggedItems .clear)).1
  have hnothing :
      textsRead "Include" (builtinsAlone.process taggedItems .clear).run.events = [] := by
    decide +kernel
  refine ⟨by decide +kernel, fun text hscanned => ?_⟩
  obtain ⟨before, after, hs⟩ := List.append_of_mem hscanned
  rcases hdrawn before text after hs with hpart | ⟨read, hread, -⟩
  · exact hpart
  · rw [hs, textsRead_append, List.append_eq_nil_iff] at hnothing
    rw [hnothing.1] at hread
    cases hread

end Pass

end TagExpander
