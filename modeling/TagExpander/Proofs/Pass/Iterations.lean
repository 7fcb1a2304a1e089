/-
  TagExpander.Proofs.Pass.Iterations — what an iteration of a loop leaves to the next one.

  A loop puts out copies of the metadata that it was given, one for each item.  Between
  two iterations the metadata as they stand are overwritten by such a copy:

      executed ForEach · emitted d₀ · ‹iteration 0› · emitted d₁ · ‹iteration 1› · …
            view                              here          there

      get? key there  =  the index         if key is the index key
                         the item          if key is the value key
                         that of the view  if the view has one
                         that from here    otherwise

  So what an iteration leaves under a key reaches the next one only if the loop was given
  no value for it.

  Main results:
    * `Unfolds.of_executed` — what an execution puts out follows it.
    * `Unfolds.iterations` — documents of one execution stand one after the other.
    * `process_iterations` — the metadata between two iterations of a loop.
    * `process_iterations_resets` — a loop that sets back what its first iteration left.
-/
import TagExpander.Proofs.Handler.Loop
import TagExpander.Proofs.Pass.Seams
import TagExpander.Proofs.Pass.Threading

namespace TagExpander.Pass

variable {m : Type → Type} {σ : Type}

/-! ## §1. The order of iterations. -/

section Unfolds

variable {evs before after : List (Event σ)} {call : Call σ} {output : Output}

/-- What an execution puts out follows it; if that breaks off, there is nothing behind it. -/
theorem Unfolds.of_executed {stretch : Stretch} {whole : Bool} (h : Unfolds stretch evs whole)
    (hr : call.result = .ok output) (hplace : evs = before ++ .executed call :: after) :
    ∃ inside rest done, after = inside ++ rest ∧
      Unfolds (.documents call.tagName output.docs) inside done ∧
      (done = false → rest = [] ∧ whole = false) := by
  -- on the history; what stands behind a part that breaks off is nothing
  induction h generalizing before after with
  | cut | finished | nothing => simp at hplace
  | spliced =>
      obtain ⟨-, hev, -⟩ := singleton_eq_append_cons hplace
      cases hev
  | scanned _ ih | literal _ ih | created _ ih | broken _ ih =>
      obtain ⟨rest, -, hrest⟩ := cons_eq_append_executed hplace rfl
      exact ih hrest
  | failed hfault =>
      obtain ⟨-, hev, -⟩ := singleton_eq_append_cons hplace
      cases hev
      cases hfault.symm.trans hr
  | @interrupted call' output' evs hr' h ih =>
      cases before with
      | nil =>
          obtain ⟨hev, rfl⟩ := List.cons.inj hplace
          cases hev
          cases hr.symm.trans hr'
          exact ⟨evs, [], false, (List.append_nil _).symm, h, fun _ => ⟨rfl, rfl⟩⟩
      | cons ev before => exact ih (List.cons.inj hplace).2
  | @tag call' output' evs evs' whole hr' h _ ih ih' =>
      cases before with
      | nil =>
          obtain ⟨hev, rfl⟩ := List.cons.inj hplace
          cases hev
          cases hr.symm.trans hr'
          exact ⟨evs, evs', true, rfl, h, nofun⟩
      | cons ev before =>
          rcases append_eq_append_cons (List.cons.inj hplace).2 with
            ⟨mid, hmid, rfl⟩ | ⟨mid, -, hmid⟩
          · obtain ⟨inside, rest, done, rfl, hinside, hdone⟩ := ih hmid
            refine ⟨inside, rest ++ evs', done, List.append_assoc _ _ _, hinside, ?_⟩
            intro hbroken
            cases (hdone hbroken).2
          · exact ih' hmid
  | @document tagName d docs raw evs evs' whole _ _ ih ih' =>
      rcases append_eq_append_cons hplace with ⟨mid, hmid, rfl⟩ | ⟨mid, -, hmid⟩
      · obtain ⟨rest', -, hrest⟩ := cons_eq_append_executed hmid rfl
        obtain ⟨inside, rest, done, rfl, hinside, hdone⟩ := ih hrest
        refine ⟨inside, rest ++ evs', done, List.append_assoc _ _ _, hinside, ?_⟩
        intro hbroken
        cases (hdone hbroken).2
      · exact ih' hmid

/-- **Documents of one execution stand one after the other**: a document is put out when all
    in front of it are done with, unless one of these breaks off. -/
theorem Unfolds.iterations {tagName : String} {front back : List Document} {d : Document}
    {whole : Bool} (h : Unfolds (.documents tagName (front ++ d :: back)) evs whole) :
    (∃ done raw left, evs = done ++ .emitted tagName d raw :: left ∧
        Unfolds (.documents tagName front) done true) ∨
      whole = false ∧ Unfolds (.documents tagName front) evs false := by
  -- on the documents in front, each of which is expanded before the next one is put out
  induction front generalizing evs with
  | nil =>
      cases h with
      | cut => exact .inr ⟨rfl, .cut⟩
      | broken h => exact .inl ⟨[], _, _, rfl, .nothing⟩
      | document h h' => exact .inl ⟨[], _, _, rfl, .nothing⟩
  | cons first front ih =>
      cases h with
      | cut => exact .inr ⟨rfl, .cut⟩
      | broken h => exact .inr ⟨rfl, .broken h⟩
      | @document _ _ _ raw' evs _ _ h h' =>
          rcases ih h' with ⟨done, raw, left, rfl, hdone⟩ | ⟨hwhole, hfront⟩
          · refine .inl ⟨.emitted tagName first raw' :: evs ++ done, raw, left, ?_,
              .document h hdone⟩
            rw [List.append_assoc]
          · exact .inr ⟨hwhole, .document h hfront⟩

end Unfolds

/-! ## §2. From one iteration to the next. -/

/-- The metadata as they stand behind events. -/
def standing (metadata : Metadata) (evs : List (Event σ)) : Metadata :=
  overwritten metadata (documentsOf evs)

/-- A document that is put out is merged. -/
theorem standing_emitted (metadata : Metadata) (evs : List (Event σ)) (tagName : String)
    (d : Document) (raw : Bool) :
    standing metadata (evs ++ [.emitted tagName d raw]) =
      (standing metadata evs).merge d.metadata := by
  rw [standing, standing, documentsOf, List.filterMap_append, overwritten, List.foldl_append]
  rfl

/-- The metadata `there`, with which an iteration of a loop starts, from the metadata `here`,
    which the one before has left. -/
structure HandsOver (call : Invocation) (loop : Builtin.Loop) (index : Nat) (item : Json.Value)
    (here there : Metadata) : Prop where
  /-- They are overwritten by a copy of the view that the loop was given. -/
  merged : there = here.merge (loop.document call item index).metadata
  index : ∀ key, loop.indexKey = some key → there.get? key = some (.number (.int index))
  item : loop.indexKey ≠ some loop.valueKey → there.get? loop.valueKey = some item
  /-- A key of the view is set back to its value there. -/
  reset : ∀ key value, loop.indexKey ≠ some key → loop.valueKey ≠ key →
    call.document.metadata.get? key = some value → there.get? key = some value
  /-- All other keys keep what the iteration has left. -/
  kept : ∀ key, loop.indexKey ≠ some key → loop.valueKey ≠ key →
    call.document.metadata.get? key = none → there.get? key = here.get? key

theorem handsOver_merge (call : Invocation) (loop : Builtin.Loop) (index : Nat)
    (item : Json.Value) (here : Metadata) :
    HandsOver call loop index item here
      (here.merge (loop.document call item index).metadata) where
  merged := rfl
  index := by
    intro key hkey
    rw [Metadata.get?_merge, loop.get?_document, if_pos hkey]
    rfl
  item := by
    intro hne
    rw [Metadata.get?_merge, loop.get?_document, if_neg hne, if_pos rfl]
    rfl
  reset := by
    intro key value hindex hvalue hview
    rw [Metadata.get?_merge, loop.get?_document, if_neg hindex, if_neg hvalue, hview]
    rfl
  kept := by
    intro key hindex hvalue hview
    rw [Metadata.get?_merge, loop.get?_document, if_neg hindex, if_neg hvalue, hview]
    rfl

/-- What comes of the iterations of a loop up to the one in front of `index`. -/
inductive NextIteration (metadata : Metadata) (before : List (Event σ)) (call : Call σ)
    (after : List (Event σ)) (loop : Builtin.Loop) (index : Nat) (item : Json.Value) :
    Bool → Prop where
  /-- They come to their end, and hand over to the next one. -/
  | starts {done left : List (Event σ)} {raw whole : Bool}
      (hplace : after =
        done ++ .emitted call.tagName (loop.document call.invocation item index) raw :: left)
      (hdone : Unfolds
        (.documents call.tagName ((loop.documents call.invocation).take index)) done true)
      (h : HandsOver call.invocation loop index item
        (standing metadata (before ++ .executed call :: done))
        (standing metadata (before ++ .executed call :: (done ++
          [.emitted call.tagName (loop.document call.invocation item index) raw])))) :
      NextIteration metadata before call after loop index item whole
  /-- One of them breaks off, and so does the pass. -/
  | fails (h : Unfolds
      (.documents call.tagName ((loop.documents call.invocation).take index)) after false) :
      NextIteration metadata before call after loop index item false

/-- **From one iteration to the next one**, in a history that keeps to the order of
    emission. -/
theorem Unfolds.nextIteration {stretch : Stretch} {evs before after : List (Event σ)}
    {whole : Bool} (h : Unfolds stretch evs whole) {call : Call σ} {loop : Builtin.Loop}
    (hr : call.result = .ok (.documents (loop.documents call.invocation)))
    (hplace : evs = before ++ .executed call :: after) {index : Nat} {item : Json.Value}
    (hitem : loop.items[index]? = some item) (metadata : Metadata) :
    NextIteration metadata before call after loop index item whole := by
  obtain ⟨inside, rest, done, rfl, hinside, hbroken⟩ := h.of_executed hr hplace
  -- the document for the item stands behind those of the iterations in front
  have hdocument : (loop.documents call.invocation)[index]? =
      some (loop.document call.invocation item index) := by
    rw [loop.getElem?_documents, hitem]
    rfl
  obtain ⟨hlt, hget⟩ := List.getElem?_eq_some_iff.1 hdocument
  have hsplit : (loop.documents call.invocation) =
      (loop.documents call.invocation).take index ++
        loop.document call.invocation item index ::
          (loop.documents call.invocation).drop (index + 1) := by
    rw [← hget, ← List.drop_eq_getElem_cons hlt, List.take_append_drop]
  rw [Output.docs, hsplit] at hinside
  rcases hinside.iterations with ⟨front, raw, left, rfl, hfront⟩ | ⟨rfl, hfront⟩
  · refine .starts (List.append_assoc _ _ _) hfront ?_
    have hthere := standing_emitted metadata (before ++ .executed call :: front) call.tagName
      (loop.document call.invocation item index) raw
    rw [List.append_assoc] at hthere
    rw [List.cons_append] at hthere
    rw [hthere]
    exact handsOver_merge _ _ _ _ _
  · obtain ⟨rfl, rfl⟩ := hbroken rfl
    rw [List.append_nil]
    exact .fails hfront

/-! ## §3. Passes. -/

section Loop

variable [Inhabited σ] {e : Expander m σ} {source : String} {p : Progress σ}

/-- An execution that binds a loop succeeds, and puts out the copies of its view. -/
theorem Trace.result_of_binds {evs before after : List (Event σ)} {call : Call σ}
    (h : Trace e source p evs) (hplace : evs = before ++ .executed call :: after)
    {entry : Entry σ} (hentry : e.registry.resolve? call.tagName = some entry)
    (hhandler : entry.handler = Builtin.pureHandler Builtin.forEach) {loop : Builtin.Loop}
    {args : Binding} (hbinds : Builtin.Binds call.invocation loop args) :
    call.result = .ok (.documents (loop.documents call.invocation)) := by
  obtain ⟨earlier, depth, tag, entry', -, -, hx⟩ := h.split_executed hplace
  have hsame := hx.resolves
  rw [← hx.tagName, hentry] at hsame
  cases hsame
  have hruns := hx.runs
  rw [hhandler] at hruns
  have hresult := Builtin.result_of_pureHandler hruns
  rw [Builtin.forEach_of_binds hbinds] at hresult
  exact hresult

end Loop

/-- **The metadata between two iterations of a loop.**  Where a name leads to the handler of
    loops and its arguments name a list, the execution succeeds.  For each item of the list,
    the iterations in front come to their end and hand over to the next one, or one of them
    breaks off with the pass. -/
theorem process_iterations [Monad m] [LawfulMonad m] [Inhabited σ] (e : Expander m σ)
    (document : Document) (signal : StopSignal) :
    Always (fun o => ∃ evs ends, o.events = evs ++ ends ∧
        (∀ ev ∈ ends, ∃ name state, ev = .disposed name state) ∧
        ∀ before call after entry loop args, evs = before ++ .executed call :: after →
          e.registry.resolve? call.tagName = some entry →
          entry.handler = Builtin.pureHandler Builtin.forEach →
          Builtin.Binds call.invocation loop args →
          call.invocation.document.metadata = standing document.metadata before ∧
          call.result = .ok (.documents (loop.documents call.invocation)) ∧
          ∀ index item, loop.items[index]? = some item →
            NextIteration document.metadata before call after loop index item o.result.isOk)
      (e.process document signal) := by
  refine (always_process e document signal).mono ?_
  intro o ho
  obtain ⟨evs, r, hrun, rfl⟩ := ho
  refine ⟨evs, _, events_outcomeOf _ _ _ _, fun _ => eq_disposed_of_mem, ?_⟩
  intro before call after entry loop args hplace hentry hhandler hbinds
  have hresult := hrun.trace.result_of_binds hplace hentry hhandler hbinds
  refine ⟨by rw [hrun.trace.document_eq hplace]; rfl, hresult, ?_⟩
  intro index item hitem
  have hwhole : (outcomeOf ((Progress.start document.metadata signal).replay evs) r).result.isOk =
      r.isOk := by
    rw [outcomeOf]
    cases r <;> rfl
  rw [hwhole]
  exact hrun.unfolds.nextIteration hresult hplace hitem document.metadata

/-- A loop over two items, in which another loop binds a key that has a value at first. -/
def resetting : Document :=
  ⟨"<?# ForEach Items I ?><?# Meta J /?><?# ForEach Items J /?><?#/ ForEach ?>",
    (Metadata.empty.insert "Items" (.array [.bool true, .bool false])).insert "J" (.string "-")⟩

/-- The outer loop. -/
def outerLoop : Builtin.Loop :=
  ⟨"I", none, [.bool true, .bool false]⟩

/-- Is it the execution of the outer loop, with the first value under the key of the inner
    one? -/
def isOuterLoop : Event Unit → Bool
  | .executed call =>
    (match Builtin.bound call.invocation ["Key", "ValueKey", "IndexKey"] with
      | .ok args => args.get? "Key" == some "Items" && args.get? "ValueKey" == some "I" &&
          args.get? "IndexKey" == none
      | .error _ => false) &&
    (match call.invocation.document.metadata.getList? "Items" with
      | some [.bool true, .bool false] => true
      | _ => false) &&
    call.tagName == "ForEach" && call.invocation.content != "" &&
    call.invocation.document.metadata.getDisplay? "J" == some "-"
  | _ => false

/-- Wherever a document for the second item is put out that has a text, is the last item
    there under the key of the inner loop? -/
def leavesLastItem (evs : List (Event Unit)) : Bool :=
  (List.range evs.length).all fun k =>
    match evs[k]? with
    | some (.emitted _ d _) => d.content == "" || d.metadata.getDisplay? "I" != some "false" ||
        (standing resetting.metadata (evs.take k)).getDisplay? "J" == some "false"
    | _ => true

/-- What there is to see in the pass over the loops. -/
theorem run_resetting :
    (builtinsAlone.process resetting .clear).run.result.toOption.map (·.content) = some "--" ∧
      (builtinsAlone.process resetting .clear).run.events.any isOuterLoop = true ∧
      leavesLastItem (builtinsAlone.process resetting .clear).run.events = true := by
  decide +kernel

theorem exists_of_isOuterLoop {ev : Event Unit} (h : isOuterLoop ev = true) :
    ∃ call args value, ev = .executed call ∧ call.tagName = "ForEach" ∧
      Builtin.Binds call.invocation outerLoop args ∧ call.invocation.content ≠ "" ∧
      call.invocation.document.metadata.get? "J" = some value ∧ value.display = "-" := by
  cases ev with
  | executed call =>
      simp only [isOuterLoop, Bool.and_eq_true, beq_iff_eq, bne_iff_ne] at h
      obtain ⟨⟨⟨⟨hargs, hitems⟩, hname⟩, hcontent⟩, hdisplay⟩ := h
      split at hargs
      next args hbound =>
        simp only [Bool.and_eq_true, beq_iff_eq] at hargs
        obtain ⟨⟨hkey, hvalueKey⟩, hindexKey⟩ := hargs
        split at hitems
        next hlist =>
          obtain ⟨value, hvalue, hshown⟩ := Option.map_eq_some_iff.1 hdisplay
          refine ⟨call, args, value, rfl, hname, ⟨hbound, hvalueKey, by decide, ?_, ?_⟩, hcontent,
            hvalue, hshown⟩
          · rw [hindexKey]
            rfl
          · rw [hkey]
            exact hlist
        · cases hitems
      · cases hargs
  | scanned _ | created _ _ | emitted _ _ _ | spliced _ | disposed _ _ => cases h

/-- The outer loop stands in front of the disposals. -/
theorem exists_outerLoop {evs ends : List (Event Unit)}
    (hevents : (builtinsAlone.process resetting .clear).run.events = evs ++ ends)
    (hends : ∀ ev ∈ ends, ∃ name state, ev = .disposed name state) :
    ∃ before call after args value, evs = before ++ .executed call :: after ∧
      call.tagName = "ForEach" ∧ Builtin.Binds call.invocation outerLoop args ∧
      call.invocation.content ≠ "" ∧
      call.invocation.document.metadata.get? "J" = some value ∧ value.display = "-" := by
  have hany := run_resetting.2.1
  rw [hevents, List.any_append, Bool.or_eq_true] at hany
  rcases hany with hany | hany
  · obtain ⟨ev, hmem, hev⟩ := List.any_eq_true.1 hany
    obtain ⟨call, args, value, rfl, h⟩ := exists_of_isOuterLoop hev
    obtain ⟨before, after, hplace⟩ := List.append_of_mem hmem
    exact ⟨before, call, after, args, value, hplace, h⟩
  · obtain ⟨ev, hmem, hev⟩ := List.any_eq_true.1 hany
    obtain ⟨name, state, rfl⟩ := hends ev hmem
    cases hev

/-- The entry of loops. -/
def forEachEntry : Entry Unit :=
  ⟨"ForEach", .standard, Builtin.pureHandler Builtin.forEach⟩

theorem resolve?_forEach : builtinsAlone.registry.resolve? "ForEach" = some forEachEntry := rfl

/-- The second iteration of a loop starts from what the first one leaves. -/
theorem process_iterations_resetting :
    let o := (builtinsAlone.process resetting .clear).run
    ∃ evs ends before call after args, o.events = evs ++ ends ∧
      evs = before ++ .executed call :: after ∧
      builtinsAlone.registry.resolve? call.tagName = some forEachEntry ∧
      Builtin.Binds call.invocation outerLoop args ∧
      NextIteration resetting.metadata before call after outerLoop 1 (.bool false) true := by
  obtain ⟨result, hresult, -⟩ := exists_of_toOption_map run_resetting.1
  obtain ⟨evs, ends, hevents, hends, hloops⟩ :=
    always_id_iff.1 (process_iterations builtinsAlone resetting .clear)
  obtain ⟨before, call, after, args, -, hplace, hname, hbinds, -⟩ := exists_outerLoop hevents hends
  have hentry : builtinsAlone.registry.resolve? call.tagName = some forEachEntry := by
    rw [hname]
    exact resolve?_forEach
  obtain ⟨-, -, hnext⟩ := hloops before call after forEachEntry outerLoop args hplace hentry rfl
    hbinds
  have hsecond := hnext 1 (.bool false) rfl
  rw [hresult] at hsecond
  exact ⟨evs, ends, before, call, after, args, hevents, hplace, hentry, hbinds, hsecond⟩

/-- Where the second iteration of the outer loop starts, the first one has left its last item
    under the key of the inner loop. -/
theorem getDisplay?_of_emitted {before after : List (Event Unit)} {tagName : String}
    {d : Document} {raw : Bool}
    (hplace : (builtinsAlone.process resetting .clear).run.events =
      before ++ .emitted tagName d raw :: after)
    (hcontent : d.content ≠ "") (hitem : d.metadata.getDisplay? "I" = some "false") :
    (standing resetting.metadata before).getDisplay? "J" = some "false" := by
  have hall := run_resetting.2.2
  rw [hplace, leavesLastItem] at hall
  have hhere := List.all_eq_true.1 hall before.length (by simp)
  rw [List.getElem?_append_right (Nat.le_refl _), Nat.sub_self, List.take_left] at hhere
  simpa [hcontent, hitem] using hhere

/-- **A loop sets back what its first iteration left.**  The inner loop leaves its last item
    under its key; the second iteration of the outer loop starts with the first value there,
    though it binds another key. -/
theorem process_iterations_resets :
    let o := (builtinsAlone.process resetting .clear).run
    o.result.toOption.map (·.content) = some "--" ∧
      ∃ before call done raw left args,
        o.events = before ++ .executed call :: (done ++
          .emitted call.tagName (outerLoop.document call.invocation (.bool false) 1) raw :: left) ∧
        Builtin.Binds call.invocation outerLoop args ∧
        Unfolds (.documents call.tagName ((outerLoop.documents call.invocation).take 1)) done true ∧
        outerLoop.valueKey ≠ "J" ∧ outerLoop.indexKey = none ∧
        (standing resetting.metadata (before ++ .executed call :: done)).getDisplay? "J" =
          some "false" ∧
        (standing resetting.metadata (before ++ .executed call :: (done ++
          [.emitted call.tagName (outerLoop.document call.invocation (.bool false) 1)
            raw]))).getDisplay? "J" = some "-" := by
  refine ⟨run_resetting.1, ?_⟩
  obtain ⟨evs, r, hrun, ho⟩ := always_id_iff.1 (always_process builtinsAlone resetting .clear)
  have hevents := (congrArg Outcome.events ho).trans (events_outcomeOf _ _ _ _)
  obtain ⟨before, call, after, args, value, rfl, hname, hbinds, hne, hview, hshown⟩ :=
    exists_outerLoop hevents fun _ => eq_disposed_of_mem
  have hentry : builtinsAlone.registry.resolve? call.tagName = some forEachEntry := by
    rw [hname]
    exact resolve?_forEach
  have hresult := hrun.trace.result_of_binds rfl hentry rfl hbinds
  -- the pass succeeds, so the first iteration does not break off
  have hok : r.isOk = true := by
    obtain ⟨document, hdocument, -⟩ := exists_of_toOption_map run_resetting.1
    rw [ho] at hdocument
    obtain ⟨content, rfl, -⟩ := exists_of_map_eq_ok hdocument
    rfl
  have hnext :
      NextIteration resetting.metadata before call after outerLoop 1 (.bool false) r.isOk :=
    hrun.unfolds.nextIteration hresult rfl rfl resetting.metadata
  rw [hok] at hnext
  cases hnext with
  | @starts done left raw _ hplace hdone h =>
      subst hplace
      rw [List.append_assoc, List.cons_append, List.append_assoc, List.cons_append] at hevents
      have hitem : (outerLoop.document call.invocation (.bool false) 1).metadata.getDisplay? "I" =
          some "false" := by
        rw [Metadata.getDisplay?, outerLoop.get?_document]
        rfl
      refine ⟨before, call, done, raw, _, args, hevents, hbinds, hdone, by decide, rfl, ?_, ?_⟩
      · rw [← List.cons_append, ← List.append_assoc] at hevents
        exact getDisplay?_of_emitted hevents hne hitem
      · rw [Metadata.getDisplay?, h.reset "J" value nofun (by decide) hview, Option.map_some,
          hshown]

end TagExpander.Pass
