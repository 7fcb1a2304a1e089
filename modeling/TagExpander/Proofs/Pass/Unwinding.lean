/-
  TagExpander.Proofs.Pass.Unwinding — how a failure comes out of a pass.

  A failure comes up at one place of a pass, and nothing happens behind it.  On its way
  out it passes the outputs that are open at this place, from the innermost to the
  outermost, and each of them may put its name to it:

      text of the document / output of A / text / output of B / text ✗
                                                            ╰── the name that is told

  Only malformed markers take a name, and they keep the first one.  So it is the tag
  that has just put the text out which is blamed, whatever is open around it; all other
  failures come out as they came up.

  Main results:
    * `Run.unwinds` — a run that fails does so where its failure came up.
    * `Run.scannedBehind` — a text is scanned right behind the output that it is in.
    * `exists_execution` — an output that is open is one of an execution before.
    * `process_unwinds` — what a pass that fails tells, and where it failed.
-/
import Mathlib.Data.List.Induction
import TagExpander.Proofs.Pass.Stopping
import TagExpander.Proofs.Pass.WellMarked

namespace TagExpander

/-! ## §1. Failures on their way out. -/

/-- Only malformed markers are told with an output. -/
theorem Failure.inOutputOf_of_not_isMalformed {f : Failure} (h : f.isMalformed = false)
    (name : String) : f.inOutputOf name = f := by
  cases f with
  | malformed cause producer => cases h
  | _ => rfl

namespace Pass

variable {m : Type → Type} {σ : Type}

theorem isMalformed_toldAround (around : List (Call σ)) (failure : Failure) :
    (toldAround around failure).isMalformed = failure.isMalformed := by
  induction around generalizing failure with
  | nil => rfl
  | cons call around ih => exact (ih _).trans (Failure.isMalformed_inOutputOf _ _)

/-- Malformed markers are told with the innermost output around them. -/
theorem toldAround_malformed (around : List (Call σ)) (cause : Markup.Malformed) :
    toldAround around (.malformed cause none) =
      .malformed cause (around.head?.map (·.tagName)) := by
  cases around with
  | nil => rfl
  | cons call around => exact toldAround_eq_self (fun _ => rfl) around

theorem lastSignal_append (signal : StopSignal) (evs evs' : List (Event σ)) :
    lastSignal signal (evs ++ evs') = lastSignal (lastSignal signal evs) evs' := by
  induction evs generalizing signal with
  | nil => rfl
  | cons ev evs ih => cases ev <;> exact ih _

/-! ## §2. Where a failure comes up. -/

/-- Where these levels are open, with the stop signal as it stands, a failure comes up with
    the last events of a pass. -/
inductive ComesUp (e : Expander m σ) (signal : StopSignal) :
    List (Level σ) → List (Event σ) → Failure → Prop where
  /-- The text that comes next is scanned, and its markers are malformed. -/
  | malformed {text : String} {outer : List (Level σ)} {cause : Markup.Malformed}
      (hs : Markup.scan e.registry.isRaw text = .error cause) :
      ComesUp e signal (.awaited text :: outer) [.scanned text] (.malformed cause none)
  /-- The text that comes next has markers, and is beyond the limit. -/
  | tooDeep {text : String} {outer : List (Level σ)}
      (hmarker : Markup.containsMarker text = true) (hd : e.maxDepth < (producers outer).length) :
      ComesUp e signal (.awaited text :: outer) [] (.tooDeep e.maxDepth)
  /-- The pass was asked to stop, and a tag comes next. -/
  | stopped {tag : Markup.Tag} {left : List Markup.Span} {outer : List (Level σ)}
      (hraised : signal.isRaised = true) :
      ComesUp e signal (.text (.tag tag :: left) :: outer) [] .stopped
  /-- No handler has the name of the tag that comes next. -/
  | unknown {tag : Markup.Tag} {left : List Markup.Span} {outer : List (Level σ)}
      (hrunning : signal.isRaised = false) (hr : e.registry.resolve? tag.name = none) :
      ComesUp e signal (.text (.tag tag :: left) :: outer) [] (.unknown tag.name)
  /-- The handler of the tag that comes next is executed, and fails. -/
  | fault {tag : Markup.Tag} {left : List Markup.Span} {outer : List (Level σ)} {call : Call σ}
      {fault : HandlerFault} (hrunning : signal.isRaised = false)
      (hname : call.tagName = tag.name) (hr : call.result = .error fault) :
      ComesUp e signal (.text (.tag tag :: left) :: outer) [.executed call]
        (.ofHandler tag.name fault)

/-- Work on these levels fails where its failure came up, and the failure is told around
    the outputs that were open there. -/
def Unwinds (e : Expander m σ) (signal : StopSignal) (levels outer : List (Level σ))
    (evs : List (Event σ)) (failure : Failure) : Prop :=
  ∃ before last origin, evs = before ++ last ∧
    ComesUp e (lastSignal signal before) (advanceAll e.registry.isRaw levels before) last origin ∧
    toldAround (producers outer) failure =
      toldAround (producers (advanceAll e.registry.isRaw levels before)) origin

section Unwinds

variable {e : Expander m σ} {signal : StopSignal} {levels outer : List (Level σ)}
  {evs : List (Event σ)} {failure : Failure}

/-- The failure may come up right away. -/
theorem ComesUp.unwinds (h : ComesUp e signal levels evs failure)
    (houter : producers levels = producers outer) :
    Unwinds e signal levels outer evs failure :=
  ⟨[], evs, failure, rfl, h, by rw [← houter]; rfl⟩

/-- The failure may come up behind other work. -/
theorem Unwinds.behind (evs' : List (Event σ))
    (h : Unwinds e (lastSignal signal evs') (advanceAll e.registry.isRaw levels evs') outer evs
      failure) : Unwinds e signal levels outer (evs' ++ evs) failure := by
  obtain ⟨before, last, origin, rfl, hcomes, htold⟩ := h
  rw [← lastSignal_append, ← advanceAll_append] at hcomes
  rw [← advanceAll_append] at htold
  exact ⟨evs' ++ before, last, origin, (List.append_assoc _ _ _).symm, hcomes, htold⟩

end Unwinds

section Run

variable {e : Expander m σ} {source : String} {p : Progress σ}

/-- A tag that is refused is where the failure comes up. -/
theorem Invoked.unwinds {depth : Nat} {tag : Markup.Tag} {evs : List (Event σ)}
    {failure : Failure} (h : Invoked e source p depth tag evs (.error failure))
    (left : List Markup.Span) (outer : List (Level σ)) :
    Unwinds e p.signal (.text (.tag tag :: left) :: outer) outer evs failure := by
  cases h with
  | stopped hraised => exact ComesUp.unwinds (.stopped hraised) rfl
  | unknown hrunning hr => exact ComesUp.unwinds (.unknown hrunning hr) rfl
  | @failed entry call fault hx hr =>
      have hcomes : ComesUp e p.signal (.text (.tag tag :: left) :: outer) [.executed call]
          (.ofHandler tag.name fault) := .fault hx.running hx.tagName hr
      rcases called_cases p entry call with ⟨-, -, hcall⟩ | ⟨-, -, hcall⟩
      · rw [hcall]
        exact hcomes.unwinds rfl
      -- the instance is created in front of it, which opens and closes nothing
      · rw [hcall]
        exact .behind [.created entry.name entry.handler.initial] (hcomes.unwinds rfl)

/-- **A run that fails does so where its failure came up**: nothing happens behind it, and
    the failure is told around the outputs that were open there, and around no others. -/
theorem Run.unwinds {piece : Piece} {evs : List (Event σ)} {r : Except Failure String}
    (h : Run e source p piece evs r) {failure : Failure} (hr : r = .error failure)
    {levels outer : List (Level σ)} (hopens : piece.Opens e levels outer) :
    Unwinds e p.signal levels outer evs failure := by
  -- the failure is that of the last part of the work, which is done behind the other parts
  induction h generalizing failure levels outer with
  | plain _ | finished | nothing => cases hr
  | tooDeep hmarker hd =>
      cases hr
      obtain ⟨rfl, rfl⟩ := hopens
      exact ComesUp.unwinds (.tooDeep hmarker hd) rfl
  | malformed _ _ hs =>
      cases hr
      obtain ⟨rfl, -⟩ := hopens
      exact ComesUp.unwinds (.malformed hs) rfl
  | @scanned p depth text spans evs r _ hd hs _ ih =>
      obtain ⟨rfl, hdepth⟩ := hopens
      exact .behind [.scanned text] (ih hr ⟨advance_scanned hs outer, hdepth, hd⟩)
  | @literal p depth text spans evs r _ ih =>
      obtain ⟨rfl, hdepth, hle⟩ := hopens
      exact .behind [.spliced text] (ih (eq_error_of_map hr) ⟨rfl, hdepth, hle⟩)
  | refused h =>
      cases hr
      obtain ⟨rfl, -, -⟩ := hopens
      exact h.unwinds _ _
  | @cut p depth tag spans evs evs' output kind _ h _ ih =>
      cases hr
      obtain ⟨rfl, hdepth, hle⟩ := hopens
      cases h with
      | @executed entry call _ hx hresult =>
          have hopened := hx.opens hresult hdepth hle spans
          rw [← (hx.due hdepth hle spans (.ok "")).2] at hopened
          have hoccurrence := ih rfl hopened
          rw [Progress.signal_replay] at hoccurrence
          exact .behind (called p entry call) hoccurrence
  | @tag p depth tag spans evs evs' evs'' output kind text r h ho _ _ ihw =>
      obtain ⟨rfl, hdepth, hle⟩ := hopens
      cases h with
      | @executed entry call _ hx hresult =>
          -- all that the tag has put out is done with
          have hbehind := (ho.due (hx.opens hresult hdepth hle spans)).2 text rfl
          rw [← (hx.due hdepth hle spans (.ok "")).2, ← advanceAll_append] at hbehind
          have hrest := ihw (eq_error_of_map hr) ⟨hbehind, hdepth, hle⟩
          rw [Progress.signal_replay] at hrest
          exact .behind (called p entry call ++ evs') hrest
  | @exempt p depth tagName d docs evs r _ ih =>
      obtain ⟨call, rfl, hdepth, hle, hname, hraw, hcall⟩ := hopens
      exact .behind [.emitted tagName d true, .spliced d.content]
        (ih (eq_error_of_map hr) ⟨call, rfl, hdepth, hle, hname, hraw, hcall⟩)
  | @broken p depth tagName d docs evs failure' h ih =>
      cases hr
      obtain ⟨call, rfl, hdepth, hle, rfl, hraw, hcall⟩ := hopens
      have hopens := Piece.opens_content e hdepth call docs d.content
      -- the output of this tag is the one that is told next
      obtain ⟨before, last, origin, hplace, hcomes, htold⟩ := ih rfl hopens
      exact .behind [.emitted call.tagName d false] ⟨before, last, origin, hplace, hcomes, htold⟩
  | @document p depth tagName d docs evs evs' text r h _ _ ihd =>
      obtain ⟨call, rfl, hdepth, hle, hname, hraw, hcall⟩ := hopens
      have hopens := Piece.opens_content e hdepth call docs d.content
      have hbehind := (h.due hopens).2 text rfl
      have hrest := ihd (eq_error_of_map hr) ⟨call, hbehind, hdepth, hle, hname, hraw, hcall⟩
      rw [Progress.signal_replay] at hrest
      exact .behind (.emitted tagName d false :: evs) hrest

/-! ## §3. Where a text that is scanned comes from. -/

/-- These events lead to the scan of a text: there are none, and the text is the piece of
    work itself, or the last one is that a document with this text was put out. -/
inductive ScannedBehind (piece : Piece) (text : String) : List (Event σ) → Prop where
  | start (depth : Nat) (h : piece = .text depth text) : ScannedBehind piece text []
  | output (earlier : List (Event σ)) (tagName : String) {d : Document} (h : d.content = text) :
      ScannedBehind piece text (earlier ++ [.emitted tagName d false])

section ScannedBehind

variable {piece piece' : Piece} {text : String} {before : List (Event σ)}

/-- Work that does not begin with a text may come behind other work. -/
theorem ScannedBehind.behind (evs : List (Event σ)) (h : ScannedBehind piece text before)
    (hpiece : ∀ depth, piece ≠ .text depth text) :
    ScannedBehind piece' text (evs ++ before) := by
  cases h with
  | start depth h => exact absurd h (hpiece depth)
  | output earlier tagName h =>
      rw [← List.append_assoc]
      exact .output _ tagName h

/-- The text of a document comes behind the document. -/
theorem ScannedBehind.of_document {depth : Nat} {d : Document} {evs after : List (Event σ)}
    (tagName : String) (hplace : .emitted tagName d false :: evs = before ++ .scanned text :: after)
    (h : ∀ rest, evs = rest ++ .scanned text :: after →
      ScannedBehind (.text depth d.content) text rest) : ScannedBehind piece text before := by
  obtain ⟨rest, rfl, hrest⟩ := cons_eq_append_cons hplace nofun
  cases h rest hrest with
  | start depth h => exact .output [] tagName (Piece.text.inj h).2
  | output earlier tagName' h => exact .output (.emitted tagName d false :: earlier) tagName' h

end ScannedBehind

/-- No text is scanned for an execution. -/
theorem Invoked.not_mem_scanned {depth : Nat} {tag : Markup.Tag} {evs : List (Event σ)}
    {r : Except Failure (Output × Kind)} (h : Invoked e source p depth tag evs r)
    (text : String) : .scanned text ∉ evs := by
  cases h with
  | stopped _ | unknown _ _ => exact List.not_mem_nil
  | @failed entry call _ _ _ | @executed entry call _ _ _ =>
      rcases called_cases p entry call with ⟨-, -, hcall⟩ | ⟨-, -, hcall⟩ <;> rw [hcall] <;> simp

/-- **A text is scanned right behind the document that it is the text of.** -/
theorem Run.scannedBehind {piece : Piece} {evs : List (Event σ)} {r : Except Failure String}
    (h : Run e source p piece evs r) {before after : List (Event σ)} {text : String}
    (hplace : evs = before ++ .scanned text :: after) : ScannedBehind piece text before := by
  induction h generalizing before after with
  | plain _ => cases (singleton_eq_append_cons hplace).2.1
  | malformed _ _ _ =>
      obtain ⟨rfl, hev, -⟩ := singleton_eq_append_cons hplace
      cases hev
      exact .start _ rfl
  | tooDeep _ _ | finished | nothing => cases before <;> cases hplace
  | @scanned p depth content spans evs r _ _ _ _ ih =>
      cases before with
      | nil =>
          cases (List.cons.inj hplace).1
          exact .start depth rfl
      | cons ev rest =>
          obtain ⟨rfl, hrest⟩ := List.cons.inj hplace
          exact (ih hrest).behind [.scanned content] nofun
  | literal _ ih =>
      obtain ⟨rest, rfl, hrest⟩ := cons_eq_append_cons hplace nofun
      exact (ih hrest).behind [_] nofun
  | refused h =>
      subst hplace
      exact absurd (List.mem_append_right _ List.mem_cons_self) (h.not_mem_scanned text)
  | cut h _ ih =>
      rcases append_eq_append_cons hplace with ⟨mid, rfl, -⟩ | ⟨mid, rfl, hmid⟩
      · exact absurd (List.mem_append_right _ List.mem_cons_self) (h.not_mem_scanned text)
      · exact (ih hmid).behind _ nofun
  | tag h _ _ iho ihw =>
      rcases append_eq_append_cons hplace with ⟨mid, hmid, -⟩ | ⟨mid, rfl, hmid⟩
      · rcases append_eq_append_cons hmid with ⟨mid, rfl, -⟩ | ⟨mid, rfl, houtput⟩
        · exact absurd (List.mem_append_right _ List.mem_cons_self) (h.not_mem_scanned text)
        · exact (iho houtput).behind _ nofun
      · exact (ihw hmid).behind _ nofun
  | exempt _ ih =>
      obtain ⟨_, rfl, hspliced⟩ := cons_eq_append_cons hplace nofun
      obtain ⟨rest, rfl, hrest⟩ := cons_eq_append_cons hspliced nofun
      exact (ih hrest).behind [_, _] nofun
  | broken _ ih => exact .of_document _ hplace fun _ hrest => ih hrest
  | document _ _ ih ihd =>
      rcases append_eq_append_cons hplace with ⟨mid, hmid, -⟩ | ⟨mid, rfl, hmid⟩
      · exact .of_document _ hmid fun _ hrest => ih hrest
      · exact (ihd hmid).behind _ nofun

end Run

/-! ## §4. Where an output that is open comes from. -/

/-- What is open when all that is finished is closed was open before. -/
theorem suffix_of_close {levels tail : List (Level σ)} (h : tail <:+ close levels) :
    tail <:+ levels :=
  h.trans (List.dropWhile_suffix _)

/-- An output that is open behind an event was open in front of it, with as many documents
    left or more; or the event is its execution, for the next piece of the innermost text. -/
theorem output_suffix_advance {isRaw : String → Bool} {levels outer : List (Level σ)}
    {ev : Event σ} {call : Call σ} {docs : List Document}
    (h : .output call docs :: outer <:+ advance isRaw levels ev) :
    (∃ docs', .output call docs' :: outer <:+ levels ∧ docs <:+ docs') ∨
      ev = .executed call ∧ docs = call.docs ∧
        ∃ span left rest, levels = .text (span :: left) :: rest ∧ outer = .text left :: rest := by
  have hsame {tail : List (Level σ)} (h : .output call docs :: outer <:+ tail)
      (htail : tail <:+ levels) :
      ∃ docs', .output call docs' :: outer <:+ levels ∧ docs <:+ docs' :=
    ⟨docs, h.trans htail, List.suffix_rfl⟩
  unfold advance at h
  split at h
  -- a text is scanned
  · split at h
    · rcases List.suffix_cons_iff.1 (suffix_of_close h) with htop | htail
      · cases htop
      · exact .inl (hsame htail (List.suffix_cons _ _))
    · exact .inl (hsame h List.suffix_rfl)
  -- a text is put into the result
  · split at h
    · exact .inl (hsame (suffix_of_close h) (List.suffix_cons _ _))
    · rcases List.suffix_cons_iff.1 (suffix_of_close h) with htop | htail
      · cases htop
      · exact .inl (hsame htail (List.suffix_cons _ _))
    · exact .inl (hsame h List.suffix_rfl)
  -- a handler is executed
  · split at h
    · rcases List.suffix_cons_iff.1 (suffix_of_close h) with htop | htail
      · cases htop
        exact .inr ⟨rfl, rfl, _, _, _, rfl, rfl⟩
      · rcases List.suffix_cons_iff.1 htail with htop | htail
        · cases htop
        · exact .inl (hsame htail (List.suffix_cons _ _))
    · exact .inl (hsame h List.suffix_rfl)
  -- a document is put out
  · split at h
    · rcases List.suffix_cons_iff.1 h with htop | htail
      · cases htop
      · rcases List.suffix_cons_iff.1 htail with htop | htail
        · cases htop
          exact .inl ⟨_, List.suffix_rfl, List.suffix_cons _ _⟩
        · exact .inl (hsame htail (List.suffix_cons _ _))
    · exact .inl (hsame h List.suffix_rfl)
  · exact .inl (hsame h List.suffix_rfl)
  · exact .inl (hsame h List.suffix_rfl)

/-- **An output that is open is one of an execution before**: behind it the text goes on
    that was open when the handler was executed, and of the documents some may have been
    put out. -/
theorem exists_execution {isRaw : String → Bool} {source : String} {evs : List (Event σ)}
    {call : Call σ} {docs : List Document} {outer : List (Level σ)}
    (h : .output call docs :: outer <:+ opened isRaw source evs) :
    ∃ earlier later span left rest, evs = earlier ++ .executed call :: later ∧
      opened isRaw source earlier = .text (span :: left) :: rest ∧
      outer = .text left :: rest ∧ docs <:+ call.docs := by
  induction evs using List.reverseRecOn generalizing docs with
  | nil =>
      rcases List.suffix_cons_iff.1 h with htop | htail
      · cases htop
      · cases List.suffix_nil.1 htail
  | append_singleton evs ev ih =>
      have hadvance : opened isRaw source (evs ++ [ev]) =
          advance isRaw (opened isRaw source evs) ev :=
        advanceAll_append _ _ _ _
      rw [hadvance] at h
      rcases output_suffix_advance h with ⟨docs', hopen, hdocs⟩ | ⟨rfl, rfl, hnext⟩
      · obtain ⟨earlier, later, span, left, rest, rfl, hopened, houter, hdocs'⟩ := ih hopen
        refine ⟨earlier, later ++ [ev], span, left, rest, ?_, hopened, houter, hdocs.trans hdocs'⟩
        rw [List.append_assoc]
        rfl
      · obtain ⟨span, left, rest, hopened, houter⟩ := hnext
        exact ⟨evs, [], span, left, rest, rfl, hopened, houter, List.suffix_rfl⟩

/-! ## §5. Passes. -/

/-- The document is the next one that this tag puts out: its handler was executed where the
    tag came next, and what it put out is the innermost output that is open, in front of
    the rest of the text of the tag. -/
inductive PutsOut (e : Expander m σ) (source : String) (tag : Markup.Tag) (d : Document) :
    List (Event σ) → Prop where
  | intro {earlier later : List (Event σ)} {call : Call σ} {left : List Markup.Span}
      {docs : List Document} {outer : List (Level σ)} (hname : call.tagName = tag.name)
      (hdocs : d :: docs <:+ call.docs)
      (htag : opened e.registry.isRaw source earlier = .text (.tag tag :: left) :: outer)
      (houtput : opened e.registry.isRaw source (earlier ++ .executed call :: later) =
        .output call (d :: docs) :: .text left :: outer) :
      PutsOut e source tag d (earlier ++ .executed call :: later)

/-- What is told of malformed markers, where `text` was scanned last, behind the events
    `before`. -/
structure Blames (e : Expander m σ) (document : Document) (before : List (Event σ))
    (text : String) (cause : Markup.Malformed) (producer : Option String) : Prop where
  /-- The cause is what the scan of this text gives: name, line, position and fault. -/
  cause : Markup.scan e.registry.isRaw text = .error cause
  /-- No producer is told exactly if the text is that of the document itself. -/
  own : producer = none ↔ text = document.content
  /-- A producer is the name, as written, of the tag that has just put the text out. -/
  output : ∀ name, producer = some name → ∃ earlier tag d,
    before = earlier ++ [.emitted name d false] ∧ d.content = text ∧ tag.name = name ∧
      PutsOut e document.content tag d earlier

section Blames

variable {e : Expander m σ} {document : Document} {signal : StopSignal}
  {before after : List (Event σ)} {r : Except Failure String}

/-- A document that is put out is put out by the tag of its name, and by the innermost
    output that is open. -/
theorem Run.putsOut {name : String} {d : Document} {raw : Bool}
    (h : Run e document.content (.start document.metadata signal) (.text 0 document.content)
      (before ++ .emitted name d raw :: after) r) :
    ∃ tag call docs outer, tag.name = name ∧ call.tagName = name ∧
      opened e.registry.isRaw document.content before = .output call (d :: docs) :: outer ∧
      PutsOut e document.content tag d before := by
  have hopens := Piece.opens_start e document.content
  obtain ⟨hdue, -⟩ := h.due hopens
  obtain ⟨call, docs, outer, houtput, hname, -⟩ := hdue before _ after rfl
  have hopened : opened e.registry.isRaw document.content before =
      .output call (d :: docs) :: outer := houtput
  have hsuffix : .output call (d :: docs) :: outer <:+
      opened e.registry.isRaw document.content before :=
    ⟨[], hopened.symm⟩
  -- the output is one of an execution before, which was due for a tag
  obtain ⟨earlier, later, span, left, rest, rfl, htext, rfl, hdocs⟩ := exists_execution hsuffix
  obtain ⟨tag, left', rest', htag, hcall, -⟩ := hdue earlier _ _ (List.append_assoc _ _ _)
  cases htext.symm.trans htag
  exact ⟨tag, call, docs, _, hcall.symm.trans hname, hname, hopened,
    .intro hcall hdocs htext hopened⟩

/-- Malformed markers are those of the text that was scanned last, and are told with the
    innermost output that is open around it. -/
theorem Run.of_malformed {evs : List (Event σ)} {cause : Markup.Malformed}
    {producer : Option String}
    (h : Run e document.content (.start document.metadata signal) (.text 0 document.content) evs
      (.error (.malformed cause producer))) :
    ∃ before text outer, evs = before ++ [.scanned text] ∧
      Markup.scan e.registry.isRaw text = .error cause ∧
      opened e.registry.isRaw document.content before = .awaited text :: outer ∧
      producer = (producers outer).head?.map (·.tagName) := by
  have hopens := Piece.opens_start e document.content
  obtain ⟨before, last, origin, rfl, hcomes, htold⟩ := h.unwinds rfl hopens
  replace htold : Failure.malformed cause producer = toldAround _ origin := htold
  -- it came up as one of markers, since no output changes the kind
  have horigin : origin.isMalformed = true := by
    rw [← isMalformed_toldAround, ← htold]
    rfl
  generalize hopened : advanceAll e.registry.isRaw [.awaited document.content] before = levels
    at hcomes htold
  cases hcomes with
  | tooDeep _ _ | stopped _ | unknown _ _ => cases horigin
  | fault _ _ _ => cases (Failure.isMalformed_ofHandler _ _).symm.trans horigin
  | @malformed text outer _ hscan =>
      rw [toldAround_malformed] at htold
      injection htold with hcause hproducer
      subst hcause
      exact ⟨before, text, outer, rfl, hscan, hopened, hproducer⟩

/-- Malformed markers are told of the document itself, or with the tag that has put the text
    out. -/
theorem Run.blames {evs : List (Event σ)} {cause : Markup.Malformed} {producer : Option String}
    (h : Run e document.content (.start document.metadata signal) (.text 0 document.content) evs
      (.error (.malformed cause producer))) :
    ∃ before text, evs = before ++ [.scanned text] ∧
      Blames e document before text cause producer := by
  obtain ⟨before, text, outer, rfl, hscan, hopened, hproducer⟩ := h.of_malformed
  refine ⟨before, text, rfl, ?_⟩
  cases h.scannedBehind rfl with
  | start depth htext =>
      -- the text of the document itself, with no output around it
      cases hopened
      exact ⟨hscan, ⟨fun _ => rfl, fun _ => hproducer⟩, fun name hname =>
        nomatch hproducer.symm.trans hname⟩
  | @output earlier name d htext =>
      rw [List.append_assoc] at h
      obtain ⟨tag, call, docs, outer', htag, hcall, hlevels, hputs⟩ := h.putsOut
      -- the output of the tag is the innermost one around the text
      have hawaited : opened e.registry.isRaw document.content
          (earlier ++ [.emitted name d false]) =
            .awaited d.content :: .output call docs :: outer' := by
        rw [opened, advanceAll_append, ← opened, hlevels]
        rfl
      cases hopened.symm.trans hawaited
      have hname : producer = some name := hproducer.trans (congrArg some hcall)
      refine ⟨hscan, ⟨?_, ?_⟩, ?_⟩
      · intro hnone
        cases hnone.symm.trans hname
      · -- the document would have failed at once, with nothing put out
        intro hown
        rw [hown] at hscan
        have hlength := congrArg List.length (h.of_scan_error hscan).1
        simp at hlength
      · intro name' hname'
        cases hname.symm.trans hname'
        exact ⟨earlier, tag, d, rfl, rfl, htag, hputs⟩

/-- Other failures come out of a run as they came up. -/
theorem Run.comesUp {evs : List (Event σ)} {failure : Failure}
    (h : Run e document.content (.start document.metadata signal) (.text 0 document.content) evs
      (.error failure)) (hother : failure.isMalformed = false) :
    ∃ before last, evs = before ++ last ∧
      ComesUp e (lastSignal signal before) (opened e.registry.isRaw document.content before) last
        failure := by
  have hopens := Piece.opens_start e document.content
  obtain ⟨before, last, origin, hplace, hcomes, htold⟩ := h.unwinds rfl hopens
  replace htold : failure = toldAround _ origin := htold
  have horigin : origin.isMalformed = false := by
    rw [htold, isMalformed_toldAround] at hother
    exact hother
  rw [toldAround_eq_self (Failure.inOutputOf_of_not_isMalformed horigin)] at htold
  exact ⟨before, last, hplace, htold ▸ hcomes⟩

end Blames

/-- **What a pass that fails tells, and where it failed.**
    * If markers are malformed, the last thing that the pass has done is to scan a text,
      and it tells what this scan tells.  It names no producer exactly if this is the text
      of the document itself.  A producer is the tag that has just put the text out, by its
      name as written there, at any depth and whatever is open around it.
    * A failure of another kind is that of the place where it came up, with nothing behind
      it: the limit for the text that comes next, or the stop signal, an unknown name or
      the fault of a handler for the tag that comes next.  The outputs that are open around
      the place change nothing about it. -/
theorem process_unwinds [Monad m] [LawfulMonad m] (e : Expander m σ) (document : Document)
    (signal : StopSignal) :
    Always (fun o => ∃ evs ends, o.events = evs ++ ends ∧ DisposesOf evs ends ∧
        (∀ cause producer, o.result = .error (.malformed cause producer) →
          ∃ before text, evs = before ++ [.scanned text] ∧
            Blames e document before text cause producer) ∧
        ∀ failure, o.result = .error failure → failure.isMalformed = false →
          ∃ before last, evs = before ++ last ∧
            ComesUp e (lastSignal signal before)
              (opened e.registry.isRaw document.content before) last failure)
      (e.process document signal) := by
  refine (always_process e document signal).mono ?_
  intro o ho
  obtain ⟨evs, r, hrun, rfl⟩ := ho
  refine ⟨evs, _, events_outcomeOf _ _ _ _, hrun.trace.disposesOf, ?_, ?_⟩
  · intro cause producer hresult
    rw [eq_error_of_map hresult] at hrun
    exact hrun.blames
  · intro failure hresult hother
    rw [eq_error_of_map hresult] at hrun
    exact hrun.comesUp hother

/-- The builtin handlers, and one whose output is a tag that does not end. -/
def unfinished : Expander Id Unit :=
  ⟨Builtin.registry.register ⟨"Bad", .standard,
      Builtin.pureHandler fun _ => .ok (.ofContent "-\n<?# A")⟩,
    ⟨fun _ => .error .notFound, fun _ => none⟩, ⟨[]⟩, none, defaultMaxDepth⟩

/-- A loop in whose items the tag is put out, in another spelling. -/
def unfinishedLoop : Document :=
  ⟨"<?# ForEach Items Item ?>.<?# bad /?><?#/ ForEach ?><?# None /?>",
    Metadata.empty.insert "Items" (.array [.bool true, .bool false])⟩

/-- In the first item of the loop, the pass blames the tag that is put out there, as it is
    written there, with the place in the text that this tag puts out. -/
theorem process_unwinds_loop :
    let o := (unfinished.process unfinishedLoop .clear).run
    let cause : Markup.Malformed := ⟨"A", 2, 2, .unterminated⟩
    o.result = .error (.malformed cause (some "bad")) ∧
      ∃ before text ends, o.events = before ++ .scanned text :: ends ∧
        Blames unfinished unfinishedLoop before text cause (some "bad") := by
  have hresult : ((unfinished.process unfinishedLoop .clear).run).result =
      .error (.malformed ⟨"A", 2, 2, .unterminated⟩ (some "bad")) := by
    rw [← Outcome.failure?_eq_some_iff]
    decide +kernel
  refine ⟨hresult, ?_⟩
  obtain ⟨evs, ends, hevents, -, hmalformed, -⟩ :=
    always_id_iff.1 (process_unwinds unfinished unfinishedLoop .clear)
  obtain ⟨before, text, rfl, hblames⟩ := hmalformed _ _ hresult
  exact ⟨before, text, ends, by rw [hevents, List.append_assoc]; rfl, hblames⟩

end Pass

end TagExpander
