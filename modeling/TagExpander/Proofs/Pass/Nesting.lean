/-
  TagExpander.Proofs.Pass.Nesting — how deeply handler output is nested.

  At every place of a history some texts and some outputs are open: begun, and not yet
  done with.  What is open is a function of the events in front of the place; nothing is
  counted for it:

      executed A · emitted d · scanned d.content · ‹here›
      text (rest of d.content) / output of A (rest) / text (rest of the document)

  The depth that a handler is told is the number of outputs that are open around its tag.
  It never passes the limit: a document with markers that comes of a tag at the limit
  ends the pass, unless it is exempt.

  Main results:
    * `eq_expandAt_iff` — the recursion of the expansion has one solution, without a
      count of the levels that are left.
    * `Run.due` — every event of a run is due where it stands.
    * `Run.endsInOutput` — a run ends at the limit where a document was put out.
    * `process_nesting` — depth and limit of every pass.
-/
import TagExpander.Proofs.Pass.Trace

namespace TagExpander.Pass

variable {m : Type → Type} {σ α β : Type}

/-! ## §1. The recursion. -/

section Recursion

variable [Monad m] (e : Expander m σ) (source : String)

/-- One step of the recursion: a text at a depth, where texts at the next depth are
    expanded by `f`. -/
def expandStep (f : Nat → Inner m σ) (depth : Nat) (text : String) (p : Progress σ) :
    m (Step σ String) :=
  if Markup.containsMarker text then
    if e.maxDepth < depth then pure (.error (.tooDeep e.maxDepth), p)
    else
      match Markup.scan e.registry.isRaw text with
      | .error cause => pure (.error (.malformed cause none), p.record (.scanned text))
      | .ok spans => weave e source depth (f (depth + 1)) "" spans (p.record (.scanned text))
  else pure (.ok text, p.record (.spliced text))

/-- The expansion of a text at a depth, with all the levels that are left there. -/
def expandAt (depth : Nat) : Inner m σ :=
  expand e source (e.maxDepth + 1 - depth) depth

/-- Beyond the limit nothing is expanded. -/
theorem expandStep_of_lt (f : Nat → Inner m σ) {depth : Nat} (h : e.maxDepth < depth)
    (text : String) (p : Progress σ) :
    expandStep e source f depth text p = expand e source 0 depth text p := by
  unfold expandStep expand
  rw [if_pos h]

/-- Up to the limit, a step leads to the next depth. -/
theorem expandStep_of_le {f : Nat → Inner m σ} {depth levels : Nat} (h : depth ≤ e.maxDepth)
    (hf : f (depth + 1) = expand e source levels (depth + 1)) (text : String) (p : Progress σ) :
    expandStep e source f depth text p = expand e source (levels + 1) depth text p := by
  unfold expandStep
  rw [if_neg (Nat.not_lt.2 h), hf]
  rfl

/-- **The recursion comes to an end**, whatever the handlers put out: it has one solution,
    which is the expansion. -/
theorem eq_expandAt_iff (f : Nat → Inner m σ) :
    (∀ depth text p, f depth text p = expandStep e source f depth text p) ↔
      f = expandAt e source := by
  constructor
  · intro h
    -- on the levels that are left: none beyond the limit, and one less at the next depth
    have hlevels : ∀ levels depth, levels = e.maxDepth + 1 - depth →
        f depth = expand e source levels depth := by
      intro levels
      induction levels with
      | zero =>
          intro depth hdepth
          funext text p
          rw [h, expandStep_of_lt e source f (by omega)]
      | succ levels ih =>
          intro depth hdepth
          funext text p
          rw [h, expandStep_of_le e source (by omega) (ih (depth + 1) (by omega))]
    funext depth
    exact hlevels _ depth rfl
  · rintro rfl depth text p
    by_cases hdepth : e.maxDepth < depth
    · rw [expandStep_of_lt e source _ hdepth, expandAt, show e.maxDepth + 1 - depth = 0 by omega]
    · have hinner : expandAt e source (depth + 1) =
          expand e source (e.maxDepth - depth) (depth + 1) := by
        rw [expandAt, show e.maxDepth + 1 - (depth + 1) = e.maxDepth - depth by omega]
      rw [expandStep_of_le e source (by omega) hinner, expandAt,
        show e.maxDepth + 1 - depth = e.maxDepth - depth + 1 by omega]

end Recursion

/-! ## §2. What is open. -/

/-- The documents that an execution puts out. -/
def Call.docs (call : Call σ) : List Document :=
  match call.result with
  | .ok output => output.docs
  | .error _ => []

/-- Is what the execution puts out taken as it is? -/
def Call.isExempt (registry : Registry σ) (call : Call σ) : Bool :=
  registry.isRaw call.tagName ||
    match call.result with
    | .ok output => output.isRaw
    | .error _ => false

/-- Something that is open at a place of a history. -/
inductive Level (σ : Type) where
  /-- A text that comes next. -/
  | awaited (text : String)
  /-- A text that was scanned, with the spans that are left. -/
  | text (left : List Markup.Span)
  /-- The output of an execution, with the documents that are left. -/
  | output (call : Call σ) (left : List Document)

/-- Is nothing left of it? -/
def Level.isFinished : Level σ → Bool
  | .text [] | .output _ [] => true
  | .awaited _ | .text (_ :: _) | .output _ (_ :: _) => false

/-- What is open when all that is finished is closed; the innermost comes first. -/
def close (levels : List (Level σ)) : List (Level σ) :=
  levels.dropWhile Level.isFinished

/-- What is open behind an event. -/
def advance (isRaw : String → Bool) (levels : List (Level σ)) : Event σ → List (Level σ)
  | .scanned text =>
    match levels with
    | .awaited _ :: outer => close (.text ((Markup.scan isRaw text).toOption.getD []) :: outer)
    | _ => levels
  | .spliced _ =>
    match levels with
    | .awaited _ :: outer => close outer
    | .text (_ :: left) :: outer => close (.text left :: outer)
    | _ => levels
  | .executed call =>
    match levels with
    | .text (_ :: left) :: outer => close (.output call call.docs :: .text left :: outer)
    | _ => levels
  | .emitted _ _ _ =>
    match levels with
    | .output call (d :: left) :: outer => .awaited d.content :: .output call left :: outer
    | _ => levels
  | .created _ _ | .disposed _ _ => levels

/-- What is open behind events, one after the other. -/
def advanceAll (isRaw : String → Bool) (levels : List (Level σ)) (evs : List (Event σ)) :
    List (Level σ) :=
  evs.foldl (advance isRaw) levels

/-- What is open at a place of a pass over a text, by the events in front of it. -/
def opened (isRaw : String → Bool) (source : String) (evs : List (Event σ)) : List (Level σ) :=
  advanceAll isRaw [.awaited source] evs

/-- The executions whose output is open, the innermost first. -/
def producers (levels : List (Level σ)) : List (Call σ) :=
  levels.filterMap fun
    | .output call _ => some call
    | .awaited _ | .text _ => none

theorem advanceAll_append (isRaw : String → Bool) (levels : List (Level σ))
    (evs evs' : List (Event σ)) :
    advanceAll isRaw levels (evs ++ evs') = advanceAll isRaw (advanceAll isRaw levels evs) evs' :=
  List.foldl_append

/-! ## §3. What is due. -/

/-- What follows where a document was put out by a tag at a depth: its text as it is, or
    the scan of it, or the end. -/
structure Continues (e : Expander m σ) (r : Except Failure α) (depth : Nat) (d : Document)
    (raw : Bool) (after : List (Event σ)) : Prop where
  /-- At any depth, exempt texts and texts without markers are put into the result. -/
  accepted : raw = true ∨ Markup.containsMarker d.content = false →
    ∃ rest, after = .spliced d.content :: rest
  /-- Below the limit, other texts are scanned. -/
  scanned : raw = false → Markup.containsMarker d.content = true → depth < e.maxDepth →
    ∃ rest, after = .scanned d.content :: rest
  /-- At the limit, they end the pass. -/
  tooDeep : raw = false → Markup.containsMarker d.content = true → depth = e.maxDepth →
    after = [] ∧ r = .error (.tooDeep e.maxDepth)

/-- The event is due where these levels are open: the scan of the text that comes next; a
    text for the result, this one or the next literal of the innermost text; an execution
    for the next tag of the innermost text, at the depth of the outputs that are open; or
    the next document of the innermost output. -/
def Due (e : Expander m σ) (r : Except Failure α) (levels : List (Level σ))
    (after : List (Event σ)) : Event σ → Prop
  | .scanned text => ∃ outer, levels = .awaited text :: outer
  | .spliced text => ∃ outer, levels = .awaited text :: outer ∨
      ∃ left, levels = .text (.literal text :: left) :: outer
  | .executed call => ∃ tag left outer, levels = .text (.tag tag :: left) :: outer ∧
      call.tagName = tag.name ∧ call.invocation.arguments = tag.arguments ∧
      call.invocation.content = tag.content ∧
      call.invocation.context.depth = (producers outer).length ∧
      call.invocation.context.depth ≤ e.maxDepth
  | .emitted tagName d raw => ∃ call left outer, levels = .output call (d :: left) :: outer ∧
      call.tagName = tagName ∧ raw = call.isExempt e.registry ∧
      call.invocation.context.depth = (producers outer).length ∧
      call.invocation.context.depth ≤ e.maxDepth ∧
      Continues e r call.invocation.context.depth d raw after
  | .created _ _ | .disposed _ _ => True

/-- Every event is due where it stands, if these levels are open at the start. -/
def AllDue (e : Expander m σ) (r : Except Failure α) (levels : List (Level σ))
    (evs : List (Event σ)) : Prop :=
  Everywhere (fun before ev after =>
    Due e r (advanceAll e.registry.isRaw levels before) after ev) evs

section Due

variable {e : Expander m σ} {r : Except Failure α} {r' : Except Failure β} {levels : List (Level σ)}
  {ev : Event σ} {evs evs' after : List (Event σ)}

/-- The end of a pass at the limit may be told in other words. -/
theorem Due.imp (h : Due e r levels after ev)
    (hr : r = .error (.tooDeep e.maxDepth) → r' = .error (.tooDeep e.maxDepth)) :
    Due e r' levels after ev := by
  cases ev with
  | emitted tagName d raw =>
      obtain ⟨call, left, outer, hlevels, hname, hraw, hdepth, hle, hnext⟩ := h
      exact ⟨call, left, outer, hlevels, hname, hraw, hdepth, hle, hnext.accepted, hnext.scanned,
        fun h₁ h₂ h₃ => (hnext.tooDeep h₁ h₂ h₃).imp_right hr⟩
  | executed call => exact h
  | scanned _ | spliced _ | created _ _ | disposed _ _ => exact h

/-- Behind work that has succeeded, more may follow. -/
theorem Due.append {b : β} (h : Due e (.ok b : Except Failure β) levels after ev)
    (more : List (Event σ)) : Due e r levels (after ++ more) ev := by
  cases ev with
  | emitted tagName d raw =>
      obtain ⟨call, left, outer, hlevels, hname, hraw, hdepth, hle, hnext⟩ := h
      refine ⟨call, left, outer, hlevels, hname, hraw, hdepth, hle, ?_, ?_, ?_⟩
      · intro haccepted
        obtain ⟨rest, rfl⟩ := hnext.accepted haccepted
        exact ⟨rest ++ more, rfl⟩
      · intro h₁ h₂ h₃
        obtain ⟨rest, rfl⟩ := hnext.scanned h₁ h₂ h₃
        exact ⟨rest ++ more, rfl⟩
      · intro h₁ h₂ h₃
        cases (hnext.tooDeep h₁ h₂ h₃).2
  | executed call => exact h
  | scanned _ | spliced _ | created _ _ | disposed _ _ => exact h

theorem AllDue.nil : AllDue e r levels ([] : List (Event σ)) :=
  everywhere_nil

theorem AllDue.cons (h : Due e r levels evs ev)
    (hevs : AllDue e r (advance e.registry.isRaw levels ev) evs) : AllDue e r levels (ev :: evs) :=
  everywhere_cons h hevs

theorem AllDue.imp (h : AllDue e r levels evs)
    (hr : r = .error (.tooDeep e.maxDepth) → r' = .error (.tooDeep e.maxDepth)) :
    AllDue e r' levels evs :=
  h.mono fun _ _ _ hdue => hdue.imp hr

/-- Work that has succeeded, and other work behind it. -/
theorem AllDue.append {b : β} (h : AllDue e (.ok b : Except Failure β) levels evs)
    (h' : AllDue e r (advanceAll e.registry.isRaw levels evs) evs') :
    AllDue e r levels (evs ++ evs') := by
  refine everywhere_append (h.mono fun _ _ _ hdue => hdue.append evs') (h'.mono ?_)
  intro before ev after hdue
  rw [advanceAll_append]
  exact hdue

end Due

/-! ## §4. Runs. -/

/-- These levels are open at the start of a piece of work, and the outer ones around it. -/
def Piece.Opens (e : Expander m σ) (levels outer : List (Level σ)) : Piece → Prop
  | .text depth content => levels = .awaited content :: outer ∧ depth = (producers outer).length
  | .spans depth found => levels = close (.text found :: outer) ∧
      depth = (producers outer).length ∧ depth ≤ e.maxDepth
  | .output depth tagName raw docs => ∃ call, levels = close (.output call docs :: outer) ∧
      depth = (producers outer).length ∧ depth ≤ e.maxDepth ∧ call.tagName = tagName ∧
      raw = call.isExempt e.registry ∧ call.invocation.context.depth = depth

/-- A pass starts with the text of its document, and nothing is open around it. -/
theorem Piece.opens_start (e : Expander m σ) (content : String) :
    (Piece.text 0 content).Opens e [.awaited content] [] :=
  ⟨rfl, rfl⟩

/-- The text of a document that was put out comes next, in the output that it is of. -/
theorem Piece.opens_content (e : Expander m σ) {depth : Nat} {outer : List (Level σ)}
    (hdepth : depth = (producers outer).length) (call : Call σ) (docs : List Document)
    (content : String) :
    (Piece.text (depth + 1) content).Opens e (.awaited content :: .output call docs :: outer)
      (.output call docs :: outer) :=
  ⟨rfl, congrArg (· + 1) hdepth⟩

/-- A text that is scanned is open with its spans. -/
theorem advance_scanned {isRaw : String → Bool} {text : String} {spans : List Markup.Span}
    (hs : Markup.scan isRaw text = .ok spans) (outer : List (Level σ)) :
    advance isRaw (.awaited text :: outer) (.scanned text) = close (.text spans :: outer) := by
  rw [advance, hs]
  rfl

section Run

variable {e : Expander m σ} {source : String} {p : Progress σ}

/-- What follows a document that is to be expanded. -/
theorem Run.continues {depth : Nat} {d : Document} {evs more : List (Event σ)}
    {r r' : Except Failure String} (h : Run e source p (.text (depth + 1) d.content) evs r)
    (hmore : r = .error (.tooDeep e.maxDepth) → more = [] ∧ r' = .error (.tooDeep e.maxDepth)) :
    Continues e r' depth d false (evs ++ more) := by
  cases h with
  | plain hplain =>
      refine ⟨fun _ => ⟨more, rfl⟩, ?_, ?_⟩ <;>
        · intro _ hmarker
          cases hplain.symm.trans hmarker
  | tooDeep hmarker hd =>
      obtain ⟨rfl, hr'⟩ := hmore rfl
      refine ⟨?_, fun _ _ hlt => absurd hd (by omega), fun _ _ _ => ⟨rfl, hr'⟩⟩
      intro haccepted
      rcases haccepted with hraw | hplain
      · cases hraw
      · cases hplain.symm.trans hmarker
  | malformed hmarker hd _ | scanned hmarker hd _ _ =>
      refine ⟨?_, fun _ _ _ => ⟨_, rfl⟩, fun _ _ heq => absurd hd (by omega)⟩
      intro haccepted
      rcases haccepted with hraw | hplain
      · cases hraw
      · cases hplain.symm.trans hmarker

/-- An execution for the next tag of a text is due, and opens its output. -/
theorem Executes.due {depth : Nat} {tag : Markup.Tag} {entry : Entry σ} {call : Call σ}
    (hx : Executes e source p depth tag entry call) {outer : List (Level σ)}
    (hdepth : depth = (producers outer).length) (hle : depth ≤ e.maxDepth)
    (left : List Markup.Span) (r : Except Failure String) :
    AllDue e r (.text (.tag tag :: left) :: outer) (called p entry call) ∧
      advanceAll e.registry.isRaw (.text (.tag tag :: left) :: outer) (called p entry call) =
        close (.output call call.docs :: .text left :: outer) := by
  have hdue (after : List (Event σ)) :
      Due e r (.text (.tag tag :: left) :: outer) after (.executed call) := by
    refine ⟨tag, left, outer, rfl, hx.tagName, ?_⟩
    rw [hx.invocation]
    exact ⟨rfl, rfl, hdepth, hle⟩
  rcases called_cases p entry call with ⟨-, -, hcall⟩ | ⟨-, -, hcall⟩
  · rw [hcall]
    exact ⟨.cons (hdue _) .nil, rfl⟩
  · rw [hcall]
    exact ⟨.cons trivial (.cons (hdue _) .nil), rfl⟩

/-- What an execution has put out is open behind it. -/
theorem Executes.opens {depth : Nat} {tag : Markup.Tag} {entry : Entry σ} {call : Call σ}
    (hx : Executes e source p depth tag entry call) {output : Output}
    (hr : call.result = .ok output) {outer : List (Level σ)}
    (hdepth : depth = (producers outer).length) (hle : depth ≤ e.maxDepth)
    (left : List Markup.Span) :
    (Piece.output depth tag.name (entry.kind == .raw || output.isRaw) output.docs).Opens e
      (close (.output call call.docs :: .text left :: outer)) (.text left :: outer) := by
  refine ⟨call, ?_, hdepth, hle, hx.tagName, ?_, ?_⟩
  · rw [Call.docs, hr]
  · rw [Call.isExempt, hr, hx.tagName, Registry.isRaw_eq hx.resolves]
  · rw [hx.invocation]
    rfl

/-- **Every event of a run is due where it stands**; and a run that succeeds leaves
    nothing open but what was open around it. -/
theorem Run.due {piece : Piece} {evs : List (Event σ)} {r : Except Failure String}
    (h : Run e source p piece evs r) {levels outer : List (Level σ)}
    (hopens : piece.Opens e levels outer) :
    AllDue e r levels evs ∧
      ∀ text, r = .ok text → advanceAll e.registry.isRaw levels evs = close outer := by
  -- the levels are those of the piece, and its events lead from one piece to the next
  induction h generalizing levels outer with
  | plain _ =>
      obtain ⟨rfl, -⟩ := hopens
      exact ⟨.cons ⟨outer, .inl rfl⟩ .nil, fun _ _ => rfl⟩
  | tooDeep _ _ => exact ⟨.nil, nofun⟩
  | malformed _ _ _ =>
      obtain ⟨rfl, -⟩ := hopens
      exact ⟨.cons ⟨outer, rfl⟩ .nil, nofun⟩
  | @scanned p depth text spans evs r _ hd hs _ ih =>
      obtain ⟨rfl, hdepth⟩ := hopens
      obtain ⟨hdue, hclose⟩ := ih ⟨advance_scanned hs outer, hdepth, hd⟩
      exact ⟨.cons ⟨outer, rfl⟩ hdue, hclose⟩
  | finished =>
      obtain ⟨rfl, -, -⟩ := hopens
      exact ⟨.nil, fun _ _ => rfl⟩
  | @literal p depth text spans evs r _ ih =>
      obtain ⟨rfl, hdepth, hle⟩ := hopens
      obtain ⟨hdue, hclose⟩ := ih ⟨rfl, hdepth, hle⟩
      refine ⟨.cons ⟨outer, .inr ⟨spans, rfl⟩⟩ (hdue.imp fun hr => by rw [hr]; rfl),
        fun text hr => ?_⟩
      obtain ⟨rest, hrest, -⟩ := exists_of_map_eq_ok hr
      exact hclose rest hrest
  | refused h =>
      obtain ⟨rfl, hdepth, hle⟩ := hopens
      cases h with
      | stopped _ | unknown _ _ => exact ⟨.nil, nofun⟩
      | failed hx _ => exact ⟨(hx.due hdepth hle _ _).1, nofun⟩
  | @cut p depth tag spans evs evs' output kind failure h _ ih =>
      obtain ⟨rfl, hdepth, hle⟩ := hopens
      cases h with
      | executed hx hr =>
          obtain ⟨hdue, hadvance⟩ := hx.due hdepth hle spans (.ok "")
          refine ⟨hdue.append ?_, nofun⟩
          rw [hadvance]
          exact (ih (hx.opens hr hdepth hle spans)).1
  | @tag p depth tag spans evs evs' evs'' output kind text r h _ _ iho ihw =>
      obtain ⟨rfl, hdepth, hle⟩ := hopens
      cases h with
      | executed hx hr =>
          obtain ⟨hdue, hadvance⟩ := hx.due hdepth hle spans (.ok "")
          obtain ⟨hdueOutput, hclosed⟩ := iho (hx.opens hr hdepth hle spans)
          have hbehind := hclosed _ rfl
          rw [← hadvance, ← advanceAll_append] at hbehind
          obtain ⟨hdueRest, hclosedRest⟩ := ihw ⟨hbehind, hdepth, hle⟩
          rw [← hadvance] at hdueOutput
          refine ⟨((hdue.append hdueOutput).append hdueRest).imp ?_, fun text hr => ?_⟩
          · intro hr
            rw [hr]
            rfl
          · obtain ⟨rest, hrest, -⟩ := exists_of_map_eq_ok hr
            rw [advanceAll_append]
            exact hclosedRest rest hrest
  | nothing =>
      obtain ⟨call, rfl, -⟩ := hopens
      exact ⟨.nil, fun _ _ => rfl⟩
  | @exempt p depth tagName d docs evs r _ ih =>
      obtain ⟨call, rfl, hdepth, hle, hname, hraw, hcall⟩ := hopens
      obtain ⟨hdue, hclosed⟩ := ih ⟨call, rfl, hdepth, hle, hname, hraw, hcall⟩
      have hnext : Due e (r.map (d.content ++ ·)) (.output call (d :: docs) :: outer)
          (.spliced d.content :: evs) (.emitted tagName d true) :=
        ⟨call, docs, outer, rfl, hname, hraw, hcall.trans hdepth, hcall ▸ hle,
          fun _ => ⟨evs, rfl⟩, nofun, nofun⟩
      have hspliced : Due e (r.map (d.content ++ ·))
          (.awaited d.content :: .output call docs :: outer) evs (.spliced d.content) :=
        ⟨_, .inl rfl⟩
      refine ⟨.cons hnext (.cons hspliced (hdue.imp fun hr => by rw [hr]; rfl)),
        fun text hr => ?_⟩
      obtain ⟨rest, hrest, -⟩ := exists_of_map_eq_ok hr
      exact hclosed rest hrest
  | @broken p depth tagName d docs evs failure h ih =>
      obtain ⟨call, rfl, hdepth, hle, hname, hraw, hcall⟩ := hopens
      have hopens := Piece.opens_content e hdepth call docs d.content
      obtain ⟨hdue, -⟩ := ih hopens
      have hnext : Continues e (.error (failure.inOutputOf tagName) : Except Failure String) depth d
          false (evs ++ []) := by
        refine h.continues fun hr => ?_
        cases hr
        exact ⟨rfl, rfl⟩
      rw [List.append_nil] at hnext
      refine ⟨.cons ⟨call, docs, outer, rfl, hname, hraw, hcall.trans hdepth, hcall ▸ hle,
        hcall ▸ hnext⟩ (hdue.imp fun hr => ?_), nofun⟩
      cases hr
      rfl
  | @document p depth tagName d docs evs evs' text r h _ ih ihd =>
      obtain ⟨call, rfl, hdepth, hle, hname, hraw, hcall⟩ := hopens
      have hopens := Piece.opens_content e hdepth call docs d.content
      obtain ⟨hdue, hclosed⟩ := ih hopens
      have hbehind := hclosed text rfl
      obtain ⟨hdueRest, hclosedRest⟩ := ihd ⟨call, hbehind, hdepth, hle, hname, hraw, hcall⟩
      have hnext : Continues e (r.map (text ++ ·)) depth d false (evs ++ evs') := h.continues nofun
      refine ⟨.cons ⟨call, docs, outer, rfl, hname, hraw, hcall.trans hdepth, hcall ▸ hle,
        hcall ▸ hnext⟩ ((hdue.append hdueRest).imp fun hr => by rw [hr]; rfl), fun text' hr => ?_⟩
      obtain ⟨rest, hrest, -⟩ := exists_of_map_eq_ok hr
      show advanceAll _ (.awaited d.content :: .output call docs :: outer) (evs ++ evs') = _
      rw [advanceAll_append]
      exact hclosedRest rest hrest

/-- A failure behind other work is the failure of that work. -/
theorem eq_error_of_map {r : Except Failure α} {f : α → β} {failure : Failure}
    (h : r.map f = .error failure) : r = .error failure := by
  cases r with
  | error failure' =>
      cases h
      rfl
  | ok a => cases h

/-- Being in the output of a tag is told of malformed markers only. -/
theorem eq_tooDeep_of_inOutputOf {tagName : String} {failure : Failure} {limit : Nat}
    (h : failure.inOutputOf tagName = .tooDeep limit) : failure = .tooDeep limit := by
  cases failure with
  | malformed cause producer => cases producer <;> cases h
  | _ => exact h

theorem Invoked.ne_tooDeep {depth : Nat} {tag : Markup.Tag} {evs : List (Event σ)} {limit : Nat} :
    ¬Invoked e source p depth tag evs (.error (.tooDeep limit)) := by
  intro h
  generalize hf : Failure.tooDeep limit = failure at h
  cases h with
  | stopped _ | unknown _ _ => cases hf
  | @failed entry call fault _ _ => cases fault <;> cases hf

/-- The last event is that a document was put out to be expanded. -/
def EndsInOutput (evs : List (Event σ)) : Prop :=
  ∃ before tagName d, evs = before ++ [.emitted tagName d false]

theorem EndsInOutput.behind {evs' : List (Event σ)} (h : EndsInOutput evs')
    (evs : List (Event σ)) : EndsInOutput (evs ++ evs') := by
  obtain ⟨before, tagName, d, rfl⟩ := h
  exact ⟨evs ++ before, tagName, d, (List.append_assoc _ _ _).symm⟩

/-- The piece of work is not a text beyond the limit. -/
def Piece.Within (e : Expander m σ) : Piece → Prop
  | .text depth _ => depth ≤ e.maxDepth
  | .spans _ _ | .output _ _ _ _ => True

/-- Beyond the limit, nothing is done about a text. -/
theorem Run.of_lt {depth : Nat} {text : String} {evs : List (Event σ)} {limit : Nat}
    (h : Run e source p (.text depth text) evs (.error (.tooDeep limit)))
    (hdepth : e.maxDepth < depth) : limit = e.maxDepth ∧ evs = [] := by
  cases h with
  | tooDeep _ _ => exact ⟨rfl, rfl⟩
  | scanned _ hle _ _ => exact absurd hdepth (Nat.not_lt.2 hle)

/-- **A run ends at the limit where a document was put out.** -/
theorem Run.endsInOutput {piece : Piece} {evs : List (Event σ)} {r : Except Failure String}
    (h : Run e source p piece evs r) (hpiece : piece.Within e) {limit : Nat}
    (hr : r = .error (.tooDeep limit)) : limit = e.maxDepth ∧ EndsInOutput evs := by
  -- the failure comes from the last part of the run, down to the document
  induction h with
  | plain _ | malformed _ _ _ | finished | nothing => cases hr
  | tooDeep _ hd => exact absurd hpiece (Nat.not_le.2 hd)
  | scanned _ _ _ _ ih => exact (ih trivial hr).imp_right fun h => h.behind [_]
  | literal _ ih => exact (ih trivial (eq_error_of_map hr)).imp_right fun h => h.behind [_]
  | refused h =>
      cases hr
      exact absurd h Invoked.ne_tooDeep
  | cut _ _ ih => exact (ih trivial hr).imp_right fun h => h.behind _
  | tag _ _ _ _ ih => exact (ih trivial (eq_error_of_map hr)).imp_right fun h => h.behind _
  | exempt _ ih => exact (ih trivial (eq_error_of_map hr)).imp_right fun h => h.behind [_, _]
  | @broken p depth tagName d docs evs failure h ih =>
      have hfailure := eq_tooDeep_of_inOutputOf (Except.error.inj hr)
      subst hfailure
      by_cases hdepth : depth + 1 ≤ e.maxDepth
      · exact (ih hdepth rfl).imp_right fun h => h.behind [_]
      -- the text is beyond the limit, so its document is the last event
      · obtain ⟨rfl, rfl⟩ := h.of_lt (Nat.not_le.1 hdepth)
        exact ⟨rfl, [], tagName, d, rfl⟩
  | document _ _ _ ih => exact (ih trivial (eq_error_of_map hr)).imp_right fun h => h.behind _

end Run

/-! ## §5. Passes. -/

/-- Documents at the limit, by what is open in front of the last event. -/
theorem AllDue.tooDeep_iff {e : Expander m σ} {source : String} {r : Except Failure α}
    {evs : List (Event σ)} (hdue : AllDue e r [.awaited source] evs)
    (hends : ∀ limit, r = .error (.tooDeep limit) → limit = e.maxDepth ∧ EndsInOutput evs)
    (limit : Nat) :
    r = .error (.tooDeep limit) ↔ limit = e.maxDepth ∧
      ∃ before tagName d call left outer, evs = before ++ [.emitted tagName d false] ∧
        opened e.registry.isRaw source before = .output call (d :: left) :: outer ∧
        call.invocation.context.depth = e.maxDepth ∧
        Markup.containsMarker d.content = true := by
  constructor
  · intro hr
    obtain ⟨rfl, before, tagName, d, rfl⟩ := hends limit hr
    obtain ⟨call, left, outer, hopened, -, -, -, hle, hnext⟩ := hdue before _ [] rfl
    -- nothing follows, so the text was neither put into the result nor scanned
    have hmarker : Markup.containsMarker d.content = true := by
      rw [← Bool.not_eq_false]
      intro hplain
      obtain ⟨rest, hrest⟩ := hnext.accepted (.inr hplain)
      cases hrest
    have hlimit : ¬call.invocation.context.depth < e.maxDepth := by
      intro hlt
      obtain ⟨rest, hrest⟩ := hnext.scanned rfl hmarker hlt
      cases hrest
    exact ⟨rfl, before, tagName, d, call, left, outer, rfl, hopened, by omega, hmarker⟩
  · rintro ⟨rfl, before, tagName, d, call, left, outer, rfl, hopened, hdepth, hmarker⟩
    obtain ⟨call', left', outer', hopened', -, -, -, -, hnext⟩ := hdue before _ [] rfl
    have hsame := hopened.symm.trans hopened'
    injection hsame with hlevel _
    injection hlevel with hcall _
    subst hcall
    exact (hnext.tooDeep rfl hmarker hdepth).2

/-- **Depth and limit of nesting.**
    * Whatever the handlers put out, the recursion comes to an end: without a count of
      levels it has one solution, and a pass is this solution for its document.
    * Every event of a pass until it ends is due where it stands.  A handler is executed
      for the next tag of the innermost text that is open; the depth that it is told is
      the number of outputs that are open around the tag, and never above the limit.
      A document that is put out is the next one of the innermost open output.  Its text
      is put into the result if it is exempt or has no markers, at any depth.
    * The pass fails because of the limit exactly if its last event is that a document
      with markers, which is not exempt, was put out by a tag at the limit. -/
theorem process_nesting [Monad m] [LawfulMonad m] (e : Expander m σ) (document : Document)
    (signal : StopSignal) :
    (∀ f : Nat → Inner m σ,
      (∀ depth text p, f depth text p = expandStep e document.content f depth text p) ↔
        f = expandAt e document.content) ∧
    e.process document signal = (fun s => outcomeOf s.2 s.1) <$>
      expandAt e document.content 0 document.content (.start document.metadata signal) ∧
    Always (fun o => ∃ evs ends, o.events = evs ++ ends ∧
        (∀ ev ∈ ends, ∃ name state, ev = .disposed name state) ∧
        (∀ before ev after, evs = before ++ ev :: after →
          Due e o.result (opened e.registry.isRaw document.content before) after ev) ∧
        ∀ limit, o.result = .error (.tooDeep limit) ↔ limit = e.maxDepth ∧
          ∃ before tagName d call left outer, evs = before ++ [.emitted tagName d false] ∧
            opened e.registry.isRaw document.content before =
              .output call (d :: left) :: outer ∧
            call.invocation.context.depth = e.maxDepth ∧
            Markup.containsMarker d.content = true)
      (e.process document signal) := by
  refine ⟨eq_expandAt_iff e document.content, ?_, ?_⟩
  · rw [← bind_pure_comp]
    rfl
  · refine (always_process e document signal).mono ?_
    intro o ho
    obtain ⟨evs, r, hrun, rfl⟩ := ho
    have hopens : (Piece.text 0 document.content).Opens e [.awaited document.content] [] :=
      ⟨rfl, rfl⟩
    have hdue : AllDue e (outcomeOf ((Progress.start document.metadata signal).replay evs) r).result
        [.awaited document.content] evs := (hrun.due hopens).1.imp fun hr => by
      rw [hr]
      rfl
    refine ⟨evs, _, events_outcomeOf _ _ _ _, fun _ => eq_disposed_of_mem, hdue,
      hdue.tooDeep_iff fun limit hr => ?_⟩
    exact hrun.endsInOutput (Nat.zero_le _) (eq_error_of_map hr)

/-- Under the limit 1, a tag that puts out itself is executed twice; then the pass ends
    where its text is put out again. -/
theorem process_nesting_self :
    let o := ((selfReference 1).process (.ofContent "<?# Self /?>") .clear).run
    o.result = .error (.tooDeep 1) ∧
      ∃ before tagName d ends, o.events = before ++ .emitted tagName d false :: ends ∧
        Markup.containsMarker d.content = true ∧
        ∀ ev ∈ ends, ∃ name state, ev = .disposed name state := by
  have hdeep : (((selfReference 1).process (.ofContent "<?# Self /?>") .clear).run).result =
      .error (.tooDeep 1) := by
    rw [← Outcome.failure?_eq_some_iff]
    decide +kernel
  refine ⟨hdeep, ?_⟩
  obtain ⟨evs, ends, hevents, hends, -, hlimit⟩ := always_id_iff.1
    (process_nesting (selfReference 1) (.ofContent "<?# Self /?>") .clear).2.2
  obtain ⟨-, before, tagName, d, call, left, outer, rfl, -, -, hmarker⟩ := (hlimit 1).1 hdeep
  exact ⟨before, tagName, d, ends, by rw [hevents, List.append_assoc]; rfl, hmarker, hends⟩

end TagExpander.Pass
