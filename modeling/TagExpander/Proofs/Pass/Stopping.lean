/-
  TagExpander.Proofs.Pass.Stopping — what becomes of a pass that is asked to stop.

  A pass can be asked to stop before it starts, or by an execution at any depth.  From
  there on no handler is executed any more, and the work that is left is gone through
  in its order up to the first obstacle:

      executed ⚑ · emitted d · spliced … · scanned … · ‹a tag›         stopped
                                         · scanned … (malformed)       malformed
                                         ‹too deep›                    too deep
                                         ‹the end›                     a document

  What is left is what is open at that place, so the result of the pass can be read off
  from it.

  Main results:
    * `Run.blocked` — work that is started behind the request.
    * `Run.stops` — work in the course of which the request is made.
    * `Run.stopsAt` — what becomes of a run, at the place of the request.
    * `process_stops` — what becomes of the pass.
-/
import TagExpander.Proofs.Markup.Plain
import TagExpander.Proofs.Pass.LifeCycle
import TagExpander.Proofs.Pass.Nesting

namespace TagExpander

/-! ## §1. Texts with tags. -/

/-- Is the span a tag? -/
def Markup.Span.isTag : Markup.Span → Bool
  | .tag _ => true
  | .literal _ => false

/-- A text with markers that scans has a tag. -/
theorem Markup.any_isTag_of_containsMarker {isRaw : String → Bool} {text : String}
    {spans : List Markup.Span} (hmarker : Markup.containsMarker text = true)
    (hs : Markup.scan isRaw text = .ok spans) : spans.any Markup.Span.isTag = true := by
  obtain ⟨content, ⟨stop, hcontent, hend⟩, rfl⟩ := Markup.scan_eq_ok_iff_derives.1 hs
  cases hcontent with
  | text =>
      -- literal text up to the end has no marker in it
      cases hseek : (Markup.Cursor.start text.toList).seek with
      | none =>
          rw [Markup.containsMarker, Option.isSome_iff_ne_none] at hmarker
          exact absurd (Option.map_eq_none_iff.1 hseek) hmarker
      | some mark =>
          rw [Markup.Cursor.ahead_of_some hseek] at hend
          exact absurd hend (Markup.Cursor.rest_ne_nil_of_seek hseek)
  | single _ _ _ _ | raw _ _ _ _ _ _ | paired _ _ _ _ _ _ _ =>
      rw [Markup.Content.spans, List.any_append, List.any_cons]
      exact Bool.or_true _

namespace Pass

variable {m : Type → Type} {σ α : Type}

/-! ## §2. Obstacles. -/

/-- The failure of a piece of work, if it fails. -/
def failureOf : Except Failure α → Option Failure
  | .ok _ => none
  | .error failure => some failure

/-- What stands in the way of expanding a text at a depth, where no handler may be
    executed. -/
def textObstacle (e : Expander m σ) (depth : Nat) (text : String) : Option Failure :=
  if Markup.containsMarker text then
    if e.maxDepth < depth then some (.tooDeep e.maxDepth)
    else
      match Markup.scan e.registry.isRaw text with
      | .error cause => some (.malformed cause none)
      | .ok _ => some .stopped
  else none

/-- What stands in the way of a piece of work, where no handler may be executed. -/
def Piece.obstacle (e : Expander m σ) : Piece → Option Failure
  | .text depth content => textObstacle e depth content
  | .spans _ found => if found.any Markup.Span.isTag then some .stopped else none
  | .output depth tagName raw docs =>
    if raw then none
    else docs.findSome? fun d => (textObstacle e (depth + 1) d.content).map (·.inOutputOf tagName)

/-- Something that a pass has still to come to. -/
inductive Pending (σ : Type) where
  /-- A tag of a text that was scanned. -/
  | tag (tag : Markup.Tag)
  /-- A text that is to be expanded, in the output of these executions, the innermost
      first. -/
  | text (content : String) (around : List (Call σ))

/-- A failure, as it is told around the output in which it comes up. -/
def toldAround (around : List (Call σ)) (failure : Failure) : Failure :=
  around.foldl (fun failure call => failure.inOutputOf call.tagName) failure

/-- What it is an obstacle for, where no handler may be executed: a tag ends the pass, and
    so does a text in which there is a tag, or that cannot be expanded. -/
def Pending.obstacle (e : Expander m σ) : Pending σ → Option Failure
  | .tag _ => some .stopped
  | .text content around => (textObstacle e around.length content).map (toldAround around)

/-- Is the text that comes next taken as it is? -/
def takesNext (registry : Registry σ) : List (Level σ) → Bool
  | .output call _ :: _ => call.isExempt registry
  | .awaited _ :: _ | .text _ :: _ | [] => false

/-- What a pass has still to come to where these levels are open, in its order.  Exempt
    texts are taken as they are, so nothing in them is pending. -/
def pending (registry : Registry σ) : List (Level σ) → List (Pending σ)
  | [] => []
  | .awaited content :: outer =>
    (if takesNext registry outer then [] else [.text content (producers outer)]) ++
      pending registry outer
  | .text left :: outer =>
    left.filterMap (fun
      | .tag tag => some (.tag tag)
      | .literal _ => none) ++ pending registry outer
  | .output call left :: outer =>
    (if call.isExempt registry then []
      else left.map fun d => .text d.content (call :: producers outer)) ++ pending registry outer

/-- The first obstacle where these levels are open. -/
def firstObstacle (e : Expander m σ) (levels : List (Level σ)) : Option Failure :=
  (pending e.registry levels).findSome? (·.obstacle e)

section Obstacle

variable {e : Expander m σ} {levels outer : List (Level σ)}

theorem failureOf_map {β : Type} (r : Except Failure α) (f : α → β) :
    failureOf (r.map f) = failureOf r := by
  cases r <;> rfl

theorem failureOf_eq_some_iff {r : Except Failure α} {failure : Failure} :
    failureOf r = some failure ↔ r = .error failure := by
  cases r <;> simp [failureOf]

/-- What is finished is no obstacle. -/
theorem firstObstacle_close (levels : List (Level σ)) :
    firstObstacle e (close levels) = firstObstacle e levels := by
  induction levels with
  | nil => rfl
  | cons level levels ih =>
      by_cases hfinished : level.isFinished = true
      · have hclose : close (level :: levels) = close levels := List.dropWhile_cons_of_pos hfinished
        have hpending : pending e.registry (level :: levels) = pending e.registry levels := by
          cases level with
          | awaited _ => cases hfinished
          | text left =>
              cases left with
              | nil => rfl
              | cons _ _ => cases hfinished
          | output call left =>
              cases left with
              | nil =>
                  rw [pending, List.map_nil]
                  split <;> rfl
              | cons _ _ => cases hfinished
        rw [hclose, ih, firstObstacle, firstObstacle, hpending]
      · rw [show close (level :: levels) = level :: levels from
          List.dropWhile_cons_of_neg hfinished]

/-- A failure that no output is named with is told as it is. -/
theorem toldAround_eq_self {failure : Failure} (h : ∀ name, failure.inOutputOf name = failure)
    (around : List (Call σ)) : toldAround around failure = failure := by
  induction around with
  | nil => rfl
  | cons call around ih =>
      show toldAround around (failure.inOutputOf call.tagName) = failure
      rw [h, ih]

/-- That the pass was asked to stop is told as it is. -/
theorem toldAround_stopped (around : List (Call σ)) : toldAround around .stopped = .stopped :=
  toldAround_eq_self (fun _ => rfl) around

/-- Where the spans of a text are left, its first tag is the obstacle. -/
theorem firstObstacle_text (left : List Markup.Span) (outer : List (Level σ)) :
    firstObstacle e (.text left :: outer) =
      (if left.any Markup.Span.isTag then some .stopped else none).or (firstObstacle e outer) := by
  induction left with
  | nil => rfl
  | cons span left ih =>
      cases span with
      | literal text => exact ih
      | tag tag => rfl

/-- Where documents of an execution are left, the obstacle is in the first of them that
    cannot be expanded. -/
theorem firstObstacle_output (call : Call σ) (depth : Nat) (left : List Document)
    (outer : List (Level σ)) (hdepth : depth = (producers outer).length) :
    firstObstacle e (.output call left :: outer) =
      (((Piece.output depth call.tagName (call.isExempt e.registry) left).obstacle e).map
        (toldAround (producers outer))).or (firstObstacle e outer) := by
  rw [firstObstacle, pending, List.findSome?_append, Piece.obstacle]
  congr 1
  split
  · rfl
  · rw [List.findSome?_map, List.map_findSome?, hdepth]
    congr 1
    funext d
    show Option.map _ _ = Option.map _ (Option.map _ _)
    rw [Option.map_map]
    rfl

end Obstacle

/-! ## §3. Runs. -/

/-- Events that no handler has a part in leave the signal as it is. -/
theorem lastSignal_of_inert {signal : StopSignal} {evs : List (Event σ)}
    (h : ∀ ev ∈ evs, ev.isInert = true) : lastSignal signal evs = signal := by
  induction evs with
  | nil => rfl
  | cons ev evs ih =>
      rw [List.forall_mem_cons] at h
      cases ev with
      | scanned _ | emitted _ _ _ | spliced _ => exact ih h.2
      | created _ _ | executed _ | disposed _ _ => cases h.1

section Run

variable {e : Expander m σ} {source : String} {p : Progress σ}

/-- Where the signal was raised, no tag is handed to a handler. -/
theorem Invoked.of_raised (hs : p.signal.isRaised = true) {depth : Nat} {tag : Markup.Tag}
    {evs : List (Event σ)} {r : Except Failure (Output × Kind)}
    (h : Invoked e source p depth tag evs r) : evs = [] ∧ r = .error .stopped := by
  cases h with
  | stopped _ => exact ⟨rfl, rfl⟩
  | unknown hrunning _ => cases hrunning.symm.trans hs
  | failed hx _ | executed hx _ => cases hx.running.symm.trans hs

/-- **Work that is started behind the request** executes no handler, and ends at its first
    obstacle. -/
theorem Run.blocked {piece : Piece} {evs : List (Event σ)} {r : Except Failure String}
    (h : Run e source p piece evs r) (hs : p.signal.isRaised = true) :
    (∀ ev ∈ evs, ev.isInert = true) ∧ failureOf r = piece.obstacle e := by
  -- the first tag is the end, so all that is done in front of it are scans and literals
  induction h with
  | plain hplain =>
      refine ⟨List.forall_mem_singleton.2 rfl, ?_⟩
      rw [Piece.obstacle, textObstacle, if_neg (ne_true_of_eq_false hplain)]
      rfl
  | tooDeep hmarker hd =>
      refine ⟨List.forall_mem_nil _, ?_⟩
      rw [Piece.obstacle, textObstacle, if_pos hmarker, if_pos hd]
      rfl
  | malformed hmarker hd hscan =>
      refine ⟨List.forall_mem_singleton.2 rfl, ?_⟩
      rw [Piece.obstacle, textObstacle, if_pos hmarker, if_neg (Nat.not_lt.2 hd), hscan]
      rfl
  | scanned hmarker hd hscan _ ih =>
      obtain ⟨hinert, hfailure⟩ := ih hs
      refine ⟨List.forall_mem_cons.2 ⟨rfl, hinert⟩, ?_⟩
      rw [hfailure, Piece.obstacle, Piece.obstacle, textObstacle, if_pos hmarker,
        if_neg (Nat.not_lt.2 hd), hscan, if_pos (Markup.any_isTag_of_containsMarker hmarker hscan)]
  | finished | nothing => exact ⟨List.forall_mem_nil _, by rw [Piece.obstacle]; simp [failureOf]⟩
  | literal _ ih =>
      obtain ⟨hinert, hfailure⟩ := ih hs
      rw [failureOf_map]
      exact ⟨List.forall_mem_cons.2 ⟨rfl, hinert⟩, hfailure⟩
  | refused h =>
      obtain ⟨rfl, hr⟩ := h.of_raised hs
      cases hr
      exact ⟨List.forall_mem_nil _, rfl⟩
  | cut h _ _ | tag h _ _ _ _ => cases (h.of_raised hs).2
  | exempt _ ih =>
      obtain ⟨hinert, hfailure⟩ := ih hs
      rw [failureOf_map]
      exact ⟨List.forall_mem_cons.2 ⟨rfl, List.forall_mem_cons.2 ⟨rfl, hinert⟩⟩, hfailure⟩
  | broken _ ih =>
      obtain ⟨hinert, hfailure⟩ := ih hs
      refine ⟨List.forall_mem_cons.2 ⟨rfl, hinert⟩, ?_⟩
      rw [Piece.obstacle] at hfailure
      rw [Piece.obstacle, if_neg Bool.false_ne_true, List.findSome?_cons, ← hfailure]
      rfl
  | @document p depth tagName d docs evs _ _ _ _ _ ih ihd =>
      obtain ⟨hinert, hfailure⟩ := ih hs
      have hdocument : ∀ ev ∈ .emitted tagName d false :: evs, ev.isInert = true :=
        List.forall_mem_cons.2 ⟨rfl, hinert⟩
      have hraised : (p.replay (.emitted tagName d false :: evs)).signal.isRaised = true := by
        rw [Progress.signal_replay, lastSignal_of_inert hdocument]
        exact hs
      obtain ⟨hinertRest, hfailureRest⟩ := ihd hraised
      refine ⟨List.forall_mem_append.2 ⟨hdocument, hinertRest⟩, ?_⟩
      rw [Piece.obstacle] at hfailure
      rw [failureOf_map, hfailureRest, Piece.obstacle, Piece.obstacle, if_neg Bool.false_ne_true,
        if_neg Bool.false_ne_true, List.findSome?_cons, ← hfailure]
      rfl

/-- Work on what is open, started behind the request, ends at the first obstacle in it. -/
theorem Run.blocked_spans {depth : Nat} {left : List Markup.Span} {evs : List (Event σ)}
    {r : Except Failure String} (h : Run e source p (.spans depth left) evs r)
    (hs : p.signal.isRaised = true) (outer : List (Level σ)) :
    (∀ ev ∈ evs, ev.isInert = true) ∧ firstObstacle e (.text left :: outer) =
      ((failureOf r).map (toldAround (producers outer))).or (firstObstacle e outer) := by
  obtain ⟨hinert, hfailure⟩ := h.blocked hs
  refine ⟨hinert, ?_⟩
  rw [firstObstacle_text, hfailure, Piece.obstacle]
  congr 1
  split
  · exact congrArg some (toldAround_stopped _).symm
  · rfl

theorem Run.blocked_output {depth : Nat} {tagName : String} {raw : Bool} {docs : List Document}
    {evs : List (Event σ)} {r : Except Failure String}
    (h : Run e source p (.output depth tagName raw docs) evs r) (hs : p.signal.isRaised = true)
    {levels outer : List (Level σ)}
    (hopens : (Piece.output depth tagName raw docs).Opens e levels outer) :
    (∀ ev ∈ evs, ev.isInert = true) ∧ firstObstacle e levels =
      ((failureOf r).map (toldAround (producers outer))).or (firstObstacle e outer) := by
  obtain ⟨call, rfl, hdepth, -, rfl, rfl, -⟩ := hopens
  obtain ⟨hinert, hfailure⟩ := h.blocked hs
  refine ⟨hinert, ?_⟩
  rw [firstObstacle_close, firstObstacle_output call depth docs outer hdepth, hfailure]

/-- Where the request is made at the end of `done`: nothing is executed behind it, and the
    failure is the first obstacle in what is open there. -/
structure StopsBehind (e : Expander m σ) (levels outer : List (Level σ))
    (done after : List (Event σ)) (failure : Option Failure) : Prop where
  inert : ∀ ev ∈ after, ev.isInert = true
  obstacle : firstObstacle e (advanceAll e.registry.isRaw levels done) =
    (failure.map (toldAround (producers outer))).or (firstObstacle e outer)

section StopsBehind

variable {levels mid outer : List (Level σ)} {done after evs : List (Event σ)}
  {failure : Option Failure}

/-- The request may be made behind other work. -/
theorem StopsBehind.behind (evs : List (Event σ))
    (h : StopsBehind e (advanceAll e.registry.isRaw levels evs) outer done after failure) :
    StopsBehind e levels outer (evs ++ done) after failure where
  inert := h.inert
  obstacle := by
    rw [advanceAll_append]
    exact h.obstacle

/-- Behind work that has succeeded, other work comes to its own obstacle. -/
theorem StopsBehind.append (h : StopsBehind e levels mid done after none)
    (hevs : ∀ ev ∈ evs, ev.isInert = true)
    (hfirst : firstObstacle e mid =
      (failure.map (toldAround (producers outer))).or (firstObstacle e outer)) :
    StopsBehind e levels outer done (after ++ evs) failure where
  inert := List.forall_mem_append.2 ⟨h.inert, hevs⟩
  obstacle := h.obstacle.trans hfirst

end StopsBehind

/-- The signal behind an execution, and behind inert events that follow it. -/
theorem lastSignal_executed (signal : StopSignal) (earlier : List (Event σ)) (call : Call σ)
    {after : List (Event σ)} (h : ∀ ev ∈ after, ev.isInert = true) :
    lastSignal signal (earlier ++ .executed call :: after) = call.signal := by
  induction earlier generalizing signal with
  | nil => exact lastSignal_of_inert h
  | cons ev earlier ih => cases ev <;> exact ih _

/-- The request is made by the execution for a tag, or in the course of its output. -/
theorem Executes.stops {depth : Nat} {tag : Markup.Tag} {entry : Entry σ} {call call' : Call σ}
    (hx : Executes e source p depth tag entry call') {output : Output}
    (hr : call'.result = .ok output) {outer : List (Level σ)}
    (hdepth : depth = (producers outer).length) (hle : depth ≤ e.maxDepth)
    (left : List Markup.Span) {evs earlier after : List (Event σ)} {r : Except Failure String}
    (h : Run e source (p.replay (called p entry call'))
      (.output depth tag.name (entry.kind == .raw || output.isRaw) output.docs) evs r)
    (ih : ∀ {levels outer : List (Level σ)} {earlier after : List (Event σ)},
      (Piece.output depth tag.name (entry.kind == .raw || output.isRaw) output.docs).Opens e
        levels outer → evs = earlier ++ .executed call :: after →
      StopsBehind e levels outer (earlier ++ [.executed call]) after (failureOf r))
    (hplace : called p entry call' ++ evs = earlier ++ .executed call :: after)
    (hraised : call.signal.isRaised = true) :
    StopsBehind e (.text (.tag tag :: left) :: outer) (.text left :: outer)
      (earlier ++ [.executed call]) after (failureOf r) := by
  have hopens := hx.opens hr hdepth hle left
  obtain ⟨-, hadvance⟩ := hx.due hdepth hle left (.ok "")
  rcases append_eq_append_cons hplace with ⟨mid, hcalled, rfl⟩ | ⟨mid, rfl, hmid⟩
  · obtain ⟨rfl, rfl⟩ := called_eq_append_executed hcalled
    -- the execution is the last event of its own
    obtain ⟨-, rfl⟩ := List.cons.inj (List.append_cancel_left hcalled)
    have hsignal : (p.replay (called p entry call')).signal.isRaised = true := by
      rw [Progress.signal_replay, called, lastSignal_executed _ _ _ (List.forall_mem_nil _)]
      exact hraised
    obtain ⟨hinert, hfirst⟩ := h.blocked_output hsignal hopens
    exact ⟨hinert, (congrArg (firstObstacle e) hadvance).trans hfirst⟩
  · rw [List.append_assoc]
    refine StopsBehind.behind _ ?_
    rw [hadvance]
    exact ih hopens hmid

/-- **Work in the course of which the request is made** executes no handler behind it, and
    ends at the first obstacle in what is open there. -/
theorem Run.stops {piece : Piece} {evs : List (Event σ)} {r : Except Failure String}
    (h : Run e source p piece evs r) {call : Call σ} (hraised : call.signal.isRaised = true)
    {output : Output} (hok : call.result = .ok output) {levels outer : List (Level σ)}
    {earlier after : List (Event σ)} (hopens : piece.Opens e levels outer)
    (hplace : evs = earlier ++ .executed call :: after) :
    StopsBehind e levels outer (earlier ++ [.executed call]) after (failureOf r) := by
  -- the request is made in one part of the work; what is behind this part is blocked
  induction h generalizing levels outer earlier after with
  | plain _ | malformed _ _ _ =>
      obtain ⟨-, hev, -⟩ := singleton_eq_append_cons hplace
      cases hev
  | tooDeep _ _ | finished | nothing => cases earlier <;> cases hplace
  | @scanned p depth text spans evs r _ hd hs _ ih =>
      obtain ⟨rfl, hdepth⟩ := hopens
      obtain ⟨rest, rfl, hrest⟩ := cons_eq_append_executed hplace rfl
      exact .behind [.scanned text] (ih ⟨advance_scanned hs outer, hdepth, hd⟩ hrest)
  | @literal p depth text spans evs r _ ih =>
      obtain ⟨rfl, hdepth, hle⟩ := hopens
      obtain ⟨rest, rfl, hrest⟩ := cons_eq_append_executed hplace rfl
      rw [failureOf_map]
      exact .behind [.spliced text] (ih ⟨rfl, hdepth, hle⟩ hrest)
  | refused h =>
      cases h with
      | stopped _ | unknown _ _ => cases earlier <;> cases hplace
      | failed _ hr =>
          obtain ⟨-, rfl⟩ := called_eq_append_executed hplace
          cases hr.symm.trans hok
  | @cut p depth tag spans evs evs' output kind failure h ho ih =>
      obtain ⟨rfl, hdepth, hle⟩ := hopens
      cases h with
      | executed hx hr =>
          have hstops := hx.stops hr hdepth hle spans ho ih hplace hraised
          exact ⟨hstops.inert, hstops.obstacle⟩
  | @tag p depth tag spans evs evs' evs'' output kind text r h ho hw iho ihw =>
      obtain ⟨rfl, hdepth, hle⟩ := hopens
      cases h with
      | @executed entry call' _ hx hr =>
          rw [failureOf_map]
          rcases append_eq_append_cons hplace with ⟨mid, hmid, rfl⟩ | ⟨mid, rfl, hmid⟩
          · have hstops := hx.stops hr hdepth hle spans ho iho hmid hraised
            have hsignal :
                (p.replay (called p entry call' ++ evs')).signal.isRaised = true := by
              rw [Progress.signal_replay, hmid, lastSignal_executed _ _ _ hstops.inert]
              exact hraised
            obtain ⟨hinert, hfirst⟩ := hw.blocked_spans hsignal outer
            exact hstops.append hinert hfirst
          · -- all that the tag has put out is done with when the request is made
            obtain ⟨-, hadvance⟩ := hx.due hdepth hle spans (.ok "")
            have hbehind := (ho.due (hx.opens hr hdepth hle spans)).2 _ rfl
            rw [← hadvance, ← advanceAll_append] at hbehind
            rw [List.append_assoc _ mid]
            exact .behind _ (ihw ⟨hbehind, hdepth, hle⟩ hmid)
  | @exempt p depth tagName d docs evs r _ ih =>
      obtain ⟨call', rfl, hdepth, hle, hname, hraw, hcall⟩ := hopens
      obtain ⟨_, rfl, hspliced⟩ := cons_eq_append_executed hplace rfl
      obtain ⟨rest, rfl, hrest⟩ := cons_eq_append_executed hspliced rfl
      rw [failureOf_map]
      exact .behind [.emitted tagName d true, .spliced d.content]
        (ih ⟨call', rfl, hdepth, hle, hname, hraw, hcall⟩ hrest)
  | @broken p depth tagName d docs evs failure h ih =>
      obtain ⟨call', rfl, hdepth, hle, rfl, hraw, hcall⟩ := hopens
      obtain ⟨rest, rfl, hrest⟩ := cons_eq_append_executed hplace rfl
      have hopens := Piece.opens_content e hdepth call' docs d.content
      have hstops := ih hopens hrest
      exact .behind [.emitted call'.tagName d false] ⟨hstops.inert, hstops.obstacle⟩
  | @document p depth tagName d docs evs evs' text r h hd ih ihd =>
      obtain ⟨call', rfl, hdepth, hle, hname, hraw, hcall⟩ := hopens
      have hopens := Piece.opens_content e hdepth call' docs d.content
      have hopensRest {levels : List (Level σ)}
          (hlevels : levels = close (.output call' docs :: outer)) :
          (Piece.output depth tagName false docs).Opens e levels outer :=
        ⟨call', hlevels, hdepth, hle, hname, hraw, hcall⟩
      rw [failureOf_map]
      rcases append_eq_append_cons hplace with ⟨mid, hmid, rfl⟩ | ⟨mid, rfl, hmid⟩
      · obtain ⟨rest, rfl, hrest⟩ := cons_eq_append_executed hmid rfl
        have hstops := ih hopens hrest
        have hsignal :
            (p.replay (.emitted tagName d false :: evs)).signal.isRaised = true := by
          rw [Progress.signal_replay, hmid, lastSignal_executed _ _ _ hstops.inert]
          exact hraised
        obtain ⟨hinert, hfirst⟩ := hd.blocked_output hsignal (hopensRest rfl)
        rw [firstObstacle_close] at hfirst
        exact .behind [.emitted tagName d false] (hstops.append hinert hfirst)
      · have hbehind := (h.due hopens).2 text rfl
        rw [List.append_assoc]
        exact .behind _ (ihd (hopensRest hbehind) hmid)

/-- Nothing happens behind an execution that fails. -/
theorem Run.eq_nil_of_failed {piece : Piece} {evs : List (Event σ)} {r : Except Failure String}
    (h : Run e source p piece evs r) {call : Call σ} {fault : HandlerFault}
    (hfault : call.result = .error fault) {earlier after : List (Event σ)}
    (hplace : evs = earlier ++ .executed call :: after) : after = [] := by
  -- the parts of the work that have succeeded have no such execution
  induction h generalizing earlier after with
  | plain _ | malformed _ _ _ =>
      obtain ⟨-, hev, -⟩ := singleton_eq_append_cons hplace
      cases hev
  | tooDeep _ _ | finished | nothing => cases earlier <;> cases hplace
  | scanned _ _ _ _ ih | literal _ ih | broken _ ih =>
      obtain ⟨rest, -, hrest⟩ := cons_eq_append_executed hplace rfl
      exact ih hrest
  | exempt _ ih =>
      obtain ⟨_, -, hspliced⟩ := cons_eq_append_executed hplace rfl
      obtain ⟨rest, -, hrest⟩ := cons_eq_append_executed hspliced rfl
      exact ih hrest
  | refused h =>
      cases h with
      | stopped _ | unknown _ _ => cases earlier <;> cases hplace
      | failed _ _ =>
          obtain ⟨rfl, rfl⟩ := called_eq_append_executed hplace
          exact (List.cons.inj (List.append_cancel_left hplace)).2.symm
  | cut h _ ih =>
      rcases append_eq_append_cons hplace with ⟨mid, hmid, rfl⟩ | ⟨mid, -, hmid⟩
      · cases h.result_of_failed (hmid ▸ List.mem_append_right _ List.mem_cons_self) hfault
      · exact ih hmid
  | tag h ho _ _ ihw =>
      rcases append_eq_append_cons hplace with ⟨mid, hmid, rfl⟩ | ⟨mid, -, hmid⟩
      · have hcall : Event.executed call ∈ _ ++ _ :=
          hmid ▸ List.mem_append_right _ List.mem_cons_self
        rcases List.mem_append.1 hcall with hcall | hcall
        · cases h.result_of_failed hcall hfault
        · cases ho.result_of_failed hcall hfault
      · exact ihw hmid
  | document h _ _ ihd =>
      rcases append_eq_append_cons hplace with ⟨mid, hmid, rfl⟩ | ⟨mid, -, hmid⟩
      · obtain ⟨rest, -, hrest⟩ := cons_eq_append_executed hmid rfl
        cases h.result_of_failed (hrest ▸ List.mem_append_right _ List.mem_cons_self) hfault
      · exact ihd hmid

end Run

/-! ## §4. Passes. -/

/-- The pass is asked to stop here: before it starts, or by the execution that has just
    been done. -/
inductive StopsAt (signal : StopSignal) : List (Event σ) → Prop where
  | start (h : signal.isRaised = true) : StopsAt signal []
  | execution (earlier : List (Event σ)) {call : Call σ} (h : call.signal.isRaised = true) :
      StopsAt signal (earlier ++ [.executed call])

/-- The failure of the execution that has just been done, if it has failed. -/
def lastFault (evs : List (Event σ)) : Option Failure :=
  match evs.getLast? with
  | some (.executed call) =>
    match call.result with
    | .error fault => some (.ofHandler call.tagName fault)
    | .ok _ => none
  | _ => none

section Kinds

variable {e : Expander m σ}

/-- Only a text without markers is no obstacle. -/
theorem textObstacle_eq_none {depth : Nat} {text : String} (h : textObstacle e depth text = none) :
    Markup.containsMarker text = false := by
  rw [← Bool.not_eq_true]
  intro hmarker
  rw [textObstacle, if_pos hmarker] at h
  split at h
  · cases h
  · split at h <;> cases h

theorem Pending.obstacle_eq_none {x : Pending σ} (h : x.obstacle e = none) :
    ∃ content around, x = .text content around ∧ Markup.containsMarker content = false := by
  cases x with
  | tag tag => cases h
  | text content around =>
      exact ⟨content, around, rfl, textObstacle_eq_none (Option.map_eq_none_iff.1 h)⟩

/-- The failures that an obstacle can be. -/
inductive Obstructs : Failure → Prop where
  | stopped : Obstructs .stopped
  | malformed (cause : Markup.Malformed) (producer : Option String) :
      Obstructs (.malformed cause producer)
  | tooDeep (limit : Nat) : Obstructs (.tooDeep limit)

theorem Obstructs.inOutputOf {failure : Failure} (h : Obstructs failure) (producer : String) :
    Obstructs (failure.inOutputOf producer) := by
  cases h with
  | stopped => exact .stopped
  | malformed cause producer => cases producer <;> exact .malformed _ _
  | tooDeep limit => exact .tooDeep limit

theorem Obstructs.toldAround {failure : Failure} (h : Obstructs failure) (around : List (Call σ)) :
    Obstructs (toldAround around failure) := by
  induction around generalizing failure with
  | nil => exact h
  | cons call around ih => exact ih (h.inOutputOf call.tagName)

theorem obstructs_of_textObstacle {depth : Nat} {text : String} {failure : Failure}
    (h : textObstacle e depth text = some failure) : Obstructs failure := by
  rw [textObstacle] at h
  split at h
  · split at h
    · cases h
      exact .tooDeep _
    · split at h <;> cases h
      · exact .malformed _ _
      · exact .stopped
  · cases h

theorem obstructs_of_firstObstacle {levels : List (Level σ)} {failure : Failure}
    (h : firstObstacle e levels = some failure) : Obstructs failure := by
  obtain ⟨x, -, hx⟩ := List.exists_of_findSome?_eq_some h
  cases x with
  | tag tag =>
      cases hx
      exact .stopped
  | text content around =>
      obtain ⟨failure, hfailure, rfl⟩ := Option.map_eq_some_iff.1 hx
      exact (obstructs_of_textObstacle hfailure).toldAround around

theorem lastFault_ne_unknown (evs : List (Event σ)) (name : String) :
    lastFault evs ≠ some (.unknown name) := by
  unfold lastFault
  split
  next call _ =>
    split
    next fault _ => cases fault <;> exact nofun
    · exact nofun
  · exact nofun

end Kinds

/-- What becomes of a run from the place where it is asked to stop. -/
theorem Run.stopsAt {e : Expander m σ} {document : Document} {signal : StopSignal}
    {evs before after : List (Event σ)} {r : Except Failure String}
    (h : Run e document.content (.start document.metadata signal) (.text 0 document.content) evs r)
    (hplace : evs = before ++ after) (hstop : StopsAt signal before) :
    (∀ ev ∈ after, ev.isInert = true) ∧
      failureOf r = (lastFault before).or
        (firstObstacle e (opened e.registry.isRaw document.content before)) := by
  cases hstop with
  | start hraised =>
      obtain ⟨hinert, hfailure⟩ := h.blocked hraised
      rw [hplace] at hinert
      refine ⟨hinert, hfailure.trans ?_⟩
      show textObstacle e 0 document.content =
        firstObstacle e [.awaited document.content]
      rw [firstObstacle]
      show _ = List.findSome? _ [Pending.text document.content []]
      rw [List.findSome?_singleton]
      exact Option.map_id'.symm
  | @execution earlier call hraised =>
      rw [List.append_assoc] at hplace
      have hlast : lastFault (earlier ++ [.executed call]) =
          match call.result with
          | .error fault => some (.ofHandler call.tagName fault)
          | .ok _ => none := by
        rw [lastFault, List.getLast?_concat]
      rw [hlast]
      cases hresult : call.result with
      | error fault =>
          obtain rfl := h.eq_nil_of_failed hresult hplace
          refine ⟨List.forall_mem_nil _, ?_⟩
          rw [h.result_of_failed (hplace ▸ List.mem_append_right _ List.mem_cons_self) hresult]
          rfl
      | ok output =>
          have hopens := Piece.opens_start e document.content
          have hstops := h.stops hraised hresult hopens hplace
          refine ⟨hstops.inert, ?_⟩
          rw [Option.none_or, opened, hstops.obstacle]
          show failureOf r = ((failureOf r).map (toldAround [])).or none
          rw [Option.or_none]
          exact Option.map_id'.symm

/-- What becomes of a pass that was asked to stop at the end of `before`, where `after` is
    what it still did. -/
structure Stopped (e : Expander m σ) (document : Document) (o : Outcome σ)
    (before after : List (Event σ)) : Prop where
  /-- No handler is created or executed any more. -/
  inert : ∀ ev ∈ after, ev.isInert = true
  /-- The instances are those that were created before. -/
  created : createdNames (before ++ after) = createdNames before
  /-- The failure is that of the execution which asked to stop, or else the first obstacle
      in what was open there. -/
  failure : failureOf o.result =
    (lastFault before).or (firstObstacle e (opened e.registry.isRaw document.content before))
  /-- The pass succeeds only if all that it had still to come to were texts without tags. -/
  succeeds : ∀ result, o.result = .ok result →
    ∀ x ∈ pending e.registry (opened e.registry.isRaw document.content before),
      ∃ content around, x = .text content around ∧ Markup.containsMarker content = false
  /-- Otherwise it tells that it was asked to stop, unless this execution failed itself, or
      a text in front of the next tag was malformed or beyond the limit. -/
  fails : ∀ failure, o.result = .error failure →
    lastFault before = some failure ∨ Obstructs failure
  /-- No name is looked up any more. -/
  known : ∀ name, o.result ≠ .error (.unknown name)

theorem createdNames_append_inert {before after : List (Event σ)}
    (h : ∀ ev ∈ after, ev.isInert = true) :
    createdNames (before ++ after) = createdNames before := by
  have hafter : createdNames after = [] := by
    refine List.filterMap_eq_nil_iff.2 fun ev hev => ?_
    cases ev with
    | created _ _ => cases h _ hev
    | scanned _ | executed _ | emitted _ _ _ | spliced _ | disposed _ _ => rfl
  rw [createdNames, List.filterMap_append]
  exact (congrArg _ hafter).trans (List.append_nil _)

theorem stopped_of_failure {e : Expander m σ} {document : Document} {o : Outcome σ}
    {before after : List (Event σ)} (hinert : ∀ ev ∈ after, ev.isInert = true)
    (hfailure : failureOf o.result =
      (lastFault before).or (firstObstacle e (opened e.registry.isRaw document.content before))) :
    Stopped e document o before after := by
  have hfails : ∀ failure, o.result = .error failure →
      lastFault before = some failure ∨ Obstructs failure := by
    intro failure hresult
    rw [failureOf_eq_some_iff.2 hresult] at hfailure
    rcases Option.or_eq_some_iff.1 hfailure.symm with hfault | ⟨-, hfirst⟩
    · exact .inl hfault
    · exact .inr (obstructs_of_firstObstacle hfirst)
  refine ⟨hinert, createdNames_append_inert hinert, hfailure, ?_, hfails, ?_⟩
  · intro result hresult x hx
    rw [hresult] at hfailure
    obtain ⟨-, hfirst⟩ := Option.or_eq_none_iff.1 hfailure.symm
    exact Pending.obstacle_eq_none (List.findSome?_eq_none_iff.1 hfirst x hx)
  · intro name hresult
    rcases hfails _ hresult with hfault | hobstructs
    · exact lastFault_ne_unknown before name hfault
    · cases hobstructs

/-- **What becomes of a pass that is asked to stop**, before it starts or by an execution at
    any depth: nothing is created or executed any more, each instance that was created is
    disposed of once, and the result can be read off from what was open there. -/
theorem process_stops [Monad m] [LawfulMonad m] (e : Expander m σ) (document : Document)
    (signal : StopSignal) :
    Always (fun o => ∃ evs ends, o.events = evs ++ ends ∧ DisposesOf evs ends ∧
        ∀ before after, evs = before ++ after → StopsAt signal before →
          Stopped e document o before after)
      (e.process document signal) := by
  refine (always_process e document signal).mono ?_
  intro o ho
  obtain ⟨evs, r, hrun, rfl⟩ := ho
  refine ⟨evs, _, events_outcomeOf _ _ _ _, hrun.trace.disposesOf, ?_⟩
  intro before after hplace hstop
  obtain ⟨hinert, hfailure⟩ := hrun.stopsAt hplace hstop
  exact stopped_of_failure hinert ((failureOf_map r _).trans hfailure)

/-- The builtin handlers, and one that asks to stop. -/
def stopping : Expander Id Unit :=
  ⟨Builtin.registry.register ⟨"Stop", .standard,
      .stateless fun _ => .stop (.done (.ok (.ofContent "<?# None /?>")))⟩,
    ⟨fun _ => .error .notFound, fun _ => none⟩, ⟨[]⟩, none, defaultMaxDepth⟩

/-- A loop that asks to stop in its first item. -/
def stoppingDocument : Document :=
  ⟨"<?# ForEach Items Item ?><?# Stop /?><?# Meta Item /?><?#/ ForEach ?><?# None /?>",
    Metadata.empty.insert "Items" (.array [.bool true, .bool false])⟩

/-- Is this an execution at whose end the pass is asked to stop? -/
def asksToStop : Event Unit → Bool
  | .executed call => call.signal.isRaised
  | _ => false

/-- Asked to stop in the first item of a loop, a pass creates no third instance, and does
    not look up the unknown name that was put out. -/
theorem process_stops_loop :
    let o := (stopping.process stoppingDocument .clear).run
    o.failure? = some .stopped ∧ createdNames o.events = ["ForEach", "Stop"] ∧
      ∃ before after ends, o.events = before ++ after ++ ends ∧ StopsAt .clear before ∧
        Stopped stopping stoppingDocument o before after := by
  obtain ⟨evs, ends, hevents, hends, hstops⟩ :=
    always_id_iff.1 (process_stops stopping stoppingDocument .clear)
  -- one of the executions asks to stop
  have hruns : (stopping.process stoppingDocument .clear).run.failure? = some .stopped ∧
      createdNames (stopping.process stoppingDocument .clear).run.events = ["ForEach", "Stop"] ∧
      (stopping.process stoppingDocument .clear).run.events.any asksToStop = true := by
    decide +kernel
  obtain ⟨hstopped, hcreated, hasks⟩ := hruns
  obtain ⟨ev, hmem, hraised⟩ := List.any_eq_true.1 hasks
  have hev : ∃ call : Call Unit, ev = .executed call ∧ call.signal.isRaised = true := by
    cases ev with
    | executed call => exact ⟨call, rfl, hraised⟩
    | _ => cases hraised
  obtain ⟨call, rfl, hcall⟩ := hev
  rw [hevents] at hmem
  rcases List.mem_append.1 hmem with hmem | hmem
  · obtain ⟨earlier, after, hplace⟩ := List.append_of_mem hmem
    have hplace : evs = (earlier ++ [.executed call]) ++ after := by
      rw [hplace, List.append_assoc]
      rfl
    have hstop : StopsAt .clear (earlier ++ [.executed call]) := .execution earlier hcall
    refine ⟨hstopped, hcreated, _, after, ends, ?_, hstop,
      hstops _ after hplace hstop⟩
    rw [hevents, hplace]
  · obtain ⟨instances, rfl, -, -⟩ := hends
    obtain ⟨name, state, hdisposed⟩ := eq_disposed_of_mem hmem
    cases hdisposed

end Pass

end TagExpander
