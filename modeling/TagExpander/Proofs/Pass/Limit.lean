/-
  TagExpander.Proofs.Pass.Limit — what the limit of nesting decides.

  Two passes over one document that differ in nothing but their limits are one pass up to
  the place where the lower limit is hit.  If it is not hit, this is the end of both; if
  it is, the pass with the higher limit goes on from there:

      lower    ─ events ─┐ too deep · disposed · … · disposed
      higher   ─ events ─┴─ more events ─ …

  In a monad of which nothing is known, this is said of the two computations as wholes:
  there is one computation that does both (`GoesOn`).

  Main results:
    * `GoesOn.bind` — computations that go on where others end, in a row.
    * `goesOn_expand` — the expansion of a text under the higher limit goes on where that
      under the lower one ends.
    * `process_raise_limit` — the same for passes.
-/
import TagExpander.Proofs.Pass.Run

namespace TagExpander

variable {m : Type → Type} [Monad m] {α β : Type}

/-! ## §1. Computations that go on. -/

/-- The second computation is the first one, gone on with: with every result of the first
    one comes what the second does from there on, and `G` holds of the two. -/
def GoesOn (G : α → m α → Prop) (x y : m α) : Prop :=
  ∃ z : m (α × m α), Prod.fst <$> z = x ∧ z >>= Prod.snd = y ∧ Always (fun a => G a.1 a.2) z

/-- In the identity monad there is one result to go on from. -/
theorem goesOn_id_iff {G : α → Id α → Prop} {x y : Id α} : GoesOn G x y ↔ G x.run y := by
  constructor
  · intro h
    obtain ⟨z, rfl, rfl, w, rfl⟩ := h
    exact w.run.2
  · intro h
    exact ⟨pure (x.run, y), rfl, rfl, always_id_iff.2 h⟩

namespace GoesOn

variable [LawfulMonad m] {G : α → m α → Prop} {H : β → m β → Prop} {x y : m α}

/-- The first computation gives its result, and the second does something else. -/
theorem stop {a : α} {next : m α} (h : G a next) : GoesOn G (pure a) next :=
  ⟨pure (a, next), map_pure _ _, pure_bind _ _, .pure h⟩

/-- A computation goes on where it ends. -/
theorem refl (h : ∀ a, G a (pure a)) (x : m α) : GoesOn G x x := by
  refine ⟨(fun a => (a, pure a)) <$> x, ?_, ?_, ?_⟩
  · rw [← comp_map]
    exact id_map x
  · rw [bind_map_left]
    exact bind_pure x
  · refine ⟨(fun a => ⟨(a, pure a), h a⟩) <$> x, ?_⟩
    rw [← comp_map]
    rfl

/-- Two computations in a row: from each result of the first part, the second part goes
    on. -/
theorem bind {f g : α → m β} (h : GoesOn G x y)
    (hf : ∀ a next, G a next → GoesOn H (f a) (next >>= g)) : GoesOn H (x >>= f) (y >>= g) := by
  obtain ⟨z, rfl, rfl, w, rfl⟩ := h
  -- with each result of the first part comes the computation that does both second parts
  let both (a : {a : α × m α // G a.1 a.2}) : m (β × m β) := Classical.choose (hf _ _ a.2)
  have hboth (a : {a : α × m α // G a.1 a.2}) := Classical.choose_spec (hf _ _ a.2)
  refine ⟨w >>= both, ?_, ?_, ?_⟩
  · rw [map_bind, bind_map_left, bind_map_left]
    congr 1
    funext a
    exact (hboth a).1
  · rw [bind_assoc, bind_map_left, bind_assoc]
    congr 1
    funext a
    exact (hboth a).2.1
  · exact (always_true w).bind fun a _ => (hboth a).2.2

end GoesOn

namespace Pass

variable {σ : Type}

/-! ## §2. Steps. -/

/-- The limit of nesting was hit. -/
def TooDeep (r : Except Failure α) : Prop :=
  ∃ limit, r = .error (.tooDeep limit)

instance (r : Except Failure α) : Decidable (TooDeep r) :=
  match r with
  | .error (.tooDeep limit) => .isTrue ⟨limit, rfl⟩
  | .error (.malformed _ _) | .error (.unknown _) | .error (.argument _ _)
  | .error (.fault _ _ _) | .error .stopped | .ok _ => .isFalse nofun

/-- A result is changed only if there is one. -/
theorem tooDeep_map (r : Except Failure α) (f : α → β) : TooDeep (r.map f) ↔ TooDeep r := by
  cases r with
  | error failure =>
      refine exists_congr fun limit => ?_
      show Except.error failure = _ ↔ Except.error failure = _
      rw [Except.error.injEq, Except.error.injEq]
  | ok a => exact iff_of_false nofun nofun

/-- How a step goes on under a higher limit: it stays as it is, unless the limit was hit;
    and then more happens behind what has happened so far. -/
structure Resumed (s : Step σ α) (next : m (Step σ α)) : Prop where
  ended : ¬TooDeep s.1 → next = pure s
  cut : TooDeep s.1 → Always (fun s' => s.2.history <:+ s'.2.history) next

section Step

variable [LawfulMonad m]

/-- A step may stay as it is in any case. -/
theorem Resumed.same (s : Step σ α) : Resumed s (pure s : m (Step σ α)) :=
  ⟨fun _ => rfl, fun _ => .pure (List.suffix_refl _)⟩

/-- What both passes do alike. -/
theorem goesOn_same (x : m (Step σ α)) : GoesOn Resumed x x :=
  .refl Resumed.same x

/-- A step after another one; a failure is passed on, perhaps in other words. -/
def andThen (x : m (Step σ α)) (reword : Failure → Failure)
    (f : α → Progress σ → m (Step σ β)) : m (Step σ β) := do
  match ← x with
  | (.error failure, q) => pure (.error (reword failure), q)
  | (.ok a, q) => f a q

/-- All that had happened before the step has happened after it. -/
def Keeps (q : Progress σ) (x : m (Step σ α)) : Prop :=
  Always (fun s => q.history <:+ s.2.history) x

theorem Keeps.andThen {q : Progress σ} {x : m (Step σ α)} {reword : Failure → Failure}
    {f : α → Progress σ → m (Step σ β)} (h : Keeps q x) (hf : ∀ a q', Keeps q' (f a q')) :
    Keeps q (andThen x reword f) := by
  refine h.bind fun s hs => ?_
  obtain ⟨r, q'⟩ := s
  cases r with
  | error failure => exact .pure hs
  | ok a => exact (hf a q').mono fun s' hs' => hs.trans hs'

/-- Steps in a row go on where others end, if the limit is told as it is. -/
theorem goesOn_andThen {x y : m (Step σ α)} (reword : Failure → Failure)
    {f g : α → Progress σ → m (Step σ β)} (h : GoesOn Resumed x y)
    (hreword : ∀ limit, reword (.tooDeep limit) = .tooDeep limit)
    (hkeeps : ∀ a q, Keeps q (g a q)) (hsteps : ∀ a q, GoesOn Resumed (f a q) (g a q)) :
    GoesOn Resumed (andThen x reword f) (andThen y reword g) := by
  refine h.bind fun s next hnext => ?_
  by_cases hcut : TooDeep s.1
  · obtain ⟨r, q⟩ := s
    obtain ⟨limit, rfl⟩ := hcut
    show GoesOn Resumed (pure (.error (reword (.tooDeep limit)), q)) _
    rw [hreword]
    refine .stop ⟨fun hended => absurd ⟨limit, rfl⟩ hended, fun _ => ?_⟩
    exact Keeps.andThen (hnext.cut ⟨limit, rfl⟩) hkeeps
  · rw [hnext.ended hcut, pure_bind]
    obtain ⟨r, q⟩ := s
    cases r with
    | error failure => exact goesOn_same _
    | ok a => exact hsteps a q

end Step

/-! ## §3. Expansion. -/

/-- The same pass with another limit of nesting. -/
def withLimit (e : Expander m σ) (limit : Nat) : Expander m σ :=
  { e with maxDepth := limit }

/-- Documents are put out one after the other. -/
theorem weaveOutput_cons (inner : Inner m σ) (tagName woven : String) (d : Document)
    (docs : List Document) (p : Progress σ) :
    weaveOutput inner tagName false woven (d :: docs) p =
      andThen (inner d.content (p.merge tagName d false)) (·.inOutputOf tagName)
        fun text q => weaveOutput inner tagName false (woven ++ text) docs q := by
  rw [weaveOutput]
  refine congrArg (inner d.content (p.merge tagName d false) >>= ·) (funext fun s => ?_)
  obtain ⟨r, q⟩ := s
  cases r <;> rfl

/-- A tag is executed, then its output is put in its place, then the rest follows. -/
theorem weave_tag (e : Expander m σ) (source : String) (depth : Nat) (inner : Inner m σ)
    (woven : String) (tag : Markup.Tag) (spans : List Markup.Span) (p : Progress σ) :
    weave e source depth inner woven (.tag tag :: spans) p =
      andThen (invoke e source depth tag p) id fun answer q =>
        andThen (weaveOutput inner tag.name (answer.2 == .raw || answer.1.isRaw) woven
          answer.1.docs q) id fun text q' => weave e source depth inner text spans q' := by
  rw [weave]
  refine congrArg (invoke e source depth tag p >>= ·) (funext fun s => ?_)
  obtain ⟨r, q⟩ := s
  cases r with
  | error failure => rfl
  | ok answer =>
      refine congrArg (weaveOutput inner tag.name _ woven answer.1.docs q >>= ·)
        (funext fun s => ?_)
      obtain ⟨r, q'⟩ := s
      cases r <;> rfl

section Expand

variable [LawfulMonad m] (e : Expander m σ) (limit : Nat) (source : String)

/-- The output of a tag goes on under the higher limit, if its texts do. -/
theorem goesOn_weaveOutput (depth : Nat) (tagName : String) (raw : Bool)
    {inner inner' : Inner m σ} (hinner : ∀ text p, GoesOn Resumed (inner text p) (inner' text p))
    (hrun : ∀ text p, Always (IsRun (withLimit e limit) source p (.text (depth + 1) text))
      (inner' text p)) (docs : List Document) (woven : String) (p : Progress σ) :
    GoesOn Resumed (weaveOutput inner tagName raw woven docs p)
      (weaveOutput inner' tagName raw woven docs p) := by
  induction docs generalizing woven p with
  | nil => exact goesOn_same _
  | cons d docs ih =>
      cases raw with
      | true => exact ih _ _
      | false =>
          rw [weaveOutput_cons, weaveOutput_cons]
          refine goesOn_andThen _ (hinner _ _) (fun _ => rfl) ?_ fun text q => ih _ q
          intro text q
          exact (always_weaveOutput _ source depth tagName false inner' hrun docs _ q).mono
            fun s hs => hs.history_suffix

/-- The spans of a text go on under the higher limit, if output does. -/
theorem goesOn_weave (depth : Nat) {inner inner' : Inner m σ}
    (hinner : ∀ text p, GoesOn Resumed (inner text p) (inner' text p))
    (hrun : ∀ text p, Always (IsRun (withLimit e limit) source p (.text (depth + 1) text))
      (inner' text p)) (spans : List Markup.Span) (woven : String) (p : Progress σ) :
    GoesOn Resumed (weave e source depth inner woven spans p)
      (weave (withLimit e limit) source depth inner' woven spans p) := by
  induction spans generalizing woven p with
  | nil => exact goesOn_same _
  | cons span spans ih =>
      cases span with
      | literal text => exact ih _ _
      | tag tag =>
          -- the handler does not see the limit, so both passes call it alike
          have hinvoke : GoesOn Resumed (invoke e source depth tag p)
              (invoke (withLimit e limit) source depth tag p) := goesOn_same _
          have hbehind (text : String) (q : Progress σ) :
              Keeps q (weave (withLimit e limit) source depth inner' text spans q) :=
            (always_weave _ source depth inner' hrun spans text q).mono
              fun s hs => hs.history_suffix
          rw [weave_tag, weave_tag]
          refine goesOn_andThen _ hinvoke (fun _ => rfl) ?_ ?_
          · intro answer q
            refine Keeps.andThen ?_ hbehind
            exact (always_weaveOutput _ source depth tag.name _ inner' hrun _ _ q).mono
              fun s hs => hs.history_suffix
          · intro answer q
            have houtput := goesOn_weaveOutput e limit source depth tag.name
              (answer.2 == .raw || answer.1.isRaw) hinner hrun answer.1.docs woven q
            exact goesOn_andThen _ houtput (fun _ => rfl) hbehind fun text q' => ih text q'

/-- **The expansion of a text under a higher limit goes on where that under the lower one
    ends.** -/
theorem goesOn_expand {levels levels' depth : Nat} (hlevels : levels + depth = e.maxDepth + 1)
    (hlevels' : levels' + depth = limit + 1) (hle : levels ≤ levels') (text : String)
    (p : Progress σ) :
    GoesOn Resumed (expand e source levels depth text p)
      (expand (withLimit e limit) source levels' depth text p) := by
  -- on the levels that are left under the lower limit
  induction levels generalizing levels' depth text p with
  | zero =>
      by_cases hmarker : Markup.containsMarker text = true
      · have hstop : expand e source 0 depth text p =
            pure (.error (.tooDeep e.maxDepth), p) := by
          rw [expand, if_pos hmarker]
        rw [hstop]
        refine .stop ⟨fun hended => absurd ⟨_, rfl⟩ hended, fun _ => ?_⟩
        exact (always_expand (withLimit e limit) source levels' depth hlevels' text p).mono
          fun s hs => hs.history_suffix
      · rw [Bool.not_eq_true] at hmarker
        rw [expand_of_not_containsMarker hmarker, expand_of_not_containsMarker hmarker]
        exact goesOn_same _
  | succ levels ih =>
      obtain ⟨levels', rfl⟩ : ∃ n, levels' = n + 1 := ⟨levels' - 1, by omega⟩
      by_cases hmarker : Markup.containsMarker text = true
      · have hraw : (withLimit e limit).registry.isRaw = e.registry.isRaw := rfl
        simp only [expand, if_pos hmarker, hraw]
        cases Markup.scan e.registry.isRaw text with
        | error cause => exact goesOn_same _
        | ok spans =>
            refine goesOn_weave e limit source depth ?_ ?_ spans "" _
            · intro text p
              exact ih (by omega) (by omega) (by omega) text p
            · intro text p
              exact always_expand (withLimit e limit) source levels' (depth + 1)
                (by show _ = limit + 1; omega) text p
      · rw [Bool.not_eq_true] at hmarker
        rw [expand_of_not_containsMarker hmarker, expand_of_not_containsMarker hmarker]
        exact goesOn_same _

end Expand

/-! ## §4. Passes. -/

/-- **What the limit of nesting decides.**  Under a higher limit, a pass has the same
    outcome, unless the limit was hit: the same document or failure, the same events, and
    so the same final states of its handlers.  If the limit was hit, the pass under the
    higher limit goes on from there: all that had happened happens there, too, with the
    same arguments, documents and surroundings for every handler. -/
theorem process_raise_limit [LawfulMonad m] (e : Expander m σ) {limit : Nat}
    (h : e.maxDepth ≤ limit) (document : Document) (signal : StopSignal) :
    GoesOn (fun o next =>
        (¬TooDeep o.result → next = pure o) ∧
        (TooDeep o.result → ∃ evs ends, o.events = evs ++ ends ∧
          (∀ ev ∈ ends, ∃ name state, ev = .disposed name state) ∧
          Always (fun o' => evs <+: o'.events) next))
      (e.process document signal) ((withLimit e limit).process document signal) := by
  have hexpand : GoesOn Resumed
      (expand e document.content (e.maxDepth + 1) 0 document.content
        (.start document.metadata signal))
      (expand (withLimit e limit) document.content (limit + 1) 0 document.content
        (.start document.metadata signal)) :=
    goesOn_expand e limit document.content (Nat.add_zero _) (Nat.add_zero _) (by omega) _ _
  refine hexpand.bind fun s next hnext => ?_
  obtain ⟨r, q⟩ := s
  have hdeep : TooDeep (outcomeOf q r).result ↔ TooDeep r := tooDeep_map r _
  refine .stop (a := outcomeOf q r) ⟨fun hended => ?_, fun hcut => ?_⟩
  · rw [hnext.ended fun hcut => hended (hdeep.2 hcut), pure_bind]
    rfl
  · refine ⟨_, _, events_outcomeOf_eq q r, fun _ => eq_disposed_of_mem, ?_⟩
    refine (hnext.cut (hdeep.1 hcut)).bind fun s' hs' => .pure ?_
    show q.history.reverse <+: (outcomeOf s'.2 s'.1).events
    rw [events_outcomeOf_eq]
    exact (List.reverse_prefix.2 hs').trans (List.prefix_append _ _)

/-- Under the limits 1 and 2: a tag that puts out itself, without an end, is executed in
    both passes before they part; a loop with values in it is expanded alike. -/
theorem process_raise_limit_self :
    let self := Document.ofContent "<?# Self /?>"
    1 ≤ 2 ∧ TooDeep ((selfReference 1).process self .clear).run.result ∧
      (∃ evs ends, ((selfReference 1).process self .clear).run.events = evs ++ ends ∧
        (∀ ev ∈ ends, ∃ name state, ev = .disposed name state) ∧
        evs <+: ((selfReference 2).process self .clear).run.events) ∧
      ¬TooDeep ((selfReference 1).process loopDocument .clear).run.result ∧
      (selfReference 2).process loopDocument .clear =
        (selfReference 1).process loopDocument .clear := by
  have hle : (selfReference 1).maxDepth ≤ 2 := by decide
  have hdeep :
      TooDeep ((selfReference 1).process (.ofContent "<?# Self /?>") .clear).run.result := by
    decide +kernel
  have hended : ¬TooDeep ((selfReference 1).process loopDocument .clear).run.result := by
    decide +kernel
  obtain ⟨evs, ends, hevents, hends, hmore⟩ := (goesOn_id_iff.1
    (process_raise_limit (selfReference 1) hle (.ofContent "<?# Self /?>") .clear)).2 hdeep
  have hsame := (goesOn_id_iff.1
    (process_raise_limit (selfReference 1) hle loopDocument .clear)).1 hended
  have hmore := (always_id_iff (P := fun o' : Outcome Unit => evs <+: o'.events)).1 hmore
  exact ⟨by decide, hdeep, ⟨evs, ends, hevents, hends, hmore⟩, hended, hsame⟩

end Pass

end TagExpander
