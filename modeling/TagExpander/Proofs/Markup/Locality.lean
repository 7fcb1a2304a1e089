/-
  TagExpander.Proofs.Markup.Locality — texts scan one after the other.

  A text that scans may be followed by any other text.  Its tags are read as they were,
  and the text behind them is read as it is by itself, further on by the length of the
  first one:

      a          ──→ … ──→ w    done
      a ++ b     ──→ … ──→ w    ──→ … ──→ u
      b                  start  ──→ … ──→ v     each step further on by `a`

  At the seam the two walks do not stand at the same place, since literal text at the end
  of `a` lies behind the last marker of `a`.  But they see the same marker next, and that
  is all that a step depends on.  The literal text is the `pending` part of what is found
  by the walk over both texts, until the first tag of `b` takes it up.

  Main results:
    * `Walk.Follows.step`, `Walk.Follows.fails` — the walk over `b` is made behind `a`.
    * `scan_append` — the scan of two texts from the scans of both.
-/
import Mathlib.Data.String.Basic
import TagExpander.Proofs.Markup.Extension
import TagExpander.Proofs.Markup.Plain

namespace TagExpander.Markup

/-! ## §1. Places behind a text. -/

namespace Cursor

/-- The same place, with a text in front of it. -/
def shift (front : List Char) (c : Cursor) : Cursor :=
  ⟨front.length + c.chars, Text.bytes front + c.bytes, Text.newlines front + c.newlines, c.rest⟩

variable (front : List Char)

theorem skip_shift (c : Cursor) (n : Nat) : (c.shift front).skip n = (c.skip n).shift front := by
  unfold skip shift
  simp only [Nat.add_assoc]

theorem seek_shift (c : Cursor) : (c.shift front).seek = c.seek.map (shift front) := by
  show (markerFrom 0 c.rest).map (c.shift front).skip = _
  rw [seek, Option.map_map]
  congr 1
  funext n
  exact skip_shift front c n

theorem upTo_shift (c later : Cursor) : (c.shift front).upTo (later.shift front) = c.upTo later := by
  show c.rest.take (front.length + later.chars - (front.length + c.chars)) = _
  rw [Nat.add_sub_add_left]
  rfl

/-- Behind the text in front another one starts. -/
theorem skip_start_append (behind : List Char) :
    (start (front ++ behind)).skip front.length = (start behind).shift front := by
  unfold skip start shift
  dsimp only
  rw [List.take_left, List.drop_left]
  simp only [Nat.zero_add, Nat.add_zero]

end Cursor

theorem rawCloser_shift (front : List Char) (name : String) (here : Cursor) :
    rawCloser name (here.shift front) =
      (rawCloser name here).map (Prod.map (Cursor.shift front) (Cursor.shift front)) := by
  have hseek {here mark : Cursor} (hs : here.seek = some mark) :
      (here.shift front).seek = some (mark.shift front) := by
    rw [Cursor.seek_shift, hs, Option.map_some]
  fun_induction rawCloser name here with
  | case1 here hs =>
      refine rawCloser_of_none ?_
      rw [Cursor.seek_shift, hs, Option.map_none]
  | case2 here mark hs fault hm ih =>
      rw [rawCloser_of_error (hseek hs) hm, Cursor.skip_shift, ih]
  | case3 here mark hs m hm hclose =>
      rw [rawCloser_of_read (hseek hs) hm, if_pos hclose, Cursor.skip_shift]
      rfl
  | case4 here mark hs m hm hother ih =>
      rw [rawCloser_of_read (hseek hs) hm, if_neg hother, Cursor.skip_shift, ih]

/-- The same open tag, with a text in front of it. -/
def OpenTag.shift (front : List Char) (t : OpenTag) : OpenTag :=
  { t with start := t.start.shift front, body := t.body.shift front }

/-- The same tag, with a text in front of it. -/
def Tag.shift (front : List Char) (t : Tag) : Tag :=
  { t with
    start := Text.bytes front + t.start
    stop := Text.bytes front + t.stop
    line := Text.newlines front + t.line }

/-- The same piece, with a text in front of it. -/
def Span.shift (front : List Char) : Span → Span
  | .literal text => .literal text
  | .tag t => .tag (t.shift front)

/-- The same fault, with a text in front of it. -/
def Malformed.shift (front : List Char) (cause : Malformed) : Malformed :=
  { cause with
    line := Text.newlines front + cause.line
    position := Text.bytes front + cause.position }

theorem OpenTag.ofMarker_shift (front : List Char) (m : Marker) (mark : Cursor) :
    ofMarker m (mark.shift front) = (ofMarker m mark).shift front := by
  unfold ofMarker
  rw [Cursor.skip_shift]
  rfl

theorem OpenTag.close_shift (front : List Char) (t : OpenTag) (closer : Option Cursor)
    (stop : Cursor) :
    (t.shift front).close (closer.map (Cursor.shift front)) (stop.shift front) =
      (t.close closer stop).shift front := by
  cases closer with
  | none => rfl
  | some c =>
      have hcontent : (t.shift front).body.upTo (c.shift front) = t.body.upTo c :=
        Cursor.upTo_shift front t.body c
      unfold OpenTag.close
      rw [Option.map_some, Option.map_some, hcontent]
      rfl

/-! ## §2. Spans put together. -/

/-- The spans of two texts, one after the other.  Two literal texts at the seam are one. -/
def meld (S T : List Span) : List Span :=
  match S.getLast?, T with
  | some (.literal s), .literal t :: T => S.dropLast ++ .literal (s ++ t) :: T
  | _, _ => S ++ T

theorem meld_literals (S T : List Span) (s t : String) :
    meld (S ++ [.literal s]) (.literal t :: T) = S ++ .literal (s ++ t) :: T := by
  unfold meld
  rw [List.getLast?_concat, List.dropLast_concat]

/-- Nothing happens at the seam but between two literal texts. -/
theorem meld_eq_append {S T : List Span}
    (h : (∀ s, S.getLast? ≠ some (.literal s)) ∨ ∀ t, T.head? ≠ some (.literal t)) :
    meld S T = S ++ T := by
  unfold meld
  split
  next s t T hs =>
    rcases h with hS | hT
    · exact absurd hs (hS s)
    · exact absurd rfl (hT t)
  next => rfl

theorem meld_nil (S : List Span) : meld S [] = S := by
  have hhead : ∀ t, ([] : List Span).head? ≠ some (.literal t) := fun t => nofun
  rw [meld_eq_append (.inr hhead), List.append_nil]

/-- What follows the first span of the second text. -/
theorem meld_append (S : List Span) {T : List Span} (hT : T ≠ []) (U : List Span) :
    meld S (T ++ U) = meld S T ++ U := by
  obtain ⟨span, T, rfl⟩ := List.exists_cons_of_ne_nil hT
  by_cases hseam : ∃ S₀ s t, S = S₀ ++ [.literal s] ∧ span = .literal t
  · obtain ⟨S₀, s, t, rfl, rfl⟩ := hseam
    rw [List.cons_append, meld_literals, meld_literals, List.append_assoc, List.cons_append]
  · -- both sides are put together without a change
    have happend (T : List Span) : meld S (span :: T) = S ++ span :: T := by
      unfold meld
      split
      next s t T hs heq =>
        cases heq
        obtain ⟨S₀, rfl⟩ := List.getLast?_eq_some_iff.1 hs
        exact absurd ⟨S₀, s, t, rfl, rfl⟩ hseam
      next => rfl
    rw [List.cons_append, happend, happend, List.append_assoc, List.cons_append]

/-- The second text may begin with a tag, or go on with literal text. -/
theorem meld_append_tag (S T : List Span) (t : Tag) :
    meld S (T ++ [.tag t]) = meld S T ++ [.tag t] := by
  by_cases hT : T = []
  · rw [hT, List.nil_append, meld_nil]
    have hhead : ∀ s, [Span.tag t].head? ≠ some (.literal s) := fun s => nofun
    exact meld_eq_append (.inr hhead)
  · exact meld_append S hT _

/-- Literal text goes on behind the seam. -/
theorem meld_literalSpans {S : List Span} (hlast : ∀ s, S.getLast? ≠ some (.literal s))
    (front behind : List Char) :
    meld (S ++ literalSpans front) (literalSpans behind) =
      S ++ literalSpans (front ++ behind) := by
  by_cases hbehind : behind = []
  · rw [hbehind, List.append_nil]
    exact meld_nil _
  by_cases hfront : front = []
  · rw [hfront, List.nil_append]
    show meld (S ++ []) _ = _
    rw [List.append_nil]
    exact meld_eq_append (.inl hlast)
  · have hwhole : front ++ behind ≠ [] := fun h => hfront (List.append_eq_nil_iff.1 h).1
    unfold literalSpans
    rw [if_neg hfront, if_neg hbehind, if_neg hwhole, meld_literals, String.ofList_append]

theorem map_shift_literalSpans (front literal : List Char) :
    (literalSpans literal).map (Span.shift front) = literalSpans literal := by
  unfold literalSpans
  split <;> rfl

/-! ## §3. What is found behind a text. -/

/-- What is found in both texts, `g'`, is what is found in the second one, `g`, melded with
    the spans of the first, but for the literal text that is still pending. -/
structure Joined (front : List Char) (S : List Span) (pending : List Char) (g g' : Found) :
    Prop where
  spans : ∀ literal, (Found.addLiteral g'.spans (pending ++ literal)).reverse =
    meld S ((Found.addLiteral g.spans literal).reverse.map (Span.shift front))
  upTo : ∀ c : Cursor, g'.upTo.upTo (c.shift front) = pending ++ g.upTo.upTo c
  rest : g'.upTo.rest = pending ++ g.upTo.rest

namespace Joined

variable {front pending : List Char} {S : List Span} {g g' : Found}

/-- At the seam the literal text at the end of the first text is pending. -/
theorem seam {f : Found} {behind : List Char} (hf : f.upTo.On front)
    (hlast : ∀ s, f.spans.head? ≠ some (.literal s)) :
    Joined front f.finish f.upTo.rest ⟨[], .start behind⟩ (f.extend behind) where
  spans := by
    intro literal
    have hlast' : ∀ s, f.spans.reverse.getLast? ≠ some (.literal s) := by
      intro s
      rw [List.getLast?_reverse]
      exact hlast s
    rw [Found.finish, Found.reverse_addLiteral, Found.reverse_addLiteral,
      Found.reverse_addLiteral, List.reverse_nil, List.nil_append, map_shift_literalSpans,
      meld_literalSpans hlast']
    rfl
  upTo := by
    intro c
    have hchars : front.length + c.chars - f.upTo.chars = f.upTo.rest.length + c.chars := by
      have hwhole := hf.length_eq
      omega
    show (f.upTo.rest ++ behind).take (front.length + c.chars - f.upTo.chars) = _
    rw [hchars, List.take_length_add_append]
    rfl
  rest := rfl

/-- A tag takes up what is pending. -/
theorem record (h : Joined front S pending g g') (opened : List OpenTag) (t : OpenTag)
    (closer : Option Cursor) (next : Cursor) :
    ∃ pending', Joined front S pending' (g.record opened t closer next)
      (g'.record (opened.map (OpenTag.shift front)) (t.shift front)
        (closer.map (Cursor.shift front)) (next.shift front)) := by
  unfold Found.record
  rw [List.isEmpty_map]
  split
  · refine ⟨[], ?_, ?_, rfl⟩
    · intro literal
      have hspans := h.spans (g.upTo.upTo t.start)
      rw [← h.upTo, Found.reverse_addLiteral, Found.reverse_addLiteral] at hspans
      rw [List.nil_append, Found.reverse_addLiteral, Found.reverse_addLiteral,
        Found.reverse_spans_add, Found.reverse_spans_add, OpenTag.close_shift, List.map_append,
        map_shift_literalSpans, meld_append S (by simp), List.map_append, List.map_singleton]
      show _ = meld S (_ ++ [.tag ((t.close closer next).shift front)]) ++ _
      rw [meld_append_tag, ← hspans]
      rfl
    · intro c
      exact Cursor.upTo_shift front next c
  · exact ⟨pending, h⟩

theorem finish (h : Joined front S pending g g') :
    g'.finish = meld S (g.finish.map (Span.shift front)) := by
  rw [Found.finish, h.rest, h.spans]
  rfl

end Joined

/-! ## §4. The next marker behind the seam. -/

theorem Cursor.markerFrom_add (n k : Nat) (cs : List Char) :
    markerFrom (n + k) cs = (markerFrom k cs).map (n + ·) := by
  induction cs generalizing k with
  | nil => rfl
  | cons c cs ih =>
      rw [markerFrom, markerFrom, Nat.add_assoc, ih]
      split <;> rfl

/-- No marker starts in front of the seam. -/
theorem startsMarker_append_of_plain {c : Char} {cs behind : List Char}
    (hplain : ¬markerStart <:+: c :: cs) (hseam : ¬SplitMarker (c :: cs) behind) :
    startsMarker (c :: cs ++ behind) = false := by
  rw [Bool.eq_false_iff]
  intro h
  obtain ⟨tail, htail⟩ := startsMarker_iff.1 h
  rcases List.append_eq_append_iff.1 htail with ⟨xs, hfront, -⟩ | ⟨ys, hstart, hbehind⟩
  · -- the marker ends in front of the seam
    exact hplain ⟨[], xs, hfront.symm⟩
  · by_cases hys : ys = []
    · rw [hys, List.append_nil] at hstart
      exact hplain ⟨[], [], by rw [hstart, List.nil_append, List.append_nil]⟩
    · rcases (markerStart_eq_append_iff (List.cons_ne_nil c cs) hys).1 hstart with
        ⟨hfront, rfl⟩ | ⟨hfront, rfl⟩
      · exact hseam (.inl ⟨hfront ▸ List.suffix_rfl, ⟨tail, hbehind.symm⟩⟩)
      · exact hseam (.inr ⟨hfront ▸ List.suffix_rfl, ⟨tail, hbehind.symm⟩⟩)

theorem SplitMarker.of_suffix {front front' behind : List Char} (h : SplitMarker front behind)
    (hsuffix : front <:+ front') : SplitMarker front' behind :=
  h.imp (And.imp_left (·.trans hsuffix)) (And.imp_left (·.trans hsuffix))

theorem markerFrom_append_of_plain {plain behind : List Char} (hplain : ¬markerStart <:+: plain)
    (hseam : ¬SplitMarker plain behind) (n : Nat) :
    Cursor.markerFrom n (plain ++ behind) = Cursor.markerFrom (n + plain.length) behind := by
  induction plain generalizing n with
  | nil => rfl
  | cons c cs ih =>
      have hc := startsMarker_append_of_plain hplain hseam
      rw [List.cons_append] at hc ⊢
      rw [Cursor.markerFrom, hc]
      show Cursor.markerFrom (n + 1) (cs ++ behind) = _
      rw [ih (fun h => hplain (List.infix_cons h))
        (fun h => hseam (h.of_suffix (List.suffix_cons c cs))), List.length_cons, Nat.add_assoc,
        Nat.add_comm 1]

/-- What is sought in front of literal text is found behind it. -/
theorem seek_skip_of_plain {here : Cursor} {plain behind : List Char}
    (hplain : ¬markerStart <:+: plain) (hseam : ¬SplitMarker plain behind)
    (hhere : here.rest = plain ++ behind) : here.seek = (here.skip plain.length).seek := by
  rw [Cursor.seek, Cursor.seek, Cursor.rest_skip, hhere, List.drop_left,
    markerFrom_append_of_plain hplain hseam, Nat.zero_add, ← Nat.add_zero plain.length,
    Cursor.markerFrom_add, Option.map_map]
  congr 1
  funext n
  exact (Cursor.skip_skip here plain.length n).symm

/-! ## §5. The walk behind a text. -/

namespace Walk

variable {isRaw : String → Bool} {front behind : List Char} {S : List Span} {v v' u w : Walk}
  {mark : Cursor} {m : Marker} {cause : Malformed}

/-- The walk `u` over both texts sees what the walk `v` over the second one sees. -/
structure Follows (front : List Char) (S : List Span) (v u : Walk) : Prop where
  seek : u.here.seek = v.here.seek.map (Cursor.shift front)
  opened : u.opened = v.opened.map (OpenTag.shift front)
  found : ∃ pending, Joined front S pending v.found u.found

namespace Follows

theorem seek_some (h : Follows front S v u) (hs : v.here.seek = some mark) :
    u.here.seek = some (mark.shift front) := by
  rw [h.seek, hs, Option.map_some]

theorem seek_none (h : Follows front S v u) (hs : v.here.seek = none) : u.here.seek = none := by
  rw [h.seek, hs, Option.map_none]

theorem meets (h : Follows front S v u) (hmeets : v.Meets mark m) :
    u.Meets (mark.shift front) m :=
  ⟨h.seek_some hmeets.seek, hmeets.read⟩

/-- The tags that are open have the same names. -/
theorem any_same (opened : List OpenTag) (name : String) :
    ((opened.map (OpenTag.shift front)).any fun t => Text.same t.name name) =
      opened.any fun t => Text.same t.name name :=
  List.any_map

/-- **A step over the second text is made behind the first one.** -/
theorem step (h : Follows front S v u) (hstep : Step isRaw v v') :
    ∃ u', Step isRaw u u' ∧ Follows front S v' u' := by
  obtain ⟨pending, hfound⟩ := h.found
  cases hstep with
  | @single mark m hmeets hrole =>
      refine ⟨_, .single (h.meets hmeets) hrole, ?_, h.opened, ?_⟩
      · rw [Cursor.skip_shift]
        exact Cursor.seek_shift front _
      · rw [Cursor.skip_shift, OpenTag.ofMarker_shift, h.opened]
        exact hfound.record v.opened _ none _
  | @raw mark closer next m hmeets hrole hraw hclose =>
      have hclose' : rawCloser m.name ((mark.shift front).skip m.length) =
          some (closer.shift front, next.shift front) := by
        rw [Cursor.skip_shift, rawCloser_shift, hclose]
        rfl
      refine ⟨_, .raw (h.meets hmeets) hrole hraw hclose', Cursor.seek_shift front _, h.opened, ?_⟩
      rw [OpenTag.ofMarker_shift, h.opened]
      exact hfound.record v.opened _ (some closer) _
  | @opening mark m hmeets hrole hraw =>
      refine ⟨_, .opening (h.meets hmeets) hrole hraw, ?_, ?_, pending, hfound⟩
      · rw [Cursor.skip_shift]
        exact Cursor.seek_shift front _
      · rw [OpenTag.ofMarker_shift, h.opened]
        rfl
  | @closing mark m innermost outer hmeets hrole hopened hsame =>
      have hopened' : u.opened =
          innermost.shift front :: outer.map (OpenTag.shift front) := by
        rw [h.opened, hopened, List.map_cons]
      refine ⟨_, .closing (h.meets hmeets) hrole hopened' hsame, ?_, rfl, ?_⟩
      · rw [Cursor.skip_shift]
        exact Cursor.seek_shift front _
      · rw [Cursor.skip_shift]
        exact hfound.record outer innermost (some mark) _

/-- So is a whole walk. -/
theorem reaches (h : Follows front S v u) (hreach : Reaches isRaw v v') :
    ∃ u', Reaches isRaw u u' ∧ Follows front S v' u' := by
  induction hreach with
  | refl => exact ⟨u, .refl, h⟩
  | tail _ hstep ih =>
      obtain ⟨u₁, hreach₁, h₁⟩ := ih
      obtain ⟨u₂, hstep₂, h₂⟩ := h₁.step hstep
      exact ⟨u₂, hreach₁.tail hstep₂, h₂⟩

/-- **A fault of the second text is one behind the first one.** -/
theorem fails (h : Follows front S v u) (hfails : Fails isRaw v cause) :
    Fails isRaw u (cause.shift front) := by
  cases hfails with
  | unreadable hseek hread => exact .unreadable (h.seek_some hseek) hread
  | @unclosedRaw mark m hmeets hrole hraw hclose =>
      refine .unclosedRaw (h.meets hmeets) hrole hraw ?_
      rw [Cursor.skip_shift, rawCloser_shift, hclose]
      rfl
  | stray hmeets hrole hopened =>
      refine .stray (h.meets hmeets) hrole ?_
      rw [h.opened, hopened, List.map_nil]
  | @crossed mark m innermost outer hmeets hrole hopened hsame houter =>
      have hopened' : u.opened = innermost.shift front :: outer.map (OpenTag.shift front) := by
        rw [h.opened, hopened, List.map_cons]
      exact .crossed (h.meets hmeets) hrole hopened' hsame ((any_same outer m.name).trans houter)
  | @unmatched mark m innermost outer hmeets hrole hopened hsame houter =>
      have hopened' : u.opened = innermost.shift front :: outer.map (OpenTag.shift front) := by
        rw [h.opened, hopened, List.map_cons]
      exact .unmatched (h.meets hmeets) hrole hopened' hsame
        ((any_same outer m.name).trans houter)
  | @unclosed outermost hseek hopened =>
      have hopened' : u.opened.getLast? = some (outermost.shift front) := by
        rw [h.opened, List.getLast?_map, hopened, Option.map_some]
      exact .unclosed (h.seek_none hseek) hopened'

theorem done (h : Follows front S v u) (hdone : v.Done) : u.Done where
  seek := h.seek_none hdone.seek
  opened := by rw [h.opened, hdone.opened, List.map_nil]

/-- What becomes of the walk over both texts. -/
theorem outcome_ok (h : Follows front S v u) {T : List Span} (hv : v.outcome isRaw = .ok T) :
    u.outcome isRaw = .ok (meld S (T.map (Span.shift front))) := by
  obtain ⟨v', hreach, hdone, rfl⟩ := outcome_eq_ok_iff.1 hv
  obtain ⟨u', hreach', h'⟩ := h.reaches hreach
  obtain ⟨pending, hfound⟩ := h'.found
  exact outcome_eq_ok_iff.2 ⟨u', hreach', h'.done hdone, hfound.finish.symm⟩

theorem outcome_error (h : Follows front S v u) (hv : v.outcome isRaw = .error cause) :
    u.outcome isRaw = .error (cause.shift front) := by
  obtain ⟨v', hreach, hfails⟩ := outcome_eq_error_iff.1 hv
  obtain ⟨u', hreach', h'⟩ := h.reaches hreach
  exact outcome_eq_error_iff.2 ⟨u', hreach', h'.fails hfails⟩

end Follows

/-- The last span that a walk has found is a tag. -/
theorem Reaches.head_ne_literal (h : Reaches isRaw (start front) w) (s : String) :
    w.found.spans.head? ≠ some (.literal s) := by
  -- a span is only ever added together with a tag behind it
  have hrecord {f : Found} (opened : List OpenTag) (t : OpenTag) (closer : Option Cursor)
      (next : Cursor) (hf : f.spans.head? ≠ some (.literal s)) :
      (f.record opened t closer next).spans.head? ≠ some (.literal s) := by
    unfold Found.record
    split
    · exact nofun
    · exact hf
  induction h with
  | refl => exact nofun
  | tail _ hstep ih =>
      cases hstep with
      | single => exact hrecord _ _ _ _ ih
      | raw => exact hrecord _ _ _ _ ih
      | opening => exact ih
      | closing => exact hrecord _ _ _ _ ih

/-- **At the end of the first text the walk over both sees what the walk over the second one
    sees at its start.** -/
theorem Reaches.follows (h : Reaches isRaw (start front) w) (hs : w.here.seek = none)
    (hopened : w.opened = []) (hseam : ¬SplitMarker front behind) :
    Follows front w.found.finish (start behind) (w.extend behind) where
  seek := by
    obtain ⟨n, hn, heq⟩ := h.along.here
    have hrest : w.here.rest = front.drop n := by
      rw [heq]
      rfl
    have hplain : ¬markerStart <:+: w.here.rest := seek_eq_none_iff_infix.1 hs
    have hseam' : ¬SplitMarker w.here.rest behind := by
      intro hsplit
      rw [hrest] at hsplit
      exact hseam (hsplit.of_suffix (List.drop_suffix n front))
    -- behind the literal text at the end of the first text, the second one starts
    have hend : (w.here.extend behind).skip w.here.rest.length =
        (Cursor.start behind).shift front := by
      rw [hrest, heq, ← Cursor.skip_extend hn, Cursor.start_extend, Cursor.skip_skip,
        List.length_drop, Nat.add_sub_of_le hn, Cursor.skip_start_append]
    have hseek : (w.here.extend behind).seek = _ := seek_skip_of_plain hplain hseam' rfl
    rw [hend, Cursor.seek_shift] at hseek
    exact hseek
  opened := congrArg (List.map (OpenTag.extend behind)) hopened
  found := ⟨w.found.upTo.rest, .seam h.along.upTo h.head_ne_literal⟩

end Walk

/-! ## §6. Two texts. -/

/-- **Scanning is local.**  If no marker stands across the seam of two texts, the first one
    scans, and its walk meets no raw tag that is paired, then both texts together scan as they
    do one by one: to the spans of the first text and, further on by its bytes and lines,
    those of the second, with literal texts at the seam put together; or, if the second text
    does not scan, to its fault, further on. -/
theorem scan_append {isRaw : String → Bool} {a b : String} {S : List Span}
    (hseam : ¬SplitMarker a.toList b.toList) (ha : scan isRaw a = .ok S)
    (hraw : ∀ w, Walk.Reaches isRaw (.start a.toList) w →
      ∀ mark m, w.Meets mark m → m.role = .opening → isRaw m.name = false) :
    (∀ T, scan isRaw b = .ok T →
      scan isRaw (a ++ b) = .ok (meld S (T.map (Span.shift a.toList)))) ∧
    ∀ cause, scan isRaw b = .error cause →
      scan isRaw (a ++ b) = .error (cause.shift a.toList) := by
  obtain ⟨w, hreach, hdone, rfl⟩ := Walk.outcome_eq_ok_iff.1 ((Walk.outcome_start isRaw a).trans ha)
  have hfollows := hreach.follows hdone.seek hdone.opened hseam
  have hwhole : scan isRaw (a ++ b) = (w.extend b.toList).outcome isRaw := by
    rw [← Walk.outcome_start, String.toList_append]
    exact (hreach.extend fun w hw => Walk.keepsRaw_of_not_isRaw (hraw w hw)).outcome_eq
  rw [hwhole]
  constructor
  · intro T hb
    exact hfollows.outcome_ok hb
  · intro cause hb
    exact hfollows.outcome_error hb

/-- A tag with literal text around it. -/
def firstText : String := "é\n<?# A ?>x<?#/ A ?> <"

/-- Behind it comes literal text with a tag, or a tag that is left open. -/
theorem scan_append_firstText :
    (¬SplitMarker firstText.toList "!<?# B /?>".toList ∧
      scan (fun _ => false) firstText =
        .ok [.literal "é\n", .tag ⟨"A", ⟨[]⟩, "x", false, 3, 21, 2⟩, .literal " <"]) ∧
      scan (fun _ => false) (firstText ++ "!<?# B /?>") =
        .ok [.literal "é\n", .tag ⟨"A", ⟨[]⟩, "x", false, 3, 21, 2⟩, .literal " <!",
          .tag ⟨"B", ⟨[]⟩, "", true, 24, 33, 2⟩] ∧
      scan (fun _ => false) (firstText ++ "<?# B ?>") =
        .error ⟨"B", 2, 23, .missingCloser⟩ := by
  have hseam : ¬SplitMarker firstText.toList "!<?# B /?>".toList := by decide
  have hseam' : ¬SplitMarker firstText.toList "<?# B ?>".toList := by decide
  have hfirst : scan (fun _ => false) firstText =
      .ok [.literal "é\n", .tag ⟨"A", ⟨[]⟩, "x", false, 3, 21, 2⟩, .literal " <"] := by
    decide +kernel
  have hsecond : scan (fun _ => false) "!<?# B /?>" =
      .ok [.literal "!", .tag ⟨"B", ⟨[]⟩, "", true, 1, 10, 1⟩] := by decide +kernel
  have hfault : scan (fun _ => false) "<?# B ?>" = .error ⟨"B", 1, 0, .missingCloser⟩ := by
    decide +kernel
  refine ⟨⟨hseam, hfirst⟩, ?_, ?_⟩
  · rw [(scan_append hseam hfirst fun _ _ _ _ _ _ => rfl).1 _ hsecond]
    decide
  · rw [(scan_append hseam' hfirst fun _ _ _ _ _ _ => rfl).2 _ hfault]
    decide

end TagExpander.Markup
