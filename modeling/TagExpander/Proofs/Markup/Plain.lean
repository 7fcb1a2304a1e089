/-
  TagExpander.Proofs.Markup.Plain — texts in which no marker starts.

  A text without markers scans to itself, and so does every literal text that a scan
  finds.  Texts without markers can make up a marker when they are put together, but
  only across a seam:

      … <│?# …        … <?│# …

  Main results:
    * `containsMarker_eq_true_iff` — a text contains a marker if `<?#` stands in it.
    * `containsMarker_literal` — no literal text of a scan contains a marker.
    * `containsMarker_join_iff` — texts without markers contain one together exactly if
      it stands across a seam.
-/
import TagExpander.Proofs.Markup.Descent
import TagExpander.Proofs.Markup.Writing

namespace TagExpander.Markup

/-! ## §1. Where no marker starts. -/

/-- Somewhere in a text a marker starts exactly if the pattern stands in it. -/
theorem markerStart_infix_iff {cs : List Char} :
    markerStart <:+: cs ↔ ∃ j, startsMarker (cs.drop j) = true := by
  constructor
  · intro h
    obtain ⟨before, after, rfl⟩ := h
    refine ⟨before.length, startsMarker_iff.2 ⟨after, ?_⟩⟩
    rw [List.append_assoc, List.drop_left]
  · intro h
    obtain ⟨j, hj⟩ := h
    exact (startsMarker_iff.1 hj).isInfix.trans (List.drop_suffix j cs).isInfix

/-- A text contains a marker if `<?#` stands in it. -/
theorem containsMarker_eq_true_iff {text : String} :
    containsMarker text = true ↔ markerStart <:+: text.toList := by
  rw [markerStart_infix_iff, containsMarker, Option.isSome_iff_ne_none, Ne,
    Cursor.markerFrom_eq_none_iff]
  simp

theorem containsMarker_eq_false_iff {text : String} :
    containsMarker text = false ↔ ¬markerStart <:+: text.toList := by
  rw [← containsMarker_eq_true_iff, Bool.not_eq_true]

/-- Seeking finds nothing where no marker stands. -/
theorem seek_eq_none_iff_infix {here : Cursor} :
    here.seek = none ↔ ¬markerStart <:+: here.rest := by
  rw [Cursor.seek_eq_none_iff, markerStart_infix_iff]
  simp

/-! ## §2. Literal text. -/

/-- A text without markers scans to itself. -/
theorem scan_of_not_containsMarker (isRaw : String → Bool) {text : String}
    (h : containsMarker text = false) : scan isRaw text = .ok (literalSpans text.toList) := by
  have hseek : (Cursor.start text.toList).seek = none :=
    seek_eq_none_iff_infix.2 (containsMarker_eq_false_iff.1 h)
  refine scan_eq_ok_iff_derives.2 ⟨.text _, ⟨_, .text, ?_⟩, ?_⟩
  · rw [Cursor.ahead_of_none hseek]
    exact List.drop_length
  · rw [Content.spans, Cursor.upTo_ahead_of_none hseek]
    rfl

/-- A text that does not scan contains a marker. -/
theorem containsMarker_of_scan_error {isRaw : String → Bool} {text : String} {cause : Malformed}
    (h : scan isRaw text = .error cause) : containsMarker text = true := by
  rw [← Bool.not_eq_false]
  intro hplain
  rw [scan_of_not_containsMarker isRaw hplain] at h
  cases h

/-- No marker stands in front of the next one. -/
theorem not_infix_upTo {here mark : Cursor} (h : here.seek = some mark) :
    ¬markerStart <:+: here.upTo mark := by
  obtain ⟨k, rfl, -, hfirst⟩ := Cursor.seek_eq_some_iff.1 h
  rw [Cursor.upTo_skip, markerStart_infix_iff]
  intro hstarts
  obtain ⟨j, hj⟩ := hstarts
  have hprefix : (here.rest.take k).drop j <+: here.rest.drop j := by
    rw [List.drop_take]
    exact List.take_prefix _ _
  have hlength : ((here.rest.take k).drop j).length ≤ k - j := by
    rw [List.drop_take]
    exact List.length_take_le _ _
  have hthree : 3 ≤ ((here.rest.take k).drop j).length := (startsMarker_iff.1 hj).length_le
  -- the marker would start in front of the first one
  have hstart := startsMarker_iff.2 ((startsMarker_iff.1 hj).trans hprefix)
  rw [hfirst j (by omega)] at hstart
  cases hstart

theorem not_infix_upTo_ahead (here : Cursor) : ¬markerStart <:+: here.upTo here.ahead := by
  cases hs : here.seek with
  | none =>
      rw [Cursor.upTo_ahead_of_none hs]
      exact seek_eq_none_iff_infix.1 hs
  | some mark =>
      rw [Cursor.ahead_of_some hs]
      exact not_infix_upTo hs

theorem eq_of_literal_mem_literalSpans {literal : List Char} {text : String}
    (h : .literal text ∈ literalSpans literal) : text = String.ofList literal := by
  unfold literalSpans at h
  split at h
  · cases h
  · exact Span.literal.inj (List.mem_singleton.1 h)

theorem containsMarker_of_mem_literalSpans {literal : List Char} {text : String}
    (hplain : ¬markerStart <:+: literal) (h : .literal text ∈ literalSpans literal) :
    containsMarker text = false := by
  rw [eq_of_literal_mem_literalSpans h, containsMarker_eq_false_iff, String.toList_ofList]
  exact hplain

/-- The literal texts of a content are the one in front of the first tag, and those of the
    rest. -/
theorem literal_mem_spans_iff {literal : List Char} {text : String} {first : Tag}
    {rest : List Span} :
    .literal text ∈ literalSpans literal ++ .tag first :: rest ↔
      .literal text ∈ literalSpans literal ∨ .literal text ∈ rest := by
  rw [List.mem_append, List.mem_cons, or_iff_right (a := Span.literal text = .tag first) nofun]

/-- The literal texts of a content contain no marker. -/
theorem Derives.containsMarker_literal {isRaw : String → Bool} {here stop : Cursor} {c : Content}
    (h : Derives isRaw here c stop) {text : String} (htext : .literal text ∈ c.spans) :
    containsMarker text = false := by
  -- every form begins with the literal text up to the next marker
  induction h with
  | @text here => exact containsMarker_of_mem_literalSpans (not_infix_upTo_ahead here) htext
  | single hs _ _ _ ih | raw hs _ _ _ _ _ ih | paired hs _ _ _ _ _ _ _ ih =>
      rcases literal_mem_spans_iff.1 htext with hfirst | hrest
      · exact containsMarker_of_mem_literalSpans (not_infix_upTo hs) hfirst
      · exact ih hrest

/-- **No literal text of a scan contains a marker.** -/
theorem containsMarker_literal {isRaw : String → Bool} {text literal : String}
    {spans : List Span} (h : scan isRaw text = .ok spans) (hmem : .literal literal ∈ spans) :
    containsMarker literal = false := by
  obtain ⟨content, ⟨stop, hcontent, -⟩, rfl⟩ := scan_eq_ok_iff_derives.1 h
  exact hcontent.containsMarker_literal hmem

/-! ## §3. Texts put together. -/

/-- A marker stands across the seam of two texts. -/
def SplitMarker (front behind : List Char) : Prop :=
  (['<'] <:+ front ∧ ['?', '#'] <+: behind) ∨ (['<', '?'] <:+ front ∧ ['#'] <+: behind)

instance (front behind : List Char) : Decidable (SplitMarker front behind) :=
  inferInstanceAs (Decidable (_ ∨ _))

/-- The two parts of a marker that is split. -/
theorem markerStart_eq_append_iff {xs ys : List Char} (hx : xs ≠ []) (hy : ys ≠ []) :
    markerStart = xs ++ ys ↔ (xs = ['<'] ∧ ys = ['?', '#']) ∨ (xs = ['<', '?'] ∧ ys = ['#']) := by
  constructor
  · intro h
    -- the pattern has three characters, so the first part has one or two
    match xs, hx with
    | [x], _ =>
        obtain ⟨rfl, rfl⟩ := List.cons.inj h
        exact .inl ⟨rfl, rfl⟩
    | [x, x'], _ =>
        obtain ⟨rfl, htail⟩ := List.cons.inj h
        obtain ⟨rfl, rfl⟩ := List.cons.inj htail
        exact .inr ⟨rfl, rfl⟩
    | x :: x' :: x'' :: xs, _ =>
        have hlength := congrArg List.length h
        have hpos := List.length_pos_iff.2 hy
        simp only [markerStart, List.length_append, List.length_cons, List.length_nil] at hlength
        omega
  · rintro (⟨rfl, rfl⟩ | ⟨rfl, rfl⟩) <;> rfl

/-- A marker in two texts put together stands in one of them or across the seam. -/
theorem markerStart_infix_append_iff {front behind : List Char} :
    markerStart <:+: front ++ behind ↔
      markerStart <:+: front ∨ markerStart <:+: behind ∨ SplitMarker front behind := by
  rw [List.infix_append_iff_ne_nil]
  refine or_congr_right (or_congr_right ?_)
  constructor
  · intro h
    obtain ⟨xs, ys, hx, hy, hsplit, hfront, hbehind⟩ := h
    rcases (markerStart_eq_append_iff hx hy).1 hsplit with ⟨rfl, rfl⟩ | ⟨rfl, rfl⟩
    · exact .inl ⟨hfront, hbehind⟩
    · exact .inr ⟨hfront, hbehind⟩
  · intro h
    rcases h with ⟨hfront, hbehind⟩ | ⟨hfront, hbehind⟩
    · exact ⟨['<'], ['?', '#'], nofun, nofun, rfl, hfront, hbehind⟩
    · exact ⟨['<', '?'], ['#'], nofun, nofun, rfl, hfront, hbehind⟩

/-- Behind one of the texts a marker stands across the seam; it may reach over several of
    those that follow. -/
def SeamMarker : List String → Prop
  | [] => False
  | text :: texts => SplitMarker text.toList (String.join texts).toList ∨ SeamMarker texts

instance decidableSeamMarker : (texts : List String) → Decidable (SeamMarker texts)
  | [] => .isFalse id
  | text :: texts =>
    have := decidableSeamMarker texts
    inferInstanceAs (Decidable (SplitMarker text.toList (String.join texts).toList ∨ _))

/-- **Texts without markers contain one together exactly if it stands across a seam.** -/
theorem containsMarker_join_iff {texts : List String}
    (hplain : ∀ text ∈ texts, containsMarker text = false) :
    containsMarker (String.join texts) = true ↔ SeamMarker texts := by
  -- on the texts; all that follows the first one is behind its seam
  induction texts with
  | nil => exact iff_of_false (by decide +kernel) id
  | cons text texts ih =>
      have htext := containsMarker_eq_false_iff.1 (hplain text List.mem_cons_self)
      have hrest := ih fun other hother => hplain other (List.mem_cons_of_mem text hother)
      rw [containsMarker_eq_true_iff] at hrest ⊢
      rw [String.join_cons, String.toList_append, markerStart_infix_append_iff,
        or_iff_right htext, or_comm, hrest]
      rfl

end TagExpander.Markup
