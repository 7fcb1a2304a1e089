/-
  TagExpander.Proofs.Markup.Tiling — the spans of a text, laid end to end.

  A scan cuts a text into literal text and tags, without a gap and without an overlap:

      literal │ <?# … /?> │ <?# … ?> content <?#/ … ?> │ literal
              ↑ start     ↑ stop

  The positions of a tag are counted in bytes, its line in line feeds, and both from the
  start of the whole text.  What is proved here is an invariant on what stands in front
  of the spans that are still to be laid (`Lays`).

  Main results:
    * `Derives.lays` — the items of a content are laid end to end.
    * `scan_tiles` — the spans of a scan make up the text, and every position, line and
      content of a tag is what stands there.
-/
import TagExpander.Proofs.Markup.Fragment
import TagExpander.Proofs.Markup.Plain
import TagExpander.Proofs.Markup.RawTags
import TagExpander.Proofs.Text.Offsets

namespace TagExpander.Markup

/-! ## §1. Parts of a text. -/

/-- The part of a text between two byte positions. -/
def slice (text : String) (start stop : Nat) : String :=
  String.Pos.Raw.extract text ⟨start⟩ ⟨stop⟩

/-- The tag of a span, if it is one. -/
def Span.tag? : Span → Option Tag
  | .tag t => some t
  | .literal _ => none

/-- What a span of a text was cut out of it as. -/
def Span.source (text : String) : Span → String
  | .literal s => s
  | .tag t => slice text t.start t.stop

/-- The spans make up the text. -/
structure Tiles (text : String) (spans : List Span) : Prop where
  /-- No tag takes up nothing. -/
  nonempty : ∀ t, .tag t ∈ spans → t.start < t.stop
  /-- Every tag ends in front of those that follow. -/
  increasing : (spans.filterMap Span.tag?).Pairwise fun a b => a.stop ≤ b.start
  /-- No literal text is empty, and none contains a marker. -/
  literals : ∀ literal, .literal literal ∈ spans →
    literal ≠ "" ∧ containsMarker literal = false
  /-- Of two spans in a row one is a tag. -/
  apart : spans.IsChain fun a b => a.tag?.isSome ∨ b.tag?.isSome
  /-- The literal texts and the source texts of the tags are the whole text. -/
  whole : String.join (spans.map (Span.source text)) = text
  /-- The content of a tag is a part of its source text, without gaps. -/
  contents : ∀ t, .tag t ∈ spans → ∃ start stop, t.start ≤ start ∧ start ≤ stop ∧
    stop ≤ t.stop ∧ slice text start stop = t.content
  /-- A single marker has no content. -/
  singles : ∀ t, .tag t ∈ spans → t.selfClosing = true → t.content = ""
  /-- The line of a tag is counted from the start of the text. -/
  lines : ∀ t, .tag t ∈ spans → t.line = 1 + Text.newlines (slice text 0 t.start).toList
  /-- There is a tag exactly if the text contains a marker. -/
  tagged : (∃ t, .tag t ∈ spans) ↔ containsMarker text = true

/-- What stands between two texts is cut out at its byte positions. -/
theorem slice_of_append (front part behind : List Char) :
    slice (String.ofList (front ++ part ++ behind)) (Text.bytes front)
      (Text.bytes (front ++ part)) = String.ofList part :=
  Text.extract_of_append front part behind

/-! ## §2. Spans behind a text. -/

/-- The tag stands behind a text and takes up its source text. -/
structure Occupies (before source : List Char) (t : Tag) : Prop where
  start : t.start = Text.bytes before
  stop : t.stop = Text.bytes (before ++ source)
  line : t.line = Text.newlines before + 1
  starts : markerStart <+: source
  content : t.content.toList <:+: source
  single : t.selfClosing = true → t.content = ""

/-- The spans, laid end to end behind a text, make up what follows it. -/
inductive Lays : (before rest : List Char) → List Span → Prop where
  | text {before literal : List Char} (hplain : ¬markerStart <:+: literal) :
      Lays before literal (literalSpans literal)
  | tag {before literal source rest : List Char} {t : Tag} {spans : List Span}
      (hplain : ¬markerStart <:+: literal) (htag : Occupies (before ++ literal) source t)
      (hrest : Lays (before ++ literal ++ source) rest spans) :
      Lays before (literal ++ source ++ rest) (literalSpans literal ++ .tag t :: spans)

namespace Occupies

variable {before source : List Char} {t : Tag}

theorem start_lt_stop (h : Occupies before source t) : t.start < t.stop := by
  have hsource : source ≠ [] := by
    intro hnil
    have hstarts := h.starts
    rw [hnil] at hstarts
    cases List.prefix_nil.1 hstarts
  have hpos := Text.bytes_pos hsource
  rw [h.start, h.stop, Text.bytes_append]
  omega

/-- The tag is cut out of the text as its source text. -/
theorem source_eq (h : Occupies before source t) (behind : List Char) :
    (Span.tag t).source (String.ofList (before ++ source ++ behind)) = String.ofList source := by
  show slice _ t.start t.stop = _
  rw [h.start, h.stop]
  exact slice_of_append before source behind

theorem line_eq (h : Occupies before source t) (behind : List Char) :
    t.line =
      1 + Text.newlines (slice (String.ofList (before ++ source ++ behind)) 0 t.start).toList := by
  have hfront := slice_of_append [] before (source ++ behind)
  rw [List.nil_append, Text.bytes_nil, ← List.append_assoc] at hfront
  rw [h.line, h.start, hfront, String.toList_ofList, Nat.add_comm]

theorem content_eq (h : Occupies before source t) (behind : List Char) :
    ∃ start stop, t.start ≤ start ∧ start ≤ stop ∧ stop ≤ t.stop ∧
      slice (String.ofList (before ++ source ++ behind)) start stop = t.content := by
  obtain ⟨front, back, hsource⟩ := h.content
  have hpart := slice_of_append (before ++ front) t.content.toList (back ++ behind)
  refine ⟨_, _, ?_, ?_, ?_, Eq.trans (congrArg (slice · _ _) ?_) (hpart.trans ?_)⟩
  · rw [h.start, Text.bytes_append]
    omega
  · rw [Text.bytes_append (before ++ front)]
    omega
  · rw [h.stop, ← hsource]
    simp only [Text.bytes_append]
    omega
  · rw [← hsource]
    simp only [List.append_assoc]
  · exact String.ofList_toList

end Occupies

namespace Lays

variable {before rest : List Char} {spans : List Span}

/-- Where a tag among the spans stands. -/
theorem occupies (h : Lays before rest spans) {t : Tag} (ht : .tag t ∈ spans) :
    ∃ front source behind, before ++ rest = front ++ source ++ behind ∧
      Text.bytes before ≤ Text.bytes front ∧ Occupies front source t := by
  induction h with
  | text => exact absurd ht (tag_not_mem_literalSpans t _)
  | @tag before literal source rest first spans _ htag _ ih =>
      rcases tag_mem_spans_iff.1 ht with rfl | hrest
      · refine ⟨before ++ literal, source, rest, by simp only [List.append_assoc], ?_, htag⟩
        rw [Text.bytes_append]
        omega
      · obtain ⟨front, source', behind, heq, hle, hocc⟩ := ih hrest
        refine ⟨front, source', behind, by rw [← heq]; simp only [List.append_assoc], ?_, hocc⟩
        simp only [Text.bytes_append] at hle
        omega

/-- A literal text among the spans is not empty and contains no marker. -/
theorem literal (h : Lays before rest spans) {text : String} (ht : .literal text ∈ spans) :
    text ≠ "" ∧ containsMarker text = false := by
  have hfirst : ∀ {literal : List Char}, ¬markerStart <:+: literal →
      .literal text ∈ literalSpans literal → text ≠ "" ∧ containsMarker text = false := by
    intro literal hplain hmem
    refine ⟨?_, containsMarker_of_mem_literalSpans hplain hmem⟩
    rintro rfl
    have hnil : [] = literal :=
      (congrArg String.toList (eq_of_literal_mem_literalSpans hmem)).trans String.toList_ofList
    rw [← hnil] at hmem
    cases hmem
  induction h with
  | text hplain => exact hfirst hplain ht
  | tag hplain _ _ ih =>
      rcases literal_mem_spans_iff.1 ht with hmem | hrest
      · exact hfirst hplain hmem
      · exact ih hrest

/-- The tags of a content are the first one and those of the rest. -/
theorem tags_append (literal : List Char) (t : Tag) (spans : List Span) :
    (literalSpans literal ++ .tag t :: spans).filterMap Span.tag? =
      t :: spans.filterMap Span.tag? := by
  unfold literalSpans
  split <;> rfl

/-- Every tag ends in front of those that follow. -/
theorem increasing (h : Lays before rest spans) :
    (spans.filterMap Span.tag?).Pairwise fun a b => a.stop ≤ b.start := by
  induction h with
  | @text before literal =>
      unfold literalSpans
      split <;> exact .nil
  | @tag before literal source rest t spans _ htag hrest ih =>
      rw [tags_append]
      refine .cons (fun other hother => ?_) ih
      obtain ⟨span, hspan, htag?⟩ := List.mem_filterMap.1 hother
      cases span with
      | literal _ => cases htag?
      | tag _ =>
          cases htag?
          obtain ⟨front, source', behind, -, hle, hocc⟩ := hrest.occupies hspan
          rw [htag.stop, hocc.start]
          exact hle

/-- Of two spans in a row one is a tag. -/
theorem apart (h : Lays before rest spans) :
    spans.IsChain fun a b => a.tag?.isSome ∨ b.tag?.isSome := by
  induction h with
  | @text before literal =>
      unfold literalSpans
      split
      · exact .nil
      · exact .singleton _
  | @tag before literal source rest t spans _ _ _ ih =>
      have hbehind : (Span.tag t :: spans).IsChain fun a b => a.tag?.isSome ∨ b.tag?.isSome := by
        cases spans with
        | nil => exact .singleton _
        | cons span spans => exact .cons_cons (.inl rfl) ih
      unfold literalSpans
      split
      · exact hbehind
      · exact .cons_cons (.inr rfl) hbehind

/-- The literal texts and the source texts of the tags make up what was cut. -/
theorem whole (h : Lays before rest spans) :
    String.join (spans.map (Span.source (String.ofList (before ++ rest)))) =
      String.ofList rest := by
  have hliteral (text : String) (literal : List Char) :
      String.join ((literalSpans literal).map (Span.source text)) = String.ofList literal := by
    unfold literalSpans
    split
    next hnil => rw [hnil]; rfl
    next => rw [List.map_singleton, String.join_cons]; exact String.append_empty
  induction h with
  | text => exact hliteral _ _
  | @tag before literal source rest t spans _ htag _ ih =>
      have htext : before ++ (literal ++ source ++ rest) = before ++ literal ++ source ++ rest := by
        simp only [List.append_assoc]
      rw [htext, List.map_append, List.map_cons, String.join_append, String.join_cons, hliteral,
        htag.source_eq, ih, ← String.ofList_append, ← String.ofList_append, List.append_assoc]

/-- There is a tag exactly if a marker stands in what was cut. -/
theorem tagged (h : Lays before rest spans) :
    (∃ t, .tag t ∈ spans) ↔ markerStart <:+: rest := by
  cases h with
  | text hplain =>
      refine iff_of_false ?_ hplain
      rintro ⟨t, ht⟩
      exact tag_not_mem_literalSpans t _ ht
  | tag _ htag _ =>
      refine iff_of_true ⟨_, List.mem_append_right _ List.mem_cons_self⟩ ?_
      exact htag.starts.isInfix.trans ⟨_, _, rfl⟩

/-- Spans that are laid end to end from the start of a text make it up. -/
theorem tiles {text : String} (h : Lays [] text.toList spans) : Tiles text spans := by
  have hplace : ∀ {t : Tag}, .tag t ∈ spans → ∃ front source behind,
      text = String.ofList (front ++ source ++ behind) ∧ Occupies front source t := by
    intro t ht
    obtain ⟨front, source, behind, htext, -, hocc⟩ := h.occupies ht
    rw [List.nil_append] at htext
    exact ⟨front, source, behind, by rw [← htext, String.ofList_toList], hocc⟩
  refine ⟨?_, h.increasing, fun _ => h.literal, h.apart, ?_, ?_, ?_, ?_, ?_⟩
  · intro t ht
    obtain ⟨front, source, behind, -, hocc⟩ := hplace ht
    exact hocc.start_lt_stop
  · have hwhole := h.whole
    rw [List.nil_append, String.ofList_toList] at hwhole
    exact hwhole
  · intro t ht
    obtain ⟨front, source, behind, rfl, hocc⟩ := hplace ht
    exact hocc.content_eq behind
  · intro t ht
    obtain ⟨front, source, behind, -, hocc⟩ := hplace ht
    exact hocc.single
  · intro t ht
    obtain ⟨front, source, behind, rfl, hocc⟩ := hplace ht
    exact hocc.line_eq behind
  · rw [h.tagged, containsMarker_eq_true_iff]

end Lays

/-! ## §3. The items of a content. -/

/-- The cursor stands behind the text. -/
structure Cursor.Behind (before : List Char) (c : Cursor) : Prop where
  bytes : c.bytes = Text.bytes before
  newlines : c.newlines = Text.newlines before

/-- A cursor that is moved stands behind what it has passed. -/
theorem Cursor.Behind.skip {before : List Char} {c : Cursor} (h : c.Behind before) (n : Nat) :
    (c.skip n).Behind (before ++ c.rest.take n) := by
  refine ⟨?_, ?_⟩
  · rw [Text.bytes_append, ← h.bytes]
    rfl
  · rw [Text.newlines_append, ← h.newlines]
    rfl

/-- A tag that starts at the next marker and takes up `n` characters is laid in front of
    what is laid behind it. -/
theorem Lays.of_marker {before : List Char} {here mark : Cursor} {t : Tag} {spans : List Span}
    {n : Nat} (hbehind : here.Behind before) (hs : here.seek = some mark) (hn : 3 ≤ n)
    (hstart : t.start = mark.bytes) (hstop : t.stop = (mark.skip n).bytes)
    (hline : t.line = mark.line) (hcontent : t.content.toList <:+: mark.rest.take n)
    (hsingle : t.selfClosing = true → t.content = "")
    (hrest : ∀ {front : List Char}, (mark.skip n).Behind front →
      Lays front (mark.skip n).rest spans) :
    Lays before here.rest (literalSpans (here.upTo mark) ++ .tag t :: spans) := by
  have hplain := not_infix_upTo hs
  obtain ⟨k, rfl, hk, -⟩ := Cursor.seek_eq_some_iff.1 hs
  rw [Cursor.upTo_skip] at hplain ⊢
  have hmark := hbehind.skip k
  have hbehindTag := hmark.skip n
  have htag : Occupies (before ++ here.rest.take k) ((here.rest.drop k).take n) t := by
    refine ⟨?_, ?_, ?_, ?_, hcontent, hsingle⟩
    · rw [hstart, hmark.bytes]
    · rw [hstop, hbehindTag.bytes, Cursor.rest_skip]
    · rw [hline, Cursor.line, hmark.newlines]
    · exact List.prefix_take_iff.2 ⟨startsMarker_iff.1 hk, hn⟩
  have hlays := Lays.tag hplain htag (hrest hbehindTag)
  rw [Cursor.rest_skip, Cursor.rest_skip, List.append_assoc, List.take_append_drop,
    List.take_append_drop] at hlays
  exact hlays

/-- What stands between an opening marker and its closer is a part of the whole tag. -/
theorem content_infix_take (mark : Cursor) (length n closing : Nat) :
    (String.ofList ((mark.skip length).upTo ((mark.skip length).skip n))).toList <:+:
      mark.rest.take (length + (n + closing)) := by
  rw [String.toList_ofList, Cursor.upTo_skip, Cursor.rest_skip, List.take_add, List.take_add,
    ← List.append_assoc]
  exact ⟨_, _, rfl⟩

/-- **The items of a content are laid end to end**, up to the end of the text. -/
theorem Derives.lays {isRaw : String → Bool} {here stop : Cursor} {c : Content}
    (h : Derives isRaw here c stop) (hend : stop.rest = []) {before : List Char}
    (hbehind : here.Behind before) : Lays before here.rest c.spans := by
  -- every form is a marker, what belongs to its tag, and a content behind it
  induction h generalizing before with
  | @text here =>
      have hplain := not_infix_upTo_ahead here
      have hrest : here.upTo here.ahead = here.rest := by
        cases hs : here.seek with
        | none => exact Cursor.upTo_ahead_of_none hs
        | some mark =>
            rw [Cursor.ahead_of_some hs] at hend
            exact absurd hend (Cursor.rest_ne_nil_of_seek hs)
      rw [hrest] at hplain
      rw [Content.spans, hrest]
      exact .text hplain
  | @single here mark stop m rest hs hm _ _ ih =>
      have hlength := Marker.three_lt_length hm
      exact .of_marker hbehind hs (by omega) rfl rfl rfl List.nil_infix (fun _ => rfl)
        fun hfront => ih hend hfront
  | @raw here mark closer next stop m rest hs hm _ _ hclose _ ih =>
      have hlength := Marker.three_lt_length hm
      obtain ⟨n, closing, -, rfl, rfl⟩ := closerAt?_of_rawCloser hclose
      have hskip := Cursor.skip_skip mark m.length (n + closing.length)
      exact .of_marker (n := m.length + (n + closing.length)) hbehind hs (by omega) rfl
        (congrArg Cursor.bytes hskip) rfl (content_infix_take mark _ _ _) Bool.noConfusion
        fun hfront => hskip ▸ ih hend (hskip ▸ hfront)
  | @paired here mark closer stop m closing inner rest hs hm _ _ hinner _ _ _ ih =>
      have hlength := Marker.three_lt_length hm
      obtain ⟨n, -, rfl, -⟩ := hinner.cut
      have hskip : ((mark.skip m.length).skip n).skip closing.length =
          mark.skip (m.length + (n + closing.length)) := by
        rw [Cursor.skip_skip, Cursor.skip_skip]
      exact .of_marker (n := m.length + (n + closing.length)) hbehind hs (by omega) rfl
        (congrArg Cursor.bytes hskip) rfl (content_infix_take mark _ _ _) Bool.noConfusion
        fun hfront => hskip ▸ ih hend (hskip ▸ hfront)

/-- **The spans of a scan make up the text.**  And a text without markers need not be
    scanned: it is its only span. -/
theorem scan_tiles (isRaw : String → Bool) (text : String) :
    (∀ spans, scan isRaw text = .ok spans → Tiles text spans) ∧
      (containsMarker text = false → scan isRaw text = .ok (literalSpans text.toList)) := by
  refine ⟨?_, scan_of_not_containsMarker isRaw⟩
  intro spans hscan
  obtain ⟨content, ⟨stop, hcontent, hend⟩, rfl⟩ := scan_eq_ok_iff_derives.1 hscan
  exact (hcontent.lays hend ⟨rfl, rfl⟩).tiles

/-- A paired tag with another one in it, a raw tag and a single marker, on three lines. -/
def mixedTags : String := "é<?# A ?>x<?# B /?><?#/ a ?>\n<?# Raw ?><?#/ B ?><?#/ Raw ?>\n<?# B/?>."

/-- The spans of this text, and those of one without markers. -/
theorem scan_tiles_mixedTags :
    let spans : List Span :=
      [.literal "é", .tag ⟨"A", ⟨[]⟩, "x<?# B /?>", false, 2, 29, 1⟩, .literal "\n",
        .tag ⟨"Raw", ⟨[]⟩, "<?#/ B ?>", false, 30, 60, 2⟩, .literal "\n",
        .tag ⟨"B", ⟨[]⟩, "", true, 61, 69, 3⟩, .literal "."]
    (scan (Text.same · "RAW") mixedTags = .ok spans ∧ Tiles mixedTags spans) ∧
      (containsMarker "<? # ?>" = false ∧
        scan (Text.same · "RAW") "<? # ?>" = .ok (literalSpans "<? # ?>".toList)) := by
  intro spans
  have hscan : scan (Text.same · "RAW") mixedTags = .ok spans := by decide +kernel
  have hplain : containsMarker "<? # ?>" = false := by decide +kernel
  exact ⟨⟨hscan, (scan_tiles (Text.same · "RAW") mixedTags).1 spans hscan⟩, hplain,
    (scan_tiles (Text.same · "RAW") "<? # ?>").2 hplain⟩

end TagExpander.Markup
