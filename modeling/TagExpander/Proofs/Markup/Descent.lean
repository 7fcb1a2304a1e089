/-
  TagExpander.Proofs.Markup.Descent — the walk over a text finds its derivation.

  The walk goes through the text once and keeps the open tags on a list; the grammar
  goes down into every tag.  What the walk still has to find, at a place with these open
  tags, is a content up to the closing marker of the innermost one, then one up to that
  of the next, and at last one up to the end of the text (`Resumes`).

  Main results:
    * `rawCloser_of_read`, `scanFrom_of_read` — what the search for the end of a raw tag and
      the walk do at the next marker.
    * `scanFrom_eq_ok_iff` — the walk succeeds exactly where that is so.
    * `scan_eq_ok_iff_derives` — a text scans exactly when it has a derivation, and then
      to the items of that derivation.
-/
import TagExpander.Proofs.Markup.Pairing

namespace TagExpander.Markup

/-! ## §1. Literal text. -/

namespace Cursor

/-- The text up to a place further on. -/
theorem upTo_skip (c : Cursor) (n : Nat) : c.upTo (c.skip n) = c.rest.take n := by
  show c.rest.take (c.chars + (c.rest.take n).length - c.chars) = c.rest.take n
  rw [Nat.add_sub_cancel_left, List.length_take, ← List.take_eq_take_min]

/-- Behind the last marker, the text goes on to the end. -/
theorem upTo_ahead_of_none {c : Cursor} (h : c.seek = none) : c.upTo c.ahead = c.rest := by
  rw [ahead_of_none h, upTo_skip, List.take_length]

end Cursor

namespace Found

theorem reverse_addLiteral (spans : List Span) (literal : List Char) :
    (addLiteral spans literal).reverse = spans.reverse ++ literalSpans literal := by
  cases literal with
  | nil => exact (List.append_nil _).symm
  | cons x xs =>
      show (Span.literal (String.ofList (x :: xs)) :: spans).reverse = _
      rw [List.reverse_cons, literalSpans, if_neg (List.cons_ne_nil x xs)]

/-- What was found, with one more tag. -/
theorem reverse_spans_add (f : Found) (t : OpenTag) (closer : Option Cursor) (next : Cursor) :
    (f.add t closer next).spans.reverse =
      f.spans.reverse ++ literalSpans (f.upTo.upTo t.start) ++ [.tag (t.close closer next)] := by
  show (Span.tag (t.close closer next) :: addLiteral f.spans (f.upTo.upTo t.start)).reverse = _
  rw [List.reverse_cons, reverse_addLiteral]

end Found

/-! ## §2. What is left to be found. -/

/-- What was found, with the tag if it stands in no other tag. -/
def Found.record (f : Found) (opened : List OpenTag) (t : OpenTag) (closer : Option Cursor)
    (next : Cursor) : Found :=
  if opened.isEmpty then f.add t closer next else f

/-- Behind a content inside the open tags, the tags are closed one by one, with a content
    between the closing markers, and the text ends; this gives the spans. -/
def Follows (isRaw : String → Bool) (spans : List Span) :
    List OpenTag → Content → Cursor → Found → Prop
  | [], content, stop, found =>
    stop.rest = [] ∧ spans = found.spans.reverse ++ content.spans
  | t :: outer, _, closer, found =>
    ∃ closing, ClosedBy t.name closer closing ∧
      ∃ content stop, Derives isRaw (closer.skip closing.length) content stop ∧
        Follows isRaw spans outer content stop
          (found.record outer t (some closer) (closer.skip closing.length))

/-- At a place inside the open tags, the rest of the text gives the spans. -/
def Resumes (isRaw : String → Bool) (spans : List Span) (here : Cursor)
    (opened : List OpenTag) (found : Found) : Prop :=
  ∃ content stop, Derives isRaw here content stop ∧
    Follows isRaw spans opened content stop found

variable {isRaw : String → Bool} {spans : List Span} {here mark : Cursor}
  {opened : List OpenTag} {found : Found} {m : Marker}

theorem Follows.halts {content : Content} {stop : Cursor}
    (h : Follows isRaw spans opened content stop found) : Halts stop := by
  cases opened with
  | nil => exact .inl h.1
  | cons t outer =>
      obtain ⟨closing, hclose, -⟩ := h
      exact hclose.halts

/-- A tag in front of a content is recorded, or is the business of the tag around it. -/
theorem follows_record {content rest : Content} {stop next : Cursor} {t : OpenTag}
    {closer : Option Cursor} (hupTo : opened = [] → found.upTo = here)
    (hspans : content.spans =
      literalSpans (here.upTo t.start) ++ .tag (t.close closer next) :: rest.spans) :
    Follows isRaw spans opened content stop found ↔
      Follows isRaw spans opened rest stop (found.record opened t closer next) := by
  cases opened with
  | nil =>
      -- the literal text in front of the tag is recorded together with it
      have hfound : (found.record [] t closer next).spans.reverse ++ rest.spans =
          found.spans.reverse ++ content.spans := by
        show (found.add t closer next).spans.reverse ++ rest.spans = _
        rw [Found.reverse_spans_add, hupTo rfl, hspans]
        simp only [List.append_assoc, List.singleton_append]
      rw [Follows, Follows, hfound]
  -- inside an open tag only the place of its closer counts
  | cons outermost outer => exact Iff.rfl

/-! ## §3. One round of the two loops. -/

section Round

variable {name : String}

/-- The search for the end of a raw tag finds nothing behind the last marker. -/
theorem rawCloser_of_none (hs : here.seek = none) : rawCloser name here = none := by
  rw [rawCloser]
  split
  · rfl
  next h => cases hs.symm.trans h

/-- The walk is over behind the last marker, and what is still open there is at fault. -/
theorem scanFrom_of_none (hs : here.seek = none) :
    scanFrom isRaw here opened found =
      match opened.getLast? with
      | some outermost => .error (.blame outermost.start outermost.name .missingCloser)
      | none => .ok found.finish := by
  rw [scanFrom]
  split
  · rfl
  next h => cases hs.symm.trans h

variable (hs : here.seek = some mark)
include hs

/-- What is no marker is passed over by the search for the end of a raw tag. -/
theorem rawCloser_of_error {fault : String × Fault} (hm : Marker.read mark.rest = .error fault) :
    rawCloser name here = rawCloser name (mark.skip 3) := by
  rw [rawCloser]
  split
  next h => cases hs.symm.trans h
  next h =>
    cases hs.symm.trans h
    split
    · rfl
    next h => cases hm.symm.trans h

/-- A marker ends the search if it is a closing one of the name, or else is passed over. -/
theorem rawCloser_of_read (hm : Marker.read mark.rest = .ok m) :
    rawCloser name here =
      if m.role == .closing && Text.same m.name name then some (mark, mark.skip m.length)
      else rawCloser name (mark.skip m.length) := by
  rw [rawCloser]
  split
  next h => cases hs.symm.trans h
  next h =>
    cases hs.symm.trans h
    split
    next h => cases hm.symm.trans h
    next h => cases hm.symm.trans h; rfl

/-- What is no marker is at fault in the walk. -/
theorem scanFrom_of_error {fault : Fault} (hm : Marker.read mark.rest = .error (name, fault)) :
    scanFrom isRaw here opened found = .error (.blame mark name fault) := by
  rw [scanFrom]
  split
  next h => cases hs.symm.trans h
  next h =>
    cases hs.symm.trans h
    split
    next h =>
      cases hm.symm.trans h
      rfl
    next h => cases hm.symm.trans h

/-- What the walk does at a marker. -/
theorem scanFrom_of_read (hm : Marker.read mark.rest = .ok m) :
    scanFrom isRaw here opened found =
      match m.role with
      | .selfClosing =>
        scanFrom isRaw (mark.skip m.length) opened
          (found.record opened (.ofMarker m mark) none (mark.skip m.length))
      | .opening =>
        if isRaw m.name then
          match rawCloser m.name (mark.skip m.length) with
          | none => .error (.blame mark m.name .missingCloser)
          | some (closer, stop) =>
            scanFrom isRaw stop opened
              (found.record opened (.ofMarker m mark) (some closer) stop)
        else scanFrom isRaw (mark.skip m.length) (.ofMarker m mark :: opened) found
      | .closing =>
        match opened with
        | [] => .error (.blame mark m.name .strayCloser)
        | innermost :: outer =>
          if Text.same innermost.name m.name then
            scanFrom isRaw (mark.skip m.length) outer
              (found.record outer innermost (some mark) (mark.skip m.length))
          else if outer.any fun t => Text.same t.name m.name then
            .error (.blame innermost.start innermost.name .missingCloser)
          else .error (.blame mark m.name .strayCloser) := by
  rw [scanFrom]
  split
  next h => cases hs.symm.trans h
  next h =>
    cases hs.symm.trans h
    split
    next h => cases hm.symm.trans h
    next h =>
      cases hm.symm.trans h
      cases m.role with
      | selfClosing => rfl
      | opening =>
          dsimp only
          split
          · split
            next h => rw [h]
            next h =>
              rw [h]
              rfl
          · rfl
      | closing => rfl

end Round

/-! ## §4. One marker of the walk. -/

section Step

variable (hs : here.seek = some mark) (hm : Marker.read mark.rest = .ok m)
include hs hm

theorem resumes_selfClosing (hrole : m.role = .selfClosing)
    (hupTo : opened = [] → found.upTo = here) :
    Resumes isRaw spans here opened found ↔
      Resumes isRaw spans (mark.skip m.length) opened
        (found.record opened (.ofMarker m mark) none (mark.skip m.length)) := by
  constructor
  · intro h
    obtain ⟨content, stop, hcontent, hfollows⟩ := h
    obtain ⟨rest, rfl, hrest⟩ := hcontent.of_selfClosing hfollows.halts hs hm hrole
    exact ⟨rest, stop, hrest, (follows_record hupTo rfl).1 hfollows⟩
  · intro h
    obtain ⟨rest, stop, hrest, hfollows⟩ := h
    exact ⟨.single (here.upTo mark) mark m rest, stop, .single hs hm hrole hrest,
      (follows_record hupTo rfl).2 hfollows⟩

theorem resumes_raw {closer next : Cursor} (hrole : m.role = .opening)
    (hraw : isRaw m.name = true)
    (hclose : rawCloser m.name (mark.skip m.length) = some (closer, next))
    (hupTo : opened = [] → found.upTo = here) :
    Resumes isRaw spans here opened found ↔
      Resumes isRaw spans next opened
        (found.record opened (.ofMarker m mark) (some closer) next) := by
  constructor
  · intro h
    obtain ⟨content, stop, hcontent, hfollows⟩ := h
    obtain ⟨closer', next', rest, rfl, hclose', hrest⟩ :=
      hcontent.of_raw hfollows.halts hs hm hrole hraw
    -- the derivation passes over the same opaque text as the walk
    rw [hclose] at hclose'
    cases hclose'
    exact ⟨rest, stop, hrest, (follows_record hupTo rfl).1 hfollows⟩
  · intro h
    obtain ⟨rest, stop, hrest, hfollows⟩ := h
    exact ⟨.raw (here.upTo mark) mark m closer next rest, stop,
      .raw hs hm hrole hraw hclose hrest, (follows_record hupTo rfl).2 hfollows⟩

/-- Behind an opening marker, its tag is one more that has to be closed. -/
theorem resumes_opening (hrole : m.role = .opening) (hraw : isRaw m.name = false)
    (hupTo : opened = [] → found.upTo = here) :
    Resumes isRaw spans here opened found ↔
      Resumes isRaw spans (mark.skip m.length) (.ofMarker m mark :: opened) found := by
  constructor
  · intro h
    obtain ⟨content, stop, hcontent, hfollows⟩ := h
    obtain ⟨inner, closer, closing, rest, rfl, hinner, hclose, hrest⟩ :=
      hcontent.of_paired hfollows.halts hs hm hrole hraw
    exact ⟨inner, closer, hinner, closing, hclose, rest, stop, hrest,
      (follows_record hupTo rfl).1 hfollows⟩
  · intro h
    obtain ⟨inner, closer, hinner, closing, hclose, rest, stop, hrest, hfollows⟩ := h
    exact ⟨.paired (here.upTo mark) mark m inner closer closing rest, stop,
      .paired hs hm hrole hraw hinner hclose hrest, (follows_record hupTo rfl).2 hfollows⟩

/-- A closing marker can only close the innermost open tag. -/
theorem resumes_closing (hrole : m.role = .closing) {innermost : OpenTag}
    {outer : List OpenTag} :
    Resumes isRaw spans here (innermost :: outer) found ↔
      Text.same innermost.name m.name = true ∧
        Resumes isRaw spans (mark.skip m.length) outer
          (found.record outer innermost (some mark) (mark.skip m.length)) := by
  constructor
  · intro h
    obtain ⟨content, stop, hcontent, hfollows⟩ := h
    obtain ⟨rfl, rfl⟩ := hcontent.of_closing hfollows.halts hs hm hrole
    -- the content ends here, so this marker is the one that closes the tag
    obtain ⟨closing, hclose, hrest⟩ := hfollows
    have hread := hclose.read
    rw [hm] at hread
    cases hread
    exact ⟨hclose.same, hrest⟩
  · intro h
    obtain ⟨hsame, hrest⟩ := h
    refine ⟨.text (here.upTo mark), mark, ?_, m, ⟨hm, hrole, hsame⟩, hrest⟩
    rw [← Cursor.ahead_of_some hs]
    exact .text

/-- Outside all tags, a closing marker has nothing to close. -/
theorem not_resumes_closing (hrole : m.role = .closing) : ¬Resumes isRaw spans here [] found := by
  intro h
  obtain ⟨content, stop, hcontent, hend, -⟩ := h
  obtain ⟨-, rfl⟩ := hcontent.of_closing (.inl hend) hs hm hrole
  exact Cursor.rest_ne_nil_of_seek hs hend

end Step

/-- A marker that cannot be read belongs to no content. -/
theorem not_resumes_error {fault : String × Fault} (hs : here.seek = some mark)
    (hm : Marker.read mark.rest = .error fault) : ¬Resumes isRaw spans here opened found := by
  intro h
  obtain ⟨content, stop, hcontent, hfollows⟩ := h
  obtain ⟨m, hread⟩ := hcontent.read_of_seek hfollows.halts hs
  rw [hm] at hread
  cases hread

/-- A raw tag that is not closed belongs to no content. -/
theorem not_resumes_raw (hs : here.seek = some mark) (hm : Marker.read mark.rest = .ok m)
    (hrole : m.role = .opening) (hraw : isRaw m.name = true)
    (hclose : rawCloser m.name (mark.skip m.length) = none) :
    ¬Resumes isRaw spans here opened found := by
  intro h
  obtain ⟨content, stop, hcontent, hfollows⟩ := h
  obtain ⟨closer, next, rest, -, hclose', -⟩ :=
    hcontent.of_raw hfollows.halts hs hm hrole hraw
  rw [hclose] at hclose'
  cases hclose'

/-- Behind the last marker the text must end, outside all tags. -/
theorem resumes_end (hs : here.seek = none) (hupTo : opened = [] → found.upTo = here) :
    Resumes isRaw spans here opened found ↔ opened = [] ∧ spans = found.finish := by
  have hend : here.ahead.rest = [] := by
    rw [Cursor.ahead_of_none hs]
    exact List.drop_length
  cases opened with
  | nil =>
      have hfinish : found.finish = found.spans.reverse ++ literalSpans (here.upTo here.ahead) := by
        rw [Cursor.upTo_ahead_of_none hs, Found.finish, Found.reverse_addLiteral, hupTo rfl]
      rw [hfinish]
      constructor
      · intro h
        obtain ⟨content, stop, hcontent, -, hspans⟩ := h
        obtain ⟨rfl, -⟩ := hcontent.of_seek_none hs
        exact ⟨rfl, hspans⟩
      · intro h
        obtain ⟨-, hspans⟩ := h
        exact ⟨.text (here.upTo here.ahead), here.ahead, .text, hend, hspans⟩
  | cons t outer =>
      constructor
      · intro h
        obtain ⟨content, stop, hcontent, closing, hclose, -⟩ := h
        obtain ⟨-, rfl⟩ := hcontent.of_seek_none hs
        -- the closer would stand at the end of the text
        have hread := hclose.read
        rw [hend, Marker.read_nil] at hread
        cases hread
      · intro h
        obtain ⟨⟨⟩, -⟩ := h

/-! ## §5. The whole walk. -/

/-- Where nothing is open, what is recorded reaches up to the place behind the tag. -/
theorem upTo_record {outer : List OpenTag} {t : OpenTag} {closer : Option Cursor} {next : Cursor}
    (h : outer = []) : (found.record outer t closer next).upTo = next := by
  rw [h]
  rfl

theorem error_ne_ok {cause : Malformed} :
    (.error cause : Except Malformed (List Span)) ≠ .ok spans := by
  intro h
  cases h

/-- The walk succeeds exactly where the rest of the text closes the open tags. -/
theorem scanFrom_eq_ok_iff (hupTo : opened = [] → found.upTo = here) :
    scanFrom isRaw here opened found = .ok spans ↔ Resumes isRaw spans here opened found := by
  -- along the walk; each case is the equivalence for the marker it looks at
  fun_induction scanFrom isRaw here opened found with
  | case1 here opened found hs outermost hlast =>
      -- some tag is open at the end of the text
      refine iff_of_false error_ne_ok fun h => ?_
      obtain ⟨rfl, -⟩ := (resumes_end hs hupTo).1 h
      cases hlast
  | case2 here opened found hs hlast =>
      rw [resumes_end hs hupTo, List.getLast?_eq_none_iff.1 hlast]
      constructor
      · intro h
        cases h
        exact ⟨rfl, rfl⟩
      · intro h
        obtain ⟨-, rfl⟩ := h
        rfl
  | case3 here opened found mark hs name fault hm =>
      exact iff_of_false error_ne_ok (not_resumes_error hs hm)
  | case4 here opened found mark hs m hm next hrole _ ih =>
      rw [ih upTo_record]
      exact (resumes_selfClosing hs hm hrole hupTo).symm
  | case5 here opened found mark hs m hm next hrole hraw hclose =>
      exact iff_of_false error_ne_ok (not_resumes_raw hs hm hrole hraw hclose)
  | case6 here opened found mark hs m hm next hrole hraw closer stop hclose _ ih =>
      rw [ih upTo_record]
      exact (resumes_raw hs hm hrole hraw hclose hupTo).symm
  | case7 here opened found mark hs m hm next hrole hraw ih =>
      -- something is open now, so nothing is claimed of what was found
      rw [ih fun h => absurd h (List.cons_ne_nil _ _)]
      exact (resumes_opening hs hm hrole (Bool.not_eq_true _ ▸ hraw) hupTo).symm
  | case8 here found mark hs m hm hrole =>
      exact iff_of_false error_ne_ok (not_resumes_closing hs hm hrole)
  | case9 here found mark hs m hm next hrole innermost outer hsame _ ih =>
      rw [ih upTo_record, resumes_closing hs hm hrole]
      exact (and_iff_right hsame).symm
  | case10 here found mark hs m hm hrole innermost outer hsame _ =>
      exact iff_of_false error_ne_ok fun h => hsame ((resumes_closing hs hm hrole).1 h).1
  | case11 here found mark hs m hm hrole innermost outer hsame _ =>
      exact iff_of_false error_ne_ok fun h => hsame ((resumes_closing hs hm hrole).1 h).1

/-- A text scans to the items of its derivation. -/
theorem scan_eq_ok_iff_derives {text : String} :
    scan isRaw text = .ok spans ↔
      ∃ content, DerivesText isRaw text content ∧ spans = content.spans := by
  have hscan : scan isRaw text = .ok spans ↔
      Resumes isRaw spans (.start text.toList) [] ⟨[], .start text.toList⟩ :=
    scanFrom_eq_ok_iff fun _ => rfl
  rw [hscan]
  constructor
  · intro h
    obtain ⟨content, stop, hcontent, hend, hspans⟩ := h
    exact ⟨content, ⟨stop, hcontent, hend⟩, hspans⟩
  · intro h
    obtain ⟨content, ⟨stop, hcontent, hend⟩, hspans⟩ := h
    exact ⟨content, stop, hcontent, hend, hspans⟩

/-- The walk is a parser for the grammar: it succeeds exactly on the texts that have a
    derivation, with its items; there is one derivation; and in it every paired tag, at
    every depth, ends where as many tags of its name were closed as opened. -/
theorem scan_parses (isRaw : String → Bool) (text : String) :
    (∀ spans, scan isRaw text = .ok spans ↔
      ∃ content, DerivesText isRaw text content ∧ spans = content.spans) ∧
    (∀ content content', DerivesText isRaw text content → DerivesText isRaw text content' →
      content = content') ∧
    ∀ content, DerivesText isRaw text content →
      ∀ p ∈ content.pairs, p.ClosesFirst isRaw := by
  refine ⟨fun spans => scan_eq_ok_iff_derives, ?_, ?_⟩
  · intro content content' htext htext'
    obtain ⟨stop, h, hend⟩ := htext
    obtain ⟨stop', h', hend'⟩ := htext'
    exact (h.unique (.inl hend) h' (.inl hend')).1
  · intro content hc
    obtain ⟨stop, h, -⟩ := hc
    exact h.closesFirst

end TagExpander.Markup
