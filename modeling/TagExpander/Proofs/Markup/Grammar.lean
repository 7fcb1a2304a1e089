/-
  TagExpander.Proofs.Markup.Grammar — what a text with tags is, by a grammar.

      content  →  literal                                            (its end)
               |  literal  self-closing marker  content
               |  literal  opening marker of a raw name  opaque text  its closer  content
               |  literal  opening marker  content  closing marker of its name  content

  A literal reaches up to the next marker.  A derivation is a tree in which every tag
  knows its markers; the items of a content are those of its tree at the top.

  Main results:
    * `Derives.at_marker` — the next marker decides the form of a content.
    * `Derives.unique` — a content has one derivation.
-/
import TagExpander.Markup.Scan

namespace TagExpander.Markup

/-! ## §1. Derivations. -/

/-- The next marker, or the end of the text. -/
def Cursor.ahead (c : Cursor) : Cursor :=
  c.seek.getD (c.skip c.rest.length)

/-- The tree of a content.  Each form begins with the literal text up to a marker, or up
    to the end of the content; `rest` is the content behind the tag. -/
inductive Content where
  | text (literal : List Char)
  | single (literal : List Char) (mark : Cursor) (marker : Marker) (rest : Content)
  | raw (literal : List Char) (mark : Cursor) (marker : Marker) (closer stop : Cursor)
      (rest : Content)
  | paired (literal : List Char) (mark : Cursor) (marker : Marker) (inner : Content)
      (closer : Cursor) (closing : Marker) (rest : Content)

/-- The text at the cursor starts with a closing marker for the name. -/
structure ClosedBy (name : String) (closer : Cursor) (closing : Marker) : Prop where
  read : Marker.read closer.rest = .ok closing
  role : closing.role = .closing
  same : Text.same name closing.name = true

/-- The grammar: between two cursors there is content with this tree. -/
inductive Derives (isRaw : String → Bool) : Cursor → Content → Cursor → Prop where
  | text {here : Cursor} : Derives isRaw here (.text (here.upTo here.ahead)) here.ahead
  | single {here mark stop : Cursor} {m : Marker} {rest : Content}
      (hseek : here.seek = some mark) (hread : Marker.read mark.rest = .ok m)
      (hrole : m.role = .selfClosing) (hrest : Derives isRaw (mark.skip m.length) rest stop) :
      Derives isRaw here (.single (here.upTo mark) mark m rest) stop
  | raw {here mark closer next stop : Cursor} {m : Marker} {rest : Content}
      (hseek : here.seek = some mark) (hread : Marker.read mark.rest = .ok m)
      (hrole : m.role = .opening) (hraw : isRaw m.name = true)
      (hclose : rawCloser m.name (mark.skip m.length) = some (closer, next))
      (hrest : Derives isRaw next rest stop) :
      Derives isRaw here (.raw (here.upTo mark) mark m closer next rest) stop
  | paired {here mark closer stop : Cursor} {m closing : Marker} {inner rest : Content}
      (hseek : here.seek = some mark) (hread : Marker.read mark.rest = .ok m)
      (hrole : m.role = .opening) (hraw : isRaw m.name = false)
      (hinner : Derives isRaw (mark.skip m.length) inner closer)
      (hclose : ClosedBy m.name closer closing)
      (hrest : Derives isRaw (closer.skip closing.length) rest stop) :
      Derives isRaw here (.paired (here.upTo mark) mark m inner closer closing rest) stop

/-- A whole text has the tree. -/
def DerivesText (isRaw : String → Bool) (text : String) (content : Content) : Prop :=
  ∃ stop, Derives isRaw (.start text.toList) content stop ∧ stop.rest = []

/-- Literal text, unless there is none. -/
def literalSpans (literal : List Char) : List Span :=
  if literal = [] then [] else [.literal (String.ofList literal)]

/-- The items of a content at the top: its literal texts and its outermost tags. -/
def Content.spans : Content → List Span
  | .text literal => literalSpans literal
  | .single literal mark m rest =>
    literalSpans literal ++
      .tag
        { name := m.name
          arguments := .parse m.arguments
          content := ""
          selfClosing := true
          start := mark.bytes
          stop := (mark.skip m.length).bytes
          line := mark.line } :: rest.spans
  | .raw literal mark m closer stop rest =>
    literalSpans literal ++
      .tag
        { name := m.name
          arguments := .parse m.arguments
          content := String.ofList ((mark.skip m.length).upTo closer)
          selfClosing := false
          start := mark.bytes
          stop := stop.bytes
          line := mark.line } :: rest.spans
  | .paired literal mark m _ closer closing rest =>
    literalSpans literal ++
      .tag
        { name := m.name
          arguments := .parse m.arguments
          content := String.ofList ((mark.skip m.length).upTo closer)
          selfClosing := false
          start := mark.bytes
          stop := (closer.skip closing.length).bytes
          line := mark.line } :: rest.spans

/-! ## §2. Where a content ends. -/

/-- A place at which a content can end: the end of the text or a closing marker. -/
def Halts (stop : Cursor) : Prop :=
  stop.rest = [] ∨ ∃ m, Marker.read stop.rest = .ok m ∧ m.role = .closing

theorem ClosedBy.halts {name : String} {closer : Cursor} {closing : Marker}
    (h : ClosedBy name closer closing) : Halts closer :=
  .inr ⟨closing, h.read, h.role⟩

/-- No marker stands at the end of the text. -/
theorem Marker.read_nil : Marker.read [] = .error ("", .missingName) := rfl

namespace Cursor

theorem ahead_of_some {here mark : Cursor} (h : here.seek = some mark) : here.ahead = mark := by
  rw [ahead, h]
  rfl

theorem ahead_of_none {here : Cursor} (h : here.seek = none) :
    here.ahead = here.skip here.rest.length := by
  rw [ahead, h]
  rfl

/-- A marker that is sought is not the end of the text. -/
theorem rest_ne_nil_of_seek {here mark : Cursor} (h : here.seek = some mark) :
    mark.rest ≠ [] := by
  intro hnil
  have hpos := (length_seek_le h).1
  rw [hnil] at hpos
  exact Nat.lt_irrefl 0 hpos

/-- Where a marker starts, it is the next one. -/
theorem seek_of_startsMarker {c : Cursor} (h : startsMarker c.rest = true) : c.seek = some c := by
  unfold seek
  cases hrest : c.rest with
  | nil =>
      rw [hrest] at h
      cases h
  | cons x xs =>
      rw [hrest] at h
      rw [markerFrom, if_pos h]
      show some (c.skip 0) = some c
      rw [skip, List.take_zero, List.drop_zero]
      rfl

/-- The next marker is the next one for itself. -/
theorem seek_of_seek {here mark : Cursor} (h : here.seek = some mark) : mark.seek = some mark :=
  seek_of_startsMarker (startsMarker_of_seek h)

/-- A content that stops at the next marker stops at a closing one. -/
theorem halts_of_seek {here mark : Cursor} {m : Marker} (hseek : here.seek = some mark)
    (hread : Marker.read mark.rest = .ok m) (h : Halts mark) : m.role = .closing := by
  rcases h with hnil | ⟨m', hread', hrole⟩
  · exact absurd hnil (rest_ne_nil_of_seek hseek)
  · rw [hread] at hread'
    cases hread'
    exact hrole

/-- At the end of the text no marker follows. -/
theorem seek_of_nil {c : Cursor} (h : c.rest = []) : c.seek = none := by
  unfold seek
  rw [h]
  rfl

end Cursor

/-! ## §3. What the next marker says about a derivation. -/

namespace Derives

variable {isRaw : String → Bool} {here mark stop : Cursor} {c : Content} {m : Marker}

/-- Behind the last marker there is only text. -/
theorem of_seek_none (h : Derives isRaw here c stop) (hs : here.seek = none) :
    c = .text (here.upTo here.ahead) ∧ stop = here.ahead := by
  cases h with
  | text => exact ⟨rfl, rfl⟩
  | single hseek => rw [hs] at hseek; cases hseek
  | raw hseek => rw [hs] at hseek; cases hseek
  | paired hseek => rw [hs] at hseek; cases hseek

/-- The next marker, if there is one, reads as a marker. -/
theorem read_of_seek (h : Derives isRaw here c stop) (hstop : Halts stop)
    (hs : here.seek = some mark) : ∃ m, Marker.read mark.rest = .ok m := by
  cases h with
  | text =>
      rw [Cursor.ahead_of_some hs] at hstop
      rcases hstop with hnil | ⟨m, hread, -⟩
      · exact absurd hnil (Cursor.rest_ne_nil_of_seek hs)
      · exact ⟨m, hread⟩
  | single hseek hread => rw [hs] at hseek; cases hseek; exact ⟨_, hread⟩
  | raw hseek hread => rw [hs] at hseek; cases hseek; exact ⟨_, hread⟩
  | paired hseek hread => rw [hs] at hseek; cases hseek; exact ⟨_, hread⟩

/-- The marker ahead of a content decides its form. -/
theorem at_marker (h : Derives isRaw here c stop) (hstop : Halts stop)
    (hs : here.seek = some mark) (hm : Marker.read mark.rest = .ok m) :
    (m.role = .closing ∧ c = .text (here.upTo mark) ∧ stop = mark) ∨
    (m.role = .selfClosing ∧ ∃ rest, c = .single (here.upTo mark) mark m rest ∧
      Derives isRaw (mark.skip m.length) rest stop) ∨
    ((m.role = .opening ∧ isRaw m.name = true) ∧ ∃ closer next rest,
      c = .raw (here.upTo mark) mark m closer next rest ∧
      rawCloser m.name (mark.skip m.length) = some (closer, next) ∧
      Derives isRaw next rest stop) ∨
    ((m.role = .opening ∧ isRaw m.name = false) ∧ ∃ inner closer closing rest,
      c = .paired (here.upTo mark) mark m inner closer closing rest ∧
      Derives isRaw (mark.skip m.length) inner closer ∧ ClosedBy m.name closer closing ∧
      Derives isRaw (closer.skip closing.length) rest stop) := by
  -- every form names the marker in front of it; there is only the one that is sought
  cases h with
  | text =>
      rw [Cursor.ahead_of_some hs] at hstop ⊢
      exact .inl ⟨Cursor.halts_of_seek hs hm hstop, rfl, rfl⟩
  | single hseek hread hrole hrest =>
      rw [hs] at hseek
      cases hseek
      rw [hm] at hread
      cases hread
      exact .inr (.inl ⟨hrole, _, rfl, hrest⟩)
  | raw hseek hread hrole hraw hclose hrest =>
      rw [hs] at hseek
      cases hseek
      rw [hm] at hread
      cases hread
      exact .inr (.inr (.inl ⟨⟨hrole, hraw⟩, _, _, _, rfl, hclose, hrest⟩))
  | paired hseek hread hrole hraw hinner hclose hrest =>
      rw [hs] at hseek
      cases hseek
      rw [hm] at hread
      cases hread
      exact .inr (.inr (.inr ⟨⟨hrole, hraw⟩, _, _, _, _, rfl, hinner, hclose, hrest⟩))

/-- A content stops in front of a closing marker. -/
theorem of_closing (h : Derives isRaw here c stop) (hstop : Halts stop)
    (hs : here.seek = some mark) (hm : Marker.read mark.rest = .ok m)
    (hrole : m.role = .closing) : c = .text (here.upTo mark) ∧ stop = mark := by
  rcases h.at_marker hstop hs hm with ⟨-, h⟩ | ⟨h, -⟩ | ⟨⟨h, -⟩, -⟩ | ⟨⟨h, -⟩, -⟩
  · exact h
  · cases hrole.symm.trans h
  · cases hrole.symm.trans h
  · cases hrole.symm.trans h

/-- A content goes on behind a self-closing marker. -/
theorem of_selfClosing (h : Derives isRaw here c stop) (hstop : Halts stop)
    (hs : here.seek = some mark) (hm : Marker.read mark.rest = .ok m)
    (hrole : m.role = .selfClosing) :
    ∃ rest, c = .single (here.upTo mark) mark m rest ∧
      Derives isRaw (mark.skip m.length) rest stop := by
  rcases h.at_marker hstop hs hm with ⟨h, -⟩ | ⟨-, h⟩ | ⟨⟨h, -⟩, -⟩ | ⟨⟨h, -⟩, -⟩
  · cases hrole.symm.trans h
  · exact h
  · cases hrole.symm.trans h
  · cases hrole.symm.trans h

/-- A content goes on behind the closer of a raw tag. -/
theorem of_raw (h : Derives isRaw here c stop) (hstop : Halts stop)
    (hs : here.seek = some mark) (hm : Marker.read mark.rest = .ok m)
    (hrole : m.role = .opening) (hraw : isRaw m.name = true) :
    ∃ closer next rest, c = .raw (here.upTo mark) mark m closer next rest ∧
      rawCloser m.name (mark.skip m.length) = some (closer, next) ∧
      Derives isRaw next rest stop := by
  rcases h.at_marker hstop hs hm with ⟨h, -⟩ | ⟨h, -⟩ | ⟨-, h⟩ | ⟨⟨-, h⟩, -⟩
  · cases hrole.symm.trans h
  · cases hrole.symm.trans h
  · exact h
  · cases hraw.symm.trans h

/-- A content goes on behind the closing marker of a paired tag. -/
theorem of_paired (h : Derives isRaw here c stop) (hstop : Halts stop)
    (hs : here.seek = some mark) (hm : Marker.read mark.rest = .ok m)
    (hrole : m.role = .opening) (hraw : isRaw m.name = false) :
    ∃ inner closer closing rest,
      c = .paired (here.upTo mark) mark m inner closer closing rest ∧
      Derives isRaw (mark.skip m.length) inner closer ∧ ClosedBy m.name closer closing ∧
      Derives isRaw (closer.skip closing.length) rest stop := by
  rcases h.at_marker hstop hs hm with ⟨h, -⟩ | ⟨h, -⟩ | ⟨⟨-, h⟩, -⟩ | ⟨-, h⟩
  · cases hrole.symm.trans h
  · cases hrole.symm.trans h
  · cases hraw.symm.trans h
  · exact h

/-! ## §4. One derivation. -/

/-- A content that is followed by nothing or by a closing marker has one derivation. -/
theorem unique (h : Derives isRaw here c stop) (hstop : Halts stop) {c' : Content}
    {stop' : Cursor} (h' : Derives isRaw here c' stop') (hstop' : Halts stop') :
    c = c' ∧ stop = stop' := by
  -- on the first derivation; the marker ahead forces the form of the second one
  induction h generalizing c' stop' with
  | @text here =>
      cases hs : here.seek with
      | none =>
          obtain ⟨rfl, rfl⟩ := h'.of_seek_none hs
          exact ⟨rfl, rfl⟩
      | some mark =>
          -- a text that stops in front of a marker stops in front of a closing one
          rw [Cursor.ahead_of_some hs] at hstop ⊢
          obtain ⟨m, hm⟩ := h'.read_of_seek hstop' hs
          obtain ⟨rfl, rfl⟩ := h'.of_closing hstop' hs hm (Cursor.halts_of_seek hs hm hstop)
          exact ⟨rfl, rfl⟩
  | single hs hm hrole _ ih =>
      obtain ⟨rest, rfl, hrest⟩ := h'.of_selfClosing hstop' hs hm hrole
      obtain ⟨rfl, rfl⟩ := ih hstop hrest hstop'
      exact ⟨rfl, rfl⟩
  | raw hs hm hrole hraw hclose _ ih =>
      obtain ⟨closer, next, rest, rfl, hclose', hrest⟩ := h'.of_raw hstop' hs hm hrole hraw
      rw [hclose] at hclose'
      cases hclose'
      obtain ⟨rfl, rfl⟩ := ih hstop hrest hstop'
      exact ⟨rfl, rfl⟩
  | paired hs hm hrole hraw _ hclose _ ihInner ihRest =>
      obtain ⟨inner, closer, closing, rest, rfl, hinner, hclose', hrest⟩ :=
        h'.of_paired hstop' hs hm hrole hraw
      -- the tree inside is the same, so both tags end at one closing marker
      obtain ⟨rfl, rfl⟩ := ihInner hclose.halts hinner hclose'.halts
      have hread := hclose.read
      rw [hclose'.read] at hread
      cases hread
      obtain ⟨rfl, rfl⟩ := ihRest hstop hrest hstop'
      exact ⟨rfl, rfl⟩

end Derives

end TagExpander.Markup
