/-
  TagExpander.Markup.Scan — a text cut into literal text and tags.

  Paired tags nest properly.  A tag whose name is raw ends at its first closing
  marker, and nothing between its markers is looked at, so text there that does not
  read as a marker does no harm.  The text is walked once, from marker to marker;
  open paired tags wait on a list, the innermost first.

  Main results:
    * `length_rawCloser_lt` — the search for a raw tag's end moves forward, so the
      walk over the text ends.
-/

import TagExpander.Markup.Cursor

namespace TagExpander.Markup

/-! ## §1. What a scan finds -/

/-- A tag with everything that belongs to it. -/
structure Tag where
  /-- The name, as written in the opening marker. -/
  name : String
  /-- The arguments of the opening marker. -/
  arguments : Arguments
  /-- The text between the two markers; empty for a self-closing tag. -/
  content : String
  /-- Is the tag a single marker? -/
  selfClosing : Bool
  /-- Byte position of the first marker. -/
  start : Nat
  /-- Byte position behind the last marker. -/
  stop : Nat
  /-- Line of the first marker. -/
  line : Nat
deriving DecidableEq, Inhabited

/-- A piece of a scanned text. -/
inductive Span where
  /-- Text outside all tags. -/
  | literal (text : String)
  /-- A tag that stands in no other tag. -/
  | tag (tag : Tag)
deriving DecidableEq, Inhabited

/-- A fault in the markers of a text, with the tag it is blamed on. -/
structure Malformed where
  /-- The name of the tag; empty if it cannot be read. -/
  name : String
  /-- Line of the marker that is blamed. -/
  line : Nat
  /-- Byte position of the marker that is blamed. -/
  position : Nat
  /-- What is wrong with it. -/
  fault : Fault
deriving DecidableEq, Inhabited

/-- Blames the marker at a cursor. -/
def Malformed.blame (mark : Cursor) (name : String) (fault : Fault) : Malformed :=
  ⟨name, mark.line, mark.bytes, fault⟩

/-- Does the text contain the start of a marker? -/
def containsMarker (text : String) : Bool :=
  (Cursor.markerFrom 0 text.toList).isSome

/-! ## §2. Raw tags -/

/-- The first closing marker of the given name: the cursors at its start and behind
    it.  Other markers are passed over as a whole, and `<?#` that reads as no marker
    by itself. -/
def rawCloser (name : String) (here : Cursor) : Option (Cursor × Cursor) :=
  match _h : here.seek with
  | none => none
  | some mark =>
    match _hm : Marker.read mark.rest with
    | .error _ => rawCloser name (mark.skip 3)
    | .ok m =>
      if m.role == .closing && Text.same m.name name then some (mark, mark.skip m.length)
      else rawCloser name (mark.skip m.length)
termination_by here.rest.length
decreasing_by
  · exact Cursor.length_seek_skip_lt _h (by omega)
  · exact Cursor.length_seek_skip_lt _h (by have := Marker.three_lt_length _hm; omega)

/-- The closing marker of a raw tag lies ahead. -/
theorem length_rawCloser_lt {name : String} {here inner stop : Cursor}
    (h : rawCloser name here = some (inner, stop)) : stop.rest.length < here.rest.length := by
  fun_induction rawCloser name here with
  | case1 => cases h
  | case2 here mark hs _ _ ih =>
    exact Nat.lt_trans (ih h) (Cursor.length_seek_skip_lt hs (by omega))
  | case3 here mark hs m hm _ =>
    cases h
    exact Cursor.length_seek_skip_lt hs (by have := Marker.three_lt_length hm; omega)
  | case4 here mark hs m hm _ ih =>
    exact Nat.lt_trans (ih h)
      (Cursor.length_seek_skip_lt hs (by have := Marker.three_lt_length hm; omega))

/-! ## §3. The walk -/

/-- An opening marker that was passed. -/
structure OpenTag where
  /-- The name, as written. -/
  name : String
  /-- The text of the arguments. -/
  arguments : String
  /-- Where the marker starts. -/
  start : Cursor
  /-- Where the content of the tag starts. -/
  body : Cursor
deriving DecidableEq, Inhabited

/-- The open tag of an opening or self-closing marker. -/
def OpenTag.ofMarker (m : Marker) (mark : Cursor) : OpenTag :=
  ⟨m.name, m.arguments, mark, mark.skip m.length⟩

/-- The complete tag, given the start of its closing marker (none if self-closing)
    and the place behind its last marker. -/
def OpenTag.close (t : OpenTag) (closer : Option Cursor) (stop : Cursor) : Tag :=
  { name := t.name
    arguments := .parse t.arguments
    content := String.ofList ((closer.map t.body.upTo).getD [])
    selfClosing := closer.isNone
    start := t.start.bytes
    stop := stop.bytes
    line := t.start.line }

/-- The spans found so far. -/
structure Found where
  /-- The spans, latest first. -/
  spans : List Span
  /-- The place behind the last of them. -/
  upTo : Cursor
deriving DecidableEq, Inhabited

namespace Found

/-- Adds literal text, unless there is none. -/
def addLiteral (spans : List Span) (text : List Char) : List Span :=
  match text with
  | [] => spans
  | _ :: _ => .literal (String.ofList text) :: spans

/-- Adds a tag, and the literal text in front of it. -/
def add (f : Found) (t : OpenTag) (closer : Option Cursor) (stop : Cursor) : Found :=
  ⟨.tag (t.close closer stop) :: addLiteral f.spans (f.upTo.upTo t.start), stop⟩

/-- All spans in order, up to the end of the text. -/
def finish (f : Found) : List Span :=
  (addLiteral f.spans f.upTo.rest).reverse

end Found

/-- Scans on from a cursor.  `opened` holds the open paired tags, innermost first;
    tags are collected only where none is open. -/
def scanFrom (isRaw : String → Bool) (here : Cursor) (opened : List OpenTag) (found : Found) :
    Except Malformed (List Span) :=
  match _h : here.seek with
  | none =>
    match opened.getLast? with
    | some outermost => .error (.blame outermost.start outermost.name .missingCloser)
    | none => .ok found.finish
  | some mark =>
    match _hm : Marker.read mark.rest with
    | .error (name, fault) => .error (.blame mark name fault)
    | .ok m =>
      let next := mark.skip m.length
      match m.role with
      | .selfClosing =>
        let found := if opened.isEmpty then found.add (.ofMarker m mark) none next else found
        scanFrom isRaw next opened found
      | .opening =>
        if isRaw m.name then
          match _hr : rawCloser m.name next with
          | none => .error (.blame mark m.name .missingCloser)
          | some (closer, stop) =>
            let found :=
              if opened.isEmpty then found.add (.ofMarker m mark) (some closer) stop else found
            scanFrom isRaw stop opened found
        else scanFrom isRaw next (.ofMarker m mark :: opened) found
      | .closing =>
        match opened with
        | [] => .error (.blame mark m.name .strayCloser)
        | innermost :: outer =>
          if Text.same innermost.name m.name then
            let found := if outer.isEmpty then found.add innermost (some mark) next else found
            scanFrom isRaw next outer found
          else if outer.any fun t => Text.same t.name m.name then
            .error (.blame innermost.start innermost.name .missingCloser)
          else .error (.blame mark m.name .strayCloser)
termination_by here.rest.length
decreasing_by
  all_goals
    have hnext : (mark.skip m.length).rest.length < here.rest.length :=
      Cursor.length_seek_skip_lt _h (by have := Marker.three_lt_length _hm; omega)
  · exact hnext
  · exact Nat.lt_trans (length_rawCloser_lt _hr) hnext
  · exact hnext
  · exact hnext

/-- Cuts a text into literal text and tags, in order. -/
def scan (isRaw : String → Bool) (text : String) : Except Malformed (List Span) :=
  let start := Cursor.start text.toList
  scanFrom isRaw start [] ⟨[], start⟩

end TagExpander.Markup
