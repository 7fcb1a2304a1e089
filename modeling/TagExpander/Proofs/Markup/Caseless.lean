/-
  TagExpander.Proofs.Markup.Caseless — texts in lower case.

  Names are compared up to ASCII case, and no other reader looks at a letter.  So a text in
  lower case scans as the text does, to the same spans in lower case, or to the same fault:

      text    ── scan ──→    spans or a fault
        ↓ fold                 ↓ fold
      text    ── scan ──→    spans or a fault

  Main results:
    * `Marker.read_lower`, `rawCloser_fold` — the square for the readers.
    * `scanFrom_fold` — the square for the walk, from any place of it.
    * `scan_fold` — the square for whole texts, with the wording of the faults.
-/
import Mathlib.Data.String.Basic
import TagExpander.Proofs.Argument.Caseless
import TagExpander.Proofs.Markup.Descent
import TagExpander.Proofs.Markup.Fragment

namespace TagExpander.Markup

open Text (lower IgnoresCase ignoresCase_of_letters beq_toLower toLower_eq_iff)
open Argument (isQuote isQuote_toLower toLower_beq_backslash toLower_beq_quote)

/-! ## §1. Markers. -/

/-- A marker starts where it starts in the text. -/
theorem startsMarker_lower (cs : List Char) : startsMarker (lower cs) = startsMarker cs := by
  have hmark : IgnoresCase (· == '?') := ignoresCase_of_letters (by decide)
  have hangle : IgnoresCase (· == '<') := ignoresCase_of_letters (by decide)
  have hhash : IgnoresCase (· == '#') := ignoresCase_of_letters (by decide)
  have hstart : ∀ x ∈ markerStart, IgnoresCase (· == x) := by
    simp [markerStart, hmark, hangle, hhash]
  rw [Bool.eq_iff_iff, startsMarker_iff, startsMarker_iff, Text.prefix_lower_iff hstart]

theorem endsMarker_lower (cs : List Char) : endsMarker (lower cs) = endsMarker cs := by
  have hmark : IgnoresCase (· == '?') := ignoresCase_of_letters (by decide)
  have hangle : IgnoresCase (· == '>') := ignoresCase_of_letters (by decide)
  have hend : ∀ x ∈ markerEnd, IgnoresCase (· == x) := by
    simp [markerEnd, hmark, hangle]
  rw [Bool.eq_iff_iff, endsMarker_iff, endsMarker_iff, Text.prefix_lower_iff hend]

theorem opensValue_toLower : IgnoresCase opensValue :=
  ignoresCase_of_letters (by decide)

theorem isNameChar_toLower : IgnoresCase isNameChar :=
  ignoresCase_of_letters (by decide)

namespace Quoting

/-- How to read on in the text in lower case. -/
def fold : Quoting → Quoting
  | .outside previous => .outside previous.toLower
  | .inside mark => .inside mark
  | .escaped mark => .escaped mark

/-- Only quotation marks quote. -/
def Proper : Quoting → Prop
  | .outside _ => True
  | .inside mark => isQuote mark = true
  | .escaped mark => isQuote mark = true

theorem isOutside_fold (q : Quoting) : q.fold.isOutside = q.isOutside := by
  cases q <;> rfl

theorem Proper.next {q : Quoting} (h : q.Proper) (c : Char) : (q.next c).Proper := by
  cases q with
  | outside previous =>
      rw [Quoting.next]
      split
      next hopens => exact (Bool.and_eq_true_iff.1 hopens).1
      next => trivial
  | inside mark =>
      rw [Quoting.next]
      split
      · exact h
      · split
        · trivial
        · exact h
  | escaped mark => exact h

theorem next_fold {q : Quoting} (h : q.Proper) (c : Char) :
    q.fold.next c.toLower = (q.next c).fold := by
  cases q with
  | outside previous =>
      rw [fold, Quoting.next, Quoting.next, isQuote_toLower c, opensValue_toLower previous]
      split
      next hopens =>
        rw [Argument.toLower_of_isQuote (Bool.and_eq_true_iff.1 hopens).1]
        rfl
      next => rfl
  | inside mark =>
      rw [fold, Quoting.next, Quoting.next, toLower_beq_backslash, toLower_beq_quote h]
      split
      · rfl
      · split <;> rfl
  | escaped mark => rfl

end Quoting

/-- A marker ends where it ends in the text. -/
theorem terminatorFrom_lower {q : Quoting} (h : q.Proper) (n : Nat) (cs : List Char) :
    terminatorFrom q.fold n (lower cs) = terminatorFrom q n cs := by
  induction cs generalizing q n with
  | nil => rfl
  | cons c cs ih =>
      rw [Text.lower_cons, terminatorFrom, terminatorFrom, ← Text.lower_cons, endsMarker_lower,
        startsMarker_lower, Quoting.isOutside_fold, Quoting.next_fold h, ih (h.next c)]

theorem terminator_lower (cs : List Char) : terminator (lower cs) = terminator cs :=
  terminatorFrom_lower (q := .outside ' ') trivial 0 cs

namespace Marker

/-- A marker in lower case. -/
def fold (m : Marker) : Marker :=
  { m with name := Text.fold m.name, arguments := Text.fold m.arguments }

theorem splitBody_lower (body : List Char) :
    splitBody (lower body) = ((splitBody body).1, lower (splitBody body).2) := by
  unfold splitBody
  rw [Text.reverse_lower, Text.dropWhile_lower Text.isBlank_toLower]
  cases body.reverse.dropWhile Text.isBlank with
  | nil => rfl
  | cons c front =>
      by_cases hc : c = '/'
      · rw [hc]
        exact congrArg (Prod.mk Role.selfClosing) (Text.reverse_lower front)
      · have hlower : c.toLower ≠ '/' :=
          fun heq => hc ((toLower_eq_iff (ignoresCase_of_letters (by decide)) c).1 heq)
        rw [Text.lower_cons]
        split
        next heq => exact absurd (List.cons.inj heq).1 hlower
        next =>
          split
          next heq => exact absurd (List.cons.inj heq).1 hc
          next => exact congrArg (Prod.mk Role.opening) (Text.reverse_lower (c :: front))

theorem readNamed_lower (closing : Bool) (before : Nat) (cs : List Char) :
    readNamed closing before (lower cs) =
      ((readNamed closing before cs).map fold).mapError (Prod.map Text.fold id) := by
  unfold readNamed
  dsimp only
  rw [Text.takeWhile_lower Text.isBlank_toLower, Text.trimLeft_lower,
    Text.takeWhile_lower isNameChar_toLower, Text.dropWhile_lower isNameChar_toLower,
    terminator_lower, ← Text.fold_ofList, Text.isEmpty_fold]
  split
  · rfl
  · cases terminator ((Text.trimLeft cs).dropWhile isNameChar) with
    | none => rfl
    | some n =>
        dsimp only
        rw [Text.take_lower, Text.allBlank_lower, splitBody_lower, Text.length_lower,
          Text.length_lower, ← Text.fold_ofList]
        split
        · split <;> rfl
        · rfl

theorem read_lower (cs : List Char) :
    read (lower cs) = ((read cs).map fold).mapError (Prod.map Text.fold id) := by
  cases hdrop : cs.drop 3 with
  | nil =>
      have hlower : (lower cs).drop 3 = [] := by
        rw [Text.drop_lower, hdrop]
        rfl
      rw [read, hlower, read, hdrop]
      exact readNamed_lower false 3 []
  | cons c rest =>
      have hlower : (lower cs).drop 3 = c.toLower :: lower rest := by
        rw [Text.drop_lower, hdrop]
        rfl
      have hslash : c.toLower = '/' ↔ c = '/' :=
        toLower_eq_iff (ignoresCase_of_letters (by decide)) c
      rw [read_of_drop_eq_cons hlower, read_of_drop_eq_cons hdrop]
      simp only [hslash]
      split
      · exact readNamed_lower true 4 rest
      · exact readNamed_lower false 3 (c :: rest)

end Marker

/-! ## §2. Places. -/

namespace Cursor

/-- The same place in the text in lower case. -/
def fold (c : Cursor) : Cursor :=
  { c with rest := lower c.rest }

theorem skip_fold (c : Cursor) (n : Nat) : c.fold.skip n = (c.skip n).fold := by
  simp only [skip, fold, Text.take_lower, Text.drop_lower, Text.length_lower, Text.bytes_lower,
    Text.newlines_lower]

theorem markerFrom_lower (n : Nat) (cs : List Char) :
    markerFrom n (lower cs) = markerFrom n cs := by
  induction cs generalizing n with
  | nil => rfl
  | cons c cs ih =>
      rw [Text.lower_cons, markerFrom, markerFrom, ← Text.lower_cons, startsMarker_lower, ih]

theorem seek_fold (c : Cursor) : c.fold.seek = c.seek.map fold := by
  rw [seek, seek, fold, markerFrom_lower, Option.map_map]
  exact congrArg (Option.map · _) (funext (skip_fold c))

theorem seek_fold_of_some {c mark : Cursor} (h : c.seek = some mark) :
    c.fold.seek = some mark.fold := by
  rw [seek_fold, h]
  rfl

theorem seek_fold_of_none {c : Cursor} (h : c.seek = none) : c.fold.seek = none := by
  rw [seek_fold, h]
  rfl

/-- The marker at a place, in lower case. -/
theorem read_fold_of_ok {c : Cursor} {m : Marker} (h : Marker.read c.rest = .ok m) :
    Marker.read c.fold.rest = .ok m.fold := by
  rw [fold, Marker.read_lower, h]
  rfl

theorem read_fold_of_error {c : Cursor} {name : String} {fault : Fault}
    (h : Marker.read c.rest = .error (name, fault)) :
    Marker.read c.fold.rest = .error (Text.fold name, fault) := by
  rw [fold, Marker.read_lower, h]
  rfl

theorem upTo_fold (c later : Cursor) : c.fold.upTo later.fold = lower (c.upTo later) :=
  Text.take_lower _ _

end Cursor

/-- The closing marker of a raw tag stands where it stands in the text. -/
theorem rawCloser_fold (name : String) (here : Cursor) :
    rawCloser (Text.fold name) here.fold =
      (rawCloser name here).map (Prod.map Cursor.fold Cursor.fold) := by
  fun_induction rawCloser name here with
  | case1 here hs => exact rawCloser_of_none (Cursor.seek_fold_of_none hs)
  | case2 here mark hs fault hm ih =>
      rw [rawCloser_of_error (Cursor.seek_fold_of_some hs) (Cursor.read_fold_of_error hm),
        Cursor.skip_fold, ih]
  | case3 here mark hs m hm hclose =>
      have hclose' :
          (m.fold.role == .closing && Text.same m.fold.name (Text.fold name)) = true := by
        rw [Marker.fold, Text.same_fold]
        exact hclose
      rw [rawCloser_of_read (Cursor.seek_fold_of_some hs) (Cursor.read_fold_of_ok hm),
        if_pos hclose']
      exact congrArg (fun stop => some (mark.fold, stop)) (Cursor.skip_fold mark m.length)
  | case4 here mark hs m hm hclose ih =>
      have hclose' :
          ¬(m.fold.role == .closing && Text.same m.fold.name (Text.fold name)) = true := by
        rw [Marker.fold, Text.same_fold]
        exact hclose
      rw [rawCloser_of_read (Cursor.seek_fold_of_some hs) (Cursor.read_fold_of_ok hm),
        if_neg hclose', ← ih, ← Cursor.skip_fold]
      rfl

/-! ## §3. The walk. -/

/-- A tag in lower case. -/
def Tag.fold (t : Tag) : Tag :=
  { t with
    name := Text.fold t.name
    arguments := t.arguments.fold
    content := Text.fold t.content }

/-- A piece of a scanned text in lower case. -/
def Span.fold : Span → Span
  | .literal text => .literal (Text.fold text)
  | .tag t => .tag t.fold

/-- A fault with the tag that it is blamed on in lower case. -/
def Malformed.fold (cause : Malformed) : Malformed :=
  { cause with name := Text.fold cause.name }

/-- An open tag in lower case. -/
def OpenTag.fold (t : OpenTag) : OpenTag :=
  ⟨Text.fold t.name, Text.fold t.arguments, t.start.fold, t.body.fold⟩

/-- What was found, in lower case. -/
def Found.fold (f : Found) : Found :=
  ⟨f.spans.map Span.fold, f.upTo.fold⟩

theorem OpenTag.ofMarker_fold (m : Marker) (mark : Cursor) :
    OpenTag.ofMarker m.fold mark.fold = (OpenTag.ofMarker m mark).fold := by
  rw [ofMarker, ofMarker, Cursor.skip_fold]
  rfl

theorem OpenTag.close_fold (t : OpenTag) (closer : Option Cursor) (stop : Cursor) :
    t.fold.close (closer.map Cursor.fold) stop.fold = (t.close closer stop).fold := by
  have hparse : Arguments.parse t.fold.arguments = (Arguments.parse t.arguments).fold :=
    Arguments.parse_fold t.arguments
  unfold close
  rw [hparse]
  cases closer with
  | none => rfl
  | some closer =>
      have hupTo : t.fold.body.upTo closer.fold = lower (t.body.upTo closer) :=
        Cursor.upTo_fold t.body closer
      simp only [Option.map_some, Option.getD_some, hupTo, ← Text.fold_ofList]
      rfl

namespace Found

theorem addLiteral_lower (spans : List Span) (text : List Char) :
    addLiteral (spans.map Span.fold) (lower text) = (addLiteral spans text).map Span.fold := by
  cases text with
  | nil => rfl
  | cons c cs =>
      show Span.literal (String.ofList (lower (c :: cs))) :: spans.map Span.fold = _
      rw [← Text.fold_ofList]
      rfl

theorem add_fold (f : Found) (t : OpenTag) (closer : Option Cursor) (stop : Cursor) :
    f.fold.add t.fold (closer.map Cursor.fold) stop.fold = (f.add t closer stop).fold := by
  have hliteral : f.fold.upTo.upTo t.fold.start = lower (f.upTo.upTo t.start) :=
    Cursor.upTo_fold f.upTo t.start
  rw [add, add, OpenTag.close_fold, hliteral, fold, addLiteral_lower]
  rfl

theorem record_fold (f : Found) (opened : List OpenTag) (t : OpenTag) (closer : Option Cursor)
    (stop : Cursor) :
    f.fold.record (opened.map OpenTag.fold) t.fold (closer.map Cursor.fold) stop.fold =
      (f.record opened t closer stop).fold := by
  rw [record, record, List.isEmpty_map, add_fold]
  split <;> rfl

theorem finish_fold (f : Found) : f.fold.finish = f.finish.map Span.fold := by
  rw [finish, finish, List.map_reverse, ← addLiteral_lower]
  rfl

end Found

/-- The outcome of a scan in lower case. -/
def foldScan (outcome : Except Malformed (List Span)) : Except Malformed (List Span) :=
  (outcome.map (List.map Span.fold)).mapError Malformed.fold

/-- Names that are the same are raw together. -/
def RespectsCase (isRaw : String → Bool) : Prop :=
  ∀ a b, Text.same a b = true → isRaw a = isRaw b

theorem RespectsCase.fold {isRaw : String → Bool} (h : RespectsCase isRaw) (name : String) :
    isRaw (Text.fold name) = isRaw name :=
  h _ _ (Text.same_fold_self name)

/-- The open tags of a name are open in lower case. -/
theorem any_same_fold (opened : List OpenTag) (name : String) :
    ((opened.map OpenTag.fold).any fun t => Text.same t.name (Text.fold name)) =
      opened.any fun t => Text.same t.name name := by
  rw [List.any_map]
  exact congrArg opened.any (funext fun t => Text.same_fold t.name name)

/-- **The walk over a text in lower case** is the walk over the text, in lower case. -/
theorem scanFrom_fold {isRaw : String → Bool} (hraw : RespectsCase isRaw) (here : Cursor)
    (opened : List OpenTag) (found : Found) :
    scanFrom isRaw here.fold (opened.map OpenTag.fold) found.fold =
      foldScan (scanFrom isRaw here opened found) := by
  -- along the walk over the text; the other walk looks at the same marker
  fun_induction scanFrom isRaw here opened found with
  | case1 here opened found hs outermost hlast =>
      rw [scanFrom_of_none (Cursor.seek_fold_of_none hs), List.getLast?_map, hlast]
      rfl
  | case2 here opened found hs hlast =>
      rw [scanFrom_of_none (Cursor.seek_fold_of_none hs), List.getLast?_map, hlast,
        Found.finish_fold]
      rfl
  | case3 here opened found mark hs name fault hm =>
      rw [scanFrom_of_error (Cursor.seek_fold_of_some hs) (Cursor.read_fold_of_error hm)]
      rfl
  | case4 here opened found mark hs m hm next hrole found' ih =>
      rw [scanFrom_of_read (Cursor.seek_fold_of_some hs) (Cursor.read_fold_of_ok hm),
        show m.fold.role = .selfClosing from hrole, ← ih]
      dsimp only
      rw [Cursor.skip_fold, OpenTag.ofMarker_fold]
      exact congrArg (scanFrom isRaw _ _) (found.record_fold opened _ none _)
  | case5 here opened found mark hs m hm next hrole hname hclose =>
      have hname' : isRaw m.fold.name = true := (hraw.fold m.name).trans hname
      have hclose' : rawCloser m.fold.name (mark.fold.skip m.fold.length) = none := by
        rw [Cursor.skip_fold]
        exact (rawCloser_fold m.name next).trans (congrArg (Option.map _) hclose)
      rw [scanFrom_of_read (Cursor.seek_fold_of_some hs) (Cursor.read_fold_of_ok hm),
        show m.fold.role = .opening from hrole]
      dsimp only
      rw [if_pos hname', hclose']
      rfl
  | case6 here opened found mark hs m hm next hrole hname closer stop hclose _ ih =>
      have hname' : isRaw m.fold.name = true := (hraw.fold m.name).trans hname
      have hclose' : rawCloser m.fold.name (mark.fold.skip m.fold.length) =
          some (closer.fold, stop.fold) := by
        rw [Cursor.skip_fold]
        exact (rawCloser_fold m.name next).trans (congrArg (Option.map _) hclose)
      rw [scanFrom_of_read (Cursor.seek_fold_of_some hs) (Cursor.read_fold_of_ok hm),
        show m.fold.role = .opening from hrole, ← ih]
      dsimp only
      rw [if_pos hname', hclose']
      dsimp only
      rw [OpenTag.ofMarker_fold]
      exact congrArg (scanFrom isRaw _ _) (found.record_fold opened _ (some closer) _)
  | case7 here opened found mark hs m hm next hrole hname ih =>
      have hname' : ¬isRaw m.fold.name = true := by
        rw [Marker.fold, hraw.fold]
        exact hname
      rw [scanFrom_of_read (Cursor.seek_fold_of_some hs) (Cursor.read_fold_of_ok hm),
        show m.fold.role = .opening from hrole, ← ih]
      dsimp only
      rw [if_neg hname', Cursor.skip_fold, OpenTag.ofMarker_fold]
      rfl
  | case8 here found mark hs m hm hrole =>
      rw [scanFrom_of_read (Cursor.seek_fold_of_some hs) (Cursor.read_fold_of_ok hm),
        show m.fold.role = .closing from hrole]
      rfl
  | case9 here found mark hs m hm next hrole innermost outer hsame _ ih =>
      have hsame' : Text.same innermost.fold.name m.fold.name = true :=
        (Text.same_fold _ _).trans hsame
      rw [scanFrom_of_read (Cursor.seek_fold_of_some hs) (Cursor.read_fold_of_ok hm),
        show m.fold.role = .closing from hrole, List.map_cons, ← ih]
      dsimp only
      rw [if_pos hsame', Cursor.skip_fold]
      exact congrArg (scanFrom isRaw _ _) (found.record_fold outer _ (some mark) _)
  | case10 here found mark hs m hm hrole innermost outer hsame houter =>
      have hsame' : ¬Text.same innermost.fold.name m.fold.name = true := by
        rw [OpenTag.fold, Marker.fold, Text.same_fold]
        exact hsame
      have houter' : ((outer.map OpenTag.fold).any fun t => Text.same t.name m.fold.name) = true :=
        (any_same_fold outer m.name).trans houter
      rw [scanFrom_of_read (Cursor.seek_fold_of_some hs) (Cursor.read_fold_of_ok hm),
        show m.fold.role = .closing from hrole, List.map_cons]
      dsimp only
      rw [if_neg hsame', if_pos houter']
      rfl
  | case11 here found mark hs m hm hrole innermost outer hsame houter =>
      have hsame' : ¬Text.same innermost.fold.name m.fold.name = true := by
        rw [OpenTag.fold, Marker.fold, Text.same_fold]
        exact hsame
      have houter' :
          ¬((outer.map OpenTag.fold).any fun t => Text.same t.name m.fold.name) = true := by
        rw [Marker.fold, any_same_fold]
        exact houter
      rw [scanFrom_of_read (Cursor.seek_fold_of_some hs) (Cursor.read_fold_of_ok hm),
        show m.fold.role = .closing from hrole, List.map_cons]
      dsimp only
      rw [if_neg hsame', if_neg houter']
      rfl

/-! ## §4. Whole texts. -/

/-- The wording of a fault holds no capital letters but those of a name. -/
theorem Fault.message_fold (name : String) (fault : Fault) :
    fault.message (Text.fold name) = Text.fold (fault.message name) := by
  have hfixed : ∀ words ∈ ["missing shortcode name", "unterminated tag (missing `?>`)",
      "closing tag cannot have arguments", "closing tag without a matching opening tag",
      "missing closing tag `<?#/ ", " ?>`"], Text.fold words = words := by decide
  simp only [List.forall_mem_cons] at hfixed
  obtain ⟨hname, hend, harguments, hstray, hbefore, hbehind, -⟩ := hfixed
  cases fault with
  | missingName => exact hname.symm
  | unterminated => exact hend.symm
  | closerWithArguments => exact harguments.symm
  | strayCloser => exact hstray.symm
  | missingCloser =>
      show "missing closing tag `<?#/ " ++ Text.fold name ++ " ?>`" =
        Text.fold ("missing closing tag `<?#/ " ++ name ++ " ?>`")
      rw [Text.fold_append, Text.fold_append, hbefore, hbehind]

/-- **Scanning is blind to case.**  A text in lower case scans as the text does: to the same
    spans with their texts in lower case, at the same places and on the same lines; or to
    the same fault at the same place, in a tag with its name in lower case, and worded in
    lower case. -/
theorem scan_fold {isRaw : String → Bool}
    (hraw : ∀ a b, Text.same a b = true → isRaw a = isRaw b) (text : String) :
    scan isRaw (Text.fold text) =
        ((scan isRaw text).map (List.map Span.fold)).mapError Malformed.fold ∧
      ∀ cause, scan isRaw text = .error cause →
        cause.fold.fault.message cause.fold.name =
          Text.fold (cause.fault.message cause.name) := by
  have hstart : Cursor.start (Text.fold text).toList = (Cursor.start text.toList).fold :=
    congrArg Cursor.start (Text.toList_fold text)
  constructor
  · rw [scan, hstart]
    exact scanFrom_fold hraw (Cursor.start text.toList) [] ⟨[], Cursor.start text.toList⟩
  · intro cause _
    exact Fault.message_fold cause.name cause.fault

/-- Names that are the same as a given one. -/
theorem same_congr (name : String) :
    ∀ a b, Text.same a b = true → Text.same a name = Text.same b name := by
  intro a b h
  rw [Text.same, Text.same, Text.same_iff.1 h]

/-- A paired tag with arguments, and a raw tag in it, in mixed case. -/
def mixedCase : String :=
  "É <?# Note Kind=\"A/B\" C ?>In<?# RAW ?><?# X ?><?#/ Raw ?><?#/ NOTE ?>."

/-- The spans of this text in lower case, and the fault of a text with a tag left open. -/
theorem scan_fold_mixedCase :
    (∀ a b, Text.same a b = true → Text.same a "raw" = Text.same b "raw") ∧
      scan (Text.same · "raw") (Text.fold mixedCase) =
        .ok [.literal "É ", .tag ⟨"note", ⟨[⟨some "kind", "a/b"⟩, ⟨none, "c"⟩]⟩,
          "in<?# raw ?><?# x ?><?#/ raw ?>", false, 3, 70, 1⟩, .literal "."] ∧
      scan (Text.same · "raw") (Text.fold "<?# Note ?><?# Raw ?>") =
        .error ⟨"raw", 1, 11, .missingCloser⟩ ∧
      Fault.missingCloser.message "raw" = Text.fold "missing closing tag `<?#/ Raw ?>`" := by
  have hspans : scan (Text.same · "raw") mixedCase =
      .ok [.literal "É ", .tag ⟨"Note", ⟨[⟨some "Kind", "A/B"⟩, ⟨none, "C"⟩]⟩,
        "In<?# RAW ?><?# X ?><?#/ Raw ?>", false, 3, 70, 1⟩, .literal "."] := by decide +kernel
  have hfault : scan (Text.same · "raw") "<?# Note ?><?# Raw ?>" =
      .error ⟨"Raw", 1, 11, .missingCloser⟩ := by decide +kernel
  refine ⟨same_congr "raw", ?_, ?_, ?_⟩
  · rw [(scan_fold (same_congr "raw") mixedCase).1, hspans]
    decide
  · rw [(scan_fold (same_congr "raw") "<?# Note ?><?# Raw ?>").1, hfault]
    decide
  · exact (scan_fold (same_congr "raw") "<?# Note ?><?# Raw ?>").2 _ hfault

end TagExpander.Markup
