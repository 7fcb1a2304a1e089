/-
  TagExpander.Proofs.Markup.Cutting — a text cut into spans at byte positions.

  The scan of a text, as a loop that keeps the position it has come to, the positions at which
  the open tags start, and the positions up to which literal text and lines have been taken:

      literal <?# A ?> content <?#/ A ?> literal
              ↑ start ↑ body   ↑ closer  ↑ position, literal text from here on

  It follows the walk over the text: where the walk stands at cursors, the loop stands at
  their positions, in order (`Ordered`), and a step of the walk is a round of the loop.  So no
  cut is bad, no round stands still, and the spans that are cut are those of the scan.

  Main results:
    * `Collected.Tracks.add` — a tag, and what belongs to it, can be cut out.
    * `Scanning.Tracks.step`, `Scanning.Tracks.fails` — a step of the walk is a round of the
      loop, and a fault that it comes to ends the loop.
    * `scanRound_advances` — the rounds of the scan.
    * `scan_cuts_and_advances` — no text makes a cut go wrong or a loop stand still.
-/
import TagExpander.Proofs.Markup.Offsets

namespace TagExpander.Markup

open Text (Slip At Advances)

/-! ## §1. What has been cut out. -/

/-- An opening marker that was passed, by its positions. -/
structure OpenAt where
  name : String
  arguments : String
  /-- Where the marker starts. -/
  start : Nat
  /-- Where the content of the tag starts. -/
  body : Nat

/-- The open tag of an opening or self-closing marker. -/
def OpenAt.ofMarkerAt (m : MarkerAt) : OpenAt :=
  ⟨m.name, m.arguments, m.start, m.stop⟩

/-- The content of the tag, given where its closing marker starts (none if self-closing). -/
def OpenAt.content (text : String) (t : OpenAt) : Option Nat → Except Slip String
  | some closer => Text.cut text t.body closer
  | none => .ok ""

/-- The positions of an open tag. -/
def OpenTag.positions (t : OpenTag) : OpenAt :=
  ⟨t.name, t.arguments, t.start.bytes, t.body.bytes⟩

/-- The tag lies ahead of what was found, with its places in order. -/
structure OpenTag.Ahead (found : Found) (t : OpenTag) (closer : Option Cursor) (stop : Cursor) :
    Prop where
  start : found.upTo.Before t.start
  body : t.start.Before t.body
  closer : ∀ c, closer = some c → t.body.Before c
  stop : t.body.Before stop

/-- The spans that were cut out so far, and from where to go on. -/
structure Collected where
  /-- The spans, latest first. -/
  spans : List Span
  /-- Where the literal text behind them starts. -/
  literalStart : Nat
  /-- The line of the last tag. -/
  line : Nat
  /-- Where the last tag starts: lines are counted from here on. -/
  linePosition : Nat

namespace Collected

/-- The spans, with the literal text up to a position, unless there is none. -/
def spansUpTo (text : String) (f : Collected) (stop : Nat) : Except Slip (List Span) :=
  if f.literalStart < stop then do
    return .literal (← Text.cut text f.literalStart stop) :: f.spans
  else .ok f.spans

/-- Cuts out a tag, given where its closing marker starts (none if self-closing) and where it
    ends, and the literal text in front of it. -/
def add (text : String) (f : Collected) (t : OpenAt) (closer : Option Nat) (stop : Nat) :
    Except Slip Collected := do
  let spans ← f.spansUpTo text t.start
  let passed ← Text.cut text f.linePosition t.start
  let line := f.line + Text.newlines passed.toList
  let content ← t.content text closer
  let arguments ← Argument.cutAll t.arguments
  let tag : Tag := ⟨t.name, arguments, content, closer.isNone, t.start, stop, line⟩
  return ⟨.tag tag :: spans, stop, line, t.start⟩

/-- Cuts out a tag if it stands in no other tag. -/
def record (text : String) (f : Collected) (opened : List OpenAt) (t : OpenAt)
    (closer : Option Nat) (stop : Nat) : Except Slip Collected :=
  if opened.isEmpty then f.add text t closer stop else .ok f

/-- What was cut out is what was found. -/
structure Tracks (text : String) (found : Found) (f : Collected) : Prop where
  spans : f.spans = found.spans
  literalStart : f.literalStart = found.upTo.bytes
  line : ∃ c : Cursor, c.On text.toList ∧ c.Before found.upTo ∧ f.linePosition = c.bytes ∧
    f.line = c.line

variable {text : String} {found : Found} {f : Collected} {t : OpenTag} {closer : Option Cursor}
  {stop : Cursor}

/-- The literal text up to a cursor further on can be cut out. -/
theorem Tracks.spansUpTo_eq (h : f.Tracks text found) (hfound : found.upTo.On text.toList)
    {c : Cursor} (hc : found.upTo.Before c) :
    f.spansUpTo text c.bytes = .ok (Found.addLiteral found.spans (found.upTo.upTo c)) := by
  have hcut := hfound.cut hc
  obtain ⟨n, rfl⟩ := hc
  rw [Cursor.upTo_skip] at hcut ⊢
  rw [spansUpTo, h.literalStart, h.spans]
  cases hliteral : found.upTo.rest.take n with
  | nil =>
      rw [Cursor.bytes_skip, hliteral, Text.bytes_nil, Nat.add_zero,
        if_neg (Nat.lt_irrefl _)]
      rfl
  | cons first more =>
      have hlt : found.upTo.bytes < (found.upTo.skip n).bytes := by
        rw [Cursor.bytes_skip, hliteral]
        exact Nat.lt_add_of_pos_right (Text.bytes_pos (List.cons_ne_nil _ _))
      rw [if_pos hlt, hcut, hliteral]
      rfl

/-- The content of a tag can be cut out. -/
theorem content_eq (h : t.Ahead found closer stop) (hbody : t.body.On text.toList) :
    t.positions.content text (closer.map Cursor.bytes) =
      .ok (String.ofList ((closer.map t.body.upTo).getD [])) := by
  cases closer with
  | none => rfl
  | some c => exact hbody.cut (h.closer c rfl)

/-- **A tag further on, with what belongs to it, can be cut out.** -/
theorem Tracks.add (h : f.Tracks text found) (hfound : found.upTo.On text.toList)
    (ht : t.Ahead found closer stop) :
    ∃ f', f.add text t.positions (closer.map Cursor.bytes) stop.bytes = .ok f' ∧
      f'.Tracks text (found.add t closer stop) := by
  have hstart := hfound.of_before ht.start
  have hcontent := content_eq ht (hstart.of_before ht.body)
  -- lines are counted on from the last tag, which lies in front of the literal text
  obtain ⟨c, hc, hbefore, hposition, hline⟩ := h.line
  have hpassed := hbefore.trans ht.start
  refine ⟨⟨.tag (t.close closer stop) :: Found.addLiteral found.spans (found.upTo.upTo t.start),
    stop.bytes, t.start.line, t.start.bytes⟩, ?_, rfl, rfl,
    t.start, hstart, ht.body.trans ht.stop, rfl, rfl⟩
  rw [OpenTag.positions] at hcontent
  rw [Collected.add]
  dsimp only [OpenTag.positions]
  rw [h.spansUpTo_eq hfound ht.start, Text.ok_bind, hposition, hc.cut hpassed, Text.ok_bind,
    String.toList_ofList, hline, ← hpassed.line_eq, hcontent, Text.ok_bind, Argument.cutAll_eq,
    Text.ok_bind, Option.isNone_map]
  rfl

/-- A tag is cut out if it is found. -/
theorem Tracks.record (h : f.Tracks text found) (hfound : found.upTo.On text.toList)
    (opened : List OpenTag) (ht : t.Ahead found closer stop) :
    ∃ f', f.record text (opened.map OpenTag.positions) t.positions (closer.map Cursor.bytes)
        stop.bytes = .ok f' ∧
      f'.Tracks text (found.record opened t closer stop) := by
  cases opened with
  | nil => exact h.add hfound ht
  | cons outermost outer => exact ⟨f, rfl, h⟩

end Collected

/-! ## §2. The loop. -/

/-- The scan of a text, on its way. -/
structure Scanning where
  /-- The position that it has come to. -/
  position : Nat
  /-- The tags that are open there, innermost first. -/
  opened : List OpenAt
  /-- The spans that were cut out so far. -/
  collected : Collected

/-- Ends the scan at a fault in the marker at a position. -/
def blameAt (text : String) (position : Nat) (name : String) (fault : Fault) :
    Except Slip (Scanning ⊕ Except Malformed (List Span)) := do
  let front ← Text.cut text 0 (min position text.utf8ByteSize)
  return .inr (.error ⟨name, Text.newlines front.toList + 1, position, fault⟩)

namespace Scanning

/-- The scan at the start of its text. -/
def start : Scanning :=
  ⟨0, [], ⟨[], 0, 1, 0⟩⟩

/-- Ends the scan behind the last marker. -/
def finish (text : String) (s : Scanning) :
    Except Slip (Scanning ⊕ Except Malformed (List Span)) :=
  match s.opened.getLast? with
  | some outermost => blameAt text outermost.start outermost.name .missingCloser
  | none => do return .inr (.ok (← s.collected.spansUpTo text text.utf8ByteSize).reverse)

/-- Goes on behind a tag, which is cut out if it stands in no other tag. -/
def record (text : String) (s : Scanning) (opened : List OpenAt) (t : OpenAt)
    (closer : Option Nat) (stop : Nat) :
    Except Slip (Scanning ⊕ Except Malformed (List Span)) := do
  return .inl ⟨stop, opened, ← s.collected.record text opened t closer stop⟩

/-- Goes on over the next marker. -/
def pass (isRaw : String → Bool) (text : String) (s : Scanning) (m : MarkerAt) :
    Except Slip (Scanning ⊕ Except Malformed (List Span)) :=
  match m.role with
  | .selfClosing => s.record text s.opened (.ofMarkerAt m) none m.stop
  | .opening =>
    if isRaw m.name then do
      match ← cutCloser text m.name m.stop with
      | none => blameAt text m.start m.name .missingCloser
      | some (closer, stop) => s.record text s.opened (.ofMarkerAt m) (some closer) stop
    else .ok (.inl ⟨m.stop, .ofMarkerAt m :: s.opened, s.collected⟩)
  | .closing =>
    match s.opened with
    | [] => blameAt text m.start m.name .strayCloser
    | innermost :: outer =>
      if Text.same innermost.name m.name then s.record text outer innermost (some m.start) m.stop
      else if outer.any fun t => Text.same t.name m.name then
        blameAt text innermost.start innermost.name .missingCloser
      else blameAt text m.start m.name .strayCloser

/-- One round of the scan: on to the next marker and over it. -/
def round (isRaw : String → Bool) (text : String) (s : Scanning) :
    Except Slip (Scanning ⊕ Except Malformed (List Span)) := do
  match ← nextMarker text s.position with
  | none => s.finish text
  | some start =>
    match ← cutMarker text start with
    | .error (name, fault) => blameAt text start name fault
    | .ok m => s.pass isRaw text m

/-- The loop stands where the walk stands. -/
structure Tracks (text : String) (w : Walk) (s : Scanning) : Prop where
  position : s.position = w.here.bytes
  opened : s.opened = w.opened.map OpenTag.positions
  collected : s.collected.Tracks text w.found

end Scanning

/-! ## §3. The order of places. -/

namespace Cursor

variable {c mark closer next : Cursor} {m : Marker} {name : String}

/-- A raw tag ends further on. -/
theorem before_of_rawCloser (h : rawCloser name c = some (closer, next)) :
    c.Before closer ∧ closer.Before next := by
  obtain ⟨n, closing, -, rfl, rfl⟩ := closerAt?_of_rawCloser h
  refine ⟨c.before_skip n, ?_⟩
  rw [← skip_skip]
  exact before_skip _ _

end Cursor

namespace Walk

variable {isRaw : String → Bool} {w w' : Walk}

/-- The places that a walk knows stand in the order in which they were passed. -/
structure Ordered (w : Walk) : Prop where
  found : w.found.upTo.Before w.here
  opened : ∀ t ∈ w.opened,
    w.found.upTo.Before t.start ∧ t.start.Before t.body ∧ t.body.Before w.here

theorem ordered_start (text : List Char) : (start text).Ordered where
  found := .refl _
  opened := nofun

/-- The end of the next marker stands further on. -/
theorem Meets.before {mark : Cursor} {m : Marker} (h : w.Meets mark m) :
    w.here.Before (mark.skip m.length) :=
  (Cursor.before_of_seek h.seek).trans (mark.before_skip m.length)

theorem Meets.bytes_lt {mark : Cursor} {m : Marker} (h : w.Meets mark m) :
    w.here.bytes < (mark.skip m.length).bytes :=
  Cursor.bytes_lt_of_seek h.seek (Nat.lt_trans (Nat.succ_pos 2) (Marker.three_lt_length h.read))

section Ahead

variable {mark : Cursor} {m : Marker} (h : w.Ordered) (hmeets : w.Meets mark m)
include h hmeets

/-- A single marker that comes next lies ahead of what was found. -/
theorem Ordered.ahead_single :
    (OpenTag.ofMarker m mark).Ahead w.found none (mark.skip m.length) where
  start := h.found.trans (Cursor.before_of_seek hmeets.seek)
  body := mark.before_skip m.length
  closer := nofun
  stop := .refl _

/-- A raw tag whose marker comes next lies ahead of what was found. -/
theorem Ordered.ahead_raw {closer next : Cursor}
    (hclose : rawCloser m.name (mark.skip m.length) = some (closer, next)) :
    (OpenTag.ofMarker m mark).Ahead w.found (some closer) next := by
  obtain ⟨hcloser, hnext⟩ := Cursor.before_of_rawCloser hclose
  refine ⟨(h.ahead_single hmeets).start, mark.before_skip m.length, ?_, hcloser.trans hnext⟩
  rintro c ⟨⟩
  exact hcloser

/-- An open tag that the next marker closes lies ahead of what was found. -/
theorem Ordered.ahead_closing {t : OpenTag} (ht : t ∈ w.opened) :
    t.Ahead w.found (some mark) (mark.skip m.length) := by
  obtain ⟨hstart, hbody, hhere⟩ := h.opened t ht
  refine ⟨hstart, hbody, ?_, hhere.trans hmeets.before⟩
  rintro c ⟨⟩
  exact hhere.trans (Cursor.before_of_seek hmeets.seek)

end Ahead

/-- Places stay in order when a tag is recorded and the walk goes on behind it. -/
theorem Ordered.record (h : w.Ordered) {opened : List OpenTag} (hopened : opened ⊆ w.opened)
    (t : OpenTag) (closer : Option Cursor) {next : Cursor} (hnext : w.here.Before next) :
    Ordered ⟨next, opened, w.found.record opened t closer next⟩ := by
  cases opened with
  | nil => exact ⟨.refl next, nofun⟩
  | cons outermost outer =>
      refine ⟨h.found.trans hnext, fun t ht => ?_⟩
      obtain ⟨hstart, hbody, hhere⟩ := h.opened t (hopened ht)
      exact ⟨hstart, hbody, hhere.trans hnext⟩

/-- A step keeps the order of the places. -/
theorem Step.ordered (h : Step isRaw w w') (hw : w.Ordered) : w'.Ordered := by
  cases h with
  | single hmeets hrole => exact hw.record (List.Subset.refl _) _ _ hmeets.before
  | raw hmeets hrole hraw hclose =>
      obtain ⟨hcloser, hnext⟩ := Cursor.before_of_rawCloser hclose
      exact hw.record (List.Subset.refl _) _ _ (hmeets.before.trans (hcloser.trans hnext))
  | @opening mark m hmeets hrole hraw =>
      refine ⟨hw.found.trans hmeets.before, fun t ht => ?_⟩
      rcases List.mem_cons.1 ht with rfl | ht
      · exact ⟨hw.found.trans (Cursor.before_of_seek hmeets.seek), mark.before_skip m.length,
          .refl _⟩
      · obtain ⟨hstart, hbody, hhere⟩ := hw.opened t ht
        exact ⟨hstart, hbody, hhere.trans hmeets.before⟩
  | closing hmeets hrole hopened hsame =>
      exact hw.record (hopened ▸ List.subset_cons_self _ _) _ _ hmeets.before

/-- A step goes forward. -/
theorem Step.bytes_lt (h : Step isRaw w w') : w.here.bytes < w'.here.bytes := by
  cases h with
  | single hmeets hrole => exact hmeets.bytes_lt
  | raw hmeets hrole hraw hclose =>
      obtain ⟨hcloser, hnext⟩ := Cursor.before_of_rawCloser hclose
      exact Nat.lt_of_lt_of_le hmeets.bytes_lt (hcloser.trans hnext).bytes_le
  | opening hmeets hrole hraw => exact hmeets.bytes_lt
  | closing hmeets hrole hopened hsame => exact hmeets.bytes_lt

end Walk

/-! ## §4. The loop follows the walk. -/

section Rounds

variable {isRaw : String → Bool} {text : String} {w w' : Walk} {s : Scanning}

/-- A fault is blamed on the marker at a cursor. -/
theorem blameAt_eq {c : Cursor} (h : c.On text.toList) (name : String) (fault : Fault) :
    blameAt text c.bytes name fault = .ok (.inr (.error (.blame c name fault))) := by
  have hcut : Text.cut text 0 c.bytes = .ok _ := (Cursor.on_start text.toList).cut h.before
  have hline : c.line = 0 + 1 + _ := h.before.line_eq
  rw [blameAt, Nat.min_eq_left h.bytes_le_size, hcut, Text.ok_bind, String.toList_ofList,
    Malformed.blame, hline, Nat.zero_add, Nat.add_comm 1]
  rfl

namespace Scanning.Tracks

theorem start : Scanning.start.Tracks text (.start text.toList) where
  position := rfl
  opened := rfl
  collected := ⟨rfl, rfl, _, Cursor.on_start _, .refl _, rfl, rfl⟩

/-- Behind the last marker the loop ends. -/
theorem round_of_none (h : s.Tracks text w) (hon : w.here.On text.toList)
    (hs : w.here.seek = none) : s.round isRaw text = s.finish text := by
  rw [Scanning.round, h.position, nextMarker_eq hon, hs]
  rfl

/-- At the next marker, it goes on over it, or ends if it is none. -/
theorem round_of_seek (h : s.Tracks text w) (hon : w.here.On text.toList) {mark : Cursor}
    (hs : w.here.seek = some mark) :
    s.round isRaw text =
      match Marker.read mark.rest with
      | .error (name, fault) => blameAt text mark.bytes name fault
      | .ok m => s.pass isRaw text (.ofMarker m mark) := by
  rw [Scanning.round, h.position, nextMarker_eq hon, hs, Option.map_some, Text.ok_bind]
  dsimp only
  rw [cutMarker_eq (hon.of_seek hs) (Cursor.startsMarker_of_seek hs)]
  cases Marker.read mark.rest with
  | error fault => rfl
  | ok m => rfl

theorem round_of_meets (h : s.Tracks text w) (hon : w.here.On text.toList) {mark : Cursor}
    {m : Marker} (hmeets : w.Meets mark m) {role : Role} (hrole : m.role = role) :
    s.round isRaw text = s.pass isRaw text
      ⟨role, m.name, m.arguments, mark.bytes, (mark.skip m.length).bytes⟩ := by
  rw [h.round_of_seek hon hmeets.seek, hmeets.read, ← hrole]
  rfl

/-- The loop goes on behind a tag that lies ahead of what was found. -/
theorem record (h : s.Tracks text w) (hw : w.Along text.toList) (opened : List OpenTag)
    {t : OpenTag} {closer : Option Cursor} {next : Cursor} (ht : t.Ahead w.found closer next) :
    ∃ s', s.record text (opened.map OpenTag.positions) t.positions (closer.map Cursor.bytes)
        next.bytes = .ok (.inl s') ∧
      s'.Tracks text ⟨next, opened, w.found.record opened t closer next⟩ := by
  obtain ⟨f, hf, htracks⟩ := h.collected.record hw.upTo opened ht
  refine ⟨⟨next.bytes, opened.map OpenTag.positions, f⟩, ?_, rfl, rfl, htracks⟩
  rw [Scanning.record, hf]
  rfl

/-- **A step of the walk is a round of the loop.** -/
theorem step (h : s.Tracks text w) (hw : w.Along text.toList) (ho : w.Ordered)
    (hstep : w.Step isRaw w') :
    ∃ s', s.round isRaw text = .ok (.inl s') ∧ s'.Tracks text w' := by
  cases hstep with
  | single hmeets hrole =>
      have hrecord := h.record hw w.opened (ho.ahead_single hmeets)
      rw [h.round_of_meets hw.here hmeets hrole, pass, h.opened]
      exact hrecord
  | @raw mark closer next m hmeets hrole hraw hclose =>
      have hrecord := h.record hw w.opened (ho.ahead_raw hmeets hclose)
      have hcut := cutCloser_eq m.name (hw.here.of_before hmeets.before)
      rw [hclose] at hcut
      rw [h.round_of_meets hw.here hmeets hrole, pass, h.opened]
      dsimp only
      rw [if_pos hraw, hcut]
      exact hrecord
  | @opening mark m hmeets hrole hraw =>
      rw [h.round_of_meets hw.here hmeets hrole, pass, h.opened]
      dsimp only
      rw [if_neg (hraw ▸ Bool.false_ne_true)]
      exact ⟨_, rfl, rfl, rfl, h.collected⟩
  | @closing mark m innermost outer hmeets hrole hopened hsame =>
      have hrecord := h.record hw outer
        (ho.ahead_closing hmeets (hopened ▸ List.mem_cons_self))
      rw [h.round_of_meets hw.here hmeets hrole, pass, h.opened, hopened, List.map_cons]
      dsimp only [OpenTag.positions]
      rw [if_pos hsame]
      exact hrecord

/-- Behind the last marker, where no tag is open, the loop ends with the spans. -/
theorem done (h : s.Tracks text w) (hw : w.Along text.toList) (hdone : w.Done) :
    s.round isRaw text = .ok (.inr (.ok w.found.finish)) := by
  have hend : text.utf8ByteSize = (w.found.upTo.skip w.found.upTo.rest.length).bytes := by
    rw [hw.upTo.at.utf8ByteSize_eq, Cursor.skip, List.take_length]
  have hspans := h.collected.spansUpTo_eq hw.upTo
    (w.found.upTo.before_skip w.found.upTo.rest.length)
  rw [← hend, Cursor.upTo_skip, List.take_length] at hspans
  rw [h.round_of_none hw.here hdone.seek, finish, h.opened, hdone.opened, List.map_nil,
    List.getLast?_nil]
  dsimp only
  rw [hspans]
  rfl

/-- **A fault that the walk comes to ends the loop.** -/
theorem fails (h : s.Tracks text w) (hw : w.Along text.toList) {cause : Malformed}
    (hfails : w.Fails isRaw cause) : s.round isRaw text = .ok (.inr (.error cause)) := by
  cases hfails with
  | unreadable hseek hread =>
      rw [h.round_of_seek hw.here hseek, hread]
      exact blameAt_eq (hw.here.of_seek hseek) _ _
  | @unclosedRaw mark m hmeets hrole hraw hclose =>
      have hmark := hw.here.of_seek hmeets.seek
      have hcut := cutCloser_eq m.name (hw.here.of_before hmeets.before)
      rw [hclose] at hcut
      rw [h.round_of_meets hw.here hmeets hrole, pass]
      dsimp only
      rw [if_pos hraw, hcut]
      exact blameAt_eq hmark _ _
  | stray hmeets hrole hopened =>
      rw [h.round_of_meets hw.here hmeets hrole, pass, h.opened, hopened]
      exact blameAt_eq (hw.here.of_seek hmeets.seek) _ _
  | @crossed mark m innermost outer hmeets hrole hopened hsame houter =>
      have hstart := (hw.opened innermost (hopened ▸ List.mem_cons_self)).1
      rw [h.round_of_meets hw.here hmeets hrole, pass, h.opened, hopened, List.map_cons]
      dsimp only [OpenTag.positions]
      rw [if_neg (hsame ▸ Bool.false_ne_true), if_pos]
      · exact blameAt_eq hstart _ _
      · rw [List.any_map]
        exact houter
  | @unmatched mark m innermost outer hmeets hrole hopened hsame houter =>
      rw [h.round_of_meets hw.here hmeets hrole, pass, h.opened, hopened, List.map_cons]
      dsimp only [OpenTag.positions]
      rw [if_neg (hsame ▸ Bool.false_ne_true), if_neg]
      · exact blameAt_eq (hw.here.of_seek hmeets.seek) _ _
      · rw [List.any_map, Bool.not_eq_true]
        exact houter
  | @unclosed outermost hseek hopened =>
      have hstart := (hw.opened outermost (List.mem_of_getLast? hopened)).1
      rw [h.round_of_none hw.here hseek, finish, h.opened, List.getLast?_map, hopened]
      exact blameAt_eq hstart _ _

end Scanning.Tracks

/-- The rounds of the loop, where a walk goes on to its end. -/
theorem advances_of_reaches (hreach : Walk.Reaches isRaw w w')
    (hend : w'.Done ∨ ∃ cause, w'.Fails isRaw cause) (h : s.Tracks text w)
    (hw : w.Along text.toList) (ho : w.Ordered) :
    Advances Scanning.position text.utf8ByteSize (Scanning.round isRaw text) s
      (w.outcome isRaw) := by
  -- along the walk from its first step on
  induction hreach using Relation.ReflTransGen.head_induction_on generalizing s with
  | refl =>
      rcases hend with hdone | ⟨cause, hfails⟩
      · rw [hdone.outcome_eq]
        exact .done (h.done hw hdone)
      · rw [hfails.outcome_eq]
        exact .done (h.fails hw hfails)
  | head hstep _ ih =>
      obtain ⟨s', hround, htracks⟩ := h.step hw ho hstep
      have hw' := (hstep.along hw).1
      rw [hstep.outcome_eq]
      refine .round hround ?_ ?_ (ih htracks hw' (hstep.ordered ho))
      · rw [h.position, htracks.position]
        exact hstep.bytes_lt
      · rw [htracks.position]
        exact hw'.here.bytes_le_size

/-- **The scan takes finitely many rounds, each of them forward**, and ends with what the scan
    of the text gives. -/
theorem scanRound_advances (isRaw : String → Bool) (text : String) :
    Advances Scanning.position text.utf8ByteSize (Scanning.round isRaw text) .start
      (scan isRaw text) := by
  obtain ⟨w, hreach, hend⟩ := Walk.exists_end isRaw (.start text.toList)
  exact advances_of_reaches hreach hend .start (Walk.along_start _) (Walk.ordered_start _)

end Rounds

/-! ## §5. No bad cut, no loop that stands still. -/

/-- Where a text is read, every cut is good and every loop ends. -/
structure CutsAndAdvances (isRaw : String → Bool) (text : String) : Prop where
  /-- The scan cuts well in all of its finitely many rounds, each of them forward, and ends with
      what the scan of the text gives. -/
  scan : Advances Scanning.position text.utf8ByteSize (Scanning.round isRaw text) .start
    (scan isRaw text)
  /-- So does the search for the end of a raw tag, from wherever it starts. -/
  closer (name : String) {position : Nat} (h : Text.isBoundary text position = true) :
    ∃ here : Cursor, here.On text.toList ∧ here.bytes = position ∧
      Advances id text.utf8ByteSize (closerRound text name) position
        ((rawCloser name here).map fun (closer, stop) => (closer.bytes, stop.bytes))
  /-- Every `<?#` can be read as a marker or not.  A marker ends further on, between characters,
      and so does a `<?#` that is passed over. -/
  marker {start : Nat} {rest : List Char} (h : At text start (markerStart ++ rest)) :
    Text.isBoundary text (start + 3) = true ∧ ∃ read, cutMarker text start = .ok read ∧
      ∀ m, read = .ok m → start < m.stop ∧ Text.isBoundary text m.stop = true
  /-- The end of a marker that is found byte by byte stands between characters, on both sides. -/
  terminator {position stop : Nat} (h : Text.isBoundary text position = true)
    (hstop : byteTerminator text position = some stop) :
    position ≤ stop ∧ Text.isBoundary text stop = true ∧ Text.isBoundary text (stop + 2) = true
  /-- The reader of arguments cuts well in all of its finitely many rounds, each of them forward,
      and reads the arguments of the text. -/
  arguments : Advances (Argument.Taking.position text) text.utf8ByteSize Argument.Taking.round
    (.start text) (.parse text)
  /-- An argument takes up part of the text, at least a character. -/
  argument {c : Char} {cs : List Char} (h : text.toList = c :: cs)
    (hc : Text.isBlank c = false) :
    ∃ a part rest, Argument.cutFirst text = .ok (a, rest) ∧ part ≠ "" ∧ part ++ rest = text

section Fields

variable {text : String}

/-- A marker, where one starts, and the place behind it. -/
theorem cutMarker_at {start : Nat} {rest : List Char} (h : At text start (markerStart ++ rest)) :
    Text.isBoundary text (start + 3) = true ∧ ∃ read, cutMarker text start = .ok read ∧
      ∀ m, read = .ok m → start < m.stop ∧ Text.isBoundary text m.stop = true := by
  obtain ⟨mark, hmark, rfl, hrest⟩ := Cursor.exists_on_of_at h
  have hstarts : startsMarker mark.rest = true := startsMarker_iff.2 ⟨rest, hrest.symm⟩
  have hthree : At text (mark.bytes + 3) rest := At.skip h
  refine ⟨hthree.isBoundary, _, cutMarker_eq hmark hstarts, ?_⟩
  intro m hread
  cases hm : Marker.read mark.rest with
  | error fault =>
      rw [hm] at hread
      cases hread
  | ok read =>
      rw [hm] at hread
      cases hread
      have hlength := Marker.three_lt_length hm
      have hne : mark.rest ≠ [] := hrest ▸ List.cons_ne_nil _ _
      exact ⟨Cursor.bytes_skip_lt (by omega) hne,
        (hmark.of_before (mark.before_skip read.length)).at.isBoundary⟩

/-- The end of a marker, and the place behind it. -/
theorem isBoundary_of_byteTerminator {position stop : Nat}
    (h : Text.isBoundary text position = true) (hstop : byteTerminator text position = some stop) :
    position ≤ stop ∧ Text.isBoundary text stop = true ∧
      Text.isBoundary text (stop + 2) = true := by
  obtain ⟨cs, hat⟩ := Text.isBoundary_iff.1 h
  rw [byteTerminator_at hat] at hstop
  obtain ⟨n, hend, rfl⟩ := Option.map_eq_some_iff.1 hstop
  have hplace (k : Nat) : At text (position + Text.bytes (cs.take k)) (cs.drop k) :=
    At.skip ((List.take_append_drop k cs).symm ▸ hat)
  refine ⟨Nat.le_add_right _ _, (hplace n).isBoundary, ?_⟩
  rw [Nat.add_assoc, ← bytes_take_terminator hend]
  exact (hplace (n + 2)).isBoundary

/-- An argument, and what it takes up. -/
theorem cutFirst_consumes {c : Char} {cs : List Char} (h : text.toList = c :: cs)
    (hc : Text.isBlank c = false) :
    ∃ a part rest, Argument.cutFirst text = .ok (a, rest) ∧ part ≠ "" ∧ part ++ rest = text := by
  obtain ⟨front, hfront⟩ := Argument.read_suffix c cs
  have htext : text = String.ofList (c :: cs) := by rw [← h, String.ofList_toList]
  refine ⟨(Argument.read c cs).1, String.ofList (c :: front),
    String.ofList (Argument.read c cs).2, ?_, ?_, ?_⟩
  · rw [htext, Argument.cutFirst_ofList hc]
  · rw [Ne, String.ofList_eq_empty_iff]
    exact List.cons_ne_nil c front
  · rw [← String.ofList_append, List.cons_append, hfront, htext]

end Fields

/-- **No text makes a cut go wrong or a loop stand still.** -/
theorem scan_cuts_and_advances (isRaw : String → Bool) (text : String) :
    CutsAndAdvances isRaw text where
  scan := scanRound_advances isRaw text
  closer name position h := by
    obtain ⟨rest, hat⟩ := Text.isBoundary_iff.1 h
    obtain ⟨here, hhere, rfl, -⟩ := Cursor.exists_on_of_at hat
    exact ⟨here, hhere, rfl, closerRound_advances name hhere⟩
  marker := cutMarker_at
  terminator := isBoundary_of_byteTerminator
  arguments := Argument.Taking.advances text
  argument := cutFirst_consumes

/-- A raw tag, with the end of a marker in its arguments and a `<?#` that reads as no marker in
    its content, among characters of more than one byte. -/
def quotedEnds : String := "é<?# Raw k=\"é ?>\" ?>“<?# ?>”<?#/ raw ?>\n<?# B/?>"

/-- The scan of this text, and the places of its markers. -/
theorem cuts_and_advances_quotedEnds :
    let spans : List Span :=
      [.literal "é", .tag ⟨"Raw", ⟨[⟨some "k", "é ?>"⟩]⟩, "“<?# ?>”", false, 2, 45, 1⟩,
        .literal "\n", .tag ⟨"B", ⟨[]⟩, "", true, 46, 54, 2⟩]
    Advances Scanning.position quotedEnds.utf8ByteSize
      (Scanning.round (Text.same · "RAW") quotedEnds) .start (.ok spans) ∧
    (Text.isBoundary quotedEnds 22 = true ∧ ∃ here : Cursor, here.On quotedEnds.toList ∧
      here.bytes = 22 ∧ Advances id quotedEnds.utf8ByteSize (closerRound quotedEnds "Raw") 22
        ((rawCloser "Raw" here).map fun (closer, stop) => (closer.bytes, stop.bytes))) ∧
    (At quotedEnds 25 (markerStart ++ " ?>”<?#/ raw ?>\n<?# B/?>".toList) ∧
      Text.isBoundary quotedEnds 28 = true ∧ ∃ read, cutMarker quotedEnds 25 = .ok read) ∧
    (byteTerminator quotedEnds 9 = some 20 ∧ Text.isBoundary quotedEnds 20 = true ∧
      Text.isBoundary quotedEnds 22 = true) ∧
    (Text.isBlank 'é' = false ∧ ∃ a part rest, Argument.cutFirst quotedEnds = .ok (a, rest) ∧
      part ≠ "" ∧ part ++ rest = quotedEnds) := by
  intro spans
  have h := scan_cuts_and_advances (Text.same · "RAW") quotedEnds
  have hscan : scan (Text.same · "RAW") quotedEnds = .ok spans := by decide +kernel
  have hbody : Text.isBoundary quotedEnds 22 = true := by decide +kernel
  have hinner : At quotedEnds 25 (markerStart ++ " ?>”<?#/ raw ?>\n<?# B/?>".toList) :=
    ⟨"é<?# Raw k=\"é ?>\" ?>“".toList, by decide +kernel, by decide +kernel⟩
  have hname : Text.isBoundary quotedEnds 9 = true := by decide +kernel
  have hend : byteTerminator quotedEnds 9 = some 20 := by decide +kernel
  have hfirst : quotedEnds.toList = 'é' :: quotedEnds.toList.tail := by decide +kernel
  have hblank : Text.isBlank 'é' = false := by decide +kernel
  obtain ⟨hpassed, read, hread, -⟩ := h.marker hinner
  exact ⟨hscan ▸ h.scan, ⟨hbody, h.closer "Raw" hbody⟩, ⟨hinner, hpassed, read, hread⟩,
    ⟨hend, (h.terminator hname hend).2⟩, hblank, h.argument hfirst hblank⟩

end TagExpander.Markup
