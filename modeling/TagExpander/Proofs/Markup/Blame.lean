/-
  TagExpander.Proofs.Markup.Blame — the marker that a fault points at.

  A walk fails at the marker that it has come to, or at the start of a tag that is open
  there.  The second kind of marker was passed on the way, so each marker that is blamed is
  the next one of some place of the walk (`Points`):

      start ──→ … ──→ · ──‹blamed›──→ … ──→ ·  at fault
      ‹------ front -----›

  In the text in front of that marker the walk makes the same steps up to this place, and
  then the text is over.  So no other fault stands there, but a tag may be left open.

  Main results:
    * `Walk.Fails.points` — every fault blames the next marker of a place of the walk.
    * `Walk.Points.front` — the scan of the text in front of that marker.
    * `scan_error_points` — where the fault of a scan points, whom a closing marker of the
      wrong name blames, and what a pass makes of the fault.
-/
import Mathlib.Data.String.Basic
import TagExpander.Pass.Expand
import TagExpander.Proofs.Markup.Extension
import TagExpander.Proofs.Markup.Plain

namespace TagExpander.Markup

/-! ## §1. The name in a marker. -/

namespace Marker

/-- The text in a marker behind `<?#` and a slash, if there is one. -/
def named (cs : List Char) : List Char :=
  match cs.drop 3 with
  | '/' :: rest => rest
  | rest => rest

/-- The name that is written in the marker at the start of the text; empty if there is none. -/
def writtenName (cs : List Char) : String :=
  String.ofList ((Text.trimLeft (named cs)).takeWhile isNameChar)

theorem named_of_drop_eq_cons {cs rest : List Char} {c : Char} (h : cs.drop 3 = c :: rest) :
    named cs = if c = '/' then rest else c :: rest := by
  unfold named
  rw [h]
  split
  next heq =>
    cases heq
    rfl
  next hne =>
    rw [if_neg]
    rintro rfl
    exact hne rest rfl

/-- In front of the name stands a slash, perhaps. -/
theorem read_eq_readNamed (cs : List Char) :
    ∃ closing slash, slash <+: ['/'] ∧ cs.drop 3 = slash ++ named cs ∧
      read cs = readNamed closing (3 + slash.length) (named cs) := by
  cases hdrop : cs.drop 3 with
  | nil =>
      refine ⟨false, [], List.nil_prefix, ?_⟩
      unfold read named
      rw [hdrop]
      exact ⟨rfl, rfl⟩
  | cons c rest =>
      rw [read_of_drop_eq_cons hdrop, named_of_drop_eq_cons hdrop]
      by_cases hc : c = '/'
      · refine ⟨true, ['/'], List.prefix_rfl, ?_⟩
        rw [if_pos hc, if_pos hc, hc]
        exact ⟨rfl, rfl⟩
      · refine ⟨false, [], List.nil_prefix, ?_⟩
        rw [if_neg hc, if_neg hc]
        exact ⟨rfl, rfl⟩

/-- A marker that is read has the name that is written in it. -/
theorem name_of_read {cs : List Char} {m : Marker} (h : read cs = .ok m) :
    m.name = writtenName cs ∧ m.name ≠ "" := by
  obtain ⟨closing, slash, -, -, heq⟩ := read_eq_readNamed cs
  rw [heq, readNamed] at h
  simp only at h
  split at h
  · cases h
  next hname =>
    have hname' : writtenName cs ≠ "" := fun hempty => hname (String.isEmpty_iff.2 hempty)
    split at h
    · cases h
    · split at h
      · split at h
        · cases h
          exact ⟨rfl, hname'⟩
        · cases h
      · cases h
        exact ⟨rfl, hname'⟩

/-- So has one that cannot be read, and no name is written in it exactly if that is its
    fault. -/
theorem name_of_read_error {cs : List Char} {name : String} {fault : Fault}
    (h : read cs = .error (name, fault)) :
    name = writtenName cs ∧ (name = "" ↔ fault = .missingName) := by
  obtain ⟨closing, slash, -, -, heq⟩ := read_eq_readNamed cs
  rw [heq, readNamed] at h
  simp only at h
  split at h
  next hname =>
    cases h
    exact ⟨(String.isEmpty_iff.1 hname).symm, iff_of_true rfl rfl⟩
  next hname =>
    have hname' : writtenName cs ≠ "" := fun hempty => hname (String.isEmpty_iff.2 hempty)
    split at h
    · cases h
      exact ⟨rfl, iff_of_false hname' (by decide)⟩
    · split at h
      · split at h
        · cases h
        · cases h
          exact ⟨rfl, iff_of_false hname' (by decide)⟩
      · cases h

end Marker

/-! ## §2. The place that is blamed. -/

/-- The fault points at the marker between the two parts of the text. -/
structure Malformed.PointsAt (cause : Malformed) (text : String) (front rest : List Char) :
    Prop where
  text : text.toList = front ++ rest
  starts : startsMarker rest = true
  position : cause.position = Text.bytes front
  line : cause.line = 1 + Text.newlines front
  name : cause.name = Marker.writtenName rest
  /-- The fault is about no tag exactly if no name is written in the marker. -/
  nameless : cause.name = "" ↔ cause.fault = .missingName

/-- The text scans, or else a tag that is open at its end is all that is wrong with it. -/
def OnlyUnclosed (isRaw : String → Bool) (text : String) : Prop :=
  (∃ spans, scan isRaw text = .ok spans) ∨
    ∃ w t, Walk.Reaches isRaw (.start text.toList) w ∧ w.here.seek = none ∧ t ∈ w.opened ∧
      scan isRaw text = .error (.blame t.start t.name .missingCloser)

namespace Walk

variable {isRaw : String → Bool} {text : String} {w : Walk} {mark : Cursor} {m : Marker}
  {cause : Malformed}

/-- The fault blames the next marker of a place of the walk. -/
structure Points (isRaw : String → Bool) (text : String) (cause : Malformed) (w : Walk)
    (mark : Cursor) : Prop where
  reaches : Reaches isRaw (start text.toList) w
  seek : w.here.seek = some mark
  blamed : cause = .blame mark (Marker.writtenName mark.rest) cause.fault
  nameless : cause.name = "" ↔ cause.fault = .missingName

/-- A marker that is read has a name, so the fault is not that it has none. -/
theorem Meets.points {fault : Fault} (h : w.Meets mark m)
    (hreach : Reaches isRaw (start text.toList) w) (hfault : fault ≠ .missingName) :
    Points isRaw text (.blame mark m.name fault) w mark := by
  obtain ⟨hname, hne⟩ := Marker.name_of_read h.read
  exact ⟨hreach, h.seek, congrArg (Malformed.blame mark · fault) hname, iff_of_false hne hfault⟩

/-- A tag that is open was the next marker of a place that the walk came by. -/
theorem Reaches.points (hreach : Reaches isRaw (start text.toList) w) {t : OpenTag}
    (ht : t ∈ w.opened) :
    ∃ w₀, Points isRaw text (.blame t.start t.name .missingCloser) w₀ t.start := by
  obtain ⟨before, outer, hopened⟩ := List.append_of_mem ht
  obtain ⟨w₀, m, hreach₀, -, hmeets, hname⟩ := hreach.opened ⟨before, hopened.symm⟩
  rw [hname]
  exact ⟨w₀, hmeets.points hreach₀ nofun⟩

/-- **Every fault blames the next marker of a place of the walk.** -/
theorem Fails.points (h : Fails isRaw w cause) (hreach : Reaches isRaw (start text.toList) w) :
    ∃ w₀ mark, Points isRaw text cause w₀ mark := by
  cases h with
  | @unreadable mark name fault hseek hread =>
      obtain ⟨hname, hnameless⟩ := Marker.name_of_read_error hread
      exact ⟨w, mark, hreach, hseek, congrArg (Malformed.blame mark · fault) hname, hnameless⟩
  | unclosedRaw hmeets hrole hraw hclose => exact ⟨w, _, hmeets.points hreach nofun⟩
  | stray hmeets hrole hopened => exact ⟨w, _, hmeets.points hreach nofun⟩
  | unmatched hmeets hrole hopened hsame houter => exact ⟨w, _, hmeets.points hreach nofun⟩
  | crossed hmeets hrole hopened hsame houter =>
      obtain ⟨w₀, hpoints⟩ := hreach.points (hopened ▸ List.mem_cons_self)
      exact ⟨w₀, _, hpoints⟩
  | unclosed hseek hopened =>
      obtain ⟨w₀, hpoints⟩ := hreach.points (List.mem_of_getLast? hopened)
      exact ⟨w₀, _, hpoints⟩

/-! ## §3. The text in front of it. -/

/-- Where no marker follows, the walk is done, or the outermost open tag is blamed. -/
theorem Reaches.onlyUnclosed (hreach : Reaches isRaw (start text.toList) w)
    (hs : w.here.seek = none) : OnlyUnclosed isRaw text := by
  have hscan : scan isRaw text = w.outcome isRaw := by
    rw [← outcome_start, hreach.outcome_eq]
  rw [outcome, scanFrom_of_none hs] at hscan
  cases hlast : w.opened.getLast? with
  | none =>
      rw [hlast] at hscan
      exact .inl ⟨_, hscan⟩
  | some outermost =>
      rw [hlast] at hscan
      exact .inr ⟨w, outermost, hreach, hs, List.mem_of_getLast? hlast, hscan⟩

/-- **The marker that is blamed, and the text in front of it.** -/
theorem Points.front (h : Points isRaw text cause w mark) :
    ∃ front rest, cause.PointsAt text front rest ∧ OnlyUnclosed isRaw (String.ofList front) := by
  have halong := h.reaches.along
  obtain ⟨k, hmark, hstarts, -⟩ := Cursor.seek_eq_some_iff.1 h.seek
  have hle : k ≤ w.here.rest.length := Nat.le_of_add_right_le (add_three_le_length hstarts)
  have hon : mark.On text.toList := by
    rw [hmark]
    exact halong.here.skip hle
  have hbefore : w.here.chars ≤ mark.chars := by
    rw [hmark, Cursor.chars_skip hle]
    exact Nat.le_add_right _ _
  -- the marker stands `n` characters behind the start of the text
  obtain ⟨n, hn, rfl⟩ := hon
  have hchars : ((Cursor.start text.toList).skip n).chars = n := by
    rw [Cursor.chars_skip hn]
    exact Nat.zero_add n
  have hlength : (text.toList.take n).length = n := List.length_take_of_le hn
  have htext : text.toList = text.toList.take n ++ text.toList.drop n :=
    (List.take_append_drop n text.toList).symm
  refine ⟨text.toList.take n, text.toList.drop n, ⟨htext, ?_, ?_, ?_, ?_, h.nameless⟩, ?_⟩
  · exact Cursor.startsMarker_of_seek h.seek
  · rw [h.blamed]
    exact Nat.zero_add _
  · rw [h.blamed]
    show 0 + Text.newlines (text.toList.take n) + 1 = 1 + Text.newlines (text.toList.take n)
    omega
  · rw [h.blamed]
    rfl
  · -- the walk up to here is one over the text in front, which is over then
    have hreach := h.reaches
    rw [htext] at hreach
    obtain ⟨w₀, hreach₀, rfl⟩ := hreach.cut (by omega)
    have hseek : w₀.here.seek = none :=
      Cursor.seek_eq_none_of_extend hreach₀.along.here h.seek (by omega)
    refine Reaches.onlyUnclosed ?_ hseek
    rw [String.toList_ofList]
    exact hreach₀

/-! ## §4. Closing markers that do not match. -/

/-- A closing marker that has the name of no open tag blames itself. -/
theorem Reaches.scan_stray (hreach : Reaches isRaw (start text.toList) w) (hmeets : w.Meets mark m)
    (hrole : m.role = .closing)
    (hnone : (w.opened.any fun t => Text.same t.name m.name) = false) :
    scan isRaw text = .error (.blame mark m.name .strayCloser) := by
  rw [← outcome_start, hreach.outcome_eq]
  cases hopened : w.opened with
  | nil => exact (Fails.stray hmeets hrole hopened).outcome_eq
  | cons innermost outer =>
      rw [hopened, List.any_cons, Bool.or_eq_false_iff] at hnone
      exact (Fails.unmatched hmeets hrole hopened hnone.1 hnone.2).outcome_eq

/-- One that has the name of a tag further out blames the innermost one. -/
theorem Reaches.scan_crossed (hreach : Reaches isRaw (start text.toList) w)
    (hmeets : w.Meets mark m) (hrole : m.role = .closing) {innermost : OpenTag}
    {outer : List OpenTag} (hopened : w.opened = innermost :: outer)
    (hsame : Text.same innermost.name m.name = false)
    (houter : (outer.any fun t => Text.same t.name m.name) = true) :
    scan isRaw text = .error (.blame innermost.start innermost.name .missingCloser) := by
  rw [← outcome_start, hreach.outcome_eq]
  exact (Fails.crossed hmeets hrole hopened hsame houter).outcome_eq

end Walk

/-- **A fault points at the marker that is wrong.**  If a text does not scan, the fault points
    at a marker of the text, by byte and by line, and has the name that is written there.  The
    text in front of the marker scans, or else a tag that is open at its end is all that is
    wrong with it.  A closing marker that does not match the innermost open tag blames this
    tag, if a tag further out has its name, and else itself.  A pass over the text fails with
    the fault, and names no producer. -/
theorem scan_error_points {isRaw : String → Bool} {text : String} {cause : Malformed}
    (h : scan isRaw text = .error cause) :
    (∃ front rest, cause.PointsAt text front rest ∧ OnlyUnclosed isRaw (String.ofList front)) ∧
    (∀ w mark m, Walk.Reaches isRaw (.start text.toList) w → w.Meets mark m →
      m.role = .closing →
      ((w.opened.any fun t => Text.same t.name m.name) = false →
        cause = .blame mark m.name .strayCloser) ∧
      ∀ innermost outer, w.opened = innermost :: outer →
        Text.same innermost.name m.name = false →
        (outer.any fun t => Text.same t.name m.name) = true →
        cause = .blame innermost.start innermost.name .missingCloser) ∧
    ∀ (μ : Type → Type) [Monad μ] (σ : Type) (e : Expander μ σ), e.registry.isRaw = isRaw →
      ∀ source levels depth (p : Pass.Progress σ),
        Pass.expand e source (levels + 1) depth text p =
          pure (.error (.malformed cause none), p.record (.scanned text)) := by
  refine ⟨?_, ?_, ?_⟩
  · have houtcome : (Walk.start text.toList).outcome isRaw = .error cause := h
    obtain ⟨w, hreach, hfails⟩ := Walk.outcome_eq_error_iff.1 houtcome
    obtain ⟨w₀, mark, hpoints⟩ := hfails.points hreach
    exact hpoints.front
  · intro w mark m hreach hmeets hrole
    constructor
    · intro hnone
      exact Except.error.inj (h.symm.trans (hreach.scan_stray hmeets hrole hnone))
    · intro innermost outer hopened hsame houter
      exact Except.error.inj (h.symm.trans (hreach.scan_crossed hmeets hrole hopened hsame houter))
  · intro μ _ σ e hraw source levels depth p
    rw [Pass.expand, if_pos (containsMarker_of_scan_error h), hraw, h]

/-- Two tags that cross, on the second line. -/
def crossedTags : String := "é\n<?# A ?><?# B ?><?#/ a ?>"

/-- The innermost tag is blamed, and the text in front of it ends with the other one open. -/
theorem scan_error_points_crossedTags :
    scan (fun _ => false) crossedTags = .error ⟨"B", 2, 11, .missingCloser⟩ ∧
      ∃ front rest, (⟨"B", 2, 11, .missingCloser⟩ : Malformed).PointsAt crossedTags front rest ∧
        OnlyUnclosed (fun _ => false) (String.ofList front) := by
  have hscan : scan (fun _ => false) crossedTags = .error ⟨"B", 2, 11, .missingCloser⟩ := by
    decide +kernel
  exact ⟨hscan, (scan_error_points hscan).1⟩

end TagExpander.Markup
