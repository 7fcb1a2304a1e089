/-
  TagExpander.Proofs.Markup.Walk — the walk over a text, from marker to marker.

  The walk stands at a place, with the tags that are open there and the spans that were
  found so far.  The next marker either takes it to a place further on, with a tag opened,
  closed or passed over, or is at fault; behind the last marker the walk is done, unless a
  tag is still open:

      start ──<?# A ?>──→ · ──<?# B /?>──→ · ──<?#/ A ?>──→ ·  done
                          └── <?#/ C ?>: at fault

  Main results:
    * `Walk.Step.outcome_eq`, `Walk.Fails.outcome_eq` — a step does not change the outcome, and
      a fault is the outcome.
    * `Walk.outcome_eq_ok_iff`, `Walk.outcome_eq_error_iff` — the outcome is where the walk
      ends, or the fault that it comes to.
    * `Walk.Reaches.along` — all places of a walk lie in its text.
    * `Walk.Reaches.opened` — every open tag was met on the way, where those around it were
      open.
-/
import Mathlib.Logic.Relation
import TagExpander.Proofs.Markup.Fragment
import TagExpander.Proofs.Markup.RawTags

namespace TagExpander.Markup

/-! ## §1. Steps and faults. -/

/-- A walk over a text, on its way. -/
structure Walk where
  /-- The place at which it stands. -/
  here : Cursor
  /-- The tags that are open there, innermost first. -/
  opened : List OpenTag
  /-- The spans found so far. -/
  found : Found

namespace Walk

/-- The walk at the start of a text. -/
def start (text : List Char) : Walk :=
  ⟨.start text, [], ⟨[], .start text⟩⟩

/-- What becomes of the walk. -/
def outcome (isRaw : String → Bool) (w : Walk) : Except Malformed (List Span) :=
  scanFrom isRaw w.here w.opened w.found

/-- The next marker, where it stands. -/
structure Meets (w : Walk) (mark : Cursor) (m : Marker) : Prop where
  seek : w.here.seek = some mark
  read : Marker.read mark.rest = .ok m

/-- Over the next marker, or over a raw tag as a whole. -/
inductive Step (isRaw : String → Bool) (w : Walk) : Walk → Prop where
  | single {mark : Cursor} {m : Marker} (hmeets : w.Meets mark m) (hrole : m.role = .selfClosing) :
      Step isRaw w ⟨mark.skip m.length, w.opened,
        w.found.record w.opened (.ofMarker m mark) none (mark.skip m.length)⟩
  | raw {mark closer next : Cursor} {m : Marker} (hmeets : w.Meets mark m)
      (hrole : m.role = .opening) (hraw : isRaw m.name = true)
      (hclose : rawCloser m.name (mark.skip m.length) = some (closer, next)) :
      Step isRaw w ⟨next, w.opened, w.found.record w.opened (.ofMarker m mark) (some closer) next⟩
  | opening {mark : Cursor} {m : Marker} (hmeets : w.Meets mark m) (hrole : m.role = .opening)
      (hraw : isRaw m.name = false) :
      Step isRaw w ⟨mark.skip m.length, .ofMarker m mark :: w.opened, w.found⟩
  | closing {mark : Cursor} {m : Marker} {innermost : OpenTag} {outer : List OpenTag}
      (hmeets : w.Meets mark m) (hrole : m.role = .closing)
      (hopened : w.opened = innermost :: outer)
      (hsame : Text.same innermost.name m.name = true) :
      Step isRaw w ⟨mark.skip m.length, outer,
        w.found.record outer innermost (some mark) (mark.skip m.length)⟩

/-- The walk is done: no marker follows, and no tag is open. -/
structure Done (w : Walk) : Prop where
  seek : w.here.seek = none
  opened : w.opened = []

/-- The fault that ends the walk where it stands. -/
inductive Fails (isRaw : String → Bool) (w : Walk) : Malformed → Prop where
  /-- The next marker cannot be read. -/
  | unreadable {mark : Cursor} {name : String} {fault : Fault} (hseek : w.here.seek = some mark)
      (hread : Marker.read mark.rest = .error (name, fault)) :
      Fails isRaw w (.blame mark name fault)
  /-- A raw tag has no closing marker. -/
  | unclosedRaw {mark : Cursor} {m : Marker} (hmeets : w.Meets mark m) (hrole : m.role = .opening)
      (hraw : isRaw m.name = true) (hclose : rawCloser m.name (mark.skip m.length) = none) :
      Fails isRaw w (.blame mark m.name .missingCloser)
  /-- A closing marker where no tag is open. -/
  | stray {mark : Cursor} {m : Marker} (hmeets : w.Meets mark m) (hrole : m.role = .closing)
      (hopened : w.opened = []) :
      Fails isRaw w (.blame mark m.name .strayCloser)
  /-- A closing marker for a tag further out. -/
  | crossed {mark : Cursor} {m : Marker} {innermost : OpenTag} {outer : List OpenTag}
      (hmeets : w.Meets mark m) (hrole : m.role = .closing)
      (hopened : w.opened = innermost :: outer)
      (hsame : Text.same innermost.name m.name = false)
      (houter : (outer.any fun t => Text.same t.name m.name) = true) :
      Fails isRaw w (.blame innermost.start innermost.name .missingCloser)
  /-- A closing marker for no open tag. -/
  | unmatched {mark : Cursor} {m : Marker} {innermost : OpenTag} {outer : List OpenTag}
      (hmeets : w.Meets mark m) (hrole : m.role = .closing)
      (hopened : w.opened = innermost :: outer)
      (hsame : Text.same innermost.name m.name = false)
      (houter : (outer.any fun t => Text.same t.name m.name) = false) :
      Fails isRaw w (.blame mark m.name .strayCloser)
  /-- A tag is open at the end of the text; the outermost one is blamed. -/
  | unclosed {outermost : OpenTag} (hseek : w.here.seek = none)
      (hopened : w.opened.getLast? = some outermost) :
      Fails isRaw w (.blame outermost.start outermost.name .missingCloser)

section Outcome

variable {isRaw : String → Bool} {w w' : Walk} {cause : Malformed}

/-- **A step does not change what becomes of the walk.** -/
theorem Step.outcome_eq (h : Step isRaw w w') : w.outcome isRaw = w'.outcome isRaw := by
  unfold outcome
  cases h with
  | single hmeets hrole =>
      rw [scanFrom_of_read hmeets.seek hmeets.read, hrole]
  | raw hmeets hrole hraw hclose =>
      rw [scanFrom_of_read hmeets.seek hmeets.read, hrole]
      dsimp only
      rw [if_pos hraw, hclose]
  | opening hmeets hrole hraw =>
      rw [scanFrom_of_read hmeets.seek hmeets.read, hrole]
      dsimp only
      rw [hraw, if_neg Bool.false_ne_true]
  | closing hmeets hrole hopened hsame =>
      rw [scanFrom_of_read hmeets.seek hmeets.read, hrole, hopened]
      dsimp only
      rw [if_pos hsame]

/-- **A fault is what becomes of the walk.** -/
theorem Fails.outcome_eq (h : Fails isRaw w cause) : w.outcome isRaw = .error cause := by
  unfold outcome
  cases h with
  | unreadable hseek hread => exact scanFrom_of_error hseek hread
  | unclosedRaw hmeets hrole hraw hclose =>
      rw [scanFrom_of_read hmeets.seek hmeets.read, hrole]
      dsimp only
      rw [if_pos hraw, hclose]
  | stray hmeets hrole hopened =>
      rw [scanFrom_of_read hmeets.seek hmeets.read, hrole, hopened]
  | crossed hmeets hrole hopened hsame houter =>
      rw [scanFrom_of_read hmeets.seek hmeets.read, hrole, hopened]
      dsimp only
      rw [hsame, if_neg Bool.false_ne_true, if_pos houter]
  | unmatched hmeets hrole hopened hsame houter =>
      rw [scanFrom_of_read hmeets.seek hmeets.read, hrole, hopened]
      dsimp only
      rw [hsame, houter, if_neg Bool.false_ne_true, if_neg Bool.false_ne_true]
  | unclosed hseek hopened =>
      rw [scanFrom_of_none hseek, hopened]

theorem Done.outcome_eq (h : w.Done) : w.outcome isRaw = .ok w.found.finish := by
  rw [outcome, scanFrom_of_none h.seek, h.opened]
  rfl

/-! ## §2. Whole walks. -/

/-- Any number of steps. -/
def Reaches (isRaw : String → Bool) : Walk → Walk → Prop :=
  Relation.ReflTransGen (Step isRaw)

theorem Reaches.outcome_eq (h : Reaches isRaw w w') : w.outcome isRaw = w'.outcome isRaw := by
  induction h with
  | refl => rfl
  | tail _ hstep ih => rw [ih, hstep.outcome_eq]

/-- **Every walk comes to its end or to a fault.** -/
theorem exists_end (isRaw : String → Bool) (w : Walk) :
    ∃ w', Reaches isRaw w w' ∧ (w'.Done ∨ ∃ cause, Fails isRaw w' cause) := by
  obtain ⟨here, opened, found⟩ := w
  -- the walk goes on behind a step, and is at its end otherwise
  have hstep : ∀ {w w' : Walk}, Step isRaw w w' →
      (∃ w'', Reaches isRaw w' w'' ∧ (w''.Done ∨ ∃ cause, Fails isRaw w'' cause)) →
      ∃ w'', Reaches isRaw w w'' ∧ (w''.Done ∨ ∃ cause, Fails isRaw w'' cause) := by
    intro w w' h hrest
    obtain ⟨w'', hreach, hend⟩ := hrest
    exact ⟨w'', .head h hreach, hend⟩
  fun_induction scanFrom isRaw here opened found with
  | case1 here opened found hs outermost hlast =>
      exact ⟨_, .refl, .inr ⟨_, .unclosed hs hlast⟩⟩
  | case2 here opened found hs hlast =>
      exact ⟨_, .refl, .inl ⟨hs, List.getLast?_eq_none_iff.1 hlast⟩⟩
  | case3 here opened found mark hs name fault hm =>
      exact ⟨_, .refl, .inr ⟨_, .unreadable hs hm⟩⟩
  | case4 here opened found mark hs m hm next hrole found' ih =>
      exact hstep (.single ⟨hs, hm⟩ hrole) ih
  | case5 here opened found mark hs m hm next hrole hraw hclose =>
      exact ⟨_, .refl, .inr ⟨_, .unclosedRaw ⟨hs, hm⟩ hrole hraw hclose⟩⟩
  | case6 here opened found mark hs m hm next hrole hraw closer stop hclose found' ih =>
      exact hstep (.raw ⟨hs, hm⟩ hrole hraw hclose) ih
  | case7 here opened found mark hs m hm next hrole hraw ih =>
      exact hstep (.opening ⟨hs, hm⟩ hrole (Bool.not_eq_true _ ▸ hraw)) ih
  | case8 here found mark hs m hm hrole =>
      exact ⟨_, .refl, .inr ⟨_, .stray ⟨hs, hm⟩ hrole rfl⟩⟩
  | case9 here found mark hs m hm next hrole innermost outer hsame found' ih =>
      exact hstep (.closing ⟨hs, hm⟩ hrole rfl hsame) ih
  | case10 here found mark hs m hm hrole innermost outer hsame houter =>
      rw [Bool.not_eq_true] at hsame
      exact ⟨_, .refl, .inr ⟨_, .crossed ⟨hs, hm⟩ hrole rfl hsame houter⟩⟩
  | case11 here found mark hs m hm hrole innermost outer hsame houter =>
      rw [Bool.not_eq_true] at hsame houter
      exact ⟨_, .refl, .inr ⟨_, .unmatched ⟨hs, hm⟩ hrole rfl hsame houter⟩⟩

/-- The walk gives the spans that are found where it is done. -/
theorem outcome_eq_ok_iff {spans : List Span} :
    w.outcome isRaw = .ok spans ↔
      ∃ w', Reaches isRaw w w' ∧ w'.Done ∧ spans = w'.found.finish := by
  constructor
  · intro h
    obtain ⟨w', hreach, hend⟩ := exists_end isRaw w
    rw [hreach.outcome_eq] at h
    rcases hend with hdone | ⟨cause, hfails⟩
    · rw [hdone.outcome_eq] at h
      cases h
      exact ⟨w', hreach, hdone, rfl⟩
    · rw [hfails.outcome_eq] at h
      cases h
  · intro h
    obtain ⟨w', hreach, hdone, rfl⟩ := h
    rw [hreach.outcome_eq, hdone.outcome_eq]

/-- The walk gives the fault that it comes to. -/
theorem outcome_eq_error_iff :
    w.outcome isRaw = .error cause ↔ ∃ w', Reaches isRaw w w' ∧ Fails isRaw w' cause := by
  constructor
  · intro h
    obtain ⟨w', hreach, hend⟩ := exists_end isRaw w
    rw [hreach.outcome_eq] at h
    rcases hend with hdone | ⟨cause', hfails⟩
    · rw [hdone.outcome_eq] at h
      cases h
    · rw [hfails.outcome_eq] at h
      cases h
      exact ⟨w', hreach, hfails⟩
  · intro h
    obtain ⟨w', hreach, hfails⟩ := h
    rw [hreach.outcome_eq, hfails.outcome_eq]

/-- A scan is the walk from the start of the text. -/
theorem outcome_start (isRaw : String → Bool) (text : String) :
    (start text.toList).outcome isRaw = scan isRaw text := rfl

end Outcome

end Walk

/-! ## §3. Places in a text. -/

/-- The place lies in the text. -/
def Cursor.On (text : List Char) (c : Cursor) : Prop :=
  ∃ n ≤ text.length, c = (Cursor.start text).skip n

namespace Cursor

variable {text : List Char} {c : Cursor}

theorem on_start (text : List Char) : (start text).On text :=
  ⟨0, Nat.zero_le _, rfl⟩

theorem chars_skip {n : Nat} (hn : n ≤ c.rest.length) : (c.skip n).chars = c.chars + n := by
  show c.chars + (c.rest.take n).length = c.chars + n
  rw [List.length_take, Nat.min_eq_left hn]

/-- In front of a place and behind it stands the whole text. -/
theorem On.length_eq (h : c.On text) : c.chars + c.rest.length = text.length := by
  obtain ⟨n, hn, rfl⟩ := h
  rw [chars_skip hn, rest_skip, List.length_drop]
  show 0 + n + (text.length - n) = text.length
  omega

theorem On.skip (h : c.On text) {n : Nat} (hn : n ≤ c.rest.length) : (c.skip n).On text := by
  obtain ⟨k, hk, rfl⟩ := h
  rw [rest_skip, List.length_drop] at hn
  refine ⟨k + n, ?_, skip_skip _ _ _⟩
  have : (start text).rest.length = text.length := rfl
  omega

/-- The next marker stands in the text, further on, and so does its end. -/
theorem On.marker {mark : Cursor} {m : Marker} (h : c.On text) (hs : c.seek = some mark)
    (hm : Marker.read mark.rest = .ok m) :
    mark.On text ∧ (mark.skip m.length).On text ∧ c.chars ≤ mark.chars ∧
      mark.chars ≤ (mark.skip m.length).chars := by
  obtain ⟨k, hlength, rfl, -⟩ := keeps_marker hs hm
  have hk : k ≤ c.rest.length := Nat.le_of_add_right_le hlength
  have hend : m.length ≤ (c.skip k).rest.length := Marker.length_read_le hm
  have hmark := h.skip hk
  refine ⟨hmark, hmark.skip hend, ?_, ?_⟩
  · rw [chars_skip hk]
    exact Nat.le_add_right _ _
  · rw [chars_skip hend]
    exact Nat.le_add_right _ _

/-- A raw tag ends in the text, further on. -/
theorem On.rawCloser {name : String} {closer next : Cursor} (h : c.On text)
    (hclose : Markup.rawCloser name c = some (closer, next)) :
    closer.On text ∧ next.On text ∧ c.chars ≤ next.chars := by
  obtain ⟨k, closing, hcloses, rfl, rfl⟩ := closerAt?_of_rawCloser hclose
  obtain ⟨hstarts, hread, -⟩ := closerAt?_eq_some.1 hcloses
  have hend := Marker.length_read_le hread
  have hstart := add_three_le_length hstarts
  rw [List.length_drop] at hend
  have hlength : k + closing.length ≤ c.rest.length := by omega
  refine ⟨h.skip (by omega), h.skip hlength, ?_⟩
  rw [chars_skip hlength]
  exact Nat.le_add_right _ _

end Cursor

/-! ## §4. Places of a walk. -/

namespace Walk

variable {isRaw : String → Bool} {text : List Char} {w w' : Walk}

/-- All places that the walk knows lie in the text. -/
structure Along (text : List Char) (w : Walk) : Prop where
  here : w.here.On text
  upTo : w.found.upTo.On text
  opened : ∀ t ∈ w.opened, t.start.On text ∧ t.body.On text

theorem along_start (text : List Char) : (start text).Along text where
  here := Cursor.on_start text
  upTo := Cursor.on_start text
  opened := nofun

/-- What is recorded lies in the text. -/
theorem on_record {found : Found} {opened : List OpenTag} {t : OpenTag} {closer : Option Cursor}
    {next : Cursor} (hfound : found.upTo.On text) (hnext : next.On text) :
    (found.record opened t closer next).upTo.On text := by
  unfold Found.record
  split
  · exact hnext
  · exact hfound

/-- A step stays in the text and goes forward. -/
theorem Step.along (h : Step isRaw w w') (hw : w.Along text) :
    w'.Along text ∧ w.here.chars ≤ w'.here.chars := by
  cases h with
  | single hmeets hrole =>
      obtain ⟨-, hnext, hle, hle'⟩ := hw.here.marker hmeets.seek hmeets.read
      exact ⟨⟨hnext, on_record hw.upTo hnext, hw.opened⟩, Nat.le_trans hle hle'⟩
  | raw hmeets hrole hraw hclose =>
      obtain ⟨-, hbody, hle, hle'⟩ := hw.here.marker hmeets.seek hmeets.read
      obtain ⟨-, hnext, hle''⟩ := hbody.rawCloser hclose
      exact ⟨⟨hnext, on_record hw.upTo hnext, hw.opened⟩,
        Nat.le_trans hle (Nat.le_trans hle' hle'')⟩
  | opening hmeets hrole hraw =>
      obtain ⟨hmark, hnext, hle, hle'⟩ := hw.here.marker hmeets.seek hmeets.read
      refine ⟨⟨hnext, hw.upTo, ?_⟩, Nat.le_trans hle hle'⟩
      intro t ht
      rcases List.mem_cons.1 ht with rfl | hrest
      · exact ⟨hmark, hnext⟩
      · exact hw.opened t hrest
  | closing hmeets hrole hopened hsame =>
      obtain ⟨-, hnext, hle, hle'⟩ := hw.here.marker hmeets.seek hmeets.read
      refine ⟨⟨hnext, on_record hw.upTo hnext, ?_⟩, Nat.le_trans hle hle'⟩
      intro t ht
      exact hw.opened t (hopened ▸ List.mem_cons_of_mem _ ht)

/-- **A walk stays in its text.** -/
theorem Reaches.along (h : Reaches isRaw (start text) w) : w.Along text := by
  induction h with
  | refl => exact along_start text
  | tail _ hstep ih => exact (hstep.along ih).1

/-- **Every open tag was met on the way**, where those around it were open. -/
theorem Reaches.opened (h : Reaches isRaw (start text) w) {t : OpenTag} {outer : List OpenTag}
    (ht : t :: outer <:+ w.opened) :
    ∃ w₀ m, Reaches isRaw (start text) w₀ ∧ w₀.opened = outer ∧ w₀.Meets t.start m ∧
      t.name = m.name := by
  -- on the steps; only an opening marker adds a tag to those that were open before
  induction h with
  | refl => cases List.suffix_nil.1 ht
  | tail hreach hstep ih =>
      cases hstep with
      | single hmeets hrole => exact ih ht
      | raw hmeets hrole hraw hclose => exact ih ht
      | opening hmeets hrole hraw =>
          rcases List.suffix_cons_iff.1 ht with heq | hsuffix
          · obtain ⟨rfl, rfl⟩ := List.cons.inj heq
            exact ⟨_, _, hreach, rfl, hmeets, rfl⟩
          · exact ih hsuffix
      | closing hmeets hrole hopened hsame =>
          exact ih (hopened ▸ ht.trans (List.suffix_cons _ _))

end Walk

end TagExpander.Markup
