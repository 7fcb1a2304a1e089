/-
  TagExpander.Proofs.Markup.Extension — the walk over a text with more text at its end.

  As long as a walk has not come to the end of its text, it does not see what follows
  there.  So it takes the same steps in the longer text, and the steps in the longer text
  that end in front of the addition are steps in the text:

      text            · ──→ · ──→ ·
      text ++ more    · ──→ · ──→ · ──→ …

  A raw tag is the exception in one direction: a `<?#` in its content that reads as no
  marker may become one by what follows, so that the tag ends elsewhere (`KeepsRaw` says
  that it does not).

  Main results:
    * `Walk.Step.extend`, `Walk.Reaches.extend` — a walk is made in the longer text, if
      the raw tags that it meets end where they did.
    * `Walk.Step.cut`, `Walk.Reaches.cut` — a walk in the longer text that ends in front of
      the addition is made in the text.
-/
import TagExpander.Proofs.Markup.Walk

namespace TagExpander.Markup

variable {text more : List Char}

/-! ## §1. Places with more text behind. -/

namespace Cursor

variable {c later mark : Cursor}

/-- The same place, with more text at the end. -/
def extend (more : List Char) (c : Cursor) : Cursor :=
  { c with rest := c.rest ++ more }

theorem cut_extend (more : List Char) (c : Cursor) : Cut more (c.extend more) c := rfl

theorem start_extend (text more : List Char) :
    (start text).extend more = start (text ++ more) := rfl

/-- A move that ends in the text. -/
theorem skip_extend {n : Nat} (hn : n ≤ c.rest.length) :
    (c.extend more).skip n = (c.skip n).extend more := by
  unfold skip extend
  dsimp only
  rw [List.take_append_of_le_length hn, List.drop_append_of_le_length hn]

theorem On.extend (h : c.On text) : (c.extend more).On (text ++ more) := by
  obtain ⟨n, hn, rfl⟩ := h
  refine ⟨n, ?_, (skip_extend hn).symm⟩
  rw [List.length_append]
  omega

theorem upTo_extend (hc : c.On text) (hlater : later.On text) :
    (c.extend more).upTo (later.extend more) = c.upTo later := by
  have hc' := hc.length_eq
  have hlater' := hlater.length_eq
  show (c.rest ++ more).take (later.chars - c.chars) = c.rest.take (later.chars - c.chars)
  rw [List.take_append_of_le_length (by omega)]

/-- The next marker stays the next one. -/
theorem seek_extend (hs : c.seek = some mark) :
    (c.extend more).seek = some (mark.extend more) := by
  obtain ⟨k, rfl, hk, hfirst⟩ := seek_eq_some_iff.1 hs
  have hlength := add_three_le_length hk
  refine seek_eq_some_iff.2 ⟨k, (skip_extend (by omega)).symm, ?_, ?_⟩
  · show startsMarker ((c.rest ++ more).drop k) = true
    rw [List.drop_append_of_le_length (by omega)]
    exact startsMarker_append more hk
  · intro j hj
    show startsMarker ((c.rest ++ more).drop j) = false
    rw [List.drop_append_of_le_length (by omega),
      startsMarker_append_eq more (by rw [List.length_drop]; omega)]
    exact hfirst j hj

/-- No marker is there if the next one starts where the text is cut off. -/
theorem seek_eq_none_of_extend (hc : c.On text) (hs : (c.extend more).seek = some mark)
    (hmark : text.length ≤ mark.chars) : c.seek = none := by
  obtain ⟨k, rfl, hk, hfirst⟩ := seek_eq_some_iff.1 hs
  have hlength := hc.length_eq
  have hstart := add_three_le_length hk
  rw [chars_skip (Nat.le_of_add_right_le hstart)] at hmark
  have hbehind : c.rest.length ≤ k := by
    have hmark' : text.length ≤ c.chars + k := hmark
    omega
  rw [seek_eq_none_iff]
  intro j
  rcases Nat.lt_or_ge j k with hlt | hge
  · exact (cut_extend more c).startsMarker_eq_false (hfirst j hlt)
  · rw [List.drop_eq_nil_of_le (Nat.le_trans hbehind hge)]
    rfl

end Cursor

/-! ## §2. What is found and what is open. -/

/-- The same open tag, in the longer text. -/
def OpenTag.extend (more : List Char) (t : OpenTag) : OpenTag :=
  { t with start := t.start.extend more, body := t.body.extend more }

theorem OpenTag.ofMarker_extend {m : Marker} {mark : Cursor} (h : m.length ≤ mark.rest.length) :
    ofMarker m (mark.extend more) = (ofMarker m mark).extend more := by
  unfold ofMarker
  rw [Cursor.skip_extend h]
  rfl

namespace Found

/-- The same spans, in the longer text. -/
def extend (more : List Char) (f : Found) : Found :=
  ⟨f.spans, f.upTo.extend more⟩

theorem record_extend {f : Found} (opened : List OpenTag) (t : OpenTag) (closer : Option Cursor)
    (next : Cursor) (hf : f.upTo.On text) (hstart : t.start.On text) (hbody : t.body.On text)
    (hcloser : ∀ c ∈ closer, c.On text) (more : List Char) :
    (f.extend more).record (opened.map (OpenTag.extend more)) (t.extend more)
        (closer.map (Cursor.extend more)) (next.extend more) =
      (f.record opened t closer next).extend more := by
  have hclose : (t.extend more).close (closer.map (Cursor.extend more)) (next.extend more) =
      t.close closer next := by
    cases closer with
    | none => rfl
    | some c =>
        unfold OpenTag.close
        rw [Option.map_some, Option.map_some, Option.map_some, Option.getD_some, Option.getD_some,
          OpenTag.extend, Cursor.upTo_extend hbody (hcloser c rfl)]
        rfl
  have hliteral : (f.extend more).upTo.upTo (t.extend more).start = f.upTo.upTo t.start :=
    Cursor.upTo_extend hf hstart
  unfold record
  rw [List.isEmpty_map]
  split
  · unfold add
    rw [hclose, hliteral]
    rfl
  · rfl

end Found

namespace Walk

variable {isRaw : String → Bool} {w w' : Walk} {mark : Cursor} {m : Marker}

/-- The same walk, in the longer text. -/
def extend (more : List Char) (w : Walk) : Walk :=
  ⟨w.here.extend more, w.opened.map (OpenTag.extend more), w.found.extend more⟩

theorem extend_start (text more : List Char) : (start text).extend more = start (text ++ more) :=
  rfl

/-! ## §3. Steps in the longer text. -/

/-- The next marker reads the same. -/
theorem Meets.extend (h : w.Meets mark m) : (w.extend more).Meets (mark.extend more) m where
  seek := Cursor.seek_extend h.seek
  read := (Marker.read_cut.1 h.read).1

/-- If the walk meets a raw tag next, the tag ends in the longer text where it does in the
    text. -/
def KeepsRaw (isRaw : String → Bool) (more : List Char) (w : Walk) : Prop :=
  ∀ mark m, w.Meets mark m → m.role = .opening → isRaw m.name = true →
    ∀ closer next, rawCloser m.name (mark.skip m.length) = some (closer, next) →
      rawCloser m.name ((mark.skip m.length).extend more) =
        some (closer.extend more, next.extend more)

/-- A walk that meets no raw tag next. -/
theorem keepsRaw_of_not_isRaw
    (h : ∀ mark m, w.Meets mark m → m.role = .opening → isRaw m.name = false) :
    w.KeepsRaw isRaw more := by
  intro mark m hmeets hrole hisRaw
  rw [h mark m hmeets hrole] at hisRaw
  cases hisRaw

/-- **A step is made in the longer text.** -/
theorem Step.extend (h : Step isRaw w w') (hw : w.Along text) (hraw : w.KeepsRaw isRaw more) :
    Step isRaw (w.extend more) (w'.extend more) := by
  cases h with
  | @single mark m hmeets hrole =>
      have hlength := Marker.length_read_le hmeets.read
      obtain ⟨hmark, hbody, -⟩ := hw.here.marker hmeets.seek hmeets.read
      have hstep : Step isRaw (w.extend more) _ := .single hmeets.extend hrole
      rw [Cursor.skip_extend hlength, OpenTag.ofMarker_extend hlength] at hstep
      have hrecord := Found.record_extend w.opened (.ofMarker m mark) none (mark.skip m.length)
        hw.upTo hmark hbody nofun more
      exact (congrArg (fun found => Step isRaw (w.extend more) ⟨_, _, found⟩) hrecord).mp hstep
  | @raw mark closer next m hmeets hrole hisRaw hclose =>
      have hlength := Marker.length_read_le hmeets.read
      obtain ⟨hmark, hbody, -⟩ := hw.here.marker hmeets.seek hmeets.read
      obtain ⟨hon, -⟩ := hbody.rawCloser hclose
      have hclose' := hraw mark m hmeets hrole hisRaw closer next hclose
      rw [← Cursor.skip_extend hlength] at hclose'
      have hstep : Step isRaw (w.extend more) _ := .raw hmeets.extend hrole hisRaw hclose'
      rw [OpenTag.ofMarker_extend hlength] at hstep
      have hcloser : ∀ c ∈ some closer, c.On text := by
        rintro _ ⟨⟩
        exact hon
      have hrecord := Found.record_extend w.opened (.ofMarker m mark) (some closer) next hw.upTo
        hmark hbody hcloser more
      exact (congrArg (fun found => Step isRaw (w.extend more) ⟨_, _, found⟩) hrecord).mp hstep
  | @opening mark m hmeets hrole hisRaw =>
      have hlength := Marker.length_read_le hmeets.read
      have hstep : Step isRaw (w.extend more) _ := .opening hmeets.extend hrole hisRaw
      rw [Cursor.skip_extend hlength, OpenTag.ofMarker_extend hlength] at hstep
      exact hstep
  | @closing mark m innermost outer hmeets hrole hopened hsame =>
      have hlength := Marker.length_read_le hmeets.read
      obtain ⟨hmark, -⟩ := hw.here.marker hmeets.seek hmeets.read
      obtain ⟨hstart, hbody⟩ := hw.opened innermost (hopened ▸ List.mem_cons_self)
      have hopened' : (w.extend more).opened =
          innermost.extend more :: outer.map (OpenTag.extend more) :=
        congrArg (List.map (OpenTag.extend more)) hopened
      have hstep : Step isRaw (w.extend more) _ := .closing hmeets.extend hrole hopened' hsame
      rw [Cursor.skip_extend hlength] at hstep
      have hcloser : ∀ c ∈ some mark, c.On text := by
        rintro _ ⟨⟩
        exact hmark
      have hrecord := Found.record_extend outer innermost (some mark) (mark.skip m.length) hw.upTo
        hstart hbody hcloser more
      exact (congrArg (fun found => Step isRaw (w.extend more) ⟨_, _, found⟩) hrecord).mp hstep

/-! ## §4. Steps in front of the addition. -/

/-- A marker that ends in front of the addition is there in the text. -/
theorem Meets.cut (h : (w.extend more).Meets mark m) (hw : w.Along text)
    (hend : (mark.skip m.length).chars ≤ text.length) :
    ∃ mark₀ : Cursor, w.Meets mark₀ m ∧ mark = mark₀.extend more ∧
      mark.skip m.length = (mark₀.skip m.length).extend more := by
  obtain ⟨j, hlength, rfl, hkeeps⟩ := keeps_marker h.seek h.read
  have hwhole := hw.here.length_eq
  rw [Cursor.skip_skip, Cursor.chars_skip hlength] at hend
  have hend' : w.here.chars + (j + m.length) ≤ text.length := hend
  obtain ⟨hs, hm⟩ := hkeeps (Cursor.cut_extend more w.here) (by omega)
  have hmark : (w.here.extend more).skip j = (w.here.skip j).extend more :=
    Cursor.skip_extend (by omega)
  refine ⟨w.here.skip j, ⟨hs, hm⟩, hmark, ?_⟩
  show ((w.here.extend more).skip j).skip m.length = _
  rw [hmark, Cursor.skip_extend (Marker.length_read_le hm)]

/-- The places that the search for the end of a raw tag finds are told apart by how far on
    they lie. -/
theorem rawCloser_places {name : String} {c closer next : Cursor}
    (h : rawCloser name c = some (closer, next)) :
    ∃ k n, k ≤ n ∧ n ≤ c.rest.length ∧ closer = c.skip k ∧ next = c.skip n ∧
      ∀ {more : List Char} {cut : Cursor}, Cut more c cut → n ≤ cut.rest.length →
        rawCloser name cut = some (cut.skip k, cut.skip n) := by
  obtain ⟨k, closing, hcloses, rfl, rfl⟩ := closerAt?_of_rawCloser h
  obtain ⟨k', n, hn, hk, hnext, hkeeps⟩ := rawCloser_cut h
  obtain ⟨hstarts, hread, -⟩ := closerAt?_eq_some.1 hcloses
  have hend := Marker.length_read_le hread
  have hstart := add_three_le_length hstarts
  rw [List.length_drop] at hend
  -- in front of the end of the text, a place is as far on as it is moved
  have hk' : c.chars + (c.rest.take k).length = c.chars + (c.rest.take k').length :=
    congrArg Cursor.chars hk
  have hn' : c.chars + (c.rest.take (k + closing.length)).length =
      c.chars + (c.rest.take n).length := congrArg Cursor.chars hnext
  rw [List.length_take, List.length_take] at hk' hn'
  obtain rfl : k = k' := by omega
  obtain rfl : k + closing.length = n := by omega
  exact ⟨k, _, Nat.le_add_right _ _, hn, rfl, rfl, hkeeps⟩

/-- The end of a raw tag is there in the text, if it lies in front of the addition. -/
theorem rawCloser_of_extend {name : String} {c closer next : Cursor} (hc : c.On text)
    (h : rawCloser name (c.extend more) = some (closer, next)) (hend : next.chars ≤ text.length) :
    ∃ closer₀ next₀ : Cursor, rawCloser name c = some (closer₀, next₀) ∧
      closer = closer₀.extend more ∧ next = next₀.extend more := by
  obtain ⟨k, n, hkn, hn, rfl, rfl, hkeeps⟩ := rawCloser_places h
  have hwhole := hc.length_eq
  rw [Cursor.chars_skip hn] at hend
  have hlength : n ≤ c.rest.length := by
    have hend' : c.chars + n ≤ text.length := hend
    omega
  exact ⟨c.skip k, c.skip n, hkeeps (Cursor.cut_extend more c) hlength,
    Cursor.skip_extend (Nat.le_trans hkn hlength), Cursor.skip_extend hlength⟩

/-- **A step that ends in front of the addition is made in the text.** -/
theorem Step.cut (h : Step isRaw (w.extend more) w') (hw : w.Along text)
    (hend : w'.here.chars ≤ text.length) :
    ∃ w₀, Step isRaw w w₀ ∧ w' = w₀.extend more := by
  cases h with
  | @single mark m hmeets hrole =>
      obtain ⟨mark₀, hmeets₀, rfl, hnext⟩ := hmeets.cut hw hend
      obtain ⟨hmark, hbody, -⟩ := hw.here.marker hmeets₀.seek hmeets₀.read
      refine ⟨_, .single hmeets₀ hrole, ?_⟩
      rw [hnext, OpenTag.ofMarker_extend (Marker.length_read_le hmeets₀.read)]
      have hrecord := Found.record_extend w.opened (.ofMarker m mark₀) none (mark₀.skip m.length)
        hw.upTo hmark hbody nofun more
      exact congrArg (Walk.mk _ _) hrecord
  | @raw mark closer next m hmeets hrole hisRaw hclose =>
      -- the tag ends in front of the addition, so its opening marker does
      have hwhole : (w.here.extend more).On (text ++ more) := hw.here.extend
      obtain ⟨-, hbody, -⟩ := hwhole.marker hmeets.seek hmeets.read
      have hle := (hbody.rawCloser hclose).2.2
      obtain ⟨mark₀, hmeets₀, rfl, hnext⟩ := hmeets.cut hw (Nat.le_trans hle hend)
      obtain ⟨hmark₀, hbody₀, -⟩ := hw.here.marker hmeets₀.seek hmeets₀.read
      rw [hnext] at hclose
      obtain ⟨closer₀, next₀, hclose₀, rfl, rfl⟩ := rawCloser_of_extend hbody₀ hclose hend
      obtain ⟨hcloser₀, -⟩ := hbody₀.rawCloser hclose₀
      refine ⟨_, .raw hmeets₀ hrole hisRaw hclose₀, ?_⟩
      rw [OpenTag.ofMarker_extend (Marker.length_read_le hmeets₀.read)]
      have hcloser : ∀ c ∈ some closer₀, c.On text := by
        rintro _ ⟨⟩
        exact hcloser₀
      have hrecord := Found.record_extend w.opened (.ofMarker m mark₀) (some closer₀) next₀ hw.upTo
        hmark₀ hbody₀ hcloser more
      exact congrArg (Walk.mk _ _) hrecord
  | @opening mark m hmeets hrole hisRaw =>
      obtain ⟨mark₀, hmeets₀, rfl, hnext⟩ := hmeets.cut hw hend
      refine ⟨_, .opening hmeets₀ hrole hisRaw, ?_⟩
      rw [hnext, OpenTag.ofMarker_extend (Marker.length_read_le hmeets₀.read)]
      rfl
  | @closing mark m innermost outer hmeets hrole hopened hsame =>
      obtain ⟨mark₀, hmeets₀, rfl, hnext⟩ := hmeets.cut hw hend
      obtain ⟨hmark, -⟩ := hw.here.marker hmeets₀.seek hmeets₀.read
      obtain ⟨innermost₀, outer₀, hopened₀, rfl, rfl⟩ := List.map_eq_cons_iff.1 hopened
      obtain ⟨hstart, hbody⟩ := hw.opened innermost₀ (hopened₀ ▸ List.mem_cons_self)
      refine ⟨_, .closing hmeets₀ hrole hopened₀ hsame, ?_⟩
      rw [hnext]
      have hcloser : ∀ c ∈ some mark₀, c.On text := by
        rintro _ ⟨⟩
        exact hmark
      have hrecord := Found.record_extend outer₀ innermost₀ (some mark₀) (mark₀.skip m.length)
        hw.upTo hstart hbody hcloser more
      exact congrArg (Walk.mk _ _) hrecord

/-! ## §5. Whole walks. -/

/-- **A walk is made in the longer text**, if the raw tags that it meets end where they did. -/
theorem Reaches.extend (h : Reaches isRaw (start text) w)
    (hraw : ∀ w, Reaches isRaw (start text) w → w.KeepsRaw isRaw more) :
    Reaches isRaw (start (text ++ more)) (w.extend more) := by
  rw [← extend_start]
  induction h with
  | refl => exact .refl
  | tail hreach hstep ih => exact ih.tail (hstep.extend (Reaches.along hreach) (hraw _ hreach))

/-- **A walk in the longer text that ends in front of the addition is made in the text.** -/
theorem Reaches.cut (h : Reaches isRaw (start (text ++ more)) w)
    (hend : w.here.chars ≤ text.length) :
    ∃ w₀, Reaches isRaw (start text) w₀ ∧ w = w₀.extend more := by
  induction h with
  | refl => exact ⟨start text, .refl, (extend_start text more).symm⟩
  | tail hreach hstep ih =>
      have hle := (hstep.along (Reaches.along hreach)).2
      obtain ⟨w₀, hreach₀, rfl⟩ := ih (Nat.le_trans hle hend)
      obtain ⟨w₁, hstep₁, rfl⟩ := hstep.cut hreach₀.along hend
      exact ⟨w₁, hreach₀.tail hstep₁, rfl⟩

end Walk

end TagExpander.Markup
