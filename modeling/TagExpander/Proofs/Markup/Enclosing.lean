/-
  TagExpander.Proofs.Markup.Enclosing — a text with a marker in front and one behind.

  A text that scans may be put between an opening marker and the closing marker of its name:
  the walk over the text is made behind the opening marker, with one more tag open further
  out, and it comes to the closing marker.  What the marker in front is decides what the one
  behind is to the walk:

      <?# A ?>  text  <?#/ A ?>       the end of the tag
      <?# A /?> text  <?#/ A ?>       stray

  The marker behind must not change how the text is read.  What follows a text can do so in
  one place only, in the content of a raw tag, where a `<?#` that reads as no marker is
  passed over: if its end was missing, text behind may bring it.  A marker without quotation
  marks does not, since it starts with `<?#`, which is no end outside quotes, and closes no
  quoted value.

  Main results:
    * `Marker.read_append_plain`, `rawCloser_extend` — markers and raw tags with such a marker
      behind the text.
    * `Walk.Behind.step` — a step with a text in front, and tags open further out.
    * `scan_between`, `scan_between_single` — the text between two markers.
-/
import TagExpander.Proofs.Markup.Locality

namespace TagExpander.Markup

open Argument (isQuote)

/-! ## §1. A marker without quotation marks behind a text. -/

/-- The text starts with `<?#`, and no quotation mark is in it. -/
structure PlainStart (more : List Char) : Prop where
  starts : startsMarker more = true
  quotes : ∀ c ∈ more, isQuote c = false

/-- The value that is open, if one is, has been opened by a quotation mark. -/
def Quoting.Marked : Quoting → Prop
  | .outside _ => True
  | .inside mark | .escaped mark => isQuote mark = true

theorem Quoting.Marked.next {q : Quoting} (hq : q.Marked) (c : Char) : (q.next c).Marked := by
  cases q with
  | outside previous =>
      rw [Quoting.next]
      split
      next hopen => exact (Bool.and_eq_true_iff.1 hopen).1
      next => exact trivial
  | inside mark =>
      rw [Quoting.next]
      split
      · exact hq
      · split
        · exact trivial
        · exact hq
  | escaped mark => exact hq

/-- A character that ends a run of characters is still there behind the run. -/
theorem mem_dropWhile {p : Char → Bool} {x : Char} {xs : List Char} (hx : x ∈ xs)
    (hp : p x = false) : x ∈ xs.dropWhile p := by
  rw [← List.takeWhile_append_dropWhile (p := p) (l := xs), List.mem_append] at hx
  rcases hx with hrun | hrest
  · have hrun := List.all_eq_true.1 List.all_takeWhile x hrun
    cases hp.symm.trans hrun
  · exact hrest

/-- Without quotation marks a value that is open stays open. -/
theorem terminatorFrom_of_quoted {q : Quoting} (hq : q.Marked) (hopen : q.isOutside = false)
    {cs : List Char} (hquotes : ∀ c ∈ cs, isQuote c = false) (n : Nat) :
    terminatorFrom q n cs = none := by
  induction cs generalizing q n with
  | nil => rfl
  | cons c cs ih =>
      rw [List.forall_mem_cons] at hquotes
      have hnext : (q.next c).isOutside = false := by
        cases q with
        | outside => cases hopen
        | escaped mark => rfl
        | inside mark =>
            -- the character is not the mark
            have hne : (c == mark) = false := by
              rw [beq_eq_false_iff_ne]
              rintro rfl
              cases hquotes.1.symm.trans hq
            rw [Quoting.next, hne, if_neg Bool.false_ne_true]
            split <;> rfl
      rw [terminatorFrom, hopen, Bool.false_and, Bool.false_and, if_neg Bool.false_ne_true,
        if_neg Bool.false_ne_true, ih (hq.next c) hnext hquotes.2]

section Plain

variable {more : List Char} (hmore : PlainStart more)
include hmore

/-- At the seam neither a marker nor the end of one comes into being. -/
theorem PlainStart.starts_append (c : Char) (cs : List Char) :
    startsMarker (c :: (cs ++ more)) = startsMarker (c :: cs) := by
  obtain ⟨tail, htail⟩ := startsMarker_iff.1 hmore.starts
  refine Bool.eq_iff_iff.2 ⟨fun h => ?_, fun h => startsMarker_append more h⟩
  rw [← htail] at h
  exact startsMarker_iff.2 (prefix_of_prefix_append (by decide) (startsMarker_iff.1 h))

theorem PlainStart.ends_append (c : Char) (cs : List Char) :
    endsMarker (c :: (cs ++ more)) = endsMarker (c :: cs) := by
  obtain ⟨tail, htail⟩ := startsMarker_iff.1 hmore.starts
  refine Bool.eq_iff_iff.2 ⟨fun h => ?_, fun h => endsMarker_append more h⟩
  rw [← htail] at h
  exact endsMarker_iff.2 (prefix_of_prefix_append (by decide) (endsMarker_iff.1 h))

/-- **The search for the end of a marker does not go on behind the text.** -/
theorem terminatorFrom_append_plain {q : Quoting} (hq : q.Marked) (cs : List Char) (n : Nat) :
    terminatorFrom q n (cs ++ more) = terminatorFrom q n cs := by
  induction cs generalizing q n with
  | nil =>
      show terminatorFrom q n more = none
      cases hopen : q.isOutside with
      | false => exact terminatorFrom_of_quoted hq hopen hmore.quotes n
      | true =>
          -- outside quotes, another marker comes first
          obtain ⟨tail, rfl⟩ := startsMarker_iff.1 hmore.starts
          rw [markerStart, List.cons_append, terminatorFrom, hopen]
          rfl
  | cons c cs ih =>
      rw [List.cons_append, terminatorFrom, terminatorFrom, hmore.starts_append,
        hmore.ends_append, ih (hq.next c)]

theorem terminator_append_plain (cs : List Char) : terminator (cs ++ more) = terminator cs :=
  terminatorFrom_append_plain hmore (q := .outside ' ') trivial cs 0

namespace Marker

/-- If a question mark follows, the name of a marker is not at the end of the text, and the
    marker reads the same with more text behind, or it does not read in either. -/
theorem readNamed_append_plain {closing : Bool} {before : Nat} {cs : List Char} (h : '?' ∈ cs) :
    readNamed closing before (cs ++ more) = readNamed closing before cs := by
  have hrest : (Text.trimLeft cs).dropWhile isNameChar ≠ [] :=
    List.ne_nil_of_mem (mem_dropWhile (mem_dropWhile h rfl) rfl)
  obtain ⟨hblanks, hname, hbody⟩ := parts_append more hrest
  have hend := terminator_append_plain hmore ((Text.trimLeft cs).dropWhile isNameChar)
  unfold readNamed
  cases hfound : terminator ((Text.trimLeft cs).dropWhile isNameChar) with
  | none =>
      rw [hfound] at hend
      simp only [hname, hbody, hend, hfound]
  | some n =>
      have htake : ((Text.trimLeft cs).dropWhile isNameChar ++ more).take n =
          ((Text.trimLeft cs).dropWhile isNameChar).take n :=
        List.take_append_of_le_length (Nat.le_of_add_right_le (terminator_lt hfound))
      rw [hfound] at hend
      simp only [hblanks, hname, hbody, hend, hfound, htake]

theorem read_append_plain {cs : List Char} (h : '?' ∈ cs.drop 3) :
    read (cs ++ more) = read cs := by
  cases hdrop : cs.drop 3 with
  | nil =>
      rw [hdrop] at h
      cases h
  | cons c rest =>
      have hlength : 3 ≤ cs.length := by
        have := congrArg List.length hdrop
        rw [List.length_drop, List.length_cons] at this
        omega
      have hwhole : (cs ++ more).drop 3 = c :: (rest ++ more) := by
        rw [List.drop_append_of_le_length hlength, hdrop]
        rfl
      rw [read_of_drop_eq_cons hdrop, read_of_drop_eq_cons hwhole]
      rw [hdrop] at h
      split
      next hc =>
        have hrest : '?' ∈ rest := by
          rcases List.mem_cons.1 h with heq | hrest
          · cases heq.trans hc
          · exact hrest
        exact readNamed_append_plain hmore hrest
      next =>
        rw [← List.cons_append]
        exact readNamed_append_plain hmore h

end Marker

/-- **A raw tag ends where it did**, with a marker behind the text that has no quotation marks. -/
theorem rawCloser_extend {name : String} {here closer next : Cursor}
    (h : rawCloser name here = some (closer, next)) :
    rawCloser name (here.extend more) = some (closer.extend more, next.extend more) := by
  fun_induction rawCloser name here with
  | case1 => cases h
  | case2 here mark hs fault hm ih =>
      -- the closing marker is further on, and a question mark is in it
      have hmem : '?' ∈ mark.rest.drop 3 := by
        obtain ⟨n, closing, hcloses, -⟩ := closerAt?_of_rawCloser h
        obtain ⟨tail, htail⟩ := startsMarker_iff.1 (closerAt?_eq_some.1 hcloses).1
        have hstart : '?' ∈ (mark.skip 3).rest.drop n := by
          rw [← htail]
          exact List.mem_append_left _ (by decide)
        exact List.drop_subset n _ hstart
      have hread : Marker.read (mark.extend more).rest = .error fault :=
        (Marker.read_append_plain hmore hmem).trans hm
      have hlength : 3 ≤ mark.rest.length :=
        (startsMarker_iff.1 (Cursor.startsMarker_of_seek hs)).length_le
      rw [rawCloser_of_error (Cursor.seek_extend hs) hread, Cursor.skip_extend hlength, ih h]
  | case3 here mark hs m hm hclose =>
      cases h
      have hread : Marker.read (closer.extend more).rest = .ok m := (Marker.read_cut.1 hm).1
      rw [rawCloser_of_read (Cursor.seek_extend hs) hread, if_pos hclose,
        Cursor.skip_extend (Marker.length_read_le hm)]
  | case4 here mark hs m hm hother ih =>
      have hread : Marker.read (mark.extend more).rest = .ok m := (Marker.read_cut.1 hm).1
      rw [rawCloser_of_read (Cursor.seek_extend hs) hread, if_neg hother,
        Cursor.skip_extend (Marker.length_read_le hm), ih h]

end Plain

namespace Walk

variable {isRaw : String → Bool} {front : List Char} {outer : List OpenTag} {v v' u : Walk}
  {mark : Cursor} {m : Marker}

/-! ## §2. The walk with a text in front. -/

/-- The walk `u`, with a text in front, stands where the walk `v` does; there, the tags of
    `outer` are open further out. -/
structure Behind (front : List Char) (outer : List OpenTag) (v u : Walk) : Prop where
  here : u.here = v.here.shift front
  opened : u.opened = v.opened.map (OpenTag.shift front) ++ outer

namespace Behind

theorem meets (h : Behind front outer v u) (hmeets : v.Meets mark m) :
    u.Meets (mark.shift front) m where
  seek := by rw [h.here, Cursor.seek_shift, hmeets.seek, Option.map_some]
  read := hmeets.read

/-- **A step is made with a text in front.**  While a tag is open further out, nothing is
    recorded. -/
theorem step (h : Behind front outer v u) (hstep : Step isRaw v v') :
    ∃ u', Step isRaw u u' ∧ Behind front outer v' u' ∧ (outer ≠ [] → u'.found = u.found) := by
  have hrecord {opened : List OpenTag} (t : OpenTag) (closer : Option Cursor) (next : Cursor)
      (hne : opened ≠ []) : u.found.record opened t closer next = u.found := by
    rw [Found.record, if_neg (by rwa [List.isEmpty_iff])]
  have hopened : outer ≠ [] → u.opened ≠ [] := by
    rw [h.opened]
    exact List.append_ne_nil_of_right_ne_nil _
  cases hstep with
  | single hmeets hrole =>
      refine ⟨_, .single (h.meets hmeets) hrole, ⟨Cursor.skip_shift _ _ _, h.opened⟩, ?_⟩
      exact fun hne => hrecord _ _ _ (hopened hne)
  | @raw mark closer next m hmeets hrole hraw hclose =>
      have hclose' : rawCloser m.name ((mark.shift front).skip m.length) =
          some (closer.shift front, next.shift front) := by
        rw [Cursor.skip_shift, rawCloser_shift, hclose]
        rfl
      refine ⟨_, .raw (h.meets hmeets) hrole hraw hclose', ⟨rfl, h.opened⟩, ?_⟩
      exact fun hne => hrecord _ _ _ (hopened hne)
  | opening hmeets hrole hraw =>
      refine ⟨_, .opening (h.meets hmeets) hrole hraw, ⟨Cursor.skip_shift _ _ _, ?_⟩,
        fun _ => rfl⟩
      rw [OpenTag.ofMarker_shift, h.opened]
      rfl
  | @closing mark m innermost inner hmeets hrole hinnermost hsame =>
      have hopened' : u.opened =
          innermost.shift front :: (inner.map (OpenTag.shift front) ++ outer) := by
        rw [h.opened, hinnermost]
        rfl
      refine ⟨_, .closing (h.meets hmeets) hrole hopened' hsame, ⟨Cursor.skip_shift _ _ _, rfl⟩,
        fun hne => ?_⟩
      exact hrecord _ _ _ (List.append_ne_nil_of_right_ne_nil _ hne)

/-- So is a whole walk. -/
theorem reaches (h : Behind front outer v u) (hreach : Reaches isRaw v v') :
    ∃ u', Reaches isRaw u u' ∧ Behind front outer v' u' ∧ (outer ≠ [] → u'.found = u.found) := by
  induction hreach with
  | refl => exact ⟨u, .refl, h, fun _ => rfl⟩
  | tail _ hstep ih =>
      obtain ⟨u₁, hreach₁, h₁, hfound₁⟩ := ih
      obtain ⟨u₂, hstep₂, h₂, hfound₂⟩ := h₁.step hstep
      exact ⟨u₂, hreach₁.tail hstep₂, h₂, fun hne => (hfound₂ hne).trans (hfound₁ hne)⟩

end Behind

end Walk

/-! ## §3. A text between two markers. -/

/-- The text is the marker, and nothing more. -/
structure Marker.Spells (m : Marker) (text : List Char) : Prop where
  starts : startsMarker text = true
  read : Marker.read text = .ok m
  length : m.length = text.length

/-- Behind all of a text. -/
theorem Cursor.skip_start_length (text : List Char) :
    (start text).skip text.length =
      ⟨text.length, Text.bytes text, Text.newlines text, []⟩ := by
  unfold skip start
  rw [List.take_length, List.drop_length]
  simp only [Nat.zero_add]

section Between

variable {isRaw : String → Bool} {opening inner closing : List Char} {m c : Marker}
  {spans : List Span}

/-- A marker at the start of a text is met first. -/
theorem Marker.Spells.meets (h : m.Spells opening) (more : List Char) :
    (Walk.start (opening ++ more)).Meets (.start (opening ++ more)) m where
  seek := Cursor.seek_of_startsMarker (startsMarker_append more h.starts)
  read := (Marker.read_cut.1 h.read).1

/-- Behind it, the text goes on with the marker in front. -/
theorem Marker.Spells.skip (h : m.Spells opening) (more : List Char) :
    (Cursor.start (opening ++ more)).skip m.length = (Cursor.start more).shift opening := by
  rw [h.length, Cursor.skip_start_append]

/-- **The walk over a text that scans comes to the marker behind it**, with no tag open. -/
theorem exists_meets_closing (hinner : scan isRaw (String.ofList inner) = .ok spans)
    (hc : c.Spells closing) (hquotes : ∀ x ∈ closing, isQuote x = false) :
    ∃ v, Walk.Reaches isRaw (.start (inner ++ closing)) v ∧ v.opened = [] ∧
      v.Meets ((Cursor.start closing).shift inner) c := by
  rw [← Walk.outcome_start, String.toList_ofList] at hinner
  obtain ⟨w, hreach, hdone, -⟩ := Walk.outcome_eq_ok_iff.1 hinner
  have hplain : PlainStart closing := ⟨hc.starts, hquotes⟩
  -- the marker starts behind the seam
  have hseam : ¬SplitMarker inner closing := by
    obtain ⟨tail, rfl⟩ := startsMarker_iff.1 hc.starts
    rintro (⟨-, behind, hbehind⟩ | ⟨-, behind, hbehind⟩) <;> cases hbehind
  have hfollows := hreach.follows hdone.seek hdone.opened hseam
  have hmeets := hc.meets []
  rw [List.append_nil] at hmeets
  refine ⟨w.extend closing, ?_, ?_, hfollows.meets hmeets⟩
  · exact hreach.extend fun w hw mark m _ _ _ closer next hclose =>
      rawCloser_extend hplain hclose
  · rw [hfollows.opened]
    rfl

/-- So does the walk with a text in front, once it has made the step over that text. -/
theorem exists_meets_behind (hinner : scan isRaw (String.ofList inner) = .ok spans)
    (hc : c.Spells closing) (hquotes : ∀ x ∈ closing, isQuote x = false) {w₀ w : Walk}
    (hstep : Walk.Step isRaw w₀ w)
    (hw : w.here = (Cursor.start (inner ++ closing)).shift opening) :
    ∃ u : Walk, w₀.outcome isRaw = u.outcome isRaw ∧ u.opened = w.opened ∧
      (w.opened ≠ [] → u.found = w.found) ∧
      u.Meets (((Cursor.start closing).shift inner).shift opening) c := by
  obtain ⟨v, hreach, hv, hmeets⟩ := exists_meets_closing hinner hc hquotes
  have hstart : Walk.Behind opening w.opened (.start (inner ++ closing)) w := ⟨hw, rfl⟩
  obtain ⟨u, hreach', hbehind, hfound⟩ := hstart.reaches hreach
  refine ⟨u, hstep.outcome_eq.trans hreach'.outcome_eq, ?_, hfound, hbehind.meets hmeets⟩
  rw [hbehind.opened, hv]
  rfl

section Sides

variable (hm : m.Spells opening) (hinner : scan isRaw (String.ofList inner) = .ok spans)
  (hc : c.Spells closing) (hclosing : c.role = .closing)
  (hquotes : ∀ x ∈ closing, isQuote x = false)
include hm hinner hc hclosing hquotes

/-- **Behind an opening marker the text is the content of a tag.** -/
theorem scan_between (hrole : m.role = .opening) (hraw : isRaw m.name = false)
    (hsame : Text.same m.name c.name = true) :
    scan isRaw (String.ofList (opening ++ (inner ++ closing))) =
      .ok [.tag
        { name := m.name
          arguments := .parse m.arguments
          content := String.ofList inner
          selfClosing := false
          start := 0
          stop := Text.bytes (opening ++ (inner ++ closing))
          line := 1 }] := by
  have hfirst := hm.meets (inner ++ closing)
  have hbody := hm.skip (inner ++ closing)
  obtain ⟨u, houtcome, hopened, hfound, hmeets⟩ :=
    exists_meets_behind hinner hc hquotes (.opening hfirst hrole hraw) hbody
  have hclose : Walk.Step isRaw u _ := .closing hmeets hclosing hopened hsame
  -- the text ends with the tag
  have hend : (((Cursor.start closing).shift inner).shift opening).skip c.length =
      ⟨(opening ++ (inner ++ closing)).length, Text.bytes (opening ++ (inner ++ closing)),
        Text.newlines (opening ++ (inner ++ closing)), []⟩ := by
    rw [hc.length, Cursor.skip_shift, Cursor.skip_shift, Cursor.skip_start_length]
    simp only [Cursor.shift, List.length_append, Text.bytes_append, Text.newlines_append]
  rw [hend] at hclose
  have hcontent : ((Cursor.start (inner ++ closing)).shift opening).upTo
      (((Cursor.start closing).shift inner).shift opening) = inner := by
    rw [Cursor.upTo_shift, ← Cursor.skip_start_append inner, Cursor.upTo_skip]
    exact List.take_left
  rw [← Walk.outcome_start, String.toList_ofList, houtcome, hclose.outcome_eq,
    Walk.Done.outcome_eq ⟨Cursor.seek_of_nil rfl, rfl⟩, hfound (List.cons_ne_nil _ _)]
  show Except.ok [Span.tag ⟨m.name, _,
    String.ofList (Cursor.upTo ((Cursor.start _).skip m.length) _), false, 0, _, 1⟩] = _
  rw [hbody, hcontent]
  rfl

/-- **Behind a self-closing marker the closing marker is stray.** -/
theorem scan_between_single (hrole : m.role = .selfClosing) :
    scan isRaw (String.ofList (opening ++ (inner ++ closing))) =
      .error ⟨c.name, Text.newlines (opening ++ inner) + 1, Text.bytes (opening ++ inner),
        .strayCloser⟩ := by
  have hfirst := hm.meets (inner ++ closing)
  obtain ⟨u, houtcome, hopened, -, hmeets⟩ :=
    exists_meets_behind hinner hc hquotes (.single hfirst hrole) (hm.skip _)
  have hstray : Walk.Fails isRaw u _ := .stray hmeets hclosing hopened
  rw [← Walk.outcome_start, String.toList_ofList, houtcome, hstray.outcome_eq,
    Text.newlines_append, Text.bytes_append]
  rfl

end Sides

end Between

end TagExpander.Markup
