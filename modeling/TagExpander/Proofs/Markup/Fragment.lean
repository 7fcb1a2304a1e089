/-
  TagExpander.Proofs.Markup.Fragment — the content of a tag as a text by itself.

  When the content of a tag is scanned by itself, the text behind it is cut off.  Every
  reader gives the same answer then, as long as what it reads ends in front of the cut:

      ‹here› … marker … ‹cut› more

  Main results:
    * `terminatorFrom_cut`, `Marker.read_cut` — a marker reads in a text that is cut off
      exactly if it reads in the whole text and ends in front of the cut.
    * `Derives.cut` — so does a content, to a content up to the same place.
    * `scan_content` — the content of every tag that is not raw scans by itself.
    * `content_infix` — the content of every tag is a part of the text, without gaps.
-/
import TagExpander.Proofs.Markup.Descent
import TagExpander.Proofs.Markup.Writing

namespace TagExpander.Markup

/-! ## §1. Markers in a text that is cut off. -/

/-- A pattern at the start of a text stays when more text follows. -/
theorem startsMarker_append {cs : List Char} (more : List Char) (h : startsMarker cs = true) :
    startsMarker (cs ++ more) = true :=
  startsMarker_iff.2 ((startsMarker_iff.1 h).trans (List.prefix_append cs more))

theorem endsMarker_append {cs : List Char} (more : List Char) (h : endsMarker cs = true) :
    endsMarker (cs ++ more) = true :=
  endsMarker_iff.2 ((endsMarker_iff.1 h).trans (List.prefix_append cs more))

/-- Whether a marker starts is decided by three characters. -/
theorem startsMarker_append_eq {cs : List Char} (more : List Char) (hlength : 3 ≤ cs.length) :
    startsMarker (cs ++ more) = startsMarker cs := by
  refine Bool.eq_iff_iff.2 ⟨fun h => startsMarker_iff.2 ?_, startsMarker_append more⟩
  exact List.prefix_of_prefix_length_le (startsMarker_iff.1 h) (List.prefix_append cs more) hlength

/-- Whether a marker ends is decided by two characters. -/
theorem endsMarker_append_eq {cs : List Char} (more : List Char) (hlength : 2 ≤ cs.length) :
    endsMarker (cs ++ more) = endsMarker cs := by
  refine Bool.eq_iff_iff.2 ⟨fun h => endsMarker_iff.2 ?_, endsMarker_append more⟩
  exact List.prefix_of_prefix_length_le (endsMarker_iff.1 h) (List.prefix_append cs more) hlength

/-- The end of a marker is found right here if it stands here, outside quotes. -/
theorem terminatorFrom_eq_some_self {q : Quoting} {n : Nat} {cs : List Char} :
    terminatorFrom q n cs = some n ↔ (q.isOutside && endsMarker cs) = true := by
  cases cs with
  | nil =>
      rw [show endsMarker [] = false from rfl, Bool.and_false]
      exact iff_of_false nofun Bool.false_ne_true
  | cons c cs =>
      rw [terminatorFrom]
      constructor
      · intro h
        split at h
        next hend => exact hend
        next =>
          split at h
          · cases h
          -- an end that is found later is no end right here
          · have hlater := (terminatorFrom_lt h).1
            omega
      · intro h
        rw [if_pos h]

/-- The end of a marker is found in a text that is cut off exactly if it is found in the
    whole text, in front of the cut. -/
theorem terminatorFrom_cut {q : Quoting} {n k : Nat} {cs more : List Char} :
    terminatorFrom q n cs = some k ↔
      terminatorFrom q n (cs ++ more) = some k ∧ k + 2 ≤ n + cs.length := by
  induction cs generalizing q n with
  | nil =>
      refine iff_of_false nofun fun h => ?_
      have hle := (terminatorFrom_lt h.1).1
      have hlt : k + 2 ≤ n := h.2
      omega
  | cons c cs ih =>
      by_cases hlength : 3 ≤ (c :: cs).length
      -- away from the cut it is not seen, neither here nor in what is left to read
      · have htail : k + 2 ≤ n + (c :: cs).length ↔ k + 2 ≤ n + 1 + cs.length := by
          rw [List.length_cons]
          omega
        rw [terminatorFrom, List.cons_append, terminatorFrom, ← List.cons_append,
          endsMarker_append_eq more (by omega), startsMarker_append_eq more hlength, htail]
        split
        · refine (and_iff_left_of_imp fun h => ?_).symm
          cases h
          rw [List.length_cons] at hlength
          omega
        · split
          · have hnone : none ≠ some k := (Option.some_ne_none k).symm
            exact iff_of_false hnone fun h => hnone h.1
          · exact ih
      -- next to the cut only an end right here lies in front of it
      · constructor
        · intro h
          obtain ⟨hle, hlt⟩ := terminatorFrom_lt h
          obtain rfl : n = k := by omega
          rw [terminatorFrom_eq_some_self, Bool.and_eq_true] at h
          rw [terminatorFrom_eq_some_self, h.1, endsMarker_append more h.2]
          exact ⟨rfl, hlt⟩
        · intro h
          obtain ⟨h, hlt⟩ := h
          have hle := (terminatorFrom_lt h).1
          obtain rfl : n = k := by omega
          rw [terminatorFrom_eq_some_self, endsMarker_append_eq more (by omega)] at h
          exact terminatorFrom_eq_some_self.2 h

/-! ## §2. Reading a marker in a text that is cut off. -/

namespace Marker

/-- A marker takes up what stands in front of its name, the blanks there, the name, and
    the rest up to its end. -/
theorem length_of_readNamed {closing : Bool} {before : Nat} {cs : List Char} {m : Marker}
    (h : readNamed closing before cs = .ok m) :
    ∃ n, terminator ((Text.trimLeft cs).dropWhile isNameChar) = some n ∧
      m.length = before + (cs.takeWhile Text.isBlank).length +
        ((Text.trimLeft cs).takeWhile isNameChar).length + n + 2 := by
  unfold readNamed at h
  simp only at h
  split at h
  · cases h
  · split at h
    · cases h
    next n hn =>
      refine ⟨n, hn, ?_⟩
      split at h
      · split at h
        · cases h; rfl
        · cases h
      · cases h; rfl

/-- The blanks in front of a name, the name and the rest make up the text. -/
theorem length_parts (cs : List Char) :
    cs.length = (cs.takeWhile Text.isBlank).length +
      ((Text.trimLeft cs).takeWhile isNameChar).length +
      ((Text.trimLeft cs).dropWhile isNameChar).length := by
  have hblanks := congrArg List.length (Text.trimLeft_append cs)
  have hname := congrArg List.length
    (List.takeWhile_append_dropWhile (p := isNameChar) (l := Text.trimLeft cs))
  rw [List.length_append] at hblanks hname
  omega

theorem length_readNamed_le {closing : Bool} {before : Nat} {cs : List Char} {m : Marker}
    (h : readNamed closing before cs = .ok m) : m.length ≤ before + cs.length := by
  obtain ⟨n, hn, hlength⟩ := length_of_readNamed h
  have hparts := length_parts cs
  have hend := terminator_lt hn
  omega

/-- A run of characters that ends in a text does not grow by text behind. -/
theorem takeWhile_append_of_dropWhile {p : Char → Bool} {xs : List Char} (ys : List Char)
    (h : xs.dropWhile p ≠ []) :
    (xs ++ ys).takeWhile p = xs.takeWhile p ∧ (xs ++ ys).dropWhile p = xs.dropWhile p ++ ys := by
  have hrun : (xs.takeWhile p).length ≠ xs.length := by
    intro heq
    have happend := congrArg List.length (List.takeWhile_append_dropWhile (p := p) (l := xs))
    rw [List.length_append, heq, Nat.add_eq_left] at happend
    exact h (List.length_eq_zero_iff.1 happend)
  rw [List.takeWhile_append, if_neg hrun, List.dropWhile_append, if_neg (by simpa using h)]
  exact ⟨rfl, rfl⟩

/-- A run of characters up to the end of a text may grow by text behind. -/
theorem length_le_takeWhile_append {p : Char → Bool} {xs : List Char} (ys : List Char)
    (h : xs.dropWhile p = []) : xs.length ≤ ((xs ++ ys).takeWhile p).length := by
  have happend := List.takeWhile_append_dropWhile (p := p) (l := xs)
  rw [h, List.append_nil] at happend
  rw [List.takeWhile_append, if_pos (congrArg List.length happend), List.length_append]
  exact Nat.le_add_right _ _

/-- A marker with its name beyond the cut does not end in front of it. -/
theorem length_lt_of_readNamed_append {closing : Bool} {before : Nat} {cs more : List Char}
    {m : Marker} (hrest : (Text.trimLeft cs).dropWhile isNameChar = [])
    (h : readNamed closing before (cs ++ more) = .ok m) : before + cs.length < m.length := by
  obtain ⟨n, -, hlength⟩ := length_of_readNamed h
  have hparts := length_parts cs
  rw [hrest, List.length_nil] at hparts
  by_cases htrim : Text.trimLeft cs = []
  · have hblanks := length_le_takeWhile_append more htrim
    omega
  · obtain ⟨hblanks, hnamed⟩ := takeWhile_append_of_dropWhile more htrim
    have htrimmed : Text.trimLeft (cs ++ more) = Text.trimLeft cs ++ more := hnamed
    have hname := length_le_takeWhile_append more hrest
    have hshort := (List.takeWhile_sublist isNameChar (l := Text.trimLeft cs)).length_le
    rw [hblanks, htrimmed] at hlength
    omega

/-- If a name ends in front of the cut, all that stands in front of its end is the same. -/
theorem parts_append {cs : List Char} (more : List Char)
    (hrest : (Text.trimLeft cs).dropWhile isNameChar ≠ []) :
    (cs ++ more).takeWhile Text.isBlank = cs.takeWhile Text.isBlank ∧
      (Text.trimLeft (cs ++ more)).takeWhile isNameChar =
        (Text.trimLeft cs).takeWhile isNameChar ∧
      (Text.trimLeft (cs ++ more)).dropWhile isNameChar =
        (Text.trimLeft cs).dropWhile isNameChar ++ more := by
  have htrim : Text.trimLeft cs ≠ [] := by
    intro h
    rw [h] at hrest
    exact hrest rfl
  obtain ⟨hblanks, hnamed⟩ := takeWhile_append_of_dropWhile more htrim
  have htrimmed : Text.trimLeft (cs ++ more) = Text.trimLeft cs ++ more := hnamed
  obtain ⟨hname, hbody⟩ := takeWhile_append_of_dropWhile more hrest
  rw [htrimmed]
  exact ⟨hblanks, hname, hbody⟩

theorem readNamed_cut {closing : Bool} {before : Nat} {cs more : List Char} {m : Marker} :
    readNamed closing before cs = .ok m ↔
      readNamed closing before (cs ++ more) = .ok m ∧ m.length ≤ before + cs.length := by
  by_cases hrest : (Text.trimLeft cs).dropWhile isNameChar = []
  · refine iff_of_false ?_ ?_
    · intro h
      obtain ⟨n, hn, -⟩ := length_of_readNamed h
      rw [hrest] at hn
      cases hn
    · intro h
      exact Nat.not_lt.2 h.2 (length_lt_of_readNamed_append hrest h.1)
  -- the name ends in front of the cut, so only the end of the marker can lie beyond it
  · obtain ⟨hblanks, hname, hbody⟩ := parts_append more hrest
    cases hend : terminator ((Text.trimLeft cs).dropWhile isNameChar) with
    | none =>
        refine iff_of_false ?_ ?_
        · intro h
          obtain ⟨n, hn, -⟩ := length_of_readNamed h
          cases hend.symm.trans hn
        · intro h
          obtain ⟨n, hn, hlength⟩ := length_of_readNamed h.1
          rw [hbody] at hn
          rw [hblanks, hname] at hlength
          have hparts := length_parts cs
          have hbound := h.2
          have hcut := terminatorFrom_cut.2 ⟨hn, by omega⟩
          cases hend.symm.trans hcut
    | some n =>
        have hwhole : terminator ((Text.trimLeft cs).dropWhile isNameChar ++ more) = some n :=
          (terminatorFrom_cut.1 hend).1
        have htake : ((Text.trimLeft cs).dropWhile isNameChar ++ more).take n =
            ((Text.trimLeft cs).dropWhile isNameChar).take n :=
          List.take_append_of_le_length (Nat.le_of_add_right_le (terminator_lt hend))
        have heq : readNamed closing before (cs ++ more) = readNamed closing before cs := by
          unfold readNamed
          simp only [hblanks, hname, hbody, hend, hwhole, htake]
        rw [heq]
        exact (and_iff_left_of_imp length_readNamed_le).symm

/-- A marker is closing, with its name behind the slash, or else its name comes first. -/
theorem read_of_drop_eq_cons {cs rest : List Char} {c : Char} (h : cs.drop 3 = c :: rest) :
    read cs = if c = '/' then readNamed true 4 rest else readNamed false 3 (c :: rest) := by
  unfold read
  rw [h]
  split
  next heq => cases heq; rfl
  next hne =>
    rw [if_neg]
    rintro rfl
    exact hne rest rfl

/-- A marker reads in a text that is cut off exactly if it reads in the whole text and ends
    in front of the cut. -/
theorem read_cut {cs more : List Char} {m : Marker} :
    read cs = .ok m ↔ read (cs ++ more) = .ok m ∧ m.length ≤ cs.length := by
  cases hdrop : cs.drop 3 with
  | nil =>
      have hlength : cs.length ≤ 3 := List.drop_eq_nil_iff.1 hdrop
      refine iff_of_false ?_ ?_
      · intro h
        unfold read at h
        rw [hdrop] at h
        cases h
      · intro h
        have hthree := three_lt_length h.1
        have hbound := h.2
        omega
  | cons c rest =>
      have hlength : cs.length = 3 + (rest.length + 1) := by
        have := congrArg List.length hdrop
        rw [List.length_drop, List.length_cons] at this
        omega
      have hwhole : (cs ++ more).drop 3 = c :: (rest ++ more) := by
        rw [List.drop_append_of_le_length (by omega), hdrop]
        rfl
      rw [read_of_drop_eq_cons hdrop, read_of_drop_eq_cons hwhole, hlength]
      split
      · rw [@readNamed_cut true 4 rest more m]
        exact and_congr_right fun _ => by omega
      · exact readNamed_cut

/-- A marker lies inside the text it is read from. -/
theorem length_read_le {cs : List Char} {m : Marker} (h : read cs = .ok m) :
    m.length ≤ cs.length :=
  ((@read_cut cs [] m).1 h).2

end Marker

/-! ## §3. Places in a text that is cut off. -/

/-- Two places are the same but for the end of the text, which is cut off at the second. -/
def Cut (more : List Char) (here cut : Cursor) : Prop :=
  here.rest = cut.rest ++ more

namespace Cut

variable {more : List Char} {here cut : Cursor}

/-- The same move is made in both texts. -/
theorem skip (h : Cut more here cut) {k : Nat} (hk : k ≤ cut.rest.length) :
    Cut more (here.skip k) (cut.skip k) := by
  unfold Cut
  rw [Cursor.rest_skip, Cursor.rest_skip, h, List.drop_append_of_le_length hk]

/-- No marker starts in a text that is cut off where none starts in the whole text. -/
theorem startsMarker_eq_false (h : Cut more here cut) {j : Nat}
    (hj : startsMarker (here.rest.drop j) = false) : startsMarker (cut.rest.drop j) = false := by
  rw [Bool.eq_false_iff]
  intro hstarts
  rcases Nat.le_total j cut.rest.length with hle | hge
  · rw [h, List.drop_append_of_le_length hle, startsMarker_append more hstarts] at hj
    cases hj
  · rw [List.drop_eq_nil_of_le hge] at hstarts
    cases hstarts

/-- A marker starts at the same place, if its start lies in front of the cut. -/
theorem startsMarker (h : Cut more here cut) {k : Nat}
    (hk : Markup.startsMarker (here.rest.drop k) = true) (hlength : k + 3 ≤ cut.rest.length) :
    Markup.startsMarker (cut.rest.drop k) = true := by
  rw [h, List.drop_append_of_le_length (by omega),
    startsMarker_append_eq more (by rw [List.length_drop]; omega)] at hk
  exact hk

/-- The next marker is the same, if it starts in front of the cut. -/
theorem seek (h : Cut more here cut) {k : Nat}
    (hk : Markup.startsMarker (here.rest.drop k) = true)
    (hfirst : ∀ j < k, Markup.startsMarker (here.rest.drop j) = false)
    (hlength : k + 3 ≤ cut.rest.length) : cut.seek = some (cut.skip k) :=
  Cursor.seek_eq_some_iff.2 ⟨k, rfl, h.startsMarker hk hlength,
    fun j hj => h.startsMarker_eq_false (hfirst j hj)⟩

/-- The same marker is read, if it ends in front of the cut. -/
theorem read (h : Cut more here cut) {m : Marker} (hm : Marker.read here.rest = .ok m)
    (hlength : m.length ≤ cut.rest.length) : Marker.read cut.rest = .ok m := by
  rw [h] at hm
  exact Marker.read_cut.2 ⟨hm, hlength⟩

/-- What is no marker does not become one. -/
theorem read_error (h : Cut more here cut) {fault : String × Fault}
    (hm : Marker.read here.rest = .error fault) : ∃ fault', Marker.read cut.rest = .error fault' := by
  cases hcut : Marker.read cut.rest with
  | error fault' => exact ⟨fault', rfl⟩
  | ok m =>
      have hwhole := (@Marker.read_cut cut.rest more m).1 hcut
      rw [← h, hm] at hwhole
      cases hwhole.1

/-- Literal text goes on up to the cut, or up to a marker in front of it. -/
theorem ahead (h : Cut more here cut) {n : Nat}
    (hfirst : ∀ j < n, Markup.startsMarker (here.rest.drop j) = false)
    (hn : n = cut.rest.length ∨ Markup.startsMarker (cut.rest.drop n) = true) :
    cut.ahead = cut.skip n := by
  have hfirstCut := fun j hj => h.startsMarker_eq_false (hfirst j hj)
  rcases hn with rfl | hstarts
  · refine Cursor.ahead_of_none (Cursor.seek_eq_none_iff.2 fun j => ?_)
    rcases Nat.lt_or_ge j cut.rest.length with hlt | hge
    · exact hfirstCut j hlt
    · rw [List.drop_eq_nil_of_le hge]
      rfl
  · exact Cursor.ahead_of_some (Cursor.seek_eq_some_iff.2 ⟨n, rfl, hstarts, hfirstCut⟩)

end Cut

/-- Literal text goes on to the next place at which a marker starts, or to the end. -/
theorem Cursor.ahead_eq_skip (here : Cursor) :
    ∃ n ≤ here.rest.length, here.ahead = here.skip n ∧
      ∀ j < n, startsMarker (here.rest.drop j) = false := by
  cases hs : here.seek with
  | none =>
      exact ⟨here.rest.length, Nat.le_refl _, ahead_of_none hs, fun j _ => seek_eq_none_iff.1 hs j⟩
  | some mark =>
      obtain ⟨k, rfl, hk, hfirst⟩ := seek_eq_some_iff.1 hs
      refine ⟨k, Nat.le_of_not_lt fun hlt => ?_, ahead_of_some hs, hfirst⟩
      rw [List.drop_eq_nil_of_le (Nat.le_of_lt hlt)] at hk
      cases hk

/-! ## §4. Raw tags and contents in a text that is cut off. -/

/-- The search for the end of a raw tag finds these places, and the same ones in a text
    that is cut off behind them. -/
def KeepsCloser (name : String) (here closer next : Cursor) : Prop :=
  ∃ k n, n ≤ here.rest.length ∧ closer = here.skip k ∧ next = here.skip n ∧
    ∀ {more : List Char} {cut : Cursor}, Cut more here cut → n ≤ cut.rest.length →
      rawCloser name cut = some (cut.skip k, cut.skip n)

/-- What is passed over in front of the end is passed over in both texts. -/
theorem KeepsCloser.of_skip {name : String} {here closer next : Cursor} {j : Nat}
    (hj : j ≤ here.rest.length) (h : KeepsCloser name (here.skip j) closer next)
    (hpass : ∀ {more : List Char} {cut : Cursor}, Cut more here cut → j ≤ cut.rest.length →
      rawCloser name cut = rawCloser name (cut.skip j)) :
    KeepsCloser name here closer next := by
  obtain ⟨k, n, hn, rfl, rfl, hkeeps⟩ := h
  rw [Cursor.rest_skip, List.length_drop] at hn
  refine ⟨j + k, j + n, by omega, Cursor.skip_skip _ _ _, Cursor.skip_skip _ _ _, ?_⟩
  intro more cut hcut hlength
  have hlengthJ : j ≤ cut.rest.length := Nat.le_of_add_right_le hlength
  rw [hpass hcut hlengthJ, hkeeps (hcut.skip hlengthJ), Cursor.skip_skip, Cursor.skip_skip]
  rw [Cursor.rest_skip, List.length_drop]
  omega

/-- Three characters are there where a marker starts. -/
theorem add_three_le_length {cs : List Char} {j : Nat} (h : startsMarker (cs.drop j) = true) :
    j + 3 ≤ cs.length := by
  have hthree : 3 ≤ (cs.drop j).length := (startsMarker_iff.1 h).length_le
  rw [List.length_drop] at hthree
  omega

/-- The next marker is the same in a text that is cut off behind it. -/
theorem keeps_marker {here mark : Cursor} {m : Marker} (hs : here.seek = some mark)
    (hm : Marker.read mark.rest = .ok m) :
    ∃ j, j + m.length ≤ here.rest.length ∧ mark = here.skip j ∧
      ∀ {more : List Char} {cut : Cursor}, Cut more here cut →
        j + m.length ≤ cut.rest.length →
        cut.seek = some (cut.skip j) ∧ Marker.read (cut.skip j).rest = .ok m := by
  obtain ⟨j, rfl, hj, hfirst⟩ := Cursor.seek_eq_some_iff.1 hs
  have hlength := Marker.length_read_le hm
  have hthree := Marker.three_lt_length hm
  have hstart := add_three_le_length hj
  rw [Cursor.rest_skip, List.length_drop] at hlength
  refine ⟨j, by omega, rfl, fun {more cut} hcut hbound => ?_⟩
  have hread := (hcut.skip (by omega)).read hm (by rw [Cursor.rest_skip, List.length_drop]; omega)
  exact ⟨hcut.seek hj hfirst (by omega), hread⟩

/-- The end of a raw tag is the same, if it lies in front of the cut. -/
theorem rawCloser_cut {name : String} {here closer next : Cursor}
    (h : rawCloser name here = some (closer, next)) : KeepsCloser name here closer next := by
  fun_induction rawCloser name here with
  | case1 => cases h
  | case2 here mark hs fault hm ih =>
      obtain ⟨j, rfl, hj, hfirst⟩ := Cursor.seek_eq_some_iff.1 hs
      rw [Cursor.skip_skip] at ih h
      refine (ih h).of_skip (add_three_le_length hj) fun {more cut} hcut hlength => ?_
      obtain ⟨fault', hm'⟩ := (hcut.skip (by omega)).read_error hm
      rw [rawCloser_of_error (hcut.seek hj hfirst hlength) hm', Cursor.skip_skip]
  | case3 here mark hs m hm hclose =>
      cases h
      obtain ⟨j, hlength, rfl, hkeeps⟩ := keeps_marker hs hm
      refine ⟨j, j + m.length, hlength, rfl, Cursor.skip_skip _ _ _, fun {more cut} hcut hbound => ?_⟩
      obtain ⟨hs', hm'⟩ := hkeeps hcut hbound
      rw [rawCloser_of_read hs' hm', if_pos hclose, Cursor.skip_skip]
  | case4 here mark hs m hm hother ih =>
      obtain ⟨j, hlength, rfl, hkeeps⟩ := keeps_marker hs hm
      rw [Cursor.skip_skip] at ih h
      refine (ih h).of_skip hlength fun {more cut} hcut hbound => ?_
      obtain ⟨hs', hm'⟩ := hkeeps hcut hbound
      rw [rawCloser_of_read hs' hm', if_neg hother, Cursor.skip_skip]

/-- A content that starts here stops at this place, and one does so in a text that is cut
    off there, or behind a marker there. -/
def KeepsContent (isRaw : String → Bool) (here stop : Cursor) : Prop :=
  ∃ n ≤ here.rest.length, stop = here.skip n ∧
    ∀ {more : List Char} {cut : Cursor}, Cut more here cut →
      n = cut.rest.length ∨ startsMarker (cut.rest.drop n) = true →
      ∃ content, Derives isRaw cut content (cut.skip n)

/-- The first tag of a content is there in both texts. -/
theorem KeepsContent.of_skip {isRaw : String → Bool} {here stop : Cursor} {j : Nat}
    (hj : j ≤ here.rest.length) (h : KeepsContent isRaw (here.skip j) stop)
    (htag : ∀ {more : List Char} {cut : Cursor}, Cut more here cut → j ≤ cut.rest.length →
      ∀ {rest : Content} {stop : Cursor}, Derives isRaw (cut.skip j) rest stop →
        ∃ content, Derives isRaw cut content stop) :
    KeepsContent isRaw here stop := by
  obtain ⟨n, hn, rfl, hkeeps⟩ := h
  rw [Cursor.rest_skip, List.length_drop] at hn
  refine ⟨j + n, by omega, Cursor.skip_skip _ _ _, ?_⟩
  intro more cut hcut hend
  have hlength : j + n ≤ cut.rest.length := by
    rcases hend with heq | hstarts
    · exact Nat.le_of_eq heq
    · exact Nat.le_of_add_right_le (add_three_le_length hstarts)
  have hlengthJ : j ≤ cut.rest.length := Nat.le_of_add_right_le hlength
  rw [← Cursor.skip_skip]
  obtain ⟨rest, hrest⟩ := hkeeps (hcut.skip hlengthJ) (by
    rw [Cursor.rest_skip, List.length_drop, List.drop_drop]
    exact hend.imp_left fun heq => by omega)
  exact htag hcut hlengthJ hrest

/-- The content of a paired tag is there in both texts, and so is its closing marker. -/
theorem KeepsContent.closed {isRaw : String → Bool} {here closer : Cursor} {name : String}
    {closing : Marker} (h : KeepsContent isRaw here closer) (hs : closer.seek = some closer)
    (hclose : ClosedBy name closer closing) :
    ∃ n, n + closing.length ≤ here.rest.length ∧ closer = here.skip n ∧
      ∀ {more : List Char} {cut : Cursor}, Cut more here cut →
        n + closing.length ≤ cut.rest.length →
        ∃ inner, Derives isRaw cut inner (cut.skip n) ∧ ClosedBy name (cut.skip n) closing := by
  obtain ⟨n, hn, rfl, hkeeps⟩ := h
  have hlength := Marker.length_read_le hclose.read
  have hthree := Marker.three_lt_length hclose.read
  have hstarts := Cursor.startsMarker_of_seek hs
  rw [Cursor.rest_skip, List.length_drop] at hlength
  refine ⟨n, by omega, rfl, fun {more cut} hcut hbound => ?_⟩
  -- the content stops in front of the closing marker in both texts
  obtain ⟨inner, hinner⟩ := hkeeps hcut (.inr (hcut.startsMarker hstarts (by omega)))
  have hread := (hcut.skip (by omega)).read hclose.read
    (by rw [Cursor.rest_skip, List.length_drop]; omega)
  exact ⟨inner, hinner, hread, hclose.role, hclose.same⟩

/-- **A content is a content in a text that is cut off behind it.** -/
theorem Derives.cut {isRaw : String → Bool} {here stop : Cursor} {c : Content}
    (h : Derives isRaw here c stop) : KeepsContent isRaw here stop := by
  induction h with
  | @text here =>
      obtain ⟨n, hn, hahead, hfirst⟩ := here.ahead_eq_skip
      refine ⟨n, hn, hahead, fun {more cut} hcut hend => ⟨.text (cut.upTo cut.ahead), ?_⟩⟩
      rw [← hcut.ahead hfirst hend]
      exact .text
  | @single here mark stop m rest hs hm hrole _ ih =>
      obtain ⟨j, hlength, rfl, hkeeps⟩ := keeps_marker hs hm
      rw [Cursor.skip_skip] at ih
      refine ih.of_skip hlength fun {more cut} hcut hbound {rest stop} hrest => ?_
      obtain ⟨hs', hm'⟩ := hkeeps hcut hbound
      rw [← Cursor.skip_skip] at hrest
      exact ⟨_, .single hs' hm' hrole hrest⟩
  | @raw here mark closer next stop m rest hs hm hrole hraw hclose _ ih =>
      obtain ⟨j, hlength, rfl, hkeeps⟩ := keeps_marker hs hm
      rw [Cursor.skip_skip] at hclose
      obtain ⟨k, n, hn, rfl, rfl, hkeepsCloser⟩ := rawCloser_cut hclose
      rw [Cursor.skip_skip] at ih
      rw [Cursor.rest_skip, List.length_drop] at hn
      refine ih.of_skip (by omega) fun {more cut} hcut hbound {rest stop} hrest => ?_
      obtain ⟨hs', hm'⟩ := hkeeps hcut (by omega)
      have hclose' := hkeepsCloser (hcut.skip (by omega))
        (by rw [Cursor.rest_skip, List.length_drop]; omega)
      simp only [← Cursor.skip_skip] at hclose' hrest
      exact ⟨_, .raw hs' hm' hrole hraw hclose' hrest⟩
  | @paired here mark closer stop m closing inner rest hs hm hrole hraw hinner hclose _
      ihInner ihRest =>
      have hcloser := hinner.seek_closer hclose
      obtain ⟨j, hlength, rfl, hkeeps⟩ := keeps_marker hs hm
      rw [Cursor.skip_skip] at ihInner
      obtain ⟨n, hn, rfl, hkeepsInner⟩ := ihInner.closed hcloser hclose
      rw [Cursor.skip_skip, Cursor.skip_skip] at ihRest
      rw [Cursor.rest_skip, List.length_drop] at hn
      refine ihRest.of_skip (by omega) fun {more cut} hcut hbound {rest stop} hrest => ?_
      obtain ⟨hs', hm'⟩ := hkeeps hcut (by omega)
      obtain ⟨inner', hinner', hclose'⟩ := hkeepsInner (hcut.skip (by omega))
        (by rw [Cursor.rest_skip, List.length_drop]; omega)
      simp only [← Cursor.skip_skip] at hinner' hclose' hrest
      exact ⟨_, .paired hs' hm' hrole hraw hinner' hclose' hrest⟩

/-! ## §5. The content of a tag. -/

/-- What lies in front of a place at which a content stops is a whole text with a
    derivation. -/
theorem Derives.text_upTo {isRaw : String → Bool} {here stop : Cursor} {c : Content}
    (h : Derives isRaw here c stop) :
    ∃ content, DerivesText isRaw (String.ofList (here.upTo stop)) content := by
  obtain ⟨n, hn, rfl, hkeeps⟩ := h.cut
  rw [Cursor.upTo_skip]
  have hlength : n = (here.rest.take n).length := (List.length_take_of_le hn).symm
  have hcut : Cut (here.rest.drop n) here (.start (here.rest.take n)) :=
    (List.take_append_drop n here.rest).symm
  obtain ⟨content, hcontent⟩ := hkeeps hcut (.inl hlength)
  refine ⟨content, (Cursor.start (here.rest.take n)).skip n, ?_, ?_⟩
  · rw [String.toList_ofList]
    exact hcontent
  · exact List.drop_eq_nil_of_le (Nat.le_of_eq hlength.symm)

theorem tag_not_mem_literalSpans (tag : Tag) (literal : List Char) :
    .tag tag ∉ literalSpans literal := by
  unfold literalSpans
  split
  · exact List.not_mem_nil
  · intro h
    cases List.mem_singleton.1 h

/-- The empty text scans to nothing. -/
theorem scan_empty (isRaw : String → Bool) : scan isRaw "" = .ok [] := by
  rw [scan, scanFrom]
  rfl

/-- The tags of a content are the first one and those of the rest. -/
theorem tag_mem_spans_iff {literal : List Char} {first tag : Tag} {rest : List Span} :
    .tag tag ∈ literalSpans literal ++ .tag first :: rest ↔ tag = first ∨ .tag tag ∈ rest := by
  rw [List.mem_append, List.mem_cons, Span.tag.injEq,
    or_iff_right (tag_not_mem_literalSpans tag literal)]

/-- The contents of the tags of a content at the top scan by themselves. -/
theorem Derives.scan_content {isRaw : String → Bool} {here stop : Cursor} {c : Content}
    (h : Derives isRaw here c stop) {tag : Tag} (htag : .tag tag ∈ c.spans)
    (hraw : isRaw tag.name = false) : ∃ spans, scan isRaw tag.content = .ok spans := by
  -- the first tag has no content, or an opaque one, or one that is cut off behind it
  induction h with
  | text => exact absurd htag (tag_not_mem_literalSpans tag _)
  | single _ _ _ _ ih =>
      rcases tag_mem_spans_iff.1 htag with rfl | hrest
      · exact ⟨[], scan_empty isRaw⟩
      · exact ih hrest
  | raw _ _ _ hisRaw _ _ ih =>
      rcases tag_mem_spans_iff.1 htag with rfl | hrest
      · cases hraw.symm.trans hisRaw
      · exact ih hrest
  | paired _ _ _ _ hinner _ _ _ ih =>
      rcases tag_mem_spans_iff.1 htag with rfl | hrest
      · obtain ⟨content, hcontent⟩ := hinner.text_upTo
        exact ⟨content.spans, scan_eq_ok_iff_derives.2 ⟨content, hcontent, rfl⟩⟩
      · exact ih hrest

/-- **The content of a tag scans by itself**, if its text scans and the tag is not raw. -/
theorem scan_content {isRaw : String → Bool} {text : String} {spans : List Span}
    (h : scan isRaw text = .ok spans) {tag : Tag} (htag : .tag tag ∈ spans)
    (hraw : isRaw tag.name = false) : ∃ inner, scan isRaw tag.content = .ok inner := by
  obtain ⟨content, ⟨stop, hcontent, -⟩, rfl⟩ := scan_eq_ok_iff_derives.1 h
  exact hcontent.scan_content htag hraw

/-! ## §6. Where the content of a tag stands. -/

theorem Cursor.rest_skip_suffix (c : Cursor) (n : Nat) : (c.skip n).rest <:+ c.rest :=
  List.drop_suffix n c.rest

/-- What follows the next marker is the end of what follows here. -/
theorem Cursor.rest_seek_suffix {here mark : Cursor} (h : here.seek = some mark) :
    mark.rest <:+ here.rest := by
  obtain ⟨k, rfl, -, -⟩ := Cursor.seek_eq_some_iff.1 h
  exact here.rest_skip_suffix k

theorem Derives.rest_suffix {isRaw : String → Bool} {here stop : Cursor} {c : Content}
    (h : Derives isRaw here c stop) : stop.rest <:+ here.rest := by
  obtain ⟨n, -, rfl, -⟩ := h.cut
  exact here.rest_skip_suffix n

/-- The text from one place to a later one is a part of what follows an earlier one. -/
theorem Cursor.upTo_infix {here start : Cursor} (h : start.rest <:+ here.rest) (stop : Cursor) :
    start.upTo stop <:+: here.rest :=
  (List.take_prefix _ start.rest).isInfix.trans h.isInfix

/-- The contents of the tags of a content at the top are parts of its text. -/
theorem Derives.content_infix {isRaw : String → Bool} {here stop : Cursor} {c : Content}
    (h : Derives isRaw here c stop) {tag : Tag} (htag : .tag tag ∈ c.spans) :
    tag.content.toList <:+: here.rest := by
  -- every tag stands behind the next marker, and its content in front of its closer
  induction h with
  | text => exact absurd htag (tag_not_mem_literalSpans tag _)
  | @single here mark stop m rest hs _ _ _ ih =>
      have hmark := (mark.rest_skip_suffix m.length).trans (Cursor.rest_seek_suffix hs)
      rcases tag_mem_spans_iff.1 htag with rfl | hrest
      · exact List.nil_infix
      · exact (ih hrest).trans hmark.isInfix
  | @raw here mark closer next stop m rest hs _ _ _ hclose _ ih =>
      have hmark := (mark.rest_skip_suffix m.length).trans (Cursor.rest_seek_suffix hs)
      rcases tag_mem_spans_iff.1 htag with rfl | hrest
      · rw [String.toList_ofList]
        exact Cursor.upTo_infix hmark closer
      · obtain ⟨k, n, -, -, rfl, -⟩ := rawCloser_cut hclose
        exact (ih hrest).trans ((Cursor.rest_skip_suffix _ n).trans hmark).isInfix
  | @paired here mark closer stop m closing inner rest hs _ _ _ hinner _ _ _ ih =>
      have hmark := (mark.rest_skip_suffix m.length).trans (Cursor.rest_seek_suffix hs)
      rcases tag_mem_spans_iff.1 htag with rfl | hrest
      · rw [String.toList_ofList]
        exact Cursor.upTo_infix hmark closer
      · have hcloser := (closer.rest_skip_suffix closing.length).trans hinner.rest_suffix
        exact (ih hrest).trans (hcloser.trans hmark).isInfix

/-- **The content of a tag is a part of the text that it was found in**, without gaps. -/
theorem content_infix {isRaw : String → Bool} {text : String} {spans : List Span}
    (h : scan isRaw text = .ok spans) {tag : Tag} (htag : .tag tag ∈ spans) :
    tag.content.toList <:+: text.toList := by
  obtain ⟨content, ⟨stop, hcontent, -⟩, rfl⟩ := scan_eq_ok_iff_derives.1 h
  exact hcontent.content_infix htag

end TagExpander.Markup
