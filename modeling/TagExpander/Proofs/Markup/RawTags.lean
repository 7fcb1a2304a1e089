/-
  TagExpander.Proofs.Markup.RawTags — where a raw tag ends.

  Behind the opening marker of a raw tag, the search for its closing marker goes from
  `<?#` to `<?#`.  One that reads as no marker is passed over by itself, one that does
  as a whole marker.  So the tag ends at the first closing marker of its name, unless a
  `<?#` in front of it reads as a marker that reaches over it:

      <?# Raw ?> … <?#/ Raw ?>         ends there
      <?# Raw ?> <?# <?#/ Raw ?>       does not: behind the second `<?#` stands the name
                                       `<`, and the marker goes on to the last `?>`

  Main results:
    * `rawCloser_of_first`, `rawCloser_eq_none` — the search, where nothing reaches over
      the first closing marker, and where there is none.
    * `scanFrom_rawTag` — the same for the walk over a text, at any place of it.
-/
import TagExpander.Proofs.Markup.Descent
import TagExpander.Proofs.Markup.Writing

namespace TagExpander.Markup

/-! ## §1. The first closing marker. -/

/-- The marker that starts `n` characters behind the place, if one can be read there. -/
def markerAt? (here : Cursor) (n : Nat) : Option Marker :=
  if startsMarker (here.rest.drop n) then (Marker.read (here.rest.drop n)).toOption else none

/-- The closing marker of the name that starts there. -/
def closerAt? (name : String) (here : Cursor) (n : Nat) : Option Marker :=
  (markerAt? here n).filter fun m => m.role == .closing && Text.same m.name name

/-- The first closing marker of the name starts `n` characters behind the place. -/
structure FirstCloser (name : String) (here : Cursor) (n : Nat) (closing : Marker) : Prop where
  closes : closerAt? name here n = some closing
  first : ∀ k < n, closerAt? name here k = none

instance (name : String) (here : Cursor) (n : Nat) (closing : Marker) :
    Decidable (FirstCloser name here n closing) :=
  decidable_of_iff (closerAt? name here n = some closing ∧ ∀ k < n, closerAt? name here k = none)
    ⟨fun h => ⟨h.1, h.2⟩, fun h => ⟨h.closes, h.first⟩⟩

/-- No marker that starts in the next `n` characters reaches over them. -/
def Clear (here : Cursor) (n : Nat) : Prop :=
  ∀ k < n, ∀ m ∈ markerAt? here k, k + m.length ≤ n

instance (here : Cursor) (n : Nat) : Decidable (Clear here n) :=
  inferInstanceAs (Decidable (∀ k < n, ∀ m ∈ markerAt? here k, k + m.length ≤ n))

theorem markerAt?_eq_some {here : Cursor} {n : Nat} {m : Marker} :
    markerAt? here n = some m ↔
      startsMarker (here.rest.drop n) = true ∧ Marker.read (here.rest.drop n) = .ok m := by
  unfold markerAt?
  cases Marker.read (here.rest.drop n) <;> simp [Except.toOption]

theorem closerAt?_eq_some {name : String} {here : Cursor} {n : Nat} {m : Marker} :
    closerAt? name here n = some m ↔
      startsMarker (here.rest.drop n) = true ∧ Marker.read (here.rest.drop n) = .ok m ∧
        (m.role == .closing && Text.same m.name name) = true := by
  rw [closerAt?, Option.filter_eq_some_iff, markerAt?_eq_some, and_assoc]

/-- Seen from a place further on, a marker is nearer. -/
theorem markerAt?_skip (here : Cursor) (j n : Nat) :
    markerAt? (here.skip j) n = markerAt? here (j + n) := by
  unfold markerAt?
  rw [Cursor.rest_skip, List.drop_drop]

theorem closerAt?_skip (name : String) (here : Cursor) (j n : Nat) :
    closerAt? name (here.skip j) n = closerAt? name here (j + n) := by
  rw [closerAt?, markerAt?_skip]
  rfl

/-- Two markers do not start within three characters of each other. -/
theorem add_three_le_of_startsMarker {cs : List Char} {j k : Nat}
    (hj : startsMarker (cs.drop j) = true) (hk : startsMarker (cs.drop k) = true) (h : j < k) :
    j + 3 ≤ k := by
  obtain ⟨tail, htail⟩ := startsMarker_iff.1 hj
  obtain ⟨d, rfl⟩ := Nat.exists_eq_add_of_lt h
  rw [Nat.add_assoc, ← List.drop_drop, ← htail] at hk
  -- behind `<` stand `?` and `#`, and no marker starts with these
  match d with
  | 0 => cases hk
  | 1 => cases hk
  | d + 2 => omega

section Behind

variable {name : String} {here : Cursor} {j n : Nat} {closing : Marker}

/-- The first closing marker is the first one for every place in front of it. -/
theorem FirstCloser.skip (h : FirstCloser name here (j + n) closing) :
    FirstCloser name (here.skip j) n closing where
  closes := by
    rw [closerAt?_skip]
    exact h.closes
  first := by
    intro k hk
    rw [closerAt?_skip]
    exact h.first (j + k) (by omega)

theorem Clear.skip (h : Clear here (j + n)) : Clear (here.skip j) n := by
  intro k hk m hm
  rw [markerAt?_skip] at hm
  have := h (j + k) (by omega) m hm
  omega

/-- A marker that is sought stands at the closing marker or in front of it. -/
theorem FirstCloser.seek_le {mark : Cursor} (h : FirstCloser name here n closing)
    (hs : here.seek = some mark) :
    ∃ k ≤ n, mark = here.skip k ∧ startsMarker (here.rest.drop k) = true := by
  obtain ⟨k, rfl, hk, hfirst⟩ := Cursor.seek_eq_some_iff.1 hs
  refine ⟨k, Nat.le_of_not_lt fun hlt => ?_, rfl, hk⟩
  have hstarts := (closerAt?_eq_some.1 h.closes).1
  rw [hfirst n hlt] at hstarts
  cases hstarts

end Behind

/-! ## §2. The search for the closing marker. -/

variable {name : String} {here : Cursor} {n : Nat} {closing : Marker}

/-- What a search from a place in front of the first closing marker finds. -/
theorem rawCloser_skip {j : Nat} (h : FirstCloser name here n closing) (hclear : Clear here n)
    (hj : j ≤ n)
    (ih : ∀ {d : Nat}, FirstCloser name (here.skip j) d closing → Clear (here.skip j) d →
      rawCloser name (here.skip j) =
        some ((here.skip j).skip d, (here.skip j).skip (d + closing.length))) :
    rawCloser name (here.skip j) = some (here.skip n, here.skip (n + closing.length)) := by
  obtain ⟨d, rfl⟩ := Nat.exists_eq_add_of_le hj
  rw [ih h.skip hclear.skip, Cursor.skip_skip, Cursor.skip_skip, Nat.add_assoc]

/-- The search ends at the first closing marker, if no marker in front reaches over it. -/
theorem rawCloser_of_first (h : FirstCloser name here n closing) (hclear : Clear here n) :
    rawCloser name here = some (here.skip n, here.skip (n + closing.length)) := by
  -- along the search; every round but the last one starts nearer to the closing marker
  fun_induction rawCloser name here generalizing n with
  | case1 here hs =>
      have hstarts := (closerAt?_eq_some.1 h.closes).1
      rw [Cursor.seek_eq_none_iff.1 hs n] at hstarts
      cases hstarts
  | case2 here mark hs fault hm ih =>
      obtain ⟨k, hk, rfl, hstartsK⟩ := h.seek_le hs
      obtain ⟨hstarts, hread, -⟩ := closerAt?_eq_some.1 h.closes
      -- the closing marker reads as a marker, so this is another place
      have hlt : k < n := by
        refine Nat.lt_of_le_of_ne hk ?_
        rintro rfl
        cases hread.symm.trans hm
      rw [Cursor.skip_skip] at ih ⊢
      exact rawCloser_skip h hclear (add_three_le_of_startsMarker hstartsK hstarts hlt) ih
  | case3 here mark hs m hm hclose =>
      obtain ⟨k, hk, rfl, hstartsK⟩ := h.seek_le hs
      -- a closing marker of the name stands here, and the first one is not further on
      have hcloses : closerAt? name here k = some m := closerAt?_eq_some.2 ⟨hstartsK, hm, hclose⟩
      have heq : k = n := by
        refine Nat.le_antisymm hk (Nat.le_of_not_lt fun hlt => ?_)
        cases (h.first k hlt).symm.trans hcloses
      subst heq
      cases h.closes.symm.trans hcloses
      rw [Cursor.skip_skip]
  | case4 here mark hs m hm hother ih =>
      obtain ⟨k, hk, rfl, hstartsK⟩ := h.seek_le hs
      obtain ⟨hstarts, hread, hcloses⟩ := closerAt?_eq_some.1 h.closes
      have hlt : k < n := by
        refine Nat.lt_of_le_of_ne hk ?_
        rintro rfl
        cases hread.symm.trans hm
        exact hother hcloses
      have hover : k + m.length ≤ n := hclear k hlt m (markerAt?_eq_some.2 ⟨hstartsK, hm⟩)
      rw [Cursor.skip_skip] at ih ⊢
      exact rawCloser_skip h hclear hover ih

/-- What the search ends at is a closing marker of the name. -/
theorem closerAt?_of_rawCloser {closer stop : Cursor}
    (h : rawCloser name here = some (closer, stop)) :
    ∃ n closing, closerAt? name here n = some closing ∧ closer = here.skip n ∧
      stop = here.skip (n + closing.length) := by
  -- what is found from a place further on lies further on
  have hskip : ∀ {here : Cursor} {j : Nat},
      (∃ n closing, closerAt? name (here.skip j) n = some closing ∧
        closer = (here.skip j).skip n ∧ stop = (here.skip j).skip (n + closing.length)) →
      ∃ n closing, closerAt? name here n = some closing ∧ closer = here.skip n ∧
        stop = here.skip (n + closing.length) := by
    intro here j h
    obtain ⟨n, closing, hcloses, rfl, rfl⟩ := h
    rw [closerAt?_skip] at hcloses
    refine ⟨j + n, closing, hcloses, Cursor.skip_skip _ _ _, ?_⟩
    rw [Cursor.skip_skip, Nat.add_assoc]
  fun_induction rawCloser name here with
  | case1 => cases h
  | case2 here mark hs fault hm ih =>
      obtain ⟨k, rfl, -⟩ := Cursor.seek_eq_some_iff.1 hs
      exact hskip (hskip (ih h))
  | case3 here mark hs m hm hclose =>
      cases h
      obtain ⟨k, rfl, hstarts, -⟩ := Cursor.seek_eq_some_iff.1 hs
      exact ⟨k, m, closerAt?_eq_some.2 ⟨hstarts, hm, hclose⟩, rfl, Cursor.skip_skip _ _ _⟩
  | case4 here mark hs m hm hother ih =>
      obtain ⟨k, rfl, -⟩ := Cursor.seek_eq_some_iff.1 hs
      exact hskip (hskip (ih h))

/-- Without a closing marker the search finds none. -/
theorem rawCloser_eq_none (h : ∀ n, closerAt? name here n = none) :
    rawCloser name here = none := by
  rw [Option.eq_none_iff_forall_ne_some]
  intro found hfound
  obtain ⟨closer, stop⟩ := found
  obtain ⟨n, closing, hcloses, -⟩ := closerAt?_of_rawCloser hfound
  cases (h n).symm.trans hcloses

/-! ## §3. The walk over a raw tag. -/

section Walk

variable (isRaw : String → Bool) {mark : Cursor} {m : Marker} (hs : here.seek = some mark)
  (hm : Marker.read mark.rest = .ok m) (hrole : m.role = .opening) (hraw : isRaw m.name = true)
include hs hm hrole hraw

/-- The walk goes on where the search ends, with the tag recorded; if the search finds
    nothing, the tag is blamed. -/
theorem scanFrom_raw (opened : List OpenTag) (found : Found) :
    scanFrom isRaw here opened found =
      match rawCloser m.name (mark.skip m.length) with
      | none => .error (.blame mark m.name .missingCloser)
      | some (closer, stop) =>
        scanFrom isRaw stop opened (found.record opened (.ofMarker m mark) (some closer) stop) := by
  rw [scanFrom_of_read hs hm, hrole]
  exact if_pos hraw

/-- **Where a raw tag ends.**  If no marker in front reaches over the first closing marker
    of its name, its content is the text up to there; if there is none, the tag is
    blamed; and if the walk succeeds, a closing marker of its name ends the tag. -/
theorem scanFrom_rawTag (opened : List OpenTag) (found : Found) :
    (∀ n closing, FirstCloser m.name (mark.skip m.length) n closing →
      Clear (mark.skip m.length) n →
      ∃ closer stop, stop = (mark.skip m.length).skip (n + closing.length) ∧
        ((OpenTag.ofMarker m mark).close (some closer) stop).content =
          String.ofList ((mark.skip m.length).rest.take n) ∧
        scanFrom isRaw here opened found =
          scanFrom isRaw stop opened
            (found.record opened (.ofMarker m mark) (some closer) stop)) ∧
    ((∀ n, closerAt? m.name (mark.skip m.length) n = none) →
      scanFrom isRaw here opened found = .error (.blame mark m.name .missingCloser)) ∧
    ∀ spans, scanFrom isRaw here opened found = .ok spans →
      ∃ n closing, closerAt? m.name (mark.skip m.length) n = some closing ∧
        scanFrom isRaw ((mark.skip m.length).skip (n + closing.length)) opened
          (found.record opened (.ofMarker m mark) (some ((mark.skip m.length).skip n))
            ((mark.skip m.length).skip (n + closing.length))) = .ok spans := by
  refine ⟨?_, ?_, ?_⟩
  · intro n closing hfirst hclear
    refine ⟨(mark.skip m.length).skip n, _, rfl, ?_, ?_⟩
    · show String.ofList ((mark.skip m.length).upTo ((mark.skip m.length).skip n)) = _
      rw [Cursor.upTo_skip]
    · rw [scanFrom_raw isRaw hs hm hrole hraw, rawCloser_of_first hfirst hclear]
  · intro hnone
    rw [scanFrom_raw isRaw hs hm hrole hraw, rawCloser_eq_none hnone]
  · intro spans hspans
    rw [scanFrom_raw isRaw hs hm hrole hraw] at hspans
    cases hclose : rawCloser m.name (mark.skip m.length) with
    | none =>
        rw [hclose] at hspans
        cases hspans
    | some found =>
        obtain ⟨closer, stop⟩ := found
        obtain ⟨n, closing, hcloses, rfl, rfl⟩ := closerAt?_of_rawCloser hclose
        rw [hclose] at hspans
        exact ⟨n, closing, hcloses, hspans⟩

end Walk

/-- A raw tag with an open quotation mark in its content, behind a `<?#`. -/
def openQuote : String := "<?# Raw ?>x <?# \"y <?#/ raw ?>z"

theorem scanFrom_rawTag_openQuote :
    let start := Cursor.start openQuote.toList
    let body := start.skip 10
    let m : Marker := ⟨.opening, "Raw", "", 10⟩
    let closing : Marker := ⟨.closing, "raw", "", 11⟩
    (start.seek = some start ∧ Marker.read start.rest = .ok m ∧ m.role = .opening ∧
        Text.same m.name "RAW" = true ∧ FirstCloser "Raw" body 9 closing ∧ Clear body 9) ∧
      ∃ closer stop, stop = body.skip (9 + closing.length) ∧
        ((OpenTag.ofMarker m start).close (some closer) stop).content =
          String.ofList (body.rest.take 9) ∧
        scanFrom (Text.same · "RAW") start [] ⟨[], start⟩ =
          scanFrom (Text.same · "RAW") stop []
            (Found.record ⟨[], start⟩ [] (.ofMarker m start) (some closer) stop) := by
  intro start body m closing
  have hseek : start.seek = some start := rfl
  have hread : Marker.read start.rest = .ok m := rfl
  have hraw : Text.same m.name "RAW" = true := by decide +kernel
  have hfirst : FirstCloser "Raw" body 9 closing := by decide +kernel
  have hclear : Clear body 9 := by decide +kernel
  have h := scanFrom_rawTag (Text.same · "RAW") hseek hread rfl hraw [] ⟨[], start⟩
  exact ⟨⟨hseek, hread, rfl, hraw, hfirst, hclear⟩, h.1 9 closing hfirst hclear⟩

/-- A raw tag with a `<?#` by itself in its content. -/
def bareStart : String := "<?# Raw ?>a <?# <?#/ Raw ?> b"

/-- The first closing marker does not end this tag, since what starts at the `<?#` in front
    reads as a marker that ends with it. -/
theorem scan_bareStart :
    FirstCloser "Raw" ((Cursor.start bareStart.toList).skip 10) 6 ⟨.closing, "Raw", "", 11⟩ ∧
      scan (Text.same · "RAW") bareStart = .error ⟨"Raw", 1, 0, .missingCloser⟩ := by
  have hseek : (Cursor.start bareStart.toList).seek = some (.start bareStart.toList) := rfl
  have hread : Marker.read bareStart.toList = .ok ⟨.opening, "Raw", "", 10⟩ := rfl
  have hraw : Text.same "Raw" "RAW" = true := by decide +kernel
  have hclose : rawCloser "Raw" ((Cursor.start bareStart.toList).skip 10) = none := by
    decide +kernel
  refine ⟨by decide +kernel, ?_⟩
  rw [scan, scanFrom_raw (Text.same · "RAW") hseek hread rfl hraw, hclose]
  rfl

end TagExpander.Markup
