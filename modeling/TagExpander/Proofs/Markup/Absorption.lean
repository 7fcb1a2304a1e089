/-
  TagExpander.Proofs.Markup.Absorption — a marker inside another one.

  The name of a marker is read first, and then its end is sought behind the name.  The
  search gives up at another `<?#` outside quotes, so that a marker which was never ended
  does not take up the next one.  The name knows nothing of that:

      <?# B <?# A /?>      fails: behind the name `B` stands another marker
      <?# B<?# A /?>       is one marker: the name `B<` takes the first character of `<?#`,
                           and the search begins behind it

  Main results:
    * `Marker.Parts.nested` — where a `<?#` can stand in a marker: at the end of the name,
      or inside quotes.
    * `scan_nested_marker` — the same for the markers of a text, and the fault of a marker behind
      whose name another one starts.
-/
import TagExpander.Proofs.Markup.Blame
import TagExpander.Proofs.Markup.Quoting

namespace TagExpander.Markup

/-! ## §1. The search for the end. -/

/-- How the search for the end of a marker stands behind the first `n` characters. -/
def searchAt (cs : List Char) (n : Nat) : Quoting :=
  Quoting.behind (.outside ' ') (cs.take n)

/-- In front of the end that is found, no marker starts outside quotes. -/
theorem startsMarker_of_terminatorFrom {q : Quoting} {n k j : Nat} {cs : List Char}
    (h : terminatorFrom q n cs = some k) (hj : n + j < k)
    (houtside : (q.behind (cs.take j)).isOutside = true) : startsMarker (cs.drop j) = false := by
  induction cs generalizing q n j with
  | nil => cases h
  | cons c cs ih =>
      rw [terminatorFrom] at h
      split at h
      · cases h
        omega
      · split at h
        · cases h
        next hstarts =>
          cases j with
          | zero =>
              have hq : q.isOutside = true := houtside
              rw [hq, Bool.true_and, Bool.not_eq_true] at hstarts
              exact hstarts
          | succ j => exact ih h (by omega) houtside

/-- The search gives up at the first marker outside quotes, if no end comes before. -/
theorem terminatorFrom_eq_none {q : Quoting} {n j : Nat} {cs : List Char}
    (houtside : (q.behind (cs.take j)).isOutside = true)
    (hstarts : startsMarker (cs.drop j) = true)
    (hopen : ∀ i < j, (q.behind (cs.take i)).isOutside = true → endsMarker (cs.drop i) = false) :
    terminatorFrom q n cs = none := by
  induction cs generalizing q n j with
  | nil => rfl
  | cons c cs ih =>
      rw [terminatorFrom]
      cases j with
      | zero =>
          have hq : q.isOutside = true := houtside
          obtain ⟨tail, htail⟩ := startsMarker_iff.1 hstarts
          have hend : endsMarker (c :: cs) = false := by
            rw [List.drop_zero] at htail
            rw [← htail]
            rfl
          rw [List.drop_zero] at hstarts
          rw [hend, hq, hstarts]
          rfl
      | succ j =>
          have hend : (q.isOutside && endsMarker (c :: cs)) = false := by
            cases hq : q.isOutside with
            | false => rfl
            | true => exact hopen 0 (Nat.succ_pos j) hq
          rw [hend, if_neg Bool.false_ne_true]
          split
          · rfl
          · exact ih houtside hstarts fun i hi => hopen (i + 1) (Nat.succ_lt_succ hi)

/-! ## §2. The parts of a marker. -/

/-- A marker starts with the first character of its text. -/
theorem mem_of_startsMarker_drop {xs ys : List Char} {k : Nat} (hk : k < xs.length)
    (h : startsMarker ((xs ++ ys).drop k) = true) : '<' ∈ xs := by
  obtain ⟨tail, htail⟩ := startsMarker_iff.1 h
  rw [List.drop_append_of_le_length (Nat.le_of_lt hk), List.drop_eq_getElem_cons hk,
    List.cons_append] at htail
  obtain ⟨hhead, -⟩ := List.cons.inj htail
  rw [hhead]
  exact List.getElem_mem hk

namespace Marker

/-- The text behind the name that is written in a marker. -/
def behindName (cs : List Char) : List Char :=
  (Text.trimLeft (named cs)).dropWhile isNameChar

/-- The text of a marker: `<?#`, perhaps a slash, and blanks; then the name; then the body, up
    to the end that is found by the search. -/
structure Parts (m : Marker) (cs lead body : List Char) : Prop where
  text : cs.take m.length = lead ++ (m.name.toList ++ (body ++ markerEnd))
  lead : ∃ blanks, lead = markerStart ++ blanks ∧ ∀ c ∈ blanks, c = '/' ∨ Text.isBlank c = true
  name : ∀ c ∈ m.name.toList, isNameChar c = true
  search : terminator (body ++ markerEnd) = some body.length

/-- The body decides on the part that a marker plays, unless a slash stands in front of its
    name; then it is a closing one, and the body is blank. -/
theorem role_of_body {closing : Bool} {before n : Nat} {cs : List Char} {m : Marker}
    (h : readNamed closing before cs = .ok m)
    (hn : terminator ((Text.trimLeft cs).dropWhile isNameChar) = some n) :
    (m.role = .closing ∧
        Text.allBlank (((Text.trimLeft cs).dropWhile isNameChar).take n) = true) ∨
      m.role = (splitBody (((Text.trimLeft cs).dropWhile isNameChar).take n)).1 := by
  unfold readNamed at h
  simp only [hn] at h
  split at h
  · cases h
  · split at h
    · split at h
      next hblank =>
        cases h
        exact .inl ⟨rfl, hblank⟩
      next => cases h
    · cases h
      exact .inr rfl

/-- **Every marker has these parts.** -/
theorem exists_parts {cs : List Char} {m : Marker} (hs : startsMarker cs = true)
    (h : read cs = .ok m) :
    ∃ lead body, m.Parts cs lead body ∧
      (m.role = .closing ∧ Text.allBlank body = true ∨ m.role = (splitBody body).1) := by
  obtain ⟨closing, slash, hslash, hdrop, heq⟩ := read_eq_readNamed cs
  obtain ⟨tail, htail⟩ := startsMarker_iff.1 hs
  have hname : m.name.toList = (Text.trimLeft (named cs)).takeWhile isNameChar := by
    rw [(name_of_read h).1, writtenName, String.toList_ofList]
  rw [heq] at h
  obtain ⟨n, hn, hlength⟩ := length_of_readNamed h
  rw [← hname] at hlength
  have hend : terminator (behindName cs) = some n := hn
  have hrole := role_of_body h hn
  have hbound := terminator_lt hend
  obtain ⟨behind, hbehind⟩ := endsMarker_iff.1 (isOutside_of_terminatorFrom hend).2
  rw [Nat.sub_zero] at hbehind
  -- the text falls apart into what stands in front of the name, the name, the body and the end
  have hrest : behindName cs = ((behindName cs).take n ++ markerEnd) ++ behind := by
    rw [List.append_assoc, hbehind, List.take_append_drop]
  have hnamed : named cs = (named cs).takeWhile Text.isBlank ++
      (m.name.toList ++ (((behindName cs).take n ++ markerEnd) ++ behind)) := by
    rw [← hrest, hname, behindName, List.takeWhile_append_dropWhile, Text.trimLeft_append]
  have hparts : cs = (markerStart ++ (slash ++ (named cs).takeWhile Text.isBlank)) ++
      (m.name.toList ++ ((behindName cs).take n ++ markerEnd)) ++ behind := by
    have htail' : tail = slash ++ named cs := by
      rw [← hdrop, ← htail]
      rfl
    rw [List.append_assoc, List.append_assoc, List.append_assoc, List.append_assoc, ← hnamed,
      ← htail', htail]
  refine ⟨markerStart ++ (slash ++ (named cs).takeWhile Text.isBlank), (behindName cs).take n,
    ⟨?_, ⟨_, rfl, ?_⟩, ?_, ?_⟩, hrole⟩
  · refine (congrArg (List.take m.length) hparts).trans (List.take_left' ?_)
    simp only [List.length_append, List.length_take, markerStart, markerEnd, List.length_cons,
      List.length_nil]
    omega
  · intro c hc
    rcases List.mem_append.1 hc with hc | hc
    · exact .inl (List.mem_singleton.1 (hslash.subset hc))
    · exact .inr (List.all_eq_true.1 List.all_takeWhile c hc)
  · rw [hname]
    exact List.all_eq_true.1 List.all_takeWhile
  · rw [List.length_take_of_le (Nat.le_of_add_right_le hbound)]
    rw [hrest] at hend
    refine terminatorFrom_cut.2 ⟨hend, ?_⟩
    simp only [List.length_append, List.length_take, markerEnd, List.length_cons,
      List.length_nil]
    omega

section Nested

variable {m : Marker} {cs lead body : List Char} {k : Nat}

/-- In front of the name, no marker starts but the marker itself. -/
theorem Parts.not_starts_lead (h : m.Parts cs lead body) (hk : 0 < k) (hlead : k < lead.length)
    (behind : List Char) : startsMarker ((lead ++ behind).drop k) = false := by
  obtain ⟨blanks, rfl, hblanks⟩ := h.lead
  obtain ⟨k, rfl⟩ := Nat.exists_eq_succ_of_ne_zero (Nat.ne_of_gt hk)
  rw [Bool.eq_false_iff]
  intro hs
  have hmem : '<' ∈ '?' :: '#' :: blanks :=
    mem_of_startsMarker_drop (Nat.lt_of_succ_lt_succ hlead) hs
  have hother : '<' ∈ blanks := by simpa using hmem
  rcases hblanks '<' hother with hslash | hblank
  · cases hslash
  · cases hblank

/-- In the name, one can start with the last character. -/
theorem Parts.starts_name (h : m.Parts cs lead body) (hk : k < m.name.toList.length)
    {behind : List Char} (hs : startsMarker ((m.name.toList ++ behind).drop k) = true) :
    k + 1 = m.name.toList.length := by
  refine Nat.le_antisymm hk (Nat.le_of_not_lt fun hlt => ?_)
  obtain ⟨tail, htail⟩ := startsMarker_iff.1 hs
  rw [List.drop_append_of_le_length (Nat.le_of_lt hk), List.drop_eq_getElem_cons hk,
    List.drop_eq_getElem_cons hlt] at htail
  -- the next character of the name would be a question mark
  obtain ⟨-, htail⟩ := List.cons.inj htail
  obtain ⟨hmark, -⟩ := List.cons.inj htail
  have hchar := h.name _ (List.getElem_mem hlt)
  rw [← hmark] at hchar
  cases hchar

/-- Behind the name, one can start inside quotes. -/
theorem Parts.starts_body (h : m.Parts cs lead body)
    (hs : startsMarker ((body ++ markerEnd).drop k) = true) :
    k < body.length ∧ (searchAt body k).isOutside = false := by
  have hlength := add_three_le_length hs
  rw [List.length_append] at hlength
  have hk : k < body.length := by
    have htwo : markerEnd.length = 2 := rfl
    omega
  refine ⟨hk, ?_⟩
  rw [← Bool.not_eq_true]
  intro houtside
  have htake : (body ++ markerEnd).take k = body.take k :=
    List.take_append_of_le_length (Nat.le_of_lt hk)
  rw [searchAt, ← htake] at houtside
  rw [startsMarker_of_terminatorFrom h.search (by omega) houtside] at hs
  cases hs

/-- **Where another marker can start inside a marker.**  It starts with the last character of
    the name, or else the search for the end comes to it inside quotes. -/
theorem Parts.nested (h : m.Parts cs lead body) (hk : 0 < k)
    (hs : startsMarker ((cs.take m.length).drop k) = true) :
    k + 1 = lead.length + m.name.toList.length ∨
      ∃ j < body.length, k = lead.length + m.name.toList.length + j ∧
        (searchAt body j).isOutside = false := by
  rw [h.text] at hs
  by_cases hlead : k < lead.length
  · rw [h.not_starts_lead hk hlead] at hs
    cases hs
  obtain ⟨i, rfl⟩ := Nat.exists_eq_add_of_le (Nat.le_of_not_lt hlead)
  rw [List.drop_append, List.drop_eq_nil_of_le (Nat.le_add_right _ _), List.nil_append,
    Nat.add_sub_cancel_left] at hs
  by_cases hname : i < m.name.toList.length
  · have hlast := h.starts_name hname hs
    exact .inl (by omega)
  obtain ⟨j, rfl⟩ := Nat.exists_eq_add_of_le (Nat.le_of_not_lt hname)
  rw [List.drop_append, List.drop_eq_nil_of_le (Nat.le_add_right _ _), List.nil_append,
    Nat.add_sub_cancel_left] at hs
  obtain ⟨hj, houtside⟩ := h.starts_body hs
  exact .inr ⟨j, hj, (Nat.add_assoc _ _ _).symm, houtside⟩

end Nested

/-! ## §3. Markers that were never ended. -/

/-- Outside quotes, another marker starts `n` characters behind the name, and no end comes
    before. -/
structure RunsInto (behind : List Char) (n : Nat) : Prop where
  outside : (searchAt behind n).isOutside = true
  starts : startsMarker (behind.drop n) = true
  notEnded : ∀ i < n, (searchAt behind i).isOutside = true → endsMarker (behind.drop i) = false

/-- Such a marker cannot be read. -/
theorem read_of_runsInto {cs : List Char} {n : Nat} (h : RunsInto (behindName cs) n) :
    read cs =
      .error (writtenName cs, if writtenName cs = "" then .missingName else .unterminated) := by
  obtain ⟨closing, slash, -, -, heq⟩ := read_eq_readNamed cs
  have hend : terminator ((Text.trimLeft (named cs)).dropWhile isNameChar) = none :=
    terminatorFrom_eq_none h.outside h.starts h.notEnded
  rw [heq, readNamed]
  simp only [hend]
  by_cases hname : writtenName cs = ""
  · rw [if_pos hname, hname]
    exact if_pos (String.isEmpty_iff.2 hname)
  · rw [if_neg hname]
    exact if_neg fun hempty => hname (String.isEmpty_iff.1 hempty)

end Marker

/-- **A marker that was never ended is not taken up by another one, but at the end of a name.**
    Inside a marker that can be read at a place of a text, another one starts with the last
    character of its name or inside quotes, and nowhere else.  So if outside quotes another
    marker starts behind the name of one that the scan comes to, before an end does, the scan
    fails. -/
theorem scan_nested_marker (isRaw : String → Bool) (text : String) :
    (∀ n m, startsMarker (text.toList.drop n) = true → Marker.read (text.toList.drop n) = .ok m →
      ∃ lead body, m.Parts (text.toList.drop n) lead body ∧
        ∀ k, 0 < k → startsMarker (((text.toList.drop n).take m.length).drop k) = true →
          k + 1 = lead.length + m.name.toList.length ∨
            ∃ j < body.length, k = lead.length + m.name.toList.length + j ∧
              (searchAt body j).isOutside = false) ∧
    ∀ w mark n, Walk.Reaches isRaw (.start text.toList) w → w.here.seek = some mark →
      Marker.RunsInto (Marker.behindName mark.rest) n →
        scan isRaw text = .error (.blame mark (Marker.writtenName mark.rest)
          (if Marker.writtenName mark.rest = "" then .missingName else .unterminated)) := by
  constructor
  · intro n m hs hread
    obtain ⟨lead, body, hparts, -⟩ := Marker.exists_parts hs hread
    exact ⟨lead, body, hparts, fun k => hparts.nested⟩
  · intro w mark n hreach hseek hruns
    rw [← Walk.outcome_start, hreach.outcome_eq]
    exact (Walk.Fails.unreadable hseek (Marker.read_of_runsInto hruns)).outcome_eq

/-- A marker with the start of another one in a quoted value. -/
def quotedMarker : String := "<?# A t=\"<?# B\" /?>"

/-- The start of another marker stands inside quotes there; outside quotes the scan fails. -/
theorem scan_nested_marker_quoted :
    (startsMarker ((quotedMarker.toList.take 19).drop 9) = true ∧
      ∃ lead body, (⟨.selfClosing, "A", " t=\"<?# B\" ", 19⟩ : Marker).Parts quotedMarker.toList
          lead body ∧
        (9 + 1 = lead.length + 1 ∨
          ∃ j < body.length, 9 = lead.length + 1 + j ∧ (searchAt body j).isOutside = false)) ∧
      scan (fun _ => false) "<?# A <?# B /?>" = .error ⟨"A", 1, 0, .unterminated⟩ := by
  have hread : Marker.read quotedMarker.toList =
      .ok ⟨.selfClosing, "A", " t=\"<?# B\" ", 19⟩ := rfl
  have hnested : startsMarker ((quotedMarker.toList.take 19).drop 9) = true := rfl
  obtain ⟨lead, body, hparts, hplaces⟩ :=
    (scan_nested_marker (fun _ => false) quotedMarker).1 0 _ rfl hread
  have hruns : Marker.RunsInto (Marker.behindName "<?# A <?# B /?>".toList) 1 :=
    ⟨by decide, by decide, by decide⟩
  exact ⟨⟨hnested, lead, body, hparts, hplaces 9 (by decide) hnested⟩,
    (scan_nested_marker (fun _ => false) "<?# A <?# B /?>").2 (.start _) _ 1 .refl rfl hruns⟩

/-- A marker that was never ended, with another one right behind its name. -/
def joinedMarker : String := "<?# B<?# A /?>"

/-- The name takes the first character of the second marker, and the text is one tag.  There
    are no quotation marks in it, and no marker ends in front of the second one. -/
theorem scan_joined_marker :
    scan (fun _ => false) joinedMarker =
        .ok [.tag ⟨"B<", ⟨[⟨none, "?#"⟩, ⟨none, "A"⟩]⟩, "", true, 0, 14, 1⟩] ∧
      startsMarker (joinedMarker.toList.drop 5) = true ∧
      joinedMarker.toList.any Argument.isQuote = false ∧
      ∀ i < 5, endsMarker (joinedMarker.toList.drop i) = false := by
  have hscan : scan (fun _ => false) joinedMarker =
      .ok [.tag ⟨"B<", ⟨[⟨none, "?#"⟩, ⟨none, "A"⟩]⟩, "", true, 0, 14, 1⟩] := by
    decide +kernel
  exact ⟨hscan, rfl, rfl, by decide⟩

end TagExpander.Markup
