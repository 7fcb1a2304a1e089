/-
  TagExpander.Proofs.Markup.Quoting — two ways of reading quotation marks.

  The end of a marker is sought before its arguments are read.  The search opens a quoted
  value by the character in front of a quotation mark; the reader of the arguments opens
  one where an argument or its value starts:

      text         "a" 'b' k="c"      "a""b"      a=b="c"      "a" behind a wide blank
      the search   opens all three    opens one   opens one    opens none
      the reader   opens all three    opens two   opens none   opens one

  A wide blank is one that the search does not know: all but the ASCII blanks.  Where a
  text has no quotation mark of the last three kinds, the two go in step, and
  every quoted value of a tag is closed in front of its end.

  Main results:
    * `Agrees.next` — the two go in step.
    * `Derives.openedBy` — every tag has been read from a marker of the text.
    * `scan_closes_quotes` — the quoted values of a tag are closed.
    * `scan_cuts_quote` — a quoted value that is cut by the end of its tag.
-/
import TagExpander.Proofs.Argument.Reader
import TagExpander.Proofs.Markup.Fragment

namespace TagExpander.Markup

open Argument (Reading isQuote)

/-! ## §1. The search for the end of a marker. -/

/-- Does the reader of arguments decide on this quotation mark by more than the character in
    front of it?  It does right behind a quoted value, behind a wide blank, and behind a `=` in
    an unquoted value. -/
def isUnsettled (r : Reading) (previous c : Char) : Bool :=
  isQuote c &&
    match r with
    | .between => isQuote previous || (Text.isBlank previous && !Text.isAsciiBlank previous)
    | .bare => previous == '='
    | .key | .value | .quoted _ | .escaped _ => false

/-- Is there no such mark in the text, read on from `r` behind the character `previous`? -/
def isSettledFrom (r : Reading) (previous : Char) : List Char → Bool
  | [] => true
  | c :: cs => !isUnsettled r previous c && isSettledFrom (r.next c) c cs

/-- Does the character in front of each quotation mark of an argument text tell how it is
    read? -/
def isSettled (arguments : List Char) : Bool :=
  isSettledFrom .between ' ' arguments

/-- How the search reads on behind a text. -/
def Quoting.behind (q : Quoting) (cs : List Char) : Quoting :=
  cs.foldl (fun q c => q.next c) q

/-- The search and the reader of arguments are in step, behind the character `previous`. -/
inductive Agrees (previous : Char) : Reading → Quoting → Prop where
  | between (h : Text.isBlank previous = true ∨ isQuote previous = true) :
      Agrees previous .between (.outside previous)
  | key (h : Argument.isKeyChar previous = true) : Agrees previous .key (.outside previous)
  | value (h : previous = '=') : Agrees previous .value (.outside previous)
  | bare (h : Text.isBlank previous = false) : Agrees previous .bare (.outside previous)
  | quoted {mark : Char} (h : isQuote mark = true) :
      Agrees previous (.quoted mark) (.inside mark)
  | escaped {mark : Char} (h : isQuote mark = true) :
      Agrees previous (.escaped mark) (.escaped mark)

/-- In step, the search is inside a quoted value exactly if the reader is. -/
theorem Agrees.isOutside_eq {previous : Char} {r : Reading} {q : Quoting}
    (h : Agrees previous r q) : q.isOutside = !r.isQuoted := by
  cases h <;> rfl

/-- A blank is no quotation mark. -/
theorem isQuote_of_isBlank {c : Char} (h : Text.isBlank c = true) : isQuote c = false := by
  rw [← Bool.not_eq_true]
  intro hquote
  rw [isQuote, Bool.or_eq_true, beq_iff_eq, beq_iff_eq] at hquote
  rcases hquote with rfl | rfl <;> cases h

theorem opensValue_of_not_blank {c : Char} (hblank : Text.isBlank c = false) (hne : c ≠ '=') :
    opensValue c = false := by
  rw [opensValue, Bool.or_eq_false_iff, beq_eq_false_iff_ne]
  refine ⟨?_, hne⟩
  rw [← Bool.not_eq_true]
  intro hascii
  cases hblank.symm.trans (Text.isBlank_of_isAsciiBlank hascii)

theorem Quoting.next_of_not_quote {c previous : Char} (h : isQuote c = false) :
    (Quoting.outside previous).next c = .outside c := by
  rw [next, h]
  rfl

theorem Quoting.next_of_not_opens {c previous : Char} (h : opensValue previous = false) :
    (Quoting.outside previous).next c = .outside c := by
  rw [next, h, Bool.and_false]
  rfl

theorem Quoting.next_of_opens {c previous : Char} (hc : isQuote c = true)
    (h : opensValue previous = true) : (Quoting.outside previous).next c = .inside c := by
  rw [next, h, hc]
  rfl

section Agrees

variable {previous c : Char}

/-- A blank is read outside quotes, in front of an argument. -/
theorem Agrees.blank (h : Text.isBlank c = true) :
    Agrees c .between ((Quoting.outside previous).next c) := by
  rw [Quoting.next_of_not_quote (isQuote_of_isBlank h)]
  exact .between (.inl h)

/-- An unquoted value goes on, unless the search opens a value. -/
theorem Agrees.goOn (hblank : Text.isBlank c = false)
    (hclosed : isQuote c = true → opensValue previous = false) :
    Agrees c .bare ((Quoting.outside previous).next c) := by
  by_cases hquote : isQuote c = true
  · rw [Quoting.next_of_not_opens (hclosed hquote)]
    exact .bare hblank
  · rw [Bool.not_eq_true] at hquote
    rw [Quoting.next_of_not_quote hquote]
    exact .bare hblank

/-- In front of an argument both open a value, if the character in front is an ASCII blank. -/
theorem Agrees.next_between (h : Text.isBlank previous = true ∨ isQuote previous = true)
    (hc : isUnsettled .between previous c = false) :
    Agrees c (Reading.between.next c) ((Quoting.outside previous).next c) := by
  rw [Reading.next]
  split
  next hblank => exact .blank hblank
  next hblank =>
    rw [Bool.not_eq_true] at hblank
    split
    next hquote =>
      rw [isUnsettled, hquote, Bool.true_and, Bool.or_eq_false_iff, Bool.and_eq_false_iff,
        Bool.not_eq_false'] at hc
      have hascii : Text.isAsciiBlank previous = true := by
        rcases h with h | h
        · exact hc.2.resolve_left (by simp [h])
        · cases h.symm.trans hc.1
      rw [Quoting.next_of_opens hquote (by rw [opensValue, hascii]; rfl)]
      exact .quoted hquote
    next hquote =>
      rw [Bool.not_eq_true] at hquote
      rw [Quoting.next_of_not_quote hquote]
      split
      next hkey => exact .key hkey
      · exact .bare hblank

/-- Behind the characters of a key neither opens a value. -/
theorem Agrees.next_key (h : Argument.isKeyChar previous = true) :
    Agrees c (Reading.key.next c) ((Quoting.outside previous).next c) := by
  rw [Reading.next]
  split
  next heq =>
    obtain rfl := beq_iff_eq.1 heq
    exact .value rfl
  · split
    next hkey =>
      rw [Quoting.next_of_not_quote (Argument.isKeyChar_eq_true hkey).2]
      exact .key hkey
    · split
      next hblank => exact .blank hblank
      next hblank =>
        rw [Bool.not_eq_true] at hblank
        have hne : previous ≠ '=' := by
          rintro rfl
          cases h
        exact .goOn hblank fun _ => opensValue_of_not_blank (Argument.isKeyChar_eq_true h).1 hne

/-- Behind the `=` of a key both open a value. -/
theorem Agrees.next_value :
    Agrees c (Reading.value.next c) ((Quoting.outside '=').next c) := by
  rw [Reading.next]
  split
  next hquote =>
    rw [Quoting.next_of_opens hquote rfl]
    exact .quoted hquote
  next hquote =>
    rw [Bool.not_eq_true] at hquote
    split
    next hblank => exact .blank hblank
    next hblank =>
      rw [Bool.not_eq_true] at hblank
      exact .goOn hblank fun h => absurd (hquote.symm.trans h) Bool.false_ne_true

/-- Inside an unquoted value neither opens a value, but behind a `=`. -/
theorem Agrees.next_bare (h : Text.isBlank previous = false)
    (hc : isUnsettled .bare previous c = false) :
    Agrees c (Reading.bare.next c) ((Quoting.outside previous).next c) := by
  rw [Reading.next]
  split
  next hblank => exact .blank hblank
  next hblank =>
    rw [Bool.not_eq_true] at hblank
    refine .goOn hblank fun hquote => ?_
    rw [isUnsettled, hquote, Bool.true_and, beq_eq_false_iff_ne] at hc
    exact opensValue_of_not_blank h hc

/-- A quoted value is closed by its own mark only. -/
theorem Agrees.next_quoted {mark : Char} (h : isQuote mark = true) :
    Agrees c ((Reading.quoted mark).next c) ((Quoting.inside mark).next c) := by
  rw [Reading.next, Quoting.next]
  split
  · exact .escaped h
  · split
    next heq =>
      obtain rfl := beq_iff_eq.1 heq
      exact .between (.inr h)
    · exact .quoted h

/-- **The two go in step**, but for marks on which the reader decides otherwise. -/
theorem Agrees.next {r : Reading} {q : Quoting} (h : Agrees previous r q)
    (hc : isUnsettled r previous c = false) : Agrees c (r.next c) (q.next c) := by
  cases h with
  | between h => exact .next_between h hc
  | key h => exact .next_key h
  | value h =>
      rw [h]
      exact .next_value
  | bare h => exact .next_bare h hc
  | quoted h => exact .next_quoted h
  | escaped h => exact .quoted h

end Agrees

/-- Over a text without such marks they stay in step. -/
theorem Agrees.behind {previous : Char} {r : Reading} {q : Quoting} (h : Agrees previous r q)
    {cs : List Char} (hcs : isSettledFrom r previous cs = true) :
    ∃ last, Agrees last (r.behind cs) (q.behind cs) := by
  induction cs generalizing previous r q with
  | nil => exact ⟨previous, h⟩
  | cons c cs ih =>
      rw [isSettledFrom, Bool.and_eq_true, Bool.not_eq_true'] at hcs
      exact ih (h.next hcs.1) hcs.2

/-- What is no quotation mark does not end a quoted value. -/
theorem Agrees.isQuoted_next {previous c : Char} {r : Reading} {q : Quoting}
    (h : Agrees previous r q) (hc : isQuote c = false) (hr : r.isQuoted = true) :
    (r.next c).isQuoted = true := by
  cases h with
  | between _ | key _ | value _ | bare _ => cases hr
  | @quoted mark hmark =>
      rw [Reading.next]
      split
      · rfl
      · split
        next heq =>
          obtain rfl := beq_iff_eq.1 heq
          cases hc.symm.trans hmark
        · rfl
  | escaped _ => rfl

theorem isUnsettled_of_not_quote {r : Reading} {previous c : Char} (hc : isQuote c = false) :
    isUnsettled r previous c = false := by
  simp only [isUnsettled, hc, Bool.false_and]

theorem Agrees.isQuoted_behind {previous : Char} {r : Reading} {q : Quoting}
    (h : Agrees previous r q) {cs : List Char} (hcs : ∀ c ∈ cs, isQuote c = false)
    (hr : r.isQuoted = true) : (r.behind cs).isQuoted = true := by
  induction cs generalizing previous r q with
  | nil => exact hr
  | cons c cs ih =>
      rw [List.forall_mem_cons] at hcs
      exact ih (h.next (isUnsettled_of_not_quote hcs.1)) hcs.2 (h.isQuoted_next hcs.1 hr)

theorem isSettledFrom_of_not_quote {r : Reading} {previous : Char} {cs : List Char}
    (hcs : ∀ c ∈ cs, isQuote c = false) : isSettledFrom r previous cs = true := by
  induction cs generalizing r previous with
  | nil => rfl
  | cons c cs ih =>
      rw [List.forall_mem_cons] at hcs
      rw [isSettledFrom, isUnsettled_of_not_quote hcs.1]
      exact ih hcs.2

/-- Text without quotation marks may follow. -/
theorem isSettledFrom_append {r : Reading} {previous : Char} {cs more : List Char}
    (h : isSettledFrom r previous cs = true) (hmore : ∀ c ∈ more, isQuote c = false) :
    isSettledFrom r previous (cs ++ more) = true := by
  induction cs generalizing r previous with
  | nil => exact isSettledFrom_of_not_quote hmore
  | cons c cs ih =>
      rw [isSettledFrom, Bool.and_eq_true] at h
      rw [List.cons_append, isSettledFrom, h.1]
      exact ih h.2

/-! ## §2. Markers. -/

/-- The end that is found is the end of a marker, where the search is outside quotes. -/
theorem isOutside_of_terminatorFrom {q : Quoting} {n k : Nat} {cs : List Char}
    (h : terminatorFrom q n cs = some k) :
    (q.behind (cs.take (k - n))).isOutside = true ∧ endsMarker (cs.drop (k - n)) = true := by
  induction cs generalizing q n with
  | nil => cases h
  | cons c cs ih =>
      rw [terminatorFrom] at h
      split at h
      next hend =>
        cases h
        rw [Nat.sub_self]
        exact Bool.and_eq_true_iff.1 hend
      · split at h
        · cases h
        · have hlater := (terminatorFrom_lt h).1
          rw [show k - n = (k - (n + 1)) + 1 by omega, List.take_succ_cons, List.drop_succ_cons]
          exact ih h

namespace Marker

/-- The text between the name of a marker and its end is that of its arguments, and behind it
    there are only blanks and a slash. -/
theorem splitBody_append (body : List Char) :
    ∃ ending, body = (splitBody body).2 ++ ending ∧ ∀ c ∈ ending, isQuote c = false := by
  have hblanks : ∀ c ∈ (body.reverse.takeWhile Text.isBlank).reverse, isQuote c = false := by
    intro c hc
    exact isQuote_of_isBlank (List.all_eq_true.1 List.all_takeWhile c (List.mem_reverse.1 hc))
  have hbody : body = (body.reverse.dropWhile Text.isBlank).reverse ++
      (body.reverse.takeWhile Text.isBlank).reverse := by
    rw [← List.reverse_append, List.takeWhile_append_dropWhile, List.reverse_reverse]
  rw [splitBody]
  split
  next front hfront =>
    rw [hfront, List.reverse_cons, List.append_assoc] at hbody
    refine ⟨_, hbody, ?_⟩
    intro c hc
    rcases List.mem_append.1 hc with hc | hc
    · rw [List.mem_singleton.1 hc]
      rfl
    · exact hblanks c hc
  · exact ⟨_, hbody, hblanks⟩

/-- The text of a marker whose arguments are read: behind `<?#` and the name stands a body,
    which is that of its arguments, and then blanks and a slash. -/
structure HasBody (m : Marker) (cs body : List Char) : Prop where
  text : ∃ blanks, (∀ c ∈ blanks, Text.isBlank c = true) ∧
    cs.take m.length = cs.take 3 ++ blanks ++ m.name.toList ++ body ++ markerEnd
  arguments : ∃ ending, body = m.arguments.toList ++ ending ∧ ∀ c ∈ ending, isQuote c = false
  /-- The search for the end has come to an end outside quotes. -/
  outside : (Quoting.behind (.outside ' ') body).isOutside = true

/-- The name and the body of a marker, and what follows. -/
theorem hasBody_of_readNamed {head cs : List Char} {m : Marker} (hhead : head.length = 3)
    (h : readNamed false 3 cs = .ok m) : ∃ body, HasBody m (head ++ cs) body := by
  unfold readNamed at h
  simp only at h
  split at h
  · cases h
  · split at h
    · cases h
    next n hn =>
      rw [if_neg Bool.false_ne_true] at h
      cases h
      obtain ⟨houtside, hend⟩ := isOutside_of_terminatorFrom hn
      rw [Nat.sub_zero] at houtside hend
      obtain ⟨behind, hbehind⟩ := endsMarker_iff.1 hend
      obtain ⟨ending, hbody, hending⟩ :=
        splitBody_append (((Text.trimLeft cs).dropWhile isNameChar).take n)
      refine ⟨_, ⟨⟨cs.takeWhile Text.isBlank, fun c hc => ?_, ?_⟩, ⟨ending, ?_, hending⟩,
        houtside⟩⟩
      · exact List.all_eq_true.1 List.all_takeWhile c hc
      · have htext : cs = cs.takeWhile Text.isBlank ++
            ((Text.trimLeft cs).takeWhile isNameChar ++
              (((Text.trimLeft cs).dropWhile isNameChar).take n ++ (markerEnd ++ behind))) := by
          rw [hbehind, List.take_append_drop, List.takeWhile_append_dropWhile,
            Text.trimLeft_append]
        have hwhole : head ++ cs = head ++ cs.takeWhile Text.isBlank ++
            (Text.trimLeft cs).takeWhile isNameChar ++
            ((Text.trimLeft cs).dropWhile isNameChar).take n ++ markerEnd ++ behind := by
          rw [List.append_assoc, List.append_assoc, List.append_assoc, List.append_assoc, ← htext]
        have hbound := terminator_lt hn
        rw [List.take_left' hhead, String.toList_ofList]
        refine (congrArg (List.take _) hwhole).trans (List.take_left' ?_)
        simp only [List.length_append, List.length_take, markerEnd, List.length_cons,
          List.length_nil]
        omega
      · rw [String.toList_ofList]
        exact hbody

theorem role_of_readNamed {before : Nat} {cs : List Char} {m : Marker}
    (h : readNamed true before cs = .ok m) : m.role = .closing := by
  unfold readNamed at h
  simp only at h
  split at h
  · cases h
  · split at h
    · cases h
    · rw [if_pos trivial] at h
      split at h
      · cases h
        rfl
      · cases h

/-- The text of every marker but a closing one has such a body. -/
theorem hasBody_of_read {cs : List Char} {m : Marker} (h : read cs = .ok m)
    (hrole : m.role ≠ .closing) : ∃ body, HasBody m cs body := by
  have hlength : (cs.take 3).length = 3 := by
    have hthree := three_lt_length h
    have hle := length_read_le h
    rw [List.length_take]
    omega
  unfold read at h
  split at h
  · exact absurd (role_of_readNamed h) hrole
  · rw [← List.take_append_drop 3 cs]
    exact hasBody_of_readNamed hlength h

/-- **The quoted values of a marker are closed** in front of its end, if every quotation mark
    of its arguments can be told by the character in front of it. -/
theorem HasBody.allClosed {cs body : List Char} {m : Marker} (h : HasBody m cs body)
    (hsettled : isSettled m.arguments.toList = true) :
    Argument.allClosed m.arguments.toList = true ∧ Argument.allClosed body = true := by
  obtain ⟨ending, hbody, hending⟩ := h.arguments
  have hstart : Agrees ' ' .between (.outside ' ') := .between (.inl rfl)
  obtain ⟨_, hstep⟩ := hstart.behind hsettled
  obtain ⟨_, hend⟩ := hstart.behind (isSettledFrom_append hsettled hending)
  rw [← hbody] at hend
  have hclosed : (Reading.between.behind body).isQuoted = false := by
    rw [← Bool.not_eq_true', ← hend.isOutside_eq]
    exact h.outside
  rw [Argument.allClosed_eq_not_isQuoted, Argument.allClosed_eq_not_isQuoted, hclosed]
  refine ⟨?_, rfl⟩
  -- no mark behind the arguments would end a value
  rw [Bool.not_eq_true', ← Bool.not_eq_true]
  intro hopen
  have hinside := hstep.isQuoted_behind hending hopen
  rw [← Reading.behind_append, ← hbody, hclosed] at hinside
  cases hinside

end Marker

/-! ## §3. Tags. -/

/-- The tag has been read from the marker at the cursor. -/
structure Tag.OpenedBy (tag : Tag) (mark : Cursor) (m : Marker) : Prop where
  read : Marker.read mark.rest = .ok m
  role : m.role ≠ .closing
  start : tag.start = mark.bytes
  line : tag.line = mark.line
  name : tag.name = m.name
  arguments : tag.arguments = .parse m.arguments

/-- Every tag of a content at the top has been read from a marker in it. -/
theorem Derives.openedBy {isRaw : String → Bool} {here stop : Cursor} {c : Content}
    (h : Derives isRaw here c stop) {tag : Tag} (htag : .tag tag ∈ c.spans) :
    ∃ k m, startsMarker (here.rest.drop k) = true ∧ tag.OpenedBy (here.skip k) m := by
  -- a tag of the rest stands as many characters further on as the rest begins
  have later {here : Cursor} {n : Nat}
      (hlater : ∃ k m, startsMarker ((here.skip n).rest.drop k) = true ∧
        tag.OpenedBy ((here.skip n).skip k) m) :
      ∃ k m, startsMarker (here.rest.drop k) = true ∧ tag.OpenedBy (here.skip k) m := by
    obtain ⟨k, m, hk, hopen⟩ := hlater
    rw [Cursor.rest_skip, List.drop_drop] at hk
    rw [Cursor.skip_skip] at hopen
    exact ⟨n + k, m, hk, hopen⟩
  induction h with
  | text => exact absurd htag (tag_not_mem_literalSpans tag _)
  | @single here mark stop m rest hs hm hrole _ ih =>
      obtain ⟨k, rfl, hk, -⟩ := Cursor.seek_eq_some_iff.1 hs
      rcases tag_mem_spans_iff.1 htag with rfl | hrest
      · exact ⟨k, m, hk, hm, by rw [hrole]; decide, rfl, rfl, rfl, rfl⟩
      · exact later (later (ih hrest))
  | @raw here mark closer next stop m rest hs hm hrole _ hclose _ ih =>
      obtain ⟨k, rfl, hk, -⟩ := Cursor.seek_eq_some_iff.1 hs
      rcases tag_mem_spans_iff.1 htag with rfl | hrest
      · exact ⟨k, m, hk, hm, by rw [hrole]; decide, rfl, rfl, rfl, rfl⟩
      · obtain ⟨_, n, -, -, rfl, -⟩ := rawCloser_cut hclose
        exact later (later (later (ih hrest)))
  | @paired here mark closer stop m closing inner rest hs hm hrole _ hinner _ _ _ ih =>
      obtain ⟨k, rfl, hk, -⟩ := Cursor.seek_eq_some_iff.1 hs
      rcases tag_mem_spans_iff.1 htag with rfl | hrest
      · exact ⟨k, m, hk, hm, by rw [hrole]; decide, rfl, rfl, rfl, rfl⟩
      · obtain ⟨n, -, rfl, -⟩ := hinner.cut
        exact later (later (later (later (ih hrest))))

/-- **The quoted values of a tag are closed.**  Every tag that a scan returns has been read
    from a marker of the text, and its arguments from the body of the marker.  Where every
    quotation mark among these can be told by the character in front of it, each quoted value
    that the reader of arguments starts is closed in the text of the arguments, and so is
    each that it would start in the body: the end of the marker stands in no quoted value. -/
theorem scan_closes_quotes {isRaw : String → Bool} {text : String} {spans : List Span}
    (h : scan isRaw text = .ok spans) {tag : Tag} (htag : .tag tag ∈ spans) :
    ∃ k m body,
      startsMarker (text.toList.drop k) = true ∧
      tag.OpenedBy ((Cursor.start text.toList).skip k) m ∧
      m.HasBody (text.toList.drop k) body ∧
      (isSettled m.arguments.toList = true →
        Argument.allClosed m.arguments.toList = true ∧ Argument.allClosed body = true) := by
  obtain ⟨content, ⟨stop, hcontent, -⟩, rfl⟩ := scan_eq_ok_iff_derives.1 h
  obtain ⟨k, m, hk, hopen⟩ := hcontent.openedBy htag
  obtain ⟨body, hbody⟩ := Marker.hasBody_of_read hopen.read hopen.role
  exact ⟨k, m, body, hk, hopen, hbody, hbody.allClosed⟩

/-- A tag with the end of a marker inside a quoted value. -/
def endInside : String := "<?# Meta \"b /?>\" /?>"

/-- The value goes on behind that end, up to its quotation mark. -/
theorem scan_closes_quotes_endInside :
    ∃ m body,
      Marker.read endInside.toList = .ok m ∧ m.HasBody endInside.toList body ∧
      m.arguments = " \"b /?>\" " ∧
      Argument.allClosed m.arguments.toList = true ∧ Argument.allClosed body = true := by
  have hseek : (Cursor.start endInside.toList).seek = some (.start endInside.toList) := rfl
  have hread : Marker.read endInside.toList =
      .ok ⟨.selfClosing, "Meta", " \"b /?>\" ", 20⟩ := rfl
  have hscan : scan (fun _ => false) endInside =
      .ok [.tag
        { name := "Meta"
          arguments := .parse " \"b /?>\" "
          content := ""
          selfClosing := true
          start := 0
          stop := 20
          line := 1 }] :=
    scan_eq_ok_iff_derives.2 ⟨_, ⟨_, .single hseek hread rfl .text, rfl⟩, rfl⟩
  obtain ⟨k, m, body, hk, hopen, hbody, hclosed⟩ :=
    scan_closes_quotes hscan (List.mem_singleton.2 rfl)
  -- the text has a single marker
  have hfirst : k = 0 := by
    by_cases hbound : k < 20
    · have hsingle : ∀ k < 20, startsMarker (endInside.toList.drop k) = true → k = 0 := by
        decide +kernel
      exact hsingle k hbound hk
    · rw [List.drop_eq_nil_of_le (Nat.le_of_not_lt hbound)] at hk
      cases hk
  subst hfirst
  obtain rfl := Except.ok.inj (hread.symm.trans hopen.read)
  obtain ⟨harguments, hbodyClosed⟩ := hclosed (by decide +kernel)
  exact ⟨_, body, hread, hbody, rfl, harguments, hbodyClosed⟩

/-- A tag with a quoted value behind a wide blank. -/
def wideBlank : String := "<?# Meta\u00a0\"b /?>\" /?>"

/-- The search opens no value there.  The first `?>` ends the tag, inside the value that the
    reader of arguments has started, and the rest of the value is literal text. -/
theorem scan_cuts_quote :
    Marker.read wideBlank.toList = .ok ⟨.selfClosing, "Meta", "\u00a0\"b ", 15⟩ ∧
      Argument.allClosed "\u00a0\"b ".toList = false ∧
      Arguments.parse "\u00a0\"b " = ⟨[⟨none, "b "⟩]⟩ ∧
      scan (fun _ => false) wideBlank =
        .ok [.tag
          { name := "Meta"
            arguments := .parse "\u00a0\"b "
            content := ""
            selfClosing := true
            start := 0
            stop := 16
            line := 1 }, .literal "\" /?>"] := by
  have hseek : (Cursor.start wideBlank.toList).seek = some (.start wideBlank.toList) := rfl
  have hread : Marker.read wideBlank.toList =
      .ok ⟨.selfClosing, "Meta", "\u00a0\"b ", 15⟩ := rfl
  refine ⟨hread, ?_, by decide +kernel, scan_eq_ok_iff_derives.2 ?_⟩
  · rw [Argument.allClosed_eq_not_isQuoted]
    decide +kernel
  · exact ⟨_, ⟨_, .single hseek hread rfl .text, rfl⟩, rfl⟩

end TagExpander.Markup
