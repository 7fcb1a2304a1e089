/-
  TagExpander.Proofs.Markup.BareWords — tags whose arguments stand without quotation marks.

  An argument without blanks needs no quotation marks.  The search for the end of a marker
  passes such words, and what it finds behind them is the body of the marker.  Whether the
  marker is self-closing is then decided by the last character of the body that is not blank,
  and a word may end with that character as well:

      <?# Image a.png ?>…<?#/ Image ?>        a tag, with the argument `a.png`
      <?# Link docs/api/ ?>…<?#/ Link ?>      the slash of the word is taken for that of `/?>`:
                                              a self-closing tag with the argument `docs/api`,
                                              and behind its content a stray closing marker

  Main results:
    * `terminator_words` — the search for the end of a marker with words.
    * `Marker.role_eq_selfClosing_iff` — which markers are self-closing.
    * `scan_bareWords` — tags with words for their arguments.
-/
import TagExpander.Proofs.Markup.Absorption
import TagExpander.Proofs.Markup.Enclosing

namespace TagExpander.Markup

/-! ## §1. Words. -/

/-- An argument without quotation marks: not empty, and no blank or quotation mark is in it, and
    no marker starts or ends in it. -/
structure BareWord where
  text : String
  nonempty : text ≠ ""
  blank : ∀ c ∈ text.toList, Text.isBlank c = false
  quote : ∀ c ∈ text.toList, Argument.isQuote c = false
  noStart : ¬markerStart <:+: text.toList
  noEnd : ¬markerEnd <:+: text.toList

/-- Words, with a space between any two of them. -/
def wordsText (words : List BareWord) : String :=
  " ".intercalate (words.map BareWord.text)

/-- An opening marker with words for its arguments, and a space in front of its end. -/
def openingOf (name : TagName) (words : List BareWord) : String :=
  "<?# " ++ name.text ++ " " ++ wordsText words ++ " ?>"

/-- The closing marker. -/
def closingOf (name : TagName) : String :=
  "<?#/ " ++ name.text ++ " ?>"

theorem toList_closingOf (name : TagName) : (closingOf name).toList = closingText name := by
  rw [closingOf, String.toList_append, String.toList_append, List.append_assoc]
  rfl

/-- The marker, with the text behind its name up to its end. -/
theorem toList_openingOf (name : TagName) (words : List BareWord) :
    (openingOf name words).toList = markerStart ++ ' ' ::
      (name.text.toList ++ (' ' :: ((wordsText words).toList ++ [' ']) ++ markerEnd)) := by
  rw [openingOf, String.toList_append, String.toList_append, String.toList_append,
    String.toList_append, List.append_assoc, List.append_assoc, List.append_assoc]
  show _ = markerStart ++ ' ' :: (_ ++ ' ' :: ((wordsText words).toList ++ [' '] ++ markerEnd))
  rw [List.append_assoc]
  rfl

theorem toList_wordsText_singleton (w : BareWord) :
    (wordsText [w]).toList = w.text.toList :=
  congrArg String.toList String.intercalate_singleton

theorem toList_wordsText_cons (w : BareWord) {words : List BareWord} (h : words ≠ []) :
    (wordsText (w :: words)).toList = w.text.toList ++ ' ' :: (wordsText words).toList := by
  have hmap : words.map BareWord.text ≠ [] := fun hnil => h (List.map_eq_nil_iff.1 hnil)
  rw [wordsText, List.map_cons, String.intercalate_cons_of_ne_nil hmap, String.toList_append,
    String.toList_append, List.append_assoc]
  rfl

/-- The text of words ends with a character that is not blank. -/
theorem wordsText_eq_append {words : List BareWord} (h : words ≠ []) :
    ∃ front c, (wordsText words).toList = front ++ [c] ∧ Text.isBlank c = false := by
  induction words with
  | nil => exact absurd rfl h
  | cons w words ih =>
      by_cases hwords : words = []
      · subst hwords
        rw [toList_wordsText_singleton]
        rcases List.eq_nil_or_concat' w.text.toList with hnil | ⟨front, c, hlast⟩
        · exact absurd (String.toList_eq_nil_iff.1 hnil) w.nonempty
        · refine ⟨front, c, hlast, w.blank c ?_⟩
          rw [hlast]
          exact List.mem_concat_self
      · obtain ⟨front, c, hlast, hc⟩ := ih hwords
        refine ⟨w.text.toList ++ ' ' :: front, c, ?_, hc⟩
        rw [toList_wordsText_cons w hwords, hlast, List.append_assoc, List.cons_append]

/-! ## §2. The search for the end of the marker. -/

/-- The search passes a word in front of a blank. -/
theorem terminatorFrom_word (w : BareWord) (previous : Char) (n : Nat) (rest : List Char) :
    terminatorFrom (.outside previous) n (w.text.toList ++ ' ' :: rest) =
      terminatorFrom (.outside ' ') (n + w.text.toList.length + 1) rest := by
  obtain ⟨last, hlast⟩ :=
    terminatorFrom_run (y := ' ') (by decide) w.quote w.noStart w.noEnd previous n rest
  rw [hlast]
  exact terminatorFrom_outside rfl rfl rfl

/-- The search passes words. -/
theorem terminatorFrom_words {words : List BareWord} (h : words ≠ []) (previous : Char) (n : Nat)
    (rest : List Char) :
    terminatorFrom (.outside previous) n ((wordsText words).toList ++ ' ' :: rest) =
      terminatorFrom (.outside ' ') (n + (wordsText words).toList.length + 1) rest := by
  induction words generalizing previous n with
  | nil => exact absurd rfl h
  | cons w words ih =>
      by_cases hwords : words = []
      · subst hwords
        rw [toList_wordsText_singleton]
        exact terminatorFrom_word w previous n rest
      · rw [toList_wordsText_cons w hwords, List.append_assoc, List.cons_append,
          terminatorFrom_word, ih hwords, List.length_append, List.length_cons]
        congr 1
        omega

/-- **The end of the marker is found behind its words**, and the blank behind them. -/
theorem terminator_words {words : List BareWord} (h : words ≠ []) (rest : List Char) :
    terminator (' ' :: ((wordsText words).toList ++ [' ']) ++ (markerEnd ++ rest)) =
      some (' ' :: ((wordsText words).toList ++ [' '])).length := by
  rw [terminator, List.cons_append, List.append_assoc, terminatorFrom_outside rfl rfl rfl,
    List.singleton_append, terminatorFrom_words h, List.length_cons, List.length_append,
    List.length_singleton]
  show some (0 + 1 + _ + 1) = some (_ + 1 + 1)
  congr 1
  omega

/-! ## §3. The end of the body. -/

namespace Marker

/-- A slash at the end of the body, in front of the blanks there, is taken off. -/
theorem splitBody_blank {front : List Char} {c : Char} (hc : Text.isBlank c = false) :
    splitBody (front ++ [c, ' ']) =
      if c = '/' then (.selfClosing, front) else (.opening, front ++ [c]) := by
  have hdrop : (front ++ [c, ' ']).reverse.dropWhile Text.isBlank = c :: front.reverse := by
    rw [List.reverse_append]
    show (c :: front.reverse).dropWhile Text.isBlank = _
    rw [List.dropWhile_cons_of_neg (by rw [hc]; exact Bool.false_ne_true)]
  rw [splitBody, hdrop]
  split
  next heq =>
    cases heq
    rw [if_pos rfl, List.reverse_reverse]
  next hne =>
    rw [if_neg, List.reverse_cons, List.reverse_reverse]
    rintro rfl
    exact hne _ rfl

/-- A body makes its marker self-closing exactly if a slash, and perhaps blanks behind it, stand
    at its end. -/
theorem splitBody_selfClosing_iff {body : List Char} :
    (splitBody body).1 = .selfClosing ↔
      ∃ front blanks, body = front ++ '/' :: blanks ∧ Text.allBlank blanks = true := by
  constructor
  · intro h
    have hbody : body = (body.reverse.dropWhile Text.isBlank).reverse ++
        (body.reverse.takeWhile Text.isBlank).reverse := by
      rw [← List.reverse_append, List.takeWhile_append_dropWhile, List.reverse_reverse]
    have hblank : Text.allBlank (body.reverse.takeWhile Text.isBlank).reverse = true := by
      rw [Text.allBlank, List.all_reverse, List.all_takeWhile]
    rw [splitBody] at h
    split at h
    next front hfront =>
      rw [hfront, List.reverse_cons, List.append_assoc] at hbody
      exact ⟨front.reverse, _, hbody, hblank⟩
    next => cases h
  · intro h
    obtain ⟨front, blanks, rfl, hblanks⟩ := h
    have hdrop : (front ++ '/' :: blanks).reverse.dropWhile Text.isBlank =
        '/' :: front.reverse := by
      rw [List.reverse_append, List.reverse_cons, List.append_assoc,
        List.dropWhile_append_of_pos fun c hc =>
          List.all_eq_true.1 hblanks c (List.mem_reverse.1 hc)]
      rfl
    rw [splitBody, hdrop]
    rfl

/-- Blanks behind a slash, at the end of what stands in a marker, stand behind its name. -/
theorem suffix_body {lead name body front blanks : List Char} (hne : name ≠ [])
    (hname : ∀ c ∈ name, isNameChar c = true) (hblanks : Text.allBlank blanks = true)
    (h : lead ++ (name ++ body) = front ++ '/' :: blanks) : '/' :: blanks <:+ body := by
  have hbody : body <:+ lead ++ (name ++ body) := ⟨lead ++ name, by rw [List.append_assoc]⟩
  have hslash : '/' :: blanks <:+ lead ++ (name ++ body) := ⟨front, h.symm⟩
  rcases List.suffix_or_suffix_of_suffix hslash hbody with hsuffix | ⟨before, hbefore⟩
  · exact hsuffix
  rcases List.eq_nil_or_concat' before with rfl | ⟨before, c, rfl⟩
  · exact ⟨[], hbefore.symm⟩
  -- otherwise the name ends among the slash and the blanks, which are no characters of a name
  · obtain ⟨name, x, rfl⟩ := (List.eq_nil_or_concat' name).resolve_left hne
    rw [← hbefore] at h
    simp only [← List.append_assoc] at h
    obtain ⟨-, hlast⟩ := List.append_inj' (List.append_cancel_right h) rfl
    cases hlast
    have hchar := hname c List.mem_concat_self
    have hmem : c ∈ '/' :: blanks := by
      rw [← hbefore]
      exact List.mem_append_left _ List.mem_concat_self
    rcases List.mem_cons.1 hmem with rfl | hblank
    · cases hchar
    · have hisBlank := List.all_eq_true.1 hblanks c hblank
      cases (isBlank_of_isNameChar hchar).symm.trans hisBlank

/-- **A marker is self-closing** exactly if a slash stands in front of its end, with nothing but
    blanks between the two. -/
theorem role_eq_selfClosing_iff {cs : List Char} {m : Marker} (hs : startsMarker cs = true)
    (h : read cs = .ok m) :
    m.role = .selfClosing ↔ ∃ front blanks,
      cs.take m.length = front ++ '/' :: (blanks ++ markerEnd) ∧ Text.allBlank blanks = true := by
  obtain ⟨lead, body, hparts, hrole⟩ := exists_parts hs h
  constructor
  · intro hsingle
    rw [hsingle] at hrole
    rcases hrole with ⟨⟨⟩, -⟩ | hbody
    obtain ⟨front, blanks, rfl, hblanks⟩ := splitBody_selfClosing_iff.1 hbody.symm
    refine ⟨lead ++ (m.name.toList ++ front), blanks, ?_, hblanks⟩
    rw [hparts.text, List.append_assoc, List.append_assoc, List.append_assoc, List.cons_append]
  · intro hslash
    obtain ⟨front, blanks, htext, hblanks⟩ := hslash
    rw [hparts.text, ← List.cons_append, ← List.append_assoc, ← List.append_assoc,
      ← List.append_assoc, List.append_cancel_right_eq, List.append_assoc] at htext
    have hne : m.name.toList ≠ [] :=
      fun hnil => (name_of_read h).2 (String.toList_eq_nil_iff.1 hnil)
    obtain ⟨behind, rfl⟩ := suffix_body hne hparts.name hblanks htext
    rcases hrole with ⟨-, hblank⟩ | hrole
    · have hmem := List.all_eq_true.1 hblank '/' (List.mem_append_right _ List.mem_cons_self)
      cases hmem
    · exact hrole.trans (splitBody_selfClosing_iff.2 ⟨behind, blanks, rfl, hblanks⟩)

end Marker

/-! ## §4. Tags with words for their arguments. -/

/-- The marker is spelled by its text. -/
theorem spells_openingOf (name : TagName) {words : List BareWord} (h : words ≠ []) :
    Marker.Spells
      ⟨(Marker.splitBody (' ' :: ((wordsText words).toList ++ [' ']))).1, name.text,
        String.ofList (Marker.splitBody (' ' :: ((wordsText words).toList ++ [' ']))).2,
        (openingOf name words).toList.length⟩
      (openingOf name words).toList where
  starts := by
    rw [toList_openingOf]
    rfl
  read := by
    have hread := readNamed_name false 3 name rfl (terminator_words h [])
    rw [List.append_nil] at hread
    rw [toList_openingOf]
    have hlength : 3 + 1 + name.text.toList.length +
        (' ' :: ((wordsText words).toList ++ [' '])).length + 2 =
          (markerStart ++ ' ' :: (name.text.toList ++
            (' ' :: ((wordsText words).toList ++ [' ']) ++ markerEnd))).length := by
      simp only [markerStart, markerEnd, List.length_append, List.length_cons, List.length_nil]
      omega
    rw [← hlength]
    exact hread
  length := rfl

/-- So is the closing marker, without quotation marks. -/
theorem spells_closingOf (name : TagName) :
    Marker.Spells ⟨.closing, name.text, "", (closingText name).length⟩ (closingText name) where
  starts := rfl
  read := by
    have hread := read_closing name []
    rwa [List.append_nil] at hread
  length := rfl

theorem not_isQuote_closingText (name : TagName) :
    ∀ c ∈ closingText name, Argument.isQuote c = false := by
  have hname : ∀ c ∈ name.text.toList, Argument.isQuote c = false := by
    intro c hc
    have hchar := name.isNameChar_of_mem c hc
    simp only [isNameChar, Bool.and_eq_true, Bool.not_eq_true'] at hchar
    exact hchar.2
  have hstart : ∀ c ∈ markerStart ++ ['/', ' '], Argument.isQuote c = false :=
    Argument.forall_mem_of_any rfl
  have hend : ∀ c ∈ ' ' :: markerEnd, Argument.isQuote c = false :=
    Argument.forall_mem_of_any rfl
  intro c hc
  have hc' : c ∈ markerStart ++ ['/', ' '] ++ (name.text.toList ++ ' ' :: markerEnd) := hc
  rcases List.mem_append.1 hc' with hc' | hc'
  · exact hstart c hc'
  · rcases List.mem_append.1 hc' with hc' | hc'
    · exact hname c hc'
    · exact hend c hc'

section Tags

variable {name : TagName} {words : List BareWord} {isRaw : String → Bool} {inner : String}
  {spans : List Span} (hne : words ≠ []) (hraw : isRaw name.text = false)
  (hinner : scan isRaw inner = .ok spans)

omit hne hinner in
theorem ofList_between (name : TagName) (words : List BareWord) (inner : String) :
    openingOf name words ++ inner ++ closingOf name =
      String.ofList ((openingOf name words).toList ++ (inner.toList ++ closingText name)) := by
  rw [← toList_closingOf, ← List.append_assoc, ← String.toList_append, ← String.toList_append,
    String.ofList_toList]

include hne in
/-- What the body of the opening marker is split into is decided by its last word. -/
theorem splitBody_words :
    ∃ front c, (wordsText words).toList.getLast? = some c ∧
      (wordsText words).toList = front ++ [c] ∧
      Marker.splitBody (' ' :: ((wordsText words).toList ++ [' '])) =
        if c = '/' then (.selfClosing, ' ' :: front) else (.opening, ' ' :: (front ++ [c])) := by
  obtain ⟨front, c, htext, hc⟩ := wordsText_eq_append hne
  refine ⟨front, c, by rw [htext, List.getLast?_concat], htext, ?_⟩
  have hsplit : Marker.splitBody ((' ' :: front) ++ [c, ' ']) = _ := Marker.splitBody_blank hc
  rw [htext, List.append_assoc]
  exact hsplit

include hne hinner

include hraw in
/-- A tag whose last word does not end with a slash. -/
theorem scan_words (hlast : (wordsText words).toList.getLast? ≠ some '/') :
    scan isRaw (openingOf name words ++ inner ++ closingOf name) =
      .ok [.tag
        { name := name.text
          arguments := .parse (wordsText words)
          content := inner
          selfClosing := false
          start := 0
          stop := Text.bytes (openingOf name words ++ inner ++ closingOf name).toList
          line := 1 }] := by
  obtain ⟨front, c, hc, htext, hsplit⟩ := splitBody_words hne
  have hslash : c ≠ '/' := by
    rintro rfl
    exact hlast hc
  have hm := spells_openingOf name hne
  rw [hsplit, if_neg hslash, ← htext] at hm
  rw [← String.ofList_toList (s := inner)] at hinner
  have hscan := scan_between hm hinner (spells_closingOf name) rfl (not_isQuote_closingText name)
    rfl hraw (Text.same_refl _)
  -- the blank in front of the words belongs to no argument
  have harguments : Arguments.parse (String.ofList (' ' :: (wordsText words).toList)) =
      .parse (wordsText words) := by
    rw [Arguments.parse, Arguments.parse, String.toList_ofList,
      Argument.readAll_of_trimLeft (List.dropWhile_cons_of_pos rfl)]
  rw [ofList_between, String.toList_ofList, hscan, harguments, String.ofList_toList]

/-- The slash at the end of the last word is taken for that of a self-closing marker. -/
theorem scan_words_slash (hlast : (wordsText words).toList.getLast? = some '/') :
    scan isRaw (openingOf name words ++ inner ++ closingOf name) =
      .error ⟨name.text, Text.newlines (openingOf name words ++ inner).toList + 1,
        Text.bytes (openingOf name words ++ inner).toList, .strayCloser⟩ := by
  obtain ⟨front, c, hc, htext, hsplit⟩ := splitBody_words hne
  obtain rfl : c = '/' := Option.some.inj (hc.symm.trans hlast)
  have hm := spells_openingOf name hne
  rw [hsplit, if_pos rfl] at hm
  rw [← String.ofList_toList (s := inner)] at hinner
  have hscan := scan_between_single hm hinner (spells_closingOf name) rfl
    (not_isQuote_closingText name) rfl
  rw [ofList_between, hscan, String.toList_append]

end Tags

/-- **Tags with words for their arguments.**  Between an opening marker with words in it, one
    space between any two of them and in front of its end, and the closing marker of its name,
    a text that scans is the content of a tag, and the words are its arguments, unless the last
    word ends with a slash: then the opening marker is read as a self-closing one, and the
    closing marker is stray.  For a marker is self-closing exactly if a slash stands in front of
    its end, and blanks may stand between the two. -/
theorem scan_bareWords (isRaw : String → Bool) :
    (∀ (name : TagName) (words : List BareWord) (inner : String) (spans : List Span),
      isRaw name.text = false → words ≠ [] → scan isRaw inner = .ok spans →
      ((wordsText words).toList.getLast? ≠ some '/' →
        scan isRaw (openingOf name words ++ inner ++ closingOf name) =
          .ok [.tag
            { name := name.text
              arguments := .parse (wordsText words)
              content := inner
              selfClosing := false
              start := 0
              stop := Text.bytes (openingOf name words ++ inner ++ closingOf name).toList
              line := 1 }]) ∧
      ((wordsText words).toList.getLast? = some '/' →
        scan isRaw (openingOf name words ++ inner ++ closingOf name) =
          .error ⟨name.text, Text.newlines (openingOf name words ++ inner).toList + 1,
            Text.bytes (openingOf name words ++ inner).toList, .strayCloser⟩)) ∧
    ∀ (cs : List Char) (m : Marker), startsMarker cs = true → Marker.read cs = .ok m →
      (m.role = .selfClosing ↔ ∃ front blanks,
        cs.take m.length = front ++ '/' :: (blanks ++ markerEnd) ∧
          Text.allBlank blanks = true) :=
  ⟨fun _ _ _ _ hraw hne hinner =>
    ⟨scan_words hne hraw hinner, scan_words_slash hne hinner⟩,
    fun _ _ hs h => Marker.role_eq_selfClosing_iff hs h⟩

/-- Behind a word that ends with a slash, the content of the tag is left without its tag. -/
theorem scan_trailingSlash :
    scan (fun _ => false) "y" = .ok [.literal "y"] ∧
      scan (fun _ => false) "<?# A x/ ?>y<?#/ A ?>" = .error ⟨"A", 1, 12, .strayCloser⟩ := by
  constructor
  · exact scan_of_not_containsMarker _ (by decide +kernel)
  · have hsingle : (Walk.start "<?# A x/ ?>y<?#/ A ?>".toList).Meets (.start _)
        ⟨.selfClosing, "A", " x", 11⟩ := ⟨rfl, rfl⟩
    have hclosing (found : Found) :
        Walk.Meets ⟨(Cursor.start "<?# A x/ ?>y<?#/ A ?>".toList).skip 11, [], found⟩
          ((Cursor.start "<?# A x/ ?>y<?#/ A ?>".toList).skip 12) ⟨.closing, "A", "", 9⟩ :=
      ⟨rfl, rfl⟩
    rw [← Walk.outcome_start, (Walk.Step.single hsingle rfl).outcome_eq]
    exact (Walk.Fails.stray (hclosing _) rfl rfl).outcome_eq

/-- A name, and arguments with slashes, equals signs and question marks. -/
def link : TagName := ⟨"Link", by decide, by decide⟩

def linkWords : List BareWord :=
  [⟨"docs/a=b", by decide, Argument.forall_mem_of_any rfl, Argument.forall_mem_of_any rfl,
      by decide +kernel, by decide +kernel⟩,
    ⟨"c=/?", by decide, Argument.forall_mem_of_any rfl, Argument.forall_mem_of_any rfl,
      by decide +kernel, by decide +kernel⟩]

/-- A raw tag with a `<?#` in it that reads as no marker. -/
def rawInside : String := "é <?# Raw ?><?# \"<?#/ raw ?>"

theorem scan_bareWords_link :
    (Text.same link.text "RAW" = false ∧ linkWords ≠ [] ∧
        (wordsText linkWords).toList.getLast? ≠ some '/') ∧
      scan (Text.same · "RAW") (openingOf link linkWords ++ rawInside ++ closingOf link) =
        .ok [.tag
          { name := "Link"
            arguments := .parse "docs/a=b c=/?"
            content := rawInside
            selfClosing := false
            start := 0
            stop := 66
            line := 1 }] := by
  have hread : Marker.read (rawInside.toList.drop 2) = .ok ⟨.opening, "Raw", "", 10⟩ := rfl
  have hisRaw : Text.same "Raw" "RAW" = true := by decide +kernel
  have hclose : rawCloser "Raw" ((Cursor.start rawInside.toList).skip 12) =
      some ((Cursor.start rawInside.toList).skip 17,
        (Cursor.start rawInside.toList).skip 28) := by
    decide +kernel
  have hinner : scan (Text.same · "RAW") rawInside = .ok _ :=
    scan_eq_ok_iff_derives.2 ⟨_, ⟨_, .raw rfl hread rfl hisRaw hclose .text, rfl⟩, rfl⟩
  have hraw : Text.same link.text "RAW" = false := by decide +kernel
  have hne : linkWords ≠ [] := by decide
  have hlast : (wordsText linkWords).toList.getLast? ≠ some '/' := by decide +kernel
  have hscan := ((scan_bareWords (Text.same · "RAW")).1 link linkWords rawInside _ hraw hne
    hinner).1 hlast
  have hwords : wordsText linkWords = "docs/a=b c=/?" := by decide +kernel
  have hstop :
      Text.bytes (openingOf link linkWords ++ rawInside ++ closingOf link).toList = 66 := by
    decide +kernel
  rw [hwords, hstop] at hscan
  exact ⟨⟨hraw, hne, hlast⟩, hscan⟩

end TagExpander.Markup
