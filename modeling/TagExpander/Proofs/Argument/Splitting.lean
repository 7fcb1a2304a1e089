/-
  TagExpander.Proofs.Argument.Splitting — an argument text falls apart at its blanks.

  A blank outside quotes is a place to cut an argument text: what stands in front of it
  and what stands behind it are read as if each stood alone.

      k="a b" c=d        cut behind the closing mark:  k="a b"  and  c=d
      k="a b  c=d        not cut anywhere: the value is never closed

  A text without quotation marks is cut at every blank, so its arguments are its words, and
  a word is cut once more, at its first equals sign.  A quotation mark can open a value only
  where an argument starts or behind its key; so the quote in `don't` is no place to stop,
  but it is in `k='a b'`, and words say nothing about texts that have one.

  Main results:
    * `read_append`, `readAll_append` — the first argument, and all arguments, of a text
      with more text behind a blank.
    * `read_word`, `readAll_plain` — a word, and a text without quotation marks.
    * `parse_splits` — both for whole texts.
-/
import Mathlib.Data.List.TakeWhile
import TagExpander.Proofs.Argument.Reader

namespace TagExpander

namespace Argument

/-! ## §1. A run of characters stops at a blank. -/

/-- A blank is neither a quotation mark nor an equals sign, and it belongs to no word. -/
theorem of_isBlank {d : Char} (hd : Text.isBlank d = true) :
    isQuote d = false ∧ isKeyChar d = false ∧ isBare d = false ∧ d ≠ '=' := by
  refine ⟨?_, ?_, ?_, ?_⟩
  · rw [Bool.eq_false_iff]
    intro hquote
    rw [isQuote, Bool.or_eq_true, beq_iff_eq, beq_iff_eq] at hquote
    rcases hquote with rfl | rfl <;> cases hd
  · rw [isKeyChar, hd, Bool.not_true, Bool.and_false, Bool.false_and]
  · rw [isBare, hd, Bool.not_true]
  · rintro rfl
    cases hd

section Runs

variable {p : Char → Bool} {d : Char} (hd : p d = false) (cs more : List Char)
include hd

/-- A run of characters does not reach over a character that is not one of them. -/
theorem takeWhile_append_stop : (cs ++ d :: more).takeWhile p = cs.takeWhile p := by
  induction cs with
  | nil => exact List.takeWhile_cons_of_neg (by rw [hd]; exact Bool.false_ne_true)
  | cons c cs ih => rw [List.cons_append, List.takeWhile_cons, List.takeWhile_cons, ih]

theorem dropWhile_append_stop :
    (cs ++ d :: more).dropWhile p = cs.dropWhile p ++ d :: more := by
  induction cs with
  | nil => exact List.dropWhile_cons_of_neg (by rw [hd]; exact Bool.false_ne_true)
  | cons c cs ih =>
      rw [List.cons_append, List.dropWhile_cons, List.dropWhile_cons, ih]
      split <;> rfl

end Runs

section Runs

variable {p : Char → Bool} {run more : List Char}
  (hrun : ∀ c ∈ run, p c = true) (hmore : ∀ d ∈ more.head?, p d = false)
include hrun hmore

theorem takeWhile_append_run : (run ++ more).takeWhile p = run := by
  cases more with
  | nil => rw [List.append_nil, List.takeWhile_eq_self_iff.2 hrun]
  | cons d more => rw [takeWhile_append_stop (hmore d rfl), List.takeWhile_eq_self_iff.2 hrun]

theorem dropWhile_append_run : (run ++ more).dropWhile p = more := by
  cases more with
  | nil => rw [List.append_nil, List.dropWhile_eq_nil_iff.2 hrun]
  | cons d more =>
      rw [dropWhile_append_stop (hmore d rfl), List.dropWhile_eq_nil_iff.2 hrun, List.nil_append]

end Runs

/-! ## §2. Text behind a blank. -/

section Append

variable {d : Char} (hd : Text.isBlank d = true) (more : List Char)
include hd

/-- The value behind `key=` ends in front of the blank, if it is closed. -/
theorem readValue_append {cs : List Char} (h : closesValue cs = true) :
    readValue (cs ++ d :: more) = ((readValue cs).1, (readValue cs).2 ++ d :: more) := by
  obtain ⟨hquote, -, hbare, -⟩ := of_isBlank hd
  cases cs with
  | nil =>
      show readValue (d :: more) = ([], d :: more)
      rw [readValue, hquote, if_neg Bool.false_ne_true,
        List.takeWhile_cons_of_neg (by rw [hbare]; exact Bool.false_ne_true),
        List.dropWhile_cons_of_neg (by rw [hbare]; exact Bool.false_ne_true)]
  | cons c cs =>
      rw [closesValue, Bool.or_eq_true, Bool.not_eq_true'] at h
      rw [List.cons_append, readValue, readValue]
      by_cases hc : isQuote c = true
      · have hcloses : closes c cs = true := h.resolve_left (by rw [hc]; decide)
        rw [if_pos hc, if_pos hc, readQuoted_append_of_closes hc hcloses]
      · rw [if_neg hc, if_neg hc, ← List.cons_append, takeWhile_append_stop hbare,
          dropWhile_append_stop hbare]

/-- **The first argument ends in front of the blank**, whichever way it ends: at the closing
    mark of its value, behind its `=`, or where its word ends. -/
theorem read_append {c : Char} {cs : List Char} (h : closesFirst c cs = true) :
    read c (cs ++ d :: more) = ((read c cs).1, (read c cs).2 ++ d :: more) := by
  obtain ⟨-, hkeyChar, hbareChar, hequals⟩ := of_isBlank hd
  by_cases hc : isQuote c = true
  · rw [closesFirst, if_pos hc] at h
    rw [read, read, if_pos hc, if_pos hc, readQuoted_append_of_closes hc h]
  rw [Bool.not_eq_true] at hc
  by_cases hkey : isKeyChar c = true ∧ ∃ after, cs.dropWhile isKeyChar = '=' :: after
  · obtain ⟨hkey, after, hafter⟩ := hkey
    have hafter' : (cs ++ d :: more).dropWhile isKeyChar = '=' :: (after ++ d :: more) := by
      rw [dropWhile_append_stop hkeyChar, hafter, List.cons_append]
    rw [closesFirst_key hc hkey hafter] at h
    rw [read_of_key hc hkey hafter, read_of_key hc hkey hafter', readValue_append hd more h,
      takeWhile_append_stop hkeyChar]
  -- behind what is no key stands no `=`, and the blank is none
  · have hbare : isKeyChar c = true → ∀ after, cs.dropWhile isKeyChar ≠ '=' :: after :=
      fun h after hafter => hkey ⟨h, after, hafter⟩
    have hbare' : isKeyChar c = true →
        ∀ after, (cs ++ d :: more).dropWhile isKeyChar ≠ '=' :: after := by
      intro h after hafter
      rw [dropWhile_append_stop hkeyChar, List.append_eq_cons_iff] at hafter
      rcases hafter with ⟨-, hcons⟩ | ⟨front, hfront, -⟩
      · exact hequals (List.cons.inj hcons).1
      · exact hbare h front hfront
    rw [read_of_bare hc hbare, read_of_bare hc hbare', takeWhile_append_stop hbareChar,
      dropWhile_append_stop hbareChar]

/-- **An argument text is cut at a blank outside quotes**: the arguments in front of the blank
    and the arguments behind it are all arguments. -/
theorem readAll_append {cs : List Char} (h : allClosed cs = true) :
    readAll (cs ++ d :: more) = readAll cs ++ readAll more := by
  -- along the arguments in front of the blank
  fun_induction allClosed cs with
  | case1 cs htrim =>
      have hblank : Text.trimLeft (cs ++ d :: more) = Text.trimLeft more := by
        rw [Text.trimLeft, List.dropWhile_eq_nil_iff] at htrim
        rw [Text.trimLeft, List.dropWhile_append_of_pos htrim, List.dropWhile_cons_of_pos hd]
        rfl
      rw [readAll_of_nil htrim, List.nil_append, readAll_of_trimLeft hblank]
  | case2 cs c rest htrim ih =>
      rw [Bool.and_eq_true] at h
      have htrim' : Text.trimLeft (cs ++ d :: more) = c :: (rest ++ d :: more) := by
        rw [Text.trimLeft, List.dropWhile_append, ← Text.trimLeft, htrim]
        rfl
      rw [readAll_of_cons htrim, readAll_of_cons htrim', read_append hd more h.1, ih h.2,
        List.cons_append]

end Append

/-! ## §3. Words. -/

/-- The words of a text: what stands between its blanks. -/
def words (cs : List Char) : List (List Char) :=
  (cs.splitOnP Text.isBlank).filter fun word => !word.isEmpty

/-- The argument that a word is: the word is cut at its first `=`, unless it starts with it. -/
def ofWord (word : List Char) : Argument :=
  match word.takeWhile (· != '='), word.dropWhile (· != '=') with
  | c :: key, _ :: value => ⟨some (String.ofList (c :: key)), String.ofList value⟩
  | _, _ => ⟨none, String.ofList word⟩

theorem words_nil : words [] = [] := by
  rw [words, List.splitOnP_nil]
  rfl

theorem words_blank {d : Char} (hd : Text.isBlank d = true) (cs : List Char) :
    words (d :: cs) = words cs := by
  rw [words, List.splitOnP_cons_eq_if_modifyHead, if_pos hd, words]
  rfl

theorem words_trimLeft (cs : List Char) : words (Text.trimLeft cs) = words cs := by
  induction cs with
  | nil => rfl
  | cons c cs ih =>
      by_cases hc : Text.isBlank c = true
      · rw [words_blank hc, Text.trimLeft, List.dropWhile_cons_of_pos hc]
        exact ih
      · rw [Text.trimLeft, List.dropWhile_cons_of_neg hc]

/-- The first word ends at the first blank. -/
theorem words_append {c : Char} {word more : List Char}
    (hword : ∀ x ∈ c :: word, isBare x = true) (hmore : ∀ d ∈ more.head?, Text.isBlank d = true) :
    words (c :: word ++ more) = (c :: word) :: words more := by
  have hbare : ∀ x ∈ c :: word, Text.isBlank x = false := by
    intro x hx
    have hx := hword x hx
    rwa [isBare, Bool.not_eq_true'] at hx
  cases more with
  | nil =>
      rw [List.append_nil, words, List.splitOnP_eq_singleton hbare, words_nil]
      rfl
  | cons d more =>
      have hd : Text.isBlank d = true := hmore d rfl
      rw [words_blank hd, words, List.splitOnP_append_cons_of_forall_mem hbare d hd, words]
      rfl

/-! ## §4. Texts without quotation marks. -/

/-- A word that starts with `=`, or has none, is a value. -/
theorem ofWord_of_value {c : Char} {word : List Char} (h : c = '=' ∨ '=' ∉ c :: word) :
    ofWord (c :: word) = ⟨none, String.ofList (c :: word)⟩ := by
  rw [ofWord]
  split
  next key x value htake hdrop =>
    rcases h with rfl | hmem
    · cases htake
    -- the character behind the key is an `=` of the word
    · have hx : x = '=' := by
        have hne : (c :: word).dropWhile (· != '=') ≠ [] := by
          rw [hdrop]
          exact List.cons_ne_nil _ _
        simpa [hdrop] using List.head_dropWhile_not (· != '=') hne
      have hsub := List.dropWhile_subset (· != '=') (l := c :: word)
      rw [hdrop, hx] at hsub
      exact absurd (hsub List.mem_cons_self) hmem
  · rfl

/-- A word is cut at its first `=`. -/
theorem ofWord_of_key {c : Char} {key : List Char} (h : '=' ∉ c :: key) (value : List Char) :
    ofWord (c :: (key ++ '=' :: value)) =
      ⟨some (String.ofList (c :: key)), String.ofList value⟩ := by
  have hrun : ∀ x ∈ c :: key, (x != '=') = true := by
    intro x hx
    rw [bne_iff_ne]
    rintro rfl
    exact h hx
  have hstop : ∀ d ∈ ('=' :: value).head?, (d != '=') = false := by
    rintro d ⟨⟩
    rfl
  rw [ofWord, ← List.cons_append, takeWhile_append_run hrun hstop,
    dropWhile_append_run hrun hstop]

/-- A character of a word is one of a key, unless it is `=`. -/
theorem isKeyChar_of_word {x : Char} (hbare : isBare x = true) (hquote : isQuote x = false)
    (hne : x ≠ '=') : isKeyChar x = true := by
  rw [isBare, Bool.not_eq_true'] at hbare
  rw [isKeyChar, hbare, hquote, bne_iff_ne.2 hne]
  rfl

section Word

variable {c : Char} {word more : List Char}
  (hbare : ∀ x ∈ c :: word, isBare x = true) (hquote : ∀ x ∈ c :: word, isQuote x = false)
  (hmore : ∀ d ∈ more.head?, Text.isBlank d = true)

include hmore in
/-- Behind `key=`, the rest of the word is the value. -/
theorem readValue_word {value : List Char} (hbare : ∀ x ∈ value, isBare x = true)
    (hquote : ∀ x ∈ value, isQuote x = false) : readValue (value ++ more) = (value, more) := by
  have hstop : ∀ d ∈ more.head?, isBare d = false := fun d hd => (of_isBlank (hmore d hd)).2.2.1
  have hrun := takeWhile_append_run hbare hstop
  have hrest := dropWhile_append_run hbare hstop
  -- no quotation mark stands in front
  have hhead : ∀ x ∈ (value ++ more).head?, isQuote x = false := by
    cases value with
    | nil => exact fun d hd => (of_isBlank (hmore d hd)).1
    | cons y value =>
        rintro x ⟨⟩
        exact hquote y List.mem_cons_self
  cases htext : value ++ more with
  | nil =>
      rw [List.append_eq_nil_iff] at htext
      rw [htext.1, htext.2]
      rfl
  | cons x rest =>
      rw [htext] at hhead hrun hrest
      rw [readValue, hhead x rfl, if_neg Bool.false_ne_true, hrun, hrest]

include hbare hquote hmore in
/-- **A word without quotation marks is one argument**, cut at its first `=`. -/
theorem read_word : read c (word ++ more) = (ofWord (c :: word), more) := by
  have hc : isQuote c = false := hquote c List.mem_cons_self
  have hkeyRun : ∀ xs, xs ⊆ c :: word → '=' ∉ xs → ∀ x ∈ xs, isKeyChar x = true :=
    fun xs hsub hnot x hx =>
      isKeyChar_of_word (hbare x (hsub hx)) (hquote x (hsub hx)) fun h => hnot (h ▸ hx)
  by_cases hvalue : c = '=' ∨ '=' ∉ c :: word
  · have hnokey : isKeyChar c = true →
        ∀ after, (word ++ more).dropWhile isKeyChar ≠ '=' :: after := by
      intro hchar after hafter
      rcases hvalue with rfl | hnot
      · cases hchar
      -- the key would be all of the word, and what follows the word is a blank
      · have hrun := (List.forall_mem_cons.1 (hkeyRun _ (List.Subset.refl _) hnot)).2
        have hstop : ∀ d ∈ more.head?, isKeyChar d = false :=
          fun d hd => (of_isBlank (hmore d hd)).2.1
        rw [dropWhile_append_run hrun hstop] at hafter
        subst hafter
        exact absurd rfl (of_isBlank (hmore '=' rfl)).2.2.2
    have hrun := (List.forall_mem_cons.1 hbare).2
    have hstop : ∀ d ∈ more.head?, isBare d = false :=
      fun d hd => (of_isBlank (hmore d hd)).2.2.1
    rw [read_of_bare hc hnokey, takeWhile_append_run hrun hstop, dropWhile_append_run hrun hstop,
      ofWord_of_value hvalue]
  · rw [not_or, not_not] at hvalue
    have hmem : '=' ∈ word := (List.mem_cons.1 hvalue.2).resolve_left (Ne.symm hvalue.1)
    obtain ⟨key, value, rfl, hnot⟩ := List.eq_append_cons_of_mem hmem
    have hnot' : '=' ∉ c :: key := by
      rw [List.mem_cons, not_or]
      exact ⟨Ne.symm hvalue.1, hnot⟩
    -- the key ends at the first `=`, and the value behind it is the rest of the word
    have hrun := hkeyRun (c :: key) (List.subset_append_left (c :: key) _) hnot'
    have hstop : ∀ d ∈ ('=' :: (value ++ more)).head?, isKeyChar d = false := by
      rintro d ⟨⟩
      rfl
    have hsub : value ⊆ c :: (key ++ '=' :: value) := fun x hx =>
      List.mem_cons_of_mem _ (List.mem_append_right _ (List.mem_cons_of_mem _ hx))
    rw [List.append_assoc, List.cons_append,
      read_of_key hc (hrun c List.mem_cons_self)
        (dropWhile_append_run (List.forall_mem_cons.1 hrun).2 hstop),
      takeWhile_append_run (List.forall_mem_cons.1 hrun).2 hstop, ofWord_of_key hnot',
      readValue_word hmore (fun x hx => hbare x (hsub hx)) fun x hx => hquote x (hsub hx)]

end Word

/-- **The arguments of a text without quotation marks** are its words. -/
theorem readAll_plain {cs : List Char} (h : ∀ c ∈ cs, isQuote c = false) :
    readAll cs = (words cs).map ofWord := by
  fun_induction readAll cs with
  | case1 cs htrim =>
      rw [← words_trimLeft, htrim, words_nil]
      rfl
  | case2 cs c rest htrim ih =>
      have hquote : ∀ x ∈ c :: rest, isQuote x = false := by
        intro x hx
        rw [← htrim] at hx
        exact h x (List.dropWhile_subset Text.isBlank hx)
      rw [List.forall_mem_cons] at hquote
      -- the first word is what stands in front of the next blank
      have hc : isBare c = true := by
        rw [isBare, isBlank_of_trimLeft htrim]
        rfl
      have hbare : ∀ x ∈ c :: rest.takeWhile isBare, isBare x = true :=
        List.forall_mem_cons.2 ⟨hc, fun x hx => List.mem_takeWhile_imp hx⟩
      have hquote' : ∀ x ∈ c :: rest.takeWhile isBare, isQuote x = false :=
        List.forall_mem_cons.2
          ⟨hquote.1, fun x hx => hquote.2 x (List.takeWhile_subset isBare hx)⟩
      have hmore : ∀ d ∈ (rest.dropWhile isBare).head?, Text.isBlank d = true := by
        intro d hd
        have hstop := List.head?_dropWhile_not isBare rest
        simpa only [Option.mem_def.1 hd, isBare, Bool.not_eq_false'] using hstop
      have hread := read_word hbare hquote' hmore
      have hwords := words_append hbare hmore
      rw [List.takeWhile_append_dropWhile] at hread
      rw [List.cons_append, List.takeWhile_append_dropWhile, ← htrim, words_trimLeft] at hwords
      rw [hread] at ih ⊢
      rw [hwords, List.map_cons,
        ih fun x hx => hquote.2 x (List.dropWhile_subset isBare hx)]

end Argument

namespace Arguments

/-- **An argument text falls apart at its blanks.**  If every quoted value of a text is closed
    in it, so that the end of the text is outside quotes, then behind any blanks more text adds
    its own arguments to those of the text.  The arguments of a text without quotation marks
    are its words, each cut at its first `=` unless it starts with it. -/
theorem parse_splits :
    (∀ a blanks b : String, Argument.allClosed a.toList = true → blanks ≠ "" →
      Text.allBlank blanks.toList = true →
      parse (a ++ blanks ++ b) = ⟨(parse a).items ++ (parse b).items⟩) ∧
    ∀ text : String, (∀ c ∈ text.toList, Argument.isQuote c = false) →
      parse text = ⟨(Argument.words text.toList).map Argument.ofWord⟩ := by
  constructor
  · intro a blanks b hclosed hne hblank
    rw [Text.allBlank, List.all_eq_true] at hblank
    rw [parse, String.toList_append, String.toList_append, List.append_assoc]
    cases hblanks : blanks.toList with
    | nil => exact absurd (String.toList_eq_nil_iff.1 hblanks) hne
    | cons d ds =>
        rw [hblanks, List.forall_mem_cons] at hblank
        rw [List.cons_append, Argument.readAll_append hblank.1 _ hclosed,
          Argument.readAll_of_trimLeft (List.dropWhile_append_of_pos hblank.2)]
        rfl
  · intro text h
    rw [parse, Argument.readAll_plain h]

/-- A text with a quoted value behind its key is cut at a tab and a wide blank; a text without
    quotation marks has a word that starts with `=`. -/
theorem parse_splits_wide :
    parse ("don't k='a b'" ++ "\t\u3000" ++ "\"c=d\"e=f") =
      ⟨(parse "don't k='a b'").items ++ (parse "\"c=d\"e=f").items⟩ ∧
    parse " =a  k=b=c\u3000k= " = ⟨[⟨none, "=a"⟩, ⟨some "k", "b=c"⟩, ⟨some "k", ""⟩]⟩ := by
  constructor
  · refine parse_splits.1 _ _ _ ?_ (by decide) (by decide)
    rw [Argument.allClosed_eq_not_isQuoted]
    decide
  · rw [parse_splits.2 _ (Argument.forall_mem_of_any rfl)]
    decide

end Arguments

end TagExpander
