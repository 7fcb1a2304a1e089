/-
  TagExpander.Proofs.Markup.Writing — markers that are written are read back.

      <?# Name key="value" "value" /?>       <?# Name key="value" ?>       <?#/ Name ?>

  A blank stands in front of every argument, and every value stands in double quotes,
  with a backslash in front of each backslash and each double quote of it.  Two readers
  go over the arguments, the search for the end of the marker and the reader of values,
  and they leave every value at the same place.

  Main results:
    * `terminatorFrom_arguments`, `readAll_arguments` — the two readers, over any
      arguments.
    * `read_single`, `read_opening`, `read_closing` — a written marker is read as what
      it is, whatever text follows.
-/
import TagExpander.Markup.Marker
import TagExpander.Proofs.Argument.Writing

namespace TagExpander.Markup

/-! ## §1. Names, keys and arguments that can be written. -/

/-- The characters at the start of a marker. -/
def markerStart : List Char := ['<', '?', '#']

/-- The characters at the end of a marker. -/
def markerEnd : List Char := ['?', '>']

/-- A name of a tag: no blank, `?`, `/` or quotation mark is in it. -/
structure TagName where
  text : String
  nonempty : text ≠ ""
  chars : text.toList.all isNameChar = true

/-- A key of an argument: no blank, `=` or quotation mark is in it, and no marker starts
    or ends in it. -/
structure Key where
  text : String
  nonempty : text ≠ ""
  chars : text.toList.all Argument.isKeyChar = true
  noStart : ¬markerStart <:+: text.toList
  noEnd : ¬markerEnd <:+: text.toList

/-- An argument to be written; its value is any text. -/
structure Written where
  key : Option Key
  value : String

/-- The argument itself. -/
def Written.argument (a : Written) : Argument :=
  ⟨a.key.map Key.text, a.value⟩

/-- Puts a backslash in front of each backslash and each double quote. -/
def escape : List Char → List Char
  | [] => []
  | c :: cs => if c = '\\' ∨ c = '"' then '\\' :: c :: escape cs else c :: escape cs

/-- A value behind its opening double quote. -/
def quoteBody (value : String) : List Char :=
  escape value.toList ++ ['"']

/-- The text of an argument. -/
def Written.text (a : Written) : List Char :=
  match a.key with
  | none => '"' :: quoteBody a.value
  | some key => key.text.toList ++ '=' :: '"' :: quoteBody a.value

/-- The text of arguments, with a blank in front of each. -/
def argumentsText : List Written → List Char
  | [] => []
  | a :: as => ' ' :: (a.text ++ argumentsText as)

theorem TagName.isNameChar_of_mem (name : TagName) :
    ∀ c ∈ name.text.toList, isNameChar c = true :=
  List.all_eq_true.1 name.chars

theorem Key.isKeyChar_of_mem (key : Key) :
    ∀ c ∈ key.text.toList, Argument.isKeyChar c = true :=
  List.all_eq_true.1 key.chars

/-! ## §2. The starts and ends of markers. -/

theorem startsMarker_iff {cs : List Char} : startsMarker cs = true ↔ markerStart <+: cs := by
  constructor
  · intro h
    unfold startsMarker at h
    split at h
    next rest => exact ⟨rest, rfl⟩
    · cases h
  · intro h
    obtain ⟨rest, rfl⟩ := h
    rfl

theorem endsMarker_iff {cs : List Char} : endsMarker cs = true ↔ markerEnd <+: cs := by
  constructor
  · intro h
    unfold endsMarker at h
    split at h
    next rest => exact ⟨rest, rfl⟩
    · cases h
  · intro h
    obtain ⟨rest, rfl⟩ := h
    rfl

/-- A pattern does not reach over a character that is in it only in front. -/
theorem prefix_of_prefix_append {pattern xs ys : List Char} {x y : Char}
    (hy : y ∉ pattern.tail) (h : pattern <+: x :: xs ++ y :: ys) : pattern <+: x :: xs := by
  obtain ⟨tail, htail⟩ := h
  rcases List.append_eq_append_iff.1 htail with ⟨more, hxs, -⟩ | ⟨more, hpattern, hys⟩
  · exact ⟨more, hxs.symm⟩
  -- otherwise the pattern would go on behind the text, with `y`
  · cases more with
    | nil =>
        rw [List.append_nil] at hpattern
        subst hpattern
        exact List.prefix_refl _
    | cons z more =>
        cases hys
        rw [hpattern] at hy
        exact absurd (List.mem_append_right xs List.mem_cons_self) hy

/-- No marker starts in a text without `<?#`, whatever follows the text. -/
theorem startsMarker_eq_false {xs ys : List Char} {x y : Char} (hy : y ∉ ['?', '#'])
    (h : ¬markerStart <:+: x :: xs) : startsMarker (x :: (xs ++ y :: ys)) = false := by
  rw [Bool.eq_false_iff]
  intro hstarts
  exact h (prefix_of_prefix_append hy (startsMarker_iff.1 hstarts)).isInfix

/-- No marker ends in a text without `?>`, whatever follows the text. -/
theorem endsMarker_eq_false {xs ys : List Char} {x y : Char} (hy : y ∉ ['>'])
    (h : ¬markerEnd <:+: x :: xs) : endsMarker (x :: (xs ++ y :: ys)) = false := by
  rw [Bool.eq_false_iff]
  intro hends
  exact h (prefix_of_prefix_append hy (endsMarker_iff.1 hends)).isInfix

/-! ## §3. The search for the end of a marker. -/

/-- Outside quotes, a character that ends, starts and opens nothing is passed. -/
theorem terminatorFrom_outside {previous c : Char} {cs : List Char} {n : Nat}
    (hend : endsMarker (c :: cs) = false) (hstart : startsMarker (c :: cs) = false)
    (hquote : Argument.isQuote c = false) :
    terminatorFrom (.outside previous) n (c :: cs) = terminatorFrom (.outside c) (n + 1) cs := by
  rw [terminatorFrom, hend, hstart, Quoting.next, hquote]
  rfl

/-- Behind a blank or `=`, a double quote opens a value. -/
theorem terminatorFrom_quote {previous : Char} {cs : List Char} {n : Nat}
    (h : opensValue previous = true) :
    terminatorFrom (.outside previous) n ('"' :: cs) =
      terminatorFrom (.inside '"') (n + 1) cs := by
  have hnext : Quoting.next '"' (.outside previous) = .inside '"' := by
    rw [Quoting.next, h]
    rfl
  rw [terminatorFrom, hnext]
  rfl

/-- The search passes an escaped value and the double quote behind it. -/
theorem terminatorFrom_escape (cs rest : List Char) (n : Nat) :
    terminatorFrom (.inside '"') n (escape cs ++ '"' :: rest) =
      terminatorFrom (.outside '"') (n + (escape cs).length + 1) rest := by
  induction cs generalizing n with
  | nil => rfl
  | cons c cs ih =>
      by_cases hc : c = '\\' ∨ c = '"'
      · rw [escape, if_pos hc]
        -- the backslash, and the character that it protects
        show terminatorFrom (.inside '"') (n + 1 + 1) (escape cs ++ '"' :: rest) = _
        rw [ih, List.length_cons, List.length_cons]
        congr 1
        omega
      -- any other character, a quotation mark `'` included, stays inside
      · rw [escape, if_neg hc]
        rw [not_or] at hc
        have hnext : Quoting.next c (.inside '"') = .inside '"' := by
          rw [Quoting.next, if_neg (by simpa using hc.1), if_neg (by simpa using hc.2)]
        show terminatorFrom (Quoting.next c (.inside '"')) (n + 1) (escape cs ++ '"' :: rest) = _
        rw [hnext, ih, List.length_cons]
        congr 1
        omega

/-- The search passes a run of characters that ends, starts and opens nothing, not even with
    the character behind it. -/
theorem terminatorFrom_run {run : List Char} {y : Char} (hy : y ∉ ['?', '#', '>'])
    (hquotes : ∀ c ∈ run, Argument.isQuote c = false) (hstart : ¬markerStart <:+: run)
    (hend : ¬markerEnd <:+: run) (previous : Char) (n : Nat) (rest : List Char) :
    ∃ last, terminatorFrom (.outside previous) n (run ++ y :: rest) =
      terminatorFrom (.outside last) (n + run.length) (y :: rest) := by
  induction run generalizing previous n with
  | nil => exact ⟨previous, rfl⟩
  | cons c run ih =>
      rw [List.forall_mem_cons] at hquotes
      obtain ⟨last, hlast⟩ := ih hquotes.2 (fun h => hstart (List.infix_cons h))
        (fun h => hend (List.infix_cons h)) c (n + 1)
      have hyStart : y ∉ ['?', '#'] := fun h => hy (List.mem_append_left ['>'] h)
      have hyEnd : y ∉ ['>'] := fun h => hy (List.mem_append_right ['?', '#'] h)
      refine ⟨last, ?_⟩
      rw [List.cons_append, terminatorFrom_outside (endsMarker_eq_false hyEnd hend)
        (startsMarker_eq_false hyStart hstart) hquotes.1, hlast, List.length_cons]
      congr 1
      omega

/-- The search passes a key and the `=` behind it. -/
theorem terminatorFrom_key {key : List Char} (hchars : ∀ c ∈ key, Argument.isKeyChar c = true)
    (hstart : ¬markerStart <:+: key) (hend : ¬markerEnd <:+: key) (previous : Char)
    (n : Nat) (rest : List Char) :
    terminatorFrom (.outside previous) n (key ++ '=' :: rest) =
      terminatorFrom (.outside '=') (n + key.length + 1) rest := by
  have hquotes : ∀ c ∈ key, Argument.isQuote c = false :=
    fun c hc => (Argument.isKeyChar_eq_true (hchars c hc)).2
  obtain ⟨last, hlast⟩ :=
    terminatorFrom_run (y := '=') (by decide) hquotes hstart hend previous n rest
  rw [hlast]
  exact terminatorFrom_outside rfl rfl rfl

/-- The search passes an argument and stands behind its last double quote. -/
theorem terminatorFrom_argument (a : Written) (n : Nat) (rest : List Char) :
    terminatorFrom (.outside ' ') n (a.text ++ rest) =
      terminatorFrom (.outside '"') (n + a.text.length) rest := by
  obtain ⟨key, value⟩ := a
  cases key with
  | none =>
      show terminatorFrom (.outside ' ') n ('"' :: (escape value.toList ++ ['"'] ++ rest)) = _
      rw [terminatorFrom_quote rfl, List.append_assoc]
      show terminatorFrom (.inside '"') (n + 1) (escape value.toList ++ '"' :: rest) = _
      rw [terminatorFrom_escape]
      congr 1
      show _ = n + ((escape value.toList ++ ['"']).length + 1)
      rw [List.length_append, List.length_singleton]
      omega
  | some key =>
      show terminatorFrom (.outside ' ') n
        (key.text.toList ++ '=' :: '"' :: (escape value.toList ++ ['"']) ++ rest) = _
      rw [List.append_assoc, List.cons_append, List.cons_append, List.append_assoc,
        terminatorFrom_key key.isKeyChar_of_mem key.noStart key.noEnd, terminatorFrom_quote rfl]
      show terminatorFrom (.inside '"') _ (escape value.toList ++ '"' :: rest) = _
      rw [terminatorFrom_escape]
      congr 1
      show _ = n + (key.text.toList ++ '=' :: '"' :: (escape value.toList ++ ['"'])).length
      rw [List.length_append, List.length_cons, List.length_cons, List.length_append,
        List.length_singleton]
      omega

/-- The search passes all arguments, outside quotes. -/
theorem terminatorFrom_arguments (as : List Written) (previous : Char) (n : Nat) :
    ∃ last, ∀ rest,
      terminatorFrom (.outside previous) n (argumentsText as ++ rest) =
        terminatorFrom (.outside last) (n + (argumentsText as).length) rest := by
  induction as generalizing previous n with
  | nil => exact ⟨previous, fun rest => rfl⟩
  | cons a as ih =>
      obtain ⟨last, hlast⟩ := ih '"' (n + 1 + a.text.length)
      refine ⟨last, fun rest => ?_⟩
      rw [argumentsText, List.cons_append, List.append_assoc,
        terminatorFrom_outside rfl rfl rfl, terminatorFrom_argument, hlast, List.length_cons,
        List.length_append]
      congr 1
      omega

/-- Behind the arguments, the search goes on to the end of the marker. -/
theorem terminator_arguments (as : List Written) {behind rest : List Char}
    (h : ∀ last n, terminatorFrom (.outside last) n (behind ++ rest) = some (n + behind.length)) :
    terminator (argumentsText as ++ behind ++ rest) = some (argumentsText as ++ behind).length := by
  obtain ⟨last, hlast⟩ := terminatorFrom_arguments as ' ' 0
  rw [terminator, List.append_assoc, hlast, h, List.length_append, Nat.zero_add]

/-! ## §4. The reader of arguments. -/

theorem escape_eq_protect (cs : List Char) : escape cs = Argument.protect '"' cs := by
  induction cs with
  | nil => rfl
  | cons c cs ih => rw [escape, Argument.protect, ih]

/-- What is written is the argument, in double quotes. -/
theorem Written.text_eq (a : Written) : a.text = a.argument.textIn '"' := by
  obtain ⟨key, value⟩ := a
  cases key with
  | none =>
      show '"' :: (escape value.toList ++ ['"']) = _
      rw [escape_eq_protect]
      rfl
  | some key =>
      show key.text.toList ++ '=' :: '"' :: (escape value.toList ++ ['"']) = _
      rw [escape_eq_protect]
      rfl

theorem Written.isKeyed (a : Written) : a.argument.IsKeyed := by
  obtain ⟨key, value⟩ := a
  cases key with
  | none => exact nofun
  | some key =>
      rintro _ ⟨⟩
      exact ⟨key.nonempty, key.chars⟩

/-- The arguments of a text are read back, if nothing but blanks follows. -/
theorem readAll_arguments (as : List Written) {rest : List Char}
    (hrest : Text.trimLeft rest = []) :
    Argument.readAll (argumentsText as ++ rest) = as.map Written.argument := by
  induction as with
  | nil => exact Argument.readAll_of_nil hrest
  | cons a as ih =>
      have hread := Argument.readAll_style ⟨[' '], '"', rfl, rfl⟩ a.isKeyed
        (argumentsText as ++ rest)
      rw [argumentsText, List.cons_append, List.append_assoc, a.text_eq, List.map_cons, ← ih]
      exact hread

/-! ## §5. Whole markers. -/

/-- The text of a self-closing marker. -/
def singleText (name : TagName) (as : List Written) : List Char :=
  markerStart ++ ' ' :: (name.text.toList ++ (argumentsText as ++ ' ' :: '/' :: markerEnd))

/-- The text of an opening marker. -/
def openingText (name : TagName) (as : List Written) : List Char :=
  markerStart ++ ' ' :: (name.text.toList ++ (argumentsText as ++ ' ' :: markerEnd))

/-- The text of a closing marker. -/
def closingText (name : TagName) : List Char :=
  markerStart ++ '/' :: ' ' :: (name.text.toList ++ ' ' :: markerEnd)

/-- The characters of a name are not blank. -/
theorem isBlank_of_isNameChar {c : Char} (h : isNameChar c = true) : Text.isBlank c = false := by
  unfold isNameChar at h
  simp only [Bool.and_eq_true, Bool.not_eq_true'] at h
  exact h.1.1.1

theorem TagName.toList_eq_cons (name : TagName) :
    ∃ c cs, name.text.toList = c :: cs ∧ Text.isBlank c = false := by
  cases hname : name.text.toList with
  | nil => exact absurd (String.toList_eq_nil_iff.1 hname) name.nonempty
  | cons c cs =>
      refine ⟨c, cs, rfl, isBlank_of_isNameChar (name.isNameChar_of_mem c ?_)⟩
      rw [hname]
      exact List.mem_cons_self

/-- A name is read up to the body of its marker, which starts with a blank, and the body
    is read up to the end that the search finds. -/
theorem readNamed_name (closing : Bool) (before : Nat) (name : TagName)
    {body more rest : List Char} (hbody : body = ' ' :: more)
    (hend : terminator (body ++ rest) = some body.length) :
    Marker.readNamed closing before (' ' :: (name.text.toList ++ (body ++ rest))) =
      let length := before + 1 + name.text.toList.length + body.length + 2
      if closing then
        if Text.allBlank body then .ok ⟨.closing, name.text, "", length⟩
        else .error (name.text, .closerWithArguments)
      else
        .ok ⟨(Marker.splitBody body).1, name.text, String.ofList (Marker.splitBody body).2,
          length⟩ := by
  obtain ⟨c, cs, hname, hc⟩ := name.toList_eq_cons
  have hblanks : (' ' :: (name.text.toList ++ (body ++ rest))).takeWhile Text.isBlank =
      [' '] := by
    rw [hname]
    show ' ' :: (c :: (cs ++ (body ++ rest))).takeWhile Text.isBlank = _
    rw [List.takeWhile_cons_of_neg (by rw [hc]; decide)]
  have htrim : Text.trimLeft (' ' :: (name.text.toList ++ (body ++ rest))) =
      name.text.toList ++ (body ++ rest) := by
    rw [hname]
    show (c :: (cs ++ (body ++ rest))).dropWhile Text.isBlank = _
    rw [List.dropWhile_cons_of_neg (by rw [hc]; decide)]
    rfl
  have htake : (name.text.toList ++ (body ++ rest)).takeWhile isNameChar =
      name.text.toList := by
    rw [List.takeWhile_append_of_pos name.isNameChar_of_mem, hbody]
    exact List.append_nil _
  have hdrop : (name.text.toList ++ (body ++ rest)).dropWhile isNameChar = body ++ rest := by
    rw [List.dropWhile_append_of_pos name.isNameChar_of_mem, hbody]
    rfl
  -- what is read is the name, so it is not empty
  have hnonempty : name.text.isEmpty = false := by
    rw [Bool.eq_false_iff]
    intro hempty
    exact name.nonempty (String.isEmpty_iff.1 hempty)
  have hcut : (body ++ rest).take body.length = body := List.take_left' rfl
  rw [Marker.readNamed, hblanks, htrim, htake, hdrop, String.ofList_toList]
  simp only [hnonempty, hend, hcut]
  rfl

theorem argumentsText_append_blank (as : List Written) (cs : List Char) :
    ∃ more, argumentsText as ++ ' ' :: cs = ' ' :: more := by
  cases as with
  | nil => exact ⟨cs, rfl⟩
  | cons a as => exact ⟨a.text ++ argumentsText as ++ ' ' :: cs, rfl⟩

/-- Arguments that are written end with a double quote. -/
theorem argumentsText_eq_nil_or (as : List Written) :
    argumentsText as = [] ∨ ∃ front, argumentsText as = front ++ ['"'] := by
  induction as with
  | nil => exact .inl rfl
  | cons a as ih =>
      right
      rcases ih with hnil | ⟨front, hfront⟩
      · obtain ⟨key, value⟩ := a
        rw [argumentsText, hnil, List.append_nil]
        cases key with
        | none => exact ⟨' ' :: '"' :: escape value.toList, rfl⟩
        | some key =>
            refine ⟨' ' :: (key.text.toList ++ '=' :: '"' :: escape value.toList), ?_⟩
            show ' ' :: (key.text.toList ++ '=' :: '"' :: (escape value.toList ++ ['"'])) = _
            rw [List.cons_append, List.append_assoc, List.cons_append, List.cons_append]
      · refine ⟨' ' :: (a.text ++ front), ?_⟩
        rw [argumentsText, hfront, List.cons_append, List.append_assoc]

/-- A blank and a slash behind the arguments make a marker self-closing. -/
theorem splitBody_single (as : List Written) :
    Marker.splitBody (argumentsText as ++ [' ', '/']) =
      (.selfClosing, argumentsText as ++ [' ']) := by
  have hreverse : (argumentsText as ++ [' ', '/']).reverse =
      '/' :: (argumentsText as ++ [' ']).reverse := by
    rw [List.reverse_append, List.reverse_append]
    rfl
  rw [Marker.splitBody, hreverse]
  show (Role.selfClosing, (argumentsText as ++ [' ']).reverse.reverse) = _
  rw [List.reverse_reverse]

/-- Only a blank behind the arguments leaves a marker opening, without the blank. -/
theorem splitBody_opening (as : List Written) :
    Marker.splitBody (argumentsText as ++ [' ']) = (.opening, argumentsText as) := by
  rw [Marker.splitBody, List.reverse_append]
  rcases argumentsText_eq_nil_or as with hnil | ⟨front, hfront⟩
  · rw [hnil]
    rfl
  -- the last character is a double quote: neither a blank nor a slash
  · rw [hfront, List.reverse_append]
    show (Role.opening, ('"' :: front.reverse).reverse) = _
    rw [List.reverse_cons, List.reverse_reverse]

/-- A self-closing marker is read back. -/
theorem read_single (name : TagName) (as : List Written) (rest : List Char) :
    Marker.read (singleText name as ++ rest) =
      .ok ⟨.selfClosing, name.text, String.ofList (argumentsText as ++ [' ']),
        (singleText name as).length⟩ := by
  obtain ⟨more, hmore⟩ := argumentsText_append_blank as ['/']
  have hend : terminator (argumentsText as ++ [' ', '/'] ++ (markerEnd ++ rest)) =
      some (argumentsText as ++ [' ', '/']).length :=
    terminator_arguments as fun _ _ => rfl
  have htext : singleText name as ++ rest = markerStart ++ ' ' ::
      (name.text.toList ++ (argumentsText as ++ [' ', '/'] ++ (markerEnd ++ rest))) := by
    simp only [singleText, List.append_assoc, List.cons_append, List.nil_append]
  rw [htext]
  show Marker.readNamed false 3 _ = _
  rw [readNamed_name false 3 name hmore hend, splitBody_single]
  have hlength : 3 + 1 + name.text.toList.length + (argumentsText as ++ [' ', '/']).length + 2 =
      (singleText name as).length := by
    simp only [singleText, markerStart, markerEnd, List.length_append, List.length_cons,
      List.length_nil]
    omega
  rw [hlength]
  rfl

/-- An opening marker is read back. -/
theorem read_opening (name : TagName) (as : List Written) (rest : List Char) :
    Marker.read (openingText name as ++ rest) =
      .ok ⟨.opening, name.text, String.ofList (argumentsText as),
        (openingText name as).length⟩ := by
  obtain ⟨more, hmore⟩ := argumentsText_append_blank as []
  have hend : terminator (argumentsText as ++ [' '] ++ (markerEnd ++ rest)) =
      some (argumentsText as ++ [' ']).length :=
    terminator_arguments as fun _ _ => rfl
  have htext : openingText name as ++ rest = markerStart ++ ' ' ::
      (name.text.toList ++ (argumentsText as ++ [' '] ++ (markerEnd ++ rest))) := by
    simp only [openingText, List.append_assoc, List.cons_append, List.nil_append]
  rw [htext]
  show Marker.readNamed false 3 _ = _
  rw [readNamed_name false 3 name hmore hend, splitBody_opening]
  have hlength : 3 + 1 + name.text.toList.length + (argumentsText as ++ [' ']).length + 2 =
      (openingText name as).length := by
    simp only [openingText, markerStart, markerEnd, List.length_append, List.length_cons,
      List.length_nil]
    omega
  rw [hlength]
  rfl

/-- A closing marker is read back. -/
theorem read_closing (name : TagName) (rest : List Char) :
    Marker.read (closingText name ++ rest) =
      .ok ⟨.closing, name.text, "", (closingText name).length⟩ := by
  have htext : closingText name ++ rest = markerStart ++ '/' :: ' ' ::
      (name.text.toList ++ ([' '] ++ (markerEnd ++ rest))) := by
    simp only [closingText, List.append_assoc, List.cons_append, List.nil_append]
  rw [htext]
  show Marker.readNamed true 4 _ = _
  rw [readNamed_name true 4 name rfl rfl]
  have hlength : 4 + 1 + name.text.toList.length + [' '].length + 2 =
      (closingText name).length := by
    simp only [closingText, markerStart, markerEnd, List.length_append, List.length_cons,
      List.length_nil]
    omega
  rw [hlength]
  rfl

end TagExpander.Markup
