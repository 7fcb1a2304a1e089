/-
  TagExpander.Proofs.Argument.Caseless — the arguments of a text in lower case.

  The reader of arguments looks for blanks, quotation marks, backslashes and equals signs,
  which stand where they stand in the text.  So a text in lower case has the arguments of
  the text, in lower case.

  Main results:
    * `read_lower` — one argument.
    * `readAll_lower`, `parse_fold` — all arguments.
-/
import TagExpander.Proofs.Argument.Reader
import TagExpander.Proofs.Text.Caseless

namespace TagExpander

open Text (lower IgnoresCase ignoresCase_of_letters beq_toLower toLower_eq_iff)

/-! ## §1. Characters and values. -/

namespace Argument

/-- An argument in lower case. -/
def fold (a : Argument) : Argument :=
  ⟨a.key.map Text.fold, Text.fold a.value⟩

theorem isQuote_toLower : IgnoresCase isQuote :=
  ignoresCase_of_letters (by decide)

theorem isBare_toLower : IgnoresCase isBare :=
  ignoresCase_of_letters (by decide)

theorem isKeyChar_toLower : IgnoresCase isKeyChar :=
  ignoresCase_of_letters (by decide)

/-- A backslash is found where it stands in the text. -/
theorem toLower_beq_backslash (c : Char) : (c.toLower == '\\') = (c == '\\') :=
  beq_toLower (ignoresCase_of_letters (by decide)) c

/-- A quotation mark is found where it stands in the text. -/
theorem toLower_beq_quote {q : Char} (hq : isQuote q = true) (c : Char) :
    (c.toLower == q) = (c == q) := by
  rw [isQuote, Bool.or_eq_true, beq_iff_eq, beq_iff_eq] at hq
  rcases hq with rfl | rfl
  · exact beq_toLower (ignoresCase_of_letters (by decide)) c
  · exact beq_toLower (ignoresCase_of_letters (by decide)) c

/-- A quotation mark is its own lower-case form. -/
theorem toLower_of_isQuote {q : Char} (hq : isQuote q = true) : q.toLower = q := by
  rw [← beq_iff_eq, toLower_beq_quote hq, beq_iff_eq]

theorem readQuoted_lower {q : Char} (hq : isQuote q = true) (cs : List Char) :
    readQuoted q (lower cs) = (lower (readQuoted q cs).1, lower (readQuoted q cs).2) := by
  induction cs using quoted_induction with
  | nil => rfl
  | backslash =>
      show readQuoted q ['\\'] = _
      rw [readQuoted_backslash hq]
      rfl
  | escape c cs ih =>
      show readQuoted q ('\\' :: c.toLower :: lower cs) = _
      rw [readQuoted, readQuoted, ih]
      dsimp only
      rw [toLower_beq_quote hq, toLower_beq_backslash]
      split <;> rfl
  | plain c cs hc ih =>
      have hlower : c.toLower ≠ '\\' :=
        fun heq => hc ((toLower_eq_iff (ignoresCase_of_letters (by decide)) c).1 heq)
      rw [Text.lower_cons, readQuoted_cons hlower, readQuoted_cons hc, ih, toLower_beq_quote hq]
      split <;> rfl

theorem readValue_lower (cs : List Char) :
    readValue (lower cs) = (lower (readValue cs).1, lower (readValue cs).2) := by
  cases cs with
  | nil => rfl
  | cons c cs =>
      rw [Text.lower_cons, readValue, readValue, isQuote_toLower c]
      split
      next hc => rw [toLower_of_isQuote hc, readQuoted_lower hc]
      next =>
        rw [← Text.lower_cons, Text.takeWhile_lower isBare_toLower,
          Text.dropWhile_lower isBare_toLower]

/-! ## §2. Arguments. -/

/-- The argument that starts with a character, in lower case. -/
theorem read_lower (c : Char) (cs : List Char) :
    read c.toLower (lower cs) = ((read c cs).1.fold, lower (read c cs).2) := by
  cases hc : isQuote c with
  | true =>
      rw [toLower_of_isQuote hc, read, read, if_pos hc, if_pos hc, readQuoted_lower hc, fold,
        Text.fold_ofList]
      rfl
  | false =>
      -- the equals sign behind a key stands where it stands in the text
      have hc' : isQuote c.toLower = false := (isQuote_toLower c).trans hc
      by_cases hkey : isKeyChar c = true ∧ ∃ after, cs.dropWhile isKeyChar = '=' :: after
      · obtain ⟨hkey, after, hafter⟩ := hkey
        have hafter' : (lower cs).dropWhile isKeyChar = '=' :: lower after := by
          rw [Text.dropWhile_lower isKeyChar_toLower, hafter]
          rfl
        rw [read_of_key hc hkey hafter,
          read_of_key hc' ((isKeyChar_toLower c).trans hkey) hafter', readValue_lower,
          Text.takeWhile_lower isKeyChar_toLower, fold, Text.fold_ofList, Option.map_some,
          Text.fold_ofList]
        rfl
      · have hno : isKeyChar c = true → (cs.dropWhile isKeyChar).head? ≠ some '=' :=
          fun h h' => hkey ⟨h, List.head?_eq_some_iff.1 h'⟩
        have hno' : isKeyChar c.toLower = true →
            ((lower cs).dropWhile isKeyChar).head? ≠ some '=' := by
          rw [isKeyChar_toLower c, Text.dropWhile_lower isKeyChar_toLower, ne_eq,
            Text.head?_lower_eq_iff (ignoresCase_of_letters (by decide))]
          exact hno
        have hbare := fun h after hafter => hno h (List.head?_eq_some_iff.2 ⟨after, hafter⟩)
        have hbare' := fun h after hafter => hno' h (List.head?_eq_some_iff.2 ⟨after, hafter⟩)
        rw [read_of_bare hc hbare, read_of_bare hc' hbare', Text.takeWhile_lower isBare_toLower,
          Text.dropWhile_lower isBare_toLower, fold, Text.fold_ofList]
        rfl

/-- **The arguments of a text in lower case** are the arguments of the text in lower case. -/
theorem readAll_lower (cs : List Char) : readAll (lower cs) = (readAll cs).map fold := by
  fun_induction readAll cs with
  | case1 cs htrim =>
      refine readAll_of_nil ?_
      rw [Text.trimLeft_lower, htrim]
      rfl
  | case2 cs c rest htrim ih =>
      have htrim' : Text.trimLeft (lower cs) = c.toLower :: lower rest := by
        rw [Text.trimLeft_lower, htrim]
        rfl
      rw [readAll_of_cons htrim', read_lower, ih, List.map_cons]

end Argument

/-- Arguments in lower case. -/
def Arguments.fold (args : Arguments) : Arguments :=
  ⟨args.items.map Argument.fold⟩

theorem Arguments.parse_fold (text : String) : parse (Text.fold text) = (parse text).fold := by
  rw [parse, Text.toList_fold, Argument.readAll_lower]
  rfl

end TagExpander
