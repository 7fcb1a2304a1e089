/-
  TagExpander.Proofs.Argument.Writing — arguments that are written are read back.

  A value is written between two equal quotation marks, with a backslash in front of that
  mark and in front of each backslash; a key stands in front of it as it is:

      value  a "b" \        "a \"b\" \\"        k='a "b" \\'

  Written so, every argument says itself where it ends, whatever its value is: the blanks
  between two arguments, and the quotation mark of each, are free.  A key is a text that is
  not empty and has no blank, equals sign or quotation mark in it, and no other key is ever
  read.  So what was read from any text can be written, and read again.

  Main results:
    * `readQuoted_protect` — a value behind its opening mark.
    * `read_written`, `readAll_written` — one argument, and all of them.
    * `isKeyed_of_mem_readAll` — the keys that are read can be written.
    * `parse_written` — reading undoes writing.
-/
import TagExpander.Proofs.Argument.Reader

namespace TagExpander

namespace Argument

/-! ## §1. The text of an argument. -/

/-- A value between two quotation marks: a backslash stands in front of each backslash and
    of each of the marks. -/
def protect (q : Char) : List Char → List Char
  | [] => []
  | c :: cs => if c = '\\' ∨ c = q then '\\' :: c :: protect q cs else c :: protect q cs

/-- The text of an argument, with its value in these quotation marks. -/
def textIn (q : Char) (a : Argument) : List Char :=
  match a.key with
  | none => q :: (protect q a.value.toList ++ [q])
  | some key => key.toList ++ '=' :: q :: (protect q a.value.toList ++ [q])

/-- A key, if there is one, is not empty, and no blank, equals sign or quotation mark is in
    it. -/
def IsKeyed (a : Argument) : Prop :=
  ∀ key, a.key = some key → key ≠ "" ∧ key.toList.all isKeyChar = true

/-- How an argument is written: the blanks in front of it, and its quotation mark. -/
structure Style where
  blanks : List Char
  mark : Char
  allBlank : Text.allBlank blanks = true
  isQuote : isQuote mark = true

/-- The text of arguments, each in a style of its own. -/
def textOf : List (Style × Argument) → List Char
  | [] => []
  | (s, a) :: rest => s.blanks ++ (a.textIn s.mark ++ textOf rest)

/-! ## §2. What is written is read back. -/

section Mark

variable {q : Char} (hq : isQuote q = true)
include hq

/-- A value is read back, up to the quotation mark behind it. -/
theorem readQuoted_protect (cs rest : List Char) :
    readQuoted q (protect q cs ++ q :: rest) = (cs, rest) := by
  have hmark : q ≠ '\\' := by
    rintro rfl
    cases hq
  induction cs with
  | nil =>
      show readQuoted q (q :: rest) = _
      rw [readQuoted_cons hmark, beq_self_eq_true, if_pos rfl]
  | cons c cs ih =>
      by_cases hc : c = '\\' ∨ c = q
      -- the backslash is dropped, since it protects a backslash or the mark
      · have hkept : (c == q || c == '\\') = true := by
          rw [Bool.or_eq_true, beq_iff_eq, beq_iff_eq]
          exact hc.symm
        rw [protect, if_pos hc, List.cons_append, List.cons_append, readQuoted, ih]
        dsimp only
        rw [if_pos hkept]
      · rw [protect, if_neg hc, List.cons_append]
        rw [not_or] at hc
        rw [readQuoted_cons hc.1, ih, beq_eq_false_iff_ne.2 hc.2, if_neg Bool.false_ne_true]

/-- **An argument that is written is read back**, up to the text behind it; it starts with a
    character that is not blank. -/
theorem read_written {a : Argument} (ha : a.IsKeyed) :
    ∃ c cs, a.textIn q = c :: cs ∧ Text.isBlank c = false ∧
      ∀ rest, read c (cs ++ rest) = (a, rest) := by
  obtain ⟨key, value⟩ := a
  cases key with
  | none =>
      refine ⟨q, protect q value.toList ++ [q], rfl, ?_, fun rest => ?_⟩
      · rw [isQuote, Bool.or_eq_true, beq_iff_eq, beq_iff_eq] at hq
        rcases hq with rfl | rfl <;> rfl
      · rw [List.append_assoc, List.singleton_append, read, if_pos hq, readQuoted_protect hq]
        dsimp only
        rw [String.ofList_toList]
  | some key =>
      obtain ⟨hne, hchars⟩ := ha key rfl
      rw [List.all_eq_true] at hchars
      cases hkey : key.toList with
      | nil => exact absurd (String.toList_eq_nil_iff.1 hkey) hne
      | cons c cs =>
          rw [hkey, List.forall_mem_cons] at hchars
          obtain ⟨hblank, hquote⟩ := isKeyChar_eq_true hchars.1
          refine ⟨c, cs ++ '=' :: q :: (protect q value.toList ++ [q]), ?_, hblank,
            fun rest => ?_⟩
          · show key.toList ++ _ = _
            rw [hkey, List.cons_append]
          -- the key ends at its `=`, and the value starts with a quotation mark
          · have hdrop : ∀ more, (cs ++ '=' :: more).dropWhile isKeyChar = '=' :: more :=
              fun more => List.dropWhile_append_of_pos hchars.2
            have htake : ∀ more, (cs ++ '=' :: more).takeWhile isKeyChar = cs := fun more =>
              (List.takeWhile_append_of_pos hchars.2).trans (List.append_nil cs)
            rw [List.append_assoc, List.cons_append, List.cons_append, List.append_assoc,
              List.singleton_append, read_of_key hquote hchars.1 (hdrop _), htake, readValue,
              if_pos hq, readQuoted_protect hq, ← hkey, String.ofList_toList,
              String.ofList_toList]

end Mark

/-- Behind blanks, an argument that is written is read back, and what follows it is read on. -/
theorem readAll_style (s : Style) {a : Argument} (ha : a.IsKeyed) (rest : List Char) :
    readAll (s.blanks ++ (a.textIn s.mark ++ rest)) = a :: readAll rest := by
  obtain ⟨c, cs, htext, hblank, hread⟩ := read_written s.isQuote ha
  have htrim : Text.trimLeft (s.blanks ++ (a.textIn s.mark ++ rest)) = c :: (cs ++ rest) := by
    rw [Text.trimLeft, List.dropWhile_append_of_pos (List.all_eq_true.1 s.allBlank), htext,
      List.cons_append, List.dropWhile_cons_of_neg (by rw [hblank]; decide)]
  rw [readAll_of_cons htrim, hread]

/-- Arguments that are written are read back one by one. -/
theorem readAll_written {written : List (Style × Argument)} (h : ∀ w ∈ written, w.2.IsKeyed) :
    readAll (textOf written) = written.map Prod.snd := by
  induction written with
  | nil => exact readAll_of_nil rfl
  | cons w written ih =>
      rw [List.forall_mem_cons] at h
      rw [textOf, readAll_style w.1 h.1, ih h.2, List.map_cons]

/-! ## §3. What is read can be written. -/

/-- The key of the argument that is read, if there is one, is a run of characters of a key. -/
theorem isKeyed_read (c : Char) (cs : List Char) : (read c cs).1.IsKeyed := by
  intro key hkey
  rw [read] at hkey
  split at hkey
  · cases hkey
  · split at hkey
    next hc hafter =>
      cases hkey
      refine ⟨fun hempty => List.cons_ne_nil _ _ (String.ofList_eq_empty_iff.1 hempty), ?_⟩
      rw [String.toList_ofList, List.all_cons, hc, List.all_takeWhile]
      rfl
    · cases hkey

theorem isKeyed_of_mem_readAll {cs : List Char} {a : Argument} (h : a ∈ readAll cs) :
    a.IsKeyed := by
  fun_induction readAll cs with
  | case1 => cases h
  | case2 cs c rest htrim ih =>
      rcases List.mem_cons.1 h with rfl | h
      · exact isKeyed_read c rest
      · exact ih h

end Argument

namespace Arguments

/-- **Reading undoes writing.**  Arguments with any values, and keys that are not empty and have
    no blank, equals sign or quotation mark in them, are read back from the text in which each
    of them stands in quotation marks of either kind, behind any blanks.  The arguments of any
    text are of this form, and so, written in any of these ways, they are read back as the
    arguments of the text. -/
theorem parse_written :
    (∀ written : List (Argument.Style × Argument), (∀ w ∈ written, w.2.IsKeyed) →
      parse (String.ofList (Argument.textOf written)) = ⟨written.map Prod.snd⟩) ∧
    (∀ text : String, ∀ a ∈ (parse text).items, a.IsKeyed) ∧
    ∀ (text : String) (written : List (Argument.Style × Argument)),
      written.map Prod.snd = (parse text).items →
      parse (String.ofList (Argument.textOf written)) = parse text := by
  have hread : ∀ written : List (Argument.Style × Argument), (∀ w ∈ written, w.2.IsKeyed) →
      parse (String.ofList (Argument.textOf written)) = ⟨written.map Prod.snd⟩ := by
    intro written h
    rw [parse, String.toList_ofList, Argument.readAll_written h]
  have hkeyed : ∀ text : String, ∀ a ∈ (parse text).items, a.IsKeyed :=
    fun text a ha => Argument.isKeyed_of_mem_readAll ha
  refine ⟨hread, hkeyed, fun text written hsame => ?_⟩
  rw [hread written fun w hw => hkeyed text w.2 (hsame ▸ List.mem_map_of_mem hw), hsame]

/-- Values with quotation marks, backslashes, equals signs and blanks in them, and an empty
    one, in both quotation marks and behind different blanks. -/
theorem parse_written_both :
    parse "k='a=\"b\" \\'\\\\'\t\"\" \u3000\u00E9=\"\\\"'\\\\n\"" =
      ⟨[⟨some "k", "a=\"b\" '\\"⟩, ⟨none, ""⟩, ⟨some "\u00E9", "\"'\\n"⟩]⟩ :=
  parse_written.1
    [(⟨[], '\'', rfl, rfl⟩, ⟨some "k", "a=\"b\" '\\"⟩), (⟨['\t'], '"', rfl, rfl⟩, ⟨none, ""⟩),
      (⟨[' ', '\u3000'], '"', rfl, rfl⟩, ⟨some "\u00E9", "\"'\\n"⟩)]
    (by simp only [Argument.IsKeyed]; decide)

end Arguments

end TagExpander
