/-
  TagExpander.Proofs.Argument.Reader — the reader of arguments, case by case.

  One equation per branch of the reader, so that what is proved of it need not open it, and
  the question whether the quoted values of a text are closed, which decides whether what
  follows the text belongs to its last argument:

      "a b" k='c'        closed: the end of the text is outside quotes
      "a b" k='c         not closed: what follows goes on with the value

  The reader goes from argument to argument.  `Reading` is the same reader as a machine that
  goes from character to character.

  Main results:
    * `closes_iff` — a quoted value is closed exactly if what follows the text does not
      belong to it.
    * `allClosed_eq_not_isQuoted` — the reader of arguments, one character at a time.
-/
import TagExpander.Argument.Basic

namespace TagExpander.Argument

/-! ## §1. The branches of the reader. -/

/-- The characters of a key are not blank, and no quotation marks. -/
theorem isKeyChar_eq_true {c : Char} (h : isKeyChar c = true) :
    Text.isBlank c = false ∧ isQuote c = false := by
  unfold isKeyChar at h
  simp only [Bool.and_eq_true, Bool.not_eq_true'] at h
  exact ⟨h.1.2, h.2⟩

/-- A text is gone through to see that no character of it has a property. -/
theorem forall_mem_of_any {p : Char → Bool} {cs : List Char} (h : cs.any p = false) :
    ∀ c ∈ cs, p c = false :=
  fun c hc => Bool.eq_false_iff.2 (List.any_eq_false.1 h c hc)

section Quoted

variable {q c : Char} {cs : List Char}

theorem beq_backslash (hq : isQuote q = true) : ('\\' == q) = false := by
  rw [beq_eq_false_iff_ne]
  rintro rfl
  cases hq

theorem readQuoted_cons (hc : c ≠ '\\') :
    readQuoted q (c :: cs) =
      if c == q then ([], cs) else (c :: (readQuoted q cs).1, (readQuoted q cs).2) := by
  rw [readQuoted]
  rintro c' cs' ⟨⟩
  exact absurd rfl hc

theorem readQuoted_escaped (q c : Char) (cs : List Char) :
    (readQuoted q ('\\' :: c :: cs)).2 = (readQuoted q cs).2 := by
  rw [readQuoted]
  dsimp only
  split <;> rfl

theorem readQuoted_backslash (hq : isQuote q = true) :
    readQuoted q ['\\'] = (['\\'], []) := by
  rw [readQuoted, beq_backslash hq]
  · rfl
  · exact fun c cs _ hcons => List.cons_ne_nil c cs hcons.symm

end Quoted

section First

variable {c : Char} {cs after : List Char} (hc : isQuote c = false)
include hc

/-- An argument with a key. -/
theorem read_of_key (hkey : isKeyChar c = true) (h : cs.dropWhile isKeyChar = '=' :: after) :
    read c cs = (⟨some (String.ofList (c :: cs.takeWhile isKeyChar)),
      String.ofList (readValue after).1⟩, (readValue after).2) := by
  rw [read, hc, if_neg Bool.false_ne_true, hkey, h]
  rfl

/-- An unquoted value. -/
theorem read_of_bare
    (h : isKeyChar c = true → ∀ after, cs.dropWhile isKeyChar ≠ '=' :: after) :
    read c cs = (⟨none, String.ofList (c :: cs.takeWhile isBare)⟩, cs.dropWhile isBare) := by
  rw [read, hc, if_neg Bool.false_ne_true]
  split
  next hkey hafter => exact absurd hafter (h hkey _)
  · rfl

end First

/-- An argument starts with a character that is not blank. -/
theorem isBlank_of_trimLeft {c : Char} {cs rest : List Char} (h : Text.trimLeft cs = c :: rest) :
    Text.isBlank c = false := by
  have hdrop := List.head?_dropWhile_not Text.isBlank cs
  rw [Text.trimLeft] at h
  simpa only [h, List.head?_cons] using hdrop

theorem readAll_of_nil {cs : List Char} (h : Text.trimLeft cs = []) : readAll cs = [] := by
  rw [readAll]
  split
  · rfl
  next h' => cases h.symm.trans h'

theorem readAll_of_cons {c : Char} {cs rest : List Char} (h : Text.trimLeft cs = c :: rest) :
    readAll cs = (read c rest).1 :: readAll (read c rest).2 := by
  rw [readAll]
  split
  next h' => cases h.symm.trans h'
  next h' =>
    cases h.symm.trans h'
    rfl

/-- Blanks in front of a text say nothing. -/
theorem readAll_of_trimLeft {cs cs' : List Char} (h : Text.trimLeft cs = Text.trimLeft cs') :
    readAll cs = readAll cs' := by
  cases htrim : Text.trimLeft cs' with
  | nil => rw [readAll_of_nil htrim, readAll_of_nil (h.trans htrim)]
  | cons c rest => rw [readAll_of_cons htrim, readAll_of_cons (h.trans htrim)]

/-! ## §2. Values that are closed. -/

/-- Is the value that the mark `q` has opened closed in the text? -/
def closes (q : Char) : List Char → Bool
  | [] => false
  | '\\' :: _ :: cs => closes q cs
  | c :: cs => c == q || closes q cs

/-- Is the value behind `key=` closed, if it is quoted? -/
def closesValue : List Char → Bool
  | [] => true
  | c :: cs => !isQuote c || closes c cs

/-- Is the value of the argument that starts with the character `c` closed, if it is
    quoted? -/
def closesFirst (c : Char) (cs : List Char) : Bool :=
  if isQuote c then closes c cs
  else
    match isKeyChar c, cs.dropWhile isKeyChar with
    | true, '=' :: after => closesValue after
    | _, _ => true

/-- Are all quoted values of a text closed? -/
def allClosed (cs : List Char) : Bool :=
  match _h : Text.trimLeft cs with
  | [] => true
  | c :: rest => closesFirst c rest && allClosed (read c rest).2
termination_by cs.length
decreasing_by
  have hread := length_read_le c rest
  have htrim := Text.length_trimLeft_le cs
  simp only [_h, List.length_cons] at htrim
  omega

/-- A quoted value is read one character at a time, or two if the first is a backslash. -/
@[elab_as_elim]
theorem quoted_induction {P : List Char → Prop} (nil : P []) (backslash : P ['\\'])
    (escape : ∀ c cs, P cs → P ('\\' :: c :: cs))
    (plain : ∀ c cs, c ≠ '\\' → P cs → P (c :: cs)) (cs : List Char) : P cs := by
  fun_induction closes ' ' cs with
  | case1 => exact nil
  | case2 c cs ih => exact escape c cs ih
  | case3 c cs hescape ih =>
      by_cases hc : c = '\\'
      · cases cs with
        | nil =>
            rw [hc]
            exact backslash
        | cons c' cs => exact absurd rfl (hescape c' cs hc)
      · exact plain c cs hc ih

section Quoted

variable {q c : Char} {cs : List Char}

theorem closes_cons (hc : c ≠ '\\') : closes q (c :: cs) = (c == q || closes q cs) := by
  rw [closes]
  rintro c' cs' ⟨⟩
  exact absurd rfl hc

/-- A value that is closed ends where it is closed, whatever follows. -/
theorem readQuoted_append_of_closes (hq : isQuote q = true) (h : closes q cs = true)
    (more : List Char) :
    readQuoted q (cs ++ more) = ((readQuoted q cs).1, (readQuoted q cs).2 ++ more) := by
  induction cs using quoted_induction with
  | nil => cases h
  | backslash =>
      rw [closes, beq_backslash hq] at h
      · cases h
      · exact nofun
  | escape c cs ih =>
      rw [List.cons_append, List.cons_append, readQuoted, readQuoted, ih h]
      dsimp only
      split <;> rfl
  | plain c cs hc ih =>
      rw [closes_cons hc, Bool.or_eq_true] at h
      rw [List.cons_append, readQuoted_cons hc, readQuoted_cons hc]
      split
      · rfl
      next hne => rw [ih (h.resolve_left hne)]

theorem beq_blank (hq : isQuote q = true) : (' ' == q) = false := by
  rw [beq_eq_false_iff_ne]
  rintro rfl
  cases hq

/-- A blank behind a value that is not closed belongs to the value. -/
theorem readQuoted_append_of_not_closes (hq : isQuote q = true) (h : closes q cs = false) :
    (readQuoted q (cs ++ [' '])).2 = [] := by
  induction cs using quoted_induction with
  | nil =>
      rw [List.nil_append, readQuoted_cons (by decide), beq_blank hq]
      rfl
  | backslash => exact readQuoted_escaped q ' ' []
  | escape c cs ih =>
      rw [List.cons_append, List.cons_append, readQuoted_escaped]
      exact ih h
  | plain c cs hc ih =>
      rw [closes_cons hc, Bool.or_eq_false_iff] at h
      rw [List.cons_append, readQuoted_cons hc, h.1]
      exact ih h.2

/-- **A value is closed** exactly if what follows the text does not belong to it. -/
theorem closes_iff (hq : isQuote q = true) :
    closes q cs = true ↔ ∀ more,
      readQuoted q (cs ++ more) = ((readQuoted q cs).1, (readQuoted q cs).2 ++ more) := by
  refine ⟨readQuoted_append_of_closes hq, fun h => ?_⟩
  rw [← Bool.not_eq_false]
  intro hopen
  -- a blank would belong to the value
  have hrest := readQuoted_append_of_not_closes hq hopen
  rw [h] at hrest
  exact absurd hrest (List.append_ne_nil_of_right_ne_nil _ (List.cons_ne_nil _ _))

end Quoted

section First

variable {c : Char} {cs after : List Char} (hc : isQuote c = false)
include hc

theorem closesFirst_key (hkey : isKeyChar c = true) (h : cs.dropWhile isKeyChar = '=' :: after) :
    closesFirst c cs = closesValue after := by
  rw [closesFirst, hc, if_neg Bool.false_ne_true, hkey, h]
  rfl

theorem closesFirst_bare
    (h : isKeyChar c = true → ∀ after, cs.dropWhile isKeyChar ≠ '=' :: after) :
    closesFirst c cs = true := by
  rw [closesFirst, hc, if_neg Bool.false_ne_true]
  split
  next hkey hafter => exact absurd hafter (h hkey _)
  · rfl

end First

/-! ## §3. The reader, one character at a time. -/

/-- How a character of an argument text is read. -/
inductive Reading where
  /-- In front of an argument. -/
  | between
  /-- Behind characters of a key, as far as one can tell. -/
  | key
  /-- Behind the `=` of a key. -/
  | value
  /-- Inside an unquoted value. -/
  | bare
  /-- Inside a value quoted by the mark. -/
  | quoted (mark : Char)
  /-- There, behind a backslash. -/
  | escaped (mark : Char)
deriving DecidableEq

namespace Reading

/-- How to read on behind the character `c`. -/
def next (c : Char) : Reading → Reading
  | .between =>
    if Text.isBlank c then .between
    else if isQuote c then .quoted c
    else if isKeyChar c then .key else .bare
  | .key =>
    if c == '=' then .value
    else if isKeyChar c then .key
    else if Text.isBlank c then .between else .bare
  | .value =>
    if isQuote c then .quoted c else if Text.isBlank c then .between else .bare
  | .bare => if Text.isBlank c then .between else .bare
  | .quoted mark =>
    if c == '\\' then .escaped mark else if c == mark then .between else .quoted mark
  | .escaped mark => .quoted mark

/-- How to read on behind a text. -/
def behind (r : Reading) (cs : List Char) : Reading :=
  cs.foldl (fun r c => r.next c) r

/-- Is it inside a quoted value? -/
def isQuoted : Reading → Bool
  | .quoted _ | .escaped _ => true
  | .between | .key | .value | .bare => false

@[simp] theorem behind_cons (r : Reading) (c : Char) (cs : List Char) :
    r.behind (c :: cs) = (r.next c).behind cs := rfl

theorem behind_append (r : Reading) (cs cs' : List Char) :
    r.behind (cs ++ cs') = (r.behind cs).behind cs' :=
  List.foldl_append

/-- A quoted value is read to its end, or to the end of the text. -/
theorem isQuoted_quoted {q : Char} (hq : isQuote q = true) (cs : List Char) :
    ((Reading.quoted q).behind cs).isQuoted =
      (!closes q cs || (Reading.between.behind (readQuoted q cs).2).isQuoted) := by
  induction cs using quoted_induction with
  | nil => rfl
  | backslash =>
      rw [closes, beq_backslash hq]
      · rfl
      · exact nofun
  | escape c cs ih =>
      rw [readQuoted_escaped, closes]
      exact ih
  | plain c cs hc ih =>
      rw [closes_cons hc, readQuoted_cons hc, behind_cons, next, if_neg (by simpa using hc)]
      split
      next hclose =>
        rw [hclose]
        rfl
      next hopen =>
        rw [Bool.not_eq_true] at hopen
        rw [hopen]
        exact ih

/-- An unquoted value is read up to the next blank. -/
theorem isQuoted_bare (cs : List Char) :
    (Reading.bare.behind cs).isQuoted =
      (Reading.between.behind (cs.dropWhile isBare)).isQuoted := by
  induction cs with
  | nil => rfl
  | cons c cs ih =>
      rw [behind_cons, next]
      by_cases hc : Text.isBlank c = true
      · rw [if_pos hc, List.dropWhile_cons_of_neg (by rw [isBare, hc]; exact Bool.false_ne_true),
          behind_cons, next, if_pos hc]
      · rw [if_neg hc, List.dropWhile_cons_of_pos (by rw [isBare]; simpa using hc)]
        exact ih

/-- A key is read up to its `=`. -/
theorem behind_key {cs after : List Char} (h : cs.dropWhile isKeyChar = '=' :: after) :
    Reading.key.behind cs = Reading.value.behind after := by
  induction cs with
  | nil => cases h
  | cons c cs ih =>
      rw [behind_cons, next]
      by_cases hc : isKeyChar c = true
      · have hne : c ≠ '=' := by
          rintro rfl
          cases hc
        rw [List.dropWhile_cons_of_pos hc] at h
        rw [if_neg (by simpa using hne), if_pos hc]
        exact ih h
      · rw [List.dropWhile_cons_of_neg hc] at h
        cases h
        rfl

/-- What is no key is an unquoted value. -/
theorem isQuoted_key {cs : List Char} (h : ∀ after, cs.dropWhile isKeyChar ≠ '=' :: after) :
    (Reading.key.behind cs).isQuoted =
      (Reading.between.behind (cs.dropWhile isBare)).isQuoted := by
  induction cs with
  | nil => rfl
  | cons c cs ih =>
      rw [behind_cons, next]
      by_cases hc : isKeyChar c = true
      · have hne : c ≠ '=' := by
          rintro rfl
          cases hc
        have hbare : isBare c = true := by
          rw [isBare, (isKeyChar_eq_true hc).1]
          rfl
        rw [List.dropWhile_cons_of_pos hc] at h
        rw [if_neg (by simpa using hne), if_pos hc, List.dropWhile_cons_of_pos hbare]
        exact ih h
      · rw [List.dropWhile_cons_of_neg hc] at h
        have hne : c ≠ '=' := by
          rintro rfl
          exact h cs rfl
        rw [if_neg (by simpa using hne), if_neg hc]
        exact isQuoted_bare (c :: cs)

/-- The value behind `key=` is a quoted or an unquoted one. -/
theorem isQuoted_value (cs : List Char) :
    (Reading.value.behind cs).isQuoted =
      (!closesValue cs || (Reading.between.behind (readValue cs).2).isQuoted) := by
  cases cs with
  | nil => rfl
  | cons c cs =>
      rw [behind_cons, next, closesValue, readValue]
      by_cases hc : isQuote c = true
      · rw [if_pos hc, if_pos hc, hc]
        exact isQuoted_quoted hc cs
      · rw [if_neg hc, if_neg hc]
        rw [Bool.not_eq_true] at hc
        rw [hc]
        exact isQuoted_bare (c :: cs)

/-- The first argument is read to its end. -/
theorem isQuoted_first {c : Char} (hc : Text.isBlank c = false) (cs : List Char) :
    (Reading.between.behind (c :: cs)).isQuoted =
      (!closesFirst c cs || (Reading.between.behind (read c cs).2).isQuoted) := by
  rw [behind_cons, next, hc, if_neg Bool.false_ne_true]
  by_cases hquote : isQuote c = true
  · rw [if_pos hquote, closesFirst, read, if_pos hquote, if_pos hquote]
    exact isQuoted_quoted hquote cs
  · rw [if_neg hquote]
    rw [Bool.not_eq_true] at hquote
    by_cases hkey : isKeyChar c = true
    · rw [if_pos hkey]
      by_cases hvalue : ∃ after, cs.dropWhile isKeyChar = '=' :: after
      · obtain ⟨after, hafter⟩ := hvalue
        rw [closesFirst_key hquote hkey hafter, read_of_key hquote hkey hafter,
          behind_key hafter]
        exact isQuoted_value after
      · have hno : ∀ after, cs.dropWhile isKeyChar ≠ '=' :: after :=
          fun after hafter => hvalue ⟨after, hafter⟩
        rw [closesFirst_bare hquote fun _ => hno, read_of_bare hquote fun _ => hno]
        exact isQuoted_key hno
    · rw [if_neg hkey, closesFirst_bare hquote fun h => absurd h hkey,
        read_of_bare hquote fun h => absurd h hkey]
      exact isQuoted_bare cs

theorem behind_trimLeft (cs : List Char) :
    Reading.between.behind (Text.trimLeft cs) = Reading.between.behind cs := by
  induction cs with
  | nil => rfl
  | cons c cs ih =>
      by_cases hc : Text.isBlank c = true
      · rw [Text.trimLeft, List.dropWhile_cons_of_pos hc, behind_cons, next, if_pos hc]
        exact ih
      · rw [Text.trimLeft, List.dropWhile_cons_of_neg hc]

end Reading

/-- **The reader of arguments, one character at a time**: all quoted values are closed exactly
    if the end of the text is inside none. -/
theorem allClosed_eq_not_isQuoted (cs : List Char) :
    allClosed cs = !(Reading.between.behind cs).isQuoted := by
  fun_induction allClosed cs with
  | case1 cs htrim =>
      rw [← Reading.behind_trimLeft, htrim]
      rfl
  | case2 cs c rest htrim ih =>
      rw [← Reading.behind_trimLeft, htrim, Reading.isQuoted_first (isBlank_of_trimLeft htrim),
        ih, Bool.not_or, Bool.not_not]

end TagExpander.Argument
