/-
  TagExpander.Proofs.Argument.Offsets — arguments read by byte positions.

  The reader of arguments, as one that counts in bytes: it looks for the end of a key, of a
  word or of a quoted value, and cuts there.

      k="é" x       key 0‥1, value behind 2, rest behind 6

  Every cut is good, every round of its loop takes an argument, and what is read are the
  arguments of the text.

  Main results:
    * `cutFirst_ofList` — one argument, and what follows it.
    * `read_suffix` — an argument takes up at least its first character.
    * `Taking.advances` — the loop takes finitely many rounds, and reads all arguments.
-/
import TagExpander.Proofs.Argument.Reader
import TagExpander.Proofs.Text.Offsets

namespace TagExpander.Argument

open Text (Slip cutFrom findChar startsWith trimStart At advance Advances)

/-! ## §1. Values. -/

/-- Reads on in a value quoted by `q`, from a position on; `escaped` says whether a backslash
    stands right in front of it. -/
def cutQuotedFrom (text : String) (q : Char) (escaped : Bool) (value : List Char)
    (position : Nat) : List Char → Except Slip (String × String)
  | [] => .ok (String.ofList (if escaped then value ++ ['\\'] else value), "")
  | c :: cs =>
    let next := position + c.utf8Size
    if escaped then
      let value := if c == q || c == '\\' then value else value ++ ['\\']
      cutQuotedFrom text q false (value ++ [c]) next cs
    else if c == '\\' then cutQuotedFrom text q true value next cs
    else if c == q then do return (String.ofList value, ← cutFrom text next)
    else cutQuotedFrom text q false (value ++ [c]) next cs

/-- Reads the quoted value that a text starts with. -/
def cutQuoted (text : String) : Except Slip (String × String) :=
  match text.toList with
  | [] => .ok ("", text)
  | q :: cs => cutQuotedFrom text q false [] q.utf8Size cs

/-- Reads the unquoted value that a text starts with. -/
def cutBare (text : String) : Except Slip (String × String) := do
  let stop := findChar Text.isBlank text
  return (← Text.cut text 0 stop, ← cutFrom text stop)

/-- Reads the value that follows `key=`. -/
def cutValue (text : String) : Except Slip (String × String) :=
  if startsWith isQuote text then cutQuoted text else cutBare text

section Values

variable {text : String} {position : Nat} {q : Char} {cs : List Char}

/-- A quoted value is read, and the text behind its closing mark can be cut out. -/
theorem cutQuotedFrom_eq (hq : isQuote q = true) (h : At text position cs) (value : List Char) :
    cutQuotedFrom text q false value position cs =
      .ok (String.ofList (value ++ (readQuoted q cs).1), String.ofList (readQuoted q cs).2) := by
  induction cs using quoted_induction generalizing position value with
  | nil =>
      rw [cutQuotedFrom, readQuoted, List.append_nil]
      rfl
  | backslash =>
      rw [readQuoted_backslash hq]
      rfl
  | escape c cs ih =>
      have hc : At text (position + '\\'.utf8Size + c.utf8Size) cs := h.next.next
      rw [cutQuotedFrom, if_neg Bool.false_ne_true, if_pos (beq_self_eq_true _), cutQuotedFrom,
        if_pos rfl, ih hc, readQuoted]
      dsimp only
      split <;> simp only [List.append_assoc, List.cons_append, List.nil_append]
  | plain c cs hc ih =>
      rw [cutQuotedFrom, if_neg Bool.false_ne_true, if_neg (by simpa using hc),
        readQuoted_cons hc]
      split
      · rw [h.next.cutFrom, List.append_nil]
        rfl
      · rw [ih h.next, List.append_assoc]
        rfl

theorem cutQuoted_ofList (hq : isQuote q = true) (cs : List Char) :
    cutQuoted (String.ofList (q :: cs)) =
      .ok (String.ofList (readQuoted q cs).1, String.ofList (readQuoted q cs).2) := by
  have h := (Text.at_zero_ofList (q :: cs)).next
  rw [Nat.zero_add] at h
  rw [cutQuoted, String.toList_ofList]
  exact cutQuotedFrom_eq hq h []

theorem cutBare_ofList (cs : List Char) :
    cutBare (String.ofList cs) =
      .ok (String.ofList (cs.takeWhile isBare), String.ofList (cs.dropWhile isBare)) := by
  have h : At (String.ofList cs) 0 (cs.takeWhile isBare ++ cs.dropWhile isBare) := by
    rw [List.takeWhile_append_dropWhile]
    exact Text.at_zero_ofList cs
  have hstop : findChar Text.isBlank (String.ofList cs) = 0 + Text.bytes (cs.takeWhile isBare) := by
    rw [Text.findChar_ofList, Nat.zero_add]
    rfl
  rw [cutBare, hstop, h.cut, h.skip.cutFrom]
  rfl

theorem cutValue_ofList (cs : List Char) :
    cutValue (String.ofList cs) =
      .ok (String.ofList (readValue cs).1, String.ofList (readValue cs).2) := by
  cases cs with
  | nil => rfl
  | cons c cs =>
      rw [cutValue, Text.startsWith_ofList_cons, readValue]
      split
      next hq => exact cutQuoted_ofList hq cs
      · exact cutBare_ofList (c :: cs)

end Values

/-! ## §2. One argument. -/

/-- The key that a text starts with and the text behind its `=`, if it does. -/
def cutKey? (text : String) : Except Slip (Option (String × String)) := do
  let stop := findChar (fun c => !isKeyChar c) text
  if 0 < stop then
    if startsWith (· == '=') (← cutFrom text stop) then
      return some (← Text.cut text 0 stop, ← cutFrom text (stop + 1))
    else return none
  else return none

/-- Reads the argument that a text starts with; returns it and the text behind it. -/
def cutFirst (text : String) : Except Slip (Argument × String) := do
  if startsWith isQuote text then
    let (value, rest) ← cutQuoted text
    return (⟨none, value⟩, rest)
  else
    match ← cutKey? text with
    | some (key, behind) =>
      let (value, rest) ← cutValue behind
      return (⟨some key, value⟩, rest)
    | none =>
      let (value, rest) ← cutBare text
      return (⟨none, value⟩, rest)

section First

variable {c : Char} {cs after : List Char}

/-- A text is cut behind the characters of a key. -/
theorem at_key (cs : List Char) :
    findChar (fun c => !isKeyChar c) (String.ofList cs) =
        0 + Text.bytes (cs.takeWhile isKeyChar) ∧
      At (String.ofList cs) 0 (cs.takeWhile isKeyChar ++ cs.dropWhile isKeyChar) := by
  rw [Text.findChar_ofList, List.takeWhile_append_dropWhile, Nat.zero_add]
  refine ⟨?_, Text.at_zero_ofList cs⟩
  simp only [Bool.not_not]

theorem cutKey?_of_key (hkey : isKeyChar c = true) (h : cs.dropWhile isKeyChar = '=' :: after) :
    cutKey? (String.ofList (c :: cs)) =
      .ok (some (String.ofList (c :: cs.takeWhile isKeyChar), String.ofList after)) := by
  obtain ⟨hstop, hat⟩ := at_key (c :: cs)
  rw [List.takeWhile_cons_of_pos hkey] at hstop hat
  rw [List.dropWhile_cons_of_pos hkey, h] at hat
  have hpos : 0 < 0 + Text.bytes (c :: cs.takeWhile isKeyChar) := by
    rw [Nat.zero_add]
    exact Text.bytes_pos (List.cons_ne_nil _ _)
  have hbehind : cutFrom (String.ofList (c :: cs))
      (0 + Text.bytes (c :: cs.takeWhile isKeyChar) + 1) = .ok (String.ofList after) :=
    hat.skip.next.cutFrom
  rw [cutKey?, hstop, if_pos hpos, hat.skip.cutFrom, Text.ok_bind, Text.startsWith_ofList_cons,
    if_pos (beq_self_eq_true _), hat.cut, Text.ok_bind, hbehind]
  rfl

theorem cutKey?_of_bare
    (h : isKeyChar c = true → ∀ after, cs.dropWhile isKeyChar ≠ '=' :: after) :
    cutKey? (String.ofList (c :: cs)) = .ok none := by
  obtain ⟨hstop, hat⟩ := at_key (c :: cs)
  rw [cutKey?, hstop]
  cases hkey : isKeyChar c with
  | false =>
      rw [List.takeWhile_cons_of_neg (hkey ▸ Bool.false_ne_true)]
      rfl
  | true =>
      rw [List.takeWhile_cons_of_pos hkey] at hat ⊢
      rw [List.dropWhile_cons_of_pos hkey] at hat
      -- what follows the characters of the key does not start with an equals sign
      have hequals : startsWith (· == '=') (String.ofList (cs.dropWhile isKeyChar)) = false := by
        cases hrest : cs.dropWhile isKeyChar with
        | nil => rfl
        | cons d rest =>
            rw [Text.startsWith_ofList_cons, beq_eq_false_iff_ne]
            rintro rfl
            exact h hkey rest hrest
      rw [hat.skip.cutFrom, Text.ok_bind, hequals, if_neg Bool.false_ne_true, ite_self]
      rfl

/-- **One argument is read, and the text behind it can be cut out.** -/
theorem cutFirst_ofList (hc : Text.isBlank c = false) (cs : List Char) :
    cutFirst (String.ofList (c :: cs)) =
      .ok ((read c cs).1, String.ofList (read c cs).2) := by
  rw [cutFirst, Text.startsWith_ofList_cons]
  cases hq : isQuote c with
  | true =>
      rw [if_pos rfl, cutQuoted_ofList hq, read, if_pos hq]
      rfl
  | false =>
      rw [if_neg Bool.false_ne_true]
      by_cases h : isKeyChar c = true ∧ ∃ after, cs.dropWhile isKeyChar = '=' :: after
      · obtain ⟨hkey, after, hafter⟩ := h
        rw [cutKey?_of_key hkey hafter, Text.ok_bind, read_of_key hq hkey hafter]
        dsimp only
        rw [cutValue_ofList]
        rfl
      · have hbare : isKeyChar c = true → ∀ after, cs.dropWhile isKeyChar ≠ '=' :: after :=
          fun hkey after hafter => h ⟨hkey, after, hafter⟩
        have hfirst : isBare c = true := by rw [isBare, hc]; rfl
        rw [cutKey?_of_bare hbare, Text.ok_bind, read_of_bare hq hbare]
        dsimp only
        rw [cutBare_ofList, List.takeWhile_cons_of_pos hfirst, List.dropWhile_cons_of_pos hfirst]
        rfl

end First

/-! ## §3. What an argument takes up. -/

theorem readQuoted_suffix (q : Char) (cs : List Char) : (readQuoted q cs).2 <:+ cs := by
  fun_induction readQuoted q cs with
  | case1 => exact List.suffix_refl _
  | case2 c cs value rest h hc ih =>
      rw [h] at ih
      exact ih.trans ⟨['\\', c], rfl⟩
  | case3 c cs value rest h hc ih =>
      rw [h] at ih
      exact ih.trans ⟨['\\', c], rfl⟩
  | case4 c cs _ hc => exact List.suffix_cons c cs
  | case5 c cs _ hc value rest h ih =>
      rw [h] at ih
      exact ih.trans (List.suffix_cons c cs)

theorem readValue_suffix (cs : List Char) : (readValue cs).2 <:+ cs := by
  unfold readValue
  split
  · exact List.suffix_refl _
  · split
    · exact (readQuoted_suffix _ _).trans (List.suffix_cons _ _)
    · exact List.dropWhile_suffix _

/-- **An argument takes up at least its first character.** -/
theorem read_suffix (c : Char) (cs : List Char) : (read c cs).2 <:+ cs := by
  unfold read
  split
  · exact readQuoted_suffix c cs
  · split
    next after _ h =>
      have hbehind : after <:+ cs.dropWhile isKeyChar := h ▸ List.suffix_cons _ _
      exact (readValue_suffix after).trans (hbehind.trans (List.dropWhile_suffix _))
    · exact List.dropWhile_suffix _

/-! ## §4. All arguments. -/

/-- The reader of arguments, on its way. -/
structure Taking where
  /-- The arguments read so far. -/
  items : List Argument
  /-- The text ahead, without leading blanks. -/
  ahead : String

namespace Taking

/-- The reader at the start of a text. -/
def start (text : String) : Taking :=
  ⟨[], trimStart text⟩

/-- Number of bytes of the text that are passed. -/
def position (text : String) (s : Taking) : Nat :=
  text.utf8ByteSize - s.ahead.utf8ByteSize

/-- One round of the loop: an argument and the blanks behind it. -/
def round (s : Taking) : Except Slip (Taking ⊕ Arguments) :=
  if s.ahead.isEmpty then .ok (.inr ⟨s.items⟩)
  else do
    let (a, rest) ← cutFirst s.ahead
    return .inl ⟨s.items ++ [a], trimStart rest⟩

/-- The reader takes an argument and the blanks behind it, and what is ahead gets shorter. -/
theorem round_cons {c : Char} {cs : List Char} (hc : Text.isBlank c = false)
    (items : List Argument) :
    round ⟨items, String.ofList (c :: cs)⟩ =
      .ok (.inl ⟨items ++ [(read c cs).1], String.ofList (Text.trimLeft (read c cs).2)⟩) := by
  have hne : (String.ofList (c :: cs)).isEmpty = false := by
    rw [String.isEmpty_eq_false_iff, Ne, ← String.toList_eq_nil_iff, String.toList_ofList]
    exact List.cons_ne_nil c cs
  rw [round, if_neg (by rw [hne]; exact Bool.false_ne_true)]
  dsimp only
  rw [cutFirst_ofList hc, Text.ok_bind]
  dsimp only
  rw [trimStart, String.toList_ofList]
  rfl

theorem bytes_ahead_lt (c : Char) (cs : List Char) :
    Text.bytes (Text.trimLeft (read c cs).2) < Text.bytes (c :: cs) := by
  have hread := Text.bytes_le_of_suffix (read_suffix c cs)
  have htrim := Text.bytes_le_of_suffix (List.dropWhile_suffix Text.isBlank (l := (read c cs).2))
  have hpos := c.utf8Size_pos
  rw [Text.bytes_cons]
  exact Nat.lt_of_le_of_lt (Nat.le_trans htrim hread) (by omega)

/-- The rounds from a text ahead. -/
theorem advances_from {text : String} {cs : List Char} (items : List Argument)
    (hlength : Text.bytes (Text.trimLeft cs) ≤ text.utf8ByteSize) :
    Advances (position text) text.utf8ByteSize round
      ⟨items, String.ofList (Text.trimLeft cs)⟩ ⟨items ++ readAll cs⟩ := by
  induction cs using readAll.induct generalizing items with
  | case1 cs htrim =>
      rw [readAll_of_nil htrim, htrim, List.append_nil]
      exact .done rfl
  | case2 cs c rest htrim ih =>
      have hshort := bytes_ahead_lt c rest
      rw [htrim] at hlength
      rw [readAll_of_cons htrim, htrim, List.append_cons]
      refine .round (round_cons (isBlank_of_trimLeft htrim) items) ?_ ?_ (ih _ (by omega))
      · rw [position, position, Text.utf8ByteSize_ofList, Text.utf8ByteSize_ofList]
        omega
      · exact Nat.sub_le _ _

/-- **The loop takes finitely many rounds, each of them forward, and reads all arguments.** -/
theorem advances (text : String) :
    Advances (position text) text.utf8ByteSize round (start text) (Arguments.parse text) := by
  refine advances_from [] ?_
  have htrim := Text.bytes_le_of_suffix (List.dropWhile_suffix Text.isBlank (l := text.toList))
  rw [← Text.utf8ByteSize_ofList, ← Text.utf8ByteSize_ofList, String.ofList_toList] at htrim
  rwa [← Text.utf8ByteSize_ofList]

end Taking

/-- Reads the arguments of a text by byte positions. -/
def cutAll (text : String) : Except Slip Arguments :=
  advance (Taking.position text) text.utf8ByteSize Taking.round (.start text)

theorem cutAll_eq (text : String) : cutAll text = .ok (Arguments.parse text) :=
  Text.advance_eq_ok_iff.2 (Taking.advances text)

end TagExpander.Argument
