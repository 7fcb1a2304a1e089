/-
  TagExpander.Proofs.Text.Offsets — texts by byte positions.

  A reader that counts in bytes cuts its text at positions that it has computed.  A cut is
  good if its two positions stand in the text, between characters, and in order; a loop is
  good if every round moves its position forward:

      a é < b       0 1 3 4 5 stand between characters, 2 is inside é

  Readers that check this give `Except Slip`.  What is proved of them is that they do not
  slip, and what they read, in terms of the text that follows a position (`At`).

  Main results:
    * `isBoundary_iff` — a position stands between characters exactly if a text follows it.
    * `At.cut` — a part that follows a position can be cut out there.
    * `advance_eq_ok_iff` — a loop ends without a slip exactly if it takes finitely many
      rounds, each of them forward.
-/
import Mathlib.Data.String.Basic
import TagExpander.Text.Basic

namespace TagExpander.Text

/-! ## §1. Bytes. -/

/-- The bytes of a text are those that the core library counts. -/
theorem bytes_eq_utf8Len (cs : List Char) : bytes cs = String.utf8Len cs := by
  induction cs with
  | nil => rfl
  | cons c cs ih => rw [bytes_cons, String.utf8Len_cons, ih, Nat.add_comm]

theorem utf8ByteSize_ofList (cs : List Char) : (String.ofList cs).utf8ByteSize = bytes cs := by
  rw [String.utf8ByteSize_ofList, bytes_eq_utf8Len]

/-- A text that is not empty takes up bytes. -/
theorem bytes_pos {cs : List Char} (h : cs ≠ []) : 0 < bytes cs := by
  cases cs with
  | nil => exact absurd rfl h
  | cons c cs =>
      rw [bytes_cons]
      exact Nat.add_pos_left c.utf8Size_pos _

/-- The end of a text takes up no more bytes than the text. -/
theorem bytes_le_of_suffix {cs rest : List Char} (h : rest <:+ cs) : bytes rest ≤ bytes cs := by
  obtain ⟨front, rfl⟩ := h
  rw [bytes_append]
  exact Nat.le_add_left _ _

/-- What stands between two texts is the part between its byte positions. -/
theorem extract_of_append (front part behind : List Char) :
    String.Pos.Raw.extract (String.ofList (front ++ part ++ behind)) ⟨bytes front⟩
      ⟨bytes (front ++ part)⟩ = String.ofList part := by
  rw [bytes_append, bytes_eq_utf8Len, bytes_eq_utf8Len]
  exact String.extract_of_valid front part behind

/-- The UTF-8 form of a text. -/
def utf8 (cs : List Char) : List UInt8 :=
  cs.flatMap String.utf8EncodeChar

@[simp] theorem utf8_cons (c : Char) (cs : List Char) :
    utf8 (c :: cs) = String.utf8EncodeChar c ++ utf8 cs := rfl

theorem utf8_append (as bs : List Char) : utf8 (as ++ bs) = utf8 as ++ utf8 bs :=
  List.flatMap_append

theorem length_utf8 (cs : List Char) : (utf8 cs).length = bytes cs := by
  induction cs with
  | nil => rfl
  | cons c cs ih => rw [utf8_cons, List.length_append, String.length_utf8EncodeChar, ih, bytes_cons]

/-- A text holds the bytes of its UTF-8 form. -/
theorem data_toByteArray (text : String) : text.toByteArray.data.toList = utf8 text.toList := by
  rw [← String.utf8Encode_toList, List.utf8Encode, List.data_toByteArray]
  rfl

/-- The bytes of a text start with those of a pattern exactly if the text starts with it. -/
theorem utf8_prefix_iff {pattern cs : List Char} : utf8 pattern <+: utf8 cs ↔ pattern <+: cs := by
  constructor
  · intro h
    obtain ⟨more, hmore⟩ := h
    refine List.isPrefix_of_utf8Encode_append_eq_utf8Encode more.toByteArray ?_
    rw [List.utf8Encode, List.utf8Encode, ← List.toByteArray_append]
    exact congrArg List.toByteArray hmore
  · intro h
    obtain ⟨more, rfl⟩ := h
    rw [utf8_append]
    exact List.prefix_append _ _

/-! ## §2. Cuts. -/

/-- What is wrong with a reader that counts in bytes. -/
inductive Slip where
  /-- It cuts at positions that bound no part of its text. -/
  | cut (text : String) (start stop : Nat)
  /-- A round of a loop does not move forward, or past the end. -/
  | stall (position : Nat)
deriving DecidableEq, Inhabited

theorem ok_bind {α β : Type} (a : α) (f : α → Except Slip β) : (Except.ok a >>= f) = f a := rfl

/-- Does the position stand between two characters of the text, or at one of its ends? -/
def isBoundary (text : String) (position : Nat) : Bool :=
  String.Pos.Raw.isValid text ⟨position⟩

/-- The part of a text between two positions.  They must stand between characters, in order. -/
def cut (text : String) (start stop : Nat) : Except Slip String :=
  if start ≤ stop ∧ isBoundary text start ∧ isBoundary text stop then
    .ok (String.Pos.Raw.extract text ⟨start⟩ ⟨stop⟩)
  else .error (.cut text start stop)

/-- The part of a text from a position on. -/
def cutFrom (text : String) (start : Nat) : Except Slip String :=
  cut text start text.utf8ByteSize

/-- From the position on, the text is `rest`. -/
def At (text : String) (position : Nat) (rest : List Char) : Prop :=
  ∃ front, text.toList = front ++ rest ∧ position = bytes front

/-- **A position stands between characters exactly if a text follows it.** -/
theorem isBoundary_iff {text : String} {position : Nat} :
    isBoundary text position = true ↔ ∃ rest, At text position rest := by
  rw [isBoundary, String.Pos.Raw.isValid_eq_true_iff, String.Pos.Raw.isValid_iff_exists_take_toList]
  constructor
  · intro h
    obtain ⟨n, hn⟩ := h
    exact ⟨text.toList.drop n, text.toList.take n, (List.take_append_drop n _).symm,
      hn.trans (utf8ByteSize_ofList _)⟩
  · intro h
    obtain ⟨rest, front, htext, hposition⟩ := h
    refine ⟨front.length, ?_⟩
    rw [htext, List.take_left, utf8ByteSize_ofList]
    exact hposition

theorem at_zero_ofList (cs : List Char) : At (String.ofList cs) 0 cs :=
  ⟨[], String.toList_ofList, rfl⟩

namespace At

variable {text : String} {position : Nat} {part rest : List Char}

theorem isBoundary (h : At text position rest) : isBoundary text position = true :=
  isBoundary_iff.2 ⟨rest, h⟩

/-- Behind a part of the text stands the rest. -/
theorem skip (h : At text position (part ++ rest)) : At text (position + bytes part) rest := by
  obtain ⟨front, htext, rfl⟩ := h
  exact ⟨front ++ part, by rw [htext, List.append_assoc], (bytes_append front part).symm⟩

/-- The end of the text is where all that follows is passed. -/
theorem utf8ByteSize_eq (h : At text position rest) :
    text.utf8ByteSize = position + bytes rest := by
  obtain ⟨front, htext, rfl⟩ := h
  rw [← bytes_append, ← htext, ← utf8ByteSize_ofList, String.ofList_toList]

/-- **A part that follows a position can be cut out there.** -/
theorem cut (h : At text position (part ++ rest)) :
    cut text position (position + bytes part) = .ok (String.ofList part) := by
  rw [Text.cut, if_pos ⟨Nat.le_add_right _ _, h.isBoundary, h.skip.isBoundary⟩]
  obtain ⟨front, htext, rfl⟩ := h
  rw [← bytes_append, ← String.ofList_toList (s := text), htext, ← List.append_assoc,
    extract_of_append]

/-- The run of characters that follows a position can be cut out there. -/
theorem cut_takeWhile (h : At text position rest) (p : Char → Bool) :
    Text.cut text position (position + bytes (rest.takeWhile p)) =
      .ok (String.ofList (rest.takeWhile p)) := by
  rw [← List.takeWhile_append_dropWhile (p := p) (l := rest)] at h
  exact h.cut

/-- Behind a run of characters stands what the run leaves of the text. -/
theorem skip_takeWhile (h : At text position rest) (p : Char → Bool) :
    At text (position + bytes (rest.takeWhile p)) (rest.dropWhile p) :=
  At.skip (List.takeWhile_append_dropWhile.symm ▸ h)

/-- Behind the next character stands the rest. -/
theorem next {c : Char} (h : At text position (c :: rest)) :
    At text (position + c.utf8Size) rest := by
  have hskip : At text (position + bytes [c]) rest := At.skip h
  rwa [bytes_cons, bytes_nil, Nat.add_zero] at hskip

/-- All that follows a position can be cut out. -/
theorem cutFrom (h : At text position rest) : cutFrom text position = .ok (String.ofList rest) := by
  have hrest : At text position (rest ++ []) := (List.append_nil rest).symm ▸ h
  rw [Text.cutFrom, h.utf8ByteSize_eq]
  exact hrest.cut

/-- The bytes that follow a position are those of the rest. -/
theorem drop_data (h : At text position rest) :
    text.toByteArray.data.toList.drop position = utf8 rest := by
  obtain ⟨front, htext, rfl⟩ := h
  rw [data_toByteArray, htext, utf8_append, ← length_utf8, List.drop_left]

end At

/-! ## §3. Searching. -/

/-- Does the text start with a character that passes the test? -/
def startsWith (p : Char → Bool) (text : String) : Bool :=
  text.toList.head?.any p

theorem startsWith_ofList_cons (p : Char → Bool) (c : Char) (cs : List Char) :
    startsWith p (String.ofList (c :: cs)) = p c := by
  rw [startsWith, String.toList_ofList]
  rfl

/-- The text without its leading blanks. -/
def trimStart (text : String) : String :=
  String.ofList (trimLeft text.toList)

/-- Number of bytes in front of the first place from which a text passes a test. -/
def find (test : List Char → Bool) : List Char → Option Nat
  | [] => none
  | c :: cs => if test (c :: cs) then some 0 else (find test cs).map (c.utf8Size + ·)

/-- Number of bytes in front of the first character that passes a test, or of all. -/
def findChar (p : Char → Bool) (text : String) : Nat :=
  (find (fun cs => cs.head?.any p) text.toList).getD text.utf8ByteSize

/-- A search for a character stops behind the run of all others. -/
theorem findChar_ofList (p : Char → Bool) (cs : List Char) :
    findChar p (String.ofList cs) = bytes (cs.takeWhile fun c => !p c) := by
  rw [findChar, utf8ByteSize_ofList, String.toList_ofList]
  induction cs with
  | nil => rfl
  | cons c cs ih =>
      rw [find, List.head?_cons, Option.any_some, List.takeWhile_cons]
      cases hp : p c with
      | true => rfl
      | false =>
          rw [if_neg Bool.false_ne_true, Bool.not_false, if_pos rfl, bytes_cons, bytes_cons, ← ih]
          cases find (fun cs => cs.head?.any p) cs with
          | none => rfl
          | some n => rfl

/-! ## §4. Loops. -/

section Loops

variable {σ α : Type} (position : σ → Nat) (limit : Nat) (round : σ → Except Slip (σ ⊕ α))

/-- Goes round a loop until it ends with a result.  Every round must move the position forward,
    and not past the limit. -/
def advance (s : σ) : Except Slip α :=
  match round s with
  | .error slip => .error slip
  | .ok (.inr a) => .ok a
  | .ok (.inl s') =>
    if position s < position s' ∧ position s' ≤ limit then advance s'
    else .error (.stall (position s))
termination_by limit - position s

/-- A run of a loop that ends: finitely many rounds without a slip, each of them forward. -/
inductive Advances : σ → α → Prop where
  | done {s : σ} {a : α} (hround : round s = .ok (.inr a)) : Advances s a
  | round {s s' : σ} {a : α} (hround : round s = .ok (.inl s'))
      (hforward : position s < position s') (hlimit : position s' ≤ limit)
      (hrest : Advances s' a) : Advances s a

variable {position limit round}

/-- **A loop ends without a slip exactly if it takes finitely many rounds, each of them
    forward.** -/
theorem advance_eq_ok_iff {s : σ} {a : α} :
    advance position limit round s = .ok a ↔ Advances position limit round s a := by
  constructor
  · intro h
    fun_induction advance position limit round s with
    | case1 s slip hround => cases h
    | case2 s b hround =>
        cases h
        exact .done hround
    | case3 s s' hround hforward ih => exact .round hround hforward.1 hforward.2 (ih h)
    | case4 s s' hround hstall => cases h
  · intro h
    induction h with
    | done hround => rw [advance, hround]
    | round hround hforward hlimit hrest ih =>
        rw [advance, hround]
        dsimp only
        rw [if_pos ⟨hforward, hlimit⟩]
        exact ih

end Loops

end TagExpander.Text
