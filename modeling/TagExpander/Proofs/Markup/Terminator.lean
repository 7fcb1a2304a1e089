/-
  TagExpander.Proofs.Markup.Terminator — the end of a marker, found byte by byte.

  The search for the `?>` that ends a marker can go over the bytes of its text and need not
  know where characters start: what it looks for are ASCII characters, and no byte of any
  other character is one of theirs:

      "é" ?>      22 C3 A9 22 20 3F 3E
                  └ inside quotes ┘

  Behind all bytes of a character the search by bytes is where the search by characters is
  behind that character (`Reads`), so both find the same end.

  Main results:
    * `Reads.character` — the bytes of a character are read as the character.
    * `byteTerminator_at` — the end that is found byte by byte stands between characters.
-/
import TagExpander.Proofs.Markup.Writing
import TagExpander.Proofs.Text.Offsets

namespace TagExpander.Markup

/-! ## §1. The bytes of a character. -/

/-- The byte of an ASCII character tells it from all others. -/
theorem beq_toUInt8 {c d : Char} (hc : c.toNat < 128) (hd : d.toNat < 128) :
    (c.toUInt8 == d.toUInt8) = (c == d) := by
  have hbyte {x : Char} (hx : x.toNat < 128) : x.toUInt8.toNat = x.toNat := by
    show x.val.toNat % 256 = x.val.toNat
    exact Nat.mod_eq_of_lt (Nat.lt_trans hx (by decide))
  rw [Bool.eq_iff_iff, beq_iff_eq, beq_iff_eq]
  constructor
  · intro h
    have hnat := congrArg UInt8.toNat h
    rw [hbyte hc, hbyte hd] at hnat
    exact Char.toNat_inj.1 hnat
  · rintro rfl
    rfl

/-- A byte above those of the ASCII characters is none of them. -/
theorem beq_toUInt8_of_le {b : UInt8} {d : Char} (hb : 128 ≤ b.toNat) (hd : d.toNat < 128) :
    (b == d.toUInt8) = false := by
  rw [beq_eq_false_iff_ne]
  rintro rfl
  have hbyte : d.toUInt8.toNat = d.toNat :=
    Nat.mod_eq_of_lt (Nat.lt_trans hd (by decide))
  omega

/-- An ASCII character is one byte; all bytes of any other are above those. -/
theorem utf8EncodeChar_cases (c : Char) :
    (c.toNat < 128 ∧ String.utf8EncodeChar c = [c.toUInt8]) ∨
      (128 ≤ c.toNat ∧ ∀ b ∈ String.utf8EncodeChar c, 128 ≤ b.toNat) := by
  by_cases hc : c.toNat < 128
  · refine .inl ⟨hc, String.utf8EncodeChar_eq_singleton ?_⟩
    rw [Char.utf8Size_eq_one_iff, UInt32.le_iff_toNat_le]
    exact Nat.le_of_lt_succ hc
  · refine .inr ⟨Nat.le_of_not_lt hc, ?_⟩
    have hlow : ¬c.val.toNat ≤ 127 := fun h => hc (Nat.lt_succ_of_le h)
    rw [String.utf8EncodeChar, if_neg hlow]
    intro b hb
    split at hb
    · simp only [List.mem_cons, List.not_mem_nil, or_false] at hb
      rcases hb with rfl | rfl <;> rw [UInt8.toNat_ofNat'] <;> omega
    · split at hb
      · simp only [List.mem_cons, List.not_mem_nil, or_false] at hb
        rcases hb with rfl | rfl | rfl <;> rw [UInt8.toNat_ofNat'] <;> omega
      · simp only [List.mem_cons, List.not_mem_nil, or_false] at hb
        rcases hb with rfl | rfl | rfl | rfl <;> rw [UInt8.toNat_ofNat'] <;> omega

/-- Behind the first byte of a character all bytes are above those of the ASCII characters. -/
theorem le_of_mem_tail {c : Char} {b : UInt8} {bs : List UInt8}
    (h : String.utf8EncodeChar c = b :: bs) : ∀ x ∈ bs, 128 ≤ x.toNat := by
  intro x hx
  rcases utf8EncodeChar_cases c with ⟨-, hone⟩ | ⟨-, hhigh⟩
  · rw [h] at hone
    cases (List.cons.inj hone).2
    cases hx
  · exact hhigh x (h ▸ List.mem_cons_of_mem b hx)

/-! ## §2. Classes of ASCII characters. -/

/-- Is it the byte of one of these characters? -/
def isByteOf (chars : List Char) (b : UInt8) : Bool :=
  chars.any fun d => b == d.toUInt8

/-- The two quotation marks. -/
def quoteMarks : List Char := ['"', '\'']

/-- The characters behind which a quotation mark opens a value. -/
def valueOpeners : List Char := [' ', '\t', '\n', '\x0c', '\r', '=']

section Classes

variable {ascii : List Char} (hascii : ∀ d ∈ ascii, d.toNat < 128)
include hascii

theorem isByteOf_toUInt8 {c : Char} (hc : c.toNat < 128) :
    isByteOf ascii c.toUInt8 = ascii.contains c := by
  rw [Bool.eq_iff_iff, isByteOf, List.any_eq_true, List.contains_iff_mem]
  constructor
  · intro h
    obtain ⟨d, hd, hbyte⟩ := h
    rw [beq_toUInt8 hc (hascii d hd), beq_iff_eq] at hbyte
    exact hbyte ▸ hd
  · intro h
    exact ⟨c, h, beq_self_eq_true _⟩

theorem isByteOf_of_le {b : UInt8} (hb : 128 ≤ b.toNat) : isByteOf ascii b = false :=
  List.any_eq_false.2 fun d hd => by
    rw [beq_toUInt8_of_le hb (hascii d hd)]
    exact Bool.false_ne_true

theorem not_contains_of_le {c : Char} (hc : 128 ≤ c.toNat) : ascii.contains c = false := by
  rw [Bool.eq_false_iff, Ne, List.contains_iff_mem]
  intro hmem
  exact Nat.not_lt.2 hc (hascii c hmem)

end Classes

theorem isQuote_eq (c : Char) : Argument.isQuote c = quoteMarks.contains c := by
  simp [Argument.isQuote, quoteMarks, beq_eq_decide]

theorem opensValue_eq (c : Char) : opensValue c = valueOpeners.contains c := by
  simp [opensValue, Text.isAsciiBlank, valueOpeners, Bool.or_assoc, beq_eq_decide]

theorem ascii_quoteMarks : ∀ d ∈ quoteMarks, d.toNat < 128 := by simp [quoteMarks]

theorem ascii_valueOpeners : ∀ d ∈ valueOpeners, d.toNat < 128 := by simp [valueOpeners]

/-! ## §3. The search. -/

/-- How the bytes of a marker are read. -/
structure ByteQuoting where
  /-- The byte of the quotation mark, inside a quoted value. -/
  quote : Option UInt8
  /-- Does a backslash protect the next byte there? -/
  escaped : Bool
  /-- The byte in front. -/
  previous : UInt8

/-- How to read on behind a byte. -/
def ByteQuoting.next (s : ByteQuoting) (b : UInt8) : ByteQuoting :=
  match s.quote with
  | some mark =>
    if s.escaped then ⟨some mark, false, b⟩
    else if b == '\\'.toUInt8 then ⟨some mark, true, b⟩
    else if b == mark then ⟨none, s.escaped, b⟩
    else ⟨some mark, s.escaped, b⟩
  | none =>
    if isByteOf quoteMarks b && isByteOf valueOpeners s.previous then ⟨some b, s.escaped, b⟩
    else ⟨none, s.escaped, b⟩

/-- The position of the `?>` that ends a marker, from a position in it on. -/
def byteTerminatorFrom (s : ByteQuoting) (position : Nat) : List UInt8 → Option Nat
  | [] => none
  | b :: bs =>
    if s.quote.isNone && (Text.utf8 markerEnd).isPrefixOf (b :: bs) then some position
    else if s.quote.isNone && (Text.utf8 markerStart).isPrefixOf (b :: bs) then none
    else byteTerminatorFrom (s.next b) (position + 1) bs

/-- The position of the `?>` that ends a marker, from the end of its name on. -/
def byteTerminator (text : String) (start : Nat) : Option Nat :=
  byteTerminatorFrom ⟨none, false, ' '.toUInt8⟩ start (text.toByteArray.data.toList.drop start)

/-- The search by bytes is where the search by characters is. -/
inductive Reads : Quoting → ByteQuoting → Prop where
  | outside {previous : Char} {b : UInt8} (h : isByteOf valueOpeners b = opensValue previous) :
      Reads (.outside previous) ⟨none, false, b⟩
  | inside {mark : Char} {b : UInt8} (h : Argument.isQuote mark = true) :
      Reads (.inside mark) ⟨some mark.toUInt8, false, b⟩
  | escaped {mark : Char} {b : UInt8} (h : Argument.isQuote mark = true) :
      Reads (.escaped mark) ⟨some mark.toUInt8, true, b⟩

namespace Reads

variable {q : Quoting} {s : ByteQuoting} {c : Char} {b : UInt8}

theorem start : Reads (.outside ' ') ⟨none, false, ' '.toUInt8⟩ :=
  .outside rfl

theorem isNone_eq (h : Reads q s) : s.quote.isNone = q.isOutside := by
  cases h <;> rfl

theorem toNat_lt_of_isQuote {mark : Char} (h : Argument.isQuote mark = true) :
    mark.toNat < 128 := by
  rw [isQuote_eq, List.contains_iff_mem] at h
  exact ascii_quoteMarks mark h

/-- The byte of an ASCII character is read as the character. -/
theorem ascii (h : Reads q s) (hc : c.toNat < 128) : Reads (q.next c) (s.next c.toUInt8) := by
  cases h with
  | @outside previous b h =>
      rw [Quoting.next, ByteQuoting.next]
      dsimp only
      rw [isByteOf_toUInt8 ascii_quoteMarks hc, h, ← isQuote_eq]
      split
      next hopens =>
        rw [Bool.and_eq_true] at hopens
        exact .inside hopens.1
      · refine .outside ?_
        rw [isByteOf_toUInt8 ascii_valueOpeners hc, opensValue_eq]
  | @inside mark b h =>
      rw [Quoting.next, ByteQuoting.next]
      dsimp only
      rw [if_neg Bool.false_ne_true, beq_toUInt8 hc (by decide),
        beq_toUInt8 hc (toNat_lt_of_isQuote h)]
      split
      · exact .escaped h
      · split
        · refine .outside ?_
          rw [isByteOf_toUInt8 ascii_valueOpeners hc, opensValue_eq]
        · exact .inside h
  | escaped h => exact .inside h

/-- A character that is not ASCII is no quotation mark. -/
theorem isQuote_of_le (hc : 128 ≤ c.toNat) : Argument.isQuote c = false := by
  rw [isQuote_eq]
  exact not_contains_of_le ascii_quoteMarks hc

/-- Inside quotes a character that is not ASCII changes nothing. -/
theorem next_inside_of_le (hc : 128 ≤ c.toNat) {mark : Char}
    (hmark : Argument.isQuote mark = true) : (Quoting.inside mark).next c = .inside mark := by
  have hlow := toNat_lt_of_isQuote hmark
  have hslash : (c == '\\') = false :=
    beq_eq_false_iff_ne.2 (by rintro rfl; exact absurd hc (by decide))
  have hother : (c == mark) = false := beq_eq_false_iff_ne.2 (by rintro rfl; omega)
  rw [Quoting.next, hslash, hother]
  rfl

/-- A byte of any other character is read as the character. -/
theorem high (h : Reads q s) (hc : 128 ≤ c.toNat) (hb : 128 ≤ b.toNat) :
    Reads (q.next c) (s.next b) := by
  have hopens : isByteOf valueOpeners b = opensValue c := by
    rw [isByteOf_of_le ascii_valueOpeners hb, opensValue_eq,
      not_contains_of_le ascii_valueOpeners hc]
  cases h with
  | @outside previous b' h =>
      rw [Quoting.next, ByteQuoting.next, isQuote_of_le hc]
      dsimp only
      rw [isByteOf_of_le ascii_quoteMarks hb, Bool.false_and, Bool.false_and]
      exact .outside hopens
  | @inside mark b' h =>
      rw [next_inside_of_le hc h, ByteQuoting.next]
      dsimp only
      rw [beq_toUInt8_of_le hb (by decide), beq_toUInt8_of_le hb (toNat_lt_of_isQuote h)]
      exact .inside h
  | escaped h => exact .inside h

/-- The further bytes of a character change nothing. -/
theorem high_run (h : Reads (q.next c) s) (hq : (q.next c).next c = q.next c)
    (hc : 128 ≤ c.toNat) {bs : List UInt8} (hbs : ∀ b ∈ bs, 128 ≤ b.toNat) :
    Reads (q.next c) (bs.foldl .next s) := by
  induction bs generalizing s with
  | nil => exact h
  | cons b bs ih =>
      have hnext := h.high hc (hbs b List.mem_cons_self)
      rw [hq] at hnext
      exact ih hnext fun b' hb' => hbs b' (List.mem_cons_of_mem b hb')

/-- A character that is not ASCII is read once. -/
theorem next_next (h : Reads q s) (hc : 128 ≤ c.toNat) : (q.next c).next c = q.next c := by
  cases h with
  | @outside previous b h =>
      simp only [Quoting.next, isQuote_of_le hc, Bool.false_and, Bool.false_eq_true, if_false]
  | inside h => rw [next_inside_of_le hc h, next_inside_of_le hc h]
  | escaped h => exact next_inside_of_le hc h

/-- **The bytes of a character are read as the character.** -/
theorem character (h : Reads q s) (c : Char) :
    Reads (q.next c) ((String.utf8EncodeChar c).foldl .next s) := by
  rcases utf8EncodeChar_cases c with ⟨hc, hone⟩ | ⟨hc, hhigh⟩
  · rw [hone]
    exact h.ascii hc
  · cases hbytes : String.utf8EncodeChar c with
    | nil => exact absurd hbytes String.utf8EncodeChar_ne_nil
    | cons b bs =>
        rw [hbytes] at hhigh
        exact (h.high hc (hhigh b List.mem_cons_self)).high_run (h.next_next hc) hc
          fun b' hb' => hhigh b' (List.mem_cons_of_mem b hb')

end Reads

section Search

variable {s : ByteQuoting} {position : Nat} {b : UInt8} {bs more : List UInt8}

/-- No byte above those of the ASCII characters starts a pattern. -/
theorem isPrefixOf_of_le {d : Char} (pattern : List Char) (hd : d.toNat < 128)
    (hb : 128 ≤ b.toNat) : (Text.utf8 (d :: pattern)).isPrefixOf (b :: bs) = false := by
  rcases utf8EncodeChar_cases d with ⟨-, hone⟩ | ⟨hhigh, -⟩
  · have hne : (d.toUInt8 == b) = false := by
      rw [BEq.comm]
      exact beq_toUInt8_of_le hb hd
    rw [Text.utf8_cons, hone, List.singleton_append, List.isPrefixOf, hne, Bool.false_and]
  · exact absurd hd (Nat.not_lt.2 hhigh)

/-- Bytes above those of the ASCII characters are passed over. -/
theorem byteTerminatorFrom_append (hbs : ∀ b ∈ bs, 128 ≤ b.toNat) :
    byteTerminatorFrom s position (bs ++ more) =
      byteTerminatorFrom (bs.foldl .next s) (position + bs.length) more := by
  induction bs generalizing s position with
  | nil => rfl
  | cons b bs ih =>
      have hb := hbs b List.mem_cons_self
      rw [List.cons_append, byteTerminatorFrom, markerEnd, markerStart,
        isPrefixOf_of_le _ (by decide) hb, isPrefixOf_of_le _ (by decide) hb, Bool.and_false,
        if_neg Bool.false_ne_true, if_neg Bool.false_ne_true,
        ih fun b' hb' => hbs b' (List.mem_cons_of_mem b hb'),
        List.foldl_cons, List.length_cons, Nat.add_assoc, Nat.add_comm 1]

/-- The bytes of a text start with those of `?>` exactly if the text does. -/
theorem isPrefixOf_utf8 {pattern cs : List Char} {found : Bool}
    (h : found = true ↔ pattern <+: cs) :
    (Text.utf8 pattern).isPrefixOf (Text.utf8 cs) = found := by
  rw [Bool.eq_iff_iff, List.isPrefixOf_iff_prefix, Text.utf8_prefix_iff, h]

/-- The search by bytes from the start of a character on. -/
theorem byteTerminatorFrom_cons (c : Char) (cs : List Char) :
    byteTerminatorFrom s position (Text.utf8 (c :: cs)) =
      if s.quote.isNone && endsMarker (c :: cs) then some position
      else if s.quote.isNone && startsMarker (c :: cs) then none
      else byteTerminatorFrom ((String.utf8EncodeChar c).foldl .next s)
        (position + c.utf8Size) (Text.utf8 cs) := by
  have hend : (Text.utf8 markerEnd).isPrefixOf (Text.utf8 (c :: cs)) = endsMarker (c :: cs) :=
    isPrefixOf_utf8 endsMarker_iff
  have hstart : (Text.utf8 markerStart).isPrefixOf (Text.utf8 (c :: cs)) = startsMarker (c :: cs) :=
    isPrefixOf_utf8 startsMarker_iff
  cases hbytes : String.utf8EncodeChar c with
  | nil => exact absurd hbytes String.utf8EncodeChar_ne_nil
  | cons b bs =>
      have hsize : c.utf8Size = bs.length + 1 := by
        rw [← String.length_utf8EncodeChar, hbytes, List.length_cons]
      rw [Text.utf8_cons, hbytes, List.cons_append] at hend hstart ⊢
      rw [byteTerminatorFrom, hend, hstart, byteTerminatorFrom_append (le_of_mem_tail hbytes),
        hsize, List.foldl_cons, Nat.add_assoc, Nat.add_comm 1]

/-- **Both searches find the same end.** -/
theorem byteTerminatorFrom_utf8 {q : Quoting} (h : Reads q s) (n : Nat) (cs : List Char) :
    byteTerminatorFrom s position (Text.utf8 cs) =
      (terminatorFrom q n cs).map fun k => position + Text.bytes (cs.take (k - n)) := by
  induction cs generalizing q s position n with
  | nil => rfl
  | cons c cs ih =>
      rw [byteTerminatorFrom_cons, terminatorFrom, h.isNone_eq]
      split
      · rw [Option.map_some, Nat.sub_self]
        rfl
      · split
        · rfl
        · rw [ih (h.character c) (n + 1)]
          refine Option.map_congr fun k hk => ?_
          have hle := (terminatorFrom_lt hk).1
          rw [show k - n = (k - (n + 1)) + 1 by omega, List.take_succ_cons, Text.bytes_cons,
            Nat.add_assoc]

/-- **The end that is found byte by byte is the end that is found character by character**, and
    so stands between characters. -/
theorem byteTerminator_at {text : String} {cs : List Char} (h : Text.At text position cs) :
    byteTerminator text position =
      (terminator cs).map fun n => position + Text.bytes (cs.take n) := by
  rw [byteTerminator, h.drop_data]
  exact byteTerminatorFrom_utf8 .start 0 cs

end Search

end TagExpander.Markup
