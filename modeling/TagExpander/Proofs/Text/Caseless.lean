/-
  TagExpander.Proofs.Text.Caseless — what lower-case letters leave alone.

  Lowering the letters A to Z changes no blank, no quotation mark and no other character
  that a reader looks for, and no length, in characters, bytes or lines.  So a reader that
  asks of each character only whether it is in such a class reads a lowered text as it
  reads the text.

  Main results:
    * `ignoresCase_of_letters` — a class is blind to case if it is for the 26 letters.
    * `takeWhile_lower`, `dropWhile_lower` — runs of characters of such a class.
    * `fold_fold`, `same_fold` — folding two names does not change whether they are the
      same.
-/
import TagExpander.Text.Basic

namespace TagExpander.Text

/-! ## §1. Characters. -/

/-- A class of characters that holds a letter exactly if it holds its lower-case form. -/
def IgnoresCase (p : Char → Bool) : Prop :=
  ∀ c : Char, p c.toLower = p c

/-- Only the 26 letters have another lower-case form. -/
theorem toLower_cases (c : Char) :
    c.toLower = c ∨ ∃ n < 26, c = Char.ofNat (65 + n) ∧ c.toLower = Char.ofNat (97 + n) := by
  by_cases hletter : 65 ≤ c.toNat ∧ c.toNat ≤ 90
  · have hc : Char.ofNat (65 + (c.toNat - 65)) = c := by
      rw [Nat.add_sub_cancel' hletter.1, Char.ofNat_toNat]
    have hletters : ∀ n < 26, (Char.ofNat (65 + n)).toLower = Char.ofNat (97 + n) := by decide
    have hlower := hletters (c.toNat - 65) (by omega)
    rw [hc] at hlower
    exact .inr ⟨c.toNat - 65, by omega, hc.symm, hlower⟩
  · refine .inl (dif_neg fun h => hletter ?_)
    exact ⟨UInt32.le_iff_toNat_le.1 h.1, UInt32.le_iff_toNat_le.1 h.2⟩

/-- A class is blind to case if it is for the 26 letters. -/
theorem ignoresCase_of_letters {p : Char → Bool}
    (h : ∀ n < 26, p (Char.ofNat (97 + n)) = p (Char.ofNat (65 + n))) : IgnoresCase p := by
  intro c
  rcases toLower_cases c with heq | ⟨n, hn, hupper, hlower⟩
  · rw [heq]
  · rw [hlower, h n hn, ← hupper]

theorem IgnoresCase.comp_toLower {p : Char → Bool} (h : IgnoresCase p) : p ∘ Char.toLower = p :=
  funext h

/-- A character that is no letter is found where it stands in the text. -/
theorem beq_toLower {x : Char} (h : IgnoresCase (· == x)) (c : Char) :
    (c.toLower == x) = (c == x) :=
  h c

theorem toLower_eq_iff {x : Char} (h : IgnoresCase (· == x)) (c : Char) :
    c.toLower = x ↔ c = x := by
  rw [← beq_iff_eq, beq_toLower h, beq_iff_eq]

theorem isBlank_toLower : IgnoresCase isBlank :=
  ignoresCase_of_letters (by decide)

/-- Lower-case letters stay as they are. -/
theorem toLower_toLower (c : Char) : c.toLower.toLower = c.toLower := by
  have hletters : ∀ n < 26, (Char.ofNat (97 + n)).toLower = Char.ofNat (97 + n) := by decide
  rcases toLower_cases c with heq | ⟨n, hn, -, hlower⟩
  · rw [heq, heq]
  · rw [hlower, hletters n hn]

/-- Letters take up one byte, in either case. -/
theorem utf8Size_toLower (c : Char) : c.toLower.utf8Size = c.utf8Size := by
  have hletters : ∀ n < 26, (Char.ofNat (97 + n)).utf8Size = (Char.ofNat (65 + n)).utf8Size := by
    decide
  rcases toLower_cases c with heq | ⟨n, hn, hupper, hlower⟩
  · rw [heq]
  · rw [hlower, hletters n hn, ← hupper]

/-! ## §2. Texts. -/

/-- The lower-case form of a text. -/
def lower (cs : List Char) : List Char :=
  cs.map Char.toLower

@[simp] theorem lower_cons (c : Char) (cs : List Char) :
    lower (c :: cs) = c.toLower :: lower cs := rfl

@[simp] theorem length_lower (cs : List Char) : (lower cs).length = cs.length :=
  List.length_map _

/-- A text starts with a character that is no letter in either case, or in none. -/
theorem head?_lower_eq_iff {x : Char} (h : IgnoresCase (· == x)) (cs : List Char) :
    (lower cs).head? = some x ↔ cs.head? = some x := by
  cases cs with
  | nil => exact Iff.rfl
  | cons c cs =>
      rw [lower_cons, List.head?_cons, List.head?_cons, Option.some_inj, Option.some_inj,
        toLower_eq_iff h]

theorem take_lower (n : Nat) (cs : List Char) : (lower cs).take n = lower (cs.take n) :=
  List.map_take.symm

theorem drop_lower (n : Nat) (cs : List Char) : (lower cs).drop n = lower (cs.drop n) :=
  List.map_drop.symm

theorem reverse_lower (cs : List Char) : (lower cs).reverse = lower cs.reverse :=
  List.map_reverse.symm

/-- A run of characters of a class is as long as in the text. -/
theorem takeWhile_lower {p : Char → Bool} (h : IgnoresCase p) (cs : List Char) :
    (lower cs).takeWhile p = lower (cs.takeWhile p) := by
  rw [lower, List.takeWhile_map, h.comp_toLower, lower]

theorem dropWhile_lower {p : Char → Bool} (h : IgnoresCase p) (cs : List Char) :
    (lower cs).dropWhile p = lower (cs.dropWhile p) := by
  rw [lower, List.dropWhile_map, h.comp_toLower, lower]

theorem trimLeft_lower (cs : List Char) : trimLeft (lower cs) = lower (trimLeft cs) :=
  dropWhile_lower isBlank_toLower cs

theorem allBlank_lower (cs : List Char) : allBlank (lower cs) = allBlank cs := by
  rw [allBlank, lower, List.all_map, isBlank_toLower.comp_toLower, allBlank]

/-- A pattern without letters starts a text in either case. -/
theorem prefix_lower_iff {pattern cs : List Char} (h : ∀ x ∈ pattern, IgnoresCase (· == x)) :
    pattern <+: lower cs ↔ pattern <+: cs := by
  induction pattern generalizing cs with
  | nil => exact iff_of_true (List.nil_prefix) (List.nil_prefix)
  | cons x pattern ih =>
      cases cs with
      | nil => exact Iff.rfl
      | cons c cs =>
          rw [lower_cons, List.cons_prefix_cons, List.cons_prefix_cons,
            ih fun y hy => h y (List.mem_cons_of_mem x hy), eq_comm (b := c.toLower),
            toLower_eq_iff (h x List.mem_cons_self), eq_comm]

@[simp] theorem bytes_lower (cs : List Char) : bytes (lower cs) = bytes cs := by
  induction cs with
  | nil => rfl
  | cons c cs ih => rw [lower_cons, bytes_cons, bytes_cons, utf8Size_toLower, ih]

@[simp] theorem newlines_lower (cs : List Char) : newlines (lower cs) = newlines cs := by
  have hline := beq_toLower (x := '\n') (ignoresCase_of_letters (by decide))
  induction cs with
  | nil => rfl
  | cons c cs ih =>
      rw [newlines, newlines] at ih ⊢
      rw [lower_cons, List.count_cons, List.count_cons, ih, hline c]

/-! ## §3. Names. -/

/-- Folding a text lowers its characters. -/
theorem toList_fold (s : String) : (fold s).toList = lower s.toList :=
  String.toList_ofList

theorem fold_ofList (cs : List Char) : fold (String.ofList cs) = String.ofList (lower cs) := by
  rw [fold, String.toList_ofList, lower]

theorem fold_append (a b : String) : fold (a ++ b) = fold a ++ fold b := by
  rw [fold, String.toList_append, List.map_append, String.ofList_append]
  rfl

theorem isEmpty_fold (s : String) : (fold s).isEmpty = s.isEmpty := by
  rw [Bool.eq_iff_iff, String.isEmpty_iff, String.isEmpty_iff, ← String.toList_eq_nil_iff,
    ← String.toList_eq_nil_iff, toList_fold, lower, List.map_eq_nil_iff]

/-- Folding twice is folding once. -/
theorem fold_fold (s : String) : fold (fold s) = fold s := by
  have hlower : lower (lower s.toList) = lower s.toList := by
    rw [lower, lower, List.map_map, funext (f := Char.toLower ∘ Char.toLower) toLower_toLower]
  rw [fold, toList_fold]
  exact congrArg String.ofList hlower

/-- Folding two names does not change whether they are the same. -/
theorem same_fold (a b : String) : same (fold a) (fold b) = same a b := by
  rw [same, fold_fold, fold_fold, same]

/-- A name is the same as its folded form. -/
theorem same_fold_self (a : String) : same (fold a) a = true :=
  same_iff.2 (fold_fold a)

end TagExpander.Text
