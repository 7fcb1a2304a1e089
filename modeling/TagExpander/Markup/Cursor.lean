/-
  TagExpander.Markup.Cursor — places in a text.

  A cursor knows how much text stands in front of it, in characters, in bytes and
  in lines, and holds the text that follows.

  Main results:
    * `rest_skip`, `length_skip_lt` — moving a cursor forward drops text.
    * `seek_eq_some_iff`, `seek_eq_none_iff` — seeking finds the first marker that
      follows, if there is one.
-/

import TagExpander.Markup.Marker
import TagExpander.Text.Basic

namespace TagExpander.Markup

/-- A place in a text. -/
structure Cursor where
  /-- Number of characters in front. -/
  chars : Nat
  /-- Number of bytes in front. -/
  bytes : Nat
  /-- Number of line feeds in front. -/
  newlines : Nat
  /-- The text that follows. -/
  rest : List Char
deriving DecidableEq, Inhabited

namespace Cursor

/-! ## §1. Moving -/

/-- The start of a text. -/
def start (cs : List Char) : Cursor :=
  ⟨0, 0, 0, cs⟩

/-- The line of a cursor; the first line is line 1. -/
def line (c : Cursor) : Nat :=
  c.newlines + 1

/-- The cursor `n` characters further on. -/
def skip (c : Cursor) (n : Nat) : Cursor :=
  let passed := c.rest.take n
  ⟨c.chars + passed.length, c.bytes + Text.bytes passed, c.newlines + Text.newlines passed,
    c.rest.drop n⟩

/-- The text between a cursor and a later one. -/
def upTo (c later : Cursor) : List Char :=
  c.rest.take (later.chars - c.chars)

/-- What follows a moved cursor. -/
@[simp] theorem rest_skip (c : Cursor) (n : Nat) : (c.skip n).rest = c.rest.drop n := rfl

/-- Two moves in a row are one move. -/
theorem skip_skip (c : Cursor) (n k : Nat) : (c.skip n).skip k = c.skip (n + k) := by
  unfold skip
  rw [List.take_add, List.drop_drop]
  simp only [List.length_append, Text.bytes_append, Text.newlines_append, Nat.add_assoc]

/-- A move by at least one character shortens a text that is not empty. -/
theorem length_skip_lt {c : Cursor} {n : Nat} (hn : 0 < n) (hc : 0 < c.rest.length) :
    (c.skip n).rest.length < c.rest.length := by
  rw [rest_skip, List.length_drop]
  omega

/-! ## §2. Seeking -/

/-- Number of characters in front of the first marker, counted on from `n`. -/
def markerFrom (n : Nat) : List Char → Option Nat
  | [] => none
  | c :: cs => if startsMarker (c :: cs) then some n else markerFrom (n + 1) cs

/-- The cursor at the first marker that follows. -/
def seek (c : Cursor) : Option Cursor :=
  (markerFrom 0 c.rest).map c.skip

/-- The place that is found is the start of a marker. -/
theorem markerFrom_eq_some {n k : Nat} {cs : List Char} (h : markerFrom n cs = some k) :
    n ≤ k ∧ startsMarker (cs.drop (k - n)) = true := by
  induction cs generalizing n with
  | nil => simp [markerFrom] at h
  | cons c cs ih =>
    rw [markerFrom] at h
    split at h
    next hs =>
      cases h
      simpa using hs
    · obtain ⟨hle, hs⟩ := ih h
      refine ⟨by omega, ?_⟩
      rw [show k - n = (k - (n + 1)) + 1 by omega, List.drop_succ_cons]
      exact hs

/-- There is no marker in front of the one that is found. -/
theorem startsMarker_of_lt_markerFrom {n k j : Nat} {cs : List Char} (h : markerFrom n cs = some k)
    (hj : n + j < k) : startsMarker (cs.drop j) = false := by
  induction cs generalizing n j with
  | nil => simp [markerFrom] at h
  | cons c cs ih =>
    rw [markerFrom] at h
    split at h
    · cases h
      omega
    next hs =>
      cases j with
      | zero => simpa using hs
      | succ j => exact ih h (by omega)

/-- Nothing is found exactly where no marker starts. -/
theorem markerFrom_eq_none_iff {n : Nat} {cs : List Char} :
    markerFrom n cs = none ↔ ∀ j, startsMarker (cs.drop j) = false := by
  induction cs generalizing n with
  | nil => simp [markerFrom, startsMarker]
  | cons c cs ih =>
    rw [markerFrom]
    constructor
    · intro h j
      split at h
      · cases h
      next hs =>
        cases j with
        | zero => simpa using hs
        | succ j => exact ih.1 h j
    · intro h
      rw [if_neg (by simpa using h 0)]
      exact ih.2 fun j => h (j + 1)

theorem markerFrom_of_first {n k : Nat} {cs : List Char} (hk : startsMarker (cs.drop k) = true)
    (hfirst : ∀ j < k, startsMarker (cs.drop j) = false) : markerFrom n cs = some (n + k) := by
  induction cs generalizing n k with
  | nil => simp [startsMarker] at hk
  | cons c cs ih =>
    rw [markerFrom]
    cases k with
    | zero => rw [if_pos (by simpa using hk), Nat.add_zero]
    | succ k =>
      have h0 := hfirst 0 (Nat.succ_pos k)
      rw [if_neg (by simpa using h0), ih hk fun j hj => hfirst (j + 1) (by omega)]
      congr 1
      omega

/-- Seeking finds the first marker that follows, and no other place. -/
theorem seek_eq_some_iff {c mark : Cursor} :
    c.seek = some mark ↔ ∃ k, mark = c.skip k ∧ startsMarker (c.rest.drop k) = true ∧
      ∀ j < k, startsMarker (c.rest.drop j) = false := by
  constructor
  · intro h
    obtain ⟨k, hk, rfl⟩ := Option.map_eq_some_iff.1 h
    have hs := (markerFrom_eq_some hk).2
    refine ⟨k, rfl, hs, fun j hj => startsMarker_of_lt_markerFrom hk (by omega)⟩
  · intro h
    obtain ⟨k, rfl, hk, hfirst⟩ := h
    rw [seek, markerFrom_of_first hk hfirst, Nat.zero_add]
    rfl

/-- Nothing is found exactly where no marker follows. -/
theorem seek_eq_none_iff {c : Cursor} :
    c.seek = none ↔ ∀ j, startsMarker (c.rest.drop j) = false := by
  rw [seek, Option.map_eq_none_iff, markerFrom_eq_none_iff]

/-- Seeking stops at the start of a marker. -/
theorem startsMarker_of_seek {c mark : Cursor} (h : c.seek = some mark) :
    startsMarker mark.rest = true := by
  obtain ⟨k, hk, rfl⟩ := Option.map_eq_some_iff.1 h
  simpa using (markerFrom_eq_some hk).2

/-- Seeking moves only forward, to a place that text follows. -/
theorem length_seek_le {c mark : Cursor} (h : c.seek = some mark) :
    0 < mark.rest.length ∧ mark.rest.length ≤ c.rest.length := by
  have hs := startsMarker_of_seek h
  obtain ⟨k, -, rfl⟩ := Option.map_eq_some_iff.1 h
  constructor
  · cases hr : (c.skip k).rest with
    | nil => rw [hr] at hs; cases hs
    | cons => simp
  · rw [rest_skip, List.length_drop]
    omega

/-- From a cursor to the next marker and over at least one character of it. -/
theorem length_seek_skip_lt {c mark : Cursor} {n : Nat} (h : c.seek = some mark) (hn : 0 < n) :
    (mark.skip n).rest.length < c.rest.length :=
  Nat.lt_of_lt_of_le (length_skip_lt hn (length_seek_le h).1) (length_seek_le h).2

end Cursor

end TagExpander.Markup
