/-
  TagExpander.Proofs.Markup.Pairing — the markers of a content cancel out.

  The markers behind a place are read one after the other; a raw tag is passed over as
  a whole.  For one name, an opening marker of it weighs 1, a closing one -1 and every
  other marker 0.

  Main results:
    * `Derives.balanced` — the markers of a content weigh 0 for every name, and never
      less than 0 on the way.
    * `Derives.closesFirst` — a paired tag ends at the first marker at which as many
      tags of its name were closed as were opened, the tag itself included.
-/
import TagExpander.Proofs.Markup.Grammar

namespace TagExpander.Markup

/-! ## §1. Markers and their weight. -/

/-- A marker where it stands. -/
abbrev Placed := Cursor × Marker

/-- The markers behind a place, up to the end of the text or to a fault. -/
def markersFrom (isRaw : String → Bool) (here : Cursor) : List Placed :=
  match _h : here.seek with
  | none => []
  | some mark =>
    match _hm : Marker.read mark.rest with
    | .error _ => []
    | .ok m =>
      if m.role = .opening ∧ isRaw m.name = true then
        match _hr : rawCloser m.name (mark.skip m.length) with
        | none => []
        | some (_, stop) => markersFrom isRaw stop
      else (mark, m) :: markersFrom isRaw (mark.skip m.length)
termination_by here.rest.length
decreasing_by
  all_goals
    have hnext : (mark.skip m.length).rest.length < here.rest.length :=
      Cursor.length_seek_skip_lt _h (by have := Marker.three_lt_length _hm; omega)
  · exact Nat.lt_trans (length_rawCloser_lt _hr) hnext
  · exact hnext

/-- What a marker adds to the number of open tags of the name. -/
def Marker.weight (name : String) (m : Marker) : Int :=
  if Text.same name m.name = true then
    match m.role with
    | .opening => 1
    | .closing => -1
    | .selfClosing => 0
  else 0

/-- Opening markers of the name, less its closing markers. -/
def balance (name : String) : List Placed → Int
  | [] => 0
  | (_, m) :: ms => m.weight name + balance name ms

theorem balance_append (name : String) (xs ys : List Placed) :
    balance name (xs ++ ys) = balance name xs + balance name ys := by
  induction xs with
  | nil => rw [List.nil_append, balance, Int.zero_add]
  | cons x xs ih => rw [List.cons_append, balance, balance, ih, Int.add_assoc]

theorem balance_singleton (name : String) (mark : Cursor) (m : Marker) :
    balance name [(mark, m)] = m.weight name :=
  Int.add_zero _

/-- A closing marker undoes an opening one of its name, for every name. -/
theorem Marker.weight_add {m closing : Marker} (hm : m.role = .opening)
    (hc : closing.role = .closing) (hsame : Text.same m.name closing.name = true)
    (name : String) : m.weight name + closing.weight name = 0 := by
  have hfold : Text.fold m.name = Text.fold closing.name := Text.same_iff.1 hsame
  unfold Marker.weight Text.same
  rw [hm, hc, hfold]
  split
  · rfl
  · rfl

/-- An opening marker never lowers the balance. -/
theorem Marker.weight_nonneg {m : Marker} (hm : m.role = .opening) (name : String) :
    0 ≤ m.weight name := by
  unfold Marker.weight
  rw [hm]
  split
  · decide
  · decide

/-- A self-closing marker has no weight. -/
theorem Marker.weight_selfClosing {m : Marker} (hm : m.role = .selfClosing) (name : String) :
    m.weight name = 0 := by
  unfold Marker.weight
  rw [hm]
  split
  · rfl
  · rfl

/-! ## §2. Balanced lists of markers. -/

/-- As many tags are opened as closed, and none is closed that was not opened. -/
structure Balanced (ms : List Placed) : Prop where
  /-- No part from the start on closes more than it opens. -/
  nonneg : ∀ name part, part <+: ms → 0 ≤ balance name part
  /-- In the end nothing is open. -/
  zero : ∀ name, balance name ms = 0

/-- A part from the start of two lists ends in the first or in the second one. -/
theorem prefix_of_append {xs ys part : List Placed} (h : part <+: xs ++ ys) :
    part <+: xs ∨ ∃ more, more <+: ys ∧ part = xs ++ more := by
  obtain ⟨tail, htail⟩ := h
  rcases List.append_eq_append_iff.1 htail with ⟨more, hxs, -⟩ | ⟨more, hpart, hys⟩
  · exact .inl ⟨more, hxs.symm⟩
  · exact .inr ⟨more, ⟨tail, hys.symm⟩, hpart⟩

namespace Balanced

theorem nil : Balanced [] where
  nonneg := by
    intro name part hpart
    rw [List.prefix_nil.1 hpart]
    exact Int.le_refl 0
  zero := fun _ => rfl

theorem append {xs ys : List Placed} (hx : Balanced xs) (hy : Balanced ys) :
    Balanced (xs ++ ys) where
  nonneg := by
    intro name part hpart
    rcases prefix_of_append hpart with hxs | ⟨more, hmore, rfl⟩
    · exact hx.nonneg name part hxs
    -- the first list is passed as a whole and counts for nothing
    · rw [balance_append, hx.zero name, Int.zero_add]
      exact hy.nonneg name more hmore
  zero := by
    intro name
    rw [balance_append, hx.zero, hy.zero]
    rfl

/-- A self-closing marker by itself. -/
theorem single {mark : Cursor} {m : Marker} (hm : m.role = .selfClosing) :
    Balanced [(mark, m)] where
  nonneg := by
    intro name part hpart
    rcases List.prefix_cons_iff.1 hpart with rfl | ⟨more, rfl, hmore⟩
    · exact Int.le_refl 0
    · refine Int.le_of_eq ?_
      rw [List.prefix_nil.1 hmore, balance_singleton, Marker.weight_selfClosing hm]
  zero := by
    intro name
    rw [balance_singleton, Marker.weight_selfClosing hm]

/-- Balanced markers between the two markers of a tag. -/
theorem enclose {mark closer : Cursor} {m closing : Marker} {ms : List Placed}
    (h : Balanced ms) (hm : m.role = .opening) (hc : ClosedBy m.name closer closing) :
    Balanced ((mark, m) :: ms ++ [(closer, closing)]) where
  nonneg := by
    intro name part hpart
    rcases List.prefix_cons_iff.1 hpart with rfl | ⟨tail, rfl, htail⟩
    · exact Int.le_refl 0
    -- nothing yet, a part of the middle, or everything with or without the closer
    have hopen : 0 ≤ m.weight name := Marker.weight_nonneg hm name
    rcases prefix_of_append htail with hms | ⟨more, hmore, rfl⟩
    · exact Int.add_nonneg hopen (h.nonneg name tail hms)
    rcases List.prefix_cons_iff.1 hmore with rfl | ⟨last, rfl, hlast⟩
    · rw [List.append_nil, balance, h.zero]
      exact Int.add_nonneg hopen (Int.le_refl 0)
    · refine Int.le_of_eq ?_
      rw [List.prefix_nil.1 hlast, balance, balance_append, h.zero, Int.zero_add,
        balance_singleton, Marker.weight_add hm hc.role hc.same]
  zero := by
    intro name
    rw [List.cons_append, balance, balance_append, h.zero, Int.zero_add, balance_singleton,
      Marker.weight_add hm hc.role hc.same]

end Balanced

/-! ## §3. The markers of a content. -/

/-- The markers of a content, outside its raw tags. -/
def Content.markers : Content → List Placed
  | .text _ => []
  | .single _ mark m rest => [(mark, m)] ++ rest.markers
  | .raw _ _ _ _ _ rest => rest.markers
  | .paired _ mark m inner closer closing rest =>
    ((mark, m) :: inner.markers ++ [(closer, closing)]) ++ rest.markers

namespace Derives

variable {isRaw : String → Bool} {here stop : Cursor} {c : Content}

/-- The markers of a content open and close its tags, and no others. -/
theorem balanced (h : Derives isRaw here c stop) : Balanced c.markers := by
  induction h with
  | text => exact .nil
  | single _ _ hrole _ ih => exact (Balanced.single hrole).append ih
  | raw _ _ _ _ _ _ ih => exact ih
  | paired _ _ hrole _ _ hclose _ ihInner ihRest =>
      exact (ihInner.enclose hrole hclose).append ihRest

/-- The place at which a content stops is where the next marker is sought. -/
theorem seek_stop (h : Derives isRaw here c stop) : stop.rest = [] ∨ stop.seek = some stop := by
  induction h with
  | @text here =>
      cases hs : here.seek with
      | none =>
          rw [Cursor.ahead_of_none hs]
          exact .inl (List.drop_length)
      | some mark =>
          rw [Cursor.ahead_of_some hs]
          exact .inr (Cursor.seek_of_seek hs)
  | single _ _ _ _ ih => exact ih
  | raw _ _ _ _ _ _ ih => exact ih
  | paired _ _ _ _ _ _ _ _ ihRest => exact ihRest

/-- A content that a closing marker follows stops where that marker is found. -/
theorem seek_closer {closing : Marker} {name : String} (h : Derives isRaw here c stop)
    (hc : ClosedBy name stop closing) : stop.seek = some stop := by
  rcases h.seek_stop with hnil | hs
  · have hread := hc.read
    rw [hnil, Marker.read_nil] at hread
    cases hread
  · exact hs

end Derives

/-- The markers behind a place begin with the next one. -/
theorem markersFrom_of_seek {isRaw : String → Bool} {here mark : Cursor} {m : Marker}
    (hs : here.seek = some mark) (hm : Marker.read mark.rest = .ok m)
    (hraw : ¬(m.role = .opening ∧ isRaw m.name = true)) :
    markersFrom isRaw here = (mark, m) :: markersFrom isRaw (mark.skip m.length) := by
  rw [markersFrom]
  split
  next h => rw [hs] at h; cases h
  next mark' h =>
    rw [hs] at h
    cases h
    split
    next h => rw [hm] at h; cases h
    next m' h =>
      rw [hm] at h
      cases h
      rw [if_neg hraw]

/-- A raw tag is passed over. -/
theorem markersFrom_of_raw {isRaw : String → Bool} {here mark closer next : Cursor} {m : Marker}
    (hs : here.seek = some mark) (hm : Marker.read mark.rest = .ok m)
    (hraw : m.role = .opening ∧ isRaw m.name = true)
    (hclose : rawCloser m.name (mark.skip m.length) = some (closer, next)) :
    markersFrom isRaw here = markersFrom isRaw next := by
  rw [markersFrom]
  split
  next h => rw [hs] at h; cases h
  next mark' h =>
    rw [hs] at h
    cases h
    split
    next h => rw [hm] at h; cases h
    next m' h =>
      rw [hm] at h
      cases h
      rw [if_pos hraw]
      split
      next h => rw [hclose] at h; cases h
      next closer' stop h =>
        rw [hclose] at h
        cases h
        rfl

/-- The markers depend on nothing in front of the next one. -/
theorem markersFrom_ahead (isRaw : String → Bool) (here : Cursor) :
    markersFrom isRaw here = markersFrom isRaw here.ahead := by
  -- a marker is the next one for itself, and behind the end there is none
  have hseek : here.seek = here.ahead.seek := by
    cases hs : here.seek with
    | none =>
        rw [Cursor.ahead_of_none hs]
        exact (Cursor.seek_of_nil List.drop_length).symm
    | some mark =>
        rw [Cursor.ahead_of_some hs]
        exact (Cursor.seek_of_seek hs).symm
  unfold markersFrom
  rw [hseek]

namespace Derives

variable {isRaw : String → Bool} {here stop : Cursor} {c : Content}

/-- Behind a place stand the markers of the content there, and those behind it. -/
theorem markersFrom_eq (h : Derives isRaw here c stop) :
    markersFrom isRaw here = c.markers ++ markersFrom isRaw stop := by
  induction h with
  | @text here => exact markersFrom_ahead isRaw here
  | single hs hm hrole _ ih =>
      rw [markersFrom_of_seek hs hm (fun h => by cases hrole.symm.trans h.1), ih]
      rfl
  | raw hs hm hrole hraw hclose _ ih =>
      rw [markersFrom_of_raw hs hm ⟨hrole, hraw⟩ hclose, ih]
      rfl
  | paired hs hm hrole hraw hinner hclose _ ihInner ihRest =>
      have hcloser := hinner.seek_closer hclose
      rw [markersFrom_of_seek hs hm (fun h => by cases hraw.symm.trans h.2), ihInner,
        markersFrom_of_seek hcloser hclose.read (fun h => by cases hclose.role.symm.trans h.1),
        ihRest, Content.markers]
      simp only [List.cons_append, List.append_assoc, List.nil_append]

end Derives

/-! ## §4. Where a paired tag ends. -/

/-- The two markers of a paired tag. -/
structure Pair where
  mark : Cursor
  marker : Marker
  closer : Cursor
  closing : Marker

/-- The paired tags of a content, at every depth. -/
def Content.pairs : Content → List Pair
  | .text _ => []
  | .single _ _ _ rest => rest.pairs
  | .raw _ _ _ _ _ rest => rest.pairs
  | .paired _ mark m inner closer closing rest =>
    ⟨mark, m, closer, closing⟩ :: (inner.pairs ++ rest.pairs)

/-- Behind the opening marker, the closing one is the first at which the number of open
    tags of the name, 1 at the start, is 0. -/
def Pair.ClosesFirst (isRaw : String → Bool) (p : Pair) : Prop :=
  ∃ between behind,
    markersFrom isRaw (p.mark.skip p.marker.length) =
      between ++ (p.closer, p.closing) :: behind ∧
    (∀ part, part <+: between → 0 < 1 + balance p.marker.name part) ∧
    1 + balance p.marker.name (between ++ [(p.closer, p.closing)]) = 0

/-- Every paired tag of a content ends where the number of its open tags is 0 again. -/
theorem Derives.closesFirst {isRaw : String → Bool} {here stop : Cursor} {c : Content}
    (h : Derives isRaw here c stop) : ∀ p ∈ c.pairs, p.ClosesFirst isRaw := by
  induction h with
  | text =>
      intro p hp
      cases hp
  | single _ _ _ _ ih => exact ih
  | raw _ _ _ _ _ _ ih => exact ih
  | @paired here mark closer stop m closing inner rest hs hm hrole hraw hinner hclose _
      ihInner ihRest =>
      intro p hp
      rcases List.mem_cons.1 hp with rfl | hp
      · -- between the two markers stand those of the tags inside
        have hbalanced : Balanced inner.markers := hinner.balanced
        refine ⟨inner.markers, markersFrom isRaw (closer.skip closing.length), ?_, ?_, ?_⟩
        · show markersFrom isRaw (mark.skip m.length) = _
          rw [hinner.markersFrom_eq, markersFrom_of_seek (hinner.seek_closer hclose) hclose.read
            (fun h => by cases hclose.role.symm.trans h.1)]
        · intro part hpart
          have := hbalanced.nonneg m.name part hpart
          show 0 < 1 + balance m.name part
          omega
        -- the tags inside count for nothing, and the closer undoes the opening marker
        · show 1 + balance m.name (inner.markers ++ [(closer, closing)]) = 0
          have hopen : m.weight m.name = 1 := by
            unfold Marker.weight
            rw [if_pos (Text.same_refl m.name), hrole]
          rw [balance_append, hbalanced.zero, Int.zero_add, balance_singleton, ← hopen]
          exact Marker.weight_add hrole hclose.role hclose.same m.name
      · rcases List.mem_append.1 hp with hp | hp
        · exact ihInner p hp
        · exact ihRest p hp

end TagExpander.Markup
