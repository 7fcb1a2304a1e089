/-
  TagExpander.Proofs.Metadata.Merging — merging is an ordered overwriting.

  Merged metadata have the keys of the first, in their order, and behind them the new keys
  of the second, in theirs; a key of both keeps its first place and takes the later value.
  Metadata with the same keys in the same order and the same values are the same, so the
  laws of merging follow from two equations, one for the keys and one for the values:

      keys (a + b)    =  keys a, and the keys of b that are not in a
      get? (a + b) k  =  get? b k, or else get? a k

  Main results:
    * `keys_merge`, `eq_of_keys` — the first equation, and why the two are enough.
    * `merge_assoc`, `merge_self` — merging is associative and idempotent.
    * `overwritten_eq_merge` — documents merged one by one are merged at once.
    * `copyCell_eq` — a copy that is changed in place changes nothing else.
    * `merge_ordered` — all of them.
-/
import Mathlib.Data.List.Basic
import TagExpander.Proofs.Pass.Replay

namespace TagExpander

open Json (Value)

/-! ## §1. Keys and values are all there is. -/

/-- Fields of distinct names are the same if their names and values are. -/
theorem Fields.eq_of_keys {α : Type} {xs ys : Fields α} (hdistinct : xs.keys.Nodup)
    (hkeys : xs.keys = ys.keys) (hget : ∀ key, xs.get? key = ys.get? key) : xs = ys := by
  induction xs generalizing ys with
  | nil =>
      cases ys with
      | nil => rfl
      | cons y ys => cases hkeys
  | cons x xs ih =>
      obtain ⟨key, value⟩ := x
      cases ys with
      | nil => cases hkeys
      | cons y ys =>
          obtain ⟨key', value'⟩ := y
          simp only [keys, List.map_cons, List.cons.injEq] at hkeys hdistinct
          obtain ⟨rfl, hkeys⟩ := hkeys
          obtain ⟨hnew, hdistinct⟩ := List.nodup_cons.1 hdistinct
          have hvalue : value = value' := by
            have hhead := hget key
            simpa [get?] using hhead
          have htail : xs = ys := by
            refine ih hdistinct hkeys ?_
            intro k
            by_cases hk : key = k
            · -- a name occurs once, so it has no value in the rest
              subst hk
              rw [get?_eq_none_iff.2 hnew, get?_eq_none_iff.2]
              show key ∉ ys.map Prod.fst
              rw [← hkeys]
              exact hnew
            · have hrest := hget k
              simpa [get?, hk] using hrest
          rw [hvalue, htail]

namespace Metadata

variable {a b : Metadata}

/-- **Metadata are the same if their keys, in order, and their values are.** -/
theorem eq_of_keys (hkeys : a.keys = b.keys) (hget : ∀ key, a.get? key = b.get? key) : a = b :=
  ext_fields (Fields.eq_of_keys a.distinct hkeys hget)

theorem get?_eq_none_iff {key : String} : a.get? key = none ↔ key ∉ a.keys :=
  Fields.get?_eq_none_iff

theorem keys_insert (a : Metadata) (key : String) (value : Value) :
    (a.insert key value).keys = if key ∈ a.keys then a.keys else a.keys ++ [key] :=
  Fields.keys_put a.fields key value

theorem keys_insertAll (a : Metadata) {fields : Fields Value} (hdistinct : fields.keys.Nodup) :
    (a.insertAll fields).keys = a.keys ++ fields.keys.filter (· ∉ a.keys) := by
  induction fields generalizing a with
  | nil => simp [insertAll, Fields.keys]
  | cons f fields ih =>
      obtain ⟨key, value⟩ := f
      obtain ⟨hnew, hdistinct⟩ := List.nodup_cons.1 hdistinct
      show ((a.insert key value).insertAll fields).keys =
        a.keys ++ (key :: Fields.keys fields).filter (· ∉ a.keys)
      rw [ih _ hdistinct, keys_insert]
      by_cases hkey : key ∈ a.keys
      · simp [hkey]
      · -- a new key goes to the end, and it is none of the keys behind it
        have hfilter : (Fields.keys fields).filter (· ∉ a.keys ++ [key]) =
            (Fields.keys fields).filter (· ∉ a.keys) := by
          apply List.filter_congr
          intro k hk
          have hne : k ≠ key := by
            rintro rfl
            exact hnew hk
          simp [hne]
        rw [if_neg hkey, hfilter]
        simp [hkey]

/-- **The keys of merged metadata**: those of the first, and behind them the new ones. -/
theorem keys_merge (a b : Metadata) :
    (a.merge b).keys = a.keys ++ b.keys.filter (· ∉ a.keys) :=
  keys_insertAll a b.distinct

/-! ## §2. The laws of merging. -/

theorem merge_empty (a : Metadata) : a.merge .empty = a :=
  rfl

theorem empty_merge (a : Metadata) : empty.merge a = a := by
  apply eq_of_keys
  · rw [keys_merge]
    simp [empty, keys, Fields.keys]
  · intro key
    rw [get?_merge]
    show (a.get? key).or none = a.get? key
    simp

/-- Metadata with the same keys in the same order are overwritten altogether. -/
theorem merge_of_keys_eq (h : a.keys = b.keys) : a.merge b = b := by
  apply eq_of_keys
  · rw [keys_merge, h]
    simp
  · intro key
    rw [get?_merge]
    cases hkey : b.get? key with
    | some value => rfl
    | none =>
        show a.get? key = none
        rw [get?_eq_none_iff, h, ← get?_eq_none_iff]
        exact hkey

/-- **Merging is idempotent.** -/
theorem merge_self (a : Metadata) : a.merge a = a :=
  merge_of_keys_eq rfl

/-- **Merging is associative.** -/
theorem merge_assoc (a b c : Metadata) : (a.merge b).merge c = a.merge (b.merge c) := by
  apply eq_of_keys
  · -- a new key of the third is in neither of the others, on both sides
    simp only [keys_merge, List.filter_append, List.filter_filter, List.append_assoc,
      List.append_cancel_left_eq]
    apply List.filter_congr
    intro key _
    by_cases hkey : key ∈ a.keys <;> simp [hkey]
  · intro key
    simp only [get?_merge, Option.or_assoc]

end Metadata

/-! ## §3. Documents merged one by one. -/

namespace Pass

variable {σ : Type}

/-- **Documents that are merged one by one are merged at once.** -/
theorem overwritten_eq_merge (metadata : Metadata) (docs : List Document) :
    overwritten metadata docs = metadata.merge (overwritten .empty docs) := by
  induction docs generalizing metadata with
  | nil => rfl
  | cons d docs ih =>
      show overwritten (metadata.merge d.metadata) docs =
        metadata.merge (overwritten (Metadata.empty.merge d.metadata) docs)
      rw [ih (metadata.merge d.metadata), ih (Metadata.empty.merge d.metadata),
        Metadata.empty_merge, Metadata.merge_assoc]

end Pass

/-! ## §4. Copies that are changed in place. -/

namespace Document

/-- Sets a field of the document in a cell, in place. -/
def setField (cells : List Document) (i : Nat) (field : String × Value) : List Document :=
  cells.modify i (·.withItem field.1 field.2)

/-- Overwrites the metadata in a cell in place, one field after the other. -/
def overwriteCell (cells : List Document) (i : Nat) (delta : Metadata) : List Document :=
  delta.fields.foldl (setField · i ·) cells

/-- Puts a document into a new cell behind the others, with other text if this is given, and
    overwrites the metadata there in place with those of a cell, if one is given. -/
def copyCell (cells : List Document) (receiver : Fin cells.length)
    (delta : Option (Fin cells.length)) (content : Option String) : List Document :=
  let fresh := cells ++ [⟨content.getD cells[receiver].content, cells[receiver].metadata⟩]
  match delta with
  | none => fresh
  | some delta => overwriteCell fresh cells.length cells[delta].metadata

theorem setField_last (cells : List Document) (d : Document) (field : String × Value) :
    setField (cells ++ [d]) cells.length field = cells ++ [d.withItem field.1 field.2] := by
  unfold setField
  induction cells with
  | nil => rfl
  | cons c cells ih =>
      show ((c :: (cells ++ [d])).modify (cells.length + 1) _) = c :: (cells ++ [_])
      rw [List.modify_succ_cons, ih]

/-- Overwriting the last cell leaves the others alone. -/
theorem overwriteCell_last (cells : List Document) (d : Document) (delta : Metadata) :
    overwriteCell (cells ++ [d]) cells.length delta =
      cells ++ [⟨d.content, d.metadata.merge delta⟩] := by
  rw [overwriteCell, Metadata.merge]
  generalize delta.fields = fields
  induction fields generalizing d with
  | nil => rfl
  | cons f fields ih =>
      rw [List.foldl_cons, setField_last, ih]
      rfl

/-- **A copy that is changed in place** is the copy, and nothing else has changed. -/
theorem copyCell_eq (cells : List Document) (receiver : Fin cells.length)
    (delta : Option (Fin cells.length)) (content : Option String) :
    copyCell cells receiver delta content =
      cells ++ [cells[receiver].copy (delta.map fun i => cells[i].metadata) content] := by
  cases delta with
  | none => rfl
  | some delta => exact overwriteCell_last cells _ cells[delta].metadata

end Document

/-! ## §5. All laws. -/

/-- **Merging is an ordered, associative overwriting.**
    * Merged metadata have no key twice; their values are those of the second, or else those
      of the first; their keys are those of the first, and behind them the new ones of the
      second, in order.
    * Merging is associative and idempotent, with the empty metadata on both sides.
    * What a pass carries along are its first metadata, merged at once with all documents
      that were put out.
    * A copy that is made in a new cell, field by field, is the merged document, and the
      cells of the document, of the metadata and all others stay as they are. -/
theorem Metadata.merge_ordered (a b c : Metadata) :
    ((a.merge b).keys.Nodup ∧
      (∀ key, (a.merge b).get? key = (b.get? key).or (a.get? key)) ∧
      (a.merge b).keys = a.keys ++ b.keys.filter (· ∉ a.keys)) ∧
    ((a.merge b).merge c = a.merge (b.merge c) ∧ a.merge a = a ∧
      a.merge .empty = a ∧ empty.merge a = a) ∧
    (∀ (σ : Type) (p : Pass.Progress σ) (evs : List (Pass.Event σ)),
      (p.replay evs).metadata =
        p.metadata.merge (Pass.overwritten .empty (Pass.documentsOf evs))) ∧
    (∀ (cells : List Document) (receiver : Fin cells.length) (delta : Option (Fin cells.length))
      (content : Option String),
      Document.copyCell cells receiver delta content =
        cells ++ [cells[receiver].copy (delta.map fun i => cells[i].metadata) content]) := by
  refine ⟨⟨(a.merge b).distinct, get?_merge a b, keys_merge a b⟩,
    ⟨merge_assoc a b c, merge_self a, merge_empty a, empty_merge a⟩, ?_,
    Document.copyCell_eq⟩
  intro σ p evs
  rw [Pass.Progress.metadata_replay, Pass.overwritten_eq_merge]

end TagExpander
