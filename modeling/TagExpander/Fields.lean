/-
  TagExpander.Fields — named values in the order of their first insertion.

  A list of fields is a list of names with values.  Setting a name that is present
  replaces its value in place; a new name goes to the end.

  Main results:
    * `get?_put`, `keys_put` — setting a field: what is looked up, and in what order
      the names stand.
    * `nodup_keys_put` — setting a field keeps the names distinct.
-/

namespace TagExpander

/-- Named values; the first of two fields of one name is the one that counts. -/
abbrev Fields (α : Type) := List (String × α)

namespace Fields

variable {α : Type}

/-! ## §1. Operations -/

/-- The names, in order. -/
def keys (fs : Fields α) : List String :=
  fs.map Prod.fst

/-- The value under a name. -/
def get? : Fields α → String → Option α
  | [], _ => none
  | (k, v) :: fs, key => if k = key then some v else get? fs key

/-- Sets the value under a name. -/
def put : Fields α → String → α → Fields α
  | [], key, value => [(key, value)]
  | (k, v) :: fs, key, value =>
    if k = key then (k, value) :: fs else (k, v) :: put fs key value

/-! ## §2. Laws -/

/-- A name that is absent has no value. -/
theorem get?_eq_none_iff {fs : Fields α} {key : String} :
    fs.get? key = none ↔ key ∉ fs.keys := by
  induction fs with
  | nil => simp [get?, keys]
  | cons f fs ih =>
    obtain ⟨k, v⟩ := f
    by_cases hk : k = key
    · simp [get?, keys, hk]
    · have hk' : ¬ key = k := fun h => hk h.symm
      simp only [get?, hk, if_false, ih, keys, List.map_cons, List.mem_cons, hk', false_or]

/-- Looking up after setting a field. -/
theorem get?_put (fs : Fields α) (key : String) (value : α) (k : String) :
    (fs.put key value).get? k = if key = k then some value else fs.get? k := by
  induction fs with
  | nil => simp [put, get?]
  | cons f fs ih =>
    obtain ⟨k', v⟩ := f
    by_cases hk : k' = key
    · subst hk
      simp only [put, if_true, get?]
      split <;> rfl
    · simp only [put, hk, if_false, get?, ih]
      by_cases h₁ : k' = k
      · subst h₁
        simp [Ne.symm hk]
      · simp [h₁]

/-- The names after setting a field: a new one comes last. -/
theorem keys_put (fs : Fields α) (key : String) (value : α) :
    (fs.put key value).keys = if key ∈ fs.keys then fs.keys else fs.keys ++ [key] := by
  induction fs with
  | nil => simp [put, keys]
  | cons f fs ih =>
    obtain ⟨k, v⟩ := f
    by_cases hk : k = key
    · simp [put, keys, hk]
    · have hk' : ¬ key = k := fun h => hk h.symm
      simp only [keys] at ih
      simp only [put, hk, if_false, keys, List.map_cons, ih, List.mem_cons, hk', false_or]
      split <;> simp_all

/-- Setting a field keeps the names distinct. -/
theorem nodup_keys_put {fs : Fields α} (h : fs.keys.Nodup) (key : String) (value : α) :
    (fs.put key value).keys.Nodup := by
  rw [keys_put]
  split
  · exact h
  next hnew =>
    rw [List.nodup_append]
    refine ⟨h, by simp, ?_⟩
    intro a ha b hb
    rw [List.mem_singleton] at hb
    subst hb
    exact fun hab => hnew (hab ▸ ha)

end Fields

end TagExpander
