/-
  TagExpander.Proofs.Handler.Loop — what a loop puts out.

  A loop binds one key of the metadata to the items of a list, and a second one, if it is
  named, to their indices.  For each item it puts out a copy of the view that it was
  given, with these two keys set:

      get? key of the copy  =  the index         if key is the index key
                               the item          if key is the value key
                               that of the view  otherwise

  Main results:
    * `Builtin.forEach_of_binds` — what a loop with a list puts out.
    * `Builtin.forEach_eq_ok` — there is nothing else that it puts out.
    * `Builtin.Loop.get?_document` — the copies, key by key.
-/
import TagExpander.Proofs.Handler.Echoes

namespace TagExpander.Builtin

/-- A loop over the items of a list. -/
structure Loop where
  /-- The key of the items. -/
  valueKey : String
  /-- The key of their indices, if they are given one. -/
  indexKey : Option String
  items : List Json.Value

/-- The arguments name the keys of the loop, and a key that has the list of its items. -/
structure Binds (call : Invocation) (loop : Loop) (args : Binding) : Prop where
  bound : bound call ["Key", "ValueKey", "IndexKey"] = .ok args
  valueKey : args.get? "ValueKey" = some loop.valueKey
  ne_empty : loop.valueKey ≠ ""
  indexKey : (args.get? "IndexKey").filter (!·.isEmpty) = loop.indexKey
  items : (args.get? "Key").bind call.document.metadata.getList? = some loop.items

namespace Loop

/-- The copy for an item. -/
def document (loop : Loop) (call : Invocation) (item : Json.Value) (index : Nat) : Document :=
  itemDocument call loop.valueKey loop.indexKey item index

/-- The copies for all items. -/
def documents (loop : Loop) (call : Invocation) : List Document :=
  loop.items.zipIdx.map fun (item, i) => loop.document call item i

theorem getElem?_documents (loop : Loop) (call : Invocation) (i : Nat) :
    (loop.documents call)[i]? = loop.items[i]?.map fun item => loop.document call item i := by
  rw [documents, List.getElem?_map, List.getElem?_zipIdx, Option.map_map, Nat.zero_add]
  rfl

/-- **The copy for an item**, key by key. -/
theorem get?_document (loop : Loop) (call : Invocation) (item : Json.Value) (i : Nat)
    (key : String) :
    (loop.document call item i).metadata.get? key =
      if loop.indexKey = some key then some (.number (.int i))
      else if loop.valueKey = key then some item
      else call.document.metadata.get? key := by
  have hempty : Metadata.empty.get? key = none := rfl
  show (call.document.metadata.merge _).get? key = _
  rw [Metadata.get?_merge]
  cases loop.indexKey with
  | none =>
      rw [if_neg nofun]
      dsimp only
      rw [Metadata.get?_insert, hempty]
      split <;> rfl
  | some indexKey =>
      simp only [Option.some.injEq]
      rw [Metadata.get?_insert, Metadata.get?_insert, hempty]
      split
      · rfl
      · split <;> rfl

end Loop

variable {call : Invocation} {output : Output}

/-- A text is a value that is given, and not the empty one. -/
theorem textOf_eq_ok_iff {args : Binding} {parameter text : String} :
    textOf args parameter = .ok text ↔ args.get? parameter = some text ∧ text ≠ "" := by
  rw [textOf, Binding.requireText]
  cases args.get? parameter with
  | none => exact ⟨nofun, nofun⟩
  | some value =>
      rw [Option.some.injEq]
      dsimp only
      split
      next hempty =>
        refine ⟨nofun, ?_⟩
        rintro ⟨rfl, hne⟩
        exact absurd (String.isEmpty_iff.1 hempty) hne
      next hne =>
        rw [String.isEmpty_iff] at hne
        constructor
        · rintro ⟨⟩
          exact ⟨rfl, hne⟩
        · rintro ⟨rfl, -⟩
          rfl

/-- **A loop with a list** succeeds, and puts out a copy of its view for each item. -/
theorem forEach_of_binds {loop : Loop} {args : Binding} (h : Binds call loop args) :
    forEach call = .ok (.documents (loop.documents call)) := by
  obtain ⟨key, hkey, -⟩ := Option.bind_eq_some_iff.1 h.items
  have hrequire : args.require ["Key", "ValueKey"] = .ok () := by
    simp [Binding.require, Binding.has, hkey, h.valueKey]
  rw [forEach, h.bound]
  show ((args.require _).mapError _ >>= fun _ => textOf args "ValueKey" >>= _) = _
  rw [hrequire]
  show (textOf args "ValueKey" >>= _) = _
  rw [textOf_eq_ok_iff.2 ⟨h.valueKey, h.ne_empty⟩]
  dsimp only [bind, Except.bind]
  rw [h.items, h.indexKey]
  rfl

/-- A loop that succeeds puts out nothing, or copies of its view. -/
theorem forEach_eq_ok (h : forEach call = .ok output) :
    output = .none ∨ ∃ loop args, Binds call loop args ∧
      output = .documents (loop.documents call) := by
  obtain ⟨args, hargs, h⟩ := exists_of_bind_eq_ok h
  obtain ⟨_, -, h⟩ := exists_of_bind_eq_ok h
  obtain ⟨valueKey, htext, h⟩ := exists_of_bind_eq_ok h
  obtain ⟨hvalueKey, hne⟩ := textOf_eq_ok_iff.1 htext
  dsimp only at h
  split at h
  · exact .inl (Except.ok.inj h).symm
  next items hitems =>
    exact .inr ⟨⟨valueKey, _, items⟩, args, ⟨hargs, hvalueKey, hne, rfl, hitems⟩,
      (Except.ok.inj h).symm⟩

end TagExpander.Builtin
