/-
  TagExpander.Proofs.Registry.Registering — a registry holds what was registered last.

  A registration takes the place of the earlier ones of its name, in whatever spelling:

      registered    Note standard    Meta standard    NOTE raw
      resolves      note ↦ NOTE raw  meta ↦ Meta standard

  So what a name resolves to is read off the list of registrations, and everything else off
  what it resolves to: how a scan reads the tags of the name, how their output is treated,
  and how the names are listed.  The order in which the entries are kept cannot be seen.

  Main results:
    * `resolve?_registrations` — a name resolves to the last registration of it.
    * `names_of_perm` — the names are listed in one order, however the entries are kept.
    * `registrations_reflected` — the registry after any registrations.
-/
import Mathlib.Data.List.Dedup
import Mathlib.Data.List.Induction
import Mathlib.Data.List.Sort
import Mathlib.Data.String.Basic
import TagExpander.Proofs.Markup.Grammar
import TagExpander.Proofs.Pass.Run

namespace TagExpander

/-! ## §1. How markers were read. -/

namespace Markup

/-- The opening markers of a content, at any depth: their names, and whether what follows
    was taken as opaque. -/
def Content.openings : Content → List (String × Bool)
  | .text _ => []
  | .single _ _ _ rest => rest.openings
  | .raw _ _ m _ _ rest => (m.name, true) :: rest.openings
  | .paired _ _ m inner _ _ rest => (m.name, false) :: (inner.openings ++ rest.openings)

/-- What follows an opening marker is opaque exactly if its name is raw. -/
theorem Derives.snd_of_mem_openings {isRaw : String → Bool} {here stop : Cursor} {c : Content}
    (h : Derives isRaw here c stop) {opening : String × Bool} (hmem : opening ∈ c.openings) :
    opening.2 = isRaw opening.1 := by
  induction h with
  | text => cases hmem
  | single _ _ _ _ ih => exact ih hmem
  | raw _ _ _ hraw _ _ ih =>
      rcases List.mem_cons.1 hmem with rfl | hrest
      · exact hraw.symm
      · exact ih hrest
  | paired _ _ _ hraw _ _ _ ihinner ihrest =>
      rcases List.mem_cons.1 hmem with rfl | hmem
      · exact hraw.symm
      · rcases List.mem_append.1 hmem with hinner | hrest
        · exact ihinner hinner
        · exact ihrest hrest

end Markup

namespace Registry

variable {σ : Type}

/-! ## §2. What a name resolves to. -/

/-- The entry is the last one of its name among the registrations, the first one first. -/
def IsLast (es : List (Entry σ)) (name : String) (e : Entry σ) : Prop :=
  ∃ front back, es = front ++ e :: back ∧ Text.fold e.name = Text.fold name ∧
    ∀ later ∈ back, Text.fold later.name ≠ Text.fold name

/-- The last one of a name is the one that is added, or the last one before. -/
theorem isLast_append_singleton {es : List (Entry σ)} {added e : Entry σ} {name : String} :
    IsLast (es ++ [added]) name e ↔
      if Text.fold added.name = Text.fold name then e = added else IsLast es name e := by
  constructor
  · rintro ⟨front, back, heq, hname, hlater⟩
    rcases List.eq_nil_or_concat' back with rfl | ⟨back, last, rfl⟩
    · obtain ⟨rfl, hadded⟩ := List.append_inj' heq rfl
      cases hadded
      rw [if_pos hname]
    · rw [← List.cons_append, ← List.append_assoc] at heq
      obtain ⟨rfl, hadded⟩ := List.append_inj' heq rfl
      cases hadded
      rw [if_neg (hlater added (by simp))]
      refine ⟨front, back, rfl, hname, ?_⟩
      intro later hmem
      exact hlater later (List.mem_append_left _ hmem)
  · intro h
    split at h
    next hname =>
      subst h
      exact ⟨es, [], rfl, hname, by simp⟩
    next hname =>
      obtain ⟨front, back, rfl, he, hlater⟩ := h
      refine ⟨front, back ++ [added], by simp, he, ?_⟩
      intro later hmem
      rcases List.mem_append.1 hmem with hback | hadded
      · exact hlater later hback
      · rwa [List.mem_singleton.1 hadded]

/-- **A name resolves to the last registration of it**, up to case. -/
theorem resolve?_registrations (es : List (Entry σ)) (name : String) (e : Entry σ) :
    (es.foldl register empty).resolve? name = some e ↔ IsLast es name e := by
  -- on the registrations, the last one taken off
  induction es using List.reverseRecOn with
  | nil =>
      refine iff_of_false nofun ?_
      rintro ⟨front, back, heq, -⟩
      simp at heq
  | append_singleton es added ih =>
      rw [List.foldl_append, List.foldl_cons, List.foldl_nil, resolve?_register,
        isLast_append_singleton]
      split
      · rw [Option.some.injEq, eq_comm]
      · exact ih

/-- Some registration of a name is the last one. -/
theorem exists_isLast {es : List (Entry σ)} {name : String} :
    (∃ e, IsLast es name e) ↔ ∃ e ∈ es, Text.fold e.name = Text.fold name := by
  induction es using List.reverseRecOn with
  | nil =>
      refine iff_of_false ?_ (by simp)
      rintro ⟨e, front, back, heq, -⟩
      simp at heq
  | append_singleton es added ih =>
      simp only [isLast_append_singleton]
      by_cases hname : Text.fold added.name = Text.fold name
      · simp [hname]
      · simp [hname, ih]

/-! ## §3. The entries of a registry. -/

variable (r : Registry σ)

/-- A name in another spelling resolves to the same. -/
theorem resolve?_congr {name other : String} (h : Text.fold name = Text.fold other) :
    r.resolve? name = r.resolve? other := by
  unfold resolve?
  congr 1
  funext e
  rw [Text.same, Text.same, h]

/-- The entries are what the names resolve to. -/
theorem mem_entries_iff {e : Entry σ} : e ∈ r.entries ↔ r.resolve? e.name = some e := by
  constructor
  · intro hmem
    have hsame : (r.resolve? e.name).isSome := by
      rw [resolve?, List.find?_isSome]
      exact ⟨e, hmem, Text.same_refl e.name⟩
    obtain ⟨found, hfound⟩ := Option.isSome_iff_exists.1 hsame
    -- the one that is found has the same name, and there is no other
    have hname := fold_name_of_resolve? hfound
    rw [hfound, List.inj_on_of_nodup_map r.distinct (List.mem_of_find?_eq_some hfound) hmem hname]
  · intro h
    exact List.mem_of_find?_eq_some h

/-- The folded names of the entries are those that resolve to something. -/
theorem mem_map_fold_iff {name : String} :
    Text.fold name ∈ r.entries.map (fun e => Text.fold e.name) ↔
      ∃ e, r.resolve? name = some e := by
  constructor
  · intro hmem
    obtain ⟨e, he, hname⟩ := List.mem_map.1 hmem
    exact ⟨e, (r.resolve?_congr hname).symm.trans (r.mem_entries_iff.1 he)⟩
  · rintro ⟨e, he⟩
    exact List.mem_map.2 ⟨e, List.mem_of_find?_eq_some he, fold_name_of_resolve? he⟩

theorem contains_eq_true_iff {name : String} :
    r.contains name = true ↔ ∃ e, r.resolve? name = some e :=
  Option.isSome_iff_exists

theorem isRaw_eq_true_iff {name : String} :
    r.isRaw name = true ↔ ∃ e, r.resolve? name = some e ∧ e.kind = .raw := by
  simp [isRaw, Option.any_eq_true]

/-! ## §4. The names in order. -/

/-- The order in which names are listed. -/
abbrev nameLe (a b : String) : Bool :=
  decide (Text.fold a ≤ Text.fold b)

theorem pairwise_nameLe (names : List String) :
    (names.mergeSort nameLe).Pairwise fun a b => Text.fold a ≤ Text.fold b := by
  have htrans : ∀ a b c, nameLe a b = true → nameLe b c = true → nameLe a c = true := by
    intro a b c hab hbc
    exact decide_eq_true (String.le_trans (of_decide_eq_true hab) (of_decide_eq_true hbc))
  have htotal : ∀ a b, (nameLe a b || nameLe b a) = true := by
    intro a b
    rw [Bool.or_eq_true, decide_eq_true_iff, decide_eq_true_iff]
    exact String.le_total _ _
  exact (List.pairwise_mergeSort htrans htotal names).imp of_decide_eq_true

theorem names_perm : r.names.Perm (r.entries.map Entry.name) :=
  List.mergeSort_perm _ _

/-- The names are listed in strictly increasing order. -/
theorem pairwise_names : r.names.Pairwise fun a b => Text.fold a < Text.fold b := by
  have hle : r.names.Pairwise fun a b => Text.fold a ≤ Text.fold b := pairwise_nameLe _
  have hdistinct : (r.names.map Text.fold).Nodup := by
    refine ((r.names_perm.map Text.fold).nodup_iff).2 ?_
    rw [List.map_map]
    exact r.distinct
  have hne : r.names.Pairwise fun a b => Text.fold a ≠ Text.fold b :=
    List.pairwise_map.1 hdistinct
  refine hle.imp₂ ?_ hne
  intro a b hab hneq
  exact lt_of_le_of_ne hab hneq

/-- **The names are listed in one order**, however the entries are kept. -/
theorem names_of_perm {listing : List (Entry σ)} (h : listing.Perm r.entries) :
    (listing.map Entry.name).mergeSort nameLe = r.names := by
  have hperm : ((listing.map Entry.name).mergeSort nameLe).Perm r.names :=
    (List.mergeSort_perm _ _).trans ((h.map Entry.name).trans r.names_perm.symm)
  refine hperm.eq_of_pairwise ?_ (pairwise_nameLe _) (r.pairwise_names.imp le_of_lt)
  -- two names that fold to one text are the name of one entry
  intro a b ha hb hab hba
  have hfold : Text.fold a = Text.fold b := String.le_antisymm hab hba
  obtain ⟨e, he, rfl⟩ := List.mem_map.1 (r.names_perm.mem_iff.1 (hperm.mem_iff.1 ha))
  obtain ⟨e', he', rfl⟩ := List.mem_map.1 (r.names_perm.mem_iff.1 hb)
  rw [List.inj_on_of_nodup_map r.distinct he he' hfold]

/-! ## §5. The registry after registrations. -/

/-- The registry is what these registrations come to, the first one first. -/
structure Reflects (es : List (Entry σ)) : Prop where
  /-- A name resolves to the last registration of it: its spelling, its kind and its
      handler. -/
  resolves : ∀ name e, r.resolve? name = some e ↔ IsLast es name e
  /-- A name resolves to something if it was registered in some spelling. -/
  known : ∀ name, (∃ e, r.resolve? name = some e) ↔ ∃ e ∈ es, Text.fold e.name = Text.fold name
  /-- A registered name is one that resolves to something. -/
  contains : ∀ name, r.contains name = true ↔ ∃ e, r.resolve? name = some e
  /-- A raw name is one that resolves to a raw entry; so no unknown name is raw. -/
  isRaw : ∀ name, r.isRaw name = true ↔ ∃ e, r.resolve? name = some e ∧ e.kind = .raw
  /-- The spelling of a name does not matter. -/
  spelling : ∀ name other, Text.fold name = Text.fold other →
    r.resolve? name = r.resolve? other ∧ r.contains name = r.contains other ∧
      r.isRaw name = r.isRaw other
  /-- The scan of a text takes what follows an opening marker as opaque exactly if the output
      of the tags of its name is taken as it is. -/
  sameKind : ∀ text content, Markup.DerivesText r.isRaw text content →
    ∀ opening ∈ content.openings,
    ∀ (m : Type → Type) (e : Expander m σ) (source : String) (p : Pass.Progress σ) (depth : Nat)
      (tag : Markup.Tag) (evs : List (Pass.Event σ)) (output : Output) (kind : Kind),
      e.registry = r → Pass.Invoked e source p depth tag evs (.ok (output, kind)) →
      Text.fold tag.name = Text.fold opening.1 → (opening.2 = true ↔ kind = .raw)
  /-- There are as many entries as names, up to case. -/
  size : r.size = (es.map fun e => Text.fold e.name).dedup.length
  /-- The names are those of the last registrations, as they spell them. -/
  listed : ∀ name, name ∈ r.names ↔ ∃ e, r.resolve? name = some e ∧ e.name = name
  /-- They are listed in the order of their folded spellings, and none occurs twice. -/
  increasing : r.names.Pairwise fun a b => Text.fold a < Text.fold b
  /-- They are listed in this order in whatever order the entries are kept. -/
  oneOrder : ∀ listing : List (Entry σ), listing.Perm r.entries →
    (listing.map Entry.name).mergeSort nameLe = r.names

/-- A scan and a pass with the same registry agree on the kinds of the names. -/
theorem sameKind_of_derives {text : String} {content : Markup.Content}
    (hcontent : Markup.DerivesText r.isRaw text content) {opening : String × Bool}
    (hmem : opening ∈ content.openings) {m : Type → Type} {e : Expander m σ} {source : String}
    {p : Pass.Progress σ} {depth : Nat} {tag : Markup.Tag} {evs : List (Pass.Event σ)}
    {output : Output} {kind : Kind} (hregistry : e.registry = r)
    (hinvoked : Pass.Invoked e source p depth tag evs (.ok (output, kind)))
    (hname : Text.fold tag.name = Text.fold opening.1) : opening.2 = true ↔ kind = .raw := by
  subst hregistry
  obtain ⟨stop, hderives, -⟩ := hcontent
  cases hinvoked with
  | executed h _ =>
      rw [hderives.snd_of_mem_openings hmem,
        isRaw_eq ((e.registry.resolve?_congr hname).symm.trans h.resolves), beq_iff_eq]

/-- There are as many entries as names, up to case, that resolve to something. -/
theorem size_eq_length_dedup {es : List (Entry σ)}
    (h : ∀ name, (∃ e, r.resolve? name = some e) ↔
      ∃ e ∈ es, Text.fold e.name = Text.fold name) :
    r.size = (es.map fun e => Text.fold e.name).dedup.length := by
  have hperm : (r.entries.map fun e => Text.fold e.name).Perm
      (es.map fun e => Text.fold e.name).dedup := by
    refine (List.perm_ext_iff_of_nodup r.distinct (List.nodup_dedup _)).2 ?_
    intro key
    rw [List.mem_dedup]
    constructor
    · intro hmem
      obtain ⟨e, he, rfl⟩ := List.mem_map.1 hmem
      exact List.mem_map.2 ((h e.name).1 (r.mem_map_fold_iff.1 hmem))
    · intro hmem
      obtain ⟨e, he, rfl⟩ := List.mem_map.1 hmem
      exact r.mem_map_fold_iff.2 ((h e.name).2 ⟨e, he, rfl⟩)
  rw [size, ← hperm.length_eq, List.length_map]

theorem mem_names_iff {name : String} :
    name ∈ r.names ↔ ∃ e, r.resolve? name = some e ∧ e.name = name := by
  rw [r.names_perm.mem_iff, List.mem_map]
  constructor
  · rintro ⟨e, he, rfl⟩
    exact ⟨e, r.mem_entries_iff.1 he, rfl⟩
  · rintro ⟨e, he, rfl⟩
    exact ⟨e, r.mem_entries_iff.2 he, rfl⟩

/-- A registry that is filled from the empty one is what the registrations come to. -/
theorem reflects_registrations (es : List (Entry σ)) :
    (es.foldl register empty).Reflects es := by
  have hknown : ∀ name, (∃ e, (es.foldl register empty).resolve? name = some e) ↔
      ∃ e ∈ es, Text.fold e.name = Text.fold name := by
    intro name
    simp only [resolve?_registrations, exists_isLast]
  exact {
    resolves := resolve?_registrations es
    known := hknown
    contains := fun name => contains_eq_true_iff _
    isRaw := fun name => isRaw_eq_true_iff _
    spelling := by
      intro name other h
      have hresolve := (es.foldl register empty).resolve?_congr h
      exact ⟨hresolve, by rw [contains, contains, hresolve], by rw [isRaw, isRaw, hresolve]⟩
    sameKind := by
      intro text content hcontent opening hmem m e source p depth tag evs output kind
      exact sameKind_of_derives _ hcontent hmem
    size := size_eq_length_dedup _ hknown
    listed := fun name => mem_names_iff _
    increasing := pairwise_names _
    oneOrder := fun listing => names_of_perm _ }

/-- **The registry after any registrations**, from the empty one or that of the builtin
    handlers, is what all of them come to, those of the builtin handlers first. -/
theorem registrations_reflected [Inhabited σ] (builtins : Bool) (es : List (Entry σ)) :
    (es.foldl register (if builtins then Builtin.registry else empty)).Reflects
      ((if builtins then Builtin.entries else []) ++ es) := by
  cases builtins with
  | false => exact reflects_registrations es
  | true =>
      have hreflects := reflects_registrations (Builtin.entries ++ es)
      rw [List.foldl_append] at hreflects
      exact hreflects

end Registry

end TagExpander
