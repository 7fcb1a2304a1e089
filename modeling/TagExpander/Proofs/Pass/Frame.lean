/-
  TagExpander.Proofs.Pass.Frame — what the builtin handlers leave of the metadata.

  Each item of a loop puts out a copy of all metadata, which is merged again, at any
  depth.  Still only the keys that loops bind can change:

      at first      { a, b, c }
      afterwards    { a, b, c, new keys … }      a, b, c as at first, unless a loop binds them

  Main results:
    * `Metadata.prefix_keys_merge` — merging keeps the keys in their order.
    * `Builtin.frames` — what the builtin handlers put out can be merged.
    * `Run.framed` — a run with such handlers keeps the frame.
    * `process_builtins_frame` — what a pass with the builtin handlers leaves.
-/
import TagExpander.Proofs.Handler.Loop
import TagExpander.Proofs.Pass.Trace

namespace TagExpander

variable {σ : Type}

/-! ## §1. Frames. -/

namespace Metadata

theorem prefix_keys_insert (metadata : Metadata) (key : String) (value : Json.Value) :
    metadata.keys <+: (metadata.insert key value).keys := by
  rw [keys, keys, insert, Fields.keys_put]
  split
  · exact List.prefix_rfl
  · exact List.prefix_append _ _

theorem prefix_keys_insertAll (metadata : Metadata) (fields : Fields Json.Value) :
    metadata.keys <+: (metadata.insertAll fields).keys := by
  induction fields generalizing metadata with
  | nil => exact List.prefix_rfl
  | cons field fields ih => exact (prefix_keys_insert metadata field.1 field.2).trans (ih _)

/-- **Merging keeps the keys in their order**, in front of all new ones. -/
theorem prefix_keys_merge (metadata delta : Metadata) :
    metadata.keys <+: (metadata.merge delta).keys :=
  prefix_keys_insertAll metadata delta.fields

/-- The metadata are the first ones, but for some keys. -/
structure Framed (initial : Metadata) (keys : List String) (metadata : Metadata) : Prop where
  /-- The other keys have the values that they had at first, or none if they had none. -/
  outside : ∀ key ∉ keys, metadata.get? key = initial.get? key
  /-- The first keys are still there, in their order, in front of all new ones. -/
  order : initial.keys <+: metadata.keys

/-- Metadata that can be merged: but for some keys, they have values only that there were
    at first. -/
def Harmless (initial : Metadata) (keys : List String) (delta : Metadata) : Prop :=
  ∀ key ∉ keys, ∀ value, delta.get? key = some value → initial.get? key = some value

variable {initial metadata delta : Metadata} {keys keys' : List String}

theorem Framed.refl (initial : Metadata) : Framed initial [] initial :=
  ⟨fun _ _ => rfl, List.prefix_rfl⟩

theorem Framed.mono (h : Framed initial keys metadata) (hkeys : keys ⊆ keys') :
    Framed initial keys' metadata :=
  ⟨fun key hkey => h.outside key (mt (@hkeys key) hkey), h.order⟩

theorem Harmless.mono (h : Harmless initial keys delta) (hkeys : keys ⊆ keys') :
    Harmless initial keys' delta :=
  fun key hkey => h key (mt (@hkeys key) hkey)

theorem harmless_empty : Harmless initial keys .empty :=
  fun _ _ _ hvalue => nomatch hvalue

/-- Merging what is harmless keeps the frame. -/
theorem Framed.merge (h : Framed initial keys metadata) (hdelta : Harmless initial keys delta) :
    Framed initial keys (metadata.merge delta) where
  outside := by
    intro key hkey
    rw [Metadata.get?_merge]
    cases hget : delta.get? key with
    | none => exact h.outside key hkey
    | some value => exact (hdelta key hkey value hget).symm
  order := h.order.trans (Metadata.prefix_keys_merge metadata delta)

end Metadata

open Metadata (Framed Harmless)

/-! ## §2. Handlers. -/

/-- The keys that a tag binds: the value key of a loop, and its index key if that is a
    text. -/
def Invocation.loopKeys (handlerName : String) (call : Invocation) : List String :=
  if handlerName = "ForEach" then
    match Builtin.bound call ["Key", "ValueKey", "IndexKey"] with
    | .error _ => []
    | .ok args =>
      (args.get? "ValueKey").toList ++ ((args.get? "IndexKey").filter (!·.isEmpty)).toList
  else []

/-- What the handlers put out can be merged, but for the keys that the tag binds. -/
def Registry.Frames (registry : Registry σ) : Prop :=
  ∀ {name : String} {entry : Entry σ} {state : σ} {call : Invocation} {signal : StopSignal}
    {ran : Script.Ran (σ × Except HandlerFault Output)} {output : Output} {d : Document}
    {initial : Metadata} {keys : List String},
    registry.resolve? name = some entry → (entry.handler.execute state call).Runs signal ran →
    ran.result.2 = .ok output → d ∈ output.docs → Framed initial keys call.document.metadata →
    Harmless initial (keys ++ call.loopKeys entry.name) d.metadata

namespace Builtin

variable {call : Invocation} {output : Output} {d : Document}

/-- What a loop puts out differs from its view in the keys that it binds. -/
theorem harmless_of_forEach {initial : Metadata} {keys : List String}
    (h : forEach call = .ok output) (hd : d ∈ output.docs)
    (hview : Framed initial keys call.document.metadata) :
    Harmless initial (keys ++ call.loopKeys "ForEach") d.metadata := by
  rcases forEach_eq_ok h with rfl | ⟨loop, args, hbinds, rfl⟩
  · cases hd
  · obtain ⟨⟨item, i⟩, -, rfl⟩ := List.mem_map.1 hd
    intro key hkey value hvalue
    rw [List.mem_append, not_or, Invocation.loopKeys, if_pos rfl, hbinds.bound] at hkey
    dsimp only at hkey hvalue
    rw [List.mem_append, not_or, Option.mem_toList, Option.mem_toList, hbinds.valueKey,
      hbinds.indexKey] at hkey
    obtain ⟨hkeys, hvalueKey, hindexKey⟩ := hkey
    rw [loop.get?_document, if_neg hindexKey, if_neg (fun heq => hvalueKey (congrArg some heq)),
      hview.outside key hkeys] at hvalue
    exact hvalue

/-- A text without metadata can be put out, as it is or to be expanded. -/
theorem harmless_of_text {initial : Metadata} {keys : List String}
    (h : (∃ text, output = .ofContent text ∨ output = .ofRaw text) ∨ output = .none)
    (hd : d ∈ output.docs) : Harmless initial keys d.metadata := by
  rcases h with ⟨text, rfl | rfl⟩ | rfl
  · rw [List.mem_singleton.1 hd]
    exact Metadata.harmless_empty
  · rw [List.mem_singleton.1 hd]
    exact Metadata.harmless_empty
  · cases hd

/-- **What the builtin handlers put out can be merged**, but for the keys that a loop
    binds. -/
theorem frames [Inhabited σ] : (registry : Registry σ).Frames := by
  intro name entry state call signal ran output d initial keys hresolve hran hresult hd hview
  have hmem := mem_entries_of_resolve? hresolve
  simp only [entries, List.mem_cons, List.not_mem_nil, or_false] at hmem
  rcases hmem with rfl | rfl | rfl | rfl | rfl
  -- all but the loop put out one text, or nothing
  · rw [result_of_pureHandler hran] at hresult
    cases hresult
    exact harmless_of_text (.inl ⟨call.content, .inr rfl⟩) hd
  · rw [result_of_pureHandler hran] at hresult
    refine harmless_of_text ?_ hd
    exact (metadataValue_eq_ok hresult).imp_left (Exists.imp fun _ => .inr)
  · rw [result_of_pureHandler hran] at hresult
    exact harmless_of_forEach hresult hd hview
  · rw [result_of_pureHandler hran] at hresult
    refine harmless_of_text ?_ hd
    exact (condition_eq_ok hresult).imp_left fun h => ⟨call.content, .inl h⟩
  · obtain ⟨answered, hanswered, hresult', -⟩ := Script.Runs.of_stateless hran
    rw [hresult'] at hresult
    obtain ⟨path, text, -, houtput⟩ := inclusion_eq_ok hanswered hresult
    exact harmless_of_text (.inl ⟨text, .inl houtput⟩) hd

end Builtin

namespace Pass

variable {m : Type → Type}

/-! ## §3. Runs. -/

/-- The keys that the tags of a history bind. -/
def boundKeys (evs : List (Event σ)) : List String :=
  evs.flatMap fun
    | .executed call => call.invocation.loopKeys call.handlerName
    | _ => []

theorem boundKeys_append (evs evs' : List (Event σ)) :
    boundKeys (evs ++ evs') = boundKeys evs ++ boundKeys evs' :=
  List.flatMap_append

theorem boundKeys_subset_append (evs evs' : List (Event σ)) :
    boundKeys evs ⊆ boundKeys (evs ++ evs') := by
  rw [boundKeys_append]
  exact List.subset_append_left _ _

section Behind

variable {initial metadata : Metadata} {earlier : List (Event σ)}

/-- Behind more events, more keys are bound. -/
theorem framed_behind (h : Framed initial (boundKeys earlier) metadata) (evs : List (Event σ)) :
    Framed initial (boundKeys (earlier ++ evs)) metadata :=
  h.mono (boundKeys_subset_append earlier evs)

theorem harmless_behind (h : Harmless initial (boundKeys earlier) metadata)
    (evs : List (Event σ)) : Harmless initial (boundKeys (earlier ++ evs)) metadata :=
  h.mono (boundKeys_subset_append earlier evs)

end Behind

/-- An execution sees the first metadata, but for the keys that are bound in front of it. -/
def SeesFramed (initial : Metadata) (before : List (Event σ)) : Event σ → Prop
  | .executed call => Framed initial (boundKeys before) call.invocation.document.metadata
  | _ => True

/-- What a run keeps to behind earlier events: the metadata that its handlers see, and the
    metadata that it leaves, are the first ones but for the keys that are bound. -/
structure KeepsFrame (initial : Metadata) (earlier : List (Event σ)) (p : Progress σ)
    (evs : List (Event σ)) : Prop where
  sees : EverywhereBehind (SeesFramed initial) earlier evs
  leaves : Framed initial (boundKeys (earlier ++ evs)) (p.replay evs).metadata

/-- The documents that are put out can be merged, but for some keys. -/
def Piece.IsHarmless (initial : Metadata) (keys : List String) : Piece → Prop
  | .text _ _ | .spans _ _ => True
  | .output _ _ _ docs => ∀ d ∈ docs, Harmless initial keys d.metadata

section KeepsFrame

variable {initial : Metadata} {earlier evs evs' : List (Event σ)} {ev : Event σ} {p : Progress σ}

theorem KeepsFrame.nil (hp : Framed initial (boundKeys earlier) p.metadata) :
    KeepsFrame initial earlier p [] := by
  refine ⟨everywhereBehind_nil, ?_⟩
  rw [List.append_nil]
  exact hp

theorem KeepsFrame.append (h : KeepsFrame initial earlier p evs)
    (h' : KeepsFrame initial (earlier ++ evs) (p.replay evs) evs') :
    KeepsFrame initial earlier p (evs ++ evs') := by
  refine ⟨everywhereBehind_append h.sees h'.sees, ?_⟩
  have hleaves := h'.leaves
  rw [← Progress.replay_append, List.append_assoc] at hleaves
  exact hleaves

theorem KeepsFrame.cons (hev : SeesFramed initial earlier ev)
    (h : KeepsFrame initial (earlier ++ [ev]) (p.apply ev) evs) :
    KeepsFrame initial earlier p (ev :: evs) := by
  refine ⟨everywhereBehind_cons hev h.sees, ?_⟩
  have hleaves := h.leaves
  rw [List.append_assoc] at hleaves
  exact hleaves

end KeepsFrame

section Run

variable {e : Expander m σ} {source : String} {p : Progress σ} {initial : Metadata}

/-- An execution sees the metadata as they stand, and leaves them alone. -/
theorem Executes.keepsFrame {depth : Nat} {tag : Markup.Tag} {entry : Entry σ} {call : Call σ}
    (hx : Executes e source p depth tag entry call) {earlier : List (Event σ)}
    (hp : Framed initial (boundKeys earlier) p.metadata) :
    KeepsFrame initial earlier p (called p entry call) := by
  have hcalled (earlier : List (Event σ)) (hp : Framed initial (boundKeys earlier) p.metadata)
      (q : Progress σ) (hq : q.metadata = p.metadata) :
      KeepsFrame initial earlier q [.executed call] := by
    refine .cons ?_ (.nil ?_)
    · rw [SeesFramed, hx.invocation]
      exact hp
    · show Framed initial _ q.metadata
      rw [hq]
      exact framed_behind hp _
  rcases called_cases p entry call with ⟨-, -, hcall⟩ | ⟨-, -, hcall⟩
  · rw [hcall]
    exact hcalled earlier hp p rfl
  · rw [hcall]
    exact .cons trivial (hcalled _ (framed_behind hp _) _ rfl)

theorem Invoked.keepsFrame {depth : Nat} {tag : Markup.Tag} {evs : List (Event σ)}
    {r : Except Failure (Output × Kind)} (h : Invoked e source p depth tag evs r)
    {earlier : List (Event σ)} (hp : Framed initial (boundKeys earlier) p.metadata) :
    KeepsFrame initial earlier p evs := by
  cases h with
  | stopped _ | unknown _ _ => exact .nil hp
  | failed hx _ | executed hx _ => exact hx.keepsFrame hp

/-- What a tag puts out can be merged, but for the keys that are bound so far. -/
theorem Invoked.isHarmless (hframes : e.registry.Frames) {depth : Nat} {tag : Markup.Tag}
    {evs : List (Event σ)} {output : Output} {kind : Kind}
    (h : Invoked e source p depth tag evs (.ok (output, kind))) {earlier : List (Event σ)}
    (hp : Framed initial (boundKeys earlier) p.metadata) (raw : Bool) :
    (Piece.output depth tag.name raw output.docs).IsHarmless initial
      (boundKeys (earlier ++ evs)) := by
  cases h with
  | @executed entry call _ hx hr =>
      intro d hd
      have hview : Framed initial (boundKeys (earlier ++ p.creation entry))
          call.invocation.document.metadata := by
        rw [hx.invocation]
        exact framed_behind hp _
      have hkeys : boundKeys (earlier ++ called p entry call) =
          boundKeys (earlier ++ p.creation entry) ++ call.invocation.loopKeys entry.name := by
        rw [called, ← List.append_assoc, boundKeys_append _ [_], ← hx.handlerName]
        exact congrArg _ (List.append_nil _)
      rw [hkeys]
      exact hframes hx.resolves hx.runs hr hd hview

/-- **A run keeps the frame**, if all that its handlers put out can be merged. -/
theorem Run.framed (hframes : e.registry.Frames) {piece : Piece} {evs : List (Event σ)}
    {r : Except Failure String} (h : Run e source p piece evs r) {earlier : List (Event σ)}
    (hp : Framed initial (boundKeys earlier) p.metadata)
    (hpiece : piece.IsHarmless initial (boundKeys earlier)) :
    KeepsFrame initial earlier p evs := by
  -- each part of the work starts from a frame, and what it is to put out can be merged there
  induction h generalizing earlier with
  | plain _ | malformed _ _ _ => exact .cons trivial (.nil (framed_behind hp _))
  | tooDeep _ _ | finished | nothing => exact .nil hp
  | scanned _ _ _ _ ih | literal _ ih =>
      exact .cons trivial (ih (framed_behind hp _) trivial)
  | refused h => exact h.keepsFrame hp
  | cut h _ ih =>
      have hcalled := h.keepsFrame hp
      exact hcalled.append (ih hcalled.leaves (h.isHarmless hframes hp _))
  | tag h _ _ iho ihw =>
      have hcalled := h.keepsFrame hp
      have houtput := hcalled.append (iho hcalled.leaves (h.isHarmless hframes hp _))
      exact houtput.append (ihw houtput.leaves trivial)
  | exempt _ ih =>
      have hmerged := hp.merge (hpiece _ List.mem_cons_self)
      refine .cons trivial (.cons trivial (ih (framed_behind (framed_behind hmerged _) _) ?_))
      intro d hd
      exact harmless_behind (harmless_behind (hpiece d (List.mem_cons_of_mem _ hd)) _) _
  | broken _ ih =>
      have hmerged := hp.merge (hpiece _ List.mem_cons_self)
      exact .cons trivial (ih (framed_behind hmerged _) trivial)
  | @document p depth tagName d docs evs _ _ _ _ _ ih ihd =>
      have hmerged := hp.merge (hpiece _ List.mem_cons_self)
      have htext : KeepsFrame initial earlier p (.emitted tagName d false :: evs) :=
        .cons trivial (ih (framed_behind hmerged _) trivial)
      refine htext.append (ihd htext.leaves ?_)
      intro d hd
      exact harmless_behind (hpiece d (List.mem_cons_of_mem _ hd)) _

end Run

/-! ## §4. Passes. -/

/-- **What the builtin handlers leave of the metadata.**  In every pass, the metadata that a
    handler sees are those of the document, but for the keys that are bound in front of it;
    and so are those of the result, but for all keys that are bound. -/
theorem process_builtins_frame [Monad m] [LawfulMonad m] [Inhabited σ] (files : Files m)
    (baseDir : Path) (sourcePath : Option Path) (maxDepth : Nat) (document : Document)
    (signal : StopSignal) :
    Always (fun o =>
        (∀ before call after, o.events = before ++ .executed call :: after →
          Framed document.metadata (boundKeys before) call.invocation.document.metadata) ∧
        ∀ result, o.result = .ok result →
          Framed document.metadata (boundKeys o.events) result.metadata)
      (Expander.process ⟨(Builtin.registry : Registry σ), files, baseDir, sourcePath, maxDepth⟩
        document signal) := by
  refine (always_process _ document signal).mono ?_
  intro o ho
  obtain ⟨evs, r, hrun, rfl⟩ := ho
  have hkeeps : KeepsFrame document.metadata [] (.start document.metadata signal) evs :=
    hrun.framed Builtin.frames (.refl document.metadata) trivial
  refine ⟨?_, ?_⟩
  · intro before call after hs
    obtain ⟨rest, hrest⟩ := split_outcomeOf nofun hs
    exact hkeeps.sees before _ rest hrest
  · intro result hresult
    obtain ⟨content, -, rfl⟩ := exists_of_map_eq_ok hresult
    rw [events_outcomeOf]
    exact hkeeps.leaves.mono (boundKeys_subset_append _ _)

/-- A loop in a loop; its index key has a value at first. -/
def nestedLoops : Document :=
  ⟨"<?# ForEach Items Row At ?><?# ForEach Items Cell ?>.<?#/ ForEach ?><?#/ ForEach ?>",
    ((Metadata.empty.insert "At" (.string "home")).insert "Items"
      (.array [.bool true, .bool false])).insert "Title" (.string "t")⟩

/-- The pass over the loops changes the index key in its place, and adds the two other keys
    behind all that were there. -/
theorem process_builtins_frame_nestedLoops :
    let o := (builtinsAlone.process nestedLoops .clear).run
    o.result.toOption.map (·.metadata.keys) = some ["At", "Items", "Title", "Row", "Cell"] ∧
      boundKeys o.events = ["Row", "At", "Cell", "Cell"] ∧
      ∀ result, o.result = .ok result →
        Framed nestedLoops.metadata (boundKeys o.events) result.metadata := by
  have hframe := always_id_iff.1 (process_builtins_frame (σ := Unit) builtinsAlone.files ⟨[]⟩ none
    defaultMaxDepth nestedLoops .clear)
  have hruns : (builtinsAlone.process nestedLoops .clear).run.result.toOption.map
        (·.metadata.keys) = some ["At", "Items", "Title", "Row", "Cell"] ∧
      boundKeys (builtinsAlone.process nestedLoops .clear).run.events =
        ["Row", "At", "Cell", "Cell"] := by
    decide +kernel
  exact ⟨hruns.1, hruns.2, hframe.2⟩

end Pass

end TagExpander
