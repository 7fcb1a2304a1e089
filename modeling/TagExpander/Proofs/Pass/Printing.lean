/-
  TagExpander.Proofs.Pass.Printing — a loop that shows its values prints its list.

  Each iteration starts from a copy of the first metadata in which the item and its index
  are set.  All of these copies have the same keys in the same order, so a copy that is
  merged takes the place of the one before it, also if the key of the list is overwritten:

      metadata      +  copy 0  =  copy 0
      copy 0        +  copy 1  =  copy 1
      …

  In an iteration the values are put out as they are, so text in them that looks like a
  tag is shown like any other text.  Nothing on the way asks for a file or can fail, so the
  whole pass is one result, in any monad (`Gives`).

  Main results:
    * `LoopKeys.merge_set` — a copy takes the place of the one before it.
    * `Pass.gives_expand_body` — an iteration shows its item and its index.
    * `Pass.gives_weaveOutput_copies` — the iterations, one after the other.
    * `Pass.process_forEach_prints` — the whole loop.
-/
import TagExpander.Proofs.Handler.Loop
import TagExpander.Proofs.Markup.LoopText
import TagExpander.Proofs.Metadata.Merging
import TagExpander.Proofs.Pass.Limit

namespace TagExpander

open Json (Value)

/-! ## §1. The copies of a loop. -/

namespace LoopKeys

variable (keys : LoopKeys) (metadata : Metadata) (item : Value) (index : Nat)

/-- Metadata with an item and its index. -/
def set : Metadata :=
  (metadata.insert keys.item item).insert keys.index (.number (.int index))

theorem get?_item_set : (keys.set metadata item index).get? keys.item = some item := by
  rw [set, Metadata.get?_insert, if_neg keys.item_ne_index.symm, Metadata.get?_insert, if_pos rfl]

theorem get?_index_set :
    (keys.set metadata item index).get? keys.index = some (.number (.int index)) := by
  rw [set, Metadata.get?_insert, if_pos rfl]

/-- An item and its index are set by merging these two. -/
theorem merge_set_empty :
    metadata.merge (keys.set .empty item index) = keys.set metadata item index := by
  have hfields : (keys.set .empty item index).fields =
      [(keys.item, item), (keys.index, .number (.int index))] := by
    show Fields.put [(keys.item, item)] keys.index _ = _
    rw [Fields.put, if_neg keys.item_ne_index]
    rfl
  rw [Metadata.merge, hfields]
  rfl

/-- A copy of metadata takes their place. -/
theorem merge_set_self :
    metadata.merge (keys.set metadata item index) = keys.set metadata item index := by
  rw [← keys.merge_set_empty metadata, ← Metadata.merge_assoc, Metadata.merge_self]

/-- **A copy takes the place of the one before it.** -/
theorem merge_set (item' : Value) (index' : Nat) :
    (keys.set metadata item' index').merge (keys.set metadata item index) =
      keys.set metadata item index := by
  -- the keys of a copy do not depend on the values in it
  apply Metadata.merge_of_keys_eq
  simp only [set, Metadata.keys_insert]

end LoopKeys

/-! ## §2. What the handlers answer. -/

namespace Builtin

section Registry

variable {σ : Type} [Inhabited σ]

theorem resolve?_meta : (registry : Registry σ).resolve? "Meta" =
    some ⟨"Meta", .standard, pureHandler metadataValue⟩ := by
  simp only [registry, entries, List.foldl, Registry.resolve?_register]
  rfl

theorem resolve?_forEach : (registry : Registry σ).resolve? "ForEach" =
    some ⟨"ForEach", .standard, pureHandler forEach⟩ := by
  simp only [registry, entries, List.foldl, Registry.resolve?_register]
  rfl

theorem isRaw_meta : (registry : Registry σ).isRaw "Meta" = false := by
  rw [Registry.isRaw_eq resolve?_meta]
  rfl

theorem isRaw_forEach : (registry : Registry σ).isRaw "ForEach" = false := by
  rw [Registry.isRaw_eq resolve?_forEach]
  rfl

end Registry

variable {call : Invocation}

/-- A tag that names a key with a value puts out the text of the value, as it is. -/
theorem metadataValue_of_get? {key : String} {value : Value}
    (hargs : call.arguments = ⟨[⟨none, key⟩]⟩) (hkey : key ≠ "")
    (hvalue : call.document.metadata.get? key = some value) :
    metadataValue call = .ok (.ofRaw value.display) := by
  have hbound : bound call ["Key", "Default"] = .ok ⟨[("key", key)]⟩ := by
    rw [bound, hargs]
    rfl
  have htext : textOf ⟨[("key", key)]⟩ "Key" = .ok key := textOf_eq_ok_iff.2 ⟨rfl, hkey⟩
  have hdisplay : call.document.metadata.getDisplay? key = some value.display := by
    rw [Metadata.getDisplay?, hvalue]
    rfl
  rw [metadataValue, hbound]
  show (textOf ⟨[("key", key)]⟩ "Key" >>= _) = _
  rw [htext]
  dsimp only [bind, Except.bind]
  rw [hdisplay]
  rfl

/-- A tag with the keys of a loop binds the loop. -/
theorem binds_of_arguments {keys : LoopKeys} {items : List Value}
    (hargs : call.arguments = ⟨[⟨none, keys.list⟩, ⟨none, keys.item⟩, ⟨none, keys.index⟩]⟩)
    (hitems : call.document.metadata.get? keys.list = some (.array items)) :
    Binds call ⟨keys.item, some keys.index, items⟩
      ⟨[("indexkey", keys.index), ("valuekey", keys.item), ("key", keys.list)]⟩ where
  bound := by
    rw [Builtin.bound, hargs]
    rfl
  valueKey := rfl
  ne_empty := keys.item_ne_empty
  indexKey := by
    show (some keys.index).filter (!·.isEmpty) = some keys.index
    rw [Option.filter_some, if_pos]
    rw [Bool.not_eq_true', Bool.eq_false_iff, Ne, String.isEmpty_iff]
    exact keys.index_ne_empty
  items := by
    show call.document.metadata.getList? keys.list = _
    rw [Metadata.getList?, hitems]

/-- **A tag with the keys of a loop** puts out its content once for each item, with a copy of
    the metadata. -/
theorem forEach_of_arguments {keys : LoopKeys} {items : List Value}
    (hargs : call.arguments = ⟨[⟨none, keys.list⟩, ⟨none, keys.item⟩, ⟨none, keys.index⟩]⟩)
    (hitems : call.document.metadata.get? keys.list = some (.array items)) :
    forEach call = .ok (.documents (items.zipIdx.map fun x =>
      ⟨call.content, keys.set call.document.metadata x.1 x.2⟩)) := by
  rw [forEach_of_binds (binds_of_arguments hargs hitems)]
  congr 2
  apply List.map_congr_left
  intro x _
  show (⟨call.content, call.document.metadata.merge (keys.set .empty x.1 x.2)⟩ : Document) = _
  rw [keys.merge_set_empty]

end Builtin

/-! ## §3. Steps that ask for nothing. -/

namespace Pass

variable {m : Type → Type} [Monad m] {σ α β : Type}

/-- The metadata of a pass and its stop signal, as they stand. -/
structure Carries (p : Progress σ) (metadata : Metadata) (signal : StopSignal) : Prop where
  metadata_eq : p.metadata = metadata
  signal_eq : p.signal = signal

/-- An event changes neither of them. -/
theorem Carries.record {p : Progress σ} {metadata : Metadata} {signal : StopSignal}
    (h : Carries p metadata signal) (event : Event σ) : Carries (p.record event) metadata signal :=
  ⟨h.metadata_eq, h.signal_eq⟩

/-- The creation of an instance changes neither of them. -/
theorem Carries.creation {p : Progress σ} {metadata : Metadata} {signal : StopSignal}
    (h : Carries p metadata signal) (entry : Entry σ) :
    Carries (p.replay (p.creation entry)) metadata signal := by
  refine ⟨?_, (p.signal_creation entry).trans h.signal_eq⟩
  unfold Progress.creation
  split <;> exact h.metadata_eq

/-- The step asks for nothing and succeeds; behind it the pass carries these. -/
def Gives (x : m (Step σ α)) (a : α) (metadata : Metadata) (signal : StopSignal) : Prop :=
  ∃ q, x = pure (.ok a, q) ∧ Carries q metadata signal

/-- Steps in a row that ask for nothing. -/
theorem Gives.andThen [LawfulMonad m] {x : m (Step σ α)} {a : α} {b : β}
    {metadata metadata' : Metadata} {signal : StopSignal} {reword : Failure → Failure}
    {f : α → Progress σ → m (Step σ β)} (h : Gives x a metadata signal)
    (hf : ∀ q, Carries q metadata signal → Gives (f a q) b metadata' signal) :
    Gives (andThen x reword f) b metadata' signal := by
  obtain ⟨q, rfl, hq⟩ := h
  rw [Pass.andThen, pure_bind]
  exact hf q hq

section Tags

variable {e : Expander m σ} {source : String} {depth : Nat} {inner : Inner m σ}
  {p : Progress σ} {metadata : Metadata} {signal : StopSignal}

/-- A text that is taken as it is leaves the metadata alone. -/
theorem gives_weaveOutput_raw (tagName woven text : String) (hp : Carries p metadata signal) :
    Gives (weaveOutput inner tagName true woven [.ofContent text] p) (woven ++ text) metadata
      signal :=
  ⟨_, rfl, p.metadata.merge_empty.trans hp.metadata_eq, hp.signal_eq⟩

variable [LawfulMonad m] [Inhabited σ] (hstop : signal.isRaised = false)
include hstop

/-- A handler that asks for nothing gives its answer. -/
theorem gives_invoke {tag : Markup.Tag} {name : String}
    {answer : Invocation → Except HandlerFault Output} {output : Output}
    (hentry : e.registry.resolve? tag.name = some ⟨name, .standard, Builtin.pureHandler answer⟩)
    (hanswer : answer ⟨tag.arguments, tag.content, ⟨source, metadata⟩, contextOf e tag depth⟩ =
      .ok output) (hp : Carries p metadata signal) :
    Gives (invoke e source depth tag p) (output, .standard) metadata signal := by
  have hcreated := hp.creation ⟨name, .standard, Builtin.pureHandler answer⟩
  obtain ⟨rfl, rfl⟩ := hp
  rw [invoke, hstop, if_neg Bool.false_ne_true, hentry]
  simp only [Progress.enter_eq, Builtin.pureHandler, Handler.stateless, Script.bind, Script.run,
    pure_bind, hanswer]
  exact ⟨_, rfl, hcreated.metadata_eq, hcreated.signal_eq⟩

variable (hregistry : e.registry = Builtin.registry)
include hregistry

/-- A tag that names a key with a value shows the value, and the rest follows. -/
theorem gives_weave_value {tag : Markup.Tag} {key : String} {value : Value}
    (hname : tag.name = "Meta") (hargs : tag.arguments = ⟨[⟨none, key⟩]⟩) (hkey : key ≠ "")
    (hvalue : metadata.get? key = some value) (woven : String) {spans : List Markup.Span}
    {result : String} (hp : Carries p metadata signal)
    (hnext : ∀ q, Carries q metadata signal →
      Gives (weave e source depth inner (woven ++ value.display) spans q) result metadata signal) :
    Gives (weave e source depth inner woven (.tag tag :: spans) p) result metadata signal := by
  have hentry : e.registry.resolve? tag.name =
      some ⟨"Meta", .standard, Builtin.pureHandler Builtin.metadataValue⟩ := by
    rw [hregistry, hname]
    exact Builtin.resolve?_meta
  have hinvoke : Gives (invoke e source depth tag p) (.ofRaw value.display, .standard) metadata
      signal :=
    gives_invoke hstop hentry (Builtin.metadataValue_of_get? hargs hkey hvalue) hp
  rw [weave_tag]
  refine hinvoke.andThen fun q hq => ?_
  -- the value is put out as it is, so it is not expanded
  exact (gives_weaveOutput_raw tag.name woven value.display hq).andThen hnext

end Tags

/-! ## §4. One iteration. -/

/-- In these metadata, literal texts and tags that name a key show a text. -/
inductive Shows (metadata : Metadata) : List Markup.Item → String → Prop where
  | nil : Shows metadata [] ""
  | literal {items : List Markup.Item} {rest : String} (text : String)
      (h : Shows metadata items rest) : Shows metadata (.literal text :: items) (text ++ rest)
  | value {items : List Markup.Item} {rest key : String} {value : Value} (hkey : key ≠ "")
      (hvalue : metadata.get? key = some value) (h : Shows metadata items rest) :
      Shows metadata (.tag "Meta" ⟨[⟨none, key⟩]⟩ "" true :: items) (value.display ++ rest)

/-- A text in front is shown in front. -/
theorem Shows.inFront {metadata : Metadata} {f : Markup.Forest} {rest : String} (p : PlainText)
    (h : Shows metadata f.items rest) : Shows metadata (p.inFront f).items (p.text ++ rest) := by
  unfold PlainText.inFront
  split
  next hempty =>
    rw [hempty, String.empty_append]
    exact h
  · exact .literal p.text h

section Iteration

variable {keys : LoopKeys} {metadata : Metadata} {item : Value} {index : Nat}

/-- Where an item and its index are set, a body shows these two. -/
theorem shows_body (hitem : metadata.get? keys.item = some item)
    (hindex : metadata.get? keys.index = some (.number (.int index))) (body : LoopBody) :
    Shows metadata (body.forest keys).items (body.print item index) := by
  induction body with
  | text last =>
      rw [LoopBody.print, ← String.append_empty (s := last.text)]
      exact Shows.inFront last .nil
  | tag before shown rest ih =>
      apply Shows.inFront before
      cases shown with
      | item => exact .value keys.item_ne_empty hitem ih
      | index => exact .value keys.index_ne_empty hindex ih

variable [LawfulMonad m] [Inhabited σ] {e : Expander m σ} {source : String} {depth : Nat}
  {p : Progress σ} {signal : StopSignal} (hstop : signal.isRaised = false)
  (hregistry : e.registry = Builtin.registry)
include hstop hregistry

/-- Items that show a text are woven to it. -/
theorem gives_weave_shows {inner : Inner m σ} {items : List Markup.Item} {shown : String}
    (h : Shows metadata items shown) {spans : List Markup.Span}
    (hspans : spans.map Markup.Span.item = items) (woven : String)
    (hp : Carries p metadata signal) :
    Gives (weave e source depth inner woven spans p) (woven ++ shown) metadata signal := by
  -- on the items; each one is woven in the state that those in front of it leave
  induction h generalizing spans woven p with
  | nil =>
      obtain rfl := List.map_eq_nil_iff.1 hspans
      rw [String.append_empty]
      exact ⟨p, rfl, hp⟩
  | literal text h ih =>
      obtain ⟨span, rest, rfl, hspan, hrest⟩ := List.map_eq_cons_iff.1 hspans
      cases span with
      | tag => cases hspan
      | literal text' =>
          cases hspan
          rw [← String.append_assoc]
          exact ih hrest (woven ++ text) (hp.record _)
  | value hkey hvalue h ih =>
      obtain ⟨span, rest, rfl, hspan, hrest⟩ := List.map_eq_cons_iff.1 hspans
      cases span with
      | literal => cases hspan
      | tag tag =>
          obtain ⟨hname, hargs, -, -⟩ := Markup.Item.tag.inj hspan
          rw [← String.append_assoc]
          exact gives_weave_value hstop hregistry hname hargs hkey hvalue woven hp
            fun q hq => ih hrest _ hq

/-- **An iteration shows its item and its index.** -/
theorem gives_expand_body (hitem : metadata.get? keys.item = some item)
    (hindex : metadata.get? keys.index = some (.number (.int index))) (body : LoopBody)
    (levels : Nat) (hp : Carries p metadata signal) :
    Gives (expand e source (levels + 1) depth (String.ofList (body.render keys)) p)
      (body.print item index) metadata signal := by
  cases body with
  | text last =>
      show Gives (expand e source (levels + 1) depth (String.ofList last.text.toList) p) last.text
        metadata signal
      rw [String.ofList_toList,
        expand_of_not_containsMarker (Markup.containsMarker_eq_false_iff.2 last.plain)]
      exact ⟨_, rfl, hp.record _⟩
  | tag before shown rest =>
      have hmeta : e.registry.isRaw "Meta" = false := by
        rw [hregistry]
        exact Builtin.isRaw_meta
      obtain ⟨spans, hscan, hspans⟩ :=
        LoopBody.scan_body hmeta keys (.tag before shown rest)
      rw [expand, if_pos (LoopBody.containsMarker_tag keys before shown rest), hscan,
        ← String.empty_append (s := LoopBody.print item index _)]
      exact gives_weave_shows hstop hregistry (shows_body hitem hindex _) hspans "" (hp.record _)

end Iteration

/-! ## §5. One iteration after the other. -/

section Loop

variable [LawfulMonad m] [Inhabited σ] {e : Expander m σ} {source : String} {depth levels : Nat}
  {keys : LoopKeys} {body : LoopBody} {metadata : Metadata} {signal : StopSignal}
  (hstop : signal.isRaised = false) (hregistry : e.registry = Builtin.registry)
include hstop hregistry

/-- **The iterations of a loop**, one after the other.  They start from any metadata whose
    place a copy takes; the last copy, if there is one, is what they leave. -/
theorem gives_weaveOutput_copies (tagName : String) (pairs : List (Value × Nat))
    {here : Metadata} (hhere : ∀ item index,
      here.merge (keys.set metadata item index) = keys.set metadata item index)
    (woven : String) {p : Progress σ} (hp : Carries p here signal) :
    Gives
      (weaveOutput (expand e source (levels + 1) depth) tagName false woven
        (pairs.map fun x => ⟨String.ofList (body.render keys), keys.set metadata x.1 x.2⟩) p)
      (woven ++ String.join (pairs.map fun x => body.print x.1 x.2))
      (pairs.getLast?.elim here fun x => keys.set metadata x.1 x.2) signal := by
  -- on the pairs; `here` is the first metadata, and later the copy before
  induction pairs generalizing here woven p with
  | nil =>
      rw [List.map_nil, List.map_nil, String.join_nil, String.append_empty]
      exact ⟨p, rfl, hp⟩
  | cons x pairs ih =>
      obtain ⟨item, index⟩ := x
      let copy : Document := ⟨String.ofList (body.render keys), keys.set metadata item index⟩
      have hmerged : Carries (p.merge tagName copy false) (keys.set metadata item index) signal := by
        refine ⟨?_, hp.signal_eq⟩
        show p.metadata.merge _ = _
        rw [hp.metadata_eq]
        exact hhere item index
      have hbody : Gives (expand e source (levels + 1) depth copy.content
          (p.merge tagName copy false)) (body.print item index) (keys.set metadata item index)
          signal :=
        gives_expand_body hstop hregistry (keys.get?_item_set metadata item index)
          (keys.get?_index_set metadata item index) body levels hmerged
      have hlast : ((item, index) :: pairs).getLast?.elim here
            (fun x => keys.set metadata x.1 x.2) =
          pairs.getLast?.elim (keys.set metadata item index)
            fun x => keys.set metadata x.1 x.2 := by
        rw [List.getLast?_cons]
        cases pairs.getLast? <;> rfl
      rw [List.map_cons, List.map_cons, String.join_cons, ← String.append_assoc, hlast,
        weaveOutput_cons]
      refine hbody.andThen fun q hq => ?_
      exact ih (fun item' index' => keys.merge_set metadata item' index' item index) _ hq

/-- **The tag of a loop is woven to its list.** -/
theorem gives_weave_forEach {tag : Markup.Tag} (hname : tag.name = "ForEach")
    (hargs : tag.arguments = ⟨[⟨none, keys.list⟩, ⟨none, keys.item⟩, ⟨none, keys.index⟩]⟩)
    (hcontent : tag.content = String.ofList (body.render keys)) {items : List Value}
    (hitems : metadata.get? keys.list = some (.array items)) {p : Progress σ}
    (hp : Carries p metadata signal) :
    Gives (weave e source depth (expand e source (levels + 1) (depth + 1)) "" [.tag tag] p)
      (String.join (items.zipIdx.map fun x => body.print x.1 x.2))
      (items.zipIdx.getLast?.elim metadata fun x => keys.set metadata x.1 x.2) signal := by
  have hentry : e.registry.resolve? tag.name =
      some ⟨"ForEach", .standard, Builtin.pureHandler Builtin.forEach⟩ := by
    rw [hregistry, hname]
    exact Builtin.resolve?_forEach
  have hinvoke : Gives (invoke e source depth tag p)
      (.documents (items.zipIdx.map fun x => ⟨tag.content, keys.set metadata x.1 x.2⟩), .standard)
      metadata signal :=
    gives_invoke hstop hentry (Builtin.forEach_of_arguments hargs hitems) hp
  rw [hcontent] at hinvoke
  rw [weave_tag, ← String.empty_append (s := String.join _)]
  refine hinvoke.andThen fun q hq => ?_
  -- the first copy takes the place of the metadata themselves
  refine Gives.andThen (gives_weaveOutput_copies hstop hregistry tag.name items.zipIdx
    (keys.merge_set_self metadata) "" hq) ?_
  exact fun q' hq' => ⟨q', rfl, hq'⟩

end Loop

/-! ## §6. Passes. -/

/-- **A loop that shows its values prints its list.**  Under any limit of nesting of at
    least 1, a list under the key of the loop is printed in order: for each item the body,
    with the text of the item and its index, counted from 0, in the places of the tags that
    name them, whatever these texts look like.  The metadata are the first ones with the
    last item and its index, and for the empty list they are the first ones. -/
theorem process_forEach_prints [LawfulMonad m] [Inhabited σ] (files : Files m) (baseDir : Path)
    (sourcePath : Option Path) {maxDepth : Nat} (hdepth : 1 ≤ maxDepth) (keys : LoopKeys)
    (body : LoopBody) {metadata : Metadata} {items : List Value}
    (hitems : metadata.get? keys.list = some (.array items)) {signal : StopSignal}
    (hstop : signal.isRaised = false) :
    ∃ o, Expander.process ⟨(Builtin.registry : Registry σ), files, baseDir, sourcePath, maxDepth⟩
          ⟨loopText keys body, metadata⟩ signal = pure o ∧
      o.result = .ok
        ⟨String.join (items.zipIdx.map fun (item, index) => body.print item index),
          match items.getLast? with
          | none => metadata
          | some last => keys.set metadata last (items.length - 1)⟩ := by
  obtain ⟨levels, rfl⟩ := Nat.exists_eq_add_of_le' hdepth
  let e : Expander m σ := ⟨Builtin.registry, files, baseDir, sourcePath, levels + 1⟩
  let printed := String.join (items.zipIdx.map fun x => body.print x.1 x.2)
  obtain ⟨tag, hscan, hname, hargs, hcontent⟩ : ∃ tag,
      Markup.scan e.registry.isRaw (loopText keys body) = .ok [.tag tag] ∧ _ :=
    scan_loopText Builtin.isRaw_meta keys Builtin.isRaw_forEach body
  have hexpand : Gives
      (expand e (loopText keys body) (levels + 2) 0 (loopText keys body)
        (.start metadata signal)) printed
      (items.zipIdx.getLast?.elim metadata fun x => keys.set metadata x.1 x.2) signal := by
    rw [expand, if_pos (containsMarker_loopText keys body), hscan]
    exact gives_weave_forEach hstop rfl hname hargs hcontent hitems ⟨rfl, rfl⟩
  have hlast : items.zipIdx.getLast?.elim metadata (fun x => keys.set metadata x.1 x.2) =
      match items.getLast? with
      | none => metadata
      | some last => keys.set metadata last (items.length - 1) := by
    rw [List.getLast?_zipIdx, Nat.zero_add]
    cases items.getLast? <;> rfl
  obtain ⟨q, hq, hmetadata, -⟩ := hexpand
  refine ⟨outcomeOf q (.ok printed), ?_, ?_⟩
  · show expand e (loopText keys body) (levels + 2) 0 (loopText keys body) _ >>= _ = _
    rw [hq, pure_bind]
    rfl
  · rw [← hlast, ← hmetadata]
    rfl

/-- A loop that puts its items in the place of its list. -/
def itemsForList : LoopKeys :=
  ⟨"Xs", "Xs", "N", by decide, by decide, by decide⟩

/-- The index, then the item. -/
def indexThenItem : LoopBody :=
  .tag ⟨"", by decide⟩ .index (.tag ⟨": ", by decide⟩ .item (.text ⟨";", by decide⟩))

/-- A list with an item that looks like a tag of the loop. -/
def taggedList : Metadata :=
  (Metadata.empty.insert "N" (.string "?")).insert "Xs"
    (.array [.string "<?# Meta \"N\" /?>", .null, .array [.number (.int 7), .string "x"]])

/-- Under the limit 1, the loop prints the list that its items take the place of. -/
theorem process_forEach_prints_taggedList :
    (Expander.process ⟨(Builtin.registry : Registry Unit), builtinsAlone.files, ⟨[]⟩, none, 1⟩
      ⟨loopText itemsForList indexThenItem, taggedList⟩ .clear : Id _).run.result.map
        (fun d => (d.content, d.metadata.render)) =
      .ok ("0: <?# Meta \"N\" /?>;1: ;2: [7,\"x\"];",
        "\x7b\"N\":2,\"Xs\":[7,\"x\"]\x7d") := by
  have hitems : taggedList.get? itemsForList.list = some (.array
      [.string "<?# Meta \"N\" /?>", .null, .array [.number (.int 7), .string "x"]]) := rfl
  have hstop : StopSignal.clear.isRaised = false := rfl
  obtain ⟨o, ho, hresult⟩ := process_forEach_prints (m := Id) (σ := Unit) builtinsAlone.files ⟨[]⟩
    none (Nat.le_refl 1) itemsForList indexThenItem hitems hstop
  rw [ho]
  show o.result.map _ = _
  rw [hresult]
  rfl

end Pass

end TagExpander
