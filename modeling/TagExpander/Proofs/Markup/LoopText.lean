/-
  TagExpander.Proofs.Markup.LoopText — the texts of loops that show their values.

      <?# ForEach "Key" "V" "I" ?> text <?# Meta "V" /?> text <?# Meta "I" /?> … <?#/ ForEach ?>

  The body of such a loop is plain text with tags in it that show the item or its index, in
  any number and order.  The keys are any texts, quoted and escaped; only those of the item
  and of the index are two, and not empty.

  Main results:
    * `LoopBody.scan_body` — the text of a body is scanned to its texts and tags.
    * `scan_loopText` — the text of a loop is scanned to one tag around that of its body.
-/
import TagExpander.Json.Printer
import TagExpander.Proofs.Markup.Plain
import TagExpander.Proofs.Markup.Rendering

namespace TagExpander

open Markup

/-! ## §1. Loops and their texts. -/

/-- The keys that a loop names.  That of the list may be any, also one of the others. -/
structure LoopKeys where
  /-- The key of the list. -/
  list : String
  /-- The key of the items. -/
  item : String
  /-- The key of their indices. -/
  index : String
  item_ne_empty : item ≠ ""
  index_ne_empty : index ≠ ""
  item_ne_index : item ≠ index

/-- What a tag in the body of a loop shows. -/
inductive Shown where
  | item
  | index

/-- A text in which no marker starts. -/
structure PlainText where
  text : String
  plain : ¬markerStart <:+: text.toList

/-- The body of a loop: tags, with plain text in front of each of them and behind the last. -/
inductive LoopBody where
  | text (last : PlainText)
  | tag (before : PlainText) (shown : Shown) (rest : LoopBody)

/-- The key that a tag names. -/
def LoopKeys.keyOf (keys : LoopKeys) : Shown → String
  | .item => keys.item
  | .index => keys.index

/-- The text that a tag shows. -/
def Shown.print (item : Json.Value) (index : Nat) : Shown → String
  | .item => item.display
  | .index => toString index

def metaName : TagName := ⟨"Meta", by decide, by decide⟩

def forEachName : TagName := ⟨"ForEach", by decide, by decide⟩

namespace LoopBody

/-- The text of a body. -/
def render (keys : LoopKeys) : LoopBody → List Char
  | text last => last.text.toList
  | tag before shown rest =>
    before.text.toList ++ (singleText metaName [⟨none, keys.keyOf shown⟩] ++ rest.render keys)

/-- The body with what its tags show in their places. -/
def print (item : Json.Value) (index : Nat) : LoopBody → String
  | text last => last.text
  | tag before shown rest => before.text ++ (shown.print item index ++ rest.print item index)

end LoopBody

/-- The text of a loop. -/
def loopText (keys : LoopKeys) (body : LoopBody) : String :=
  String.ofList
    (openingText forEachName [⟨none, keys.list⟩, ⟨none, keys.item⟩, ⟨none, keys.index⟩] ++
      (body.render keys ++ closingText forEachName))

example : loopText ⟨"Xs", "X", "N", by decide, by decide, by decide⟩
    (.tag ⟨"", by decide⟩ .index (.tag ⟨": ", by decide⟩ .item (.text ⟨",", by decide⟩))) =
      "<?# ForEach \"Xs\" \"X\" \"N\" ?><?# Meta \"N\" /?>: <?# Meta \"X\" /?>,<?#/ ForEach ?>" := by
  decide

/-! ## §2. Bodies as forests. -/

namespace PlainText

/-- The text in front of a forest; an empty one is no node. -/
def inFront (p : PlainText) (rest : Forest) : Forest :=
  if h : p.text = "" then rest else .literal ⟨p.text, h, p.plain⟩ rest

variable (p : PlainText) (rest : Forest)

theorem render_inFront : (p.inFront rest).render = p.text.toList ++ rest.render := by
  unfold inFront
  split
  next h =>
    rw [h]
    rfl
  · rfl

theorem names_inFront : (p.inFront rest).names = rest.names := by
  unfold inFront
  split <;> rfl

theorem separate_inFront {rest : Forest} (hstarts : rest.startsLiteral = false)
    (hrest : rest.Separate) : (p.inFront rest).Separate := by
  unfold inFront
  split
  · exact hrest
  · exact ⟨hstarts, hrest⟩

end PlainText

namespace LoopBody

variable (keys : LoopKeys)

/-- A body as a forest. -/
def forest : LoopBody → Forest
  | text last => last.inFront .nil
  | tag before shown rest =>
    before.inFront (.single metaName [⟨none, keys.keyOf shown⟩] rest.forest)

theorem render_forest (body : LoopBody) : (body.forest keys).render = body.render keys := by
  induction body with
  | text last =>
      show (last.inFront .nil).render = last.text.toList
      rw [last.render_inFront]
      exact List.append_nil _
  | tag before shown rest ih =>
      show (before.inFront (.single metaName _ (rest.forest keys))).render = _
      rw [before.render_inFront, Forest.render, ih]
      rfl

theorem separate_forest (body : LoopBody) : (body.forest keys).Separate := by
  induction body with
  | text last => exact last.separate_inFront rfl trivial
  | tag before shown rest ih => exact before.separate_inFront rfl ih

/-- Nothing in a body is raw. -/
theorem isRaw_forest {isRaw : String → Bool} (hmeta : isRaw "Meta" = false) (body : LoopBody) :
    ∀ name ∈ (body.forest keys).names, isRaw name = false := by
  induction body with
  | text last =>
      show ∀ name ∈ (last.inFront .nil).names, _
      rw [last.names_inFront]
      exact nofun
  | tag before shown rest ih =>
      show ∀ name ∈ (before.inFront (.single metaName _ (rest.forest keys))).names, _
      rw [before.names_inFront]
      exact List.forall_mem_cons.2 ⟨hmeta, ih⟩

end LoopBody

/-! ## §3. Scanning. -/

section Scan

variable {isRaw : String → Bool}

/-- The text of a forest as a whole has a tree with the nodes of the forest at the top. -/
theorem derivesText_render {f : Forest} (hseparate : f.Separate)
    (hraw : ∀ name ∈ f.names, isRaw name = false) :
    ∃ content, DerivesText isRaw (String.ofList f.render) content ∧
      content.spans.map Span.item = f.items := by
  have hstart : (Cursor.start f.render).rest = [] ++ (f.render ++ []) :=
    (List.append_nil f.render).symm
  obtain ⟨content, hcontent, hitems⟩ :=
    derives_render f not_markerStart_nil (.inl rfl) hseparate hraw hstart (.inl rfl)
  refine ⟨content, ⟨(Cursor.start f.render).skip f.render.length, ?_, List.drop_length⟩, hitems⟩
  rw [String.toList_ofList]
  exact hcontent

variable (hmeta : isRaw "Meta" = false) (keys : LoopKeys)
include hmeta

/-- **The text of a body is scanned to its texts and tags.** -/
theorem LoopBody.scan_body (body : LoopBody) :
    ∃ spans, scan isRaw (String.ofList (body.render keys)) = .ok spans ∧
      spans.map Span.item = (body.forest keys).items := by
  obtain ⟨content, hcontent, hitems⟩ :=
    derivesText_render (body.separate_forest keys) (body.isRaw_forest keys hmeta)
  rw [body.render_forest] at hcontent
  exact ⟨content.spans, scan_eq_ok_iff_derives.2 ⟨content, hcontent, rfl⟩, hitems⟩

/-- **The text of a loop is scanned to one tag**, which holds the text of the body. -/
theorem scan_loopText (hforEach : isRaw "ForEach" = false) (body : LoopBody) :
    ∃ tag, scan isRaw (loopText keys body) = .ok [.tag tag] ∧ tag.name = "ForEach" ∧
      tag.arguments = ⟨[⟨none, keys.list⟩, ⟨none, keys.item⟩, ⟨none, keys.index⟩]⟩ ∧
      tag.content = String.ofList (body.render keys) := by
  let loop : Forest := .paired forEachName
    [⟨none, keys.list⟩, ⟨none, keys.item⟩, ⟨none, keys.index⟩] (body.forest keys) .nil
  have hrender : String.ofList loop.render = loopText keys body := by
    show String.ofList (_ ++ ((body.forest keys).render ++ (_ ++ []))) = _
    rw [body.render_forest, List.append_nil]
    rfl
  have hseparate : loop.Separate := ⟨body.separate_forest keys, trivial⟩
  have hraw : ∀ name ∈ loop.names, isRaw name = false := by
    refine List.forall_mem_cons.2 ⟨hforEach, ?_⟩
    show ∀ name ∈ (body.forest keys).names ++ [], _
    rw [List.append_nil]
    exact body.isRaw_forest keys hmeta
  obtain ⟨content, hcontent, hitems⟩ := derivesText_render hseparate hraw
  rw [hrender] at hcontent
  have hscan := scan_eq_ok_iff_derives.2 ⟨content, hcontent, rfl⟩
  obtain ⟨span, rest, hspans, hspan, hrest⟩ := List.map_eq_cons_iff.1 hitems
  obtain rfl := List.map_eq_nil_iff.1 hrest
  rw [hspans] at hscan
  cases span with
  | literal => cases hspan
  | tag tag =>
      obtain ⟨hname, hargs, hinside, -⟩ := Item.tag.inj hspan
      rw [body.render_forest] at hinside
      exact ⟨tag, hscan, hname, hargs, hinside⟩

end Scan

/-- A marker starts in a body with a tag. -/
theorem LoopBody.containsMarker_tag (keys : LoopKeys) (before : PlainText) (shown : Shown)
    (rest : LoopBody) :
    containsMarker (String.ofList ((tag before shown rest).render keys)) = true := by
  rw [containsMarker_eq_true_iff, String.toList_ofList]
  exact ⟨before.text.toList, _, (List.append_assoc _ _ _).trans rfl⟩

/-- A marker starts in the text of a loop. -/
theorem containsMarker_loopText (keys : LoopKeys) (body : LoopBody) :
    containsMarker (loopText keys body) = true := by
  rw [containsMarker_eq_true_iff, loopText, String.toList_ofList]
  exact ⟨[], _, (List.append_assoc _ _ _).trans rfl⟩

end TagExpander
