/-
  TagExpander.Proofs.Markup.Rendering — scanning undoes rendering.

  A forest is a list of literal texts and tags, in which a paired tag holds a forest of
  its own.  It is rendered by writing its markers and its literal texts one after the
  other.

  Main result:
    * `scan_render` — the rendered text of a forest scans to its nodes at the top, in
      order, with the rendered text of the nodes inside as the content of each tag.
-/
import TagExpander.Proofs.Markup.Descent
import TagExpander.Proofs.Markup.Writing

namespace TagExpander.Markup

/-! ## §1. Forests. -/

/-- A literal text: not empty, and no marker starts in it. -/
structure Literal where
  text : String
  nonempty : text ≠ ""
  plain : ¬markerStart <:+: text.toList

/-- A list of nodes: it is empty, or its first node is a literal text, a self-closing tag
    or a paired tag with a list of nodes inside. -/
inductive Forest where
  | nil
  | literal (text : Literal) (rest : Forest)
  | single (name : TagName) (arguments : List Written) (rest : Forest)
  | paired (name : TagName) (arguments : List Written) (children rest : Forest)

/-- A span without its place in the text. -/
inductive Item where
  | literal (text : String)
  | tag (name : String) (arguments : Arguments) (content : String) (selfClosing : Bool)

def Span.item : Span → Item
  | .literal text => .literal text
  | .tag t => .tag t.name t.arguments t.content t.selfClosing

namespace Forest

/-- The text of a forest. -/
def render : Forest → List Char
  | nil => []
  | literal l rest => l.text.toList ++ rest.render
  | single name as rest => singleText name as ++ rest.render
  | paired name as children rest =>
    openingText name as ++ (children.render ++ (closingText name ++ rest.render))

/-- The nodes at the top. -/
def items : Forest → List Item
  | nil => []
  | literal l rest => .literal l.text :: rest.items
  | single name as rest => .tag name.text ⟨as.map Written.argument⟩ "" true :: rest.items
  | paired name as children rest =>
    .tag name.text ⟨as.map Written.argument⟩ (String.ofList children.render) false :: rest.items

/-- The names of all tags, at every depth. -/
def names : Forest → List String
  | nil => []
  | literal _ rest => rest.names
  | single name _ rest => name.text :: rest.names
  | paired name _ children rest => name.text :: (children.names ++ rest.names)

def startsLiteral : Forest → Bool
  | literal _ _ => true
  | _ => false

/-- No two literal texts are adjacent, at any depth. -/
def Separate : Forest → Prop
  | nil => True
  | literal _ rest => rest.startsLiteral = false ∧ rest.Separate
  | single _ _ rest => rest.Separate
  | paired _ _ children rest => children.Separate ∧ rest.Separate

end Forest

/-! ## §2. The next marker behind literal text. -/

/-- Two moves over adjacent texts are one move over both. -/
theorem Cursor.skip_append (c : Cursor) (xs ys : List Char) :
    (c.skip xs.length).skip ys.length = c.skip (xs ++ ys).length := by
  rw [Cursor.skip_skip, List.length_append]

theorem Cursor.rest_skip_of_append {c : Cursor} {xs ys : List Char} (h : c.rest = xs ++ ys) :
    (c.skip xs.length).rest = ys := by
  rw [Cursor.rest_skip, h, List.drop_left]

theorem Cursor.upTo_skip_of_append {c : Cursor} {xs ys : List Char} (h : c.rest = xs ++ ys) :
    c.upTo (c.skip xs.length) = xs := by
  rw [Cursor.upTo_skip, h, List.take_left]

/-- The search passes over text in which no marker starts. -/
theorem markerFrom_append {plain rest : List Char} (hplain : ¬markerStart <:+: plain)
    (hrest : rest = [] ∨ startsMarker rest = true) (n : Nat) :
    Cursor.markerFrom n (plain ++ rest) = Cursor.markerFrom (n + plain.length) rest := by
  induction plain generalizing n with
  | nil => rfl
  | cons c cs ih =>
      -- neither `<` nor `<?` at the end of the text can join the marker behind it
      have hc : startsMarker (c :: (cs ++ rest)) = false := by
        rcases hrest with rfl | hrest
        · rw [List.append_nil, Bool.eq_false_iff]
          intro h
          exact hplain (startsMarker_iff.1 h).isInfix
        · obtain ⟨tail, rfl⟩ := startsMarker_iff.1 hrest
          exact startsMarker_eq_false (by decide) hplain
      rw [List.cons_append, Cursor.markerFrom, hc]
      show Cursor.markerFrom (n + 1) (cs ++ rest) = _
      rw [ih fun h => hplain (List.infix_cons h), List.length_cons, Nat.add_assoc,
        Nat.add_comm 1]

section Plain

variable {here : Cursor} {plain rest : List Char} (hplain : ¬markerStart <:+: plain)
  (hhere : here.rest = plain ++ rest)
include hplain hhere

/-- Behind text in which no marker starts, the next marker is found. -/
theorem seek_of_plain (hrest : startsMarker rest = true) :
    here.seek = some (here.skip plain.length) := by
  rw [Cursor.seek, hhere, markerFrom_append hplain (.inr hrest), Nat.zero_add]
  cases rest with
  | nil => cases hrest
  | cons c cs =>
      rw [Cursor.markerFrom, if_pos hrest]
      rfl

/-- Text in which no marker starts goes on up to a marker or to the end. -/
theorem ahead_of_plain (hrest : rest = [] ∨ startsMarker rest = true) :
    here.ahead = here.skip plain.length := by
  rcases hrest with rfl | hmarker
  · have hs : here.seek = none := by
      rw [Cursor.seek, hhere, markerFrom_append hplain (.inl rfl)]
      rfl
    rw [Cursor.ahead_of_none hs, hhere, List.append_nil]
  · exact Cursor.ahead_of_some (seek_of_plain hplain hhere hmarker)

end Plain

/-! ## §3. The derivation of a rendered forest. -/

theorem parse_argumentsText (as : List Written) {rest : List Char}
    (hrest : Text.trimLeft rest = []) :
    Arguments.parse (String.ofList (argumentsText as ++ rest)) = ⟨as.map Written.argument⟩ := by
  rw [Arguments.parse, String.toList_ofList, readAll_arguments as hrest]

theorem literalSpans_text (l : Literal) : literalSpans l.text.toList = [.literal l.text] := by
  rw [literalSpans, if_neg fun h => l.nonempty (String.toList_eq_nil_iff.1 h),
    String.ofList_toList]

theorem not_markerStart_nil : ¬markerStart <:+: [] := by decide

/-- Behind pending literal text, the text of a forest is a content with its nodes. -/
theorem derives_render {isRaw : String → Bool} (f : Forest) {pending tail : List Char}
    {here : Cursor} (hpending : ¬markerStart <:+: pending)
    (hsplit : pending = [] ∨ f.startsLiteral = false) (hseparate : f.Separate)
    (hraw : ∀ name ∈ f.names, isRaw name = false)
    (hhere : here.rest = pending ++ (f.render ++ tail))
    (htail : tail = [] ∨ startsMarker tail = true) :
    ∃ content, Derives isRaw here content (here.skip (pending ++ f.render).length) ∧
      content.spans.map Span.item = (literalSpans pending).map Span.item ++ f.items := by
  -- on the forest; a literal text is pending until the form of its content is known
  induction f generalizing pending tail here with
  | nil =>
      have hahead : here.ahead = here.skip pending.length :=
        ahead_of_plain hpending hhere htail
      refine ⟨.text (here.upTo here.ahead), ?_, ?_⟩
      · rw [Forest.render, List.append_nil, ← hahead]
        exact .text
      · rw [hahead, Cursor.upTo_skip_of_append hhere]
        exact (List.append_nil _).symm
  | literal l rest ih =>
      rcases hsplit with rfl | hsplit
      · have hrest : here.rest = l.text.toList ++ (rest.render ++ tail) := by
          rw [hhere, Forest.render, List.append_assoc]
          rfl
        obtain ⟨content, hcontent, hitems⟩ :=
          ih l.plain (.inr hseparate.1) hseparate.2 hraw hrest htail
        refine ⟨content, hcontent, ?_⟩
        rw [hitems, literalSpans_text]
        rfl
      · cases hsplit
  | single name as rest ih =>
      rw [Forest.render, List.append_assoc] at hhere
      have hseek : here.seek = some (here.skip pending.length) :=
        seek_of_plain hpending hhere rfl
      have hmark := Cursor.rest_skip_of_append hhere
      -- the marker is read behind the pending text, and the rest behind the marker
      have hread := read_single name as (rest.render ++ tail)
      rw [← hmark] at hread
      have hnext := Cursor.rest_skip_of_append hmark
      obtain ⟨content, hcontent, hitems⟩ := ih not_markerStart_nil (.inl rfl) hseparate
        (fun n hn => hraw n (List.mem_cons_of_mem _ hn)) hnext htail
      have hstop : ((here.skip pending.length).skip (singleText name as).length).skip
          rest.render.length =
            here.skip (pending ++ (singleText name as ++ rest.render)).length := by
        rw [Cursor.skip_append, Cursor.skip_append]
      rw [List.nil_append, hstop] at hcontent
      refine ⟨_, .single hseek hread rfl hcontent, ?_⟩
      rw [Content.spans, List.map_append, List.map_cons, hitems, Cursor.upTo_skip_of_append hhere]
      show _ ++ Item.tag name.text (Arguments.parse _) "" true :: rest.items = _
      rw [parse_argumentsText as rfl]
      rfl
  | paired name as children rest ihChildren ihRest =>
      rw [Forest.render, List.append_assoc, List.append_assoc, List.append_assoc] at hhere
      have hseek : here.seek = some (here.skip pending.length) :=
        seek_of_plain hpending hhere rfl
      have hmark := Cursor.rest_skip_of_append hhere
      have hread := read_opening name as
        (children.render ++ (closingText name ++ (rest.render ++ tail)))
      rw [← hmark] at hread
      -- inside the tag the closing marker follows
      have hbody := Cursor.rest_skip_of_append hmark
      obtain ⟨inner, hinner, -⟩ := ihChildren not_markerStart_nil (.inl rfl) hseparate.1
        (fun n hn => hraw n (List.mem_cons_of_mem _ (List.mem_append_left _ hn))) hbody
        (.inr rfl)
      rw [List.nil_append] at hinner
      -- behind the closing marker what followed the tag
      have hcloser := Cursor.rest_skip_of_append hbody
      have hclosing := read_closing name (rest.render ++ tail)
      rw [← hcloser] at hclosing
      have hnext := Cursor.rest_skip_of_append hcloser
      obtain ⟨content, hcontent, hitems⟩ := ihRest not_markerStart_nil (.inl rfl) hseparate.2
        (fun n hn => hraw n (List.mem_cons_of_mem _ (List.mem_append_right _ hn))) hnext htail
      have hstop : ((((here.skip pending.length).skip (openingText name as).length).skip
          children.render.length).skip (closingText name).length).skip
          rest.render.length = here.skip (pending ++ (openingText name as ++ (children.render ++
            (closingText name ++ rest.render)))).length := by
        rw [Cursor.skip_append, Cursor.skip_append, Cursor.skip_append, Cursor.skip_append]
      rw [List.nil_append, hstop] at hcontent
      refine ⟨_, .paired hseek hread rfl (hraw _ List.mem_cons_self) hinner
        ⟨hclosing, rfl, Text.same_refl _⟩ hcontent, ?_⟩
      rw [Content.spans, List.map_append, List.map_cons, hitems, Cursor.upTo_skip_of_append hhere]
      show _ ++ Item.tag name.text (Arguments.parse _) (String.ofList _) false :: rest.items = _
      have harguments : Arguments.parse (String.ofList (argumentsText as)) =
          ⟨as.map Written.argument⟩ := by
        have h := parse_argumentsText as (show Text.trimLeft [] = [] from rfl)
        rw [List.append_nil] at h
        exact h
      rw [harguments, Cursor.upTo_skip_of_append hbody]
      rfl

/-! ## §4. Scanning a rendered forest. -/

/-- The rendered text of a forest scans to the nodes of the forest at the top. -/
theorem scan_render (isRaw : String → Bool) (f : Forest) (hseparate : f.Separate)
    (hraw : ∀ name ∈ f.names, isRaw name = false) :
    ∃ spans, scan isRaw (String.ofList f.render) = .ok spans ∧
      spans.map Span.item = f.items := by
  have hstart : (Cursor.start f.render).rest = [] ++ (f.render ++ []) :=
    (List.append_nil f.render).symm
  obtain ⟨content, hcontent, hitems⟩ :=
    derives_render f not_markerStart_nil (.inl rfl) hseparate hraw hstart (.inl rfl)
  have htext : DerivesText isRaw (String.ofList f.render) content := by
    refine ⟨(Cursor.start f.render).skip f.render.length, ?_, List.drop_length⟩
    rw [String.toList_ofList]
    exact hcontent
  exact ⟨content.spans, scan_eq_ok_iff_derives.2 ⟨content, htext, rfl⟩, hitems⟩

/-- A note with an argument that looks like the end of a marker, around a line break. -/
def nestedNote : Forest :=
  .literal ⟨"a<?", by decide, by decide⟩ <|
    .paired ⟨"note", by decide, by decide⟩
      [⟨some ⟨"title", by decide, by decide, by decide, by decide⟩, "say \"?>\""⟩]
      (.single ⟨"br", by decide, by decide⟩ [] (.literal ⟨"b", by decide, by decide⟩ .nil))
      .nil

theorem scan_render_nestedNote :
    (nestedNote.Separate ∧ ∀ name ∈ nestedNote.names, (name == "code") = false) ∧
      ∃ spans, scan (· == "code") (String.ofList nestedNote.render) = .ok spans ∧
        spans.map Span.item = nestedNote.items := by
  have hseparate : nestedNote.Separate := ⟨rfl, ⟨rfl, trivial⟩, trivial⟩
  have hraw : ∀ name ∈ nestedNote.names, (name == "code") = false := by decide
  exact ⟨⟨hseparate, hraw⟩, scan_render (· == "code") nestedNote hseparate hraw⟩

end TagExpander.Markup
