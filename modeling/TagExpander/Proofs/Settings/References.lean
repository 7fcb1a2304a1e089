/-
  TagExpander.Proofs.Settings.References — how a text with references is read.

  A text can be read in two ways.  Either only references in braces count, or a name behind a
  dollar sign and a second dollar sign count, too:

      $A/${B:-c}    braces only    $  A  /  ${B:-c}
                    otherwise      $A    /  ${B:-c}

  Without any `${` a text stands for itself, as if only braces counted.  One `${` anywhere in
  it, and the other reading applies to all of it: names without braces are replaced, or found
  not to be set, and two dollar signs become one.  The two readings are the same where every
  dollar sign outside of braces stands alone.

  Main results:
    * `Cut.unique`, `exists_cut` — in either way a text has one reading.
    * `resolved_pieces` — what the pieces of a text come to.
    * `expandReferences_reading` — by which reading references are replaced, and where it is
      the one by braces only.
    * `expandReferences_bareName` — a name without braces that is replaced.
-/
import Mathlib.Data.List.Infix
import Mathlib.Data.List.TakeWhile
import TagExpander.Settings.Reference

namespace TagExpander.Settings

/-! ## §1. What stands between braces. -/

theorem cutFallback_eq_none_iff {cs : List Char} :
    cutFallback cs = none ↔ ¬[':', '-'] <:+: cs := by
  fun_induction cutFallback cs with
  | case1 => simp
  | case2 cs => simp [List.infix_cons_iff]
  | case3 c cs hfirst ih =>
      rw [Option.map_eq_none_iff, ih, List.infix_cons_iff, not_or]
      refine (and_iff_right ?_).symm
      rintro ⟨rest, hrest⟩
      obtain ⟨rfl, rfl⟩ := List.cons.inj hrest
      exact hfirst rest rfl rfl

/-- A fallback stands behind the first `:-`. -/
theorem eq_append_of_cutFallback {cs name fallback : List Char}
    (h : cutFallback cs = some (name, fallback)) :
    cs = name ++ ':' :: '-' :: fallback ∧ ¬[':', '-'] <:+: name ++ [':'] := by
  fun_induction cutFallback cs generalizing name with
  | case1 => cases h
  | case2 cs =>
      cases h
      exact ⟨rfl, by decide⟩
  | case3 c cs hfirst ih =>
      obtain ⟨⟨name', fallback'⟩, hcut, heq⟩ := Option.map_eq_some_iff.1 h
      obtain ⟨rfl, rfl⟩ := Prod.mk.inj heq
      obtain ⟨rfl, hnot⟩ := ih hcut
      refine ⟨rfl, ?_⟩
      rw [List.cons_append, List.infix_cons_iff, not_or]
      refine ⟨?_, hnot⟩
      rintro ⟨rest, hrest⟩
      obtain ⟨rfl, htail⟩ := List.cons.inj hrest
      cases name' with
      | nil => simp at htail
      | cons n name' =>
          obtain ⟨rfl, -⟩ := List.cons.inj htail
          exact hfirst (name' ++ ':' :: '-' :: fallback') rfl rfl

theorem cutFallback_append {name : List Char} (h : ¬[':', '-'] <:+: name ++ [':'])
    (fallback : List Char) :
    cutFallback (name ++ ':' :: '-' :: fallback) = some (name, fallback) := by
  induction name with
  | nil => rfl
  | cons n name ih =>
      rw [List.cons_append, List.infix_cons_iff, not_or] at h
      have hfirst : ∀ rest, n = ':' → name ++ ':' :: '-' :: fallback = '-' :: rest → False := by
        rintro rest rfl heq
        cases name with
        | nil => simp at heq
        | cons n name =>
            obtain ⟨rfl, -⟩ := List.cons.inj heq
            exact h.1 ⟨name ++ [':'], rfl⟩
      rw [List.cons_append, cutFallback.eq_3 n _ hfirst, ih h.2]
      rfl

/-- What stands between braces: a name, or a name and, behind the first `:-`, a fallback.
    `:-` right behind the brace belongs to the name. -/
inductive Inside : List Char → String → Option String → Prop where
  | name {cs : List Char} (h : [':', '-'] <+: cs ∨ ¬[':', '-'] <:+: cs) :
      Inside cs (String.ofList cs) none
  | fallback {cs other : List Char} (hne : cs ≠ []) (hfirst : ¬[':', '-'] <:+: cs ++ [':']) :
      Inside (cs ++ ':' :: '-' :: other) (String.ofList cs) (some (String.ofList other))

/-- What stands between braces is read as one reference. -/
theorem inside_iff {cs : List Char} {name : String} {fallback : Option String} :
    Inside cs name fallback ↔ bracedReference cs = .reference name fallback := by
  constructor
  · intro h
    cases h with
    | name h =>
        rcases h with ⟨rest, rfl⟩ | hnot
        · rfl
        · rw [bracedReference, cutFallback_eq_none_iff.2 hnot]
    | @fallback cs other hne hfirst =>
        obtain ⟨c, cs, rfl⟩ := List.exists_cons_of_ne_nil hne
        rw [bracedReference, cutFallback_append hfirst]
  · intro h
    unfold bracedReference at h
    split at h
    next n front other hcut =>
      cases h
      obtain ⟨rfl, hfirst⟩ := eq_append_of_cutFallback hcut
      exact .fallback (List.cons_ne_nil n front) hfirst
    next hcut =>
      cases h
      refine .name ?_
      cases hnone : cutFallback cs with
      | none => exact .inr (cutFallback_eq_none_iff.1 hnone)
      | some parts =>
          obtain ⟨front, other⟩ := parts
          cases front with
          | cons n front => exact absurd hnone (hcut n front other)
          | nil =>
              obtain ⟨rfl, -⟩ := eq_append_of_cutFallback hnone
              exact .inl ⟨other, rfl⟩

theorem exists_inside (cs : List Char) : ∃ name fallback, Inside cs name fallback := by
  by_cases h : [':', '-'] <+: cs ∨ ¬[':', '-'] <:+: cs
  · exact ⟨_, _, .name h⟩
  · rw [not_or, not_not] at h
    obtain ⟨⟨name, other⟩, hcut⟩ := Option.ne_none_iff_exists'.1
      fun hnone => cutFallback_eq_none_iff.1 hnone h.2
    obtain ⟨rfl, hfirst⟩ := eq_append_of_cutFallback hcut
    refine ⟨_, _, .fallback ?_ hfirst⟩
    rintro rfl
    exact h.1 ⟨other, rfl⟩

/-! ## §2. The readings of a text. -/

/-- A part of a text with references. -/
inductive Part where
  /-- A character that stands for itself. -/
  | char (c : Char)
  /-- A reference in braces. -/
  | braced (name : String) (fallback : Option String)
  /-- A name behind a dollar sign. -/
  | bare (name : String)
  /-- Two dollar signs. -/
  | doubled

/-- The text starts with a reference in braces. -/
def StartsBraced (cs : List Char) : Prop :=
  ∃ inside rest, '}' ∉ inside ∧ cs = '$' :: '{' :: (inside ++ '}' :: rest)

/-- The text starts with a dollar sign that has a name or a dollar sign behind it. -/
def StartsBare (cs : List Char) : Prop :=
  ∃ c rest, (c = '$' ∨ isNameChar c = true) ∧ cs = '$' :: c :: rest

/-- The reading of a text from left to right, in which names without braces and two dollar
    signs count or do not.  A name reaches as far as it can. -/
inductive Cut (bare : Bool) : List Char → List Part → Prop where
  | nil : Cut bare [] []
  | char {c : Char} {cs : List Char} {parts : List Part} (hbraced : ¬StartsBraced (c :: cs))
      (hbare : bare = true → ¬StartsBare (c :: cs)) (hrest : Cut bare cs parts) :
      Cut bare (c :: cs) (.char c :: parts)
  | braced {inside cs : List Char} {name : String} {fallback : Option String}
      {parts : List Part} (hclosed : '}' ∉ inside) (hinside : Inside inside name fallback)
      (hrest : Cut bare cs parts) :
      Cut bare ('$' :: '{' :: (inside ++ '}' :: cs)) (.braced name fallback :: parts)
  | bare {name cs : List Char} {parts : List Part} (hbare : bare = true) (hne : name ≠ [])
      (hname : ∀ c ∈ name, isNameChar c = true) (hend : ∀ c ∈ cs.head?, isNameChar c = false)
      (hrest : Cut bare cs parts) :
      Cut bare ('$' :: (name ++ cs)) (.bare (String.ofList name) :: parts)
  | doubled {cs : List Char} {parts : List Part} (hbare : bare = true)
      (hrest : Cut bare cs parts) : Cut bare ('$' :: '$' :: cs) (.doubled :: parts)

theorem isNameChar_dollar : isNameChar '$' = false := by decide +kernel

theorem isNameChar_brace : isNameChar '{' = false := by decide +kernel

/-- What starts with a reference in braces does not start with a name. -/
theorem StartsBraced.not_bare {cs : List Char} (h : StartsBraced cs) : ¬StartsBare cs := by
  obtain ⟨inside, rest, -, rfl⟩ := h
  rintro ⟨c, rest, hc, heq⟩
  simp only [List.cons.injEq, true_and] at heq
  obtain ⟨rfl, -⟩ := heq
  simp [isNameChar_brace] at hc

theorem startsBare_name {name cs : List Char} (hne : name ≠ [])
    (hname : ∀ c ∈ name, isNameChar c = true) : StartsBare ('$' :: (name ++ cs)) := by
  obtain ⟨c, name, rfl⟩ := List.exists_cons_of_ne_nil hne
  exact ⟨c, name ++ cs, .inr (hname c List.mem_cons_self), rfl⟩

/-- A run of characters of one kind that ends where it must is the only one. -/
theorem eq_of_append_eq {p : Char → Bool} {xs xs' ys ys' : List Char}
    (hxs : ∀ c ∈ xs, p c = true) (hxs' : ∀ c ∈ xs', p c = true)
    (hys : ∀ c ∈ ys.head?, p c = false) (hys' : ∀ c ∈ ys'.head?, p c = false)
    (h : xs ++ ys = xs' ++ ys') : xs = xs' ∧ ys = ys' := by
  have hnil : ∀ {zs : List Char}, (∀ c ∈ zs.head?, p c = false) → zs.takeWhile p = [] := by
    intro zs hzs
    cases zs with
    | nil => rfl
    | cons z zs => exact List.takeWhile_cons_of_neg (by simp [hzs z rfl])
  have htake := congrArg (List.takeWhile p) h
  rw [List.takeWhile_append_of_pos hxs, List.takeWhile_append_of_pos hxs', hnil hys, hnil hys',
    List.append_nil, List.append_nil] at htake
  subst htake
  exact ⟨rfl, List.append_cancel_left h⟩

section Inversion

variable {bare : Bool} {text : List Char} {parts : List Part}

theorem Cut.of_nil (h : Cut bare [] parts) : parts = [] := by
  cases h
  rfl

theorem Cut.of_char {c : Char} {cs : List Char} (h : Cut bare (c :: cs) parts)
    (hbraced : ¬StartsBraced (c :: cs)) (hbare : bare = true → ¬StartsBare (c :: cs)) :
    ∃ rest, parts = .char c :: rest ∧ Cut bare cs rest := by
  cases h with
  | char _ _ hrest => exact ⟨_, rfl, hrest⟩
  | braced hclosed _ _ => exact absurd ⟨_, _, hclosed, rfl⟩ hbraced
  | bare hyes hne hname _ _ => exact absurd (startsBare_name hne hname) (hbare hyes)
  | doubled hyes _ => exact absurd ⟨'$', _, .inl rfl, rfl⟩ (hbare hyes)

theorem Cut.of_braced {inside cs : List Char} (h : Cut bare text parts)
    (htext : text = '$' :: '{' :: (inside ++ '}' :: cs)) (hclosed : '}' ∉ inside) :
    ∃ name fallback rest, Inside inside name fallback ∧ parts = .braced name fallback :: rest ∧
      Cut bare cs rest := by
  have hstarts : StartsBraced text := ⟨inside, cs, hclosed, htext⟩
  cases h with
  | nil => cases htext
  | char hnot _ _ => exact absurd hstarts hnot
  | bare _ hne hname _ _ => exact absurd (startsBare_name hne hname) hstarts.not_bare
  | doubled _ _ => exact absurd ⟨'$', _, .inl rfl, rfl⟩ hstarts.not_bare
  | @braced inside' cs' name fallback rest hclosed' hinside hrest =>
      simp only [List.cons.injEq, true_and] at htext
      obtain ⟨rfl, heq⟩ := eq_of_append_eq (p := (· != '}'))
        (fun c hc => by simpa using ne_of_mem_of_not_mem hc hclosed')
        (fun c hc => by simpa using ne_of_mem_of_not_mem hc hclosed) (by simp) (by simp) htext
      obtain rfl := (List.cons.inj heq).2
      exact ⟨name, fallback, rest, hinside, rfl, hrest⟩

theorem Cut.of_bare {name cs : List Char} (h : Cut bare text parts)
    (htext : text = '$' :: (name ++ cs)) (hyes : bare = true) (hne : name ≠ [])
    (hname : ∀ c ∈ name, isNameChar c = true) (hend : ∀ c ∈ cs.head?, isNameChar c = false) :
    ∃ rest, parts = .bare (String.ofList name) :: rest ∧ Cut bare cs rest := by
  have hstarts : StartsBare text := htext ▸ startsBare_name hne hname
  cases h with
  | nil => cases htext
  | char _ hnot _ => exact absurd hstarts (hnot hyes)
  | braced hclosed _ _ => exact absurd hstarts (StartsBraced.not_bare ⟨_, _, hclosed, rfl⟩)
  | doubled _ _ =>
      -- a dollar sign is no character of a name
      obtain ⟨c, name, rfl⟩ := List.exists_cons_of_ne_nil hne
      simp only [List.cons_append, List.cons.injEq, true_and] at htext
      obtain ⟨rfl, -⟩ := htext
      cases isNameChar_dollar.symm.trans (hname '$' List.mem_cons_self)
  | bare _ _ hname' hend' hrest =>
      obtain ⟨rfl, rfl⟩ := eq_of_append_eq hname' hname hend' hend (List.cons.inj htext).2
      exact ⟨_, rfl, hrest⟩

theorem Cut.of_doubled {cs : List Char} (h : Cut bare text parts) (htext : text = '$' :: '$' :: cs)
    (hyes : bare = true) : ∃ rest, parts = .doubled :: rest ∧ Cut bare cs rest := by
  have hstarts : StartsBare text := ⟨'$', cs, .inl rfl, htext⟩
  cases h with
  | nil => cases htext
  | char _ hnot _ => exact absurd hstarts (hnot hyes)
  | braced hclosed _ _ => exact absurd hstarts (StartsBraced.not_bare ⟨_, _, hclosed, rfl⟩)
  | bare _ hne hname _ _ =>
      obtain ⟨c, name, rfl⟩ := List.exists_cons_of_ne_nil hne
      simp only [List.cons_append, List.cons.injEq, true_and] at htext
      obtain ⟨rfl, -⟩ := htext
      cases isNameChar_dollar.symm.trans (hname '$' List.mem_cons_self)
  | doubled _ hrest =>
      simp only [List.cons.injEq, true_and] at htext
      subst htext
      exact ⟨_, rfl, hrest⟩

end Inversion

/-- **A text has one reading** of either kind. -/
theorem Cut.unique {bare : Bool} {cs : List Char} {parts parts' : List Part}
    (h : Cut bare cs parts) (h' : Cut bare cs parts') : parts = parts' := by
  -- on the reading, whose first part is decided by how the text starts
  induction h generalizing parts' with
  | nil => exact h'.of_nil.symm
  | char hbraced hbare _ ih =>
      obtain ⟨rest, rfl, hrest⟩ := h'.of_char hbraced hbare
      rw [ih hrest]
  | braced hclosed hinside _ ih =>
      obtain ⟨name, fallback, rest, hinside', rfl, hrest⟩ := h'.of_braced rfl hclosed
      have hsame := (inside_iff.1 hinside).symm.trans (inside_iff.1 hinside')
      obtain ⟨rfl, rfl⟩ := Piece.reference.inj hsame
      rw [ih hrest]
  | bare hyes hne hname hend _ ih =>
      obtain ⟨rest, rfl, hrest⟩ := h'.of_bare rfl hyes hne hname hend
      rw [ih hrest]
  | doubled hyes _ ih =>
      obtain ⟨rest, rfl, hrest⟩ := h'.of_doubled rfl hyes
      rw [ih hrest]

/-- What starts with a name starts with the whole run of its characters. -/
theorem exists_name {c : Char} (hc : isNameChar c = true) (rest : List Char) :
    ∃ name cs, c :: rest = name ++ cs ∧ name ≠ [] ∧ (∀ c ∈ name, isNameChar c = true) ∧
      ∀ c ∈ cs.head?, isNameChar c = false := by
  refine ⟨c :: rest.takeWhile isNameChar, rest.dropWhile isNameChar, ?_, List.cons_ne_nil _ _,
    ?_, ?_⟩
  · rw [List.cons_append, List.takeWhile_append_dropWhile]
  · intro d hd
    rcases List.mem_cons.1 hd with rfl | hd
    · exact hc
    · exact List.mem_takeWhile_imp hd
  · intro d hd
    have hnot := List.head?_dropWhile_not isNameChar rest
    rw [Option.mem_def.1 hd] at hnot
    simpa using hnot

/-- **Every text has a reading** of either kind. -/
theorem exists_cut (bare : Bool) (cs : List Char) : ∃ parts, Cut bare cs parts := by
  induction hn : cs.length using Nat.strong_induction_on generalizing cs with
  | _ n ih =>
    by_cases hbraced : StartsBraced cs
    · obtain ⟨inside, rest, hclosed, rfl⟩ := hbraced
      obtain ⟨name, fallback, hinside⟩ := exists_inside inside
      obtain ⟨parts, hrest⟩ := ih rest.length (by simp at hn; omega) rest rfl
      exact ⟨_, .braced hclosed hinside hrest⟩
    by_cases hbare : bare = true ∧ StartsBare cs
    · obtain ⟨hyes, c, rest, rfl | hc, rfl⟩ := hbare
      · obtain ⟨parts, hrest⟩ := ih rest.length (by simp at hn; omega) rest rfl
        exact ⟨_, .doubled hyes hrest⟩
      · obtain ⟨name, cs, heq, hne, hname, hend⟩ := exists_name hc rest
        rw [heq] at hn ⊢
        obtain ⟨parts, hrest⟩ := ih cs.length (by simp at hn; omega) cs rfl
        exact ⟨_, .bare hyes hne hname hend hrest⟩
    cases cs with
    | nil => exact ⟨[], .nil⟩
    | cons c cs =>
        obtain ⟨parts, hrest⟩ := ih cs.length (by simp at hn; omega) cs rfl
        exact ⟨_, .char hbraced (fun hyes hstarts => hbare ⟨hyes, hstarts⟩) hrest⟩

/-! ## §3. What a reading comes to. -/

section Values

variable (value? : String → Option String)

/-- What a part stands for, or the variable that is not set. -/
def Part.value : Part → Except String (List Char)
  | .char c => .ok [c]
  | .braced name fallback =>
    match (value? name).or fallback with
    | some value => .ok value.toList
    | none => .error name
  | .bare name =>
    match value? name with
    | some value => .ok value.toList
    | none => .error name
  | .doubled => .ok ['$']

/-- What the parts stand for, one behind the other, or the first variable that is not set. -/
def substituted (parts : List Part) : Except String String :=
  (parts.mapM (Part.value value?)).map fun values => String.ofList values.flatten

/-- The pieces of a text, and what they come to, in characters. -/
abbrev resolved (ps : List Piece) : Except String (List Char) :=
  (resolve (m := Id) value? ps).run

variable {value?}

theorem resolved_text (cs : List Char) (ps : List Piece) :
    resolved value? (.text cs :: ps) = (resolved value? ps).map (cs ++ ·) :=
  rfl

theorem resolved_reference (name : String) (fallback : Option String) (ps : List Piece) :
    resolved value? (.reference name fallback :: ps) =
      match (value? name).or fallback with
      | some value => (resolved value? ps).map (value.toList ++ ·)
      | none => .error name := by
  rw [resolved, resolve]
  cases value? name with
  | none => cases fallback <;> rfl
  | some value => rfl

theorem flatten_mapM_cons (p : Part) (parts : List Part) :
    ((p :: parts).mapM (Part.value value?)).map List.flatten =
      (p.value value?).bind fun value =>
        ((parts.mapM (Part.value value?)).map List.flatten).map (value ++ ·) := by
  rw [List.mapM_cons]
  cases p.value value? with
  | error name => rfl
  | ok value => cases parts.mapM (Part.value value?) <;> rfl

theorem dropWhile_closed {inside : List Char} (hclosed : '}' ∉ inside) (cs : List Char) :
    (inside ++ '}' :: cs).dropWhile (· != '}') = '}' :: cs ∧
      (inside ++ '}' :: cs).takeWhile (· != '}') = inside := by
  have hinside : ∀ c ∈ inside, (c != '}') = true := by
    intro c hc
    simpa using ne_of_mem_of_not_mem hc hclosed
  rw [List.dropWhile_append_of_pos hinside, List.takeWhile_append_of_pos hinside]
  simp

theorem pieces_braced {inside : List Char} (hclosed : '}' ∉ inside) (cs : List Char) :
    pieces ('$' :: '{' :: (inside ++ '}' :: cs)) = bracedReference inside :: pieces cs := by
  obtain ⟨hdrop, htake⟩ := dropWhile_closed hclosed cs
  rw [pieces]
  split
  next h => simp [hdrop] at h
  next h =>
    rw [hdrop] at h
    obtain ⟨-, rfl⟩ := List.cons.inj h
    rw [htake]

theorem pieces_bare {name cs : List Char} (hne : name ≠ [])
    (hname : ∀ c ∈ name, isNameChar c = true) (hend : ∀ c ∈ cs.head?, isNameChar c = false) :
    pieces ('$' :: (name ++ cs)) = .reference (String.ofList name) none :: pieces cs := by
  obtain ⟨c, name, rfl⟩ := List.exists_cons_of_ne_nil hne
  have hc := hname c List.mem_cons_self
  have hrun : ∀ d ∈ name, isNameChar d = true := fun d hd => hname d (List.mem_cons_of_mem c hd)
  have hstop : cs.takeWhile isNameChar = [] ∧ cs.dropWhile isNameChar = cs := by
    cases cs with
    | nil => exact ⟨rfl, rfl⟩
    | cons d cs => simp [hend d rfl]
  rw [List.cons_append, pieces]
  · rw [if_pos hc, List.takeWhile_append_of_pos hrun, List.dropWhile_append_of_pos hrun,
      hstop.1, hstop.2, List.append_nil]
  · rintro rfl
    cases isNameChar_dollar.symm.trans hc
  · rintro rfl
    cases isNameChar_brace.symm.trans hc

theorem pieces_doubled (cs : List Char) : pieces ('$' :: '$' :: cs) = .text ['$'] :: pieces cs := by
  rw [pieces]

/-- A brace that is not closed stands for itself. -/
theorem pieces_open {cs : List Char} (hopen : '}' ∉ cs) :
    pieces ('$' :: '{' :: cs) = .text ['$', '{'] :: pieces cs := by
  have hdrop : cs.dropWhile (· != '}') = [] := by
    rw [List.dropWhile_eq_nil_iff]
    intro c hc
    simpa using ne_of_mem_of_not_mem hc hopen
  rw [pieces]
  split
  next => rfl
  next h => simp [hdrop] at h

theorem pieces_other {c : Char} (cs : List Char) (hc : c ≠ '$') :
    pieces (c :: cs) = .text [c] :: pieces cs := by
  rw [pieces] <;> simp [hc]

theorem resolved_char {c : Char} {cs : List Char} (hbraced : ¬StartsBraced (c :: cs))
    (hbare : ¬StartsBare (c :: cs)) :
    resolved value? (pieces (c :: cs)) = (resolved value? (pieces cs)).map (c :: ·) := by
  by_cases hc : c = '$'
  · subst hc
    cases cs with
    | nil =>
        have hlast : pieces ['$'] = .text ['$'] :: pieces [] := by simp [pieces]
        rw [hlast, resolved_text]
        rfl
    | cons d cs =>
        have hd : ¬(d = '$' ∨ isNameChar d = true) := fun h => hbare ⟨d, cs, h, rfl⟩
        rw [not_or] at hd
        by_cases hbrace : d = '{'
        · subst hbrace
          -- the brace is not closed, or a reference would start here
          have hopen : '}' ∉ cs := by
            intro hmem
            obtain ⟨inside, rest, rfl, hclosed⟩ := List.eq_append_cons_of_mem hmem
            exact hbraced ⟨inside, rest, hclosed, rfl⟩
          rw [pieces_open hopen, pieces_other cs (by decide), resolved_text, resolved_text]
          cases resolved value? (pieces cs) <;> rfl
        · rw [pieces, if_neg hd.2, resolved_text]
          · rfl
          · exact hd.1
          · exact hbrace
  · rw [pieces_other cs hc, resolved_text]
    rfl

/-- **What the pieces of a text come to** is what its reading comes to. -/
theorem resolved_pieces {cs : List Char} {parts : List Part} (h : Cut true cs parts) :
    resolved value? (pieces cs) = (parts.mapM (Part.value value?)).map List.flatten := by
  induction h with
  | nil =>
      have hnil : pieces [] = [] := by simp [pieces]
      rw [hnil]
      rfl
  | char hbraced hbare _ ih =>
      rw [resolved_char hbraced (hbare rfl), ih, flatten_mapM_cons]
      rfl
  | @braced inside cs name fallback parts hclosed hinside _ ih =>
      rw [pieces_braced hclosed, inside_iff.1 hinside, resolved_reference, ih, flatten_mapM_cons,
        Part.value]
      cases (value? name).or fallback <;> rfl
  | @bare name cs parts _ hne hname hend _ ih =>
      rw [pieces_bare hne hname hend, resolved_reference, ih, flatten_mapM_cons, Part.value,
        Option.or_none]
      cases value? (String.ofList name) <;> rfl
  | doubled _ _ ih =>
      rw [pieces_doubled, resolved_text, ih, flatten_mapM_cons]
      rfl

/-! ## §4. The two readings. -/

/-- No dollar sign outside of references in braces has a name or a dollar sign behind it. -/
def LoneDollars (cs : List Char) : Prop :=
  ∀ parts, Cut true cs parts → Part.doubled ∉ parts ∧ ∀ name, Part.bare name ∉ parts

/-- Where no name counts and no second dollar sign, only braces do. -/
theorem Cut.of_lone {cs : List Char} {parts : List Part} (h : Cut true cs parts)
    (hdoubled : Part.doubled ∉ parts) (hbare : ∀ name, Part.bare name ∉ parts) :
    Cut false cs parts := by
  induction h with
  | nil => exact .nil
  | char hbraced _ _ ih =>
      refine .char hbraced nofun (ih ?_ ?_)
      · exact fun hmem => hdoubled (List.mem_cons_of_mem _ hmem)
      · exact fun name hmem => hbare name (List.mem_cons_of_mem _ hmem)
  | braced hclosed hinside _ ih =>
      refine .braced hclosed hinside (ih ?_ ?_)
      · exact fun hmem => hdoubled (List.mem_cons_of_mem _ hmem)
      · exact fun name hmem => hbare name (List.mem_cons_of_mem _ hmem)
  | bare => exact absurd List.mem_cons_self (hbare _)
  | doubled => exact absurd List.mem_cons_self hdoubled

/-- By braces only, nothing else is a reference. -/
theorem Cut.not_mem {cs : List Char} {parts : List Part} (h : Cut false cs parts) :
    Part.doubled ∉ parts ∧ ∀ name, Part.bare name ∉ parts := by
  induction h with
  | nil => simp
  | char _ _ _ ih => simpa using ih
  | braced _ _ _ ih => simpa using ih
  | bare hyes | doubled hyes => cases hyes

/-- Without braces a text stands for itself. -/
theorem Cut.value_of_not_hasBraces {cs : List Char} {parts : List Part} (h : Cut false cs parts)
    (hbraces : hasBraces cs = false) :
    (parts.mapM (Part.value value?)).map List.flatten = .ok cs := by
  induction h with
  | nil => rfl
  | @char c cs parts _ _ _ ih =>
      have hrest : hasBraces cs = false := by
        rw [hasBraces.eq_def] at hbraces
        split at hbraces <;> simp_all
      rw [flatten_mapM_cons, ih hrest]
      rfl
  | braced => cases hbraces
  | bare hyes | doubled hyes => cases hyes

theorem exists_of_mapM_eq_error {parts : List Part} {name : String}
    (h : parts.mapM (Part.value value?) = .error name) :
    ∃ p ∈ parts, p.value value? = .error name := by
  induction parts with
  | nil => cases h
  | cons p parts ih =>
      rw [List.mapM_cons] at h
      cases hp : p.value value? with
      | error name' =>
          rw [hp] at h
          cases h
          exact ⟨p, List.mem_cons_self, hp⟩
      | ok value =>
          rw [hp] at h
          cases hrest : parts.mapM (Part.value value?) with
          | error name' =>
              rw [hrest] at h
              cases h
              obtain ⟨q, hq, hvalue⟩ := ih hrest
              exact ⟨q, List.mem_cons_of_mem p hq, hvalue⟩
          | ok values =>
              rw [hrest] at h
              cases h

/-- The variable that is blamed is that of a reference without a fallback, and not set. -/
theorem reference_of_error {parts : List Part} {name : String}
    (h : substituted value? parts = .error name) :
    value? name = none ∧ (Part.braced name none ∈ parts ∨ Part.bare name ∈ parts) := by
  have hmapM : parts.mapM (Part.value value?) = .error name := by
    unfold substituted at h
    cases hparts : parts.mapM (Part.value value?) with
    | error name' =>
        rw [hparts] at h
        cases h
        rfl
    | ok values =>
        rw [hparts] at h
        cases h
  obtain ⟨p, hp, hvalue⟩ := exists_of_mapM_eq_error hmapM
  cases p with
  | char | doubled => cases hvalue
  | bare other =>
      cases hother : value? other with
      | some v => simp [Part.value, hother] at hvalue
      | none =>
          simp only [Part.value, hother, Except.error.injEq] at hvalue
          subst hvalue
          exact ⟨hother, .inr hp⟩
  | braced other fallback =>
      cases hother : (value? other).or fallback with
      | some v => simp [Part.value, hother] at hvalue
      | none =>
          simp only [Part.value, hother, Except.error.injEq] at hvalue
          subst hvalue
          rw [Option.or_eq_none_iff] at hother
          obtain ⟨hunset, rfl⟩ := hother
          exact ⟨hunset, .inl hp⟩

theorem substituted_eq {parts : List Part} :
    substituted value? parts =
      ((parts.mapM (Part.value value?)).map List.flatten).map String.ofList := by
  unfold substituted
  cases parts.mapM (Part.value value?) <;> rfl

/-- Where there are braces, the other reading counts. -/
theorem expandReferences_of_hasBraces {text : String} {parts : List Part}
    (hcut : Cut true text.toList parts) (hbraces : hasBraces text.toList = true) :
    (expandReferences (m := Id) value? text).run = substituted value? parts := by
  rw [expandReferences, if_pos hbraces, substituted_eq, ← resolved_pieces hcut]
  rfl

end Values

/-- **How references are replaced.**  A text has one reading by braces only, and one in which
    names without braces and two dollar signs count.
    * The one by braces only counts if there is no `$` with a brace behind it, and if no
      dollar sign outside of references in braces has a name or a dollar sign behind it.
      Then it fails only for a variable that a reference in braces without a fallback names,
      and that is not set.
    * Otherwise the other reading counts. -/
theorem expandReferences_reading (value? : String → Option String) (text : String) :
    (∀ bare, ∃! parts, Cut bare text.toList parts) ∧
    (hasBraces text.toList = false ∨ LoneDollars text.toList →
      ∀ parts, Cut false text.toList parts →
        (expandReferences (m := Id) value? text).run = substituted value? parts ∧
        ∀ name, (expandReferences (m := Id) value? text).run = .error name →
          value? name = none ∧ Part.braced name none ∈ parts) ∧
    (hasBraces text.toList = true →
      ∀ parts, Cut true text.toList parts →
        (expandReferences (m := Id) value? text).run = substituted value? parts) := by
  refine ⟨?_, ?_, ?_⟩
  · intro bare
    obtain ⟨parts, hcut⟩ := exists_cut bare text.toList
    exact ⟨parts, hcut, fun parts' hcut' => hcut'.unique hcut⟩
  · intro h parts hcut
    have hexpand : (expandReferences (m := Id) value? text).run = substituted value? parts := by
      cases hbraces : hasBraces text.toList with
      | false =>
          rw [expandReferences, hbraces, substituted_eq, hcut.value_of_not_hasBraces hbraces]
          show Except.ok text = .ok (String.ofList text.toList)
          rw [String.ofList_toList]
      | true =>
          -- the other reading is the same one
          obtain ⟨parts', hcut'⟩ := exists_cut true text.toList
          obtain ⟨hdoubled, hbare⟩ := h.resolve_left (by simp [hbraces]) parts' hcut'
          rw [hcut.unique (hcut'.of_lone hdoubled hbare)]
          exact expandReferences_of_hasBraces hcut' hbraces
    refine ⟨hexpand, ?_⟩
    intro name herror
    rw [hexpand] at herror
    obtain ⟨hunset, hmem⟩ := reference_of_error herror
    exact ⟨hunset, hmem.resolve_right (hcut.not_mem.2 name)⟩
  · intro hbraces parts hcut
    exact expandReferences_of_hasBraces hcut hbraces

/-- A dollar sign that stands alone is left, also where a reference is replaced. -/
theorem expandReferences_reading_lone :
    let value? := fun name => if name = "B" then some "b" else none
    LoneDollars "5$/$\x7bB\x7d".toList ∧
      (expandReferences (m := Id) value? "5$/$\x7bB\x7d").run = .ok "5$/b" := by
  intro value?
  have hslash : isNameChar '/' = false := by decide +kernel
  have hcut : ∀ bare, Cut bare ['5', '$', '/', '$', '{', 'B', '}']
      [.char '5', .char '$', .char '/', .braced "B" none] := by
    intro bare
    have hbraced : Cut bare ['$', '{', 'B', '}'] [.braced "B" none] :=
      .braced (show '}' ∉ ['B'] by decide) (.name (.inr (by decide))) .nil
    refine .char ?_ (fun _ => ?_) (.char ?_ (fun _ => ?_) (.char ?_ (fun _ => ?_) hbraced))
    all_goals simp [StartsBraced, StartsBare, hslash]
  have hlone : LoneDollars "5$/$\x7bB\x7d".toList := by
    intro parts hparts
    rw [hparts.unique (hcut true)]
    simp
  refine ⟨hlone, ?_⟩
  obtain ⟨-, hlaw, -⟩ := expandReferences_reading value? "5$/$\x7bB\x7d"
  rw [(hlaw (.inr hlone) _ (hcut false)).1]
  decide +kernel

/-- **A name without braces is replaced** where another reference has braces, and blamed if it
    is not set; and of two dollar signs one is left.  By braces only, all of them stand for
    themselves. -/
theorem expandReferences_bareName :
    let value? := fun name => if name = "A" then some "a" else if name = "B" then some "b" else none
    (∃ parts, Cut false "$A/$\x7bB\x7d".toList parts ∧ substituted value? parts = .ok "$A/b" ∧
      (expandReferences (m := Id) value? "$A/$\x7bB\x7d").run = .ok "a/b") ∧
    (∃ parts, Cut false "$C/$\x7bB\x7d".toList parts ∧ substituted value? parts = .ok "$C/b" ∧
      (expandReferences (m := Id) value? "$C/$\x7bB\x7d").run = .error "C") ∧
    (∃ parts, Cut false "$$/$\x7bB\x7d".toList parts ∧ substituted value? parts = .ok "$$/b" ∧
      (expandReferences (m := Id) value? "$$/$\x7bB\x7d").run = .ok "$/b") := by
  intro value?
  have hbraced : Cut false "$\x7bB\x7d".toList [.braced "B" none] :=
    .braced (show '}' ∉ ['B'] by decide) (.name (.inr (by decide))) .nil
  have hchar : ∀ {c d : Char} {cs : List Char} {parts : List Part}, d ≠ '\x7b' →
      Cut false (d :: cs) parts → Cut false (c :: d :: cs) (.char c :: parts) := by
    intro c d cs parts hd hrest
    refine .char ?_ nofun hrest
    rintro ⟨inside, rest, -, heq⟩
    simp only [List.cons.injEq] at heq
    exact hd heq.2.1
  have hfront : ∀ c : Char, c ≠ '\x7b' →
      Cut false ('$' :: c :: '/' :: "$\x7bB\x7d".toList)
        [.char '$', .char c, .char '/', .braced "B" none] := by
    intro c hc
    exact hchar hc (hchar (by decide) (hchar (by decide) hbraced))
  refine ⟨⟨_, hfront 'A' (by decide), ?_, ?_⟩, ⟨_, hfront 'C' (by decide), ?_, ?_⟩,
    ⟨_, hfront '$' (by decide), ?_, ?_⟩⟩
  all_goals decide +kernel

end TagExpander.Settings
