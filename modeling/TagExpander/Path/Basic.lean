/-
  TagExpander.Path.Basic — paths as texts.

  A path is kept as it was written.  Its components are what counts of it: the
  segments between slashes without the empty ones and without `.`, except that `.`
  in front of a relative path is a component.

  Main results:
    * `length_trimEnd_le`, `length_dropSegment_lt` — cutting at the end of a path only
      removes text.
-/

namespace TagExpander

/-- A path, as written. -/
structure Path where
  /-- The characters of the path. -/
  chars : List Char
deriving DecidableEq, Inhabited

namespace Path

/-- The path that a text spells. -/
def ofString (s : String) : Path :=
  ⟨s.toList⟩

/-- The text of a path. -/
def toString (p : Path) : String :=
  String.ofList p.chars

/-! ## §1. Components -/

/-- A part of a path. -/
inductive Component where
  /-- The slash in front of an absolute path. -/
  | root
  /-- A `.` in front of a relative path. -/
  | current
  /-- A `..`. -/
  | parent
  /-- Any other name. -/
  | normal (name : List Char)
deriving DecidableEq, Inhabited

/-- The segments of a text between its slashes. -/
def segments (cs : List Char) : List (List Char) :=
  cs.splitOn '/'

/-- The component that a segment stands for behind the start of a path. -/
def Component.ofSegment? : List Char → Option Component
  | [] => none
  | ['.'] => none
  | ['.', '.'] => some .parent
  | name => some (.normal name)

/-- The components of a path. -/
def components (p : Path) : List Component :=
  match p.chars with
  | '/' :: cs => .root :: (segments cs).filterMap Component.ofSegment?
  | cs =>
    match segments cs with
    | ['.'] :: rest => .current :: rest.filterMap Component.ofSegment?
    | all => all.filterMap Component.ofSegment?

/-- Does the path start at the root? -/
def isAbsolute (p : Path) : Bool :=
  p.chars.head? == some '/'

/-- Are the components of the second path the first ones of the first? -/
def startsWith (p base : Path) : Bool :=
  base.components.isPrefixOf p.components

/-! ## §2. Putting paths together -/

/-- The path `q` as seen from `p`; an absolute `q` stands for itself. -/
def join (p q : Path) : Path :=
  if q.isAbsolute then q
  else if p.chars.isEmpty || p.chars.getLast? == some '/' then ⟨p.chars ++ q.chars⟩
  else ⟨p.chars ++ '/' :: q.chars⟩

/-- A path that is not empty stays so, wherever it is seen from. -/
theorem join_ne_nil (p : Path) {q : Path} (h : q.chars ≠ []) : (p.join q).chars ≠ [] := by
  unfold join
  split
  · exact h
  · split
    · exact List.append_ne_nil_of_right_ne_nil _ h
    · exact List.append_ne_nil_of_right_ne_nil _ (List.cons_ne_nil _ _)

/-! ## §3. Taking paths apart -/

/-- Removes, from the end of a reversed text, slashes and segments `.`. -/
def trimEnd : List Char → List Char
  | [] => []
  | ['.'] => []
  | '/' :: rest => trimEnd rest
  | '.' :: '/' :: rest => trimEnd rest
  | rest => rest

/-- Removes, from the end of a reversed text, the last segment and its slash. -/
def dropSegment (reversed : List Char) : List Char :=
  (reversed.dropWhile (· != '/')).drop 1

/-- The part of a path that stands for its start, the root or a leading `.`, and the
    text behind it. -/
def splitStart (p : Path) : List Char × List Char :=
  match p.chars with
  | '/' :: cs => (['/'], cs)
  | ['.'] => (['.'], [])
  | '.' :: '/' :: cs => (['.'], '/' :: cs)
  | cs => ([], cs)

/-- The path without its last component; the root and the empty path have none. -/
def parent? (p : Path) : Option Path :=
  let (start, body) := p.splitStart
  match trimEnd body.reverse with
  | [] => if start = ['.'] then some ⟨[]⟩ else none
  | rest => some ⟨start ++ (trimEnd (dropSegment rest)).reverse⟩

/-- The path without its last component, if it has one. -/
def pop (p : Path) : Path :=
  p.parent?.getD p

/-- Trimming never lengthens a text. -/
theorem length_trimEnd_le (cs : List Char) : (trimEnd cs).length ≤ cs.length := by
  fun_induction trimEnd cs <;> simp_all <;> omega

/-- Dropping the last segment of a text that is not empty shortens it. -/
theorem length_dropSegment_lt {cs : List Char} (h : cs ≠ []) :
    (dropSegment cs).length < cs.length := by
  have hle : (cs.dropWhile (· != '/')).length ≤ cs.length :=
    (List.dropWhile_sublist _).length_le
  have hpos : 0 < cs.length := List.length_pos_iff.2 h
  rw [dropSegment, List.length_drop]
  omega

/-- A path is its start followed by the rest. -/
theorem splitStart_append (p : Path) : p.splitStart.1 ++ p.splitStart.2 = p.chars := by
  unfold splitStart
  split <;> simp_all

/-- The parent of a path is shorter. -/
theorem length_parent_lt {p q : Path} (h : p.parent? = some q) :
    q.chars.length < p.chars.length := by
  have hs := congrArg List.length (splitStart_append p)
  rw [List.length_append] at hs
  unfold parent? at h
  simp only at h
  split at h
  · split at h
    next hdot =>
      cases h
      rw [hdot] at hs
      simp only [List.length_cons, List.length_nil] at hs ⊢
      omega
    · cases h
  next hne =>
    cases h
    have h₁ := length_trimEnd_le p.splitStart.2.reverse
    have h₂ := @length_dropSegment_lt (trimEnd p.splitStart.2.reverse) hne
    have h₃ := length_trimEnd_le (dropSegment (trimEnd p.splitStart.2.reverse))
    rw [List.length_reverse] at h₁
    rw [List.length_append, List.length_reverse]
    omega

/-- The path, its parent, the parent of that, and so on. -/
def ancestors (p : Path) : List Path :=
  match _h : p.parent? with
  | none => [p]
  | some q => p :: q.ancestors
termination_by p.chars.length
decreasing_by exact length_parent_lt _h

end Path

end TagExpander
