/-
  TagExpander.Proofs.Path.Descend — where a descent from a directory ends.

  A path is a text, and it is taken apart and put together as one.  Here its components
  are followed instead: what is appended is one more component at the end, and what is
  taken back is the last one, whatever the directory looks like (empty, `.`, `..`, the
  root, with slashes or `.` at its end).  So a descent is a walk with a stack of names:

      descend base 0 (a / .. / b)   reaches   the components of base, and behind them b

  Main results:
    * `components_join_name`, `components_pop` — one step down, and one step back.
    * `Context.components_descend` — a descent ends where the stack of names says.
-/
import TagExpander.Handler.Basic

namespace TagExpander

namespace Path

/-! ## §1. Components of a text. -/

/-- The components at the start of a path that stand for its start. -/
def lead : List Char → List Component
  | '/' :: _ => [.root]
  | ['.'] => [.current]
  | '.' :: '/' :: _ => [.current]
  | _ => []

/-- The components of a text that does not stand at the start of a path. -/
def inner (cs : List Char) : List Component :=
  (segments cs).filterMap Component.ofSegment?

@[simp]
theorem inner_nil : inner [] = [] :=
  rfl

theorem inner_append_slash (xs ys : List Char) :
    inner (xs ++ '/' :: ys) = inner xs ++ inner ys := by
  rw [inner, segments, List.splitOn_append_cons_self, List.filterMap_append]
  rfl

theorem inner_slash (cs : List Char) : inner ('/' :: cs) = inner cs :=
  inner_append_slash [] cs

/-- A text without slashes is one segment. -/
theorem inner_of_not_mem {cs : List Char} (h : '/' ∉ cs) :
    inner cs = (Component.ofSegment? cs).toList := by
  rw [inner, segments, List.splitOn_eq_singleton h]
  cases hc : Component.ofSegment? cs <;> simp [hc]

/-- The first segment of a text ends at its first slash. -/
theorem segments_eq_cons (cs : List Char) :
    ∃ rest, segments cs = cs.takeWhile (· != '/') :: rest := by
  induction cs with
  | nil => exact ⟨[], rfl⟩
  | cons c cs ih =>
      obtain ⟨rest, hrest⟩ := ih
      unfold segments at hrest ⊢
      rw [List.splitOn_cons_eq_if_modifyHead, hrest]
      by_cases hc : c = '/' <;> simp [hc]

/-- A text has no start of its own if neither a slash nor a segment `.` stands in front. -/
theorem lead_eq_nil_iff {cs : List Char} :
    lead cs = [] ↔
      (∀ rest, cs ≠ '/' :: rest) ∧ cs ≠ ['.'] ∧ ∀ rest, cs ≠ '.' :: '/' :: rest := by
  unfold lead
  split <;> simp_all

/-- The ways in which a text can start. -/
theorem start_cases (cs : List Char) :
    (∃ rest, cs = '/' :: rest) ∨ cs = ['.'] ∨ (∃ rest, cs = '.' :: '/' :: rest) ∨ lead cs = [] := by
  unfold lead
  split <;> simp

theorem segments_ne_dot {cs : List Char} (h : lead cs = []) (rest : List (List Char)) :
    segments cs ≠ ['.'] :: rest := by
  obtain ⟨rest', hfirst⟩ := segments_eq_cons cs
  obtain ⟨-, hdot, hdotSlash⟩ := lead_eq_nil_iff.1 h
  rw [hfirst]
  intro heq
  obtain ⟨htake, -⟩ := List.cons.inj heq
  match cs with
  | [] => cases htake
  | [c] => by_cases hc : c = '/' <;> simp_all
  | c :: d :: rest => by_cases hc : c = '/' <;> by_cases hd : d = '/' <;> simp_all

/-- **The components of a path** are those of its start, and those of its text. -/
theorem components_eq (p : Path) : p.components = lead p.chars ++ inner p.chars := by
  obtain ⟨cs⟩ := p
  rcases start_cases cs with ⟨rest, rfl⟩ | rfl | ⟨rest, rfl⟩ | hlead
  · rw [inner_slash]
    rfl
  · rfl
  · have hsegments : segments ('.' :: '/' :: rest) = ['.'] :: segments rest :=
      List.splitOn_append_cons_self ['.'] rest
    simp [components, hsegments, lead, inner, Component.ofSegment?]
  · unfold components
    rw [hlead, List.nil_append]
    dsimp only
    split
    next rest => exact absurd rfl ((lead_eq_nil_iff.1 hlead).1 rest)
    next =>
      split
      next rest hdot => exact absurd hdot (segments_ne_dot hlead rest)
      next => rfl

/-! ## §2. One step down. -/

/-- The text is the name of a component: neither empty nor `.` nor `..`, and without
    slashes. -/
structure IsName (name : List Char) : Prop where
  component : Component.ofSegment? name = some (.normal name)
  noSlash : '/' ∉ name

theorem IsName.inner_eq {name : List Char} (h : IsName name) : inner name = [.normal name] := by
  rw [inner_of_not_mem h.noSlash, h.component]
  rfl

theorem IsName.lead_eq {name : List Char} (h : IsName name) : lead name = [] := by
  rw [lead_eq_nil_iff]
  refine ⟨?_, ?_, ?_⟩
  · rintro rest rfl
    exact h.noSlash List.mem_cons_self
  · rintro rfl
    cases h.component
  · rintro rest rfl
    exact h.noSlash (List.mem_cons_of_mem _ List.mem_cons_self)

/-- What follows does not change how a text starts, unless it makes `.` a longer name. -/
theorem lead_append {xs ys : List Char} (hne : xs ≠ []) (h : xs = ['.'] → ∃ zs, ys = '/' :: zs) :
    lead (xs ++ ys) = lead xs := by
  rcases start_cases xs with ⟨rest, rfl⟩ | rfl | ⟨rest, rfl⟩ | hlead
  · rfl
  · obtain ⟨zs, rfl⟩ := h rfl
    rfl
  · rfl
  · obtain ⟨hroot, hdot, hdotSlash⟩ := lead_eq_nil_iff.1 hlead
    rw [hlead, lead_eq_nil_iff]
    match xs with
    | [] => exact absurd rfl hne
    | [c] => simp_all
    | c :: d :: rest => simp_all

theorem IsName.isRelative {name : List Char} (h : IsName name) : isAbsolute ⟨name⟩ = false := by
  rw [isAbsolute, beq_eq_false_iff_ne]
  intro hhead
  exact h.noSlash (List.mem_of_head? hhead)

/-- **A name that is appended is one more component at the end.** -/
theorem components_join_name (p : Path) {name : List Char} (h : IsName name) :
    (p.join ⟨name⟩).components = p.components ++ [.normal name] := by
  unfold join
  rw [if_neg (by rw [h.isRelative]; exact Bool.false_ne_true)]
  split
  -- nothing comes in between if the path is empty, or ends in a slash
  next hslash =>
    rw [Bool.or_eq_true, List.isEmpty_iff, beq_iff_eq] at hslash
    rw [components_eq, components_eq]
    rcases hslash with hempty | hlast
    · rw [hempty, List.nil_append, h.lead_eq, h.inner_eq]
      rfl
    · obtain ⟨front, hfront⟩ := List.getLast?_eq_some_iff.1 hlast
      have hlead : lead (p.chars ++ name) = lead p.chars := by
        refine lead_append ?_ ?_
        · rw [hfront]; simp
        · rw [hfront]; intro hdot; simp [List.append_eq_singleton_iff] at hdot
      rw [hlead, hfront, List.append_assoc]
      show _ ++ inner (front ++ '/' :: name) = _ ++ inner (front ++ '/' :: []) ++ _
      rw [inner_append_slash, inner_append_slash, h.inner_eq, inner_nil, List.append_nil,
        List.append_assoc]
  next hslash =>
    rw [Bool.or_eq_true, List.isEmpty_iff, not_or] at hslash
    rw [components_eq, components_eq, lead_append hslash.1 fun _ => ⟨name, rfl⟩,
      inner_append_slash, h.inner_eq, List.append_assoc]

/-! ## §3. One step back. -/

/-- A text that is trimmed at its end has, read backwards, no start. -/
theorem lead_trimEnd (cs : List Char) : lead (trimEnd cs) = [] := by
  fun_induction trimEnd cs with
  | case1 => rfl
  | case2 => rfl
  | case3 rest ih => exact ih
  | case4 rest ih => exact ih
  | case5 rest => rw [lead_eq_nil_iff]; simp_all

theorem trimEnd_suffix (cs : List Char) : trimEnd cs <:+ cs := by
  fun_induction trimEnd cs with
  | case1 => exact List.suffix_refl _
  | case2 => exact List.nil_suffix
  | case3 rest ih => exact ih.trans (List.suffix_cons _ _)
  | case4 rest ih => exact ih.trans ((List.suffix_cons _ _).trans (List.suffix_cons _ _))
  | case5 rest => exact List.suffix_refl _

/-- What is trimmed off the end of a text has no components. -/
theorem inner_trimEnd (cs : List Char) : inner (trimEnd cs).reverse = inner cs.reverse := by
  fun_induction trimEnd cs with
  | case1 => rfl
  | case2 => rfl
  | case3 rest ih =>
      rw [ih, List.reverse_cons, inner_append_slash, inner_nil, List.append_nil]
  | case4 rest ih =>
      rw [ih, List.reverse_cons, List.reverse_cons, List.append_assoc]
      show _ = inner (rest.reverse ++ '/' :: ['.'])
      rw [inner_append_slash]
      exact (List.append_nil _).symm
  | case5 rest => rfl

/-- A segment that is neither empty nor `.` is a component. -/
theorem exists_inner_reverse {segment : List Char} (hnot : '/' ∉ segment) (hne : segment ≠ [])
    (hdot : segment ≠ ['.']) : ∃ c, inner segment.reverse = [c] := by
  rw [inner_of_not_mem (by rwa [List.mem_reverse])]
  have hne' : segment.reverse ≠ [] := List.reverse_ne_nil_iff.2 hne
  have hdot' : segment.reverse ≠ ['.'] := fun heq => hdot (List.reverse_eq_cons_iff.1 heq)
  generalize segment.reverse = cs at hne' hdot'
  unfold Component.ofSegment?
  split <;> simp_all

theorem dropSegment_suffix (cs : List Char) : dropSegment cs <:+ cs :=
  (List.drop_suffix _ _).trans (List.dropWhile_suffix _)

/-- A text that is cut behind its first slash, or has none. -/
theorem dropSegment_cases (cs : List Char) :
    ('/' ∉ cs ∧ dropSegment cs = []) ∨
      ∃ segment, '/' ∉ segment ∧ cs = segment ++ '/' :: dropSegment cs := by
  induction cs with
  | nil => exact .inl ⟨List.not_mem_nil, rfl⟩
  | cons c cs ih =>
      by_cases hc : c = '/'
      · subst hc
        exact .inr ⟨[], List.not_mem_nil, rfl⟩
      · have hdrop : dropSegment (c :: cs) = dropSegment cs := by
          simp [dropSegment, hc]
        rw [hdrop]
        have hcons : ∀ {segment : List Char}, '/' ∉ segment → '/' ∉ c :: segment := by
          intro segment hsegment hmem
          rcases List.mem_cons.1 hmem with h | h
          · exact hc h.symm
          · exact hsegment h
        rcases ih with ⟨hnot, hnil⟩ | ⟨segment, hnot, hcs⟩
        · exact .inl ⟨hcons hnot, hnil⟩
        · exact .inr ⟨c :: segment, hcons hnot, congrArg (c :: ·) hcs⟩

/-- The last segment of a trimmed text is a component. -/
theorem inner_dropSegment {cs : List Char} (hne : cs ≠ []) (h : lead cs = []) :
    ∃ c, inner cs.reverse = inner (dropSegment cs).reverse ++ [c] := by
  -- read backwards the text has no start, so the segment there is neither empty nor `.`
  obtain ⟨hroot, hdot, hdotSlash⟩ := lead_eq_nil_iff.1 h
  rcases dropSegment_cases cs with ⟨hnot, hnil⟩ | ⟨segment, hnot, hcs⟩
  · obtain ⟨c, hc⟩ := exists_inner_reverse hnot hne hdot
    refine ⟨c, ?_⟩
    rw [hc, hnil]
    rfl
  · obtain ⟨c, hc⟩ : ∃ c, inner segment.reverse = [c] := by
      refine exists_inner_reverse hnot ?_ ?_
      · rintro rfl
        exact hroot _ hcs
      · rintro rfl
        exact hdotSlash _ hcs
    refine ⟨c, ?_⟩
    have hreverse : cs.reverse = (dropSegment cs).reverse ++ '/' :: segment.reverse :=
      (congrArg List.reverse hcs).trans (by simp)
    rw [hreverse, inner_append_slash, hc]

theorem splitStart_of_lead {p : Path} (h : lead p.chars = []) : p.splitStart = ([], p.chars) := by
  obtain ⟨hroot, hdot, hdotSlash⟩ := lead_eq_nil_iff.1 h
  unfold splitStart
  split <;> simp_all

/-- A path that keeps its start has the components of its start. -/
theorem components_of_prefix {p : Path} {body : List Char} (hfront : body <+: p.splitStart.2)
    (hdot : body ≠ ['.']) : components ⟨p.splitStart.1 ++ body⟩ = lead p.chars ++ inner body := by
  obtain ⟨cs⟩ := p
  rcases start_cases cs with ⟨rest, rfl⟩ | rfl | ⟨rest, rfl⟩ | hlead
  · show components ⟨'/' :: body⟩ = _
    rw [components_eq, inner_slash]
    rfl
  · rw [List.prefix_nil.1 hfront]
    rfl
  · show components ⟨'.' :: body⟩ = [.current] ++ inner body
    match body, hfront with
    | [], _ => rfl
    | c :: body, hfront =>
        obtain ⟨rfl, -⟩ := List.cons_prefix_cons.1 hfront
        rw [components_eq]
        show [.current] ++ inner (['.'] ++ '/' :: body) = _
        rw [inner_append_slash, inner_slash]
        rfl
  · rw [splitStart_of_lead hlead] at hfront ⊢
    have hlead' : lead body = [] := by
      obtain ⟨hroot, -, hdotSlash⟩ := lead_eq_nil_iff.1 hlead
      obtain ⟨tail, rfl⟩ := hfront
      refine lead_eq_nil_iff.2 ⟨?_, hdot, ?_⟩
      · rintro rest rfl
        exact hroot _ rfl
      · rintro rest rfl
        exact hdotSlash _ rfl
    rw [components_eq, hlead]
    show lead body ++ inner body = _
    rw [hlead']

theorem inner_splitStart (p : Path) : inner p.splitStart.2 = inner p.chars := by
  obtain ⟨cs⟩ := p
  rcases start_cases cs with ⟨rest, rfl⟩ | rfl | ⟨rest, rfl⟩ | hlead
  · exact (inner_slash rest).symm
  · rfl
  · show inner ('/' :: rest) = inner (['.'] ++ '/' :: rest)
    rw [inner_slash, inner_append_slash]
    rfl
  · rw [splitStart_of_lead hlead]

theorem normal_not_mem_lead (cs name : List Char) : .normal name ∉ lead cs := by
  rcases start_cases cs with ⟨rest, rfl⟩ | rfl | ⟨rest, rfl⟩ | hlead
  · simp [lead]
  · simp [lead]
  · simp [lead]
  · simp [hlead]

/-- **What is taken back from a path is its last component**, if that is a name. -/
theorem components_pop {p : Path} {cs : List Component} {name : List Char}
    (h : p.components = cs ++ [.normal name]) : p.pop.components = cs := by
  -- the text behind the start, trimmed at its end
  generalize hlast : trimEnd p.splitStart.2.reverse = last
  have hinner : inner last.reverse = inner p.chars := by
    rw [← hlast, inner_trimEnd, List.reverse_reverse, inner_splitStart]
  rw [components_eq, ← hinner] at h
  have hne : last ≠ [] := by
    rintro rfl
    rw [List.reverse_nil, inner_nil, List.append_nil] at h
    refine normal_not_mem_lead p.chars name ?_
    rw [h]
    exact List.mem_append_right _ List.mem_cons_self
  have hpop : p.pop = ⟨p.splitStart.1 ++ (trimEnd (dropSegment last)).reverse⟩ := by
    unfold pop parent?
    simp only [hlast]
    rfl
  obtain ⟨c, hc⟩ := inner_dropSegment hne (hlast ▸ lead_trimEnd _)
  rw [hc, ← inner_trimEnd, ← List.append_assoc] at h
  rw [hpop, components_of_prefix, List.append_inj_left' h rfl]
  · have hsuffix : trimEnd (dropSegment last) <:+ p.splitStart.2.reverse :=
      (trimEnd_suffix _).trans ((dropSegment_suffix _).trans (hlast ▸ trimEnd_suffix _))
    rwa [← List.reverse_prefix, List.reverse_reverse] at hsuffix
  · intro hdot
    have htrimmed := lead_eq_nil_iff.1 (lead_trimEnd (dropSegment last))
    exact htrimmed.2.1 (List.reverse_eq_cons_iff.1 hdot)

/-! ## §4. Walks with a stack of names. -/

/-- Follows components with a stack of names, the last one first: a name goes onto the
    stack, `..` takes the last one off again, and with none left, or at the root, there is
    no result.  The result has the first name first. -/
def reduce : List (List Char) → List Component → Option (List (List Char))
  | stack, [] => some stack.reverse
  | stack, .normal name :: cs => reduce (name :: stack) cs
  | stack, .current :: cs => reduce stack cs
  | [], .parent :: _ => none
  | _ :: stack, .parent :: cs => reduce stack cs
  | _, .root :: _ => none

theorem not_mem_of_mem_segments {cs segment : List Char} (h : segment ∈ segments cs) :
    '/' ∉ segment := by
  induction cs generalizing segment with
  | nil =>
      rw [List.mem_singleton.1 h]
      exact List.not_mem_nil
  | cons c cs ih =>
      obtain ⟨rest, hrest⟩ := segments_eq_cons cs
      unfold segments at h hrest ih
      rw [List.splitOn_cons_eq_if_modifyHead] at h
      by_cases hc : c = '/'
      · rw [if_pos (by simpa using hc)] at h
        rcases List.mem_cons.1 h with rfl | h
        · exact List.not_mem_nil
        · exact ih h
      · rw [if_neg (by simpa using hc), hrest] at h
        rw [hrest] at ih
        rcases List.mem_cons.1 h with rfl | h
        · rw [List.mem_cons, not_or]
          exact ⟨fun h => hc h.symm, ih List.mem_cons_self⟩
        · exact ih (List.mem_cons_of_mem _ h)

/-- Every name among the components of a path is the name of a component. -/
theorem isName_of_mem_components {p : Path} {name : List Char} (h : .normal name ∈ p.components) :
    IsName name := by
  rw [components_eq, List.mem_append] at h
  obtain ⟨segment, hmem, hsegment⟩ :=
    List.mem_filterMap.1 (h.resolve_left (normal_not_mem_lead _ _))
  obtain rfl : segment = name := by
    unfold Component.ofSegment? at hsegment
    split at hsegment <;> simp_all
  exact ⟨hsegment, not_mem_of_mem_segments hmem⟩

end Path

/-- **A descent ends where the stack of names says**: with the components of the base
    directory, and behind them the names that are left. -/
theorem Context.components_descend {base : List Path.Component} {stack : List (List Char)}
    {p : Path} (hp : p.components = base ++ stack.reverse.map .normal) {cs : List Path.Component}
    (hcs : ∀ name, .normal name ∈ cs → Path.IsName name) :
    (descend p stack.length cs).map Path.components =
      (Path.reduce stack cs).map fun names => base ++ names.map .normal := by
  -- on the components that are left; the depth is the height of the stack
  induction cs generalizing p stack with
  | nil => exact congrArg some hp
  | cons c cs ih =>
      have hcs' : ∀ name, .normal name ∈ cs → Path.IsName name :=
        fun name hname => hcs name (List.mem_cons_of_mem _ hname)
      cases c with
      | root => cases stack <;> rfl
      | current =>
          cases stack with
          | nil => exact ih hp hcs'
          | cons top stack => exact ih hp hcs'
      | normal name =>
          have hjoin : (p.join ⟨name⟩).components =
              base ++ (name :: stack).reverse.map .normal := by
            rw [Path.components_join_name p (hcs name List.mem_cons_self), hp]
            simp
          cases stack with
          | nil => exact ih hjoin hcs'
          | cons top stack => exact ih hjoin hcs'
      | parent =>
          cases stack with
          | nil => rfl
          | cons top stack =>
              have hlast : p.components = (base ++ stack.reverse.map .normal) ++ [.normal top] := by
                rw [hp]
                simp
              exact ih (Path.components_pop hlast) hcs'

/-- From a directory that is written with a `.` at its end, past a name that is taken back. -/
example :
    (Context.descend (.ofString "docs/.") 0 (Path.ofString "a/../b").components).map
        Path.components = some [.normal "docs".toList, .normal "b".toList] := by
  decide +kernel

end TagExpander
