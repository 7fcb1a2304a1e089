/-
  TagExpander.Proofs.FileTree.Places — the path of a place leads to the place.

  A place is a list of names, and its path writes a slash in front of each of them.  Taken
  apart again, by its parents or by its segments, the path gives the names back; so a walk
  along it comes by the directories above the place, one after the other, and a path from
  there is walked as it is by a process that stands there:

      /a/b/x/../y   from the root      is      x/../y   from the place a, b

  Main results:
    * `ancestors_pathOf` — the parents of the path are the paths of the places above.
    * `walk_names` — a walk down along directories.
    * `resolve_join_current` — a path is the same seen from the working directory.
    * `resolve_pathOf_append` — what a path of a place leads to, if no link is in the way.
-/
import Mathlib.Data.List.Infix
import Mathlib.Data.List.TakeWhile
import TagExpander.Proofs.FileTree.Rewriting
import TagExpander.Proofs.Path.Descend

namespace TagExpander

namespace Path

/-! ## §1. Parents. -/

theorem IsName.ne_nil {name : List Char} (h : IsName name) : name ≠ [] := by
  rintro rfl
  cases h.component

theorem IsName.ne_dot {name : List Char} (h : IsName name) : name ≠ ['.'] := by
  rintro rfl
  cases h.component

theorem IsName.ne_dots {name : List Char} (h : IsName name) : name ≠ ['.', '.'] := by
  rintro rfl
  cases h.component

/-- A text that has no start, read backwards, is not trimmed. -/
theorem trimEnd_of_lead {cs : List Char} (h : lead cs = []) : trimEnd cs = cs := by
  obtain ⟨hroot, hdot, hdotSlash⟩ := lead_eq_nil_iff.1 h
  unfold trimEnd
  split <;> simp_all

/-- A text that ends in a name has no start, read backwards. -/
theorem IsName.lead_reverse {name : List Char} (h : IsName name) (front : List Char) :
    lead (front ++ name).reverse = [] := by
  have hne : name.reverse ≠ [] := List.reverse_ne_nil_iff.2 h.ne_nil
  have hdot : name.reverse ≠ ['.'] := fun heq => h.ne_dot (List.reverse_eq_cons_iff.1 heq)
  rw [List.reverse_append, lead_append hne (fun heq => absurd heq hdot), lead_eq_nil_iff]
  refine ⟨?_, hdot, ?_⟩
  · intro rest heq
    exact h.noSlash (List.mem_reverse.1 (heq ▸ List.mem_cons_self))
  · intro rest heq
    exact h.noSlash (List.mem_reverse.1 (heq ▸ List.mem_cons_of_mem _ List.mem_cons_self))

theorem parent?_name {name : List Char} (h : IsName name) :
    parent? ⟨'/' :: name⟩ = some ⟨['/']⟩ := by
  have htrim : trimEnd name.reverse = name.reverse := trimEnd_of_lead (h.lead_reverse [])
  have hdrop : dropSegment name.reverse = [] := by
    rw [dropSegment, List.dropWhile_eq_nil_iff.2]
    · rfl
    · intro c hc
      simpa using ne_of_mem_of_not_mem (List.mem_reverse.1 hc) h.noSlash
  unfold parent? splitStart
  simp only [htrim]
  split
  next hnil => exact absurd (List.reverse_eq_nil_iff.1 hnil) h.ne_nil
  next => rw [hdrop]; rfl

theorem parent?_append_name {name cs : List Char} (h : IsName name) (hcs : lead cs.reverse = []) :
    parent? ⟨'/' :: (cs ++ '/' :: name)⟩ = some ⟨'/' :: cs⟩ := by
  have hreverse : (cs ++ '/' :: name).reverse = name.reverse ++ '/' :: cs.reverse := by simp
  have htrim : trimEnd (cs ++ '/' :: name).reverse = name.reverse ++ '/' :: cs.reverse := by
    rw [← hreverse]
    refine trimEnd_of_lead ?_
    have hlead := h.lead_reverse (cs ++ ['/'])
    rwa [List.append_assoc] at hlead
  have hdrop : dropSegment (name.reverse ++ '/' :: cs.reverse) = cs.reverse := by
    have hname : ∀ c ∈ name.reverse, (c != '/') = true := by
      intro c hc
      simpa using ne_of_mem_of_not_mem (List.mem_reverse.1 hc) h.noSlash
    rw [dropSegment, List.dropWhile_append_of_pos hname]
    simp
  unfold parent? splitStart
  simp only [htrim]
  split
  next hnil => simp at hnil
  next => rw [hdrop, trimEnd_of_lead hcs, List.reverse_reverse]; rfl

end Path

namespace FileTree

open TagExpander.Path (IsName segments)

/-! ## §2. The path of a place. -/

/-- The text of a path to a place: a slash in front of each name. -/
def textOfPlace (place : Place) : List Char :=
  place.flatMap fun name => '/' :: name

theorem textOfPlace_append_singleton (place : Place) (name : Name) :
    textOfPlace (place ++ [name]) = textOfPlace place ++ '/' :: name := by
  simp [textOfPlace]

theorem pathOf_of_ne_nil {place : Place} (h : place ≠ []) : pathOf place = ⟨textOfPlace place⟩ := by
  cases place with
  | nil => exact absurd rfl h
  | cons name place => rfl

theorem pathOf_append_singleton (place : Place) (name : Name) :
    pathOf (place ++ [name]) = ⟨textOfPlace place ++ '/' :: name⟩ := by
  rw [pathOf_of_ne_nil (by simp), textOfPlace_append_singleton]

section Names

variable {place : Place} (hnames : ∀ name ∈ place, IsName name)
include hnames

/-- The path of a place below the root is a slash and a text that ends in a name. -/
theorem exists_body (h : place ≠ []) :
    ∃ body, textOfPlace place = '/' :: body ∧ Path.lead body.reverse = [] := by
  obtain ⟨above, last, rfl⟩ := (List.eq_nil_or_concat' place).resolve_left h
  have hlast : IsName last := hnames last (by simp)
  rw [textOfPlace_append_singleton]
  cases above with
  | nil => exact ⟨last, rfl, hlast.lead_reverse []⟩
  | cons name above =>
      refine ⟨(name ++ textOfPlace above) ++ '/' :: last, by simp [textOfPlace], ?_⟩
      have hlead := hlast.lead_reverse (name ++ textOfPlace above ++ ['/'])
      rwa [List.append_assoc] at hlead

theorem parent?_pathOf {name : Name} (h : IsName name) :
    (pathOf (place ++ [name])).parent? = some (pathOf place) := by
  rw [pathOf_append_singleton]
  by_cases hplace : place = []
  · subst hplace
    exact Path.parent?_name h
  · obtain ⟨body, hbody, hlead⟩ := exists_body hnames hplace
    rw [pathOf_of_ne_nil hplace, hbody]
    exact Path.parent?_append_name h hlead

/-- The segments of the path are the names. -/
theorem segments_textOfPlace : segments (textOfPlace place) = [] :: place := by
  induction place using List.reverseRecOn with
  | nil => rfl
  | append_singleton place name ih =>
      have hname : IsName name := hnames name (by simp)
      have hplace := ih fun other hmem => hnames other (by simp [hmem])
      unfold segments at hplace ⊢
      rw [textOfPlace_append_singleton, List.splitOn_append_cons_self, hplace,
        List.splitOn_eq_singleton hname.noSlash]
      rfl

/-- What is seen from a place has the path of the place in front of it. -/
theorem join_pathOf {q : Path} (hq : q.isAbsolute = false) :
    (pathOf place).join q = ⟨textOfPlace place ++ '/' :: q.chars⟩ := by
  unfold Path.join
  rw [if_neg (by simp [hq])]
  by_cases hplace : place = []
  · subst hplace
    rfl
  · -- the path ends in a name, and so in no slash
    obtain ⟨above, last, rfl⟩ := (List.eq_nil_or_concat' place).resolve_left hplace
    have hlast : IsName last := hnames last (by simp)
    have hend : (textOfPlace (above ++ [last])).getLast? ≠ some '/' := by
      rw [textOfPlace_append_singleton, List.getLast?_append_of_ne_nil _ (List.cons_ne_nil _ _),
        List.getLast?_cons_of_ne_nil hlast.ne_nil]
      exact fun heq => hlast.noSlash (List.mem_of_getLast? heq)
    have hne : textOfPlace (above ++ [last]) ≠ [] := by simp [textOfPlace]
    rw [pathOf_of_ne_nil hplace, if_neg (by simp [hne, hend])]

end Names

/-- **The parents of the path of a place** are the paths of the places above it. -/
theorem ancestors_pathOf {place : Place} (hnames : ∀ name ∈ place, IsName name) :
    (pathOf place).ancestors = place.inits.reverse.map pathOf := by
  induction place using List.reverseRecOn with
  | nil =>
      rw [Path.ancestors]
      rfl
  | append_singleton place name ih =>
      have hplace : ∀ other ∈ place, IsName other := fun other hmem => hnames other (by simp [hmem])
      have hparent := parent?_pathOf hplace (hnames name (by simp))
      rw [Path.ancestors]
      split
      next hnone => cases hparent.symm.trans hnone
      next above hsome =>
        cases hparent.symm.trans hsome
        rw [ih hplace, List.inits_append]
        simp

/-! ## §3. Walking to a place. -/

/-- A name that a walk can go along. -/
structure Walkable (name : Name) : Prop where
  isName : IsName name
  noZero : '\x00' ∉ name
  short : Text.bytes name ≤ maxNameLength

/-- The names of the place lead there, by directories. -/
structure Leads (t : FileTree) (place : Place) : Prop where
  names : ∀ name ∈ place, Walkable name
  directories : ∀ above, above <+: place → t.node? above = some .directory

variable {t : FileTree} {place : Place}

theorem Leads.isName (h : t.Leads place) : ∀ name ∈ place, IsName name :=
  fun name hmem => (h.names name hmem).isName

theorem Leads.of_prefix {above : Place} (h : t.Leads place) (habove : above <+: place) :
    t.Leads above where
  names name hmem := h.names name (habove.subset hmem)
  directories other hother := h.directories other (hother.trans habove)

theorem leads_nil (t : FileTree) : t.Leads [] where
  names := nofun
  directories above habove := by
    rw [List.prefix_nil.1 habove]
    rfl

/-- Names lead one step further, to a directory. -/
theorem Leads.append_singleton {name : Name} (h : t.Leads place) (hname : Walkable name)
    (hnode : t.node? (place ++ [name]) = some .directory) : t.Leads (place ++ [name]) where
  names other hmem := by
    rcases List.mem_append.1 hmem with hmem | hmem
    · exact h.names other hmem
    · exact List.mem_singleton.1 hmem ▸ hname
  directories above habove := by
    rcases List.prefix_concat_iff.1 habove with rfl | habove
    · exact hnode
    · exact h.directories above habove

/-- A walk goes from a directory on to what stands there under a name. -/
theorem walk_walkable {links : Nat} {p : Place} {name : Name} {rest : List Name}
    (h : t.node? p = some .directory) (hname : Walkable name) :
    t.walk false links p (name :: rest) =
      match t.node? (p ++ [name]) with
      | none => if rest.isEmpty then .ok (.missing (p ++ [name])) else .error .notFound
      | some (.link target) =>
        match links with
        | 0 => .error .tooManyLinks
        | links + 1 =>
          t.walk false links (if target.isAbsolute then [] else p) (segments target.chars ++ rest)
      | some _ => t.walk false links (p ++ [name]) rest := by
  refine walk_name h ?_ hname.isName.ne_dots (by simp) (by have := hname.short; omega)
  rw [not_or]
  exact ⟨hname.isName.ne_nil, hname.isName.ne_dot⟩

/-- **A walk down along directories** comes to the last of them. -/
theorem walk_names {links : Nat} {p names : Place} (rest : List Name)
    (hnames : ∀ name ∈ names, Walkable name)
    (hdirectories : ∀ above, above <+: names → t.node? (p ++ above) = some .directory) :
    t.walk false links p (names ++ rest) = t.walk false links (p ++ names) rest := by
  induction names generalizing p with
  | nil => rw [List.nil_append, List.append_nil]
  | cons name names ih =>
      have hp : t.node? p = some .directory := by
        have h := hdirectories [] List.nil_prefix
        rwa [List.append_nil] at h
      have hnext : t.node? (p ++ [name]) = some .directory :=
        hdirectories [name] (by simp)
      rw [List.cons_append, walk_walkable hp (hnames name List.mem_cons_self), hnext]
      dsimp only
      rw [ih (fun other hmem => hnames other (List.mem_cons_of_mem name hmem)),
        List.append_assoc, List.singleton_append]
      intro above habove
      rw [List.append_assoc, List.singleton_append]
      exact hdirectories (name :: above) (List.cons_prefix_cons.2 ⟨rfl, habove⟩)

theorem not_contains_zero (h : t.Leads place) : '\x00' ∉ textOfPlace place := by
  intro hmem
  obtain ⟨name, hname, hzero⟩ := List.mem_flatMap.1 hmem
  rcases List.mem_cons.1 hzero with heq | hzero
  · cases heq
  · exact (h.names name hname).noZero hzero

/-- Along a path from a place, the walk starts at the place. -/
theorem locate_join (h : t.Leads place) {q : Path} (hq : q.isAbsolute = false)
    (hlength : Text.bytes ((pathOf place).join q).chars ≤ maxPathLength) :
    t.locate false ((pathOf place).join q) =
      if q.chars.contains '\x00' then .error .badName
      else t.walk false maxLinks place (segments q.chars) := by
  rw [join_pathOf h.isName hq] at hlength ⊢
  have hzero : (textOfPlace place ++ '/' :: q.chars).contains '\x00' = q.chars.contains '\x00' := by
    have hfront := not_contains_zero h
    by_cases hmem : '\x00' ∈ q.chars <;> simp [hfront, hmem]
  have habsolute : Path.isAbsolute ⟨textOfPlace place ++ '/' :: q.chars⟩ = true := by
    cases place <;> rfl
  have hsegments : segments (textOfPlace place ++ '/' :: q.chars) =
      [] :: (place ++ segments q.chars) := by
    have hplace := segments_textOfPlace h.isName
    unfold segments at hplace ⊢
    rw [List.splitOn_append_cons_self, hplace, List.cons_append]
  have hne : ¬(textOfPlace place ++ '/' :: q.chars).isEmpty = true := by simp
  have hroot : t.node? [] = some .directory := rfl
  have hstart : t.walk false maxLinks [] ([] :: (place ++ segments q.chars)) =
      t.walk false maxLinks [] (place ++ segments q.chars) := by
    rw [walk, hroot]
    exact if_pos (.inl rfl)
  unfold locate
  rw [hzero, if_neg hne, if_neg (Nat.not_lt.2 hlength), if_pos habsolute, hsegments, hstart,
    walk_names _ h.names (by simpa using h.directories), List.nil_append]

/-- **A path is the same seen from the working directory**, unless it is empty. -/
theorem resolve_join_current (h : t.Leads t.current) {q : Path} (hne : q.chars ≠ [])
    (hlength : Text.bytes ((pathOf t.current).join q).chars ≤ maxPathLength) :
    t.resolve ((pathOf t.current).join q) = t.resolve q := by
  cases hq : q.isAbsolute with
  | true => rw [Path.join, if_pos hq]
  | false =>
      have hshort : Text.bytes q.chars ≤ maxPathLength := by
        have hjoin := hlength
        rw [join_pathOf h.isName hq] at hjoin
        simp only [Text.bytes_append, Text.bytes_cons] at hjoin
        omega
      have hlocate : t.locate false ((pathOf t.current).join q) = t.locate false q := by
        rw [locate_join h hq hlength]
        unfold locate
        rw [if_neg (show ¬q.chars.isEmpty = true by simpa using hne),
          if_neg (Nat.not_lt.2 hshort), if_neg (show ¬q.isAbsolute = true by simp [hq])]
      rw [resolve, resolve, hlocate]

theorem segments_of_walkable {name : Name} (h : Walkable name) : segments name = [name] := by
  unfold segments
  rw [List.splitOn_eq_singleton h.isName.noSlash]

/-- The path of a place is its last name, seen from the place above. -/
theorem join_name (hnames : ∀ name ∈ place, IsName name) {name : Name} (hname : IsName name) :
    (pathOf place).join ⟨name⟩ = pathOf (place ++ [name]) := by
  rw [join_pathOf hnames hname.isRelative, pathOf_append_singleton]

/-- **What the path of a place leads to** is what stands there, if that is no link. -/
theorem resolve_pathOf_append (h : t.Leads place) {name : Name} (hname : Walkable name)
    (hlength : Text.bytes (pathOf (place ++ [name])).chars ≤ maxPathLength)
    (hlink : ∀ target, t.node? (place ++ [name]) ≠ some (.link target)) :
    t.resolve (pathOf (place ++ [name])) =
      match t.node? (place ++ [name]) with
      | some entity => .ok (place ++ [name], entity)
      | none => .error .notFound := by
  rw [← join_name h.isName hname.isName] at hlength ⊢
  have hzero : name.contains '\x00' = false := by simpa using hname.noZero
  rw [resolve, locate_join h hname.isName.isRelative hlength, hzero, if_neg Bool.false_ne_true,
    segments_of_walkable hname,
    walk_walkable (h.directories place (List.prefix_refl place)) hname]
  cases hnode : t.node? (place ++ [name]) with
  | none => rfl
  | some entity =>
      cases entity with
      | link target => exact absurd hnode (hlink target)
      | file bytes => rw [walk, hnode]
      | directory => rw [walk, hnode]

end FileTree

end TagExpander
