/-
  TagExpander.Proofs.FileTree.Rewriting — a file with other bytes.

  Giving a file other bytes does not move anything: every path leads where it led, to the
  same kind of thing.  Only what is read from the file changes, by whichever path it is
  reached.

  Main results:
    * `walk_rewrite` — a walk ends in the same place.
    * `isFile_rewrite`, `canonical_rewrite`, `read_rewrite` — what the operations find.
-/
import TagExpander.FileTree

namespace TagExpander.FileTree

/-! ## §1. Walking to a name. -/

/-- A walk to a name in a directory goes on from what stands there. -/
theorem walk_name {t : FileTree} {new : Bool} {links : Nat} {p : Place} {segment : Name}
    {rest : List Name} (h : t.node? p = some .directory)
    (hstay : ¬(segment = [] ∨ segment = ['.'])) (hup : segment ≠ ['.', '.'])
    (hslash : ¬(new && !rest.isEmpty && rest.all List.isEmpty) = true)
    (hlong : ¬maxNameLength < Text.bytes segment) :
    t.walk new links p (segment :: rest) =
      match t.node? (p ++ [segment]) with
      | none => if rest.isEmpty then .ok (.missing (p ++ [segment])) else .error .notFound
      | some (.link target) =>
        match links with
        | 0 => .error .tooManyLinks
        | links + 1 =>
          t.walk new links (if target.isAbsolute then [] else p)
            (Path.segments target.chars ++ rest)
      | some _ => t.walk new links (p ++ [segment]) rest := by
  rw [walk, h]
  dsimp only
  rewrite [if_neg hstay, if_neg hup, if_neg hslash, if_neg hlong]
  cases t.node? (p ++ [segment]) with
  | none => rfl
  | some entity =>
      cases entity with
      | link target => cases links <;> rfl
      | file _ | directory => rfl

/-- What a walk ends at is what stands there. -/
theorem node?_of_walk {t : FileTree} {new : Bool} {links : Nat} {p q : Place}
    {segments : List Name} {entity : Entity}
    (h : t.walk new links p segments = .ok (.existing q entity)) : t.node? q = some entity := by
  fun_induction walk t new links p segments with
  | case1 links p entity' hnode =>
      cases h
      exact hnode
  | case3 _ _ _ _ _ _ ih | case4 _ _ _ _ _ ih | case10 _ _ _ _ _ _ _ _ _ _ _ _ ih
  | case11 _ _ _ _ _ _ _ _ _ _ _ _ _ ih => exact ih h
  | case2 | case5 | case6 | case7 | case8 | case9 | case12 | case13 => cases h

theorem node?_of_resolve {t : FileTree} {path : Path} {q : Place} {entity : Entity}
    (h : t.resolve path = .ok (q, entity)) : t.node? q = some entity := by
  rw [resolve] at h
  split at h
  next place entity' hlocate =>
    cases h
    rw [locate] at hlocate
    split at hlocate
    · cases hlocate
    · split at hlocate
      · cases hlocate
      · split at hlocate
        · cases hlocate
        · exact node?_of_walk hlocate
  next => cases h
  next => cases h

/-! ## §2. A file with other bytes. -/

/-- The end of a walk, where the file at a place has other bytes. -/
def Found.rewritten (place : Place) (bytes : ByteArray) : Found → Found
  | .existing p entity => .existing p (if p = place then .file bytes else entity)
  | .missing p => .missing p

/-- The text that bytes stand for. -/
def textOf (bytes : ByteArray) : Except FileFault String :=
  match String.fromUTF8? bytes with
  | some text => .ok text
  | none => .error .notText

/-- The bytes of a text stand for it. -/
theorem textOf_toUTF8 (text : String) : textOf text.toUTF8 = .ok text := by
  have htext : String.fromUTF8? text.toUTF8 = some text := dif_pos text.isValidUTF8
  rw [textOf, htext]

theorem read_of_resolve {t : FileTree} {path : Path} {q : Place} {bytes : ByteArray}
    (h : t.resolve path = .ok (q, .file bytes)) : t.read path = textOf bytes := by
  rw [read, h]
  rfl

section Rewrite

variable {t : FileTree} {place : Place} {old : ByteArray} (hfile : t.node? place = some (.file old))
  (bytes : ByteArray)
include hfile

theorem ne_root_of_file : place ≠ [] := by
  rintro rfl
  cases hfile

theorem node?_rewrite (p : Place) :
    (t.put place (.file bytes)).node? p =
      (t.node? p).map fun entity => if p = place then .file bytes else entity := by
  rw [node?_put t place p _ (ne_root_of_file hfile)]
  split
  next hp => rw [hp, hfile]; rfl
  next => exact Option.map_id'.symm

/-- What is no file stays as it is. -/
theorem node?_rewrite_of_ne {p : Place} {entity : Entity} (h : t.node? p = some entity)
    (hne : ∀ bytes, entity ≠ .file bytes) :
    (t.put place (.file bytes)).node? p = some entity := by
  rw [node?_rewrite hfile, h, Option.map_some, if_neg]
  rintro rfl
  cases hfile.symm.trans h
  exact hne old rfl

theorem directory_rewrite {p : Place} (h : t.node? p = some .directory) :
    (t.put place (.file bytes)).node? p = some .directory :=
  node?_rewrite_of_ne hfile bytes h nofun

theorem walk_rewrite (new : Bool) (links : Nat) (p : Place) (segments : List Name) :
    (t.put place (.file bytes)).walk new links p segments =
      (t.walk new links p segments).map (Found.rewritten place bytes) := by
  -- along the walk in the tree as it was; a file with other bytes ends it where the file did
  fun_induction walk t new links p segments with
  | case1 links p entity h =>
      rw [walk, node?_rewrite hfile, h]
      rfl
  | case2 links p h =>
      rw [walk, node?_rewrite hfile, h]
      rfl
  | case3 links p segment rest h hstay ih =>
      rw [walk, directory_rewrite hfile bytes h]
      dsimp only
      rw [if_pos hstay, ih]
  | case4 links p rest h hstay ih =>
      rw [walk, directory_rewrite hfile bytes h]
      dsimp only
      rw [if_neg hstay, if_pos rfl, ih]
  | case5 links p segment rest h hstay hup hslash =>
      rw [walk, directory_rewrite hfile bytes h]
      dsimp only
      rw [if_neg hstay, if_neg hup, if_pos hslash]
      rfl
  | case6 links p segment rest h hstay hup hslash hlong =>
      rw [walk, directory_rewrite hfile bytes h]
      dsimp only
      rw [if_neg hstay, if_neg hup, if_neg hslash, if_pos hlong]
      rfl
  | case7 links p segment rest h hstay hup hslash hlong next hnext hrest =>
      rw [walk_name (directory_rewrite hfile bytes h) hstay hup hslash hlong,
        node?_rewrite hfile, hnext]
      exact if_pos hrest
  | case8 links p segment rest h hstay hup hslash hlong next hnext hrest =>
      rw [walk_name (directory_rewrite hfile bytes h) hstay hup hslash hlong,
        node?_rewrite hfile, hnext]
      exact if_neg hrest
  | case9 p segment rest h hstay hup hslash hlong next target hnext =>
      rw [walk_name (directory_rewrite hfile bytes h) hstay hup hslash hlong,
        node?_rewrite_of_ne hfile bytes hnext nofun]
      rfl
  | case10 p segment rest h hstay hup hslash hlong next target hnext links ih =>
      rw [walk_name (directory_rewrite hfile bytes h) hstay hup hslash hlong,
        node?_rewrite_of_ne hfile bytes hnext nofun]
      exact ih
  | case11 links p segment rest h hstay hup hslash hlong next entity hlink hnext ih =>
      rw [walk_name (directory_rewrite hfile bytes h) hstay hup hslash hlong,
        node?_rewrite hfile, hnext, ← ih, Option.map_some]
      -- what stands there is no link, and neither is the file with other bytes
      split
      next heq => cases heq
      next target heq =>
        have hlink' := Option.some.inj heq
        split at hlink'
        · cases hlink'
        · exact absurd hlink' (hlink target)
      next => rfl
  | case12 links p segment rest entity hdir h =>
      rw [walk, node?_rewrite hfile, h, Option.map_some]
      -- what stands there is no directory, and neither is the file with other bytes
      split
      next heq =>
        have hdir' := Option.some.inj heq
        split at hdir'
        · cases hdir'
        · exact absurd hdir' hdir
      next => rfl
      next heq => cases heq
  | case13 links p segment rest h =>
      rw [walk, node?_rewrite hfile, h]
      rfl

theorem resolve_rewrite (path : Path) :
    (t.put place (.file bytes)).resolve path =
      (t.resolve path).map fun found =>
        (found.1, if found.1 = place then .file bytes else found.2) := by
  have hlocate : (t.put place (.file bytes)).locate false path =
      (t.locate false path).map (Found.rewritten place bytes) := by
    unfold locate
    split
    · rfl
    · split
      · rfl
      · split
        · rfl
        · exact walk_rewrite hfile bytes _ _ _ _
  rw [resolve, resolve, hlocate]
  cases t.locate false path with
  | error fault => rfl
  | ok found => cases found <;> rfl

/-- A path leads to the file, or to what it led to. -/
theorem resolve_rewrite_cases (path : Path) :
    (t.resolve path = .ok (place, .file old) ∧
        (t.put place (.file bytes)).resolve path = .ok (place, .file bytes)) ∨
      (t.put place (.file bytes)).resolve path = t.resolve path := by
  have hrewrite := resolve_rewrite hfile bytes path
  cases hresolve : t.resolve path with
  | error fault =>
      rw [hresolve] at hrewrite
      exact .inr hrewrite
  | ok found =>
      obtain ⟨q, entity⟩ := found
      rw [hresolve] at hrewrite
      by_cases hq : q = place
      · have hnode := node?_of_resolve hresolve
        rw [hq, hfile] at hnode
        rw [Except.map, if_pos hq] at hrewrite
        rw [hrewrite, hq, Option.some.inj hnode]
        exact .inl ⟨rfl, rfl⟩
      · rw [Except.map, if_neg hq] at hrewrite
        exact .inr hrewrite

/-- A path leads to a regular file if it did. -/
theorem isFile_rewrite (path : Path) :
    (t.put place (.file bytes)).isFile path = t.isFile path := by
  rw [isFile, isFile]
  rcases resolve_rewrite_cases hfile bytes path with ⟨hold, hnew⟩ | hsame
  · rw [hold, hnew]
  · rw [hsame]

/-- A path leads to the same place. -/
theorem canonical_rewrite (path : Path) :
    (t.put place (.file bytes)).canonical path = t.canonical path := by
  rw [canonical, canonical]
  rcases resolve_rewrite_cases hfile bytes path with ⟨hold, hnew⟩ | hsame
  · rw [hold, hnew]
  · rw [hsame]

theorem present_rewrite (path : Path) :
    (t.put place (.file bytes)).present path = t.present path := by
  rw [present, present, canonical_rewrite hfile]

/-- **What is read from the file changes, and nothing else.** -/
theorem read_rewrite (path : Path) :
    (t.read path = textOf old ∧ (t.put place (.file bytes)).read path = textOf bytes) ∨
      (t.put place (.file bytes)).read path = t.read path := by
  rcases resolve_rewrite_cases hfile bytes path with ⟨hold, hnew⟩ | hsame
  · exact .inl ⟨read_of_resolve hold, read_of_resolve hnew⟩
  · rw [read, read, hsame]
    exact .inr rfl

end Rewrite

end TagExpander.FileTree
