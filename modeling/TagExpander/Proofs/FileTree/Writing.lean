/-
  TagExpander.Proofs.FileTree.Writing — a file that is written.

  Writing walks along the path as reading does, and puts the text where the walk ends: at a
  file, or at the place of nothing in a directory.  Nothing else in the tree changes.

  The same walk afterwards ends at the file that was written, unless it went over the place
  before.  It does so in no tree that a system has: where everything stands in a directory,
  a walk comes by directories and links only, and never ends at a link.

  Main results:
    * `write_eq_ok_iff` — when a write succeeds, and the tree afterwards.
    * `node?_of_write` — what stands where afterwards.
    * `read_of_write` — what is read afterwards is what was written.
-/
import TagExpander.Proofs.FileTree.Rewriting

namespace TagExpander.FileTree

/-! ## §1. Where a write goes. -/

/-- The path leads to a place at which a file can be written: that of something that is no
    directory, or of nothing in a directory. -/
def Writable (t : FileTree) (path : Path) (place : Place) : Prop :=
  t.locate true path = .ok (.missing place) ∨
    ∃ entity, t.locate true path = .ok (.existing place entity) ∧ entity ≠ .directory

variable {t t' : FileTree} {path : Path} {place : Place} {text : String}

/-- **When a write succeeds**, and the tree that it leaves. -/
theorem write_eq_ok_iff :
    t.write path text = .ok t' ↔
      ∃ place, t.Writable path place ∧ t' = t.put place (.file text.toUTF8) := by
  unfold write Writable
  cases hlocate : t.locate true path with
  | error fault =>
      refine iff_of_false nofun ?_
      rintro ⟨place, h | ⟨entity, h, -⟩, -⟩
      · cases h
      · cases h
  | ok found =>
      cases found with
      | missing place =>
          constructor
          · intro h
            cases h
            exact ⟨place, .inl rfl, rfl⟩
          · rintro ⟨place', h | ⟨entity, h, -⟩, rfl⟩
            · cases h
              rfl
            · cases h
      | existing place entity =>
          constructor
          · intro h
            cases entity with
            | directory => cases h
            | file bytes =>
                cases h
                exact ⟨place, .inr ⟨_, rfl, nofun⟩, rfl⟩
            | link target =>
                cases h
                exact ⟨place, .inr ⟨_, rfl, nofun⟩, rfl⟩
          · rintro ⟨place', h | ⟨entity', h, hne⟩, rfl⟩
            · cases h
            · cases h
              cases entity with
              | directory => exact absurd rfl hne
              | file bytes => rfl
              | link target => rfl

/-! ## §2. Walks to nothing. -/

/-- A walk ends at the place of nothing only where nothing is. -/
theorem node?_of_walk_missing {new : Bool} {links : Nat} {p q : Place} {segments : List Name}
    (h : t.walk new links p segments = .ok (.missing q)) : t.node? q = none := by
  fun_induction walk t new links p segments with
  | case7 links p segment rest hdir hstay hup hslash hlong next hnext hrest =>
      rw [← Found.missing.inj (Except.ok.inj h)]
      exact hnext
  | case3 _ _ _ _ _ _ ih | case4 _ _ _ _ _ ih | case10 _ _ _ _ _ _ _ _ _ _ _ _ ih
  | case11 _ _ _ _ _ _ _ _ _ _ _ _ _ ih => exact ih h
  | case1 | case2 | case5 | case6 | case8 | case9 | case12 | case13 => cases h

/-- A walk that finds its end goes on to find it where no file is to be new. -/
theorem walk_of_new {new : Bool} {links : Nat} {p : Place} {segments : List Name} {found : Found}
    (h : t.walk new links p segments = .ok found) : t.walk false links p segments = .ok found := by
  have hopen (rest : List Name) : ¬(false && !rest.isEmpty && rest.all List.isEmpty) = true :=
    Bool.false_ne_true
  fun_induction walk t new links p segments with
  | case1 links p entity hnode =>
      rw [walk, hnode]
      exact h
  | case3 links p segment rest hdir hstay ih =>
      rw [walk, hdir]
      dsimp only
      rw [if_pos hstay]
      exact ih h
  | case4 links p rest hdir hstay ih =>
      rw [walk, hdir]
      dsimp only
      rw [if_neg hstay, if_pos rfl]
      exact ih h
  | case7 links p segment rest hdir hstay hup hslash hlong next hnext hrest =>
      rw [walk_name hdir hstay hup (hopen rest) hlong, hnext]
      exact (if_pos hrest).trans h
  | case10 p segment rest hdir hstay hup hslash hlong next target hnext links ih =>
      rw [walk_name hdir hstay hup (hopen rest) hlong, hnext]
      exact ih h
  | case11 links p segment rest hdir hstay hup hslash hlong next entity hlink hnext ih =>
      rw [walk_name hdir hstay hup (hopen rest) hlong, hnext]
      cases entity with
      | link target => exact absurd rfl (hlink target)
      | file bytes => exact ih h
      | directory => exact ih h
  | case2 | case5 | case6 | case8 | case9 | case12 | case13 => cases h

/-- A walk that is made along a path, from the root or the working directory, is made by all
    trees with the same working directory. -/
theorem exists_walk_of_locate {new : Bool} {found : Found} (h : t.locate new path = .ok found) :
    ∃ start segments, (start = [] ∨ start = t.current) ∧
      t.walk new maxLinks start segments = .ok found ∧
      ∀ (u : FileTree) (new' : Bool), u.current = t.current →
        u.locate new' path = u.walk new' maxLinks start segments := by
  unfold locate at h
  split at h
  · cases h
  next hname =>
    split at h
    · cases h
    next hempty =>
      split at h
      · cases h
      next hlong =>
        refine ⟨_, _, ?_, h, ?_⟩
        · split
          · exact .inl rfl
          · exact .inr rfl
        · intro u new' hcurrent
          unfold locate
          rw [if_neg hname, if_neg hempty, if_neg hlong, hcurrent]

/-- What a write goes over is no directory. -/
theorem Writable.node? (h : t.Writable path place) :
    t.node? place = none ∨ ∃ entity, t.node? place = some entity ∧ entity ≠ .directory := by
  rcases h with hmissing | ⟨entity, hexisting, hne⟩
  · obtain ⟨start, segments, -, hwalk, -⟩ := exists_walk_of_locate hmissing
    exact .inl (node?_of_walk_missing hwalk)
  · obtain ⟨start, segments, -, hwalk, -⟩ := exists_walk_of_locate hexisting
    exact .inr ⟨entity, node?_of_walk hwalk, hne⟩

theorem Writable.ne_root (h : t.Writable path place) : place ≠ [] := by
  rintro rfl
  rcases h.node? with hnone | ⟨entity, hsome, hne⟩
  · cases hnone
  · cases hsome
    exact hne rfl

/-- **What stands where after a write**: the text in its place, and all else as it was. -/
theorem node?_of_write (h : t.Writable path place) (text : String) (other : Place) :
    (t.put place (.file text.toUTF8)).node? other =
      if other = place then some (.file text.toUTF8) else t.node? other :=
  node?_put t place other _ h.ne_root

/-! ## §3. Reading what was written. -/

/-- Everything stands in a directory, and so does the process. -/
structure Closed (t : FileTree) : Prop where
  current : t.node? t.current = some .directory
  parent : ∀ place name entity, t.node? (place ++ [name]) = some entity →
    t.node? place = some .directory

/-- Above a directory there is one. -/
theorem Closed.dropLast (h : t.Closed) {p : Place} (hp : t.node? p = some .directory) :
    t.node? p.dropLast = some .directory := by
  rcases List.eq_nil_or_concat p with rfl | ⟨above, name, rfl⟩
  · rfl
  · rw [List.concat_eq_append] at hp ⊢
    rw [List.dropLast_concat]
    exact h.parent above name _ hp

/-- A walk does not end at a link. -/
theorem Closed.walk_ne_link (hclosed : t.Closed) {new : Bool} {links : Nat} {p q : Place}
    {segments : List Name} {entity : Entity} (hp : ∀ target, t.node? p ≠ some (.link target))
    (h : t.walk new links p segments = .ok (.existing q entity)) (target : Path) :
    entity ≠ .link target := by
  -- a link is replaced by its target, which is sought from a directory
  have hdirectory {p : Place} (h : t.node? p = some .directory) (target : Path) :
      t.node? p ≠ some (.link target) := by
    intro hlink
    cases h.symm.trans hlink
  fun_induction walk t new links p segments with
  | case1 links p entity' hnode =>
      rintro rfl
      cases h
      exact hp target hnode
  | case3 links p segment rest hdir hstay ih => exact ih hp h
  | case4 links p rest hdir hstay ih => exact ih (hdirectory (hclosed.dropLast hdir)) h
  | case10 p segment rest hdir hstay hup hslash hlong next target' hnext links ih =>
      refine ih ?_ h
      split
      · intro target hlink
        cases hlink
      · exact hp
  | case11 links p segment rest hdir hstay hup hslash hlong next entity' hlink hnext ih =>
      refine ih ?_ h
      intro target' heq
      rw [hnext] at heq
      exact hlink target' (Option.some.inj heq)
  | case2 | case5 | case6 | case7 | case8 | case9 | case12 | case13 => cases h

/-- A walk to the place of nothing ends at the file that is put there. -/
theorem walk_put_missing {new : Bool} {links : Nat} {p q : Place} {segments : List Name}
    (h : t.walk new links p segments = .ok (.missing q)) (bytes : ByteArray) :
    (t.put q (.file bytes)).walk new links p segments = .ok (.existing q (.file bytes)) := by
  have hnone := node?_of_walk_missing h
  have hroot : q ≠ [] := by
    rintro rfl
    cases hnone
  -- what the walk comes by is there, so it is somewhere else
  have hsame {p : Place} {entity : Entity} (hp : t.node? p = some entity) :
      (t.put q (.file bytes)).node? p = some entity := by
    rw [node?_put t q p _ hroot, if_neg, hp]
    rintro rfl
    cases hnone.symm.trans hp
  fun_induction walk t new links p segments with
  | case3 links p segment rest hdir hstay ih =>
      rw [walk, hsame hdir]
      dsimp only
      rw [if_pos hstay]
      exact ih h
  | case4 links p rest hdir hstay ih =>
      rw [walk, hsame hdir]
      dsimp only
      rw [if_neg hstay, if_pos rfl]
      exact ih h
  | case7 links p segment rest hdir hstay hup hslash hlong next hnext hrest =>
      have hq : p ++ [segment] = q := Found.missing.inj (Except.ok.inj h)
      have hfile : (t.put q (.file bytes)).node? q = some (.file bytes) := by
        rw [node?_put t q q _ hroot, if_pos rfl]
      rw [walk_name (hsame hdir) hstay hup hslash hlong, hq, hfile, List.isEmpty_iff.1 hrest]
      dsimp only
      rw [walk, hfile]
  | case10 p segment rest hdir hstay hup hslash hlong next target hnext links ih =>
      rw [walk_name (hsame hdir) hstay hup hslash hlong, hsame hnext]
      exact ih h
  | case11 links p segment rest hdir hstay hup hslash hlong next entity hlink hnext ih =>
      rw [walk_name (hsame hdir) hstay hup hslash hlong, hsame hnext]
      cases entity with
      | link target => exact absurd rfl (hlink target)
      | file bytes => exact ih h
      | directory => exact ih h
  | case1 | case2 | case5 | case6 | case8 | case9 | case12 | case13 => cases h

/-- Along the path of a write, the file that was written is found. -/
theorem Closed.resolve_of_write (hclosed : t.Closed) (h : t.Writable path place)
    (bytes : ByteArray) :
    (t.put place (.file bytes)).resolve path = .ok (place, .file bytes) := by
  have hlocate : (t.put place (.file bytes)).locate false path =
      .ok (.existing place (.file bytes)) := by
    rcases h with hmissing | ⟨entity, hexisting, hne⟩
    -- the file is new: the walk comes by other places only
    · obtain ⟨start, segments, -, hwalk, hpath⟩ := exists_walk_of_locate hmissing
      rw [hpath (t.put place (.file bytes)) false rfl]
      exact walk_put_missing (walk_of_new hwalk) bytes
    -- the file takes the place of another one, and the walk sees no difference
    · obtain ⟨start, segments, hstart, hwalk, hpath⟩ := exists_walk_of_locate hexisting
      rw [hpath (t.put place (.file bytes)) false rfl]
      have hdir : t.node? start = some .directory := by
        rcases hstart with rfl | rfl
        · rfl
        · exact hclosed.current
      cases entity with
      | directory => exact absurd rfl hne
      | link target =>
          refine absurd rfl (hclosed.walk_ne_link ?_ hwalk target)
          intro target' hlink
          cases hdir.symm.trans hlink
      | file old =>
          rw [walk_rewrite (node?_of_walk hwalk), walk_of_new hwalk]
          exact congrArg (fun entity => Except.ok (Found.existing place entity)) (if_pos rfl)
  rw [resolve, hlocate]

/-- **What is read after a write is what was written.** -/
theorem Closed.read_of_write (hclosed : t.Closed) (h : t.Writable path place) (text : String) :
    (t.put place (.file text.toUTF8)).read path = .ok text :=
  (read_of_resolve (hclosed.resolve_of_write h text.toUTF8)).trans (textOf_toUTF8 text)

end TagExpander.FileTree
