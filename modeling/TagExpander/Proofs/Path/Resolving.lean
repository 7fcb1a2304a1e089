/-
  TagExpander.Proofs.Path.Resolving — safe resolution is a lexical normal form.

  A path below a directory is resolved name by name, on the text of the path.  A counter
  tells how many names stand behind the directory, and what the text stands for is kept in
  step with it:

      components read      a    ..    b    .    c
      counter         0    1    0     1    1    2
      path            D   D/a   D    D/b  D/b  D/b/c

  So a `..` takes back a name that was put there before, and never a component of the
  directory, whatever that is written like.  Only then the canonical forms are compared,
  where there are any.

  Main results:
    * `Context.descend_append` — a descent goes on where a part of it ends.
    * `Context.resolveSafe_lexical` — what a path is resolved to, and on the way there.
-/
import TagExpander.Proofs.Path.Descend

namespace TagExpander

namespace Context

/-! ## §1. A descent in two parts. -/

/-- **A descent goes on where a part of it ends**, with as many names to take back as are
    left on the stack; if there are too few of them in the part, the whole of it ends. -/
theorem descend_append (p : Path) (stack : List (List Char)) (front : List Path.Component) :
    match Path.reduce stack front with
    | none => ∀ back, descend p stack.length (front ++ back) = none
    | some names =>
      ∃ path, descend p stack.length front = some path ∧
        ∀ back, descend p stack.length (front ++ back) = descend path names.length back := by
  -- on the components of the part; the depth is the height of the stack
  induction front generalizing p stack with
  | nil =>
      have hnames : Path.reduce stack [] = some stack.reverse := by cases stack <;> rfl
      rw [hnames]
      refine ⟨p, rfl, ?_⟩
      intro back
      rw [List.length_reverse]
      rfl
  | cons c front ih =>
      cases c with
      | root => cases stack <;> exact fun _ => rfl
      | current => cases stack <;> exact ih p _
      | normal name => cases stack <;> exact ih (p.join ⟨name⟩) (name :: _)
      | parent =>
          cases stack with
          | nil => exact fun _ => rfl
          | cons top stack => exact ih p.pop stack

/-- Along a part of a text, the components of the path are those of the directory, and the
    names on the stack behind them. -/
theorem components_descend_take (base : Path) (text : String) (n : Nat) :
    (descend base 0 ((Path.ofString text).components.take n)).map Path.components =
      (Path.reduce [] ((Path.ofString text).components.take n)).map
        fun names => base.components ++ names.map .normal := by
  have hbase : base.components = base.components ++ ([] : List (List Char)).reverse.map .normal :=
    (List.append_nil _).symm
  apply components_descend hbase
  intro name hname
  exact Path.isName_of_mem_components (List.mem_of_mem_take hname)

/-! ## §2. What a path is resolved to. -/

/-- The path, unless both canonical forms exist and that of the path does not start with the
    components of that of the directory. -/
def confined (path : Path) (target root : Option Path) : Option Path :=
  match target, root with
  | some target, some root =>
    if root.components <+: target.components then some path else none
  | _, _ => some path

/-- The check of the canonical forms asks for nothing more. -/
theorem run_checked {m : Type → Type} [Monad m] (files : Files m) (signal : StopSignal)
    (path : Path) (target root : Option Path) :
    (match target, root with
      | some target, some root =>
        if target.startsWith root then Script.done (some path) else .done none
      | _, _ => .done (some path)).run files signal =
      pure ⟨confined path target root, signal, []⟩ := by
  cases target with
  | none => rfl
  | some target =>
      cases root with
      | none => rfl
      | some root =>
          have hstarts : target.startsWith root = true ↔ root.components <+: target.components :=
            List.isPrefixOf_iff_prefix
          dsimp only [confined]
          by_cases h : root.components <+: target.components
          · rw [if_pos h, if_pos (hstarts.2 h)]
            rfl
          · rw [if_neg h, if_neg (mt hstarts.1 h)]
            rfl

/-- **Safe resolution is a lexical normal form.**
    * On the way, whatever part of the text has been read, the path stands for the directory
      with the names behind it that are left of this part, and the counter is their number;
      if the names of the part run out, there is no path.
    * There is no result if the names run out or the text starts at the root; otherwise it
      is the directory with the names behind it that are left, unless both canonical forms
      exist and the one leads out of the other. -/
theorem resolveSafe_lexical (c : Context) (text : String) :
    (∀ n : Nat,
      match Path.reduce [] ((Path.ofString text).components.take n) with
      | none => descend c.baseDir 0 (Path.ofString text).components = none
      | some names =>
        ∃ path, descend c.baseDir 0 ((Path.ofString text).components.take n) = some path ∧
          path.components = c.baseDir.components ++ names.map .normal ∧
          descend c.baseDir 0 (Path.ofString text).components =
            descend path names.length ((Path.ofString text).components.drop n)) ∧
    (match Path.reduce [] (Path.ofString text).components with
      | none =>
        ∀ (m : Type → Type) [Monad m] (files : Files m) (signal : StopSignal),
          (c.resolveSafe text).run files signal = pure ⟨none, signal, []⟩
      | some names =>
        ∃ path : Path, path.components = c.baseDir.components ++ names.map .normal ∧
          ∀ (m : Type → Type) [Monad m] (files : Files m) (signal : StopSignal),
            (c.resolveSafe text).run files signal = do
              let target ← files.canonical path
              let root ← files.canonical c.baseDir
              pure ⟨confined path target root, signal, []⟩) := by
  generalize hcs : (Path.ofString text).components = cs
  have hnames := components_descend_take c.baseDir text
  rw [hcs] at hnames
  constructor
  · intro n
    specialize hnames n
    have happend := descend_append c.baseDir [] (cs.take n)
    cases hreduce : Path.reduce [] (cs.take n) with
    | none =>
        rw [hreduce] at happend
        have hnone := happend (cs.drop n)
        rwa [List.take_append_drop] at hnone
    | some names =>
        rw [hreduce] at happend hnames
        obtain ⟨path, hpath, hrest⟩ := happend
        have hwhole := hrest (cs.drop n)
        rw [List.take_append_drop] at hwhole
        refine ⟨path, hpath, ?_, hwhole⟩
        change descend c.baseDir 0 (cs.take n) = some path at hpath
        rw [hpath] at hnames
        exact Option.some.inj hnames
  · specialize hnames cs.length
    rw [List.take_length] at hnames
    cases hreduce : Path.reduce [] cs with
    | none =>
        rw [hreduce, Option.map_none, Option.map_eq_none_iff] at hnames
        intro m _ files signal
        unfold resolveSafe
        rw [hcs, hnames]
        rfl
    | some names =>
        rw [hreduce, Option.map_some, Option.map_eq_some_iff] at hnames
        obtain ⟨path, hpath, hcomponents⟩ := hnames
        refine ⟨path, hcomponents, ?_⟩
        intro m _ files signal
        unfold resolveSafe
        rw [hcs, hpath]
        show (files.canonical path >>= fun target => files.canonical c.baseDir >>= fun root =>
          Script.run files signal _) = _
        congr 1
        funext target
        congr 1
        funext root
        exact run_checked files signal path target root

/-- From the directory `..`, past a name that is taken back. -/
example : Path.reduce [] (Path.ofString "a/../b/.").components = some ["b".toList] ∧
    (descend (.ofString "..") 0 (Path.ofString "a/../b/.").components).map Path.components =
      some [.parent, .normal "b".toList] := by
  decide +kernel

end Context

end TagExpander
