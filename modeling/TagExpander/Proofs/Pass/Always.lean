/-
  TagExpander.Proofs.Pass.Always — what holds of every result of a computation.

  A pass reads files in a monad of which nothing is known but its laws.  A property
  holds of all results of a computation if the computation can be done with results
  that carry a proof of it:

      Always P x  ↔  x = Subtype.val <$> y   for some y : m {a // P a}

  In the identity monad this is the property of the one result (`always_id_iff`).

  Main results:
    * `Always.pure`, `Always.bind` — the two rules by which all others are proved.
-/

namespace TagExpander

variable {m : Type → Type} [Monad m] {α β : Type}

/-- Every result of the computation has the property. -/
def Always (P : α → Prop) (x : m α) : Prop :=
  ∃ y : m {a // P a}, Subtype.val <$> y = x

/-- In the identity monad there is one result. -/
theorem always_id_iff {P : α → Prop} {x : Id α} : Always P x ↔ P x.run := by
  constructor
  · intro h
    obtain ⟨y, rfl⟩ := h
    exact y.run.2
  · intro h
    exact ⟨pure ⟨x.run, h⟩, rfl⟩

/-- Nothing is asked of the results. -/
theorem always_true [LawfulMonad m] (x : m α) : Always (fun _ => True) x := by
  refine ⟨(fun a => ⟨a, trivial⟩) <$> x, ?_⟩
  rw [← comp_map]
  exact id_map x

namespace Always

variable [LawfulMonad m] {P : α → Prop} {Q : β → Prop} {x : m α} {f : α → m β}

/-- A result that is given has the property if it does. -/
theorem pure {a : α} (h : P a) : Always P (Pure.pure a : m α) :=
  ⟨Pure.pure ⟨a, h⟩, map_pure _ _⟩

/-- Two computations in a row: what holds of the first result may be used for the
second. -/
theorem bind (hx : Always P x) (hf : ∀ a, P a → Always Q (f a)) : Always Q (x >>= f) := by
  obtain ⟨y, rfl⟩ := hx
  refine ⟨y >>= fun a => Classical.choose (hf a.1 a.2), ?_⟩
  rw [map_bind, bind_map_left]
  congr 1
  funext a
  exact Classical.choose_spec (hf a.1 a.2)

/-- What follows a computation matters only for results that have the property. -/
theorem bind_congr {g : α → m β} (h : Always P x) (heq : ∀ a, P a → f a = g a) :
    x >>= f = x >>= g := by
  obtain ⟨y, rfl⟩ := h
  rw [bind_map_left, bind_map_left]
  exact congrArg (y >>= ·) (funext fun a => heq a.1 a.2)

/-- Properties may be weakened. -/
theorem mono {P' : α → Prop} (h : Always P x) (himp : ∀ a, P a → P' a) : Always P' x := by
  obtain ⟨y, rfl⟩ := h
  refine ⟨(fun a => ⟨a.1, himp a.1 a.2⟩) <$> y, ?_⟩
  rw [← comp_map]
  rfl

end Always

end TagExpander
