/-
  TagExpander.Proofs.Argument.Binding — every argument goes to a parameter of its own.

  Arguments are bound from left to right.  An argument with a key takes the parameter of
  that name.  An argument without one takes the first parameter that has no value yet,
  behind the one that the last such argument took:

      parameters    Key   IndexKey   ValueKey
      arguments     Items   INDEXKEY=I   Item
      places        Items → 0   I → 1   Item → 2

  A key that is given later takes nothing away from an argument in front of it, since what
  such an argument passes over has a value already.  So it makes no difference if all
  arguments with keys are put in front.

  Main results:
    * `assigns_append_singleton` — one more argument.
    * `fits_or_refused` — the next argument has one place, or it ends the binding.
    * `Assigns.exists_binding`, `Assigns.keyedFirst` — arguments at their places are bound,
      in either order.
    * `bind_assigns` — what binding comes to, for all arguments and parameters.
-/
import Mathlib.Data.List.Induction
import Mathlib.Data.List.Nodup
import Mathlib.Data.List.TakeWhile
import Mathlib.Order.WellFounded
import TagExpander.Argument.Binding

namespace TagExpander

/-! ## §1. Arguments at their places. -/

/-- An argument, and the place that it takes in a list of parameters. -/
structure Seat (parameters : List String) where
  argument : Argument
  place : Fin parameters.length

namespace Seat

variable {parameters : List String}

/-- The folded name of the parameter. -/
def name (s : Seat parameters) : String :=
  Text.fold parameters[s.place]

end Seat

namespace Arguments

variable {parameters : List String} {seats : List (Seat parameters)} {s : Seat parameters}
  {a : Argument}

/-- The parameter of this name has its value. -/
def Taken (seats : List (Seat parameters)) (name : String) : Prop :=
  Text.fold name ∈ seats.map Seat.name

/-- The place is behind those of all arguments without a key. -/
def Behind (seats : List (Seat parameters)) (place : Fin parameters.length) : Prop :=
  ∀ s ∈ seats, s.argument.key = none → s.place < place

/-- The place is the first one, behind those of all arguments without a key, whose
    parameter has no value. -/
structure FirstFree (seats : List (Seat parameters)) (place : Fin parameters.length) : Prop where
  behind : Behind seats place
  free : ¬Taken seats parameters[place]
  first : ∀ other, Behind seats other → other < place → Taken seats parameters[other]

/-- Arguments at the places that they take when they are read from left to right. -/
structure Assigns (seats : List (Seat parameters)) : Prop where
  /-- No two arguments share a parameter, whatever its spelling. -/
  distinct : (seats.map Seat.name).Nodup
  /-- An argument with a key is at the parameter of that name. -/
  keyed : ∀ s ∈ seats, ∀ key, s.argument.key = some key → s.name = Text.fold key
  /-- An argument without a key is at the first place that the arguments in front of it
      leave. -/
  positional : ∀ before s after, seats = before ++ s :: after → s.argument.key = none →
    FirstFree before s.place

/-- The argument can be put at this place behind the others. -/
structure Fits (seats : List (Seat parameters)) (s : Seat parameters) : Prop where
  free : ¬Taken seats parameters[s.place]
  keyed : ∀ key, s.argument.key = some key → s.name = Text.fold key
  positional : s.argument.key = none → FirstFree seats s.place

/-- There is no place for the argument behind the others, and why. -/
inductive Refused (seats : List (Seat parameters)) (a : Argument) : BindingFault → Prop where
  /-- Its key is no parameter. -/
  | unknown {key : String} (hkey : a.key = some key)
      (hall : ∀ p ∈ parameters, Text.fold p ≠ Text.fold key) : Refused seats a (.unknown key)
  /-- The parameter of its key has a value already. -/
  | duplicate {key p : String} (hkey : a.key = some key)
      (hfind : parameters.find? (Text.same key) = some p) (htaken : Taken seats p) :
      Refused seats a (.duplicate p)
  /-- It has no key, and all parameters that are left for it have their values. -/
  | tooMany (hkey : a.key = none)
      (hall : ∀ place, Behind seats place → Taken seats parameters[place]) :
      Refused seats a (.tooMany parameters.length)

theorem assigns_nil : Assigns ([] : List (Seat parameters)) where
  distinct := List.nodup_nil
  keyed := nofun
  positional := by
    intro before s after h
    simp at h

/-- **One more argument** is at its place if it fits behind the others. -/
theorem assigns_append_singleton : Assigns (seats ++ [s]) ↔ Assigns seats ∧ Fits seats s := by
  constructor
  · intro h
    have hdistinct := h.distinct
    rw [List.map_append, List.nodup_append] at hdistinct
    obtain ⟨hseats, -, hdisjoint⟩ := hdistinct
    refine ⟨⟨hseats, ?_, ?_⟩, ⟨?_, ?_, ?_⟩⟩
    · intro t ht
      exact h.keyed t (List.mem_append_left _ ht)
    · intro before t after heq
      apply h.positional before t (after ++ [s])
      rw [heq, List.append_assoc]
      rfl
    · intro htaken
      exact hdisjoint s.name htaken s.name (List.mem_singleton.2 rfl) rfl
    · exact h.keyed s (List.mem_append_right _ (List.mem_singleton.2 rfl))
    · exact h.positional seats s [] rfl
  · rintro ⟨h, hfits⟩
    refine ⟨?_, ?_, ?_⟩
    · rw [List.map_append, List.nodup_append]
      refine ⟨h.distinct, List.nodup_singleton _, ?_⟩
      intro name hname last hlast heq
      apply hfits.free
      rw [List.mem_singleton.1 hlast] at heq
      exact (heq ▸ hname : s.name ∈ seats.map Seat.name)
    · intro t ht
      rcases List.mem_append.1 ht with ht | ht
      · exact h.keyed t ht
      · rw [List.mem_singleton.1 ht]
        exact hfits.keyed
    · intro before t after heq
      -- the argument is the last one, or one of the others
      rcases List.eq_nil_or_concat after with rfl | ⟨front, last, rfl⟩
      · obtain ⟨rfl, hlast⟩ := List.append_inj' heq rfl
        cases hlast
        exact hfits.positional
      · rw [List.concat_eq_append, ← List.cons_append, ← List.append_assoc] at heq
        obtain ⟨hseats, -⟩ := List.append_inj' heq rfl
        exact h.positional before t front hseats

/-- **The next argument has a place, or there is a reason to refuse it.** -/
theorem fits_or_refused (seats : List (Seat parameters)) (a : Argument) :
    (∃ place, Fits seats ⟨a, place⟩) ∨ ∃ fault, Refused seats a fault := by
  cases hkey : a.key with
  | some key =>
      cases hfind : parameters.find? (Text.same key) with
      | none =>
          right
          refine ⟨_, .unknown hkey ?_⟩
          intro p hp heq
          exact List.find?_eq_none.1 hfind p hp (Text.same_iff.2 heq.symm)
      | some p =>
          by_cases htaken : Taken seats p
          · exact .inr ⟨_, .duplicate hkey hfind htaken⟩
          · obtain ⟨i, hi, rfl⟩ := List.getElem_of_mem (List.mem_of_find?_eq_some hfind)
            left
            refine ⟨⟨i, hi⟩, htaken, ?_, ?_⟩
            · intro key' hkey'
              obtain rfl : key = key' := Option.some.inj (hkey.symm.trans hkey')
              exact (Text.same_iff.1 (List.find?_some hfind)).symm
            · intro hnone
              rw [hkey] at hnone
              cases hnone
  | none =>
      by_cases hplace : ∃ place, Behind seats place ∧ ¬Taken seats parameters[place]
      · obtain ⟨place, ⟨hbehind, hfree⟩, hmin⟩ := (measure Fin.val).wf.has_min
          {place | Behind seats place ∧ ¬Taken seats parameters[place]} hplace
        left
        refine ⟨place, hfree, ?_, ?_⟩
        · intro key hsome
          rw [hkey] at hsome
          cases hsome
        · intro _
          refine ⟨hbehind, hfree, ?_⟩
          intro other hother hlt
          by_contra hfree'
          exact hmin other ⟨hother, hfree'⟩ hlt
      · right
        refine ⟨_, .tooMany hkey ?_⟩
        intro place hbehind
        by_contra hfree
        exact hplace ⟨place, hbehind, hfree⟩

/-! ## §2. Binding puts them there. -/

/-- What binding has come to when it has read the arguments of these seats: the parameters
    behind the last one that an argument without a key took, and the values so far. -/
structure Reached (seats : List (Seat parameters)) (free : List String) (b : Binding) : Prop where
  rest : ∃ n, free = parameters.drop n ∧ ∀ place, Behind seats place ↔ n ≤ place.val
  values : b.values = (seats.map fun s => (s.name, s.argument.value)).reverse

theorem reached_nil : Reached ([] : List (Seat parameters)) parameters ⟨[]⟩ where
  rest := ⟨0, rfl, fun _ => ⟨fun _ => Nat.zero_le _, fun _ => nofun⟩⟩
  values := rfl

section Reached

variable {free : List String} {b : Binding}

/-- The parameters that have a value are those that are taken. -/
theorem Reached.has_iff (h : Reached seats free b) (name : String) :
    b.has name = true ↔ Taken seats name := by
  rw [Binding.has, Binding.get?, h.values, List.lookup_isSome_iff]
  simp only [Taken, List.mem_reverse, List.mem_map, beq_iff_eq]
  constructor
  · rintro ⟨p, ⟨s, hs, rfl⟩, heq⟩
    exact ⟨s, hs, heq.symm⟩
  · rintro ⟨s, hs, heq⟩
    exact ⟨_, ⟨s, hs, rfl⟩, heq.symm⟩

theorem Reached.assign (h : Reached seats free b) {name : String} (hfree : ¬Taken seats name)
    (value : String) : b.assign name value = .ok ⟨(Text.fold name, value) :: b.values⟩ := by
  rw [Binding.assign, if_neg]
  intro hhas
  exact hfree ((h.has_iff name).1 hhas)

/-- The values are those of the arguments, at the names of their parameters. -/
theorem Reached.get?_eq_some_iff (h : Reached seats free b) (hassigns : Assigns seats)
    (key value : String) :
    b.get? key = some value ↔ ∃ s ∈ seats, s.name = Text.fold key ∧ s.argument.value = value := by
  rw [Binding.get?, h.values, List.lookup_eq_some_iff]
  constructor
  · rintro ⟨front, back, hsplit, -⟩
    have hmem : (Text.fold key, value) ∈
        (seats.map fun s => (s.name, s.argument.value)).reverse := by
      rw [hsplit]
      exact List.mem_append_right _ List.mem_cons_self
    rw [List.mem_reverse, List.mem_map] at hmem
    obtain ⟨s, hs, heq⟩ := hmem
    exact ⟨s, hs, congrArg Prod.fst heq, congrArg Prod.snd heq⟩
  · rintro ⟨s, hs, hname, hvalue⟩
    -- no other argument has the same name, so none of those behind it hides this one
    obtain ⟨before, after, rfl⟩ := List.append_of_mem hs
    have hdistinct := hassigns.distinct
    rw [List.map_append, List.map_cons, List.nodup_append, List.nodup_cons] at hdistinct
    obtain ⟨-, ⟨hafter, -⟩, -⟩ := hdistinct
    refine ⟨(after.map fun s => (s.name, s.argument.value)).reverse,
      (before.map fun s => (s.name, s.argument.value)).reverse, ?_, ?_⟩
    · simp [hname, hvalue]
    · intro p hp
      rw [List.mem_reverse, List.mem_map] at hp
      obtain ⟨t, ht, rfl⟩ := hp
      rw [bne_iff_ne, ← hname]
      intro heq
      apply hafter
      rw [heq]
      exact List.mem_map_of_mem ht

/-- The first place that is free, among the places from some place on. -/
theorem dropWhile_drop {f : String → Bool} {n : Nat} {place : Fin parameters.length}
    (hle : n ≤ place.val) (hfree : f parameters[place] = false)
    (hall : ∀ other : Fin parameters.length, n ≤ other.val → other < place →
      f parameters[other] = true) :
    (parameters.drop n).dropWhile f = parameters[place] :: parameters.drop (place.val + 1) := by
  obtain ⟨i, hi⟩ := place
  -- on the number of places that are passed
  induction hd : i - n generalizing n with
  | zero =>
      obtain rfl : n = i := by
        simp only at hle
        omega
      rw [List.drop_eq_getElem_cons hi, List.dropWhile_cons_of_neg]
      · rfl
      · intro htrue
        exact absurd (htrue.symm.trans hfree) (by decide)
  | succ d ih =>
      simp only at hle
      have hn : n < parameters.length := by omega
      have hpassed : f parameters[n] = true :=
        hall ⟨n, hn⟩ (Nat.le_refl n) (by show n < i; omega)
      rw [List.drop_eq_getElem_cons hn, List.dropWhile_cons_of_pos hpassed]
      have hnext : n + 1 ≤ i := by omega
      refine ih hnext hfree ?_ (by omega)
      intro other hother hlt
      exact hall other (Nat.le_of_succ_le hother) hlt

/-- **One step of binding**: an argument that fits is put at its place. -/
theorem Reached.step (h : Reached seats free b) (hfits : Fits seats s) :
    ∃ free' b', Reached (seats ++ [s]) free' b' ∧
      ∀ rest, bindFrom parameters free b (s.argument :: rest) =
        bindFrom parameters free' b' rest := by
  obtain ⟨n, rfl, hbehind⟩ := h.rest
  have happend : ∀ place, Behind (seats ++ [s]) place ↔
      Behind seats place ∧ (s.argument.key = none → s.place < place) := by
    intro place
    unfold Behind
    rw [List.forall_mem_append, List.forall_mem_singleton]
  have hvalues : (s.name, s.argument.value) :: b.values =
      ((seats ++ [s]).map fun s => (s.name, s.argument.value)).reverse := by
    rw [h.values]
    simp
  obtain ⟨⟨key, value⟩, place⟩ := s
  cases key with
  | some key =>
      obtain ⟨p, hfind⟩ : ∃ p, parameters.find? (Text.same key) = some p := by
        rw [← Option.isSome_iff_exists, List.find?_isSome]
        exact ⟨parameters[place], List.getElem_mem _,
          Text.same_iff.2 (hfits.keyed key rfl).symm⟩
      have hp : Text.fold p = Text.fold parameters[place] :=
        (Text.same_iff.1 (List.find?_some hfind)).symm.trans (hfits.keyed key rfl).symm
      have hfree : ¬Taken seats p := by
        rw [Taken, hp]
        exact hfits.free
      refine ⟨parameters.drop n, ⟨(Text.fold p, value) :: b.values⟩, ⟨⟨n, rfl, ?_⟩, ?_⟩, ?_⟩
      · intro other
        rw [happend, hbehind]
        simp
      · rw [hp]
        exact hvalues
      · intro rest
        rw [bindFrom, hfind]
        show (b.assign p value >>= fun b => bindFrom parameters (parameters.drop n) b rest) = _
        rw [h.assign hfree]
        rfl
  | none =>
      obtain ⟨hplace, hfree, hfirst⟩ := hfits.positional rfl
      have hdrop : (parameters.drop n).dropWhile b.has =
          parameters[place] :: parameters.drop (place.val + 1) := by
        apply dropWhile_drop ((hbehind place).1 hplace)
        · rw [Bool.eq_false_iff]
          intro hhas
          exact hfree ((h.has_iff _).1 hhas)
        · intro other hother hlt
          exact (h.has_iff _).2 (hfirst other ((hbehind other).2 hother) hlt)
      refine ⟨parameters.drop (place.val + 1), ⟨(Text.fold parameters[place], value) :: b.values⟩,
        ⟨⟨place.val + 1, rfl, ?_⟩, hvalues⟩, ?_⟩
      · intro other
        rw [happend, hbehind]
        have hle := (hbehind place).1 hplace
        show n ≤ other.val ∧ (none = none → place.val < other.val) ↔ place.val < other.val
        constructor
        · intro hother
          exact hother.2 rfl
        · intro hlt
          exact ⟨by omega, fun _ => hlt⟩
      · intro rest
        rw [bindFrom, hdrop]
        show (b.assign parameters[place] value >>= fun b =>
          bindFrom parameters (parameters.drop (place.val + 1)) b rest) = _
        rw [h.assign hfree]
        rfl

/-- An argument without a place ends the binding with its fault. -/
theorem Reached.refused (h : Reached seats free b) {fault : BindingFault}
    (hrefused : Refused seats a fault) (rest : List Argument) :
    bindFrom parameters free b (a :: rest) = .error fault := by
  obtain ⟨key, value⟩ := a
  cases hrefused with
  | unknown hkey hall =>
      obtain rfl : key = some _ := hkey
      rw [bindFrom, List.find?_eq_none.2]
      intro p hp hsame
      exact hall p hp (Text.same_iff.1 hsame).symm
  | duplicate hkey hfind htaken =>
      obtain rfl : key = some _ := hkey
      rw [bindFrom, hfind]
      show (b.assign _ value >>= _) = _
      rw [Binding.assign, if_pos ((h.has_iff _).2 htaken)]
      rfl
  | tooMany hkey hall =>
      obtain rfl : key = none := hkey
      obtain ⟨n, rfl, hbehind⟩ := h.rest
      have hdrop : (parameters.drop n).dropWhile b.has = [] := by
        rw [List.dropWhile_eq_nil_iff]
        intro p hp
        obtain ⟨i, hi, rfl⟩ := List.getElem_of_mem hp
        rw [List.length_drop] at hi
        rw [List.getElem_drop]
        exact (h.has_iff _).2 (hall ⟨n + i, by omega⟩ ((hbehind _).2 (Nat.le_add_right n i)))
      rw [bindFrom, hdrop]

end Reached

/-- **The arguments of the seats are read**, and binding goes on with those behind them. -/
theorem Assigns.reached (h : Assigns seats) :
    ∃ free b, Reached seats free b ∧
      ∀ rest, bindFrom parameters parameters ⟨[]⟩ (seats.map Seat.argument ++ rest) =
        bindFrom parameters free b rest := by
  -- on the seats, the last one first
  induction seats using List.reverseRecOn with
  | nil => exact ⟨parameters, ⟨[]⟩, reached_nil, fun rest => rfl⟩
  | append_singleton seats s ih =>
      obtain ⟨hseats, hfits⟩ := assigns_append_singleton.1 h
      obtain ⟨free, b, hreached, hrun⟩ := ih hseats
      obtain ⟨free', b', hreached', hstep⟩ := hreached.step hfits
      refine ⟨free', b', hreached', ?_⟩
      intro rest
      rw [List.map_append, List.append_assoc, hrun]
      exact hstep rest

/-- Arguments at their places are bound, and the values are theirs. -/
theorem Assigns.exists_binding (h : Assigns seats) :
    ∃ b, bind ⟨seats.map Seat.argument⟩ parameters = .ok b ∧
      ∀ key value, b.get? key = some value ↔
        ∃ s ∈ seats, s.name = Text.fold key ∧ s.argument.value = value := by
  obtain ⟨free, b, hreached, hrun⟩ := h.reached
  refine ⟨b, ?_, hreached.get?_eq_some_iff h⟩
  have hall := hrun []
  rw [List.append_nil] at hall
  exact hall

/-- The first argument without a place ends the binding. -/
theorem Assigns.bind_eq_error (h : Assigns seats) {fault : BindingFault}
    (hrefused : Refused seats a fault) (after : List Argument) :
    bind ⟨seats.map Seat.argument ++ a :: after⟩ parameters = .error fault := by
  obtain ⟨free, b, hreached, hrun⟩ := h.reached
  show bindFrom parameters parameters ⟨[]⟩ (seats.map Seat.argument ++ a :: after) = _
  rw [hrun]
  exact hreached.refused hrefused after

/-- All arguments have their places, or there is a first one that has none. -/
theorem exists_assigns (parameters : List String) (items : List Argument) :
    (∃ seats : List (Seat parameters), Assigns seats ∧ seats.map Seat.argument = items) ∨
      ∃ (seats : List (Seat parameters)) (a : Argument) (after : List Argument)
        (fault : BindingFault), items = seats.map Seat.argument ++ a :: after ∧
          Assigns seats ∧ Refused seats a fault := by
  induction items using List.reverseRecOn with
  | nil => exact .inl ⟨[], assigns_nil, rfl⟩
  | append_singleton items last ih =>
      rcases ih with ⟨seats, hassigns, rfl⟩ | ⟨seats, a, after, fault, rfl, hassigns, hrefused⟩
      · rcases fits_or_refused seats last with ⟨place, hfits⟩ | ⟨fault, hrefused⟩
        · left
          refine ⟨seats ++ [⟨last, place⟩], assigns_append_singleton.2 ⟨hassigns, hfits⟩, ?_⟩
          rw [List.map_append]
          rfl
        · exact .inr ⟨seats, last, [], fault, rfl, hassigns, hrefused⟩
      · right
        refine ⟨seats, a, after ++ [last], fault, ?_, hassigns, hrefused⟩
        rw [List.append_assoc]
        rfl

/-! ## §3. Arguments with keys in front. -/

/-- The same arguments, those with keys in front of the others. -/
def keyedFirst (args : Arguments) : Arguments :=
  ⟨args.items.filter (·.key.isSome) ++ args.items.filter (·.key.isNone)⟩

/-- The same seats, those of arguments with keys in front of the others. -/
def seatsKeyedFirst (seats : List (Seat parameters)) : List (Seat parameters) :=
  seats.filter (·.argument.key.isSome) ++ seats.filter (·.argument.key.isNone)

theorem mem_seatsKeyedFirst : s ∈ seatsKeyedFirst seats ↔ s ∈ seats := by
  simp only [seatsKeyedFirst, List.mem_append, List.mem_filter]
  cases s.argument.key <;> simp

theorem map_seatsKeyedFirst (seats : List (Seat parameters)) :
    (seatsKeyedFirst seats).map Seat.argument =
      (keyedFirst ⟨seats.map Seat.argument⟩).items := by
  simp only [seatsKeyedFirst, keyedFirst, List.map_append, List.filter_map]
  rfl

theorem perm_seatsKeyedFirst (seats : List (Seat parameters)) :
    (seatsKeyedFirst seats).Perm seats := by
  have hnot : (fun s : Seat parameters => s.argument.key.isNone) =
      fun s => !s.argument.key.isSome := by
    funext s
    cases s.argument.key <;> rfl
  rw [seatsKeyedFirst, hnot]
  exact List.filter_append_perm _ seats

/-- An element that is kept stands in front of the same elements, but for those that are
    not kept. -/
theorem exists_of_filter_eq_append_cons {α : Type} {f : α → Bool} {xs front after : List α} {x : α}
    (h : xs.filter f = front ++ x :: after) :
    ∃ before rest, xs = before ++ x :: rest ∧ before.filter f = front := by
  obtain ⟨earlier, tail, rfl, hearlier, htail⟩ := List.filter_eq_append_iff.1 h
  obtain ⟨passed, rest, rfl, hpassed, -, -⟩ := List.filter_eq_cons_iff.1 htail
  refine ⟨earlier ++ passed, rest, by rw [List.append_assoc], ?_⟩
  rw [List.filter_append, hearlier, List.filter_eq_nil_iff.2 hpassed, List.append_nil]

/-- **The places stay the same if arguments with keys are put in front.** -/
theorem Assigns.keyedFirst (h : Assigns seats) : Assigns (seatsKeyedFirst seats) := by
  have hdistinct : ((seatsKeyedFirst seats).map Seat.name).Nodup :=
    ((perm_seatsKeyedFirst seats).map Seat.name).nodup_iff.2 h.distinct
  refine ⟨hdistinct, ?_, ?_⟩
  · intro s hs
    exact h.keyed s (mem_seatsKeyedFirst.1 hs)
  · intro before s after heq hkey
    -- the argument stands behind all those with keys, and behind some of the others
    have hnotKeyed : s ∉ seats.filter (·.argument.key.isSome) := by
      simp [hkey]
    obtain ⟨front, rfl, hfront⟩ : ∃ front,
        before = seats.filter (·.argument.key.isSome) ++ front ∧
          seats.filter (·.argument.key.isNone) = front ++ s :: after := by
      rcases List.append_eq_append_iff.1 heq with ⟨front, hbefore, hfront⟩ | ⟨mid, hmid, hrest⟩
      · exact ⟨front, hbefore, hfront⟩
      · cases mid with
        | nil => exact ⟨[], by simp [hmid], hrest.symm⟩
        | cons t mid =>
            obtain ⟨rfl, -⟩ := List.cons.inj hrest
            rw [hmid] at hnotKeyed
            simp at hnotKeyed
    obtain ⟨origin, later, hseats, hfilter⟩ := exists_of_filter_eq_append_cons hfront
    have hfirst := h.positional origin s later hseats hkey
    have hbehind : ∀ place,
        Behind (seats.filter (·.argument.key.isSome) ++ front) place ↔ Behind origin place := by
      intro place
      unfold Behind
      rw [← hfilter]
      constructor
      · intro hplace t ht hnone
        apply hplace t _ hnone
        simp [ht, hnone]
      · intro hplace t ht hnone
        rw [List.mem_append, List.mem_filter, List.mem_filter, hnone] at ht
        apply hplace t _ hnone
        simpa using ht
    refine ⟨(hbehind _).2 hfirst.behind, ?_, ?_⟩
    · intro htaken
      rw [heq, List.map_append, List.nodup_append] at hdistinct
      exact hdistinct.2.2 _ htaken _ List.mem_cons_self rfl
    · intro other hother hlt
      -- what has a value at the old place of the argument has it at the new one
      obtain ⟨t, ht, hname⟩ := List.mem_map.1 (hfirst.first other ((hbehind other).1 hother) hlt)
      apply List.mem_map.2 ⟨t, _, hname⟩
      rw [← hfilter, List.mem_append, List.mem_filter, List.mem_filter]
      cases hkey : t.argument.key with
      | none => exact .inr ⟨ht, rfl⟩
      | some key =>
          left
          refine ⟨?_, rfl⟩
          rw [hseats]
          exact List.mem_append_left _ ht

/-! ## §4. What binding comes to. -/

/-- **Binding assigns every argument to a parameter of its own.**
    * If it succeeds, all arguments are at their places, and the values are theirs and no
      others.
    * It fails because of the first argument, from left to right, that has no place: a key
      that is no parameter, a second value for a parameter, or an argument without a key
      when no parameter is left for it.
    * If it succeeds, it does so with the same values when all arguments with keys are put
      in front. -/
theorem bind_assigns (args : Arguments) (parameters : List String) :
    (∀ b, args.bind parameters = .ok b →
      ∃ seats : List (Seat parameters), seats.map Seat.argument = args.items ∧ Assigns seats ∧
        ∀ key value, b.get? key = some value ↔
          ∃ s ∈ seats, s.name = Text.fold key ∧ s.argument.value = value) ∧
    (∀ fault, args.bind parameters = .error fault ↔
      ∃ (seats : List (Seat parameters)) (a : Argument) (after : List Argument),
        args.items = seats.map Seat.argument ++ a :: after ∧ Assigns seats ∧
          Refused seats a fault) ∧
    (∀ b, args.bind parameters = .ok b →
      ∃ b', (keyedFirst args).bind parameters = .ok b' ∧ ∀ key, b'.get? key = b.get? key) := by
  obtain ⟨items⟩ := args
  rcases exists_assigns parameters items with
    ⟨seats, hassigns, rfl⟩ | ⟨seats, a, after, fault, rfl, hassigns, hrefused⟩
  · obtain ⟨b, hbind, hget⟩ := hassigns.exists_binding
    obtain ⟨b', hbind', hget'⟩ := hassigns.keyedFirst.exists_binding
    rw [map_seatsKeyedFirst] at hbind'
    refine ⟨?_, ?_, ?_⟩
    · intro b₀ hb₀
      obtain rfl : b = b₀ := Except.ok.inj (hbind.symm.trans hb₀)
      exact ⟨seats, rfl, hassigns, hget⟩
    · intro fault
      constructor
      · intro hfault
        cases hbind.symm.trans hfault
      · rintro ⟨seats', a, after, heq, hassigns', hrefused⟩
        rw [← hassigns'.bind_eq_error hrefused after]
        exact congrArg (fun items => bind ⟨items⟩ parameters) heq
    · intro b₀ hb₀
      obtain rfl : b = b₀ := Except.ok.inj (hbind.symm.trans hb₀)
      refine ⟨b', hbind', ?_⟩
      intro key
      apply Option.ext
      intro value
      rw [hget', hget]
      simp only [mem_seatsKeyedFirst]
  · have hbind := hassigns.bind_eq_error hrefused after
    refine ⟨?_, ?_, ?_⟩
    · intro b hb
      cases hbind.symm.trans hb
    · intro fault'
      constructor
      · intro hfault
        obtain rfl : fault = fault' := Except.error.inj (hbind.symm.trans hfault)
        exact ⟨seats, a, after, rfl, hassigns, hrefused⟩
      · rintro ⟨seats', a', after', heq, hassigns', hrefused'⟩
        rw [← hassigns'.bind_eq_error hrefused' after']
        exact congrArg (fun items => bind ⟨items⟩ parameters) heq
    · intro b hb
      cases hbind.symm.trans hb

/-- Arguments of a loop, the key of the index between the other two. -/
def interleaved : Arguments :=
  ⟨[⟨none, "Items"⟩, ⟨some "INDEXKEY", "I"⟩, ⟨none, "Item"⟩]⟩

theorem bind_assigns_interleaved :
    interleaved.bind ["Key", "IndexKey", "ValueKey"] =
        .ok ⟨[("valuekey", "Item"), ("indexkey", "I"), ("key", "Items")]⟩ ∧
      ∃ b', (keyedFirst interleaved).bind ["Key", "IndexKey", "ValueKey"] = .ok b' ∧
        b'.get? "ValueKey" = some "Item" := by
  have hbind : interleaved.bind ["Key", "IndexKey", "ValueKey"] =
      .ok ⟨[("valuekey", "Item"), ("indexkey", "I"), ("key", "Items")]⟩ := by decide
  obtain ⟨b', hbind', hget⟩ :=
    (bind_assigns interleaved ["Key", "IndexKey", "ValueKey"]).2.2 _ hbind
  refine ⟨hbind, b', hbind', ?_⟩
  rw [hget]
  decide

end Arguments

end TagExpander
