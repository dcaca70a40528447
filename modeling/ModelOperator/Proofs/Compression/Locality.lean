import ModelOperator.Compression.Bits

/-!
# Readers that look no further

    A reader takes its result from a stretch at the front of a stream.  It is local if what follows
    that stretch does not matter: with another stream behind it, the reader gives the same result
    and leaves that one (`Local`).  A reader of bits may skip to the next whole byte, so the other
    stream has to end at the same bit of a byte; `unit` says of how many parts a byte is.

    A loop is a family of readers, one for each number of rounds that it may take.  Its rounds are
    told from the stretch: when each round takes a part of it, a loop that comes to an end does so
    with as many rounds as the stretch has parts.  The `slack` of a family are parts that are known
    to be taken and need no round, so that a step of a loop (`Local.succ`) may spend one of them. -/

namespace ModelOperator

namespace Compression

variable {β α γ : Type}

/-- With the given number of rounds, the reader takes its result from a stretch of at least
    `slack` parts, and from nothing else. -/
def Local (unit slack : Nat) (r : Nat → StateT (List β) Option α) (rounds : Nat) : Prop :=
  ∀ all a rest, r rounds all = some (a, rest) →
    ∃ used, all = used ++ rest ∧ slack ≤ used.length ∧
      ∀ tail enough, tail.length % unit = rest.length % unit → used.length ≤ enough + slack →
        r enough (used ++ tail) = some (a, tail)

/-- The reader takes its result from a stretch of at least `slack` parts, and from nothing else. -/
def IsLocal (unit slack : Nat) (r : StateT (List β) Option α) : Prop :=
  Local unit slack (fun _ => r) 0

section Closure

variable {unit slack fewer rounds : Nat}

/-- A local reader, as a family that does not look at its rounds. -/
theorem IsLocal.family {r : StateT (List β) Option α} (h : IsLocal unit slack r) :
    Local unit slack (fun _ => r) rounds := h

/-- What a local reader takes. -/
theorem IsLocal.stretch {r : StateT (List β) Option α} (h : IsLocal unit slack r) {all : List β}
    {a : α} {rest : List β} (hread : r all = some (a, rest)) :
    ∃ used, all = used ++ rest ∧ slack ≤ used.length ∧
      ∀ tail, tail.length % unit = rest.length % unit → r (used ++ tail) = some (a, tail) := by
  obtain ⟨used, hall, hslack, htakes⟩ := h all a rest hread
  exact ⟨used, hall, hslack, fun tail htail => htakes tail used.length htail (by omega)⟩

/-- A reader is local if it takes its result from a stretch. -/
theorem IsLocal.intro {r : StateT (List β) Option α}
    (h : ∀ all a rest, r all = some (a, rest) → ∃ used, all = used ++ rest ∧ slack ≤ used.length ∧
      ∀ tail, tail.length % unit = rest.length % unit → r (used ++ tail) = some (a, tail)) :
    IsLocal unit slack r := by
  intro all a rest hread
  obtain ⟨used, hall, hslack, htakes⟩ := h all a rest hread
  exact ⟨used, hall, hslack, fun tail _ htail _ => htakes tail htail⟩

/-- A stretch of so many parts is one of fewer. -/
theorem Local.mono {r : Nat → StateT (List β) Option α} (h : Local unit slack r rounds)
    (hle : fewer ≤ slack) : Local unit fewer r rounds := by
  intro all a rest hread
  obtain ⟨used, hall, hslack, htakes⟩ := h all a rest hread
  exact ⟨used, hall, by omega, fun tail enough htail hrounds =>
    htakes tail enough htail (by omega)⟩

/-- A reader is local also if nothing is said of how much it takes. -/
theorem IsLocal.free {r : StateT (List β) Option α} (h : IsLocal unit slack r) :
    IsLocal unit 0 r := h.mono (Nat.zero_le _)

/-- A reader that always fails takes nothing. -/
theorem Local.of_fails {r : Nat → StateT (List β) Option α} (h : ∀ all, r rounds all = none) :
    Local unit slack r rounds := by
  intro all a rest hread
  rw [h] at hread
  cases hread

/-- A reader that always fails takes nothing. -/
theorem IsLocal.failure : IsLocal unit slack (failure : StateT (List β) Option α) :=
  Local.of_fails fun _ => rfl

/-- A reader that takes nothing is local. -/
theorem IsLocal.pure (a : α) : IsLocal unit 0 (pure a : StateT (List β) Option α) := by
  refine IsLocal.intro ?_
  intro all b rest hread
  cases hread
  exact ⟨[], rfl, Nat.zero_le _, fun _ _ => rfl⟩

/-- A reader that takes one part and goes on by it. -/
theorem IsLocal.of_cons {r : StateT (List β) Option α} (hnil : r [] = none)
    (hcons : ∀ b, IsLocal unit 0 (fun rest => r (b :: rest))) : IsLocal unit 1 r := by
  refine IsLocal.intro ?_
  intro all a rest hread
  cases all with
  | nil =>
      rw [hnil] at hread
      cases hread
  | cons b behind =>
      obtain ⟨used, rfl, -, htakes⟩ := (hcons b).stretch hread
      exact ⟨b :: used, rfl, Nat.succ_le_succ (Nat.zero_le _), htakes⟩

/-- An outcome that reads nothing. -/
theorem IsLocal.lift (o : Option α) : IsLocal unit 0 (liftM o : StateT (List β) Option α) := by
  refine IsLocal.intro ?_
  intro all a rest hread
  cases o with
  | none => cases hread
  | some b =>
      cases hread
      exact ⟨[], rfl, Nat.zero_le _, fun _ _ => rfl⟩

/-- What the second reader gives, given what the first one does. -/
theorem bind_of_read {r : StateT (List β) Option α} {f : α → StateT (List β) Option γ}
    {all : List β} {a : α} {rest : List β} (h : r all = some (a, rest)) :
    (r >>= f) all = f a rest := by
  show (r all).bind _ = _
  rw [h]
  rfl

theorem bind_of_lift (a : α) (f : α → StateT (List β) Option γ) (all : List β) :
    ((liftM (some a) : StateT (List β) Option α) >>= f) all = f a all := rfl

/-- One reader after another takes as much as the first one at least. -/
theorem Local.bind {r : Nat → StateT (List β) Option α} {f : α → Nat → StateT (List β) Option γ}
    (hr : Local unit slack r rounds)
    (hf : ∀ all a rest, r rounds all = some (a, rest) → Local unit 0 (f a) rounds) :
    Local unit slack (fun n => r n >>= fun a => f a n) rounds := by
  intro all c rest hread
  obtain ⟨⟨a, middle⟩, hfirst, hsecond⟩ := Option.bind_eq_some_iff.mp hread
  obtain ⟨front, rfl, hslack, hfront⟩ := hr all a middle hfirst
  obtain ⟨back, rfl, -, hback⟩ := hf _ a _ hfirst middle c rest hsecond
  refine ⟨front ++ back, (List.append_assoc ..).symm, ?_, ?_⟩
  · rw [List.length_append]
    omega
  · intro tail enough htail hrounds
    rw [List.length_append] at hrounds
    -- the first reader sees another stream behind it as well, which ends at the same bit of a byte
    have hmiddle : (back ++ tail).length % unit = (back ++ rest).length % unit := by
      rw [List.length_append, List.length_append, Nat.add_mod, htail, ← Nat.add_mod]
    have hhead : r enough (front ++ (back ++ tail)) = some (a, back ++ tail) :=
      hfront _ enough hmiddle (by omega)
    rw [List.append_assoc]
    refine Option.bind_eq_some_iff.mpr ⟨(a, back ++ tail), hhead, ?_⟩
    exact hback tail enough htail (by omega)

/-- The same for a second reader that is written out on the pair that the first one gives. -/
theorem Local.pairs {r : Nat → StateT (List β) Option α}
    {k : Nat → α × List β → Option (γ × List β)} (hr : Local unit slack r rounds)
    (hk : ∀ a, Local unit 0 (fun n rest => k n (a, rest)) rounds) :
    Local unit slack (fun n all => r n all >>= k n) rounds :=
  Local.bind (f := fun a n rest => k n (a, rest)) hr fun _ a _ _ => hk a

/-- A reader behind a value that may be missing. -/
theorem Local.outcome {o : Option α} {k : α → Nat → StateT (List β) Option γ}
    (h : ∀ a, Local unit slack (k a) rounds) :
    Local unit slack (fun n all => o >>= fun a => k a n all) rounds := by
  cases o with
  | none => exact Local.of_fails fun _ => rfl
  | some a => exact h a

/-- One local reader after another is local. -/
theorem IsLocal.bind {r : StateT (List β) Option α} {f : α → StateT (List β) Option γ}
    (hr : IsLocal unit slack r) (hf : ∀ a, IsLocal unit 0 (f a)) : IsLocal unit slack (r >>= f) :=
  Local.bind (f := fun a _ => f a) hr fun _ a _ _ => hf a

/-- The same for a second reader that is written out on the pair. -/
theorem IsLocal.pairs {r : StateT (List β) Option α} {k : α × List β → Option (γ × List β)}
    (hr : IsLocal unit slack r) (hk : ∀ a, IsLocal unit 0 (fun rest => k (a, rest))) :
    IsLocal unit slack (fun all => r all >>= k) :=
  Local.pairs (k := fun _ => k) hr hk

theorem IsLocal.outcome {o : Option α} {k : α → StateT (List β) Option γ}
    (h : ∀ a, IsLocal unit slack (k a)) :
    IsLocal unit slack (fun all => o >>= fun a => k a all) :=
  Local.outcome (k := fun a _ => k a) h

/-- A reader of a list, one item after the other. -/
theorem IsLocal.mapM {r : γ → StateT (List β) Option α} (hr : ∀ c, IsLocal unit 0 (r c))
    (cs : List γ) : IsLocal unit 0 (cs.mapM r) := by
  induction cs with
  | nil =>
      rw [List.mapM_nil]
      exact IsLocal.pure []
  | cons c rest ih =>
      rw [List.mapM_cons]
      refine (hr c).bind ?_
      intro a
      refine ih.bind ?_
      intro as
      exact IsLocal.pure (a :: as)

/-- What is done to the result does not matter to what is taken. -/
theorem IsLocal.map {r : StateT (List β) Option α} (hr : IsLocal unit slack r) (f : α → γ) :
    IsLocal unit slack (f <$> r) := by
  have hlast : ∀ a, IsLocal unit 0 (Pure.pure (f a) : StateT (List β) Option γ) :=
    fun a => IsLocal.pure (f a)
  rw [← bind_pure_comp]
  exact hr.bind hlast

/-- A step of a loop spends a part that its round has taken. -/
theorem Local.succ {r : Nat → StateT (List β) Option α}
    (h : Local unit (slack + 1) (fun n => r (n + 1)) rounds) : Local unit slack r (rounds + 1) := by
  intro all a rest hread
  obtain ⟨used, hall, hslack, htakes⟩ := h all a rest hread
  refine ⟨used, hall, by omega, ?_⟩
  intro tail enough htail hrounds
  cases enough with
  | zero => omega
  | succ n => exact htakes tail n htail (by omega)

/-- A loop that is granted one more round. -/
theorem Local.shift {r : Nat → StateT (List β) Option α} (h : Local unit slack r (rounds + 1)) :
    Local unit slack (fun n => r (n + 1)) rounds := by
  intro all a rest hread
  obtain ⟨used, hall, hslack, htakes⟩ := h all a rest hread
  exact ⟨used, hall, hslack, fun tail enough htail hrounds =>
    htakes tail (enough + 1) htail (by omega)⟩

/-- A loop that may take as many rounds as there are parts left. -/
theorem IsLocal.of_length {r : Nat → StateT (List β) Option α}
    (h : ∀ rounds, Local unit slack r rounds) :
    IsLocal unit slack (fun all => r all.length all) := by
  refine IsLocal.intro ?_
  intro all a rest hread
  obtain ⟨used, hall, hslack, htakes⟩ := h _ all a rest hread
  refine ⟨used, hall, hslack, fun tail htail => htakes tail _ htail ?_⟩
  rw [List.length_append]
  omega

/-! ## What is given -/

/-- Whatever the reader gives has a property. -/
def Returns (r : StateT (List β) Option α) (property : α → Prop) : Prop :=
  ∀ all a rest, r all = some (a, rest) → property a

variable {property : α → Prop} {after : γ → Prop}

/-- A reader that gives a value of the property at once. -/
theorem Returns.pure {a : α} (h : property a) :
    Returns (pure a : StateT (List β) Option α) property := by
  intro all b rest hread
  cases hread
  exact h

/-- A value that may be missing, as a reader. -/
theorem Returns.lift {o : Option α} (h : ∀ a, o = some a → property a) :
    Returns (liftM o : StateT (List β) Option α) property := by
  intro all a rest hread
  cases o with
  | none => cases hread
  | some given =>
      cases hread
      exact h _ rfl

/-- What a reader gives is known from what its parts give. -/
theorem Returns.bind {r : StateT (List β) Option α} {f : α → StateT (List β) Option γ}
    (hr : Returns r property) (hf : ∀ a, property a → Returns (f a) after) :
    Returns (r >>= f) after := by
  intro all c rest hread
  obtain ⟨⟨a, middle⟩, hfirst, hsecond⟩ := Option.bind_eq_some_iff.mp hread
  exact hf a (hr all a middle hfirst) middle c rest hsecond

/-- The last reader decides what is given. -/
theorem Returns.last {r : StateT (List β) Option α} {f : α → StateT (List β) Option γ}
    (hf : ∀ a, Returns (f a) after) : Returns (r >>= f) after :=
  Returns.bind (fun _ _ _ _ => trivial) fun a (_ : True) => hf a

end Closure

end Compression

end ModelOperator
