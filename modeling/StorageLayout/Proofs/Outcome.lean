import Mathlib.Data.List.Forall2
import StorageLayout.Error

/-!
# Outcomes of Runs

Comparing two runs, and foretelling one.

Everything that reads compiler output ends in a value or in an error, and most of what there is to
say about it compares two such runs: the same types read from two encodings, or the same
declarations under two limits. `Tracks` is that comparison, with three parameters because the
comparisons differ in what they let the two runs disagree about. Values are related by `same`.
Errors are related by `faults`. And an error in `cut` ends the comparison: the first run has
stopped looking, and whatever the second one finds there is no disagreement. Most comparisons have
nothing to cut.

`Settles` and `Ends` are about a single run. The first says that it succeeds exactly under a
condition and fails with one known error otherwise, the second what can be said of the result and of
the error, whichever there is.

All three are carried through a sequence of steps and along a list, which is all that resolving does
with the runs below it.

## Main definitions

* `Tracks`: One run follows another.
* `Settles`: A condition decides how a run ends.
* `Ends`: What is known of the end of a run.

## Theorems

* `Tracks.bind`, `Tracks.mapM`, `Tracks.foldlM`: Following, step by step and item by item.
* `Tracks.imp`, `Tracks.map`: What is known of the results, and what is made of them.
* `Tracks.refl`, `Tracks.refl_of`: A run follows itself.
* `Tracks.eq`, `Tracks.ok`: What following says of the two runs.
* `Tracks.of_ok`: Following a run of which only success matters.
* `Settles.bind_ok`, `Settles.bind`, `Settles.mapM`, `Settles.foldlM`: The same for a single run.
* `Ends.bind`, `Ends.mapM`, `Ends.foldlM`: And for what is known of its end.
* `Ends.tracks`, `Ends.of_tracks`: A run whose end is known, as one that follows itself.
* `exists_partner`, `forall₂_comp`: The items of related lists.
* `mapM_eq_ok`, `mapM_eq_error`: A list whose items all succeed, and one of which an item fails.
* `foldlM_preserves`, `foldlM_establishes`, `foldlM_part`: What a run through a list keeps, what it
  brings about, and how it changes a part.
* `foldlM_step`, `mapM_items`: The steps of a run through a list that has succeeded.
* `bind_eq_ok`, `map_eq_ok`: The first step of a successful run.
* `bind_eq_error`: The step at which a run fails.
-/

namespace StorageLayout

/-- One run follows another: related values, related errors, and nothing said of the second run
where the first one is cut off. -/
def Tracks {α β : Type} (cut : Error → Prop) (faults : Error → Error → Prop)
    (same : α → β → Prop) : Except Error α → Except Error β → Prop
  | .ok a, .ok b => same a b
  | .error e, .error f => cut e ∨ faults e f
  | .error e, .ok _ => cut e
  | .ok _, .error _ => False

/-- A condition decides how a run ends: in a value, or in the given error. -/
def Settles {α : Type} (condition : Prop) (e : Error) (x : Except Error α) : Prop :=
  (condition ∧ ∃ a, x = .ok a) ∨ (¬ condition ∧ x = .error e)

/-- A run ends in a result or in an error of which something is known. -/
def Ends {α : Type} (P : Error → Prop) (Q : α → Prop) : Except Error α → Prop
  | .ok a => Q a
  | .error e => P e

/-- A step that has succeeded hands its result on. -/
theorem ok_bind {ε α β : Type} (a : α) (f : α → Except ε β) : (Except.ok a >>= f) = f a := rfl

/-- The first step of a successful run succeeds, and so does the rest. -/
theorem bind_eq_ok {ε α β : Type} (x : Except ε α) (f : α → Except ε β) (b : β) :
    (x >>= f) = .ok b ↔ ∃ a, x = .ok a ∧ f a = .ok b := by
  cases x with
  | error e => simp only [bind, Except.bind, reduceCtorEq, false_and, exists_false]
  | ok a => simp only [bind, Except.bind, Except.ok.injEq, exists_eq_left']

/-- A run fails at its first step or at the rest. -/
theorem bind_eq_error {ε α β : Type} (x : Except ε α) (f : α → Except ε β) (e : ε) :
    (x >>= f) = .error e ↔ x = .error e ∨ ∃ a, x = .ok a ∧ f a = .error e := by
  cases x with
  | error e' =>
      simp only [bind, Except.bind, Except.error.injEq, reduceCtorEq, false_and, exists_false,
        or_false]
  | ok a => simp only [bind, Except.bind, reduceCtorEq, Except.ok.injEq, exists_eq_left', false_or]

/-- What a successful run has made of a result. -/
theorem map_eq_ok {α β : Type} (f : α → β) (x : Except Error α) (b : β) :
    f <$> x = .ok b ↔ ∃ a, x = .ok a ∧ f a = b := by
  cases x with
  | error e => simp only [Functor.map, Except.map, reduceCtorEq, false_and, exists_false]
  | ok a => simp only [Functor.map, Except.map, Except.ok.injEq, exists_eq_left']

/-- Each item of a list has a partner in a related one. -/
theorem exists_partner {α β : Type} {P : α → β → Prop} (xs : List α) (ys : List β)
    (h : List.Forall₂ P xs ys) : ∀ x ∈ xs, ∃ y ∈ ys, P x y := by
  induction h with
  | nil => exact fun x hx => absurd hx List.not_mem_nil
  | @cons x y xs ys hxy _ ih =>
      refine List.forall_mem_cons.mpr ⟨⟨y, List.mem_cons_self, hxy⟩, fun z hz => ?_⟩
      rcases ih z hz with ⟨w, hw, hzw⟩
      exact ⟨w, List.mem_cons_of_mem y hw, hzw⟩

/-- Items that are related by way of a third list. -/
theorem forall₂_comp {α β γ : Type} {P : α → β → Prop} {Q : β → γ → Prop} {R : α → γ → Prop}
    (hR : ∀ x y z, P x y → Q y z → R x z) (xs : List α) (ys : List β) (zs : List γ)
    (h : List.Forall₂ P xs ys) (h' : List.Forall₂ Q ys zs) : List.Forall₂ R xs zs := by
  induction h generalizing zs with
  | nil =>
      cases h'
      exact List.Forall₂.nil
  | cons hxy _ ih =>
      cases h' with
      | cons hyz hrest => exact List.Forall₂.cons (hR _ _ _ hxy hyz) (ih _ hrest)

/-- A list whose items all succeed, with what is known of each result. -/
theorem mapM_eq_ok {α β : Type} (f : α → Except Error β) (P : α → β → Prop) (xs : List α)
    (h : ∀ x ∈ xs, ∃ y, f x = .ok y ∧ P x y) :
    ∃ ys, xs.mapM f = .ok ys ∧ List.Forall₂ P xs ys := by
  induction xs with
  | nil => exact ⟨[], rfl, List.Forall₂.nil⟩
  | cons x rest ih =>
      rcases h x List.mem_cons_self with ⟨y, hy, hxy⟩
      rcases ih (fun z hz => h z (List.mem_cons_of_mem _ hz)) with ⟨ys, hys, hrest⟩
      refine ⟨y :: ys, ?_, List.Forall₂.cons hxy hrest⟩
      rw [List.mapM_cons, hy, hys]
      rfl

/-- A run through a list fails at the first item at which its step does. -/
theorem mapM_eq_error {α β : Type} (f : α → Except Error β) (xs : List α) (e : Error) :
    xs.mapM f = .error e ↔
      ∃ before x after, xs = before ++ x :: after ∧ (∀ y ∈ before, ∃ b, f y = .ok b) ∧
        f x = .error e := by
  induction xs with
  | nil =>
      constructor
      · nofun
      · rintro ⟨before, x, after, hnil, _⟩
        exact absurd hnil.symm (List.append_ne_nil_of_right_ne_nil _ (List.cons_ne_nil _ _))
  | cons x xs ih =>
      rw [List.mapM_cons, bind_eq_error]
      constructor
      · -- Either the first item fails, or the run goes on after it and fails later.
        rintro (hx | ⟨b, hx, hrest⟩)
        · exact ⟨[], x, xs, rfl, fun _ hy => absurd hy List.not_mem_nil, hx⟩
        · rcases (bind_eq_error _ _ _).mp hrest with hxs | ⟨_, _, hpure⟩
          · rcases ih.mp hxs with ⟨before, z, after, heq, hbefore, hz⟩
            exact ⟨x :: before, z, after, by rw [heq]; rfl,
              List.forall_mem_cons.mpr ⟨⟨b, hx⟩, hbefore⟩, hz⟩
          · cases hpure
      · -- The item that fails is the first one, or it is behind an item that succeeds.
        rintro ⟨before, z, after, heq, hbefore, hz⟩
        cases before with
        | nil =>
            cases heq
            exact .inl hz
        | cons y before =>
            cases heq
            rcases List.forall_mem_cons.mp hbefore with ⟨⟨b, hb⟩, hrest⟩
            exact .inr ⟨b, hb, (bind_eq_error _ _ _).mpr
              (.inl (ih.mpr ⟨before, z, after, rfl, hrest, hz⟩))⟩

/-- What every step of a successful run through a list keeps, the whole run keeps. -/
theorem foldlM_preserves {α β : Type} (f : β → α → Except Error β) (I : β → Prop) (xs : List α)
    (step : ∀ b, ∀ a ∈ xs, ∀ b', I b → f b a = .ok b' → I b') (b b' : β) (hb : I b)
    (h : xs.foldlM f b = .ok b') : I b' := by
  induction xs generalizing b with
  | nil =>
      injection h with h
      rw [← h]
      exact hb
  | cons x rest ih =>
      rw [List.foldlM_cons] at h
      -- The first item leads to a state that has the invariant, and the rest starts from this
      -- state.
      rcases (bind_eq_ok _ _ _).mp h with ⟨c, hc, hrest⟩
      exact ih (fun b a ha => step b a (List.mem_cons_of_mem x ha)) c
        (step b x List.mem_cons_self c hb hc) hrest

/-- What the step of one item brings about, and every step keeps, holds in the end. -/
theorem foldlM_establishes {α β : Type} (f : β → α → Except Error β) (I : β → Prop) (xs : List α)
    (x : α) (hx : x ∈ xs) (start : ∀ b b', f b x = .ok b' → I b')
    (step : ∀ b a b', I b → f b a = .ok b' → I b') (b b' : β) (h : xs.foldlM f b = .ok b') :
    I b' := by
  induction xs generalizing b with
  | nil => exact absurd hx List.not_mem_nil
  | cons y rest ih =>
      rw [List.foldlM_cons] at h
      rcases (bind_eq_ok _ _ _).mp h with ⟨c, hc, hrest⟩
      rcases List.mem_cons.mp hx with hxy | hxrest
      · rw [← hxy] at hc
        exact foldlM_preserves f I rest (fun b a _ => step b a) c b' (start b c hc) hrest
      · exact ih hxrest c hrest

/-- A part of what a successful run carries along, when each step changes it in a known way. -/
theorem foldlM_part {α β γ : Type} (f : β → α → Except Error β) (part : β → γ) (g : γ → α → γ)
    (xs : List α) (step : ∀ b b', ∀ x ∈ xs, f b x = .ok b' → part b' = g (part b) x) (b b' : β)
    (h : xs.foldlM f b = .ok b') : part b' = xs.foldl g (part b) := by
  induction xs generalizing b with
  | nil =>
      injection h with h
      rw [← h]
      rfl
  | cons x rest ih =>
      rw [List.foldlM_cons] at h
      rcases (bind_eq_ok _ _ _).mp h with ⟨c, hc, hrest⟩
      -- What the first item does to the part is what `g` does to it.
      rw [List.foldl_cons, ← step b c x List.mem_cons_self hc]
      exact ih (fun b b' y hy => step b b' y (List.mem_cons_of_mem x hy)) c hrest

/-- Each step of a successful run through a list has succeeded. -/
theorem foldlM_step {α β : Type} (f : β → α → Except Error β) (xs : List α) (b b' : β)
    (h : xs.foldlM f b = .ok b') (x : α) (hx : x ∈ xs) : ∃ c c', f c x = .ok c' := by
  induction xs generalizing b with
  | nil => exact absurd hx List.not_mem_nil
  | cons y rest ih =>
      rw [List.foldlM_cons] at h
      rcases (bind_eq_ok _ _ _).mp h with ⟨c, hc, hrest⟩
      rcases List.mem_cons.mp hx with hxy | hxrest
      · rw [hxy]
        exact ⟨b, c, hc⟩
      · exact ih c hrest hxrest

/-- A list of results has one for each item. -/
theorem mapM_items {α β : Type} (f : α → Except Error β) (xs : List α) (ys : List β)
    (h : xs.mapM f = .ok ys) : List.Forall₂ (fun x y => f x = .ok y) xs ys := by
  induction xs generalizing ys with
  | nil =>
      injection h with h
      rw [← h]
      exact List.Forall₂.nil
  | cons x rest ih =>
      rw [List.mapM_cons] at h
      rcases (bind_eq_ok _ _ _).mp h with ⟨y, hy, h⟩
      rcases (bind_eq_ok _ _ _).mp h with ⟨zs, hzs, h⟩
      injection h with h
      rw [← h]
      exact List.Forall₂.cons hy (ih zs hzs)

namespace Tracks

variable {α β γ δ : Type} {cut : Error → Prop} {faults : Error → Error → Prop}

/-- A run follows itself, if every error is one that may stand for itself. -/
theorem refl (hf : ∀ e, faults e e) (x : Except Error α) : Tracks cut faults Eq x x := by
  cases x with
  | error e => exact Or.inr (hf e)
  | ok a => exact rfl

/-- A run follows itself, if every error is one that may stand for itself, and so is the result. -/
theorem refl_of (hf : ∀ e, faults e e) {same : α → α → Prop} (x : Except Error α)
    (h : ∀ a, x = .ok a → same a a) : Tracks cut faults same x x := by
  cases x with
  | error e => exact Or.inr (hf e)
  | ok a => exact h a rfl

/-- Two runs with equal results and errors are equal, if nothing is cut. -/
theorem eq {x y : Except Error α} (h : Tracks (fun _ => False) Eq Eq x y) : x = y := by
  cases x with
  | error e =>
      cases y with
      | error f => rw [h.resolve_left id]
      | ok _ => exact absurd h id
  | ok a =>
      cases y with
      | error _ => exact absurd h id
      | ok b => rw [show a = b from h]

/-- A run that succeeds is followed by one that succeeds. -/
theorem ok {same : α → β → Prop} {x : Except Error α} {y : Except Error β} {a : α}
    (h : Tracks cut faults same x y) (hx : x = .ok a) : ∃ b, y = .ok b ∧ same a b := by
  rw [hx] at h
  cases y with
  | error _ => exact absurd h id
  | ok b => exact ⟨b, rfl, h⟩

/-- Where everything may be cut off, only success has to be followed. -/
theorem of_ok {same : α → β → Prop} {x : Except Error α} {y : Except Error β}
    (h : ∀ a, x = .ok a → ∃ b, y = .ok b ∧ same a b) : Tracks (fun _ => True) faults same x y := by
  cases x with
  | error e => cases y <;> first | exact trivial | exact Or.inl trivial
  | ok a =>
      rcases h a rfl with ⟨b, hb, hab⟩
      rw [hb]
      exact hab

/-- Following, step by step. Where the first run is cut off before its second step, the other may
go on and still be followed. -/
theorem bind {same : α → β → Prop} {same' : γ → δ → Prop} {x : Except Error α}
    {y : Except Error β} {f : α → Except Error γ} {g : β → Except Error δ}
    (h : Tracks cut faults same x y) (hf : ∀ a b, same a b → Tracks cut faults same' (f a) (g b)) :
    Tracks cut faults same' (x >>= f) (y >>= g) := by
  cases x with
  | ok a =>
      cases y with
      | ok b => exact hf a b h
      | error e => exact absurd h id
  | error e =>
      cases y with
      | error _ => exact h
      | ok b =>
          -- Only a cut lets the second run go on, and then it may end in any way.
          change Tracks cut faults same' (.error e) (g b)
          cases g b with
          | ok _ => exact h
          | error _ => exact Or.inl h

/-- Steps that succeed leave the comparison to the next ones. -/
theorem bind_ok {same : γ → δ → Prop} {x : Except Error α} {y : Except Error β}
    {f : α → Except Error γ} {g : β → Except Error δ} {a : α} {b : β} (hx : x = .ok a)
    (hy : y = .ok b) (h : Tracks cut faults same (f a) (g b)) :
    Tracks cut faults same (x >>= f) (y >>= g) := by
  rw [hx, hy]
  exact h

/-- A step that both runs begin with. Only what they make of its result is left to compare. -/
theorem bind_self (hf : ∀ e, faults e e) {same : γ → δ → Prop} (x : Except Error α)
    {f : α → Except Error γ} {g : α → Except Error δ}
    (h : ∀ a, Tracks cut faults same (f a) (g a)) : Tracks cut faults same (x >>= f) (x >>= g) := by
  refine bind (refl hf x) (fun a b hab => ?_)
  rw [← hab]
  exact h a

/-- Runs with equal results stay so when the same is made of both results. -/
theorem bind_pure (hf : ∀ e, faults e e) {x y : Except Error α} (h : Tracks cut faults Eq x y)
    (f : α → Except Error γ) : Tracks cut faults Eq (x >>= f) (y >>= f) := by
  refine bind h (fun a b hab => ?_)
  rw [← hab]
  exact refl hf (f a)

/-- Less may be said of the results. -/
theorem imp {same same' : α → β → Prop} {x : Except Error α} {y : Except Error β}
    (h : Tracks cut faults same x y) (hab : ∀ a b, same a b → same' a b) :
    Tracks cut faults same' x y := by
  cases x with
  | ok a =>
      cases y with
      | ok b => exact hab a b h
      | error _ => exact h
  | error e => cases y <;> exact h

/-- The same, with what is known of the first result. -/
theorem imp_of_ok {same same' : α → β → Prop} {x : Except Error α} {y : Except Error β}
    (h : Tracks cut faults same x y) (hab : ∀ a b, x = .ok a → same a b → same' a b) :
    Tracks cut faults same' x y := by
  cases x with
  | ok a =>
      cases y with
      | ok b => exact hab a b rfl h
      | error _ => exact h
  | error e => cases y <;> exact h

/-- What is made of related results. -/
theorem map {same : α → β → Prop} {same' : γ → δ → Prop} {x : Except Error α}
    {y : Except Error β} {f : α → γ} {g : β → δ} (h : Tracks cut faults same x y)
    (hfg : ∀ a b, same a b → same' (f a) (g b)) :
    Tracks cut faults same' (x >>= fun a => pure (f a)) (y >>= fun b => pure (g b)) :=
  bind h (fun a b hab => hfg a b hab)

/-- Following, item by item. -/
theorem mapM {same : α → β → Prop} {same' : γ → δ → Prop} {f : α → Except Error γ}
    {g : β → Except Error δ} {xs : List α} {ys : List β} (h : List.Forall₂ same xs ys)
    (hf : ∀ a b, same a b → Tracks cut faults same' (f a) (g b)) :
    Tracks cut faults (List.Forall₂ same') (xs.mapM f) (ys.mapM g) := by
  induction h with
  | nil => exact List.Forall₂.nil
  | cons hab _ ih =>
      rw [List.mapM_cons, List.mapM_cons]
      refine bind (hf _ _ hab) (fun c d hcd => bind ih (fun cs ds hcsds => ?_))
      exact List.Forall₂.cons hcd hcsds

/-- A run through a list is followed, if each of its steps is. -/
theorem foldlM {same : γ → δ → Prop} {items : α → β → Prop} {f : γ → α → Except Error γ}
    {g : δ → β → Except Error δ} {xs : List α} {ys : List β} (h : List.Forall₂ items xs ys)
    (hf : ∀ c d a b, same c d → items a b → Tracks cut faults same (f c a) (g d b)) (c : γ) (d : δ)
    (hcd : same c d) : Tracks cut faults same (xs.foldlM f c) (ys.foldlM g d) := by
  induction h generalizing c d with
  | nil => exact hcd
  | cons hab _ ih =>
      rw [List.foldlM_cons, List.foldlM_cons]
      exact bind (hf c d _ _ hcd hab) (fun c' d' hcd' => ih c' d' hcd')

/-- The same, over one list with equal results. -/
theorem mapM_eq {f g : α → Except Error γ} (xs : List α)
    (hf : ∀ a, Tracks cut faults Eq (f a) (g a)) :
    Tracks cut faults Eq (xs.mapM f) (xs.mapM g) := by
  have hxs : List.Forall₂ Eq xs xs := List.forall₂_refl xs
  have h : Tracks cut faults (List.Forall₂ Eq) (xs.mapM f) (xs.mapM g) := by
    refine mapM hxs (fun a b hab => ?_)
    rw [← hab]
    exact hf a
  rw [List.forall₂_eq_eq_eq] at h
  exact h

/-- With nothing to cut, a run and the one that follows it end alike. -/
theorem ok_or_error {same : α → β → Prop} {x : Except Error α} {y : Except Error β}
    (h : Tracks (fun _ => False) faults same x y) :
    (∃ a b, x = .ok a ∧ y = .ok b ∧ same a b) ∨
      (∃ e f, x = .error e ∧ y = .error f ∧ faults e f) := by
  cases x with
  | ok a =>
      cases y with
      | ok b => exact Or.inl ⟨a, b, rfl, rfl, h⟩
      | error _ => exact absurd h id
  | error e =>
      cases y with
      | ok _ => exact absurd h id
      | error f => exact Or.inr ⟨e, f, rfl, rfl, h.resolve_left id⟩

end Tracks

namespace Settles

variable {α β : Type} {e : Error}

/-- A step that always succeeds leaves the decision to the next one. -/
theorem bind_ok {condition : Prop} {x : Except Error α} {f : α → Except Error β} {a : α}
    (hx : x = .ok a) (hf : Settles condition e (f a)) : Settles condition e (x >>= f) := by
  rw [hx]
  exact hf

/-- What is made of the result does not change how a run ends. -/
theorem map {condition : Prop} {x : Except Error α} (h : Settles condition e x)
    (f : α → β) : Settles condition e (x >>= fun a => pure (f a)) := by
  rcases h with ⟨hc, a, ha⟩ | ⟨hc, hx⟩
  · exact Or.inl ⟨hc, f a, by rw [ha]; rfl⟩
  · exact Or.inr ⟨hc, by rw [hx]; rfl⟩

/-- A list succeeds exactly if each of its items does, whichever of them fails first. -/
theorem mapM {condition : α → Prop} {f : α → Except Error β} (xs : List α)
    (h : ∀ x ∈ xs, Settles (condition x) e (f x)) :
    Settles (∀ x ∈ xs, condition x) e (xs.mapM f) := by
  induction xs with
  | nil => exact Or.inl ⟨fun x hx => absurd hx List.not_mem_nil, [], rfl⟩
  | cons x rest ih =>
      have hrest := ih (fun y hy => h y (List.mem_cons_of_mem _ hy))
      rw [List.mapM_cons]
      -- The error is the same for all, so it does not matter which item fails first.
      rcases h x List.mem_cons_self with ⟨hc, y, hy⟩ | ⟨hc, hx⟩
      · rcases hrest with ⟨hcs, ys, hys⟩ | ⟨hcs, hys⟩
        · refine Or.inl ⟨List.forall_mem_cons.mpr ⟨hc, hcs⟩, y :: ys, ?_⟩
          rw [hy, hys]
          rfl
        · refine Or.inr ⟨fun hall => hcs (List.forall_mem_cons.mp hall).2, ?_⟩
          rw [hy, hys]
          rfl
      · refine Or.inr ⟨fun hall => hc (hall x List.mem_cons_self), ?_⟩
        rw [hx]
        rfl

/-- Two steps that can fail with one error only. -/
theorem bind {condition condition' : Prop} {x : Except Error α} {f : α → Except Error β}
    (h : Settles condition e x) (hf : ∀ a, Settles condition' e (f a)) :
    Settles (condition ∧ condition') e (x >>= f) := by
  rcases h with ⟨hc, a, ha⟩ | ⟨hc, hx⟩
  · rw [ha]
    rcases hf a with ⟨hc', hok⟩ | ⟨hc', herror⟩
    · exact Or.inl ⟨⟨hc, hc'⟩, hok⟩
    · exact Or.inr ⟨fun hboth => hc' hboth.2, herror⟩
  · refine Or.inr ⟨fun hboth => hc hboth.1, ?_⟩
    rw [hx]
    rfl

/-- The condition may be told in another way. -/
theorem congr {condition condition' : Prop} {x : Except Error α} (h : Settles condition e x)
    (hiff : condition ↔ condition') : Settles condition' e x := by
  rw [propext hiff] at h
  exact h

/-- A run through a list succeeds exactly if each of its steps does, from wherever it starts. -/
theorem foldlM {condition : α → Prop} {f : β → α → Except Error β} (xs : List α)
    (h : ∀ b, ∀ x ∈ xs, Settles (condition x) e (f b x)) (b : β) :
    Settles (∀ x ∈ xs, condition x) e (xs.foldlM f b) := by
  induction xs generalizing b with
  | nil => exact Or.inl ⟨fun x hx => absurd hx List.not_mem_nil, b, rfl⟩
  | cons x rest ih =>
      rw [List.foldlM_cons]
      have hrest := bind (h b x List.mem_cons_self)
        (ih fun c y hy => h c y (List.mem_cons_of_mem x hy))
      exact hrest.congr List.forall_mem_cons.symm

/-- The condition holds exactly if the run succeeds. -/
theorem ok_iff {condition : Prop} {x : Except Error α} (h : Settles condition e x) :
    (∃ a, x = .ok a) ↔ condition := by
  rcases h with ⟨hc, hx⟩ | ⟨hc, hx⟩
  · exact ⟨fun _ => hc, fun _ => hx⟩
  · refine ⟨fun ⟨a, ha⟩ => ?_, fun hc' => absurd hc' hc⟩
    rw [hx] at ha
    exact absurd ha (by simp only [reduceCtorEq, not_false_eq_true])

/-- Where the condition fails, the run ends in the known error. -/
theorem error_of_not {condition : Prop} {x : Except Error α} (h : Settles condition e x)
    (hc : ¬ condition) : x = .error e := by
  rcases h with ⟨hc', _⟩ | ⟨_, hx⟩
  · exact absurd hc' hc
  · exact hx

end Settles

namespace Ends

variable {α β : Type} {P : Error → Prop}

theorem of_ok {Q : α → Prop} {x : Except Error α} {a : α} (h : Ends P Q x) (hx : x = .ok a) :
    Q a := by
  rw [hx] at h
  exact h

theorem of_error {Q : α → Prop} {x : Except Error α} {e : Error} (h : Ends P Q x)
    (hx : x = .error e) : P e := by
  rw [hx] at h
  exact h

/-- What is known of a run, if something is known of each way to end. -/
theorem intro {Q : α → Prop} {x : Except Error α} (hok : ∀ a, x = .ok a → Q a)
    (herror : ∀ e, x = .error e → P e) : Ends P Q x := by
  cases x with
  | ok a => exact hok a rfl
  | error e => exact herror e rfl

/-- Less may be said of the result. -/
theorem imp {Q R : α → Prop} {x : Except Error α} (h : Ends P Q x) (hqr : ∀ a, Q a → R a) :
    Ends P R x := by
  cases x with
  | ok a => exact hqr a h
  | error e => exact h

/-- What is known of a run, step by step. -/
theorem bind {Q : α → Prop} {R : β → Prop} {x : Except Error α} {f : α → Except Error β}
    (h : Ends P Q x) (hf : ∀ a, Q a → Ends P R (f a)) : Ends P R (x >>= f) := by
  cases x with
  | ok a => exact hf a h
  | error e => exact h

/-- What is known of each item of a list, if it is known of the run for each. -/
theorem mapM {Q : β → Prop} {f : α → Except Error β} (xs : List α)
    (h : ∀ x ∈ xs, Ends P Q (f x)) : Ends P (fun ys => ∀ y ∈ ys, Q y) (xs.mapM f) := by
  induction xs with
  | nil => exact fun y hy => absurd hy List.not_mem_nil
  | cons x rest ih =>
      rw [List.mapM_cons]
      refine bind (h x List.mem_cons_self) (fun y hy => ?_)
      refine bind (ih (fun z hz => h z (List.mem_cons_of_mem x hz))) (fun ys hys => ?_)
      exact List.forall_mem_cons.mpr ⟨hy, hys⟩

/-- What every step of a run through a list keeps. -/
theorem foldlM {Q : β → Prop} {f : β → α → Except Error β} (xs : List α)
    (h : ∀ b, ∀ x ∈ xs, Q b → Ends P Q (f b x)) (b : β) (hb : Q b) :
    Ends P Q (xs.foldlM f b) := by
  induction xs generalizing b with
  | nil => exact hb
  | cons x rest ih =>
      rw [List.foldlM_cons]
      refine bind (h b x List.mem_cons_self hb) (fun c hc => ?_)
      exact ih (fun b z hz => h b z (List.mem_cons_of_mem x hz)) c hc

/-- A run of whose end something is known follows itself. -/
theorem tracks {Q : α → Prop} {x : Except Error α} (h : Ends P Q x) :
    Tracks (fun _ => False) (fun e _ => P e) (fun a b => a = b ∧ Q a) x x := by
  cases x with
  | ok a => exact ⟨rfl, h⟩
  | error e => exact Or.inr h

/-- What is known of a run that follows itself. -/
theorem of_tracks {same : α → α → Prop} {x : Except Error α}
    (h : Tracks (fun _ => False) (fun e _ => P e) same x x) : Ends P (fun a => same a a) x := by
  cases x with
  | ok a => exact h
  | error e => exact h.resolve_left id

end Ends

end StorageLayout
