import StorageLayout.Proofs.DepthLimit
import StorageLayout.Proofs.Emitted.Check
import StorageLayout.Proofs.Emitted.Need

/-!
# When an Emitted Layout Exists

The exact condition under which a contract of an emitted layout has a layout tree.

In a well-formed table nothing can go wrong but the depth, so whether a layout exists is a question
about its types alone. The resolver meets the need of a type level by level. A node can be made
within a budget exactly if its type needs no more, and if it cannot, the error is the one for the
limit (`expand_settles`). A list of nodes costs one level of the budget and the rest has to be
enough for each of them (`resolve_settles`). No other error is possible, although members and
elements are read before the limit is looked at: whatever a well-formed table names it also has.

## Theorems

* `members_settles`: The members of a struct below a node.
* `elementForest_settles`: The shape of an element below a node.
* `expand_settles`: A node can be made exactly if the budget is enough for its type.
* `resolve_settles`: The same for a list of nodes.
* `layoutOf_ok_iff_need_le`: A contract has a layout exactly if no type of its storage needs more
  levels than the limit allows.
-/

namespace StorageLayout.Emitted.Index

/-- A list of nodes can be made within a budget exactly if it has a level, and what is left of it is
enough for the type of each. -/
def ListSettles (index : Index) (limit : Json) (budget : Nat) : Prop :=
  ∀ ds : List Declaration, (∀ d ∈ ds, index.Presents d) →
    Settles (∃ m, budget = m + 1 ∧ ∀ d ∈ ds, index.Within m d.type) (.nestedTooDeep limit)
      (resolve (.layout index) limit budget ds)

/-- What is enough for a struct, in the terms of the declarations of its members. -/
theorem within_list_iff (index : Index) (budget : Nat) (key : Json) (es : List Json)
    (ds : List Declaration) (h : index.Describes key (.struct es))
    (hreads : List.Forall₂ index.Reads es ds) :
    (∃ m, budget = m + 1 ∧ ∀ d ∈ ds, index.Within m d.type) ↔ index.Within budget key := by
  rw [index.within_struct_iff budget key es h]
  refine exists_congr (fun m => and_congr_right (fun _ => ?_))
  rw [← forall_types_iff index (index.Within m) es ds hreads]

section Step

variable (index : Index) (wf : index.WellFormed) (limit : Json) (budget : Nat)
variable (hlist : index.ListSettles limit budget)

include wf hlist

/-- The members of a struct can be put below a node exactly if the budget is enough for the
struct. -/
theorem members_settles (key : Json) (es : List Json) (h : index.Describes key (.struct es)) :
    Settles (index.Within budget key) (.nestedTooDeep limit)
      ((Source.layout index).members key >>= resolve (.layout index) limit budget) := by
  rcases index.members_read key es h (wf.admits_members index key es h) with ⟨ds, hds, hreads⟩
  have hcond := index.within_list_iff budget key es ds h hreads
  rw [← hcond]
  exact Settles.bind_ok hds (hlist ds (index.presents_of_reads es ds hreads))

/-- The shape of an element can be put below a node exactly if the budget is enough for the array
or the mapping that the node stands for. -/
theorem elementForest_settles (key e label : Json) (form : TypeForm)
    (h : index.Describes key form) (he : form.element? = some e) :
    Settles (index.Within budget key) (.nestedTooDeep limit)
      (elementForest (.layout index) (resolve (.layout index) limit budget) e label) := by
  have hhas : index.Has e := by
    rcases wf.closed index key form h with ⟨hnamed, _⟩
    exact hnamed e (by rw [form.named_of_element e he]; exact List.mem_singleton_self e)
  rcases wf.describes index e hhas with ⟨form', hform', _⟩
  rcases index.element_presents e form' hform' with ⟨d, hd, htype, hpresents⟩
  have hshape := hpresents.shape_eq e form' htype hform'
  refine Settles.bind_ok hd ?_
  rw [hshape]
  -- An array or a mapping as element becomes a list of a single node.
  have hcomposite : ∀ inner, form'.element? = some inner →
      Settles (index.Within budget key) (.nestedTooDeep limit)
        (resolve (.layout index) limit budget [{ d with label }]) := by
    intro inner hinner
    have hone := hlist [{ d with label }] (fun d' hd' => by
      rw [List.mem_singleton.mp hd']
      exact hpresents)
    have hcond : (∃ m, budget = m + 1 ∧ ∀ d' ∈ [{ d with label }], index.Within m d'.type)
        ↔ index.Within budget key := by
      rw [index.within_ofComposite_iff budget key e form h he form' inner hform' hinner]
      refine exists_congr (fun m => and_congr_right (fun _ => ?_))
      rw [List.forall_mem_singleton, htype]
    rwa [hcond] at hone
  cases form' with
  | elementary => exact Or.inl ⟨.ofElementary h he hform', [], rfl⟩
  | struct es =>
      rw [index.within_ofStruct_iff budget key e form h he es hform']
      exact index.members_settles wf limit budget hlist e es hform'
  | fixedArray _ base => exact hcomposite base rfl
  | dynamicArray base => exact hcomposite base rfl
  | mapping _ value => exact hcomposite value rfl

/-- A node can be made exactly if the budget is enough for its type. -/
theorem expand_settles (d : Declaration) (hd : index.Presents d) :
    Settles (index.Within budget d.type) (.nestedTooDeep limit)
      (expand (.layout index) (resolve (.layout index) limit budget) d) := by
  rcases hd with ⟨_, form, hform, hshape⟩
  unfold expand
  rw [hshape]
  -- Every form hands its budget on: to the members of a struct, or to the one element.
  cases form with
  | elementary => exact Or.inl ⟨.elementary hform, _, rfl⟩
  | struct es =>
      exact (index.members_settles wf limit budget hlist d.type es hform).map _
  | fixedArray n base =>
      exact (index.elementForest_settles wf limit budget hlist d.type base _ _ hform rfl).map _
  | dynamicArray base =>
      exact (index.elementForest_settles wf limit budget hlist d.type base _ _ hform rfl).map _
  | mapping keyType value =>
      have hlabel : keyLabel keyType = .ok (.str s!"[{keyType.display}]") := by
        rcases hform with ⟨record, _, hform⟩
        cases hform with
        | mapping _ _ _ _ keyShowable _ => exact keyLabel_eq keyType keyShowable
      refine Settles.bind_ok hlabel ?_
      exact (index.elementForest_settles wf limit budget hlist d.type value _ _ hform rfl).map _

end Step

/-- A list of nodes can be made exactly if the budget is enough for the types of all: one level for
the list, and the rest for what is below. -/
theorem resolve_settles (index : Index) (wf : index.WellFormed) (limit : Json) (budget : Nat) :
    index.ListSettles limit budget := by
  induction budget with
  | zero =>
      intro ds _
      refine Or.inr ⟨?_, rfl⟩
      rintro ⟨m, hm, _⟩
      omega
  | succ b ih =>
      intro ds hds
      -- All declarations of the table occupy storage, so none is left out.
      have hall : ds.filter (fun d => !d.constant) = ds := by
        rw [List.filter_eq_self]
        intro d hd
        rw [(hds d hd).1]
        rfl
      have hcond : (∃ m, b + 1 = m + 1 ∧ ∀ d ∈ ds, index.Within m d.type)
          ↔ ∀ d ∈ ds, index.Within b d.type := by
        constructor
        · rintro ⟨m, hm, hw⟩
          rwa [Nat.succ_injective hm]
        · exact fun hw => ⟨b, rfl, hw⟩
      rw [hcond, resolve, hall]
      exact Settles.mapM ds (fun d hd => index.expand_settles wf limit b ih d (hds d hd))

/-- A contract has a layout exactly if no type of its storage needs more levels than the limit
allows, where the need of types is what its equations say and nothing else is. Where a type needs
more, the error is the one for the limit and no other. In particular there is no layout under any
limit where a type of the storage leads to one that reaches itself. -/
theorem layoutOf_ok_iff_need_le (index : Index) (wf : index.WellFormed) (fullName : String)
    (es : List Json) (hes : index.Lists fullName es)
    (hread : ∀ e ∈ es, IsReadable e ∧ index.Has (entryType e))
    (m : Nat) (hm : 1 ≤ m ∧ m ≤ 128) :
    index.IsNeed index.need ∧
    (∀ f, index.IsNeed f → ∀ key, index.Has key → f key = index.need key) ∧
    ((∃ forest, layoutOf (.layout index) fullName (.ofNat m) = .ok forest) ↔
      ∀ e ∈ es, index.need (entryType e) ≤ m) ∧
    (¬ (∀ e ∈ es, index.need (entryType e) ≤ m) →
      layoutOf (.layout index) fullName (.ofNat m) = .error (.nestedTooDeep (.int m))) ∧
    (∀ e ∈ es, ∀ key, Relation.ReflTransGen index.Refers (entryType e) key →
      Relation.TransGen index.Refers key key →
      layoutOf (.layout index) fullName (.ofNat m) = .error (.nestedTooDeep (.int m))) := by
  -- All parts follow from one fact: the resolution succeeds when every entry fits in the limit, and
  -- otherwise names the limit.
  have hsettles : Settles (∀ e ∈ es, index.need (entryType e) ≤ m) (.nestedTooDeep (.int m))
      (layoutOf (.layout index) fullName (.ofNat m)) := by
    rcases index.storage_read fullName es hes
      (fun e he => wf.admits index e (hread e he).1 (hread e he).2) with ⟨ds, hds, hreads⟩
    have hcond : (∃ k, m + 1 = k + 1 ∧ ∀ d ∈ ds, index.Within k d.type)
        ↔ ∀ e ∈ es, index.need (entryType e) ≤ m := by
      simp only [index.need_le_iff]
      rw [index.forall_types_iff (index.Within m) es ds hreads]
      constructor
      · rintro ⟨k, hk, hw⟩
        rwa [Nat.succ_injective hk]
      · exact fun hw => ⟨m, rfl, hw⟩
    rw [layoutOf, if_pos (inRange_ofNat m hm)]
    refine Settles.bind_ok hds ?_
    rw [resolveAt, budget_ofNat, ← hcond]
    exact index.resolve_settles wf (.int m) (m + 1) ds (index.presents_of_reads es ds hreads)
  refine ⟨index.isNeed, fun f hf => index.eq_need f hf wf, hsettles.ok_iff, hsettles.error_of_not,
    fun e he key hreach hcycle => ?_⟩
  refine hsettles.error_of_not (fun hall => ?_)
  -- From an entry that leads to a cycle no limit is enough.
  have hle := hall e he
  rw [index.need_eq_top_of_cycle (entryType e) key hreach hcycle] at hle
  exact absurd hle (by simp only [top_le_iff, ENat.natCast_ne_top, not_false_eq_true])

/-- An emitted layout with a struct that holds a list of its own kind. -/
def chainLayout : Index where
  contracts := [("a.sol:A", .obj [("storageLayout", .obj [("storage", .arr [.obj
    [("label", .str "root"), ("type", .str "t_struct(Node)1_storage"), ("slot", .str "0")]])])])]
  types := [
    (.text "t_struct(Node)1_storage", ⟨.str "t_struct(Node)1_storage", .obj [("members", .arr [.obj
      [("label", .str "next"), ("type", .str "t_array(t_struct(Node)1_storage)dyn_storage"),
        ("slot", .str "0")]])]⟩),
    (.text "t_array(t_struct(Node)1_storage)dyn_storage",
      ⟨.str "t_array(t_struct(Node)1_storage)dyn_storage",
        .obj [("encoding", .str "dynamic_array"), ("base", .str "t_struct(Node)1_storage")]⟩)]

/-- The struct reaches itself through the list. -/
theorem chainLayout_cycle : Relation.TransGen chainLayout.Refers (.str "t_struct(Node)1_storage")
    (.str "t_struct(Node)1_storage") := by
  refine Relation.TransGen.head (b := .str "t_array(t_struct(Node)1_storage)dyn_storage")
    ⟨.struct _, ⟨_, rfl, .struct rfl rfl rfl rfl rfl⟩, ?_⟩ (Relation.TransGen.single
      ⟨.dynamicArray _, ⟨_, rfl, .dynamicArray rfl rfl⟩, List.mem_singleton_self _⟩)
  exact List.mem_singleton_self _

/-- A struct that holds a list of its own kind has no layout, and the error is the one for the
limit. -/
theorem layoutOf_chain : chainLayout.WellFormed ∧
    layoutOf (.layout chainLayout) "a.sol:A" (.ofNat 8) = .error (.nestedTooDeep (.int 8)) := by
  have hwf : chainLayout.WellFormed := chainLayout.wellFormed_of_checks (by decide +kernel)
  refine ⟨hwf, ?_⟩
  have hread : ∀ e ∈ [Json.obj [("label", .str "root"), ("type", .str "t_struct(Node)1_storage"),
      ("slot", .str "0")]], IsReadable e ∧ chainLayout.Has (entryType e) := by
    intro e he
    rw [List.mem_singleton.mp he]
    exact ⟨isReadable_sound _ (by decide +kernel), ⟨_, rfl⟩⟩
  exact (chainLayout.layoutOf_ok_iff_need_le hwf "a.sol:A" _ ⟨_, _, rfl, rfl, Or.inl rfl⟩ hread 8
    (by decide)).2.2.2.2 _ List.mem_cons_self _ Relation.ReflTransGen.refl chainLayout_cycle

end StorageLayout.Emitted.Index
