import StorageLayout.Ast.Declarations
import StorageLayout.Proofs.Lookup

/-!
# What the Table of Nodes Holds

Every object in the table of nodes carries the id under which it stands there.

The table is filled by a walk over the trees of all sources, and the later of two objects with one
id replaces the earlier, so it can be hard to say which object an id leads to. But whichever it is,
it has that id itself. A struct depends on this: a type names its definition by an id of its own,
while the members are asked for by the id that the definition carries.

The two may be spelt differently, for an id that is written as `7` leads to an object with the id
`7.0`; as keys they are equal, and that is what `OwnIds` says. It is an invariant of each step that
enters an object (`enter_ownIds`), so the walk keeps it (`walk_preserves`), and so does the run
through the sources.

## Main definitions

* `OwnIds`: Objects stand under their own ids.

## Theorems

* `walk_preserves`: What each entered object keeps, the walk keeps.
* `ofOutput_ownIds`: The table of compiler output has the invariant.
* `node_eq_ok`, `node_of_found`: What an id leads to.
* `node_own_id`: The object with an id is also the object with the id that it carries.
-/

namespace StorageLayout.Ast

/-- Every object of a table stands under the id that it carries. -/
def OwnIds (nodes : Nodes) : Prop :=
  ∀ k n, nodes.find? k = some n → ∃ id, n.record.find? "id" = some id ∧ id.key? = some k

/-- An object that is entered stands under its own id, and the others stay. -/
theorem enter_ownIds (record : Record) (nodes nodes' : Nodes) (h : OwnIds nodes)
    (henter : enter record nodes = .ok nodes') : OwnIds nodes' := by
  unfold enter at henter
  cases hid : Assoc.find? "id" record with
  | none =>
      rw [hid] at henter
      injection henter with henter
      rw [← henter]
      exact h
  | some id =>
      rw [hid] at henter
      rcases (bind_eq_ok _ _ _).mp henter with ⟨key, hkey, hchange⟩
      injection hchange with hchange
      rw [← hchange]
      intro k n hn
      -- The object under the key may be the new one, even if one was there before.
      by_cases hk : key = k
      · rw [← hk, Assoc.find?_change_self] at hn
        injection hn with hn
        rw [← hn, ← hk]
        exact ⟨id, hid, (Json.asKey_eq_ok_iff id key).mp hkey⟩
      · rw [Assoc.find?_change_other hk] at hn
        exact h k n hn

/-- What each entered object keeps, the walk keeps, whatever is on its stack. -/
theorem walk_preserves (I : Nodes → Prop)
    (step : ∀ record nodes nodes', I nodes → enter record nodes = .ok nodes' → I nodes')
    (stack : List Json) (nodes nodes' : Nodes) (h : I nodes)
    (hwalk : walk stack nodes = .ok nodes') : I nodes' := by
  -- The recursion of the walk: the stack is empty, its top is an object, or it is anything else.
  induction stack, nodes using walk.induct with
  | case1 nodes =>
      rw [walk] at hwalk
      injection hwalk with hwalk
      rw [← hwalk]
      exact h
  | case2 v stack nodes record hv ih =>
      rw [walk, hv] at hwalk
      rcases (bind_eq_ok _ _ _).mp hwalk with ⟨entered, hentered, hrest⟩
      exact ih entered (step record nodes entered h hentered) hrest
  | case3 v stack nodes hv ih =>
      rw [walk, hv] at hwalk
      exact ih nodes h hwalk

theorem enterSource_ownIds (index index' : Index) (path : String) (unit : Json)
    (h : OwnIds index.nodes) (hs : enterSource index path unit = .ok index') :
    OwnIds index'.nodes := by
  unfold enterSource at hs
  cases hast : unit.record? "ast" with
  | none =>
      rw [hast] at hs
      exact absurd hs (by simp only [reduceCtorEq, not_false_eq_true])
  | some ast =>
      rw [hast] at hs
      rcases (bind_eq_ok _ _ _).mp hs with ⟨nodes, hnodes, hs⟩
      -- The contracts are entered into a table of their own.
      rcases (bind_eq_ok _ _ _).mp hs with ⟨_, _, hs⟩
      rcases (bind_eq_ok _ _ _).mp hs with ⟨contracts, _, hs⟩
      injection hs with hs
      rw [← hs]
      exact walk_preserves OwnIds enter_ownIds _ index.nodes nodes h hnodes

namespace Index

/-- In the table of compiler output, every object stands under the id that it carries. -/
theorem ofOutput_ownIds (output : Json) (index : Index) (h : ofOutput output = .ok index) :
    OwnIds index.nodes := by
  unfold ofOutput at h
  cases hs : output.record? "sources" with
  | none =>
      rw [hs] at h
      exact absurd h (by simp only [reduceCtorEq, not_false_eq_true])
  | some sources =>
      rw [hs] at h
      -- The run starts with an empty table, where there is nothing to check.
      refine foldlM_preserves _ (fun index : Index => OwnIds index.nodes) sources
        (fun index s _ index' hi hstep => enterSource_ownIds index index' s.1 s.2 hi hstep)
        ⟨[], []⟩ index ?_ h
      exact fun k n hn => absurd hn (by simp only [Assoc.find?, reduceCtorEq, not_false_eq_true])

/-- What an id leads to stands in the table under the content of the id. -/
theorem node_eq_ok (index : Index) (id : Json) (record : Record) (h : index.node id = .ok record) :
    ∃ k n, id.key? = some k ∧ index.nodes.find? k = some n ∧ n.record = record := by
  rcases (bind_eq_ok _ _ _).mp h with ⟨k, hk, hn⟩
  cases hfound : index.nodes.find? k with
  | none =>
      simp only [hfound] at hn
      exact absurd hn (by simp only [throw, throwThe, MonadExceptOf.throw, reduceCtorEq,
        not_false_eq_true])
  | some n =>
      simp only [hfound] at hn
      injection hn with hn
      exact ⟨k, n, (Json.asKey_eq_ok_iff id k).mp hk, hfound, hn⟩

/-- What stands in the table under the content of an id is what the id leads to. -/
theorem node_of_found (index : Index) (id : Json) (k : Key) (n : Node) (hk : id.key? = some k)
    (hn : index.nodes.find? k = some n) : index.node id = .ok n.record := by
  rw [node, (Json.asKey_eq_ok_iff id k).mpr hk]
  simp only [bind, Except.bind, hn]
  rfl

/-- The object with an id is also the object with the id that it carries. -/
theorem node_own_id (index : Index) (howns : OwnIds index.nodes) (id : Json) (record : Record)
    (h : index.node id = .ok record) :
    ∃ own, record.find? "id" = some own ∧ index.node own = .ok record := by
  rcases index.node_eq_ok id record h with ⟨k, n, _, hfound, hrecord⟩
  rcases howns k n hfound with ⟨own, hown, hkey⟩
  rw [hrecord] at hown
  refine ⟨own, hown, ?_⟩
  rw [index.node_of_found own k n hkey hfound, hrecord]

end Index

end StorageLayout.Ast
