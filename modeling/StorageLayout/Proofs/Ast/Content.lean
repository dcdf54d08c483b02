import StorageLayout.Proofs.Ast.Nodes

/-!
# What the Index of Syntax Trees Is Made Of

The index of a build, told by its trees.

The walk through the trees goes by a stack, and what it visits first depends on how the members of
objects are written down. What it leaves in the table does not need the order to be told. A node
that is found stands inside one of the trees and carries the id under which it was looked for
(`found_inside`). And whatever stands inside a tree and carries an id is found under this id, be it
itself or another object with the same id (`inside_found`). So where no two objects share an id, the
table is the set of all objects that carry one.

Contracts are listed in document order at the top of each tree, and a name that occurs again takes
the later definition, as in emitted layouts.

## Main definitions

* `Inside`: A value stands somewhere inside another one.
* `Carries`: An object carries an id.
* `treesOf`: The trees of a build with their paths.
* `HasUniqueIds`: No two objects of a build carry the same id.
* `carriedIds`: The ids of a build, one by one.
* `definitionsIn`, `Defines`: The contracts at the top of a tree, by their qualified names.

## Theorems

* `treesOf_unique`: A path has one tree.
* `hasUniqueIds_of_nodup`: Whether ids are unique can be computed.
* `walk_found`, `walk_keeps`, `walk_enters`: What the walk puts into the table.
* `mem_definitionsIn`, `mem_definitionsIn_of_defines`: The contracts of a tree and their names.
* `found_inside`, `inside_found`, `found_iff_inside`: What the table of nodes is made of.
* `ofOutput_definitions`: The table of contracts is the map of those defined.
-/

namespace StorageLayout.Ast

/-- A value stands somewhere inside another one, or is it. -/
inductive Inside (x : Json) : Json → Prop
  | self : Inside x x
  | child {c v : Json} (hc : c ∈ children v) (h : Inside x c) : Inside x v

/-- An object carries an id that serves as a key. -/
def Carries (record : Record) (k : Key) : Prop :=
  ∃ id, record.find? "id" = some id ∧ id.key? = some k

/-- The trees of a build with their paths. -/
def treesOf (sources : Record) : List (String × Record) :=
  sources.filterMap fun unit => (unit.2.record? "ast").map fun ast => (unit.1, ast)

/-- No two objects of a build carry the same id. -/
def HasUniqueIds (sources : Record) : Prop :=
  ∀ tree ∈ treesOf sources, ∀ tree' ∈ treesOf sources, ∀ r r' k,
    Inside (.obj r) (.obj tree.2) → Inside (.obj r') (.obj tree'.2) → Carries r k → Carries r' k →
    r = r'

mutual

/-- The objects that stand inside a value, itself included. -/
def recordsIn : Json → List Record
  | .arr items => recordsInItems items
  | .obj members => members :: recordsInMembers members
  | _ => []

/-- The objects that stand inside the items of a list. -/
def recordsInItems : List Json → List Record
  | [] => []
  | v :: rest => recordsIn v ++ recordsInItems rest

/-- The objects that stand inside the members of an object. -/
def recordsInMembers : List (String × Json) → List Record
  | [] => []
  | (_, v) :: rest => recordsIn v ++ recordsInMembers rest

end

/-- The ids that are carried in a build, with their objects. -/
def carriedIds (sources : Record) : Assoc Key Record :=
  ((treesOf sources).flatMap fun tree => recordsIn (.obj tree.2)).filterMap fun record =>
    ((Assoc.find? "id" record).bind Json.key?).map fun k => (k, record)

/-- A contract that a top-level node defines, by its qualified name. -/
def definition? (path : String) (node : Json) : Option (String × Record) :=
  node.members?.bind fun record =>
    if (Record.get record "nodeType").isText "ContractDefinition" then
      (record.find? "name").map fun name =>
        let shown := name.display
        (s!"{path}:{shown}", record)
    else none

/-- The contracts at the top of a tree, by their qualified names. -/
def definitionsIn (path : String) (ast : Record) : List (String × Record) :=
  ((ast.getList "nodes").elements.toOption.getD []).filterMap (definition? path)

/-- A contract is defined at the top of a tree. -/
def Defines (ast record : Record) (name : Json) : Prop :=
  ∃ items, (ast.getList "nodes").elements = .ok items ∧ .obj record ∈ items ∧
    (record.get "nodeType").isText "ContractDefinition" = true ∧ record.find? "name" = some name

/-- What stands in a part of a value stands in the value. -/
theorem Inside.trans {x y z : Json} (hxy : Inside x y) (hyz : Inside y z) : Inside x z := by
  induction hyz with
  | self => exact hxy
  | child hc _ ih => exact .child hc ih

/-- A member of an object stands inside it. -/
theorem inside_of_find? (record : Record) (name : String) (v : Json)
    (h : record.find? name = some v) : Inside v (.obj record) :=
  .child (List.mem_map.mpr ⟨(name, v), Assoc.find?_mem name v record h, rfl⟩) .self

/-- A tree is the one of a source of its path. -/
theorem mem_treesOf (sources : Record) (path : String) (ast : Record) :
    (path, ast) ∈ treesOf sources ↔
      ∃ unit, (path, unit) ∈ sources ∧ unit.record? "ast" = some ast := by
  unfold treesOf
  rw [List.mem_filterMap]
  constructor
  · rintro ⟨unit, hunit, hmap⟩
    rcases Option.map_eq_some_iff.mp hmap with ⟨a, ha, heq⟩
    injection heq with hpath hast
    rw [← hpath, ← hast]
    exact ⟨unit.2, hunit, ha⟩
  · rintro ⟨unit, hunit, hast⟩
    refine ⟨(path, unit), hunit, ?_⟩
    rw [hast, Option.map_some]

/-- Where no path is listed twice, each has one tree. -/
theorem treesOf_unique (sources : Record) (hpaths : sources.keys.Nodup) (path : String)
    (ast ast' : Record) (h : (path, ast) ∈ treesOf sources) (h' : (path, ast') ∈ treesOf sources) :
    ast = ast' := by
  rcases (mem_treesOf sources path ast).mp h with ⟨unit, hunit, hast⟩
  rcases (mem_treesOf sources path ast').mp h' with ⟨unit', hunit', hast'⟩
  rw [Assoc.eq_of_mem path unit unit' sources hpaths hunit hunit', hast'] at hast
  injection hast with hast
  exact hast.symm

theorem recordsIn_child (c v : Json) (hc : c ∈ children v) : recordsIn c ⊆ recordsIn v := by
  -- Members are listed as the items of their values, so items are all that has to be gone through.
  have hitems : ∀ items : List Json, c ∈ items → recordsIn c ⊆ recordsInItems items := by
    intro items
    induction items with
    | nil => exact fun h => absurd h List.not_mem_nil
    | cons item rest ih =>
        intro h
        rw [recordsInItems]
        rcases List.mem_cons.mp h with heq | hrest
        · rw [heq]
          exact List.subset_append_left _ _
        · exact List.subset_append_of_subset_right _ (ih hrest)
  have hmembers : ∀ members : List (String × Json),
      recordsInMembers members = recordsInItems (members.map (·.2)) := by
    intro members
    induction members with
    | nil => rfl
    | cons m rest ih => rw [recordsInMembers, List.map_cons, recordsInItems, ih]
  cases v with
  | arr items => exact hitems items hc
  | obj members =>
      rw [recordsIn, hmembers]
      exact List.subset_cons_of_subset _ (hitems _ hc)
  | _ => exact absurd hc List.not_mem_nil

theorem mem_recordsIn (record : Record) (v : Json) (h : Inside (.obj record) v) :
    record ∈ recordsIn v := by
  induction h with
  | self =>
      rw [recordsIn]
      exact List.mem_cons_self
  | child hc _ ih => exact recordsIn_child _ _ hc ih

/-- Where no id occurs twice among those that are carried, it belongs to one object. -/
theorem hasUniqueIds_of_nodup (sources : Record) (h : (carriedIds sources).keys.Nodup) :
    HasUniqueIds sources := by
  have hmem : ∀ tree ∈ treesOf sources, ∀ r k, Inside (.obj r) (.obj tree.2) → Carries r k →
      (k, r) ∈ carriedIds sources := by
    rintro tree htree r k hinside ⟨id, hid, hk⟩
    refine List.mem_filterMap.mpr ⟨r, List.mem_flatMap.mpr ⟨tree, htree, ?_⟩, ?_⟩
    · exact mem_recordsIn r _ hinside
    · rw [hid, Option.bind_some, hk, Option.map_some]
  intro tree htree tree' htree' r r' k hr hr' hk hk'
  exact Assoc.eq_of_mem k r r' _ h (hmem tree htree r k hr hk) (hmem tree' htree' r' k hr' hk')

/-- An object that is entered is found under the id that it carries, and others stay. -/
theorem enter_eq_ok (record : Record) (nodes nodes' : Nodes) (h : enter record nodes = .ok nodes') :
    (record.find? "id" = none ∧ nodes' = nodes) ∨
      ∃ id k own, record.find? "id" = some id ∧ id.key? = some k ∧
        nodes'.find? k = some ⟨own, record⟩ ∧
        ∀ l, k ≠ l → nodes'.find? l = nodes.find? l := by
  unfold enter at h
  -- A record without an id is passed over.
  cases hid : record.find? "id" with
  | none =>
      rw [hid] at h
      injection h with h
      exact Or.inl ⟨rfl, h.symm⟩
  | some id =>
      rw [hid] at h
      rcases (bind_eq_ok _ _ _).mp h with ⟨k, hk, h⟩
      injection h with h
      rw [← h]
      exact Or.inr ⟨id, k, _, rfl, (Json.asKey_eq_ok_iff id k).mp hk,
        Assoc.find?_change_self k _ nodes, fun l hl => Assoc.find?_change_other hl _ nodes⟩

/-- What is put on the stack in place of a value stands inside it. -/
theorem inside_of_pushed (x v c : Json) (stack : List Json)
    (hc : c ∈ (children v).reverse ++ stack) (h : Inside x c) : ∃ u ∈ v :: stack, Inside x u := by
  rcases List.mem_append.mp hc with hchild | hstack
  · exact ⟨v, List.mem_cons_self, .child (List.mem_reverse.mp hchild) h⟩
  · exact ⟨c, List.mem_cons_of_mem v hstack, h⟩

/-- What the walk leaves in the table was there before, or stands inside a value on the stack and
carries the id. -/
theorem walk_found (stack : List Json) (nodes nodes' : Nodes) (h : walk stack nodes = .ok nodes')
    (k : Key) (n : Node) (hn : nodes'.find? k = some n) :
    nodes.find? k = some n ∨
      ∃ v ∈ stack, Inside (.obj n.record) v ∧ Carries n.record k := by
  -- The induction is on the walk, and what is on the stack later stands inside what is on it now.
  induction stack, nodes using walk.induct with
  | case1 nodes =>
      rw [walk] at h
      injection h with h
      rw [← h] at hn
      exact Or.inl hn
  | case2 v stack nodes record hv ih =>
      rw [walk, hv] at h
      rcases (bind_eq_ok _ _ _).mp h with ⟨entered, hentered, hrest⟩
      rcases ih entered hrest with hbefore | ⟨c, hc, hinside, hcarries⟩
      · rcases enter_eq_ok record nodes entered hentered with
          ⟨_, hsame⟩ | ⟨id, l, own, hid, hl, hself, hother⟩
        · rw [hsame] at hbefore
          exact Or.inl hbefore
        · by_cases hk : l = k
          · -- The object that has just been taken off the stack.
            rw [← hk, hself] at hbefore
            injection hbefore with hbefore
            have hobj : v = .obj record := v.members?_eq_some record hv
            rw [← hbefore, ← hk]
            exact Or.inr ⟨v, List.mem_cons_self, hobj ▸ .self, id, hid, hl⟩
          · rw [hother k hk] at hbefore
            exact Or.inl hbefore
      · rcases inside_of_pushed _ v c stack hc hinside with ⟨u, hu, hinside⟩
        exact Or.inr ⟨u, hu, hinside, hcarries⟩
  | case3 v stack nodes hv ih =>
      rw [walk, hv] at h
      rcases ih nodes h with hbefore | ⟨c, hc, hinside, hcarries⟩
      · exact Or.inl hbefore
      · rcases inside_of_pushed _ v c stack hc hinside with ⟨u, hu, hinside⟩
        exact Or.inr ⟨u, hu, hinside, hcarries⟩

/-- An id under which something is found stays one. -/
theorem walk_keeps (stack : List Json) (nodes nodes' : Nodes) (h : walk stack nodes = .ok nodes')
    (k : Key) (hk : ∃ n, nodes.find? k = some n) : ∃ n, nodes'.find? k = some n := by
  refine walk_preserves (fun nodes => ∃ n, nodes.find? k = some n) ?_ stack nodes nodes' hk h
  -- An entry may be replaced, but none is taken out.
  intro record nodes nodes' hfound henter
  rcases enter_eq_ok record nodes nodes' henter with ⟨_, hsame⟩ | ⟨_, l, own, _, _, hself, hother⟩
  · rw [hsame]
    exact hfound
  · by_cases hl : l = k
    · rw [← hl]
      exact ⟨_, hself⟩
    · rw [hother k hl]
      exact hfound

/-- Whatever stands inside a value on the stack and carries an id is entered under it. -/
theorem walk_enters (stack : List Json) (nodes nodes' : Nodes) (h : walk stack nodes = .ok nodes')
    (record : Record) (v : Json) (hv : v ∈ stack) (hinside : Inside (.obj record) v) (id : Json)
    (hid : record.find? "id" = some id) :
    ∃ k, id.key? = some k ∧ ∃ n, nodes'.find? k = some n := by
  -- Either the object is on top and entered, or the value around it makes way for one that is
  -- nearer to it.
  induction stack, nodes using walk.induct generalizing v with
  | case1 nodes => exact absurd hv List.not_mem_nil
  | case2 u stack nodes entered hu ih =>
      rw [walk, hu] at h
      rcases (bind_eq_ok _ _ _).mp h with ⟨table, htable, hrest⟩
      rcases List.mem_cons.mp hv with heq | hstack
      · rw [heq] at hinside
        cases hinside with
        | self =>
            injection hu with hu
            rcases enter_eq_ok entered nodes table htable with
              ⟨hnone, _⟩ | ⟨own, k, spelt, hown, hk, hself, _⟩
            · rw [← hu, hid] at hnone
              exact absurd hnone (by simp only [reduceCtorEq, not_false_eq_true])
            · rw [← hu, hid] at hown
              injection hown with hown
              rw [hown]
              exact ⟨k, hk, walk_keeps _ table nodes' hrest k ⟨_, hself⟩⟩
        | child hc hinside =>
            exact ih table hrest _ (List.mem_append_left _ (List.mem_reverse.mpr hc)) hinside
      · exact ih table hrest v (List.mem_append_right _ hstack) hinside
  | case3 u stack nodes hu ih =>
      rw [walk, hu] at h
      rcases List.mem_cons.mp hv with heq | hstack
      · rw [heq] at hinside
        cases hinside with
        | self => exact absurd hu (by simp only [Json.members?, reduceCtorEq, not_false_eq_true])
        | child hc hinside =>
            exact ih nodes h _ (List.mem_append_left _ (List.mem_reverse.mpr hc)) hinside
      · exact ih nodes h v (List.mem_append_right _ hstack) hinside

/-- What a top-level node adds to the table of contracts. -/
theorem enterContract_eq_ok (path : String) (contracts contracts' : Assoc String Record)
    (node : Json) (h : enterContract path contracts node = .ok contracts') :
    contracts' = (definition? path node).elim contracts fun p => contracts.put p.1 p.2 := by
  unfold enterContract at h
  unfold definition?
  cases hnode : node.members? with
  | none =>
      rw [hnode] at h
      injection h with h
      exact h.symm
  | some record =>
      rw [hnode] at h
      simp only at h
      split at h
      · rename_i hkind
        rcases (bind_eq_ok _ _ _).mp h with ⟨name, hname, h⟩
        rcases (bind_eq_ok _ _ _).mp h with ⟨shown, hshown, h⟩
        injection h with h
        have hfound := Record.member_eq_ok record "name" name hname
        -- The name is written before it is entered, so a contract that was entered has one that can
        -- be written.
        have hdisplay : shown = name.display := by
          unfold Json.shown at hshown
          split at hshown
          · injection hshown with hshown
            exact hshown.symm
          · exact absurd hshown (by simp only [Defect.fail, reduceCtorEq, not_false_eq_true])
        rw [← h, hdisplay, Option.bind_some, if_pos hkind, hfound]
        rfl
      · rename_i hkind
        injection h with h
        rw [Option.bind_some, if_neg hkind]
        exact h.symm

/-- What the tree of a source adds to the index. -/
theorem enterSource_eq_ok (index index' : Index) (path : String) (unit : Json)
    (h : enterSource index path unit = .ok index') :
    ∃ ast, unit.record? "ast" = some ast ∧ walk [.obj ast] index.nodes = .ok index'.nodes ∧
      index'.contracts
        = (definitionsIn path ast).foldl (fun m p => m.put p.1 p.2) index.contracts := by
  unfold enterSource at h
  cases hast : unit.record? "ast" with
  | none =>
      rw [hast] at h
      exact absurd h (by simp only [reduceCtorEq, not_false_eq_true])
  | some ast =>
      rw [hast] at h
      rcases (bind_eq_ok _ _ _).mp h with ⟨nodes, hnodes, h⟩
      rcases (bind_eq_ok _ _ _).mp h with ⟨top, htop, h⟩
      rcases (bind_eq_ok _ _ _).mp h with ⟨contracts, hcontracts, h⟩
      injection h with h
      rw [← h]
      refine ⟨ast, rfl, hnodes, ?_⟩
      -- The loop over the top nodes enters what `definitionsIn` lists, in that order.
      have hdefinitions : definitionsIn path ast = top.filterMap (definition? path) := by
        rw [definitionsIn, htop]
        rfl
      rw [hdefinitions, List.foldl_filterMap]
      refine foldlM_part _ (fun m : Assoc String Record => m) _ top (fun m m' node _ hstep => ?_) _
        contracts hcontracts
      rw [enterContract_eq_ok path m m' node hstep]
      cases definition? path node <;> rfl

/-- A contract that a tree defines goes by the path of the tree and its own name. -/
theorem mem_definitionsIn (path : String) (ast : Record) (fullName : String) (record : Record)
    (h : (fullName, record) ∈ definitionsIn path ast) :
    ∃ name, Defines ast record name ∧ ∃ shown, shown = name.display ∧
      fullName = s!"{path}:{shown}" := by
  unfold definitionsIn at h
  rcases List.mem_filterMap.mp h with ⟨node, hnode, hdefinition⟩
  unfold definition? at hdefinition
  cases hmembers : node.members? with
  | none =>
      rw [hmembers] at hdefinition
      exact absurd hdefinition (by simp only [Option.bind_none, reduceCtorEq, not_false_eq_true])
  | some r =>
      rw [hmembers, Option.bind_some] at hdefinition
      split at hdefinition
      · rename_i hkind
        rcases Option.map_eq_some_iff.mp hdefinition with ⟨name, hname, hpair⟩
        injection hpair with hfull hrecord
        -- Without a list of nodes no definition is listed.
        cases hitems : (ast.getList "nodes").elements with
        | error e =>
            rw [hitems] at hnode
            exact absurd hnode List.not_mem_nil
        | ok items =>
            rw [hitems] at hnode
            rw [node.members?_eq_some r hmembers] at hnode
            rw [← hrecord]
            exact ⟨name, ⟨items, hitems, hnode, hkind, hname⟩, name.display, rfl, hfull.symm⟩
      · exact absurd hdefinition (by simp only [reduceCtorEq, not_false_eq_true])

/-- A contract that a tree defines is listed by the path of the tree and its own name. -/
theorem mem_definitionsIn_of_defines (path : String) (ast record : Record) (name : Json)
    (h : Defines ast record name) :
    (s!"{path}:{name.display}", record) ∈ definitionsIn path ast := by
  rcases h with ⟨items, hitems, hrecord, hkind, hname⟩
  refine List.mem_filterMap.mpr ⟨.obj record, ?_, ?_⟩
  · rw [hitems]
    exact hrecord
  · rw [definition?, show (Json.obj record).members? = some record from rfl, Option.bind_some,
      if_pos hkind, hname]
    rfl

namespace Index

/-- Compiler output with an index has a sources section. -/
theorem sources_of_ok (output : Json) (index : Index) (h : ofOutput output = .ok index) :
    ∃ sources, output.record? "sources" = some sources := by
  unfold ofOutput at h
  cases hsources : output.record? "sources" with
  | none =>
      rw [hsources] at h
      exact absurd h (by simp only [reduceCtorEq, not_false_eq_true])
  | some sources => exact ⟨sources, rfl⟩

section Trees

variable (output : Json) (sources : Record) (index : Index)
variable (hsources : output.record? "sources" = some sources) (h : ofOutput output = .ok index)

include hsources h

/-- Every node that is found stands inside a tree of the build, with the id under which it is
found. -/
theorem found_inside (k : Key) (n : Node) (hn : index.nodes.find? k = some n) :
    ∃ tree ∈ treesOf sources, Inside (.obj n.record) (.obj tree.2) ∧ Carries n.record k := by
  rw [ofOutput, hsources] at h
  -- The invariant of the loop over the sources: whatever the table holds came from a tree.
  refine foldlM_preserves _ (fun index : Index => ∀ k n, index.nodes.find? k = some n →
    ∃ tree ∈ treesOf sources, Inside (.obj n.record) (.obj tree.2) ∧ Carries n.record k) sources ?_
    ⟨[], []⟩ index ?_ h k n hn
  · intro index unit hunit index' hbefore hstep k n hn
    rcases enterSource_eq_ok index index' unit.1 unit.2 hstep with ⟨ast, hast, hwalk, _⟩
    rcases walk_found _ index.nodes index'.nodes hwalk k n hn with hold | ⟨v, hv, hinside⟩
    · exact hbefore k n hold
    · rw [List.mem_singleton.mp hv] at hinside
      exact ⟨(unit.1, ast), (mem_treesOf sources unit.1 ast).mpr ⟨unit.2, hunit, hast⟩, hinside⟩
  · exact fun k n hn => absurd hn (by simp only [Assoc.find?, reduceCtorEq, not_false_eq_true])

/-- Whatever stands inside a tree of the build and carries an id is found under it. -/
theorem inside_found (tree : String × Record) (htree : tree ∈ treesOf sources) (record : Record)
    (hinside : Inside (.obj record) (.obj tree.2)) (id : Json) (hid : record.find? "id" = some id) :
    ∃ k, id.key? = some k ∧ ∃ n, index.nodes.find? k = some n := by
  rw [ofOutput, hsources] at h
  rcases (mem_treesOf sources tree.1 tree.2).mp htree with ⟨unit, hunit, hast⟩
  -- Its own source enters the record, and the sources behind it take no entry out.
  refine foldlM_establishes _ (fun index : Index => ∃ k, id.key? = some k ∧
    ∃ n, index.nodes.find? k = some n) sources (tree.1, unit) hunit ?_ ?_ ⟨[], []⟩ index h
  · intro index index' hstep
    rcases enterSource_eq_ok index index' tree.1 unit hstep with ⟨ast', hast', hwalk, _⟩
    rw [hast] at hast'
    injection hast' with hast'
    rw [← hast'] at hwalk
    exact walk_enters _ _ _ hwalk record _ List.mem_cons_self hinside id hid
  · rintro index unit' index' ⟨k, hk, hfound⟩ hstep
    rcases enterSource_eq_ok index index' unit'.1 unit'.2 hstep with ⟨_, _, hwalk, _⟩
    exact ⟨k, hk, walk_keeps _ _ _ hwalk k hfound⟩

/-- The ids under which something is found are those that are carried inside the trees. -/
theorem found_iff_inside (k : Key) :
    (∃ n, index.nodes.find? k = some n) ↔ ∃ tree ∈ treesOf sources, ∃ record,
      Inside (.obj record) (.obj tree.2) ∧ Carries record k := by
  constructor
  · rintro ⟨n, hn⟩
    rcases found_inside output sources index hsources h k n hn with ⟨tree, htree, hinside⟩
    exact ⟨tree, htree, n.record, hinside⟩
  · rintro ⟨tree, htree, record, hinside, id, hid, hk⟩
    rcases inside_found output sources index hsources h tree htree record hinside id hid with
      ⟨l, hl, hfound⟩
    -- The record has one id, so the key it was entered under is the one asked for.
    have hkey : l = k := by
      rw [hk] at hl
      injection hl with hl
      exact hl.symm
    rw [← hkey]
    exact hfound

/-- Every source has a tree, so there is no tree only if there is no source. -/
theorem eq_nil_of_treesOf (hnone : treesOf sources = []) : sources = [] := by
  rw [ofOutput, hsources] at h
  cases sources with
  | nil => rfl
  | cons unit rest =>
      rcases foldlM_step _ _ _ _ h unit List.mem_cons_self with ⟨before, after, hstep⟩
      rcases enterSource_eq_ok before after unit.1 unit.2 hstep with ⟨ast, hast, _⟩
      have hmem := (mem_treesOf (unit :: rest) unit.1 ast).mpr ⟨unit.2, List.mem_cons_self, hast⟩
      rw [hnone] at hmem
      exact absurd hmem List.not_mem_nil

/-- The table of contracts is the map of those defined at the top of the trees. -/
theorem ofOutput_definitions :
    index.contracts = Assoc.ofList ((treesOf sources).flatMap fun tree =>
      definitionsIn tree.1 tree.2) := by
  rw [ofOutput, hsources] at h
  -- Only the table of contracts is followed: what a source adds to it does not depend on the nodes.
  have hfold := foldlM_part _ Index.contracts
    (fun m (unit : String × Json) => ((unit.2.record? "ast").map fun ast => (unit.1, ast)).elim m
      fun tree => (definitionsIn tree.1 tree.2).foldl (fun m p => m.put p.1 p.2) m) sources
    (fun index index' unit _ hstep => ?_) ⟨[], []⟩ index h
  · rw [hfold, Assoc.ofList, List.foldl_flatMap, treesOf, List.foldl_filterMap]
    congr 1
    funext m unit
    cases unit.2.record? "ast" <;> rfl
  · rcases enterSource_eq_ok index index' unit.1 unit.2 hstep with ⟨ast, hast, _, hcontracts⟩
    rw [hcontracts, hast]
    rfl

end Trees

end Index

end StorageLayout.Ast
