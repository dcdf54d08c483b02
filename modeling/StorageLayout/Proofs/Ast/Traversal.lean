import StorageLayout.Proofs.Ast.Content

/-!
# The Order of the Walk

Which object an id leads to, when several objects carry it.

The walk through a tree keeps a stack of values that are still to be visited. What it does is a
recursive traversal all the same: an object is visited before what is inside it, and of the children
of an object or a list the last one is visited first, with everything below it, before its
neighbour on the left. `visits` is this recursion, and `walk_eq` says that the walk enters the
objects of its stack in the order of `visits`, one value of the stack after the other. A run of the
loop takes one value off the stack in each round, so it is over after as many rounds as there are
values (`walkFor_eq`).

An object that is entered replaces the one that had its id, so the table leads to the object that
was visited last. Places tell which one that is without the traversal. Of two places, the one that
is further out on the same way is visited first; and where the ways part, the one that goes on to
the later child (`VisitedBefore`). So an object inside another one takes the id from it, and of two
objects beside each other the one that is written first. Trees are gone through in the order of the
sources, so the tree of a later source takes an id from those before it.

Ids are compared as keys: `1`, `1.0` and true are one id.

## Main definitions

* `Place`, `at?`: Where a value stands inside another one.
* `VisitedBefore`: The order of places.
* `visits`, `visited`: The objects inside a value, by recursion.
* `walkFor`: The loop of the walk, for a number of rounds.
* `lastWith`: The last object of a list that carries an id.
* `IsLastVisited`: The object to which an id leads, by its place.

## Theorems

* `inside_iff_at?`: What stands inside a value has a place there.
* `mem_visits`, `pairwise_visits`: The traversal meets every object, in the order of places.
* `walk_eq`, `walkFor_eq`: The walk is the traversal, and its loop ends.
* `find?_enterAll`: Of several objects with one id the last one stays.
* `ofOutput_lastWith`: The table of a build leads to the last object with an id.
* `ofOutput_lastVisited`: The same with places, and that the loop ends.
-/

namespace StorageLayout.Ast

/-- Where a value stands inside another one: which child to go to, level by level. -/
abbrev Place := List Nat

/-- The value at a place inside a value. -/
def at? : Place → Json → Option Json
  | [], v => some v
  | i :: place, v => (children v)[i]?.bind (at? place)

/-- What stands at one place is visited before what stands at another one: the first place is
further out on the way to the second, or their ways part and the first goes on to a later child. -/
def VisitedBefore (p q : Place) : Prop :=
  (∃ i rest, q = p ++ i :: rest) ∨
    ∃ common i j rest rest', p = common ++ i :: rest ∧ q = common ++ j :: rest' ∧ j < i

mutual

/-- The objects inside a value with their places, itself included: an object before what is inside
it, and of children the last one first. -/
def visits : Json → List (Place × Record)
  | .arr items => visitsOfItems 0 items
  | .obj members => ([], members) :: visitsOfMembers 0 members
  | _ => []

/-- The objects inside the items of a list, which are the children from `i` on. -/
def visitsOfItems (i : Nat) : List Json → List (Place × Record)
  | [] => []
  | v :: rest => visitsOfItems (i + 1) rest ++ (visits v).map fun x => (i :: x.1, x.2)

/-- The objects inside the members of an object, which are the children from `i` on. -/
def visitsOfMembers (i : Nat) : List (String × Json) → List (Place × Record)
  | [] => []
  | (_, v) :: rest => visitsOfMembers (i + 1) rest ++ (visits v).map fun x => (i :: x.1, x.2)

end

/-- The objects inside a value, in the order in which they are visited. -/
def visited (v : Json) : List Record := (visits v).map (·.2)

/-- What a round of the walk does with the value that it has taken off the stack. -/
def enterValue (v : Json) (nodes : Nodes) : Except Error Nodes :=
  match v.members? with
  | some record => enter record nodes
  | none => .ok nodes

/-- The loop of the walk, for a number of rounds: nothing, if the stack is not empty after them. -/
def walkFor : Nat → List Json → Nodes → Option (Except Error Nodes)
  | _, [], nodes => some (.ok nodes)
  | 0, _ :: _, _ => none
  | rounds + 1, v :: stack, nodes =>
    match enterValue v nodes with
    | .ok nodes => walkFor rounds ((children v).reverse ++ stack) nodes
    | .error e => some (.error e)

/-- Enters objects one after the other. -/
def enterAll (records : List Record) (nodes : Nodes) : Except Error Nodes :=
  records.foldlM (fun nodes record => enter record nodes) nodes

/-- The id of an object as a key. -/
def keyOf? (record : Record) : Option Key := (record.find? "id").bind Json.key?

/-- The last of some objects that carries an id. -/
def lastWith (k : Key) (records : List Record) : Option Record :=
  (records.filter fun record => keyOf? record = some k).getLast?

/-- The object of a build that is visited last of those with an id: the trees after its own have no
object with the id, and in its own tree every other place of one is visited before its place. -/
def IsLastVisited (trees : List (String × Record)) (k : Key) (record : Record) : Prop :=
  ∃ before path ast after place, trees = before ++ (path, ast) :: after ∧
    (∀ tree ∈ after, ∀ other, Inside (.obj other) (.obj tree.2) → ¬ Carries other k) ∧
    at? place (.obj ast) = some (.obj record) ∧ Carries record k ∧
    ∀ p other, at? p (.obj ast) = some (.obj other) → Carries other k →
      p = place ∨ VisitedBefore p place

/-! ## Places -/

/-- What stands inside a value has a place there, and what has a place stands inside. -/
theorem inside_iff_at? (x v : Json) : Inside x v ↔ ∃ place, at? place v = some x := by
  constructor
  · intro h
    -- A place lists the numbers of the children on the way down, so its length is that of the
    -- derivation.
    induction h with
    | self => exact ⟨[], rfl⟩
    | child hc _ ih =>
        rcases ih with ⟨place, hplace⟩
        rcases List.mem_iff_getElem?.mp hc with ⟨i, hi⟩
        exact ⟨i :: place, by rw [at?, hi, Option.bind_some, hplace]⟩
  · rintro ⟨place, hplace⟩
    induction place generalizing v with
    | nil =>
        injection hplace with hplace
        rw [hplace]
        exact .self
    | cons i place ih =>
        rw [at?] at hplace
        rcases Option.bind_eq_some_iff.mp hplace with ⟨c, hc, hrest⟩
        exact .child (List.mem_of_getElem? hc) (ih c hrest)

/-- The order of places is kept when both stand inside the same child. -/
theorem VisitedBefore.cons {p q : Place} (h : VisitedBefore p q) (i : Nat) :
    VisitedBefore (i :: p) (i :: q) := by
  rcases h with ⟨j, rest, hq⟩ | ⟨common, j, j', rest, rest', hp, hq, hlt⟩
  · exact Or.inl ⟨j, rest, by rw [hq, List.cons_append]⟩
  · exact Or.inr ⟨i :: common, j, j', rest, rest', by rw [hp, List.cons_append],
      by rw [hq, List.cons_append], hlt⟩

/-- A value is visited before everything inside it. -/
theorem visitedBefore_of_inside (i : Nat) (p : Place) : VisitedBefore [] (i :: p) :=
  Or.inl ⟨i, p, rfl⟩

/-- What is inside a later child is visited before what is inside an earlier one. -/
theorem visitedBefore_of_lt {i j : Nat} (h : j < i) (p q : Place) :
    VisitedBefore (i :: p) (j :: q) :=
  Or.inr ⟨[], i, j, p, q, rfl, rfl, h⟩

/-! ## The traversal -/

theorem visitsOfMembers_eq (i : Nat) (members : List (String × Json)) :
    visitsOfMembers i members = visitsOfItems i (members.map (·.2)) := by
  induction members generalizing i with
  | nil => rfl
  | cons m rest ih => rw [visitsOfMembers, List.map_cons, visitsOfItems, ih]

/-- A traversal begins with the value itself, if it is an object, and goes through its children. -/
theorem visits_eq (v : Json) :
    visits v = v.members?.toList.map (fun members => ([], members))
      ++ visitsOfItems 0 (children v) := by
  cases v with
  | obj members => rw [visits, visitsOfMembers_eq]; rfl
  | _ => rfl

/-- The objects inside the children of a value, each with the child that it stands in. -/
theorem mem_visitsOfItems (i : Nat) (items : List Json) (p : Place) (record : Record) :
    (p, record) ∈ visitsOfItems i items ↔
      ∃ j c q, p = (i + j) :: q ∧ items[j]? = some c ∧ (q, record) ∈ visits c := by
  -- The items behind the first are visited before it, and have one more than their number in the
  -- rest of the list.
  induction items generalizing i with
  | nil =>
      refine ⟨fun h => absurd h List.not_mem_nil, ?_⟩
      rintro ⟨j, c, q, _, hc, _⟩
      exact absurd hc (by simp only [List.getElem?_nil, reduceCtorEq, not_false_eq_true])
  | cons v rest ih =>
      rw [visitsOfItems, List.mem_append, ih, List.mem_map]
      constructor
      · rintro (⟨j, c, q, hp, hc, hq⟩ | ⟨x, hx, heq⟩)
        · exact ⟨j + 1, c, q, by rw [hp, Nat.add_assoc, Nat.add_comm 1 j], hc, hq⟩
        · injection heq with hp hrecord
          exact ⟨0, v, x.1, hp.symm, rfl, hrecord ▸ hx⟩
      · rintro ⟨j, c, q, hp, hc, hq⟩
        cases j with
        | zero =>
            injection hc with hc
            refine Or.inr ⟨(q, record), hc ▸ hq, ?_⟩
            rw [hp, Nat.add_zero]
        | succ j =>
            refine Or.inl ⟨j, c, q, ?_, hc, hq⟩
            rw [hp, Nat.add_assoc, Nat.add_comm 1 j]

/-- The traversal meets an object at each of its places, and nothing else. -/
theorem mem_visits (p : Place) (record : Record) (v : Json) :
    (p, record) ∈ visits v ↔ at? p v = some (.obj record) := by
  induction p generalizing v with
  | nil =>
      -- Only the value itself has the empty place.
      have hchild : ([], record) ∉ visitsOfItems 0 (children v) := by
        intro h
        rcases (mem_visitsOfItems 0 (children v) [] record).mp h with ⟨_, _, _, hp, _⟩
        exact absurd hp.symm (List.cons_ne_nil _ _)
      rw [visits_eq, List.mem_append, or_iff_left hchild, List.mem_map, at?, Option.some.injEq]
      constructor
      · rintro ⟨members, hmembers, heq⟩
        injection heq with _ heq
        rw [← heq]
        exact v.members?_eq_some members (Option.mem_toList.mp hmembers)
      · intro hv
        rw [hv]
        exact ⟨record, List.mem_singleton_self record, rfl⟩
  | cons i p ih =>
      have hself : (i :: p, record) ∉ v.members?.toList.map fun members => (([] : Place), members) := by
        intro h
        rcases List.mem_map.mp h with ⟨_, _, heq⟩
        injection heq with hp _
        exact absurd hp.symm (List.cons_ne_nil _ _)
      rw [visits_eq, List.mem_append, or_iff_right hself, mem_visitsOfItems, at?,
        Option.bind_eq_some_iff]
      constructor
      · rintro ⟨j, c, q, hp, hc, hq⟩
        injection hp with hi hp
        rw [Nat.zero_add] at hi
        rw [hi, hp]
        exact ⟨c, hc, (hp ▸ ih c).mp hq⟩
      · rintro ⟨c, hc, hrest⟩
        exact ⟨i, c, p, by rw [Nat.zero_add], hc, (ih c).mpr hrest⟩

theorem mem_visited (record : Record) (v : Json) :
    record ∈ visited v ↔ Inside (.obj record) v := by
  rw [visited, List.mem_map, inside_iff_at?]
  constructor
  · rintro ⟨⟨p, r⟩, hx, hr⟩
    change r = record at hr
    rw [hr] at hx
    exact ⟨p, (mem_visits p record v).mp hx⟩
  · rintro ⟨p, hp⟩
    exact ⟨(p, record), (mem_visits p record v).mpr hp, rfl⟩

theorem weight_le_of_mem (items : List Json) (c : Json) (hc : c ∈ items) :
    weight c ≤ weightItems items := by
  induction items with
  | nil => exact absurd hc List.not_mem_nil
  | cons v rest ih =>
      rw [weightItems]
      rcases List.mem_cons.mp hc with heq | hrest
      · rw [heq]
        exact Nat.le_add_right _ _
      · have hle := ih hrest
        omega

/-- What a value has if all of its children have it, every value has. -/
theorem forall_of_children {P : Json → Prop} (h : ∀ v, (∀ c ∈ children v, P c) → P v) (v : Json) :
    P v := by
  -- The induction is on the number of values inside, for there are fewer inside a child.
  induction hw : weight v using Nat.strongRecOn generalizing v with
  | ind n ih =>
      refine h v (fun c hc => ih (weight c) ?_ c rfl)
      have hchild := weight_le_of_mem (children v) c hc
      have hlt := weightItems_children_lt v
      omega

/-- The items of a list are gone through in the order of places, if each of them is. -/
theorem pairwise_visitsOfItems (items : List Json)
    (h : ∀ c ∈ items, (visits c).Pairwise fun x y => VisitedBefore x.1 y.1) (i : Nat) :
    (visitsOfItems i items).Pairwise fun x y => VisitedBefore x.1 y.1 := by
  induction items generalizing i with
  | nil => exact List.Pairwise.nil
  | cons u rest ih =>
      rw [List.forall_mem_cons] at h
      rw [visitsOfItems, List.pairwise_append]
      refine ⟨ih h.2 (i + 1), ?_, fun x hx y hy => ?_⟩
      · rw [List.pairwise_map]
        exact h.1.imp fun hxy => hxy.cons i
      · -- What stands in the rest of the list has a later child on its way.
        rcases (mem_visitsOfItems (i + 1) rest x.1 x.2).mp hx with ⟨j, _, q, hp, _, _⟩
        rcases List.mem_map.mp hy with ⟨z, _, hz⟩
        rw [hp, ← hz]
        exact visitedBefore_of_lt (by omega) q z.1

/-- The traversal goes through the places in their order. -/
theorem pairwise_visits (v : Json) :
    (visits v).Pairwise fun x y => VisitedBefore x.1 y.1 := by
  refine forall_of_children (P := fun v => (visits v).Pairwise fun x y => VisitedBefore x.1 y.1)
    (fun v hchildren => ?_) v
  rw [visits_eq, List.pairwise_append]
  refine ⟨?_, pairwise_visitsOfItems _ hchildren 0, fun x hx y hy => ?_⟩
  · cases v.members? with
    | none => exact List.Pairwise.nil
    | some members => exact List.pairwise_singleton _ _
  · -- The value itself has the empty place, and everything else is inside it.
    rcases List.mem_map.mp hx with ⟨_, _, hx⟩
    rcases (mem_visitsOfItems 0 (children v) y.1 y.2).mp hy with ⟨j, _, q, hp, _, _⟩
    rw [hp, ← hx]
    exact visitedBefore_of_inside _ q

theorem map_visitsOfItems (i : Nat) (items : List Json) :
    (visitsOfItems i items).map (·.2) = items.reverse.flatMap visited := by
  induction items generalizing i with
  | nil => rfl
  | cons v rest ih =>
      rw [visitsOfItems, List.map_append, ih, List.map_map, List.reverse_cons, List.flatMap_append,
        List.flatMap_singleton]
      rfl

/-- A traversal without its places: the value itself, and its children from the last one on. -/
theorem visited_eq (v : Json) :
    visited v = v.members?.toList ++ (children v).reverse.flatMap visited := by
  rw [visited, visits_eq, List.map_append, map_visitsOfItems, List.map_map]
  congr 1
  exact List.map_id _

/-! ## The walk -/

/-- A round of the walk, as one step. -/
theorem walk_cons (v : Json) (stack : List Json) (nodes : Nodes) :
    walk (v :: stack) nodes
      = enterValue v nodes >>= fun nodes => walk ((children v).reverse ++ stack) nodes := by
  rw [walk, enterValue]
  cases v.members? <;> rfl

theorem enterValue_eq (v : Json) (nodes : Nodes) :
    enterValue v nodes = enterAll v.members?.toList nodes := by
  rw [enterValue]
  cases v.members? with
  | none => rfl
  | some record =>
      change enter record nodes = enter record nodes >>= pure
      rw [bind_pure]

theorem enterAll_append (xs ys : List Record) (nodes : Nodes) :
    enterAll (xs ++ ys) nodes = enterAll xs nodes >>= enterAll ys :=
  List.foldlM_append

/-- The walk with a stack is the recursive traversal of the values on the stack, from its top on. -/
theorem walk_eq (stack : List Json) (nodes : Nodes) :
    walk stack nodes = enterAll (stack.flatMap visited) nodes := by
  have hround : ∀ v stack nodes, (∀ nodes, walk ((children v).reverse ++ stack) nodes
      = enterAll (((children v).reverse ++ stack).flatMap visited) nodes) →
      walk (v :: stack) nodes = enterAll ((v :: stack).flatMap visited) nodes := by
    intro v stack nodes ih
    rw [walk_cons, List.flatMap_cons, visited_eq, List.append_assoc, ← List.flatMap_append,
      enterAll_append, enterValue_eq]
    exact congrArg _ (funext ih)
  -- The induction is on the walk, which has two cases for a value that is on top.
  induction stack, nodes using walk.induct with
  | case1 nodes => rw [walk]; rfl
  | case2 v stack nodes _ _ ih => exact hround v stack nodes ih
  | case3 v stack nodes _ ih => exact hround v stack nodes ih

/-- The loop is over after as many rounds as there are values on the stack and inside them. -/
theorem walkFor_eq (rounds : Nat) (stack : List Json) (nodes : Nodes)
    (h : weightItems stack ≤ rounds) : walkFor rounds stack nodes = some (walk stack nodes) := by
  induction rounds generalizing stack nodes with
  | zero =>
      cases stack with
      | nil => rw [walkFor, walk]
      | cons v stack =>
          have hlt := weightItems_children_lt v
          rw [weightItems] at h
          omega
  | succ rounds ih =>
      cases stack with
      | nil => rw [walkFor, walk]
      | cons v stack =>
          -- A round takes one value off and puts on what is inside it, which weighs less.
          have hlt := weightItems_children_lt v
          have hrest : weightItems ((children v).reverse ++ stack) ≤ rounds := by
            rw [weightItems] at h
            rw [weightItems_append, weightItems_reverse]
            omega
          rw [walkFor, walk_cons]
          cases enterValue v nodes with
          | error e => rfl
          | ok entered => exact ih _ entered hrest

/-! ## The last object with an id -/

theorem carries_iff (record : Record) (k : Key) : Carries record k ↔ keyOf? record = some k :=
  Option.bind_eq_some_iff.symm

theorem lastWith_append (k : Key) (xs ys : List Record) :
    lastWith k (xs ++ ys) = (lastWith k ys).or (lastWith k xs) := by
  rw [lastWith, List.filter_append, List.getLast?_append]
  rfl

theorem lastWith_singleton (k : Key) (record : Record) :
    lastWith k [record] = if keyOf? record = some k then some record else none := by
  by_cases hk : keyOf? record = some k
  · simp only [lastWith, List.filter_cons, hk, decide_true, if_true, List.filter_nil,
      List.getLast?_singleton]
  · simp only [lastWith, List.filter_cons, hk, decide_false, Bool.false_eq_true, if_false,
      List.filter_nil, List.getLast?_nil]

theorem lastWith_eq_none (k : Key) (records : List Record) :
    lastWith k records = none ↔ ∀ record ∈ records, ¬ Carries record k := by
  simp only [lastWith, List.getLast?_eq_none_iff, List.filter_eq_nil_iff, decide_eq_true_eq,
    carries_iff]

/-- What an object that is entered leaves under a key. -/
theorem find?_enter (record : Record) (nodes nodes' : Nodes) (h : enter record nodes = .ok nodes')
    (k : Key) : (nodes'.find? k).map (·.record)
      = (lastWith k [record]).or ((nodes.find? k).map (·.record)) := by
  rw [lastWith_singleton]
  rcases enter_eq_ok record nodes nodes' h with ⟨hid, hsame⟩ | ⟨id, l, own, hid, hl, hself, hother⟩
  · have hkey : keyOf? record ≠ some k := by
      rw [keyOf?, hid, Option.bind_none]
      simp only [ne_eq, reduceCtorEq, not_false_eq_true]
    rw [if_neg hkey, hsame, Option.none_or]
  · have hkey : keyOf? record = some l := by rw [keyOf?, hid, Option.bind_some, hl]
    -- A record replaces what stood under its own key, and leaves every other key alone.
    by_cases hk : l = k
    · rw [if_pos (hk ▸ hkey), ← hk, hself, Option.map_some, Option.some_or]
    · have hne : keyOf? record ≠ some k := by
        rw [hkey]
        exact fun heq => hk (Option.some.inj heq)
      rw [if_neg hne, hother k hk, Option.none_or]

/-- Of several objects with one id the last one stays. -/
theorem find?_enterAll (records : List Record) (nodes nodes' : Nodes)
    (h : enterAll records nodes = .ok nodes') (k : Key) :
    (nodes'.find? k).map (·.record)
      = (lastWith k records).or ((nodes.find? k).map (·.record)) := by
  induction records generalizing nodes with
  | nil =>
      injection h with h
      rw [h]
      rfl
  | cons record rest ih =>
      rw [enterAll, List.foldlM_cons] at h
      rcases (bind_eq_ok _ _ _).mp h with ⟨entered, hentered, hrest⟩
      -- The later records win, so what the rest enters comes before the first record and before
      -- what was there.
      rw [ih entered hrest, find?_enter record nodes entered hentered,
        ← List.singleton_append (l := rest), lastWith_append, Option.or_assoc]

/-- The last object with an id inside a value has a place that is visited after all others. -/
theorem place_of_lastWith (k : Key) (v : Json) (record : Record)
    (h : lastWith k (visited v) = some record) :
    ∃ place, at? place v = some (.obj record) ∧ Carries record k ∧
      ∀ p other, at? p v = some (.obj other) → Carries other k →
        p = place ∨ VisitedBefore p place := by
  rw [lastWith, visited, List.filter_map, List.getLast?_map] at h
  rcases Option.map_eq_some_iff.mp h with ⟨⟨place, r⟩, hlast, hr⟩
  change r = record at hr
  rw [hr] at hlast
  -- The objects with the id are the last one and those before it.
  rcases List.getLast?_eq_some_iff.mp hlast with ⟨earlier, hsplit⟩
  have hmem : (place, record) ∈ earlier ++ [(place, record)] :=
    List.mem_append_right _ (List.mem_singleton_self _)
  rw [← hsplit, List.mem_filter] at hmem
  refine ⟨place, (mem_visits place record v).mp hmem.1,
    (carries_iff record k).mpr (of_decide_eq_true hmem.2), fun p other hp hcarries => ?_⟩
  have hother : (p, other) ∈ earlier ++ [(place, record)] := by
    rw [← hsplit, List.mem_filter]
    exact ⟨(mem_visits p other v).mpr hp, decide_eq_true ((carries_iff other k).mp hcarries)⟩
  have hpairwise : (earlier ++ [(place, record)]).Pairwise fun x y => VisitedBefore x.1 y.1 := by
    rw [← hsplit]
    exact (pairwise_visits v).sublist List.filter_sublist
  rw [List.pairwise_append] at hpairwise
  rcases List.mem_append.mp hother with hearlier | hsame
  · exact Or.inr (hpairwise.2.2 _ hearlier _ (List.mem_singleton_self _))
  · injection List.mem_singleton.mp hsame with hp _
    exact Or.inl hp

/-- The objects of some trees, in the order in which they are visited. -/
def visitedIn (trees : List (String × Record)) : List Record :=
  trees.flatMap fun tree => visited (.obj tree.2)

/-- The last object with an id in a list of trees is the one that is visited last. -/
theorem isLastVisited_of_lastWith (k : Key) (trees : List (String × Record)) (record : Record)
    (h : lastWith k (visitedIn trees) = some record) : IsLastVisited trees k record := by
  induction trees with
  | nil => exact absurd h (by simp only [visitedIn, List.flatMap_nil, lastWith, List.filter_nil,
      List.getLast?_nil, reduceCtorEq, not_false_eq_true])
  | cons tree rest ih =>
      rw [visitedIn, List.flatMap_cons, lastWith_append] at h
      cases hrest : lastWith k (visitedIn rest) with
      | some r =>
          rw [visitedIn] at hrest
          rw [hrest, Option.some_or] at h
          rcases ih (hrest.trans h) with ⟨before, path, ast, after, place, hsplit, hlast⟩
          exact ⟨tree :: before, path, ast, after, place, by rw [hsplit]; rfl, hlast⟩
      | none =>
          -- No later tree has the id, so the object is in this one.
          have hnone := (lastWith_eq_none k _).mp hrest
          rw [visitedIn] at hrest
          rw [hrest, Option.none_or] at h
          rcases place_of_lastWith k _ record h with ⟨place, hplace⟩
          refine ⟨[], tree.1, tree.2, rest, place, rfl, fun t ht other hinside => ?_, hplace⟩
          exact hnone other (List.mem_flatMap.mpr ⟨t, ht, (mem_visited other _).mpr hinside⟩)

namespace Index

/-- The table of a build leads from an id to the last object that carries it. -/
theorem ofOutput_lastWith (output : Json) (sources : Record) (index : Index)
    (hsources : output.record? "sources" = some sources) (h : ofOutput output = .ok index)
    (k : Key) : (index.nodes.find? k).map (·.record) = lastWith k (visitedIn (treesOf sources)) := by
  rw [ofOutput, hsources] at h
  have hfold := foldlM_part _ (fun index : Index => (index.nodes.find? k).map (·.record))
    (fun found (unit : String × Json) =>
      ((unit.2.record? "ast").map fun ast => (unit.1, ast)).elim found
        fun tree => (lastWith k (visited (.obj tree.2))).or found) sources
    (fun before after unit _ hstep => ?_) ⟨[], []⟩ index h
  · -- The run through the sources, as one through the trees.
    have htrees : ∀ (trees : List (String × Record)) (found : Option Record),
        trees.foldl (fun found tree => (lastWith k (visited (.obj tree.2))).or found) found
          = (lastWith k (visitedIn trees)).or found := by
      intro trees
      induction trees with
      | nil => exact fun _ => rfl
      | cons tree rest ih =>
          intro found
          rw [List.foldl_cons, ih, visitedIn, visitedIn, List.flatMap_cons, lastWith_append,
            Option.or_assoc]
    rw [hfold, treesOf, ← Option.or_none (o := lastWith k _), ← htrees, List.foldl_filterMap]
    congr 1
    funext found unit
    cases unit.2.record? "ast" <;> rfl
  · rcases enterSource_eq_ok before after unit.1 unit.2 hstep with ⟨ast, hast, hwalk, _⟩
    rw [walk_eq, List.flatMap_singleton] at hwalk
    rw [hast, find?_enterAll _ before.nodes after.nodes hwalk k]
    rfl

/-- The walk is a recursive traversal, and an id leads to the object that is visited last.

Whatever value the walk begins with, its loop ends, after at most as many rounds as there are values
inside, and it has entered the objects of the recursive traversal in their order. In the table of a
build an id is found exactly if an object inside one of the trees carries it, be it spelt in another
way. What is found is the last such object, the trees being visited in the order of the sources: no
tree of a later source has the id, and in its own tree every other object with the id has a place
that comes before, further out or at a later child. -/
theorem ofOutput_lastVisited :
    (∀ v nodes, walkFor (weight v) [v] nodes = some (enterAll (visited v) nodes) ∧
      walk [v] nodes = enterAll (visited v) nodes) ∧
    ∀ output sources index, output.record? "sources" = some sources →
      ofOutput output = .ok index → ∀ k,
        ((∃ n, index.nodes.find? k = some n) ↔ ∃ tree ∈ treesOf sources, ∃ record,
          Inside (.obj record) (.obj tree.2) ∧ Carries record k) ∧
        (index.nodes.find? k).map (·.record) = lastWith k (visitedIn (treesOf sources)) ∧
        ∀ n, index.nodes.find? k = some n → IsLastVisited (treesOf sources) k n.record := by
  refine ⟨fun v nodes => ?_, fun output sources index hsources h k => ?_⟩
  · have hwalk : walk [v] nodes = enterAll (visited v) nodes := by
      rw [walk_eq, List.flatMap_singleton]
    have hrounds : weightItems [v] ≤ weight v := Nat.le_refl _
    exact ⟨by rw [walkFor_eq _ _ _ hrounds, hwalk], hwalk⟩
  · have hlast := ofOutput_lastWith output sources index hsources h k
    refine ⟨found_iff_inside output sources index hsources h k, hlast, fun n hn => ?_⟩
    rw [hn, Option.map_some] at hlast
    exact isLastVisited_of_lastWith k _ n.record hlast.symm

end Index

/-- The object that keeps its id in the tree below, for it is written first. -/
def firstNamesake : Record := [("id", .int 7), ("name", .str "first")]

/-- A tree in which three objects have one id, the last of them inside the second. -/
def namesakesTree : Record :=
  [("id", .int 1), ("nodes", .arr [.obj firstNamesake,
    .obj [("id", .real (.finite 7)), ("name", .str "second"),
      ("body", .obj [("id", .int 7), ("name", .str "third")])]])]

/-- A tree whose id is that of the tree before it, spelt as a truth value. -/
def sequelTree : Record := [("id", .bool true), ("nodes", .arr [])]

/-- The sources of a build with both trees. -/
def namesakesSources : Record :=
  [("a.sol", .obj [("id", .int 7), ("ast", .obj namesakesTree)]),
    ("b.sol", .obj [("id", .int 1), ("ast", .obj sequelTree)])]

/-- Of the objects beside each other the first one keeps the id, and of the trees the second one. -/
theorem ofOutput_lastVisited_namesakes :
    ∃ index, Index.ofOutput (.obj [("sources", .obj namesakesSources)]) = .ok index ∧
      (index.nodes.find? (.number 7)).map (·.record) = some firstNamesake ∧
      (index.nodes.find? (.number 1)).map (·.record) = some sequelTree ∧
      IsLastVisited (treesOf namesakesSources) (.number 7) firstNamesake := by
  have hindex : ∃ index, Index.ofOutput (.obj [("sources", .obj namesakesSources)]) = .ok index :=
    ⟨_, by with_unfolding_all rfl⟩
  rcases hindex with ⟨index, hindex⟩
  -- What stands under a key follows from the general statement: of the two keys only the lists of
  -- visits are evaluated.
  have hlast := Index.ofOutput_lastVisited.2 _ namesakesSources index rfl hindex
  have hfirst : (index.nodes.find? (.number 7)).map (·.record) = some firstNamesake :=
    (hlast (.number 7)).2.1.trans (by with_unfolding_all rfl)
  have hsequel : (index.nodes.find? (.number 1)).map (·.record) = some sequelTree :=
    (hlast (.number 1)).2.1.trans (by with_unfolding_all rfl)
  rcases Option.map_eq_some_iff.mp hfirst with ⟨n, hn, hrecord⟩
  exact ⟨index, hindex, hfirst, hsequel, hrecord ▸ (hlast (.number 7)).2.2 n hn⟩

end StorageLayout.Ast
