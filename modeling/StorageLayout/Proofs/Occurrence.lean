import Mathlib.Data.List.Forall2
import StorageLayout.Proofs.Outcome
import StorageLayout.Resolver

/-!
# Where the Nodes of a Layout Come From

Every node of a layout is the node of one declaration, and the tree tells of which.

The resolver makes lists of nodes out of lists of declarations. There are three places where such
a list comes from: the variables of the contract, the members of a struct, and a nested array or
mapping, which goes back into the resolver as a single declaration under another label. `Below` says
which of them a node has below it, one rule for each case of a type and its element, and
`expand_eq_ok` takes a successful step apart by these rules. The struct whose members stand below a
node is its own type or the type of its element; `HasMembersOf` is both.

`Occurs` follows this down from the roots. It relates a node to the declaration that it is made of
and to the place where that stands, be it the position in a list of declarations or an element
without a name, and it does not mention the resolver. That it misses no node is `occurs_of_at`, and
that nodes and declarations belong together is `expand_of_occurs`: the node is what a step of the
resolver makes of the declaration, on a budget that is smaller by the depth.

## Main definitions

* `At`: A node stands in a forest at a depth.
* `Below`: What a node has below it, by the shape of its declaration.
* `HasMembersOf`: The struct whose members stand below a node.
* `Origin`, `Occurs`: A node with its declaration and where that comes from.

## Theorems

* `expand_eq_ok`, `resolve_eq_ok`: A step and a run of the resolver, taken apart.
* `below_members`, `below_elementary`, `below_composite`: Which rule has been used for a node.
* `expand_of_occurs`: What occurs is made by the resolver.
* `occurs_of_at`: Every node occurs.
* `occurs_below`: Every node below one that occurs does.
-/

namespace StorageLayout

/-- The declarations that occupy storage. -/
def stored (ds : List Declaration) : List Declaration := ds.filter (!·.constant)

namespace Shape

/-- The key of an array's element or of a mapping's value. -/
def element? : Shape → Option Json
  | .fixedArray _ element => some element
  | .dynamicArray element => some element
  | .mapping _ value => some value
  | .struct _ => none
  | .elementary => none

/-- The label of the node for an element that is an array or a mapping itself. -/
def elementLabel : Shape → Except Error Json
  | .mapping keyType _ => keyLabel keyType
  | _ => .ok (.str "[]")

end Shape

namespace Declaration

/-- What the node of a declaration says, with the length or the type of the keys. -/
def nodeFacts (d : Declaration) : Facts :=
  match d.shape with
  | .fixedArray length _ => { d.facts with length }
  | .mapping keyType _ => { d.facts with keyType }
  | _ => d.facts

@[simp]
theorem nodeFacts_name (d : Declaration) : d.nodeFacts.name = d.label := by
  unfold nodeFacts
  cases d.shape <;> rfl

@[simp]
theorem nodeFacts_type (d : Declaration) : d.nodeFacts.type = d.type := by
  unfold nodeFacts
  cases d.shape <;> rfl

@[simp]
theorem nodeFacts_typeName (d : Declaration) : d.nodeFacts.typeName = d.typeName := by
  unfold nodeFacts
  cases d.shape <;> rfl

@[simp]
theorem nodeFacts_id (d : Declaration) : d.nodeFacts.id = d.id := by
  unfold nodeFacts
  cases d.shape <;> rfl

@[simp]
theorem nodeFacts_visibility (d : Declaration) : d.nodeFacts.visibility = d.visibility := by
  unfold nodeFacts
  cases d.shape <;> rfl

@[simp]
theorem nodeFacts_slot (d : Declaration) : d.nodeFacts.slot = d.slot := by
  unfold nodeFacts
  cases d.shape <;> rfl

@[simp]
theorem nodeFacts_offset (d : Declaration) : d.nodeFacts.offset = d.offset := by
  unfold nodeFacts
  cases d.shape <;> rfl

theorem nodeFacts_length (d : Declaration) : d.nodeFacts.length =
    match d.shape with
    | .fixedArray length _ => length
    | _ => .null := by
  unfold nodeFacts
  cases d.shape <;> rfl

theorem nodeFacts_keyType (d : Declaration) : d.nodeFacts.keyType =
    match d.shape with
    | .mapping keyType _ => keyType
    | _ => .null := by
  unfold nodeFacts
  cases d.shape <;> rfl

end Declaration

/-- A node stands in a forest at a depth. The roots are at depth zero. -/
inductive At (forest : List TypeReference) : Nat → TypeReference → Prop
  | root {x : TypeReference} (h : x ∈ forest) : At forest 0 x
  | child {n : Nat} {x y : TypeReference} {ys : List TypeReference} (h : At forest n x)
      (hys : x.subType = some ys) (hy : y ∈ ys) : At forest (n + 1) y

/-- The members of the struct with a key stand below a node of a shape: it is the struct, or an
array or a mapping of it. -/
inductive HasMembersOf (source : Source) : Shape → Json → Prop
  | self {m : Json} : HasMembersOf source (.struct m) m
  | element {s : Shape} {key m : Json} {e : Declaration} (hkey : s.element? = some key)
      (he : source.element key = .ok e) (hshape : e.shape = .struct m) : HasMembersOf source s m

/-- A shape has one element. -/
theorem elementOf_unique {source : Source} {s : Shape} {key key' : Json} {e e' : Declaration}
    (hkey : s.element? = some key) (he : source.element key = .ok e)
    (hkey' : s.element? = some key') (he' : source.element key' = .ok e') : e = e' := by
  rw [hkey] at hkey'
  injection hkey' with hkey'
  rw [← hkey', he] at he'
  injection he'

namespace HasMembersOf

variable {source : Source} {s : Shape} {m : Json}

/-- An element whose members stand below a node is that struct. -/
theorem element_shape (h : HasMembersOf source s m) {key : Json} {e : Declaration}
    (hkey : s.element? = some key) (he : source.element key = .ok e) : e.shape = .struct m := by
  cases h with
  | self => exact absurd hkey (by simp only [Shape.element?, reduceCtorEq, not_false_eq_true])
  | element hkey' he' hshape => rw [elementOf_unique hkey he hkey' he', hshape]

/-- The members of one struct stand below a node. -/
theorem unique (h : HasMembersOf source s m) {m' : Json} (h' : HasMembersOf source s m') :
    m = m' := by
  cases h' with
  | self =>
      cases h with
      | self => rfl
      | element hkey _ _ =>
          exact absurd hkey (by simp only [Shape.element?, reduceCtorEq, not_false_eq_true])
  | element hkey he hshape =>
      rw [h.element_shape hkey he] at hshape
      injection hshape

end HasMembersOf

section Steps

variable (source : Source) (r : List Declaration → Except Error (List TypeReference))

/-- What a node has below it, by the shape of its declaration. `r` makes the nodes of
declarations. -/
inductive Below : Shape → Option (List TypeReference) → Prop
  | elementary : Below .elementary none
  /-- A struct, or an array or a mapping of one. -/
  | members {s : Shape} {m : Json} {ds : List Declaration} {ys : List TypeReference}
      (hm : HasMembersOf source s m) (hds : source.members m = .ok ds) (h : r ds = .ok ys) :
      Below s (some ys)
  /-- An array or a mapping of an elementary type. -/
  | ofElementary {s : Shape} {key : Json} {e : Declaration} (hkey : s.element? = some key)
      (he : source.element key = .ok e) (hshape : e.shape = .elementary) : Below s (some [])
  /-- An array or a mapping of arrays or mappings. -/
  | ofComposite {s : Shape} {key inner label : Json} {e : Declaration} {ys : List TypeReference}
      (hkey : s.element? = some key) (hlabel : s.elementLabel = .ok label)
      (he : source.element key = .ok e) (hshape : e.shape.element? = some inner)
      (h : r [{ e with label }] = .ok ys) : Below s (some ys)

/-- The forest that describes an element comes below the array or the mapping. -/
theorem below_of_elementForest (s : Shape) (key label : Json) (ys : List TypeReference)
    (hkey : s.element? = some key) (hlabel : s.elementLabel = .ok label)
    (h : elementForest source r key label = .ok ys) : Below source r s (some ys) := by
  rcases (bind_eq_ok _ _ _).mp h with ⟨e, he, h⟩
  cases hshape : e.shape with
  | elementary =>
      rw [hshape] at h
      injection h with h
      rw [← h]
      exact .ofElementary hkey he hshape
  | struct m =>
      rw [hshape] at h
      rcases (bind_eq_ok _ _ _).mp h with ⟨ds, hds, h⟩
      exact .members (.element hkey he hshape) hds h
  -- An element that has an element itself is a node of its own, and there is one such node.
  | fixedArray length inner =>
      rw [hshape] at h
      exact .ofComposite hkey hlabel he (congrArg Shape.element? hshape) h
  | dynamicArray inner =>
      rw [hshape] at h
      exact .ofComposite hkey hlabel he (congrArg Shape.element? hshape) h
  | mapping keyType inner =>
      rw [hshape] at h
      exact .ofComposite hkey hlabel he (congrArg Shape.element? hshape) h

/-- A step of the resolver, taken apart. -/
theorem expand_eq_ok (d : Declaration) (x : TypeReference) (h : expand source r d = .ok x) :
    x.facts = d.nodeFacts ∧ Below source r d.shape x.subType := by
  have helement := below_of_elementForest source r d.shape
  unfold expand at h
  unfold Declaration.nodeFacts
  cases hshape : d.shape with
  | elementary =>
      rw [hshape] at h
      injection h with h
      rw [← h]
      exact ⟨rfl, .elementary⟩
  | struct m =>
      rw [hshape] at h
      rcases (bind_eq_ok _ _ _).mp h with ⟨ys, hys, h⟩
      rcases (bind_eq_ok _ _ _).mp hys with ⟨ds, hds, hys⟩
      injection h with h
      rw [← h]
      exact ⟨rfl, .members .self hds hys⟩
  -- For the shapes with an element, what is below the node is the shape of the element.
  | fixedArray length e =>
      rw [hshape] at h helement
      rcases (bind_eq_ok _ _ _).mp h with ⟨ys, hys, h⟩
      injection h with h
      rw [← h]
      exact ⟨rfl, helement e _ ys rfl rfl hys⟩
  | dynamicArray e =>
      rw [hshape] at h helement
      rcases (bind_eq_ok _ _ _).mp h with ⟨ys, hys, h⟩
      injection h with h
      rw [← h]
      exact ⟨rfl, helement e _ ys rfl rfl hys⟩
  | mapping keyType value =>
      rw [hshape] at h helement
      rcases (bind_eq_ok _ _ _).mp h with ⟨label, hlabel, h⟩
      rcases (bind_eq_ok _ _ _).mp h with ⟨ys, hys, h⟩
      injection h with h
      rw [← h]
      exact ⟨rfl, helement value label ys rfl hlabel hys⟩

/-- A run of the resolver, taken apart: it has had a level to spend, and every declaration that
occupies storage has become a node. -/
theorem resolve_eq_ok (limit : Json) (budget : Nat) (ds : List Declaration)
    (ys : List TypeReference) (h : resolve source limit budget ds = .ok ys) :
    ∃ b, budget = b + 1 ∧
      List.Forall₂ (fun d y => expand source (resolve source limit b) d = .ok y) (stored ds)
        ys := by
  cases budget with
  | zero => exact absurd h (by simp only [resolve, reduceCtorEq, not_false_eq_true])
  | succ b => exact ⟨b, rfl, mapM_items _ _ ys h⟩

end Steps

/-- Where the declaration of a node comes from. -/
inductive Origin where
  /-- A variable of the contract, by its position among those that occupy storage. -/
  | storage (i : Nat)
  /-- A member of the struct with a key, by its position. -/
  | member (m : Json) (i : Nat)
  /-- The element with a key, which has no name. -/
  | element (key : Json)

/-- A node at a depth of a contract's layout, with the declaration that it is made of and where that
comes from. -/
inductive Occurs (source : Source) (fullName : String) (forest : List TypeReference) :
    Nat → Origin → Declaration → TypeReference → Prop
  | storage {i : Nat} {ds : List Declaration} {d : Declaration} {x : TypeReference}
      (hds : source.storage fullName = .ok ds) (hd : (stored ds)[i]? = some d)
      (hx : forest[i]? = some x) : Occurs source fullName forest 0 (.storage i) d x
  | member {n i : Nat} {o : Origin} {d d' : Declaration} {x y : TypeReference} {m : Json}
      {ds : List Declaration} {ys : List TypeReference} (h : Occurs source fullName forest n o d x)
      (hm : HasMembersOf source d.shape m) (hds : source.members m = .ok ds)
      (hd : (stored ds)[i]? = some d') (hys : x.subType = some ys) (hy : ys[i]? = some y) :
      Occurs source fullName forest (n + 1) (.member m i) d' y
  | element {n : Nat} {o : Origin} {d e : Declaration} {x y : TypeReference}
      {key inner label : Json} {ys : List TypeReference}
      (h : Occurs source fullName forest n o d x)
      (hkey : d.shape.element? = some key) (hlabel : d.shape.elementLabel = .ok label)
      (he : source.element key = .ok e) (hshape : e.shape.element? = some inner)
      (hys : x.subType = some ys) (hy : y ∈ ys) :
      Occurs source fullName forest (n + 1) (.element key) { e with label } y

/-- Items at one position of two related lists are related. -/
theorem forall₂_getElem? {α β : Type} {R : α → β → Prop} {xs : List α} {ys : List β}
    (h : List.Forall₂ R xs ys) {i : Nat} {y : β} (hy : ys[i]? = some y) :
    ∃ x, xs[i]? = some x ∧ R x y := by
  induction h generalizing i with
  | nil => exact absurd hy (by simp only [List.getElem?_nil, reduceCtorEq, not_false_eq_true])
  | cons hab _ ih =>
      cases i with
      | zero =>
          injection hy with hy
          rw [← hy]
          exact ⟨_, rfl, hab⟩
      | succ j => exact ih hy

section Unique

variable {source : Source} {r : List Declaration → Except Error (List TypeReference)} {s : Shape}
variable {t : Option (List TypeReference)} (h : Below source r s t)

include h

/-- A node that has the members of a struct has all of them. -/
theorem below_members {m : Json} (hm : HasMembersOf source s m) :
    ∃ ds ys, source.members m = .ok ds ∧ r ds = .ok ys ∧ t = some ys := by
  cases h with
  | elementary =>
      cases hm with
      | element hkey _ _ =>
          exact absurd hkey (by simp only [Shape.element?, reduceCtorEq, not_false_eq_true])
  -- A shape has the members of one struct only. All other cases have none.
  | members hm' hds hys =>
      rw [← hm.unique hm'] at hds
      exact ⟨_, _, hds, hys, rfl⟩
  | ofElementary hkey he hshape =>
      rw [hm.element_shape hkey he] at hshape
      exact absurd hshape (by simp only [reduceCtorEq, not_false_eq_true])
  | ofComposite hkey _ he hshape _ =>
      rw [hm.element_shape hkey he] at hshape
      exact absurd hshape (by simp only [Shape.element?, reduceCtorEq, not_false_eq_true])

variable {key : Json} {e : Declaration}
variable (hkey : s.element? = some key) (he : source.element key = .ok e)

include hkey he

/-- An elementary element has no nodes. -/
theorem below_elementary (hshape : e.shape = .elementary) : t = some [] := by
  cases h with
  | elementary => exact absurd hkey (by simp only [Shape.element?, reduceCtorEq, not_false_eq_true])
  | members hm _ _ =>
      rw [hm.element_shape hkey he] at hshape
      exact absurd hshape (by simp only [reduceCtorEq, not_false_eq_true])
  | ofElementary _ _ _ => rfl
  | ofComposite hkey' _ he' hshape' _ =>
      rw [← elementOf_unique hkey he hkey' he', hshape] at hshape'
      exact absurd hshape' (by simp only [Shape.element?, reduceCtorEq, not_false_eq_true])

/-- A nested array or mapping goes back into the resolver as one declaration. -/
theorem below_composite {inner label : Json} (hlabel : s.elementLabel = .ok label)
    (hshape : e.shape.element? = some inner) :
    ∃ ys, r [{ e with label }] = .ok ys ∧ t = some ys := by
  cases h with
  | elementary => exact absurd hkey (by simp only [Shape.element?, reduceCtorEq, not_false_eq_true])
  -- An element that is composite is neither elementary nor a struct, and it is the only element.
  | members hm _ _ =>
      rw [hm.element_shape hkey he] at hshape
      exact absurd hshape (by simp only [Shape.element?, reduceCtorEq, not_false_eq_true])
  | ofElementary hkey' he' hshape' =>
      rw [elementOf_unique hkey he hkey' he', hshape'] at hshape
      exact absurd hshape (by simp only [Shape.element?, reduceCtorEq, not_false_eq_true])
  | ofComposite hkey' hlabel' he' _ hys =>
      rw [hlabel] at hlabel'
      injection hlabel' with hlabel'
      rw [elementOf_unique hkey he hkey' he', hlabel']
      exact ⟨_, hys, rfl⟩

end Unique

section Layout

variable {source : Source} {fullName : String} {limit : DepthLimit} {forest : List TypeReference}
variable (hlayout : layoutOf source fullName limit = .ok forest)

include hlayout

/-- A layout is made of the variables of the contract. -/
theorem layoutOf_eq_ok : ∃ ds, source.storage fullName = .ok ds ∧
    resolve source limit.written (limit.budget 0) ds = .ok forest := by
  unfold layoutOf at hlayout
  split at hlayout
  · exact (bind_eq_ok _ _ _).mp hlayout
  · exact absurd hlayout (by simp only [reduceCtorEq, not_false_eq_true])

/-- What occurs at a depth is made by the resolver, on a budget that is smaller by the depth. -/
theorem expand_of_occurs (n : Nat) (o : Origin) (d : Declaration) (x : TypeReference)
    (hx : Occurs source fullName forest n o d x) :
    ∃ b, limit.budget 0 = b + 1 + n ∧ expand source (resolve source limit.written b) d = .ok x := by
  -- One level down the node above was made by a run, and its children by the run inside it.
  induction hx with
  | storage hds hd hx =>
      rcases layoutOf_eq_ok hlayout with ⟨ds', hds', hforest⟩
      rw [hds] at hds'
      injection hds' with hds'
      rw [← hds'] at hforest
      rcases resolve_eq_ok source _ _ _ _ hforest with ⟨b, hb, hnodes⟩
      rcases forall₂_getElem? hnodes hx with ⟨d', hd', hexpand⟩
      rw [hd] at hd'
      injection hd' with hd'
      rw [hd']
      exact ⟨b, hb, hexpand⟩
  | member _ hm hds hd hys hy ih =>
      rcases ih with ⟨b, hb, hexpand⟩
      rcases below_members (expand_eq_ok source _ _ _ hexpand).2 hm with
        ⟨ds', ys', hds', hrun, hys'⟩
      rw [hds] at hds'
      injection hds' with hds'
      rw [hys] at hys'
      injection hys' with hys'
      rw [← hds', ← hys'] at hrun
      rcases resolve_eq_ok source _ _ _ _ hrun with ⟨c, hc, hnodes⟩
      rcases forall₂_getElem? hnodes hy with ⟨d', hd', hexpand'⟩
      rw [hd] at hd'
      injection hd' with hd'
      rw [hd']
      exact ⟨c, by omega, hexpand'⟩
  | element _ hkey hlabel he hshape hys hy ih =>
      rcases ih with ⟨b, hb, hexpand⟩
      rcases below_composite (expand_eq_ok source _ _ _ hexpand).2 hkey he hlabel hshape with
        ⟨ys', hrun, hys'⟩
      rw [hys] at hys'
      injection hys' with hys'
      rw [← hys'] at hrun
      rcases resolve_eq_ok source _ _ _ _ hrun with ⟨c, hc, hnodes⟩
      rcases List.mem_iff_getElem?.mp hy with ⟨i, hi⟩
      rcases forall₂_getElem? hnodes hi with ⟨d', hd', hexpand'⟩
      -- There is only the one declaration.
      have hmem := List.mem_of_getElem? hd'
      rw [List.mem_singleton.mp (List.mem_of_mem_filter hmem)] at hexpand'
      exact ⟨c, by omega, hexpand'⟩

/-- Every node below one that occurs does. -/
theorem occurs_below (n : Nat) (o : Origin) (d : Declaration) (x y : TypeReference)
    (ys : List TypeReference) (hx : Occurs source fullName forest n o d x)
    (hys : x.subType = some ys) (hy : y ∈ ys) :
    ∃ o' d', Occurs source fullName forest (n + 1) o' d' y := by
  rcases expand_of_occurs hlayout n o d x hx with ⟨b, _, hexpand⟩
  have hbelow := (expand_eq_ok source _ _ _ hexpand).2
  rw [hys] at hbelow
  rcases List.mem_iff_getElem?.mp hy with ⟨i, hi⟩
  -- How the list below the node was made says where the declaration of the item stands.
  generalize hs : d.shape = s at hbelow
  cases hbelow with
  | members hm hds h =>
      rw [← hs] at hm
      rcases resolve_eq_ok source _ _ _ _ h with ⟨c, _, hnodes⟩
      rcases forall₂_getElem? hnodes hi with ⟨d', hd', _⟩
      exact ⟨_, d', .member hx hm hds hd' hys hi⟩
  | ofElementary _ _ _ => exact absurd hy List.not_mem_nil
  | ofComposite hkey hlabel he hshape _ =>
      rw [← hs] at hkey hlabel
      exact ⟨_, _, .element hx hkey hlabel he hshape hys hy⟩

/-- Every node occurs. -/
theorem occurs_of_at (n : Nat) (x : TypeReference) (hx : At forest n x) :
    ∃ o d, Occurs source fullName forest n o d x := by
  induction hx with
  -- Roots are made from the storage of the contract, and all other nodes from the node above them.
  | root hx =>
      rcases layoutOf_eq_ok hlayout with ⟨ds, hds, hforest⟩
      rcases resolve_eq_ok source _ _ _ _ hforest with ⟨b, _, hnodes⟩
      rcases List.mem_iff_getElem?.mp hx with ⟨i, hi⟩
      rcases forall₂_getElem? hnodes hi with ⟨d, hd, _⟩
      exact ⟨_, d, .storage hds hd hi⟩
  | child _ hys hy ih =>
      rcases ih with ⟨o, d, hx⟩
      exact occurs_below hlayout _ o d _ _ _ hx hys hy

end Layout

end StorageLayout
