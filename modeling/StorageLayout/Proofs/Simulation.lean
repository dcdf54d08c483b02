import StorageLayout.Proofs.Outcome
import StorageLayout.Resolver

/-!
# Sources That Say the Same

When two sources lead the resolver to the same layout.

The resolver sees of a type only its shape, and of a shape only its kind and what the source
answers to the keys in it. So two shapes of two sources are as good as each other if they are of
one kind, and the answers to their keys are again as good as each other, item by item. Types can
contain themselves, so this is no definition by recursion. Instead a relation between shapes is
given, and it has to be kept by one step of unfolding, `IsSimulation`.

The resolver can then be followed in lockstep (`resolve_alike`, by induction on the budget, which
is the same on both sides). One list of nodes is made where the other is, so the two runs meet the
limit in the same place, and as nothing else can fail, they end alike.

What the trees have in common is `Alike`. Nodes for variables have equal names. A node for an
element or a value is named by the node above it, and since the sources may write the type of a
mapping's keys differently, its name is compared with that and not across the trees.

## Main definitions

* `SameVariables`, `SameElements`, `Unfolds`: One step of unfolding.
* `IsSimulation`: A relation that unfolding keeps.
* `Alike`: Two trees with the same nodes in the same places.
* `SameForest`: Two forests whose roots are variables of the same names.
* `AtLimit`: Both runs end at the limit.

## Theorems

* `elementForest_alike`, `expand_alike`: One node with what is below it.
* `resolve_alike`: Runs on one budget end alike.
* `layoutOf_alike`: So do the layouts of a contract.
-/

namespace StorageLayout

/-- What two nodes have in common, names apart. -/
structure SameFacts (f g : Facts) : Prop where
  length : f.length = g.length
  keyType : f.keyType.isNull = g.keyType.isNull

/-- The name that a node gives to the single node for its element or value. -/
def anonymousName (f : Facts) : Json :=
  if f.keyType.isNull then .str "[]" else .str s!"[{f.keyType.display}]"

/-- Two trees with the same nodes in the same places. -/
inductive Alike : TypeReference → TypeReference → Prop
  | leaf {f g : Facts} (same : SameFacts f g) : Alike (.node f none) (.node g none)
  /-- Nodes for variables have equal names. -/
  | declared {f g : Facts} {xs ys : List TypeReference} (same : SameFacts f g)
      (names : xs.map (·.facts.name) = ys.map (·.facts.name)) (below : List.Forall₂ Alike xs ys) :
      Alike (.node f (some xs)) (.node g (some ys))
  /-- The node for an element or a value has the name that belongs to its own tree. -/
  | anonymous {f g : Facts} {x y : TypeReference} (same : SameFacts f g)
      (hx : x.facts.name = anonymousName f) (hy : y.facts.name = anonymousName g)
      (below : Alike x y) : Alike (.node f (some [x])) (.node g (some [y]))

/-- Two forests whose roots are variables of the same names. -/
def SameForest (xs ys : List TypeReference) : Prop :=
  List.Forall₂ (fun x y => x.facts.name = y.facts.name ∧ Alike x y) xs ys

/-- Two runs end at the limit. -/
def AtLimit (limit : Json) (e f : Error) : Prop :=
  e = .nestedTooDeep limit ∧ f = .nestedTooDeep limit

section Unfolding

variable (source source' : Source) (S : Shape → Shape → Prop)

/-- Two lists of declarations that agree on what occupies storage. -/
def SameVariables (ds ds' : List Declaration) : Prop :=
  List.Forall₂ (fun d d' => d.label = d'.label ∧ S d.shape d'.shape) (ds.filter (!·.constant))
    (ds'.filter (!·.constant))

/-- Two keys under which the sources have elements of related shapes. -/
def SameElements (key key' : Json) : Prop :=
  ∃ d d', source.element key = .ok d ∧ source'.element key' = .ok d' ∧
    d.constant = false ∧ d'.constant = false ∧ S d.shape d'.shape

/-- Two shapes of one kind, whose keys have related answers. -/
inductive Unfolds : Shape → Shape → Prop
  | elementary : Unfolds .elementary .elementary
  | struct {m m' : Json} {ds ds' : List Declaration} (hds : source.members m = .ok ds)
      (hds' : source'.members m' = .ok ds') (h : SameVariables S ds ds') :
      Unfolds (.struct m) (.struct m')
  | fixedArray {length e e' : Json} (h : SameElements source source' S e e') :
      Unfolds (.fixedArray length e) (.fixedArray length e')
  | dynamicArray {e e' : Json} (h : SameElements source source' S e e') :
      Unfolds (.dynamicArray e) (.dynamicArray e')
  | mapping {k k' v v' : Json} (hk : k.isNull = false ∧ k.isShowable = true)
      (hk' : k'.isNull = false ∧ k'.isShowable = true) (h : SameElements source source' S v v') :
      Unfolds (.mapping k v) (.mapping k' v')

/-- A relation between the shapes of two sources that unfolding keeps. -/
def IsSimulation : Prop := ∀ a b, S a b → Unfolds source source' S a b

end Unfolding

/-- Two nodes for two declarations: each has the label of its own for a name. -/
def NodesFor (d d' : Declaration) (x y : TypeReference) : Prop :=
  x.facts.name = d.label ∧ y.facts.name = d'.label ∧ Alike x y

/-- What two runs put below a node for an array or a mapping: the same variables, or one node that
is named as the node above it says. -/
def SameBelow (label label' : Json) (xs ys : List TypeReference) : Prop :=
  SameForest xs ys ∨ ∃ x y, xs = [x] ∧ ys = [y] ∧ x.facts.name = label ∧ y.facts.name = label' ∧
    Alike x y

/-- Two runs make nodes of lists alike, or end at the limit together. -/
structure ListsAlike (S : Shape → Shape → Prop) (limit : Json)
    (r r' : List Declaration → Except Error (List TypeReference)) : Prop where
  many : ∀ ds ds', SameVariables S ds ds' →
    Tracks (fun _ => False) (AtLimit limit) SameForest (r ds) (r' ds')
  /-- One declaration makes one node, whatever the labels. -/
  single : ∀ d d', d.constant = false → d'.constant = false → S d.shape d'.shape →
    Tracks (fun _ => False) (AtLimit limit)
      (fun xs ys => ∃ x y, xs = [x] ∧ ys = [y] ∧ NodesFor d d' x y) (r [d]) (r' [d'])

/-- A node over variables of the same names. -/
theorem alike_of_sameForest (f g : Facts) (same : SameFacts f g) (xs ys : List TypeReference)
    (h : SameForest xs ys) : Alike (.node f (some xs)) (.node g (some ys)) := by
  refine .declared same ?_ (h.imp (fun _ _ hxy => hxy.2))
  induction h with
  | nil => rfl
  | cons hxy _ ih => rw [List.map_cons, List.map_cons, hxy.1, ih]

/-- A node over what two runs have put below it. -/
theorem alike_of_sameBelow (f g : Facts) (same : SameFacts f g) (xs ys : List TypeReference)
    (h : SameBelow (anonymousName f) (anonymousName g) xs ys) :
    Alike (.node f (some xs)) (.node g (some ys)) := by
  cases h with
  | inl hforest => exact alike_of_sameForest f g same xs ys hforest
  | inr hone =>
      rcases hone with ⟨x, y, hxs, hys, hx, hy, hxy⟩
      rw [hxs, hys]
      exact .anonymous same hx hy hxy

section Lockstep

variable (source source' : Source) (S : Shape → Shape → Prop) (hS : IsSimulation source source' S)
variable (limit : Json) (r r' : List Declaration → Except Error (List TypeReference))
variable (hr : ListsAlike S limit r r')

include hS hr

/-- The shapes of two elements are shown alike. An array or a mapping as element becomes a list of a
single node. -/
theorem elementForest_alike (key key' label label' : Json)
    (h : SameElements source source' S key key') :
    Tracks (fun _ => False) (AtLimit limit) (SameBelow label label')
      (elementForest source r key label) (elementForest source' r' key' label') := by
  rcases h with ⟨d, d', hd, hd', hstored, hstored', hshape⟩
  have hsingle : Tracks (fun _ => False) (AtLimit limit) (SameBelow label label')
      (r [{ d with label }]) (r' [{ d' with label := label' }]) :=
    Tracks.imp (hr.single { d with label } { d' with label := label' } hstored hstored' hshape)
      (fun xs ys hxs => Or.inr hxs)
  have hunfolds := hS d.shape d'.shape hshape
  refine Tracks.bind_ok hd hd' ?_
  -- Only the shapes of the elements are looked at from here on.
  generalize d.shape = a at hunfolds
  generalize d'.shape = b at hunfolds
  cases hunfolds with
  | elementary => exact Or.inl List.Forall₂.nil
  | struct hds hds' hvariables =>
      refine Tracks.bind_ok hds hds' ?_
      exact Tracks.imp (hr.many _ _ hvariables) (fun xs ys hxs => Or.inl hxs)
  | fixedArray _ => exact hsingle
  | dynamicArray _ => exact hsingle
  | mapping _ _ _ => exact hsingle

/-- Two nodes of related shapes are made alike. -/
theorem expand_alike (d d' : Declaration) (hshape : S d.shape d'.shape) :
    Tracks (fun _ => False) (AtLimit limit) (NodesFor d d') (expand source r d)
      (expand source' r' d') := by
  have hunfolds := hS d.shape d'.shape hshape
  have hfacts : SameFacts d.facts d'.facts := ⟨rfl, rfl⟩
  have helement := elementForest_alike source source' S hS limit r r' hr
  simp only [expand]
  -- The facts keep the declarations, so the shapes can be told apart from them.
  generalize d.shape = a at hunfolds
  generalize d'.shape = b at hunfolds
  cases hunfolds with
  | elementary => exact ⟨rfl, rfl, .leaf hfacts⟩
  | struct hds hds' hvariables =>
      refine Tracks.map (Tracks.bind_ok hds hds' (hr.many _ _ hvariables)) (fun xs ys hxs => ?_)
      exact ⟨rfl, rfl, alike_of_sameForest _ _ hfacts xs ys hxs⟩
  | fixedArray helements =>
      refine Tracks.map (helement _ _ _ _ helements) (fun xs ys hxs => ?_)
      exact ⟨rfl, rfl, alike_of_sameBelow { d.facts with length := _ } { d'.facts with length := _ }
        ⟨rfl, rfl⟩ xs ys hxs⟩
  | dynamicArray helements =>
      refine Tracks.map (helement _ _ _ _ helements) (fun xs ys hxs => ?_)
      exact ⟨rfl, rfl, alike_of_sameBelow d.facts d'.facts hfacts xs ys hxs⟩
  | @mapping k k' v v' hk hk' helements =>
      have hname : ∀ (f : Facts) (key : Json), key.isNull = false →
          anonymousName { f with keyType := key } = .str s!"[{key.display}]" := by
        intro f key hkey
        rw [anonymousName, hkey, if_neg Bool.false_ne_true]
      refine Tracks.bind_ok (keyLabel_eq k hk.2) (keyLabel_eq k' hk'.2) ?_
      refine Tracks.map (helement v v' _ _ helements) (fun xs ys hxs => ?_)
      -- Each tree labels its node by the type of its own keys.
      refine ⟨rfl, rfl, alike_of_sameBelow { d.facts with keyType := k }
        { d'.facts with keyType := k' } ⟨rfl, hk.1.trans hk'.1.symm⟩ xs ys ?_⟩
      rw [hname _ k hk.1, hname _ k' hk'.1]
      exact hxs

end Lockstep

/-- Runs on one budget end alike, or both at the limit. -/
theorem resolve_alike (source source' : Source) (S : Shape → Shape → Prop)
    (hS : IsSimulation source source' S) (limit : Json) (budget : Nat) :
    ListsAlike S limit (resolve source limit budget) (resolve source' limit budget) := by
  induction budget with
  -- Both budgets are used up at once, and the limit is one.
  | zero => exact ⟨fun _ _ _ => Or.inr ⟨rfl, rfl⟩, fun _ _ _ _ _ => Or.inr ⟨rfl, rfl⟩⟩
  | succ b ih =>
      have hexpand := expand_alike source source' S hS limit _ _ ih
      refine ⟨fun ds ds' h => ?_, fun d d' hstored hstored' hshape => ?_⟩
      · refine Tracks.mapM h (fun d d' hdd' => Tracks.imp (hexpand d d' hdd'.2) ?_)
        intro x y hxy
        exact ⟨by rw [hxy.1, hxy.2.1, hdd'.1], hxy.2.2⟩
      · rw [resolve, resolve, List.filter_cons_of_pos (by rw [hstored]; rfl),
          List.filter_cons_of_pos (by rw [hstored']; rfl), List.mapM_cons, List.mapM_cons]
        exact Tracks.map (hexpand d d' hshape) (fun x y hxy => ⟨x, y, rfl, rfl, hxy⟩)

/-- Contracts with the same variables have layouts that are alike, unless types are nested too
deep; then they are so in both sources. -/
theorem layoutOf_alike (source source' : Source) (S : Shape → Shape → Prop)
    (hS : IsSimulation source source' S) (fullName : String) (limit : DepthLimit)
    (hlimit : limit.inRange = true) (ds ds' : List Declaration)
    (hds : source.storage fullName = .ok ds) (hds' : source'.storage fullName = .ok ds')
    (h : SameVariables S ds ds') :
    Tracks (fun _ => False) (AtLimit limit.written) SameForest (layoutOf source fullName limit)
      (layoutOf source' fullName limit) := by
  rw [layoutOf, layoutOf, if_pos hlimit, if_pos hlimit]
  refine Tracks.bind_ok hds hds' ?_
  exact (resolve_alike source source' S hS limit.written (limit.budget 0)).many ds ds' h

end StorageLayout
