import StorageLayout.Proofs.Declaration
import StorageLayout.Proofs.Occurrence

/-!
# Sources That Give the Same Answers

When two sources lead the resolver to the same outcome, errors included.

`Simulation` follows two encodings that have only the shapes of types in common, and nothing in it
may fail but the depth. Here the two sources are of one kind and differ in what else they hold: one
build and a part of it, or a build that is written down in another order, or under other ids. Then
everything that a declaration says carries over, and so do the errors, as far as the comparison asks
for them.

What is to carry over is a parameter. `D` relates declarations, `L` the labels of nodes without a
name, and `N` the nodes that are made. The two runs go in lockstep (`IsLockstep`) if under the keys
of related declarations the sources have related declarations again, up to what `Tracks` lets the
two runs disagree about. This is kept by one step of the resolver (`expand_lockstep`), and so by a
run on any budget (`resolve_lockstep`), because the budget is spent in the same places.

The most frequent case is that each value of a declaration has its counterpart in the other one:
`Q` relates the values, `S` the shapes. `Answers` is what then has to be known of the sources.

## Main definitions

* `Replies`, `IsLockstep`: Two sources have related declarations under related keys.
* `SameSaid`, `SameDeclaration`: Two nodes, or two declarations, that say related things.
* `IsCongruence`: A relation between trees that is kept node by node.
* `Answers`: Two sources answer alike under the keys of two shapes.

## Theorems

* `expand_eq`: A step of the resolver, by what it puts below the node.
* `expand_lockstep`, `resolve_lockstep`, `layoutOf_lockstep`: A step, a run, and a layout.
* `isCongruence_eq`: Equality of trees is kept node by node.
* `isLockstep_answers`: Sources that answer alike go in lockstep.
* `layoutOf_answers`: Layouts of sources that answer alike.
-/

namespace StorageLayout

/-- A shape put into a declaration changes nothing of what its node says. -/
@[simp]
theorem facts_withShape (d : Declaration) (s : Shape) : (d.withShape s).facts = d.facts := by
  cases s <;> rfl

/-! ## Steps in lockstep -/

/-- What the resolver puts below the node of a declaration of a shape. -/
def nodesBelow (source : Source) (r : List Declaration → Except Error (List TypeReference)) :
    Shape → Except Error (Option (List TypeReference))
  | .elementary => .ok none
  | .struct members => do
    let nodes ← source.members members >>= r
    return some nodes
  | .mapping keyType value => do
    let label ← keyLabel keyType
    let nodes ← elementForest source r value label
    return some nodes
  | .fixedArray _ element | .dynamicArray element => do
    let nodes ← elementForest source r element (.str "[]")
    return some nodes

/-- A step of the resolver: the node says what its declaration does, whatever stands below it. -/
theorem expand_eq (source : Source) (r : List Declaration → Except Error (List TypeReference))
    (d : Declaration) :
    expand source r d = nodesBelow source r d.shape >>= fun t => pure (.node d.nodeFacts t) := by
  unfold expand Declaration.nodeFacts
  cases d.shape with
  | elementary => rfl
  | struct members => simp only [nodesBelow, bind_assoc, pure_bind]
  | fixedArray length element => simp only [nodesBelow, bind_assoc, pure_bind]
  | dynamicArray element => simp only [nodesBelow, bind_assoc, pure_bind]
  | mapping keyType value => simp only [nodesBelow, bind_assoc, pure_bind]

section Replying

variable (cut : Error → Prop) (faults : Error → Error → Prop)
variable (D : Declaration → Declaration → Prop) (L : Json → Json → Prop) (source source' : Source)

/-- Two sources have related declarations under the keys of two shapes of one kind. -/
inductive Replies : Shape → Shape → Prop
  | elementary : Replies .elementary .elementary
  | struct {m m' : Json}
      (h : Tracks cut faults (List.Forall₂ D) (source.members m) (source'.members m')) :
      Replies (.struct m) (.struct m')
  | fixedArray {length length' e e' : Json}
      (h : Tracks cut faults D (source.element e) (source'.element e')) :
      Replies (.fixedArray length e) (.fixedArray length' e')
  | dynamicArray {e e' : Json}
      (h : Tracks cut faults D (source.element e) (source'.element e')) :
      Replies (.dynamicArray e) (.dynamicArray e')
  | mapping {k k' v v' : Json} (hlabel : Tracks cut faults L (keyLabel k) (keyLabel k'))
      (h : Tracks cut faults D (source.element v) (source'.element v')) :
      Replies (.mapping k v) (.mapping k' v')

/-- The resolver goes through two sources in lockstep. -/
structure IsLockstep (N : TypeReference → TypeReference → Prop) : Prop where
  constant : ∀ d d', D d d' → d.constant = d'.constant
  replies : ∀ d d', D d d' → Replies cut faults D L source source' d.shape d'.shape
  /-- The label of an element that is reached through an array. -/
  label : L (.str "[]") (.str "[]")
  relabel : ∀ d d' l l', D d d' → L l l' → D { d with label := l } { d' with label := l' }
  node : ∀ d d' t t', D d d' → Option.Rel (List.Forall₂ N) t t' →
    N (.node d.nodeFacts t) (.node d'.nodeFacts t')
  /-- Both runs use up their budget at once. -/
  deep : ∀ limit, faults (.nestedTooDeep limit) (.nestedTooDeep limit)

end Replying

section Lockstep

variable {cut : Error → Prop} {faults : Error → Error → Prop}
variable {D : Declaration → Declaration → Prop} {L : Json → Json → Prop} {source source' : Source}
variable {N : TypeReference → TypeReference → Prop}
variable (h : IsLockstep cut faults D L source source' N)

section Step

variable {r r' : List Declaration → Except Error (List TypeReference)}
variable (hr : ∀ ds ds', List.Forall₂ D ds ds' →
  Tracks cut faults (List.Forall₂ N) (r ds) (r' ds'))

include h hr

/-- The forests for two elements are related, if the elements and the labels are. -/
theorem elementForest_lockstep (key key' label label' : Json) (hlabel : L label label')
    (helement : Tracks cut faults D (source.element key) (source'.element key')) :
    Tracks cut faults (List.Forall₂ N) (elementForest source r key label)
      (elementForest source' r' key' label') := by
  refine Tracks.bind helement (fun d d' hd => ?_)
  -- An array or a mapping as element goes on as one declaration, under another label.
  have hsingle : Tracks cut faults (List.Forall₂ N) (r [{ d with label }])
      (r' [{ d' with label := label' }]) :=
    hr _ _ (List.Forall₂.cons (h.relabel d d' label label' hd hlabel) List.Forall₂.nil)
  have hreplies := h.replies d d' hd
  generalize d.shape = a at hreplies
  generalize d'.shape = b at hreplies
  cases hreplies with
  | elementary => exact List.Forall₂.nil
  | struct hmembers => exact Tracks.bind hmembers hr
  | fixedArray _ => exact hsingle
  | dynamicArray _ => exact hsingle
  | mapping _ _ => exact hsingle

/-- One node with what is below it. -/
theorem expand_lockstep (d d' : Declaration) (hd : D d d') :
    Tracks cut faults N (expand source r d) (expand source' r' d') := by
  have helement := elementForest_lockstep h hr
  have hbelow : Tracks cut faults (Option.Rel (List.Forall₂ N)) (nodesBelow source r d.shape)
      (nodesBelow source' r' d'.shape) := by
    have hreplies := h.replies d d' hd
    -- The shapes answer each other, so the case of one is the case of the other.
    generalize d.shape = a at hreplies
    generalize d'.shape = b at hreplies
    cases hreplies with
    | elementary => exact Option.Rel.none
    | struct hmembers => exact Tracks.map (Tracks.bind hmembers hr) (fun _ _ => .some)
    | fixedArray he => exact Tracks.map (helement _ _ _ _ h.label he) (fun _ _ => .some)
    | dynamicArray he => exact Tracks.map (helement _ _ _ _ h.label he) (fun _ _ => .some)
    | mapping hlabel he =>
        refine Tracks.bind hlabel (fun label label' hll => ?_)
        exact Tracks.map (helement _ _ _ _ hll he) (fun _ _ => .some)
  -- A node is made of its own facts and of what is below it.
  rw [expand_eq, expand_eq]
  exact Tracks.map hbelow (fun t t' ht => h.node d d' t t' hd ht)

end Step

include h

/-- Runs on one budget. Constants are left out on both sides, and the budget ends on both. -/
theorem resolve_lockstep (limit : Json) (budget : Nat) :
    ∀ ds ds', List.Forall₂ D ds ds' →
      Tracks cut faults (List.Forall₂ N) (resolve source limit budget ds)
        (resolve source' limit budget ds') := by
  -- The run on one level less is the run that `expand` is given.
  induction budget with
  | zero => exact fun _ _ _ => Or.inr (h.deep limit)
  | succ b ih =>
      intro ds ds' hds
      have hstored : List.Forall₂ D (ds.filter (!·.constant)) (ds'.filter (!·.constant)) := by
        refine List.rel_filter (fun d d' hd => ?_) hds
        change (!d.constant) = true ↔ (!d'.constant) = true
        rw [h.constant d d' hd]
      exact Tracks.mapM hstored (expand_lockstep h ih)

/-- The layouts of a contract are related, if its variables are. -/
theorem layoutOf_lockstep (fullName : String) (limit : DepthLimit)
    (hrange : faults (.depthOutOfRange limit.written) (.depthOutOfRange limit.written))
    (hstorage : Tracks cut faults (List.Forall₂ D) (source.storage fullName)
      (source'.storage fullName)) :
    Tracks cut faults (List.Forall₂ N) (layoutOf source fullName limit)
      (layoutOf source' fullName limit) := by
  rw [layoutOf, layoutOf]
  split
  · exact Tracks.bind hstorage (resolve_lockstep h limit.written (limit.budget 0))
  · exact Or.inr hrange

end Lockstep

/-! ## Values that have their counterparts -/

/-- Two nodes that say related things. -/
structure SameSaid (Q : Json → Json → Prop) (f g : Facts) : Prop where
  name : Q f.name g.name
  type : Q f.type g.type
  typeName : Q f.typeName g.typeName
  id : Q f.id g.id
  visibility : Q f.visibility g.visibility
  slot : Q f.slot g.slot
  offset : Q f.offset g.offset
  length : Q f.length g.length
  keyType : Q f.keyType g.keyType

/-- Two declarations that say related things and have related shapes. -/
structure SameDeclaration (Q : Json → Json → Prop) (S : Shape → Shape → Prop)
    (d d' : Declaration) : Prop where
  facts : SameSaid Q d.facts d'.facts
  constant : d.constant = d'.constant
  shape : S d.shape d'.shape

/-- A relation between trees that holds if it holds below and the roots say related things. -/
structure IsCongruence (Q : Json → Json → Prop) (N : TypeReference → TypeReference → Prop) :
    Prop where
  /-- The labels that the resolver makes are the same on both sides. -/
  label : ∀ s, Q (.str s) (.str s)
  leaf : ∀ f g, SameSaid Q f g → N (.node f none) (.node g none)
  branch : ∀ f g xs ys, SameSaid Q f g → List.Forall₂ N xs ys →
    N (.node f (some xs)) (.node g (some ys))

/-- A node says what it says. -/
theorem SameSaid.refl {Q : Json → Json → Prop} (h : ∀ v, Q v v) (f : Facts) : SameSaid Q f f :=
  ⟨h _, h _, h _, h _, h _, h _, h _, h _, h _⟩

/-- Nodes that say equal things say the same. -/
theorem SameSaid.eq {f g : Facts} (h : SameSaid Eq f g) : f = g := by
  rcases f with ⟨name, type, typeName, id, visibility, slot, offset, length, keyType⟩
  rcases g with ⟨name', type', typeName', id', visibility', slot', offset', length', keyType'⟩
  rw [Facts.mk.injEq]
  exact ⟨h.name, h.type, h.typeName, h.id, h.visibility, h.slot, h.offset, h.length, h.keyType⟩

/-- Equal nodes over equal forests are equal trees. -/
theorem isCongruence_eq : IsCongruence Eq Eq where
  label _ := rfl
  leaf f g h := by rw [h.eq]
  branch f g xs ys h hxs := by
    rw [List.forall₂_eq_eq_eq] at hxs
    rw [h.eq, hxs]

section Answering

variable (cut : Error → Prop) (faults : Error → Error → Prop)
variable (Q : Json → Json → Prop) (S : Shape → Shape → Prop) (source source' : Source)

/-- Two sources answer alike under the keys of two shapes of one kind. -/
inductive Answers : Shape → Shape → Prop
  | elementary : Answers .elementary .elementary
  | struct {m m' : Json} (h : Tracks cut faults (List.Forall₂ (SameDeclaration Q S))
      (source.members m) (source'.members m')) : Answers (.struct m) (.struct m')
  | fixedArray {length length' e e' : Json} (hlength : Q length length')
      (h : Tracks cut faults (SameDeclaration Q S) (source.element e) (source'.element e')) :
      Answers (.fixedArray length e) (.fixedArray length' e')
  | dynamicArray {e e' : Json}
      (h : Tracks cut faults (SameDeclaration Q S) (source.element e) (source'.element e')) :
      Answers (.dynamicArray e) (.dynamicArray e')
  | mapping {k k' v v' : Json} (hkey : Q k k')
      (hlabel : Tracks cut faults Q (keyLabel k) (keyLabel k'))
      (h : Tracks cut faults (SameDeclaration Q S) (source.element v) (source'.element v')) :
      Answers (.mapping k v) (.mapping k' v')

end Answering

section Run

variable {cut : Error → Prop} {faults : Error → Error → Prop} (hf : ∀ e, faults e e)
variable {Q : Json → Json → Prop} {S : Shape → Shape → Prop}
variable {N : TypeReference → TypeReference → Prop} (hN : IsCongruence Q N)
variable {source source' : Source}
variable (hS : ∀ a b, S a b → Answers cut faults Q S source source' a b)

include hS

/-- The nodes of two declarations that say related things do so, too. -/
theorem sameSaid_nodeFacts (d d' : Declaration) (h : SameDeclaration Q S d d') :
    SameSaid Q d.nodeFacts d'.nodeFacts := by
  have hshape := hS d.shape d'.shape h.shape
  unfold Declaration.nodeFacts
  generalize d.shape = a at hshape
  generalize d'.shape = b at hshape
  -- Only arrays and mappings add a fact to those of the declaration.
  cases hshape with
  | elementary => exact h.facts
  | struct _ => exact h.facts
  | fixedArray hlength _ => exact { h.facts with length := hlength }
  | dynamicArray _ => exact h.facts
  | mapping hkey _ _ => exact { h.facts with keyType := hkey }

include hf hN

/-- Sources that answer alike go in lockstep. -/
theorem isLockstep_answers :
    IsLockstep cut faults (SameDeclaration Q S) Q source source' N where
  constant _ _ hd := hd.constant
  replies d d' hd := by
    have hshape := hS d.shape d'.shape hd.shape
    generalize d.shape = a at hshape
    generalize d'.shape = b at hshape
    cases hshape with
    | elementary => exact .elementary
    | struct hmembers => exact .struct hmembers
    | fixedArray _ he => exact .fixedArray he
    | dynamicArray he => exact .dynamicArray he
    | mapping _ hlabel he => exact .mapping hlabel he
  label := hN.label "[]"
  relabel d d' _ _ hd hlabel := ⟨{ hd.facts with name := hlabel }, hd.constant, hd.shape⟩
  node d d' t t' hd ht := by
    have hsaid := sameSaid_nodeFacts hS d d' hd
    -- A node has a list below it exactly if the other one has.
    cases ht with
    | none => exact hN.leaf _ _ hsaid
    | some hxs => exact hN.branch _ _ _ _ hsaid hxs
  deep _ := hf _

/-- The layouts of a contract follow, if its variables do. -/
theorem layoutOf_answers (fullName : String) (limit : DepthLimit)
    (h : Tracks cut faults (List.Forall₂ (SameDeclaration Q S)) (source.storage fullName)
      (source'.storage fullName)) :
    Tracks cut faults (List.Forall₂ N) (layoutOf source fullName limit)
      (layoutOf source' fullName limit) :=
  layoutOf_lockstep (isLockstep_answers hf hN hS) fullName limit (hf _) h

end Run

end StorageLayout
