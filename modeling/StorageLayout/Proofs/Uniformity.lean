import StorageLayout.Proofs.Ast.Nodes
import StorageLayout.Proofs.DepthLimit
import StorageLayout.Proofs.Emitted.Reading
import StorageLayout.Proofs.Occurrence

/-!
# A Type Looks the Same Everywhere

Two nodes of one type have the same tree below them, wherever they stand.

A type that occurs several times is expanded anew at each place, with fewer levels left the deeper
it stands, and by different ways: as the type of a variable or member, as an element whose members
stand directly below the array, or as an element with a node of its own. Two facts make this
harmless. A run that has succeeded did not notice its budget, so what stands below a node depends on
the shape of its declaration only (`below_unique`). And the shape depends on the type only, for
entries and for elements alike (`shape_alike`).

The comparison is between two layouts of one source, so it covers different contracts and different
limits, too. Types are equal if their keys are, which values of different kinds can have; they lead
to one record.

## Main definitions

* `IsArrayOf`, `IsStruct`: What the table of an emitted layout says of a type.

## Theorems

* `resolve_unique`: Runs that succeed give the same nodes on all budgets.
* `below_unique`, `below_eq_of_members`: Nodes of one shape, and those with the members of one
  struct.
* `shape_alike`: Declarations of one type have one shape, up to how the key of a struct is written.
* `layoutOf_uniform`: A type looks the same everywhere.
-/

namespace StorageLayout

/-- Runs that succeed give the same nodes, whatever their budgets. -/
theorem resolve_unique (source : Source) (v w : Json) (b c : Nat) (ds : List Declaration)
    (xs ys : List TypeReference) (hx : resolve source v b ds = .ok xs)
    (hy : resolve source w c ds = .ok ys) : xs = ys := by
  have hends : ∀ u n zs, resolve source u n ds = .ok zs →
      resolve source u n ds ≠ .error (.nestedTooDeep u) := by
    intro u n zs hzs he
    rw [hzs] at he
    exact absurd he (by simp only [reduceCtorEq, not_false_eq_true])
  -- The run on the smaller budget has not been cut off, so the greater budget changes nothing.
  rcases Nat.le_total b c with hbc | hcb
  · have h := resolve_eq_of_not_cut source v w b (c - b) ds (hends v b xs hx)
    rw [Nat.sub_add_cancel hbc, hx, hy] at h
    injection h with h
    exact h.symm
  · have h := resolve_eq_of_not_cut source w v c (b - c) ds (hends w c ys hy)
    rw [Nat.sub_add_cancel hcb, hx, hy] at h
    injection h

section Below

variable {source : Source} {v w : Json} {b c : Nat} {s s' : Shape}
variable {t t' : Option (List TypeReference)}

/-- Two nodes with the members of one struct have the same nodes below them. -/
theorem below_eq_of_members {m m' : Json} (h : Below source (resolve source v b) s t)
    (h' : Below source (resolve source w c) s' t') (hm : HasMembersOf source s m)
    (hm' : HasMembersOf source s' m')
    (hsame : ∀ ds, source.members m = .ok ds → source.members m' = .ok ds) : t = t' := by
  rcases below_members h hm with ⟨ds, xs, hds, hxs, ht⟩
  rcases below_members h' hm' with ⟨ds', ys, hds', hys, ht'⟩
  rw [hsame ds hds] at hds'
  injection hds' with hds'
  rw [← hds'] at hys
  rw [ht, ht', resolve_unique source v w b c ds xs ys hxs hys]

/-- Two nodes of one shape have the same nodes below them. -/
theorem below_unique (h : Below source (resolve source v b) s t)
    (h' : Below source (resolve source w c) s t') : t = t' := by
  cases h with
  -- An elementary shape has no element, so nothing else can be below it.
  | elementary =>
      cases h' with
      | elementary => rfl
      | members hm _ _ =>
          cases hm with
          | element hkey _ _ =>
              exact absurd hkey (by simp only [Shape.element?, reduceCtorEq, not_false_eq_true])
      | ofElementary hkey _ _ =>
          exact absurd hkey (by simp only [Shape.element?, reduceCtorEq, not_false_eq_true])
      | ofComposite hkey _ _ _ _ =>
          exact absurd hkey (by simp only [Shape.element?, reduceCtorEq, not_false_eq_true])
  | members hm hds hrun =>
      exact below_eq_of_members (.members hm hds hrun) h' hm hm fun _ hds => hds
  | ofElementary hkey he hshape => exact (below_elementary h' hkey he hshape).symm
  -- The one node for the element is made of the same declaration both times.
  | ofComposite hkey hlabel he hshape hrun =>
      rcases below_composite h' hkey he hlabel hshape with ⟨ys, hys, ht'⟩
      rw [ht', resolve_unique source v w b c _ _ ys hrun hys]

end Below

namespace Emitted

/-- A record describes one shape, up to how the key of a struct is written. -/
theorem shape_of_key (key key' : Json) (record : Record) (s s' : Shape)
    (hkey : key.key? = key'.key?) (hs : shape key record = .ok s)
    (hs' : shape key' record = .ok s') :
    s = s' ∨ (s = .struct key ∧ s' = .struct key') := by
  unfold shape at hs hs'
  simp only at hs hs'
  cases hmapping : (record.get "encoding").isText "mapping" with
  | true =>
      rw [hmapping, if_pos rfl] at hs hs'
      rw [hs] at hs'
      injection hs' with hs'
      exact Or.inl hs'
  | false =>
      rw [hmapping, if_neg Bool.false_ne_true] at hs hs'
      cases hbase : record.find? "base" with
      | some base =>
          rw [hbase] at hs hs'
          simp only at hs hs'
          split at hs
          · rename_i hdynamic
            rw [if_pos hdynamic, hs] at hs'
            injection hs' with hs'
            exact Or.inl hs'
          · rename_i hdynamic
            rw [if_neg hdynamic] at hs'
            -- The length is read from the key, which is a text then.
            rcases (bind_eq_ok _ _ _).mp hs with ⟨length, hlength, _⟩
            rcases (bind_eq_ok _ _ _).mp hlength with ⟨text, htext, _⟩
            have hstr : key = .str text := by
              cases key with
              | str u =>
                  injection htext with htext
                  rw [htext]
              | _ =>
                  exact absurd htext (by simp only [Json.asText, Defect.fail, reduceCtorEq,
                    not_false_eq_true])
            rw [hstr] at hkey
            rw [key'.eq_str_of_key? text hkey.symm, ← hstr, hs] at hs'
            injection hs' with hs'
            exact Or.inl hs'
      | none =>
          rw [hbase] at hs hs'
          simp only at hs hs'
          split at hs
          · rename_i hmembers
            rw [if_pos hmembers] at hs'
            injection hs with hs
            injection hs' with hs'
            exact Or.inr ⟨hs.symm, hs'.symm⟩
          · rename_i hmembers
            rw [if_neg hmembers, hs] at hs'
            injection hs' with hs'
            exact Or.inl hs'

namespace Index

variable (index : Index)

/-- The type with a key is an array or a mapping of the type with another one. -/
def IsArrayOf (key other : Json) : Prop :=
  ∃ d, index.element key = .ok d ∧ d.shape.element? = some other

/-- The type with a key is a struct. -/
def IsStruct (key : Json) : Prop := ∃ d m, index.element key = .ok d ∧ d.shape = .struct m

/-- Values that are one key lead to one record. -/
theorem typeRecord_of_key (key key' record : Json) (hkey : key.key? = key'.key?)
    (h : index.typeRecord key = .ok record) : index.typeRecord key' = .ok record := by
  rcases (bind_eq_ok _ _ _).mp h with ⟨k, hk, h⟩
  rw [Json.asKey_eq_ok_iff, hkey, ← Json.asKey_eq_ok_iff] at hk
  rw [typeRecord, hk, ok_bind]
  -- A record is found by the key alone, and the two values have one key.
  cases hfound : index.types.find? k with
  | none =>
      rw [hfound] at h
      exact absurd h (by simp only [throw, throwThe, MonadExceptOf.throw, reduceCtorEq,
        not_false_eq_true])
  | some found =>
      rw [hfound] at h
      exact h

/-- Values that are one key lead to the members of one struct. -/
theorem members_of_key (key key' : Json) (ds : List Declaration) (hkey : key.key? = key'.key?)
    (h : index.members key = .ok ds) : index.members key' = .ok ds := by
  rcases (bind_eq_ok _ _ _).mp h with ⟨record, hrecord, h⟩
  have hfound := index.typeRecord_of_key key key' _ hkey (index.typeObject_eq_ok key record hrecord)
  rw [members, hfound]
  exact h

/-- Declarations of one type have one shape, or are two of one struct. -/
theorem shape_alike (d d' : Declaration) (hd : index.HasTypeShape d) (hd' : index.HasTypeShape d')
    (hkey : d.type.key? = d'.type.key?) :
    d.shape = d'.shape ∨ (d.shape = .struct d.type ∧ d'.shape = .struct d'.type) := by
  rcases hd with ⟨record, s, hrecord, hs, htold⟩
  rcases hd' with ⟨record', s', hrecord', hs', htold'⟩
  rw [index.typeRecord_of_key d.type d'.type _ hkey hrecord] at hrecord'
  injection hrecord' with hrecord'
  injection hrecord' with hrecord'
  rw [← hrecord'] at hs'
  rcases shape_of_key d.type d'.type record s s' hkey hs hs' with heq | ⟨hstruct, hstruct'⟩
  · rw [htold, htold', heq]
    exact Or.inl rfl
  · rw [htold, htold', hstruct, hstruct']
    -- A struct whose key is null is told as elementary, and then both keys are.
    have hnull : ∀ v : Json, v.isNull = true ↔ v.key? = some .null := by
      intro v
      cases v with
      | real x => cases x <;> simp [Json.isNull, Json.key?]
      | _ => simp [Json.isNull, Json.key?]
    rw [Shape.told, Shape.told]
    by_cases h : d.type.isNull = true
    · rw [if_pos h, if_pos ((hnull _).mpr (hkey ▸ (hnull _).mp h))]
      exact Or.inl rfl
    · rw [if_neg h, if_neg fun h' => h ((hnull _).mpr (hkey.trans ((hnull _).mp h')))]
      exact Or.inr ⟨rfl, rfl⟩

/-- A declaration that occurs in a layout has the shape of its type. -/
theorem hasTypeShape_of_occurs (fullName : String) (forest : List TypeReference) (n : Nat)
    (o : Origin) (d : Declaration) (x : TypeReference)
    (h : Occurs (.layout index) fullName forest n o d x) : index.HasTypeShape d := by
  have hread : ∀ (items : List Json) (ds : List Declaration) (i : Nat),
      List.Forall₂ (fun item d => index.entry item = .ok d) items ds →
      (stored ds)[i]? = some d → index.HasTypeShape d := by
    intro items ds i hds hd
    have hmem : d ∈ ds := List.mem_of_mem_filter (List.mem_of_getElem? hd)
    rcases List.mem_iff_getElem?.mp hmem with ⟨j, hj⟩
    rcases forall₂_getElem? hds hj with ⟨item, _, hitem⟩
    exact (index.entryRead item d hitem).hasTypeShape
  -- A declaration was read from an entry of the storage or of a struct, or made for an element.
  cases h with
  | storage hds hd _ =>
      rcases index.storage_eq_ok fullName _ hds with ⟨_, _, _, _, hitems⟩
      exact hread _ _ _ hitems hd
  | member _ _ hds hd _ _ =>
      rcases index.members_eq_ok _ _ hds with ⟨_, _, hitems⟩
      exact hread _ _ _ hitems hd
  | element _ _ _ he _ _ _ => exact (index.elementRead _ _ he).hasTypeShape.2

end Index

end Emitted

namespace Ast.Index

/-- Values that are one id lead to the members of one struct. -/
theorem members_of_key (index : Index) (id id' : Json) (ds : List Declaration)
    (hkey : id.key? = id'.key?) (h : index.members id = .ok ds) : index.members id' = .ok ds := by
  rcases (bind_eq_ok _ _ _).mp h with ⟨record, hrecord, h⟩
  rcases index.node_eq_ok id record hrecord with ⟨k, n, hk, hfound, hn⟩
  rw [hkey, ← Json.asKey_eq_ok_iff] at hk
  rw [members, node, hk, ok_bind, hfound, ← h, ← hn]
  rfl

end Ast.Index

/-- Two nodes, made by the resolver, with the members of one struct have the same nodes below
them. -/
theorem subType_eq_of_members {source : Source} {v w : Json} {b c : Nat} {d d' : Declaration}
    {x y : TypeReference} {m m' : Json} (hx : expand source (resolve source v b) d = .ok x)
    (hy : expand source (resolve source w c) d' = .ok y) (hm : HasMembersOf source d.shape m)
    (hm' : HasMembersOf source d'.shape m')
    (hsame : ∀ ds, source.members m = .ok ds → source.members m' = .ok ds) :
    x.subType = y.subType :=
  below_eq_of_members (expand_eq_ok source _ _ _ hx).2 (expand_eq_ok source _ _ _ hy).2 hm hm' hsame

namespace Emitted.Index

section Nodes

variable {index : Index} {v w : Json} {b c : Nat} {d d' : Declaration} {x y : TypeReference}
variable (hd : index.HasTypeShape d) (hd' : index.HasTypeShape d')
variable (hx : expand (.layout index) (resolve (.layout index) v b) d = .ok x)
variable (hy : expand (.layout index) (resolve (.layout index) w c) d' = .ok y)

include hd hd' hx hy

/-- Nodes of one type look the same. -/
theorem looks_same (hkey : d.type.key? = d'.type.key?) :
    x.facts.length = y.facts.length ∧ x.facts.keyType = y.facts.keyType ∧
      x.subType = y.subType := by
  rcases expand_eq_ok _ _ d x hx with ⟨hfacts, hbelow⟩
  rcases expand_eq_ok _ _ d' y hy with ⟨hfacts', hbelow'⟩
  rw [hfacts, hfacts', Declaration.nodeFacts_length, Declaration.nodeFacts_length,
    Declaration.nodeFacts_keyType, Declaration.nodeFacts_keyType]
  -- Of one type there is one shape. Only structs keep the key as it was written, and it counts by
  -- its value.
  rcases index.shape_alike d d' hd hd' hkey with heq | ⟨hstruct, hstruct'⟩
  · rw [heq] at hbelow ⊢
    exact ⟨rfl, rfl, below_unique hbelow hbelow'⟩
  · have hm : HasMembersOf (.layout index) d.shape d.type := hstruct ▸ .self
    have hm' : HasMembersOf (.layout index) d'.shape d'.type := hstruct' ▸ .self
    rw [hstruct, hstruct']
    exact ⟨rfl, rfl, subType_eq_of_members hx hy hm hm' fun ds hds =>
      index.members_of_key d.type d'.type ds hkey hds⟩

/-- An array of a struct shows what the struct shows. -/
theorem array_looks_same (key : Json) (harray : index.IsArrayOf d.type key)
    (hstruct : index.IsStruct key) (hkey : key.key? = d'.type.key?) : x.subType = y.subType := by
  rcases harray with ⟨t, ht, helement⟩
  rcases hstruct with ⟨e, m, he, hshape⟩
  rcases (index.elementRead d.type t ht).hasTypeShape with ⟨httype, htshape⟩
  rcases (index.elementRead key e he).hasTypeShape with ⟨hetype, heshape⟩
  -- The array has one shape as a declaration and as an element.
  have hsame : d.shape = t.shape := by
    rcases index.shape_alike d t hd htshape (by rw [httype]) with heq | ⟨_, hstruct⟩
    · exact heq
    · rw [hstruct] at helement
      exact absurd helement (by simp only [Shape.element?, reduceCtorEq, not_false_eq_true])
  have hm : HasMembersOf (.layout index) d.shape m := .element (hsame ▸ helement) he hshape
  rcases index.shape_alike e d' heshape hd' (by rw [hetype, hkey]) with heq | ⟨hself, hself'⟩
  · rw [hshape] at heq
    have hm' : HasMembersOf (.layout index) d'.shape m := heq ▸ .self
    exact subType_eq_of_members hx hy hm hm' fun _ hds => hds
  · rw [hshape] at hself
    injection hself with hself
    have hm' : HasMembersOf (.layout index) d'.shape d'.type := hself' ▸ .self
    exact subType_eq_of_members hx hy hm hm' fun ds hds =>
      index.members_of_key m d'.type ds (by rw [hself, hetype, hkey]) hds

end Nodes

end Emitted.Index

/-- A type looks the same everywhere, in all layouts of one source.

In emitted layouts two nodes of one type agree on the length, on the type of the keys and on
everything below them, and below an array or a mapping of a struct stands what stands below every
node of that struct. In syntax trees, whatever has the members of a struct below it, be it a
variable, a member, or an array or a mapping of the struct, has the same nodes there. -/
theorem layoutOf_uniform :
    (∀ (index : Emitted.Index) (fullName fullName' : String) (limit limit' : DepthLimit)
      (forest forest' : List TypeReference),
      layoutOf (.layout index) fullName limit = .ok forest →
      layoutOf (.layout index) fullName' limit' = .ok forest' →
      ∀ n n' x y, At forest n x → At forest' n' y →
        (x.facts.type.key? = y.facts.type.key? →
          x.facts.length = y.facts.length ∧ x.facts.keyType = y.facts.keyType ∧
            x.subType = y.subType) ∧
        ∀ key, index.IsArrayOf x.facts.type key → index.IsStruct key →
          key.key? = y.facts.type.key? → x.subType = y.subType) ∧
    ∀ (index : Ast.Index) (fullName fullName' : String) (limit limit' : DepthLimit)
      (forest forest' : List TypeReference),
      layoutOf (.ast index) fullName limit = .ok forest →
      layoutOf (.ast index) fullName' limit' = .ok forest' →
      ∀ n n' o o' d d' x y, Occurs (.ast index) fullName forest n o d x →
        Occurs (.ast index) fullName' forest' n' o' d' y →
        ∀ m m', HasMembersOf (.ast index) d.shape m → HasMembersOf (.ast index) d'.shape m' →
          m.key? = m'.key? → x.subType = y.subType := by
  refine ⟨?_, ?_⟩
  · intro index fullName fullName' limit limit' forest forest' h h' n n' x y hx hy
    -- Each node is brought back to its declaration, and the declarations are compared.
    rcases occurs_of_at h n x hx with ⟨o, d, hoccurs⟩
    rcases occurs_of_at h' n' y hy with ⟨o', d', hoccurs'⟩
    rcases expand_of_occurs h n o d x hoccurs with ⟨b, _, hexpand⟩
    rcases expand_of_occurs h' n' o' d' y hoccurs' with ⟨c, _, hexpand'⟩
    have hd := index.hasTypeShape_of_occurs fullName forest n o d x hoccurs
    have hd' := index.hasTypeShape_of_occurs fullName' forest' n' o' d' y hoccurs'
    -- The type of a node is the type of its declaration.
    rw [(expand_eq_ok _ _ d x hexpand).1, (expand_eq_ok _ _ d' y hexpand').1,
      Declaration.nodeFacts_type, Declaration.nodeFacts_type,
      ← (expand_eq_ok _ _ d x hexpand).1, ← (expand_eq_ok _ _ d' y hexpand').1]
    exact ⟨Emitted.Index.looks_same hd hd' hexpand hexpand',
      Emitted.Index.array_looks_same hd hd' hexpand hexpand'⟩
  · intro index fullName fullName' limit limit' forest forest' h h' n n' o o' d d' x y hx hy m m' hm
      hm' hkey
    rcases expand_of_occurs h n o d x hx with ⟨b, _, hexpand⟩
    rcases expand_of_occurs h' n' o' d' y hy with ⟨c, _, hexpand'⟩
    exact subType_eq_of_members hexpand hexpand' hm hm' fun ds hds =>
      index.members_of_key m m' ds hkey hds

/-- An emitted layout in which a struct stands by itself and in an array. -/
def lineLayout : Emitted.Index where
  contracts := [("a.sol:Line", .obj [("storageLayout", .obj [("storage", .arr [
    .obj [("label", .str "start"), ("type", .str "t_struct"), ("slot", .str "0")],
    .obj [("label", .str "stops"), ("type", .str "t_array"), ("slot", .str "1")]])])])]
  types := [
    (.text "t_bool", ⟨.str "t_bool", .obj [("encoding", .str "inplace")]⟩),
    (.text "t_struct", ⟨.str "t_struct", .obj [("members", .arr [
      .obj [("label", .str "x"), ("type", .str "t_bool"), ("slot", .str "0")]])]⟩),
    (.text "t_array", ⟨.str "t_array",
      .obj [("encoding", .str "dynamic_array"), ("base", .str "t_struct")]⟩)]

/-- The definition of the struct, and the node of a type that names it. -/
def lineStruct : Record :=
  [("id", .int 2), ("nodeType", .str "StructDefinition"), ("members", .arr [.obj
    [("id", .int 3), ("nodeType", .str "VariableDeclaration"), ("name", .str "x")]])]

def lineName : Record :=
  [("id", .int 4), ("nodeType", .str "UserDefinedTypeName"), ("referencedDeclaration", .int 2)]

/-- The same two variables in a syntax tree. -/
def lineContract : Record :=
  [("id", .int 1), ("nodes", .arr [
    .obj [("nodeType", .str "VariableDeclaration"), ("name", .str "start"),
      ("typeName", .obj lineName)],
    .obj [("nodeType", .str "VariableDeclaration"), ("name", .str "stops"),
      ("typeName", .obj [("nodeType", .str "ArrayTypeName"), ("baseType", .obj lineName)])]])]

def lineTrees : Ast.Index where
  nodes := [(.number 1, ⟨.int 1, lineContract⟩), (.number 2, ⟨.int 2, lineStruct⟩),
    (.number 4, ⟨.int 4, lineName⟩)]
  contracts := [("a.sol:Line", lineContract)]

/-- The struct by itself and the array of it show the same member, in both sources. -/
theorem layoutOf_uniform_line :
    (∃ x y, layoutOf (.layout lineLayout) "a.sol:Line" (.ofNat 1) = .ok [x, y] ∧
      y.subType = x.subType) ∧
    ∃ x y, layoutOf (.ast lineTrees) "a.sol:Line" (.ofNat 1) = .ok [x, y] ∧
      y.subType = x.subType := by
  have hlayout : ∃ x y, layoutOf (.layout lineLayout) "a.sol:Line" (.ofNat 1) = .ok [x, y] ∧
      y.facts.type = .str "t_array" ∧ x.facts.type = .str "t_struct" := ⟨_, _, rfl, rfl, rfl⟩
  have htrees : ∃ x y, layoutOf (.ast lineTrees) "a.sol:Line" (.ofNat 1) = .ok [x, y] :=
    ⟨_, _, by with_unfolding_all rfl⟩
  rcases hlayout with ⟨x, y, h, hy, hx⟩
  rcases htrees with ⟨x', y', h'⟩
  -- The second root is a list of what the first one is.
  have hroots := layoutOf_uniform.1 lineLayout "a.sol:Line" "a.sol:Line" (.ofNat 1) (.ofNat 1)
    [x, y] [x, y] h h 0 0 y x (.root (List.mem_cons_of_mem x List.mem_cons_self))
    (.root List.mem_cons_self)
  rw [hx, hy] at hroots
  refine ⟨⟨x, y, h, hroots.2 (.str "t_struct") ⟨_, rfl, rfl⟩ ⟨_, _, rfl, rfl⟩ rfl⟩, x', y', h', ?_⟩
  exact layoutOf_uniform.2 lineTrees "a.sol:Line" "a.sol:Line" (.ofNat 1) (.ofNat 1) [x', y']
    [x', y'] h' h' 0 0 (.storage 1) (.storage 0) _ _ y' x' (.storage rfl rfl rfl)
    (.storage rfl rfl rfl) (.int 2) (.int 2) (.element rfl rfl rfl) .self rfl

end StorageLayout
