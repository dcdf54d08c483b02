import StorageLayout.Proofs.ArrayLength
import StorageLayout.Proofs.TreeForm
import StorageLayout.Proofs.Uniformity

/-!
# Dimensions of Arrays

The lengths of a nested array come out in the order of its dimensions.

The key of a fixed array type holds the key of its element, which can be an array again, and its
label holds the label of the element. So every bound of a nested array can be read off the outermost
type. Each level of the layout reads one of them, and it has to be the outermost one of the type
that this level is about. It is, since only the end of a key or of a label is looked at, and the key
decides where both have a bound (`shape_of_writesBound`).

What a single record says is then put together along a chain of types, of which each is the base of
the one before (`Dimensions`). The node of the first type has one node below it for each further
type, and the lengths along these nodes are the dimensions of the array (`HasLengths`). A chain can
go down as far as the limit on the depth allows: each dimension but the outermost takes a level, and
what the elements at its end are is of no account as long as they can be described in the levels
that are left.

## Main definitions

* `IsFixedArray`, `WritesBound`: The record of a fixed array type, and where its bound is written.
* `Index.Bounds`, `Index.Dimensions`: The length of an array type, and its dimensions.
* `Index.FitsWithin`: A limit leaves levels for a nested array and for its elements.
* `HasLengths`: The lengths along a chain of nodes.

## Theorems

* `shape_of_writesBound`, `shape_of_no_bound`: The length that is read from a record.
* `hasLengths_of_expand`, `hasLengths_of_at`: The lengths below the node of an array.
* `expand_of_dimensions`: An array within the limit has a node.
* `layoutOf_of_fitsWithin`: Arrays within the limit have a layout.
* `lengths_outermost_first`: The lengths of arrays are their dimensions.
-/

namespace StorageLayout

/-- The lengths along a chain of nodes, each the only one below the node before it, and what stands
below the last node. -/
inductive HasLengths : TypeReference → List Nat → List TypeReference → Prop
  | innermost {x : TypeReference} {n : Nat} {ys : List TypeReference}
      (hlength : x.facts.length = .int n) (hbelow : x.subType = some ys) : HasLengths x [n] ys
  | outer {x y : TypeReference} {n : Nat} {dims : List Nat} {ys : List TypeReference}
      (hlength : x.facts.length = .int n) (hbelow : x.subType = some [y])
      (h : HasLengths y dims ys) : HasLengths x (n :: dims) ys

namespace Emitted

/-- The record of a fixed array type: it has a base, and its encoding is neither that of a mapping
nor that of a dynamic array. -/
structure IsFixedArray (record : Record) (base : Json) : Prop where
  base : record.find? "base" = some base
  notMapping : (record.get "encoding").isText "mapping" = false
  notDynamic : (record.get "encoding").isText "dynamic_array" = false

/-- Where the bound of a fixed array type is written: at the end of its key or, if the key has none
there, at the end of its label. -/
inductive WritesBound (key : String) (record : Record) (digits : List Char) : Prop
  | key (element : String)
      (hkey : key = "t_array(" ++ element ++ ")" ++ String.ofList digits ++ "_storage")
  | label (before : String) (hprintable : IsPrintable key.toList) (hkey : ∀ ds, ¬ KeyEndsIn key ds)
      (hlabel : record.find? "label"
        = some (.str (before ++ "[" ++ String.ofList digits ++ "]")))

/-- Under a key without a bound, the length is read from the label. -/
theorem arrayLength_of_key_unbounded (key label : String) (record : Record)
    (hprintable : IsPrintable key.toList) (hkey : ∀ ds, ¬ KeyEndsIn key ds)
    (hlabel : record.getText "label" = .str label) :
    arrayLength (.str key) record =
      match boundOfLabel? label with
      | some digits => lengthOfDigits digits
      | none => .error (.unreadableTypeLength (.str key)) := by
  have hnone := (boundOfKey?_eq_none_iff key hprintable).mpr hkey
  unfold arrayLength
  rw [Json.asText, ok_bind, hnone]
  simp only [hlabel, Json.asText, ok_bind]
  rfl

/-- The length of a fixed array type is the number that its bound is written as. -/
theorem arrayLength_of_writesBound (key : String) (record : Record) (digits : List Char)
    (hnumeral : IsNumeral digits) (hlength : digits.length ≤ Text.maxDigits)
    (h : WritesBound key record digits) :
    arrayLength (.str key) record = .ok (.int (numeralValue digits)) := by
  have hread : lengthOfDigits digits = .ok (.int (numeralValue digits)) := by
    rw [lengthOfDigits_eq digits hnumeral, if_pos hlength]
  -- The key is tried first, and the label only when the key has no bound.
  cases h with
  | key element hkey =>
      have hbound : boundOfKey? key = some digits :=
        boundOfKey?_of_ends key digits (hkey ▸ keyEndsIn_append element digits hnumeral)
      unfold arrayLength
      rw [Json.asText, ok_bind, hbound]
      exact hread
  | label before hprintable hkey hlabel =>
      have htext : record.getText "label"
          = .str (before ++ "[" ++ String.ofList digits ++ "]") := by
        rw [Record.getText, hlabel, Option.getD_some]
      rw [arrayLength_of_key_unbounded key _ record hprintable hkey htext,
        boundOfLabel?_of_ends _ digits (labelEndsIn_append before digits hnumeral)]
      exact hread

/-- The shape of a fixed array type, by what its length is read as. -/
theorem shape_of_isFixedArray (key : Json) (record : Record) (base : Json)
    (h : IsFixedArray record base) :
    shape key record =
      (arrayLength key record >>= fun length => pure (.fixedArray length base)) := by
  unfold shape
  simp only [h.base, h.notMapping, h.notDynamic, Bool.false_eq_true, if_false]

/-- The shape of a fixed array type has the number that the bound is written as. -/
theorem shape_of_writesBound (key : String) (record : Record) (base : Json) (digits : List Char)
    (hfixed : IsFixedArray record base) (hnumeral : IsNumeral digits)
    (hlength : digits.length ≤ Text.maxDigits) (h : WritesBound key record digits) :
    shape (.str key) record = .ok (.fixedArray (.int (numeralValue digits)) base) := by
  rw [shape_of_isFixedArray _ record base hfixed,
    arrayLength_of_writesBound key record digits hnumeral hlength h]
  rfl

/-- Without a bound at the end of the key or of the label, the length cannot be read. -/
theorem shape_of_no_bound (key label : String) (record : Record) (base : Json)
    (hfixed : IsFixedArray record base) (hprintable : IsPrintable key.toList)
    (hkey : ∀ ds, ¬ KeyEndsIn key ds) (hlabel : record.getText "label" = .str label)
    (hprintableLabel : IsPrintable label.toList) (hnone : ∀ ds, ¬ LabelEndsIn label ds) :
    shape (.str key) record = .error (.unreadableTypeLength (.str key)) := by
  rw [shape_of_isFixedArray _ record base hfixed,
    arrayLength_of_key_unbounded key label record hprintable hkey hlabel,
    (boundOfLabel?_eq_none_iff label hprintableLabel).mpr hnone]
  rfl

namespace Index

variable (index : Index)

/-- The type with a key is a fixed array of so many elements, and its elements are of the type with
the key `base`. -/
def Bounds (key : String) (n : Nat) (base : Json) : Prop :=
  ∃ record digits, index.typeRecord (.str key) = .ok (.obj record) ∧ IsFixedArray record base ∧
    IsNumeral digits ∧ digits.length ≤ Text.maxDigits ∧ WritesBound key record digits ∧
    n = numeralValue digits

/-- The dimensions of a nested array from the outermost to the innermost, and the key of the type of
its elements. -/
inductive Dimensions : String → List Nat → Json → Prop
  | innermost {key : String} {n : Nat} {bottom : Json} (h : index.Bounds key n bottom) :
      Dimensions key [n] bottom
  | outer {key inner : String} {n : Nat} {dims : List Nat} {bottom : Json}
      (h : index.Bounds key n (.str inner)) (hrest : Dimensions inner dims bottom) :
      Dimensions key (n :: dims) bottom

variable {index}

/-- A declaration of a fixed array type has the shape of one. -/
theorem Bounds.shape_eq {key : String} {n : Nat} {base : Json} (h : index.Bounds key n base)
    {d : Declaration} (hd : index.HasTypeShape d) (htype : d.type = .str key) :
    d.shape = .fixedArray (.int n) base := by
  rcases h with ⟨record, digits, hrecord, hfixed, hnumeral, hlength, hwrites, hn⟩
  rcases hd with ⟨record', s, hrecord', hshape, htold⟩
  -- A key leads to one record.
  rw [htype, hrecord] at hrecord'
  injection hrecord' with hrecord'
  injection hrecord' with hrecord'
  rw [htype, ← hrecord', shape_of_writesBound key record base digits hfixed hnumeral hlength
    hwrites] at hshape
  injection hshape with hshape
  rw [htold, ← hshape, hn]
  rfl

/-- The elements of a fixed array of fixed arrays are read as what they are. -/
theorem Bounds.element_eq {key : String} {n : Nat} {base : Json} (h : index.Bounds key n base) :
    ∃ e, index.element (.str key) = .ok e ∧ e.type = .str key ∧ index.HasTypeShape e := by
  rcases h with ⟨record, digits, hrecord, hfixed, hnumeral, hlength, hwrites, _⟩
  have hshape := shape_of_writesBound key record base digits hfixed hnumeral hlength hwrites
  have hread : index.element (.str key) = .ok (Declaration.withShape
      { label := .str "", type := .str key, typeName := typeName (.str key) record }
      (.fixedArray (.int (numeralValue digits)) base)) := by
    unfold element
    rw [hrecord, ok_bind, Json.asRecord, ok_bind, hshape, ok_bind]
    rfl
  exact ⟨_, hread, (index.elementRead _ _ hread).hasTypeShape⟩

/-- The outermost dimension of a nested array is the length of its type. -/
theorem Dimensions.bounds {key : String} {dims : List Nat} {bottom : Json}
    (h : index.Dimensions key dims bottom) : ∃ n base, index.Bounds key n base := by
  cases h with
  | innermost h => exact ⟨_, _, h⟩
  | outer h _ => exact ⟨_, _, h⟩

end Index

end Emitted

/-- The node of a fixed array says its length and has the forest of its element below it. -/
theorem expand_of_fixedArray (source : Source)
    (r : List Declaration → Except Error (List TypeReference)) (d : Declaration)
    (length element : Json) (h : d.shape = .fixedArray length element) :
    expand source r d = (elementForest source r element (.str "[]") >>= fun nodes =>
      pure (.node { d.facts with length } (some nodes))) := by
  unfold expand
  rw [h]

/-- The forest of an element that is a fixed array itself is the node of that array. -/
theorem elementForest_of_fixedArray (source : Source)
    (r : List Declaration → Except Error (List TypeReference)) (key label : Json)
    (e : Declaration) (length element : Json) (he : source.element key = .ok e)
    (h : e.shape = .fixedArray length element) :
    elementForest source r key label = r [{ e with label }] := by
  unfold elementForest
  rw [he, ok_bind, h]

theorem stored_singleton (d : Declaration) (h : d.constant = false) : stored [d] = [d] := by
  simp only [stored, List.filter_cons, h, Bool.not_false, if_true, List.filter_nil]

/-- A declaration that is alone in its list becomes the only node. -/
theorem resolveAt_singleton (source : Source) (limit : DepthLimit) (depth : Int) (d : Declaration)
    (x : TypeReference) (hd : d.constant = false) (hdepth : depth ≤ limit.deepest)
    (hx : expand source (resolveAt source limit (depth + 1)) d = .ok x) :
    resolveAt source limit depth [d] = .ok [x] := by
  rw [resolveAt_eq, if_neg (Int.not_lt.mpr hdepth)]
  change (stored [d]).mapM _ = _
  rw [stored_singleton d hd, List.mapM_cons, hx, ok_bind]
  rfl

namespace Emitted.Index

variable {index : Index} {limit : DepthLimit}

/-- The lengths below the node of a nested array are its dimensions. -/
theorem hasLengths_of_expand (written : Json) {key : String} {dims : List Nat} {bottom : Json}
    (h : index.Dimensions key dims bottom) (b : Nat) (d : Declaration) (x : TypeReference)
    (hd : index.HasTypeShape d) (htype : d.type = .str key)
    (hx : expand (.layout index) (resolve (.layout index) written b) d = .ok x) :
    ∃ ys, HasLengths x dims ys := by
  -- The induction is on the chain of types, and each step goes down by one node.
  induction h generalizing b d x with
  | innermost hbounds =>
      rw [expand_of_fixedArray _ _ d _ _ (hbounds.shape_eq hd htype)] at hx
      rcases (bind_eq_ok _ _ _).mp hx with ⟨ys, _, hx⟩
      injection hx with hx
      rw [← hx]
      exact ⟨ys, .innermost rfl rfl⟩
  | @outer _ inner _ _ _ hbounds hrest ih =>
      rw [expand_of_fixedArray _ _ d _ _ (hbounds.shape_eq hd htype)] at hx
      rcases (bind_eq_ok _ _ _).mp hx with ⟨nodes, hnodes, hx⟩
      injection hx with hx
      rcases hrest.bounds with ⟨m, base, hinner⟩
      rcases hinner.element_eq with ⟨e, he, hetype, heshape⟩
      have hconstant := element_not_constant (.layout index) (.str inner) e he
      rw [elementForest_of_fixedArray (.layout index) _ _ _ e _ _ he
        (hinner.shape_eq heshape hetype)] at hnodes
      rcases resolve_eq_ok _ _ _ _ _ hnodes with ⟨c, _, hexpanded⟩
      rw [stored_singleton { e with label := .str "[]" } hconstant] at hexpanded
      rcases hexpanded with _ | ⟨hy, _ | _⟩
      rcases ih c { e with label := .str "[]" } _ heshape hetype hy with ⟨ys, hys⟩
      rw [← hx]
      exact ⟨ys, .outer rfl rfl hys⟩

/-- A nested array within the limit on the depth has a node, if its elements can be described in the
levels that are left. -/
theorem expand_of_dimensions {key : String} {dims : List Nat} {bottom : Json}
    (h : index.Dimensions key dims bottom) (depth : Int) (d : Declaration)
    (hd : index.HasTypeShape d) (htype : d.type = .str key)
    (hfits : depth + dims.length ≤ limit.deepest + 1) (ys : List TypeReference)
    (hys : elementForest (.layout index) (resolveAt (.layout index) limit (depth + dims.length))
      bottom (.str "[]") = .ok ys) :
    ∃ x, expand (.layout index) (resolveAt (.layout index) limit (depth + 1)) d = .ok x ∧
      HasLengths x dims ys := by
  induction h generalizing depth d with
  | innermost hbounds =>
      rw [expand_of_fixedArray _ _ d _ _ (hbounds.shape_eq hd htype)]
      rw [List.length_singleton] at hys
      exact ⟨_, (bind_eq_ok _ _ _).mpr ⟨ys, hys, rfl⟩, .innermost rfl rfl⟩
  | @outer _ inner _ rest _ hbounds hrest ih =>
      rw [List.length_cons] at hfits hys
      rcases hrest.bounds with ⟨m, base, hinner⟩
      rcases hinner.element_eq with ⟨e, he, hetype, heshape⟩
      have hdepth : depth + 1 + rest.length = depth + ((rest.length + 1 : Nat) : Int) := by omega
      rcases ih (depth + 1) { e with label := .str "[]" } heshape hetype (by omega)
        (hdepth ▸ hys) with ⟨y, hy, hlengths⟩
      -- The next array is alone in its list, and there is a level left for it.
      have hlevel : depth + 1 ≤ limit.deepest := by
        cases hrest with
        | innermost _ =>
            rw [List.length_singleton] at hfits
            omega
        | outer _ _ =>
            rw [List.length_cons] at hfits
            omega
      have hforest : elementForest (.layout index) (resolveAt (.layout index) limit (depth + 1))
          (.str inner) (.str "[]") = .ok [y] := by
        rw [elementForest_of_fixedArray (.layout index) _ _ _ e _ _ he
          (hinner.shape_eq heshape hetype)]
        exact resolveAt_singleton _ limit (depth + 1) _ y
          (element_not_constant (.layout index) (.str inner) e he) hlevel hy
      rw [expand_of_fixedArray _ _ d _ _ (hbounds.shape_eq hd htype)]
      exact ⟨_, (bind_eq_ok _ _ _).mpr ⟨[y], hforest, rfl⟩, .outer rfl rfl hlengths⟩

/-- Wherever a nested array stands in a layout, the lengths below its node are its dimensions. -/
theorem hasLengths_of_at {fullName : String} {forest : List TypeReference}
    (hlayout : layoutOf (.layout index) fullName limit = .ok forest) (n : Nat) (x : TypeReference)
    (hx : At forest n x) {key : String} {dims : List Nat} {bottom : Json}
    (htype : x.facts.type = .str key) (h : index.Dimensions key dims bottom) :
    ∃ ys, HasLengths x dims ys := by
  rcases occurs_of_at hlayout n x hx with ⟨o, d, hoccurs⟩
  rcases expand_of_occurs hlayout n o d x hoccurs with ⟨b, _, hexpand⟩
  rw [(expand_eq_ok _ _ d x hexpand).1, Declaration.nodeFacts_type] at htype
  exact hasLengths_of_expand limit.written h b d x
    (index.hasTypeShape_of_occurs fullName forest n o d x hoccurs) htype hexpand

/-- The variables of a contract have the shapes of their types, and all of them occupy storage. -/
theorem storage_hasTypeShape (fullName : String) (ds : List Declaration)
    (h : index.storage fullName = .ok ds) :
    stored ds = ds ∧ ∀ d ∈ ds, index.HasTypeShape d := by
  rcases index.storage_eq_ok fullName ds h with ⟨_, _, _, _, hitems⟩
  refine ⟨index.stored_of_entries _ ds hitems, fun d hd => ?_⟩
  rcases List.mem_iff_getElem?.mp hd with ⟨i, hi⟩
  rcases forall₂_getElem? hitems hi with ⟨item, _, hitem⟩
  exact (index.entryRead item d hitem).hasTypeShape

/-- A declaration is of an array type with these dimensions, and a layout that goes down to a depth
of `m` has a level for each of them and for what describes the elements. -/
def FitsWithin (index : Index) (m : Nat) (d : Declaration) (dims : List Nat)
    (ys : List TypeReference) : Prop :=
  ∃ key bottom, d.type = .str key ∧ index.Dimensions key dims bottom ∧ dims.length ≤ m + 1 ∧
    elementForest (.layout index) (resolveAt (.layout index) (.ofNat m) dims.length) bottom
      (.str "[]") = .ok ys

/-- The node of a variable that fits has the dimensions of its type as lengths. -/
theorem FitsWithin.expand_eq {m : Nat} {d : Declaration} {dims : List Nat}
    {ys : List TypeReference} (h : index.FitsWithin m d dims ys) (hd : index.HasTypeShape d) :
    ∃ x, expand (.layout index) (resolveAt (.layout index) (.ofNat m) (0 + 1)) d = .ok x ∧
      HasLengths x dims ys := by
  rcases h with ⟨key, bottom, htype, hdims, hlength, hys⟩
  have hdepth : (0 : Int) + dims.length ≤ (DepthLimit.ofNat m).deepest + 1 := by
    simp only [DepthLimit.ofNat]
    omega
  rw [← Int.zero_add (dims.length : Int)] at hys
  exact expand_of_dimensions hdims 0 d hd htype hdepth ys hys

/-- A contract whose variables are nested arrays within the limit has a layout, and the lengths in
it are the dimensions. -/
theorem layoutOf_of_fitsWithin (fullName : String) (ds : List Declaration)
    (h : index.storage fullName = .ok ds) (m : Nat) (hm : 1 ≤ m ∧ m ≤ 128)
    (hfits : ∀ d ∈ ds, ∃ dims ys, index.FitsWithin m d dims ys) :
    ∃ forest, layoutOf (.layout index) fullName (.ofNat m) = .ok forest ∧
      List.Forall₂ (fun d x => ∀ dims ys, index.FitsWithin m d dims ys → HasLengths x dims ys)
        ds forest := by
  rcases index.storage_hasTypeShape fullName ds h with ⟨hstored, hshapes⟩
  have hnode : ∀ d ∈ ds, ∃ x,
      expand (.layout index) (resolveAt (.layout index) (.ofNat m) (0 + 1)) d = .ok x ∧
        ∀ dims ys, index.FitsWithin m d dims ys → HasLengths x dims ys := by
    intro d hd
    rcases hfits d hd with ⟨dims, ys, hfit⟩
    rcases hfit.expand_eq (hshapes d hd) with ⟨x, hx, _⟩
    refine ⟨x, hx, fun dims' ys' hfit' => ?_⟩
    -- However the dimensions are told, the node is the one that has been made.
    rcases hfit'.expand_eq (hshapes d hd) with ⟨x', hx', hlengths⟩
    rw [hx] at hx'
    injection hx' with hx'
    rw [hx']
    exact hlengths
  rcases mapM_eq_ok _ _ ds hnode with ⟨forest, hforest, hall⟩
  have hlevel : ¬ (DepthLimit.ofNat m).deepest < 0 := by
    simp only [DepthLimit.ofNat]
    omega
  refine ⟨forest, ?_, hall⟩
  unfold layoutOf
  rw [if_pos (inRange_ofNat m hm)]
  simp only [Source.storage, h, ok_bind]
  rw [resolveAt_eq, if_neg hlevel]
  change (stored ds).mapM _ = _
  rw [hstored]
  exact hforest

end Emitted.Index

namespace Emitted

/-- The lengths of fixed arrays are those of their own bounds, and so the dimensions of a nested
array come out from the outermost to the innermost.

A bound at the end of the key counts, whatever the key holds before it and whatever the label says;
otherwise that at the end of the label; and without either the length cannot be read. In a layout
the lengths along the chain of nodes of a nested array are its dimensions, and a nested array within
the limit on the depth does not keep a contract from having a layout. -/
theorem lengths_outermost_first :
    (∀ (key : String) (record : Record) (base : Json) (digits : List Char),
      IsFixedArray record base → IsNumeral digits → digits.length ≤ Text.maxDigits →
      WritesBound key record digits →
      shape (.str key) record = .ok (.fixedArray (.int (numeralValue digits)) base)) ∧
    (∀ (key label : String) (record : Record) (base : Json), IsFixedArray record base →
      record.getText "label" = .str label → IsPrintable key.toList → IsPrintable label.toList →
      (∀ digits, ¬ KeyEndsIn key digits) → (∀ digits, ¬ LabelEndsIn label digits) →
      shape (.str key) record = .error (.unreadableTypeLength (.str key))) ∧
    (∀ (index : Index) (fullName : String) (limit : DepthLimit) (forest : List TypeReference),
      layoutOf (.layout index) fullName limit = .ok forest →
      ∀ n x key dims bottom, At forest n x → x.facts.type = .str key →
        index.Dimensions key dims bottom → ∃ ys, HasLengths x dims ys) ∧
    (∀ (index : Index) (fullName : String) (ds : List Declaration) (m : Nat),
      index.storage fullName = .ok ds → 1 ≤ m ∧ m ≤ 128 →
      (∀ d ∈ ds, ∃ dims ys, index.FitsWithin m d dims ys) →
      ∃ forest, layoutOf (.layout index) fullName (.ofNat m) = .ok forest ∧
        List.Forall₂ (fun d x => ∀ dims ys, index.FitsWithin m d dims ys → HasLengths x dims ys)
          ds forest) := by
  refine ⟨?_, ?_, ?_, ?_⟩
  · intro key record base digits hfixed hnumeral hlength hwrites
    exact shape_of_writesBound key record base digits hfixed hnumeral hlength hwrites
  · intro key label record base hfixed hlabel hprintable hprintableLabel hkey hnone
    exact shape_of_no_bound key label record base hfixed hprintable hkey hlabel hprintableLabel
      hnone
  · intro index fullName limit forest hlayout n x key dims bottom hx htype hdims
    exact Index.hasLengths_of_at hlayout n x hx htype hdims
  · intro index fullName ds m hds hm hfits
    exact Index.layoutOf_of_fitsWithin fullName ds hds m hm hfits

/-- The key of an array of three rows. -/
def gridKey : String := "t_array(t_array(t_bool)2_storage)3_storage"

/-- The record of an array type. -/
def arrayRecord (base label : String) : Record :=
  [("encoding", .str "inplace"), ("base", .str base), ("label", .str label)]

/-- An emitted layout with a grid of two by three. The bound of the grid is written in its key, and
that of its rows in their label. -/
def gridLayout : Index where
  contracts := [("a.sol:Grid", .obj [("storageLayout", .obj [("storage", .arr [
    .obj [("label", .str "grid"), ("type", .str gridKey), ("slot", .str "0")]])])])]
  types := [
    (.text "t_bool", ⟨.str "t_bool", .obj [("encoding", .str "inplace")]⟩),
    (.text "t_row", ⟨.str "t_row", .obj (arrayRecord "t_bool" "bool[2]")⟩),
    (.text gridKey, ⟨.str gridKey, .obj (arrayRecord "t_row" "bool[7]")⟩)]

theorem isFixedArray_arrayRecord (base label : String) :
    IsFixedArray (arrayRecord base label) (.str base) := ⟨rfl, rfl, rfl⟩

theorem gridLayout_rows : gridLayout.Dimensions "t_row" [2] (.str "t_bool") := by
  have hkey : ∀ ds, ¬ KeyEndsIn "t_row" ds :=
    (boundOfKey?_eq_none_iff "t_row" (by decide)).mp (by decide)
  refine .innermost ⟨_, ['2'], rfl, isFixedArray_arrayRecord _ _, by decide, by decide, ?_, rfl⟩
  exact .label "bool" (by decide) hkey rfl

theorem gridLayout_dimensions : gridLayout.Dimensions gridKey [3, 2] (.str "t_bool") := by
  refine .outer ⟨_, ['3'], rfl, isFixedArray_arrayRecord _ _, by decide, by decide, ?_, rfl⟩
    gridLayout_rows
  exact .key "t_array(t_bool)2_storage" (by decide)

/-- The grid as a variable. -/
def gridVariable : Declaration :=
  { label := .str "grid", type := .str gridKey, typeName := .str "bool[7]", slot := .int 0,
    offset := .int 0, array := true, length := .int 3, element := .str "t_row" }

theorem gridLayout_storage : gridLayout.storage "a.sol:Grid" = .ok [gridVariable] := by
  rfl

/-- Two levels are enough for the grid: its rows and their elements are on the second. -/
theorem gridVariable_fitsWithin : gridLayout.FitsWithin 1 gridVariable [3, 2] [] :=
  ⟨gridKey, .str "t_bool", rfl, gridLayout_dimensions, by decide, rfl⟩

/-- The node of the rows of the grid. -/
def rowNode : TypeReference :=
  .node
    { name := .str "[]", type := .str "t_row", typeName := .str "bool[2]", length := .int 2 }
    (some [])

/-- The node of the grid. -/
def gridNode : TypeReference :=
  .node
    { name := .str "grid", type := .str gridKey, typeName := .str "bool[7]", slot := .int 0,
      offset := .int 0, length := .int 3 }
    (some [rowNode])

/-- The grid has the length three whatever its label says, its rows have that of their label, and
without a label they would have none. In the layout the two lengths stand below each other. -/
theorem lengths_outermost_first_grid :
    shape (.str gridKey) (arrayRecord "t_row" "bool[7]")
        = .ok (.fixedArray (.int 3) (.str "t_row")) ∧
      shape (.str "t_row") (arrayRecord "t_bool" "bool")
        = .error (.unreadableTypeLength (.str "t_row")) ∧
      layoutOf (.layout gridLayout) "a.sol:Grid" (.ofNat 1) = .ok [gridNode] ∧
      HasLengths gridNode [3, 2] [] ∧ ∃ ys, HasLengths rowNode [2] ys := by
  have hlayout : layoutOf (.layout gridLayout) "a.sol:Grid" (.ofNat 1) = .ok [gridNode] := by
    rfl
  refine ⟨?_, ?_, hlayout, ?_, ?_⟩
  · exact lengths_outermost_first.1 gridKey _ _ ['3'] (isFixedArray_arrayRecord _ _) (by decide)
      (by decide) (.key "t_array(t_bool)2_storage" (by decide))
  · refine lengths_outermost_first.2.1 "t_row" "bool" _ _ (isFixedArray_arrayRecord _ _) rfl
      (by decide) (by decide) ?_ ?_
    · exact (boundOfKey?_eq_none_iff "t_row" (by decide)).mp (by decide)
    · exact (boundOfLabel?_eq_none_iff "bool" (by decide)).mp (by decide)
  · -- An array of three rows of two: its bound stands in the key, that of a row in the label.
    have hfits : ∀ d ∈ [gridVariable], ∃ dims ys, gridLayout.FitsWithin 1 d dims ys := by
      intro d hd
      rw [List.mem_singleton] at hd
      rw [hd]
      exact ⟨[3, 2], [], gridVariable_fitsWithin⟩
    rcases lengths_outermost_first.2.2.2 gridLayout "a.sol:Grid" [gridVariable] 1
      gridLayout_storage (by decide) hfits with ⟨forest, hforest, hlengths⟩
    rw [hlayout] at hforest
    injection hforest with hforest
    rw [← hforest] at hlengths
    rcases hlengths with _ | ⟨hgrid, _⟩
    exact hgrid [3, 2] [] gridVariable_fitsWithin
  · exact lengths_outermost_first.2.2.1 gridLayout _ _ _ hlayout 1 rowNode "t_row" [2] _
      (.child (.root List.mem_cons_self) rfl List.mem_cons_self) rfl gridLayout_rows

end Emitted

end StorageLayout
