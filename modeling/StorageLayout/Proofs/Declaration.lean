import StorageLayout.Declaration

/-!
# Shapes and Declarations

A declaration tells the shape that was put into it.

The kind of a type is not a field of a declaration but is read off the fields that are set, and a
null among them counts as not set. So a shape survives being put into a declaration only if the
fields by which its kind is told are not null: the length of a fixed array, the members of a
struct, and both sides of a mapping. `Shape.IsTold` is this condition, and it is all that has to
be known of the data. Where nothing is known of it, `Shape.told` is what is read off instead.

## Main definitions

* `Shape.IsTold`: The fields that tell the kind are set.
* `Shape.told`: The shape that is read off.
* `Shape.keys`: The keys under which a shape has more to say.

## Theorems

* `shape_withShape`: A shape is read off as it was put in.
* `shape_withShape_eq_told`: What is read off, whatever was put in.
* `keys_told_subset`: No key comes from anywhere else.
* `withShape_label` and the like: The other fields stay.
-/

namespace StorageLayout

/-- The fields that tell the kind of a type are not null. -/
def Shape.IsTold : Shape → Prop
  | .fixedArray length _ => length.isNull = false
  | .dynamicArray _ => True
  | .struct members => members.isNull = false
  | .mapping keyType value => keyType.isNull = false ∧ value.isNull = false
  | .elementary => True

/-- The shape that is read off a declaration into which one was put: a null field is not set. -/
def Shape.told : Shape → Shape
  | .fixedArray length element =>
    if length.isNull then .dynamicArray element else .fixedArray length element
  | .dynamicArray element => .dynamicArray element
  | .struct members => if members.isNull then .elementary else .struct members
  | .mapping keyType value =>
    if keyType.isNull || value.isNull then .elementary else .mapping keyType value
  | .elementary => .elementary

/-- The keys under which a shape has more to say: that of a struct's members, or that of an element
or value. -/
def Shape.keys : Shape → List Json
  | .fixedArray _ element => [element]
  | .dynamicArray element => [element]
  | .struct members => [members]
  | .mapping _ value => [value]
  | .elementary => []

theorem Shape.keys_told_subset (s : Shape) : s.told.keys ⊆ s.keys := by
  cases s with
  | fixedArray length element =>
      rw [told]
      split <;> exact List.Subset.refl _
  | dynamicArray element => exact List.Subset.refl _
  | struct members =>
      rw [told]
      split
      · exact List.nil_subset _
      · exact List.Subset.refl _
  | mapping keyType value =>
      rw [told]
      split
      · exact List.nil_subset _
      · exact List.Subset.refl _
  | elementary => exact List.Subset.refl _

namespace Declaration

/-- A shape is read off as it was put in, if nothing else in the declaration tells one. -/
theorem shape_withShape (label type typeName id visibility slot offset : Json) (constant : Bool)
    (s : Shape) (hs : s.IsTold) :
    (withShape { label, type, typeName, id, visibility, slot, offset, constant } s).shape = s := by
  cases s with
  -- A shape is told by the facts that it needs, and the hypothesis says that none of them is null.
  | fixedArray length element =>
      have hlength : length.isNull = false := hs
      simp only [withShape, shape, hlength, Bool.not_false, if_true]
  | dynamicArray element => rfl
  | struct members =>
      have hmembers : members.isNull = false := hs
      have hnull : Json.null.isNull = true := rfl
      simp only [withShape, shape, hnull, hmembers, Bool.not_true, Bool.not_false,
        Bool.false_eq_true, if_true, if_false]
  | mapping keyType value =>
      have hkey : keyType.isNull = false := hs.1
      have hvalue : value.isNull = false := hs.2
      have hnull : Json.null.isNull = true := rfl
      simp only [withShape, shape, hnull, hkey, hvalue, Bool.not_true, Bool.not_false,
        Bool.and_self, Bool.false_eq_true, if_true, if_false]
  | elementary => rfl

/-- What is read off, whatever was put in. -/
theorem shape_withShape_eq_told (label type typeName id visibility slot offset : Json)
    (constant : Bool) (s : Shape) :
    (withShape { label, type, typeName, id, visibility, slot, offset, constant } s).shape
      = s.told := by
  have hnull : Json.null.isNull = true := rfl
  cases s with
  -- Facts that are null tell nothing, so each fact that a shape needs is asked whether it is null.
  | fixedArray length element =>
      cases hlength : length.isNull <;>
        simp only [withShape, shape, Shape.told, hlength, Bool.not_true, Bool.not_false,
          Bool.false_eq_true, if_true, if_false]
  | dynamicArray element => rfl
  | struct members =>
      cases hmembers : members.isNull <;>
        simp only [withShape, shape, Shape.told, hnull, hmembers, Bool.not_true, Bool.not_false,
          Bool.and_self, Bool.false_eq_true, if_true, if_false]
  | mapping keyType value =>
      cases hkey : keyType.isNull <;> cases hvalue : value.isNull <;>
        simp only [withShape, shape, Shape.told, hnull, hkey, hvalue, Bool.not_true, Bool.not_false,
          Bool.and_self, Bool.and_false, Bool.and_true, Bool.or_self, Bool.or_false, Bool.or_true,
          Bool.false_eq_true, if_true, if_false]
  | elementary => rfl

@[simp]
theorem withShape_label (d : Declaration) (s : Shape) : (d.withShape s).label = d.label := by
  cases s <;> rfl

@[simp]
theorem withShape_type (d : Declaration) (s : Shape) : (d.withShape s).type = d.type := by
  cases s <;> rfl

@[simp]
theorem withShape_typeName (d : Declaration) (s : Shape) :
    (d.withShape s).typeName = d.typeName := by
  cases s <;> rfl

@[simp]
theorem withShape_id (d : Declaration) (s : Shape) : (d.withShape s).id = d.id := by
  cases s <;> rfl

@[simp]
theorem withShape_visibility (d : Declaration) (s : Shape) :
    (d.withShape s).visibility = d.visibility := by
  cases s <;> rfl

@[simp]
theorem withShape_slot (d : Declaration) (s : Shape) : (d.withShape s).slot = d.slot := by
  cases s <;> rfl

@[simp]
theorem withShape_offset (d : Declaration) (s : Shape) : (d.withShape s).offset = d.offset := by
  cases s <;> rfl

@[simp]
theorem withShape_constant (d : Declaration) (s : Shape) :
    (d.withShape s).constant = d.constant := by
  cases s <;> rfl

end Declaration

end StorageLayout
