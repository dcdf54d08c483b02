import StorageLayout.Proofs.Lockstep

/-!
# How a Layout Can Fail

The errors that a layout can end in, told from the steps that read compiler output.

Most steps can only complain about the form of the data: a value is of the wrong kind, a member is
missing, a length cannot be read. These errors name no declaration and no contract, so they are put
together (`Error.isOfForm`), and each step that takes a value apart ends in one of them or in its
result. What is left are the errors of the resolver itself, which are two, and those of the look-ups
that a source makes under the keys of its own records. The latter are what a theorem about errors is
about, so `Fault` has them as a parameter.

Such a theorem needs to know that the keys stay good: what stands under a key that may be looked up
has keys of the same sort again. `IsSound` says this of one step, with the sort of keys as another
parameter, and `layoutOf_ends` says it of a layout. It is the comparison of `Lockstep`
with a source on both sides, because a run ends in an error of a kind exactly if it follows itself
up to errors of this kind.

## Main definitions

* `Error.isOfForm`: Whether an error complains about the form of the data.
* `Fault`: The errors in which a layout can end.
* `IsSound`: Only such errors are met under the keys of good shapes.

## Theorems

* `ends_elements`, `ends_asKey` and the like: The steps of readers.
* `layoutOf_ends`: The errors of a layout.
-/

namespace StorageLayout

/-- Whether an error complains about the form of the data. -/
def Error.isOfForm : Error → Bool
  | .badEntry .. | .missingChild .. | .unreadableNodeLength _ | .unreadableTypeLength _
  | .defect _ => true
  | _ => false

/-- The errors in which the layout of a contract can end that a source has, if only references of a
known kind are not resolved. -/
inductive Fault (dangling : Json → Prop) : Error → Prop
  | form {e : Error} (h : e.isOfForm = true) : Fault dangling e
  | tooDeep (limit : Json) : Fault dangling (.nestedTooDeep limit)
  | outOfRange (limit : Json) : Fault dangling (.depthOutOfRange limit)
  | unresolved {key : Json} (h : dangling key) : Fault dangling (.unresolved key)

section Reading

variable {P : Error → Prop} (hP : ∀ e, e.isOfForm = true → P e)

include hP

theorem ends_fail {α : Type} (Q : α → Prop) (d : Defect) : Ends P Q (d.fail : Except Error α) :=
  hP (.defect d) rfl

theorem ends_elements (v : Json) : Ends P (fun items => v.elements = .ok items) v.elements := by
  cases v with
  | arr items => exact rfl
  | obj members => exact rfl
  | str s => exact rfl
  | _ => exact ends_fail hP _ _

theorem ends_asRecord (v : Json) : Ends P (fun r => v = .obj r) v.asRecord := by
  cases v with
  | obj members => exact rfl
  | _ => exact ends_fail hP _ _

theorem ends_asKey (v : Json) : Ends P (fun k => v.key? = some k) v.asKey := by
  unfold Json.asKey
  cases hkey : v.key? with
  | some k => exact rfl
  | none => exact ends_fail hP _ _

theorem ends_asText (v : Json) : Ends P (fun s => v = .str s) v.asText := by
  cases v with
  | str s => exact rfl
  | _ => exact ends_fail hP _ _

theorem ends_member (r : Record) (name : String) :
    Ends P (fun v => r.find? name = some v) (r.member name) := by
  unfold Record.member
  cases hfind : r.find? name with
  | some v => exact rfl
  | none => exact ends_fail hP _ _

theorem ends_orEmpty (r : Record) (name : String) :
    Ends P (fun record => r.orEmpty name = .ok record) (r.orEmpty name) := by
  refine Ends.intro (fun _ h => h) (fun e h => ?_)
  unfold Record.orEmpty at h
  split at h
  · exact absurd h (by simp only [reduceCtorEq, not_false_eq_true])
  · exact (ends_asRecord hP _).of_error h

theorem ends_shown (v : Json) : Ends P (fun _ => True) v.shown := by
  unfold Json.shown
  split
  · exact trivial
  · exact ends_fail hP _ _

theorem ends_keyLabel (keyType : Json) : Ends P (fun _ => True) (keyLabel keyType) :=
  Ends.bind (ends_shown hP keyType) (fun _ _ => trivial)

theorem ends_lengthOfDigits (digits : List Char) :
    Ends P (fun _ => True) (lengthOfDigits digits) := by
  unfold lengthOfDigits
  split
  · exact trivial
  · exact ends_fail hP _ _

end Reading

/-- Under the keys of shapes that are good there are declarations with shapes that are good, or
there is an error that is known. -/
structure IsSound (dangling : Json → Prop) (K : Shape → Prop) (source : Source) : Prop where
  members : ∀ m, K (.struct m) →
    Ends (Fault dangling) (fun ds => ∀ d ∈ ds, K d.shape) (source.members m)
  element : ∀ s key, K s → s.element? = some key →
    Ends (Fault dangling) (fun d => K d.shape) (source.element key)

section Sound

variable {dangling : Json → Prop} {K : Shape → Prop} {source : Source}
  (h : IsSound dangling K source)

include h

/-- A sound source goes in lockstep with itself, up to its errors. -/
theorem isLockstep_sound :
    IsLockstep (fun _ => False) (fun e _ => Fault dangling e) (fun d d' => d = d' ∧ K d.shape) Eq
      source source (fun _ _ => True) where
  constant d d' hd := by rw [hd.1]
  replies d d' hd := by
    rcases hd with ⟨heq, hgood⟩
    rw [← heq]
    -- A run that ends in what is known follows itself with what is known.
    have helement := fun key hkey => (h.element d.shape key hgood hkey).tracks
    generalize d.shape = s at hgood helement
    cases s with
    | elementary => exact .elementary
    | struct m =>
        refine .struct ((h.members m hgood).tracks.imp (fun ds ds' hds => ?_))
        rw [← hds.1]
        exact List.forall₂_same.mpr (fun d hd => ⟨rfl, hds.2 d hd⟩)
    | fixedArray length key => exact .fixedArray (helement key rfl)
    | dynamicArray key => exact .dynamicArray (helement key rfl)
    | mapping keyType value =>
        exact .mapping ((ends_keyLabel (fun _ => .form) keyType).tracks.imp (fun _ _ hl => hl.1))
          (helement value rfl)
  label := rfl
  relabel d d' l l' hd hl := by
    rw [← hd.1, ← hl]
    exact ⟨rfl, hd.2⟩
  node _ _ _ _ _ _ := trivial
  deep := .tooDeep

/-- The layout of a contract whose variables have good shapes ends in an error that is known, if it
ends in one. -/
theorem layoutOf_ends (fullName : String) (limit : DepthLimit)
    (hstorage : Ends (Fault dangling) (fun ds => ∀ d ∈ ds, K d.shape)
      (source.storage fullName)) :
    Ends (Fault dangling) (fun _ => True) (layoutOf source fullName limit) := by
  have hvariables : Tracks (fun _ => False) (fun e _ => Fault dangling e)
      (List.Forall₂ fun d d' => d = d' ∧ K d.shape) (source.storage fullName)
      (source.storage fullName) := by
    refine hstorage.tracks.imp (fun ds ds' hds => ?_)
    rw [← hds.1]
    exact List.forall₂_same.mpr (fun d hd => ⟨rfl, hds.2 d hd⟩)
  exact (Ends.of_tracks (layoutOf_lockstep (isLockstep_sound h) fullName limit
    (.outOfRange limit.written) hvariables)).imp (fun _ _ => trivial)

end Sound

end StorageLayout
