import StorageLayout.Proofs.Ast.Content

/-!
# Renaming Ids

Syntax trees under other ids.

Ids stand in a tree in three ways: as the `id` that an object carries, as the reference to a
declaration, and in the list of a contract's bases. Everything else in a tree is text and structure
and has nothing to do with ids, so a renaming is a function on whole numbers that is applied in
these places and nowhere else. Which place a value stands in is told by the name of the member that
holds it (`Role`), and a renaming goes through a tree with the role in hand.

A reader never notices. Where it asks for a member it finds the renamed member, whether a value says
nothing, is null, is a list or an object, or is a certain text stays as it is, and what it goes
through has the same items in the same order. The one exception is an id that is asked whether it
says nothing, which is why no lemma here says so of ids.

Some members are taken over into a layout or into the name of a contract: the name and the
visibility of a variable, and the descriptions of its type. They are texts, but nothing forbids an
object in their place, and an object could hold ids. `HoldsNoIds` is what is asked of them.

The index of the renamed trees has the same nodes, renamed, under their new ids. Here the renaming
has to be injective, because the table puts an object in the place of another one with the same id,
and must not do so with one that had a different id before.

## Main definitions

* `Role`, `roleOf`: What a value stands for in a tree.
* `renamed`, `renamedOutput`: A value with the ids in it renamed, and compiler output.
* `Error.renamed`, `Mirrors`: A run that does the same under other ids.
* `HoldsNoIds`: No member of a value is an id.
* `IsTidy`: All ids in a value are whole numbers, and its descriptions hold none.
* `IsRenaming`: An index holds what another one does, under other ids.

## Theorems

* `isTidy_of_checks`: Whether a value is tidy can be computed.
* `find?_renamedMembers`, `get_renamedMembers` and the like: A renamed object, member by member.
* `isNull_renamed`, `isEmpty_renamed`, `isText_renamed`: What a reader asks of a value.
* `elements_renamed`, `children_renamed`: What is inside a renamed value.
* `renamed_of_holdsNoIds`: Descriptions stay as they are.
* `walk_renamed`, `ofOutput_renamed`: The index of renamed output.
-/

namespace StorageLayout

/-- An id under another name. -/
def renamedId (f : Int → Int) : Json → Json
  | .int n => .int (f n)
  | v => v

/-- An error that names another id. -/
def Error.renamed (f : Int → Int) : Error → Error
  | .unresolved key => .unresolved (renamedId f key)
  | .missingChild nodeType id field => .missingChild nodeType (renamedId f id) field
  | .unreadableNodeLength id => .unreadableNodeLength (renamedId f id)
  | e => e

/-- A run ends as another one does, with the ids in its error renamed. -/
abbrev Mirrors {α β : Type} (f : Int → Int) (same : α → β → Prop) (x : Except Error α)
    (y : Except Error β) : Prop :=
  Tracks (fun _ => False) (fun e e' => e' = e.renamed f) same x y

namespace Ast

/-- What a value stands for in a tree: an id, a list of ids, or neither. -/
inductive Role where
  | plain
  | id
  | ids
deriving DecidableEq

/-- The role of a member. -/
def roleOf (name : String) : Role :=
  if name = "id" ∨ name = "referencedDeclaration" then .id
  else if name = "linearizedBaseContracts" then .ids
  else .plain

/-- The role of the items of a list. -/
def Role.item : Role → Role
  | .ids => .id
  | _ => .plain

section Renaming

variable (f : Int → Int)

mutual

/-- A value with the ids in it renamed. -/
def renamed : Role → Json → Json
  | role, .arr items => .arr (renamedItems role.item items)
  | _, .obj members => .obj (renamedMembers members)
  | .id, .int n => .int (f n)
  | _, v => v

/-- The items of a list with the ids in them renamed. -/
def renamedItems : Role → List Json → List Json
  | _, [] => []
  | role, v :: rest => renamed role v :: renamedItems role rest

/-- The members of an object with the ids in them renamed. -/
def renamedMembers : List (String × Json) → Record
  | [] => []
  | (name, v) :: rest => (name, renamed (roleOf name) v) :: renamedMembers rest

end

end Renaming

/-- An object in which something is made of the value of a member. -/
def atMember (name : String) (g : Json → Json) : Json → Json
  | .obj members => .obj (members.map fun m => if m.1 = name then (m.1, g m.2) else m)
  | v => v

/-- The sources of a build with the ids in their trees renamed. -/
def renamedSources (f : Int → Int) (sources : Record) : Record :=
  sources.map fun unit => (unit.1, atMember "ast" (renamed f .plain) unit.2)

/-- Compiler output with the ids in its trees renamed. -/
def renamedOutput (f : Int → Int) (output : Json) : Json :=
  atMember "sources" (fun v => v.members?.elim v fun sources => .obj (renamedSources f sources))
    output

/-- No member of a value, at any depth, is an id or a list of ids. -/
def HoldsNoIds (v : Json) : Prop :=
  ∀ record, Inside (.obj record) v → ∀ m ∈ record, roleOf m.1 = .plain

/-- The members that are taken over into a layout or into the name of a contract. -/
def descriptions : List String := ["name", "visibility", "typeString", "typeIdentifier"]

/-- The ids of an object are whole numbers: the one that it carries, the one that it refers to, and
those of its bases. -/
structure HasIntegerIds (record : Record) : Prop where
  own : ∀ v, record.find? "id" = some v → ∃ n, v = .int n
  reference : ∀ v, record.find? "referencedDeclaration" = some v → ∃ n, v = .int n
  bases : ∀ items, (record.get "linearizedBaseContracts").elements = .ok items →
    ∀ v ∈ items, ∃ n, v = .int n

/-- All ids in a value are whole numbers, and what is taken over from it holds none. -/
structure IsTidy (v : Json) : Prop where
  ids : ∀ record : Record, Inside (.obj record) v → HasIntegerIds record
  texts : ∀ record : Record, Inside (.obj record) v → ∀ name ∈ descriptions, ∀ w,
    record.find? name = some w → HoldsNoIds w

theorem IsTidy.inside {v w : Json} (h : IsTidy v) (hw : Inside w v) : IsTidy w :=
  ⟨fun record hrecord => h.ids record (hrecord.trans hw),
    fun record hrecord => h.texts record (hrecord.trans hw)⟩

/-- Whether a value is a whole number. -/
def isInteger : Json → Bool
  | .int _ => true
  | _ => false

/-- Whether the ids of an object are whole numbers. -/
def integerIds (record : Record) : Bool :=
  (record.find? "id").all isInteger && (record.find? "referencedDeclaration").all isInteger
    && ((record.get "linearizedBaseContracts").elements.toOption.getD []).all isInteger

/-- Whether the descriptions of an object hold no ids. -/
def plainDescriptions (record : Record) : Bool :=
  descriptions.all fun name => (record.find? name).all fun v =>
    (recordsIn v).all fun r => r.all fun m => roleOf m.1 = .plain

theorem isInteger_iff (v : Json) : isInteger v = true ↔ ∃ n, v = .int n := by
  cases v with
  | int n => exact ⟨fun _ => ⟨n, rfl⟩, fun _ => rfl⟩
  | _ => exact ⟨fun h => absurd h Bool.false_ne_true, fun ⟨n, hn⟩ => absurd hn (by
      simp only [reduceCtorEq, not_false_eq_true])⟩

theorem hasIntegerIds_of_check (record : Record) (h : integerIds record = true) :
    HasIntegerIds record := by
  simp only [integerIds, Bool.and_eq_true] at h
  rcases h with ⟨⟨hown, hreference⟩, hbases⟩
  refine ⟨fun v hv => ?_, fun v hv => ?_, fun items hitems v hv => ?_⟩
  · rw [hv] at hown
    exact (isInteger_iff v).mp hown
  · rw [hv] at hreference
    exact (isInteger_iff v).mp hreference
  · rw [hitems] at hbases
    exact (isInteger_iff v).mp (List.all_eq_true.mp hbases v hv)

/-- Whether a value is tidy can be computed. -/
theorem isTidy_of_checks (v : Json) (hids : (recordsIn v).all integerIds = true)
    (htexts : (recordsIn v).all plainDescriptions = true) : IsTidy v := by
  refine ⟨fun record hinside => ?_, fun record hinside name hname w hw inner hinner m hm => ?_⟩
  · exact hasIntegerIds_of_check record
      (List.all_eq_true.mp hids record (mem_recordsIn record v hinside))
  · have hrecord := List.all_eq_true.mp htexts record (mem_recordsIn record v hinside)
    have htext := List.all_eq_true.mp hrecord name hname
    rw [hw] at htext
    have hmembers := List.all_eq_true.mp htext inner (mem_recordsIn inner w hinner)
    exact of_decide_eq_true (List.all_eq_true.mp hmembers m hm)

/-- A value that is no object and has nothing inside it is tidy. -/
theorem isTidy_leaf (v : Json) (hobject : v.isObject = false) (hleaf : children v = []) :
    IsTidy v := by
  have hnone : ∀ record, ¬ Inside (.obj record) v := by
    intro record h
    cases h with
    | self => exact absurd hobject Bool.true_eq_false.mp
    | child hc _ =>
        rw [hleaf] at hc
        exact absurd hc List.not_mem_nil
  exact ⟨fun record h => absurd h (hnone record), fun record h => absurd h (hnone record)⟩

theorem isTidy_get (record : Record) (h : IsTidy (.obj record)) (name : String) :
    IsTidy (record.get name) := by
  unfold Record.get
  cases hfind : record.find? name with
  | none => exact isTidy_leaf .null rfl rfl
  | some v => exact h.inside (inside_of_find? record name v hfind)

theorem isTidy_getList (record : Record) (h : IsTidy (.obj record)) (name : String) :
    IsTidy (record.getList name) := by
  unfold Record.getList
  cases hfind : record.find? name with
  | none => exact isTidy_leaf (.arr []) rfl rfl
  | some v => exact h.inside (inside_of_find? record name v hfind)

/-- What a tidy value is gone through for is tidy. -/
theorem isTidy_of_elements (v : Json) (h : IsTidy v) (items : List Json)
    (hitems : v.elements = .ok items) : ∀ item ∈ items, IsTidy item := by
  intro item hitem
  -- Elements of an object or a text are texts: there is nothing in them to be untidy.
  cases v with
  | arr list =>
      injection hitems with hitems
      rw [← hitems] at hitem
      exact h.inside (.child (v := .arr list) hitem .self)
  | obj members =>
      injection hitems with hitems
      rw [← hitems] at hitem
      rcases List.mem_map.mp hitem with ⟨m, _, hm⟩
      rw [← hm]
      exact isTidy_leaf (.str m.1) rfl rfl
  | str s =>
      injection hitems with hitems
      rw [← hitems] at hitem
      rcases List.mem_map.mp hitem with ⟨c, _, hc⟩
      rw [← hc]
      exact isTidy_leaf (.str c.toString) rfl rfl
  | _ => exact absurd hitems (by simp only [Json.elements, Defect.fail, reduceCtorEq,
      not_false_eq_true])

/-- An object without members is tidy. -/
theorem isTidy_nil : IsTidy (.obj []) := by
  -- The empty object is the only record inside it, and every name is missing there.
  have hnil : ∀ record, Inside (.obj record) (.obj []) → record = [] := by
    intro record h
    cases h with
    | self => rfl
    | child hc _ => exact absurd hc List.not_mem_nil
  refine ⟨fun record h => ?_, fun record h name _ w hw => ?_⟩
  · rw [hnil record h]
    refine ⟨fun v hv => ?_, fun v hv => ?_, fun items hitems => ?_⟩
    · exact absurd hv (by simp only [Assoc.find?, reduceCtorEq, not_false_eq_true])
    · exact absurd hv (by simp only [Assoc.find?, reduceCtorEq, not_false_eq_true])
    · exact absurd hitems (by simp only [Record.get, Assoc.find?, Option.getD_none, Json.elements,
        Defect.fail, reduceCtorEq, not_false_eq_true])
  · rw [hnil record h] at hw
    exact absurd hw (by simp only [Assoc.find?, reduceCtorEq, not_false_eq_true])

section Laws

variable (f : Int → Int)

theorem renamedItems_eq_map (role : Role) (items : List Json) :
    renamedItems f role items = items.map (renamed f role) := by
  induction items with
  | nil => rfl
  | cons v rest ih => rw [renamedItems, List.map_cons, ih]

theorem renamedMembers_eq_map (members : Record) :
    renamedMembers f members = members.map fun m => (m.1, renamed f (roleOf m.1) m.2) := by
  induction members with
  | nil => rfl
  | cons m rest ih => rw [renamedMembers, List.map_cons, ih]

/-- A reader that asks for a member finds the renamed one. -/
theorem find?_renamedMembers (record : Record) (name : String) :
    (renamedMembers f record).find? name = (record.find? name).map (renamed f (roleOf name)) := by
  induction record with
  | nil => rfl
  | cons m rest ih =>
      rcases m with ⟨other, v⟩
      rw [renamedMembers, Assoc.find?, Assoc.find?]
      by_cases h : other = name
      · rw [if_pos h, if_pos h, h, Option.map_some]
      · rw [if_neg h, if_neg h, ih]

theorem get_renamedMembers (record : Record) (name : String) :
    Record.get (renamedMembers f record) name = renamed f (roleOf name) (record.get name) := by
  rw [Record.get, Record.get, find?_renamedMembers]
  cases record.find? name with
  | none => simp only [Option.map_none, Option.getD_none, renamed]
  | some v => rfl

theorem getList_renamedMembers (record : Record) (name : String) :
    Record.getList (renamedMembers f record) name
      = renamed f (roleOf name) (record.getList name) := by
  rw [Record.getList, Record.getList, find?_renamedMembers]
  cases record.find? name with
  | none => simp only [Option.map_none, Option.getD_none, renamed, renamedItems]
  | some v => rfl

theorem members?_renamed (role : Role) (v : Json) :
    (renamed f role v).members? = v.members?.map (renamedMembers f) := by
  cases v <;> cases role <;> rfl

theorem isNull_renamed (role : Role) (v : Json) : (renamed f role v).isNull = v.isNull := by
  cases v <;> cases role <;> rfl

theorem isText_renamed (role : Role) (v : Json) (s : String) :
    (renamed f role v).isText s = v.isText s := by
  cases v <;> cases role <;> rfl

/-- Whether a value says nothing is asked of everything but ids. -/
theorem isEmpty_renamed (role : Role) (hrole : role ≠ .id) (v : Json) :
    (renamed f role v).isEmpty = v.isEmpty := by
  have hitems : ∀ items : List Json, (renamedItems f role.item items).isEmpty = items.isEmpty := by
    intro items
    rw [renamedItems_eq_map, List.isEmpty_map]
  have hmembers : ∀ members : Record, (renamedMembers f members).isEmpty = members.isEmpty := by
    intro members
    rw [renamedMembers_eq_map, List.isEmpty_map]
  -- An id is the one value that may become something else altogether.
  cases v with
  | arr items => exact hitems items
  | obj members => exact hmembers members
  | _ => cases role <;> first | rfl | exact absurd rfl hrole

/-- What goes through a value finds the same items, renamed. The names of members and the characters
of texts are no ids. -/
theorem elements_renamed (role : Role) (v : Json) :
    (renamed f role v).elements = v.elements.map (List.map (renamed f role.item)) := by
  -- The names of an object and the characters of a text are given out as texts, which no role
  -- renames.
  have htexts : ∀ {α : Type} (xs : List α) (g : α → String),
      (xs.map fun x => Json.str (g x)).map (renamed f role.item)
        = xs.map fun x => Json.str (g x) := by
    intro α xs g
    rw [List.map_map]
    refine List.map_congr_left (fun x _ => ?_)
    cases role <;> rfl
  cases v with
  | arr items =>
      rw [renamed, renamedItems_eq_map]
      rfl
  | obj members =>
      have hnames := htexts members (·.1)
      rw [renamed, renamedMembers_eq_map]
      simp only [Json.elements, Except.map, hnames, List.map_map]
      rfl
  | str s =>
      have hchars := htexts s.toList fun c => c.toString
      have hself : renamed f role (.str s) = .str s := by cases role <;> rfl
      rw [hself]
      simp only [Json.elements, Except.map, hchars]
  | _ => cases role <;> rfl

/-- Going through a renamed value does the same, item by item. -/
theorem elements_mirrors (role : Role) (v : Json) (h : IsTidy v) :
    Mirrors f (List.Forall₂ fun a b => IsTidy a ∧ b = renamed f role.item a) v.elements
      (renamed f role v).elements := by
  have htidy := isTidy_of_elements v h
  rw [elements_renamed]
  cases hitems : v.elements with
  | ok items =>
      change List.Forall₂ _ items (items.map _)
      rw [List.forall₂_map_right_iff, List.forall₂_same]
      exact fun item hitem => ⟨htidy items hitems item hitem, rfl⟩
  | error e =>
      -- A value that cannot be gone through is a defect, which names no id.
      refine Or.inr ?_
      cases v with
      | arr _ | obj _ | str _ =>
          exact absurd hitems (by simp only [Json.elements, reduceCtorEq, not_false_eq_true])
      | _ =>
          injection hitems with hitems
          rw [← hitems]
          rfl

/-- What is inside a value is renamed according to its own role. -/
theorem children_renamed (role : Role) (v : Json) :
    List.Forall₂ (fun c c' => c ∈ children v ∧ ∃ r, c' = renamed f r c) (children v)
      (children (renamed f role v)) := by
  -- A child of a list has the role of the items, a child of an object the role of its name.
  cases v with
  | arr items =>
      rw [renamed, children, children, renamedItems_eq_map, List.forall₂_map_right_iff,
        List.forall₂_same]
      exact fun c hc => ⟨hc, role.item, rfl⟩
  | obj members =>
      rw [renamed, children, children, renamedMembers_eq_map, List.map_map,
        List.forall₂_map_left_iff, List.forall₂_map_right_iff, List.forall₂_same]
      exact fun m hm => ⟨List.mem_map.mpr ⟨m, hm, rfl⟩, roleOf m.1, rfl⟩
  | _ => cases role <;> exact List.Forall₂.nil

mutual

/-- A value without ids stays as it is. -/
theorem renamed_of_holdsNoIds : ∀ v : Json, HoldsNoIds v → renamed f .plain v = v
  | .arr items, h => by
    rw [renamed, show Role.plain.item = .plain from rfl, renamedItems_of_holdsNoIds items]
    exact fun v hv record hrecord => h record (hrecord.trans (.child (v := .arr items) hv .self))
  | .obj members, h => by
    rw [renamed, renamedMembers_of_holdsNoIds members]
    -- No name in `v` says that an id follows, so the plain role is never left.
    refine fun m hm => ⟨h members .self m hm, fun record hrecord => ?_⟩
    exact h record (hrecord.trans (.child (List.mem_map.mpr ⟨m, hm, rfl⟩) .self))
  | .null, _ => rfl
  | .bool _, _ => rfl
  | .int _, _ => rfl
  | .real _, _ => rfl
  | .str _, _ => rfl

theorem renamedItems_of_holdsNoIds : ∀ items : List Json, (∀ v ∈ items, HoldsNoIds v) →
    renamedItems f .plain items = items
  | [], _ => rfl
  | v :: rest, h => by
    rw [renamedItems, renamed_of_holdsNoIds v (h v List.mem_cons_self),
      renamedItems_of_holdsNoIds rest fun w hw => h w (List.mem_cons_of_mem v hw)]

theorem renamedMembers_of_holdsNoIds : ∀ members : List (String × Json),
    (∀ m ∈ members, roleOf m.1 = .plain ∧ HoldsNoIds m.2) → renamedMembers f members = members
  | [], _ => rfl
  | (name, v) :: rest, h => by
    have hmember := h (name, v) List.mem_cons_self
    rw [renamedMembers, hmember.1, renamed_of_holdsNoIds v hmember.2,
      renamedMembers_of_holdsNoIds rest fun m hm => h m (List.mem_cons_of_mem _ hm)]

end

/-- The member in which something is made. -/
theorem get?_atMember (name : String) (g : Json → Json) (v : Json) :
    (atMember name g v).get? name = (v.get? name).map g := by
  cases v with
  | obj members =>
      change Assoc.find? name (members.map _) = (Assoc.find? name members).map g
      -- Along the list, because the look-up takes the first member of the name and the map leaves
      -- all names.
      induction members with
      | nil => rfl
      | cons m rest ih =>
          rcases m with ⟨other, w⟩
          rw [List.map_cons, Assoc.find?]
          by_cases h : other = name
          · rw [if_pos h, if_pos h, Assoc.find?, if_pos h, Option.map_some]
          · rw [if_neg h, if_neg h, Assoc.find?, if_neg h, ih]
  | _ => rfl

/-- The members in which nothing is made. -/
theorem get?_atMember_other (name other : String) (h : other ≠ name) (g : Json → Json) (v : Json) :
    (atMember name g v).get? other = v.get? other := by
  cases v with
  | obj members =>
      change Assoc.find? other (members.map _) = Assoc.find? other members
      induction members with
      | nil => rfl
      | cons m rest ih =>
          rcases m with ⟨third, w⟩
          rw [List.map_cons, Assoc.find?]
          by_cases hname : third = name
          · have hother : third ≠ other := fun heq => h (heq.symm.trans hname)
            rw [if_pos hname, Assoc.find?, if_neg hother, if_neg hother, ih]
          · rw [if_neg hname, Assoc.find?, ih]
  | _ => rfl

theorem record?_renamedOutput (output : Json) (sources : Record)
    (hsources : output.record? "sources" = some sources) :
    (renamedOutput f output).record? "sources" = some (renamedSources f sources) := by
  unfold Json.record? at hsources ⊢
  rcases Option.bind_eq_some_iff.mp hsources with ⟨v, hv, hmembers⟩
  rw [renamedOutput, get?_atMember, hv, Option.map_some, Option.bind_some, hmembers]
  rfl

theorem record?_renamedUnit (unit : Json) :
    (atMember "ast" (renamed f .plain) unit).record? "ast"
      = (unit.record? "ast").map (renamedMembers f) := by
  unfold Json.record?
  rw [get?_atMember]
  cases unit.get? "ast" with
  | none => rfl
  | some ast => exact members?_renamed f .plain ast

/-- A renamed description, if the object that it describes is tidy. -/
theorem description_renamed (record : Record) (h : IsTidy (.obj record)) (name : String)
    (hname : name ∈ descriptions) (w : Json) (hw : record.find? name = some w) :
    (renamedMembers f record).find? name = some w := by
  have hroles : ∀ other ∈ descriptions, roleOf other = .plain := by decide
  rw [find?_renamedMembers, hw, Option.map_some, hroles name hname,
    renamed_of_holdsNoIds f w (h.texts record .self name hname w hw)]

end Laws

/-! ## The index -/

/-- One table holds the nodes of another one under other ids. -/
structure HasRenamedNodes (f : Int → Int) (nodes nodes' : Nodes) : Prop where
  number : ∀ n : Int, Option.Rel (fun a b => b.record = renamedMembers f a.record)
    (nodes.find? (.number n)) (nodes'.find? (.number (f n)))
  /-- A reference that is null leads to nothing. -/
  null : nodes.find? .null = none ∧ nodes'.find? .null = none

/-- One table holds the contracts of another one under the same names. -/
def HasRenamedContracts (f : Int → Int) (contracts contracts' : Assoc String Record) : Prop :=
  ∀ fullName, Option.Rel (fun r r' => r' = renamedMembers f r) (contracts.find? fullName)
    (contracts'.find? fullName)

/-- One index holds what another one does, under other ids. -/
structure IsRenaming (f : Int → Int) (index index' : Index) : Prop where
  nodes : HasRenamedNodes f index.nodes index'.nodes
  contracts : HasRenamedContracts f index.contracts index'.contracts

section Indexing

variable {f : Int → Int} (hf : Function.Injective f)

include hf

/-- An object that is entered is entered under its new id. -/
theorem enter_renamed (record : Record) (htidy : IsTidy (.obj record)) (nodes nodes' : Nodes)
    (h : HasRenamedNodes f nodes nodes') :
    Mirrors f (HasRenamedNodes f) (enter record nodes)
      (enter (renamedMembers f record) nodes') := by
  unfold enter
  rw [find?_renamedMembers]
  cases hid : record.find? "id" with
  | none => exact h
  | some id =>
      rcases (htidy.ids record .self).own id hid with ⟨n, hn⟩
      rw [hn]
      change HasRenamedNodes f (nodes.change (.number n) _) (nodes'.change (.number (f n)) _)
      refine ⟨fun m => ?_, ?_, ?_⟩
      · by_cases hm : n = m
        · rw [← hm, Assoc.find?_change_self, Assoc.find?_change_self]
          exact .some rfl
        · -- Two ids that differ do so under their new names.
          have hold : Key.number n ≠ .number m := by
            intro heq
            injection heq with heq
            exact hm (Rat.intCast_inj.mp heq)
          have hnew : Key.number (f n) ≠ .number (f m) := by
            intro heq
            injection heq with heq
            exact hm (hf (Rat.intCast_inj.mp heq))
          rw [Assoc.find?_change_other hold, Assoc.find?_change_other hnew]
          exact h.number m
      · rw [Assoc.find?_change_other (by simp only [ne_eq, reduceCtorEq, not_false_eq_true])]
        exact h.null.1
      · rw [Assoc.find?_change_other (by simp only [ne_eq, reduceCtorEq, not_false_eq_true])]
        exact h.null.2

/-- The walk through renamed trees goes along with the walk through the trees. -/
theorem walk_renamed (stack stack' : List Json) (nodes nodes' : Nodes)
    (hstack : List.Forall₂ (fun v w => IsTidy v ∧ ∃ role, w = renamed f role v) stack stack')
    (h : HasRenamedNodes f nodes nodes') :
    Mirrors f (HasRenamedNodes f) (walk stack nodes) (walk stack' nodes') := by
  -- What is pushed in place of a value is tidy, and renamed by its own role.
  have hpush : ∀ (v : Json) (role : Role) (rest rest' : List Json), IsTidy v →
      List.Forall₂ (fun v w => IsTidy v ∧ ∃ role, w = renamed f role v) rest rest' →
      List.Forall₂ (fun v w => IsTidy v ∧ ∃ role, w = renamed f role v)
        ((children v).reverse ++ rest) ((children (renamed f role v)).reverse ++ rest') := by
    intro v role rest rest' htidy hrest
    refine List.rel_append (List.rel_reverse ?_) hrest
    exact (children_renamed f role v).imp (fun _ _ hc => ⟨htidy.inside (.child hc.1 .self), hc.2⟩)
  -- Both walks take the same steps, because a renamed value is an object exactly if the value is.
  induction stack, nodes using walk.induct generalizing stack' nodes' with
  | case1 nodes =>
      cases hstack
      rw [walk, walk]
      exact h
  | case2 v stack nodes record hv ih =>
      cases hstack with
      | @cons _ w _ rest' hvw hrest =>
          rcases hvw with ⟨htidy, role, hw⟩
          have hmembers := members?_renamed f role v
          rw [hv, Option.map_some] at hmembers
          rw [hw, walk, walk, hv, hmembers]
          have hobj := v.members?_eq_some record hv
          rw [hobj] at htidy
          refine Tracks.bind (enter_renamed hf record htidy nodes nodes' h) (fun t t' ht => ?_)
          rw [← hobj] at htidy
          exact ih t _ t' (hpush v role stack rest' htidy hrest) ht
  | case3 v stack nodes hv ih =>
      cases hstack with
      | @cons _ w _ rest' hvw hrest =>
          rcases hvw with ⟨htidy, role, hw⟩
          have hmembers := members?_renamed f role v
          rw [hv, Option.map_none] at hmembers
          rw [hw, walk, walk, hv, hmembers]
          exact ih nodes _ nodes' (hpush v role stack rest' htidy hrest) h

omit hf in
/-- A contract is entered under the same name. -/
theorem enterContract_renamed (path : String) (node : Json) (htidy : IsTidy node)
    (contracts contracts' : Assoc String Record) (h : HasRenamedContracts f contracts contracts') :
    Mirrors f (HasRenamedContracts f) (enterContract path contracts node)
      (enterContract path contracts' (renamed f .plain node)) := by
  unfold enterContract
  rw [members?_renamed]
  cases hnode : node.members? with
  | none => exact h
  | some record =>
      rw [node.members?_eq_some record hnode] at htidy
      have hkind := get_renamedMembers f record "nodeType"
      simp only [Option.map_some, hkind, isText_renamed]
      split
      · -- The name is a description, and so it is the same text on both sides.
        have hmember : Mirrors f (fun a b => a = b) (record.member "name")
            (Record.member (renamedMembers f record) "name") := by
          unfold Record.member
          cases hname : record.find? "name" with
          | none =>
              rw [find?_renamedMembers, hname]
              exact Or.inr rfl
          | some name =>
              rw [description_renamed f record htidy "name" (by decide) name hname]
              exact rfl
        refine Tracks.bind hmember (fun name name' hname => ?_)
        rw [← hname]
        have hshown : Mirrors f (fun a b => a = b) name.shown name.shown := by
          unfold Json.shown
          split
          · exact rfl
          · exact Or.inr rfl
        refine Tracks.bind hshown (fun shown shown' hsame => ?_)
        rw [← hsame]
        intro fullName
        by_cases hfull : s!"{path}:{shown}" = fullName
        · rw [hfull, Assoc.find?_put_self, Assoc.find?_put_self]
          exact .some rfl
        · rw [Assoc.find?_put_other hfull, Assoc.find?_put_other hfull]
          exact h fullName
      · exact h

/-- The tree of a source is entered under other ids. -/
theorem enterSource_renamed (path : String) (unit : Json)
    (htidy : ∀ ast, unit.record? "ast" = some ast → IsTidy (.obj ast)) (index index' : Index)
    (h : IsRenaming f index index') :
    Mirrors f (IsRenaming f) (enterSource index path unit)
      (enterSource index' path (atMember "ast" (renamed f .plain) unit)) := by
  unfold enterSource
  rw [record?_renamedUnit]
  cases hast : unit.record? "ast" with
  | none => exact Or.inr rfl
  | some ast =>
      have htree := htidy ast hast
      -- The walk and the list of the top nodes read the same tree, and both see every id through
      -- `f`.
      have hstack : List.Forall₂ (fun v w => IsTidy v ∧ ∃ role, w = renamed f role v)
          [Json.obj ast] [Json.obj (renamedMembers f ast)] :=
        List.Forall₂.cons ⟨htree, .plain, rfl⟩ List.Forall₂.nil
      simp only [Option.map_some]
      refine Tracks.bind (walk_renamed hf _ _ _ _ hstack h.nodes) (fun nodes nodes' hnodes => ?_)
      rw [getList_renamedMembers]
      refine Tracks.bind (elements_mirrors f (roleOf "nodes") _ (isTidy_getList ast htree "nodes"))
        (fun top top' htop => ?_)
      have hcontracts : Mirrors f (HasRenamedContracts f)
          (top.foldlM (enterContract path) index.contracts)
          (top'.foldlM (enterContract path) index'.contracts) := by
        refine Tracks.foldlM htop (fun c d a b hcd hab => ?_) _ _ h.contracts
        rw [hab.2]
        exact enterContract_renamed path a hab.1 c d hcd
      exact Tracks.map hcontracts (fun contracts contracts' hc => ⟨hnodes, hc⟩)

/-- The index of renamed output holds what the index of the output does, under the new ids. -/
theorem ofOutput_renamed (output : Json) (sources : Record)
    (hsources : output.record? "sources" = some sources)
    (htidy : ∀ tree ∈ treesOf sources, IsTidy (.obj tree.2)) :
    Mirrors f (IsRenaming f) (Index.ofOutput output)
      (Index.ofOutput (renamedOutput f output)) := by
  rw [Index.ofOutput, Index.ofOutput, hsources, record?_renamedOutput f output sources hsources]
  -- The trees are taken in the order of the sources, which have the same paths in both outputs.
  have hunits : List.Forall₂ (fun unit unit' : String × Json => unit'.1 = unit.1 ∧
      unit'.2 = atMember "ast" (renamed f .plain) unit.2 ∧
      ∀ ast, unit.2.record? "ast" = some ast → IsTidy (.obj ast)) sources
      (renamedSources f sources) := by
    rw [renamedSources, List.forall₂_map_right_iff, List.forall₂_same]
    intro unit hunit
    exact ⟨rfl, rfl, fun ast hast =>
      htidy (unit.1, ast) ((mem_treesOf sources unit.1 ast).mpr ⟨unit.2, hunit, hast⟩)⟩
  refine Tracks.foldlM hunits (fun index index' unit unit' h hunit => ?_) _ _ ?_
  · rw [hunit.1, hunit.2.1]
    exact enterSource_renamed hf unit.1 unit.2 hunit.2.2 index index' h
  · exact ⟨⟨fun _ => .none, rfl, rfl⟩, fun _ => .none⟩

end Indexing

end Ast

end StorageLayout
