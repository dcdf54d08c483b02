import Mathlib.Data.List.Induction
import StorageLayout.Proofs.BareName

/-!
# Candidates for a Bare Name

A bare name is looked up as if the table of contracts were keyed by path and name.

The key of a contract is one text that is made of the two, and the table forgets what it was made
of. For a bare name the keys are taken apart again, each at its last colon. If names are free of
colons this finds the name of every contract, whatever stands in the paths, so the candidates for a
name are the keys of the contracts of this name and nothing else.

The table is made source by source. Entering the contracts of one source adds one candidate for a
name at most: its own key for the name, at the end, unless the same path had one before
(`candidates_section`). Over all sources that is one candidate for every path that has the name, in
the order of the sources (`candidates_tableOf`). What is entered under a key stays there unless the
same source has another contract of the same name, for no other contract has this key.

Both kinds of compiler output are lists of sources with named records, so both tables are exact in
this sense (`contracts_exact`), each as long as its own names have no colons.

## Main definitions

* `HasRecord`: A source has a record under a name.
* `tableOf`: The table of the records of all sources, by qualified names.
* `IsExact`: A table keeps all records apart, and bare names are resolved in it to what there is.
* `DefinesRecord`, `ListsRecord`: The record of a contract, by its path and its name.

## Theorems

* `candidates_section`, `candidates_tableOf`: The candidates for a name.
* `qualify_of_candidates`: What a name is resolved to among them.
* `isExact_tableOf`: The table of all sources is exact.
* `contracts_exact`: The tables of contracts are exact.
-/

namespace StorageLayout

/-- A source has a record under a name. -/
def HasRecord {α : Type} (sections : List (String × List (String × α))) (path name : String)
    (record : α) : Prop :=
  ∃ named, (path, named) ∈ sections ∧ (name, record) ∈ named

/-- The records of one source by their qualified names. -/
def qualifiedIn {α : Type} (path : String) (named : List (String × α)) : List (String × α) :=
  named.map fun e => (s!"{path}:{e.1}", e.2)

/-- The table of the records of all sources. -/
def tableOf {α : Type} (sections : List (String × List (String × α))) : Assoc String α :=
  Assoc.ofList (sections.flatMap fun s => qualifiedIn s.1 s.2)

/-- What a bare name is resolved to, by the paths that have the name. -/
def resolution (name : String) : List String → Except Error String
  | [] => .error (.noContractNamed name)
  | [path] => .ok s!"{path}:{name}"
  | paths => .error (.ambiguousName name (paths.map fun path => s!"{path}:{name}"))

/-- A table keeps all records apart, by their paths and names, and a bare name is resolved in it to
what there is: the one path that has the name, or else nothing or a choice of all that have it.
`paths` are the paths of the sources in order, and `has` tells their records. -/
structure IsExact {α : Type} (paths : List String) (has : String → String → α → Prop)
    (table : Assoc String α) : Prop where
  resolved : ∀ name, ContractName.isQualified name = false → ∃ defining : List String,
    defining.Nodup ∧ defining.Sublist paths ∧
      (∀ path, path ∈ defining ↔ ∃ record, has path name record) ∧
      ContractName.qualify name table.keys = resolution name defining
  distinct : ∀ path name record otherPath other record', has path name record →
    has otherPath other record' → s!"{path}:{name}" = s!"{otherPath}:{other}" →
    path = otherPath ∧ name = other
  kept : ∀ path name record, has path name record →
    ∃ last, table.find? s!"{path}:{name}" = some last ∧ has path name last
  only : ∀ fullName record, table.find? fullName = some record →
    ∃ path name, fullName = s!"{path}:{name}" ∧ has path name record

/-- Puts an item at the end of a list, unless it is there. -/
def appendNew (k : String) (keys : List String) : List String :=
  if k ∈ keys then keys else keys ++ [k]

theorem mem_appendNew (k l : String) (keys : List String) :
    l ∈ appendNew k keys ↔ l ∈ keys ∨ l = k := by
  unfold appendNew
  by_cases hk : k ∈ keys
  · rw [if_pos hk]
    refine ⟨.inl, ?_⟩
    rintro (hl | hl)
    · exact hl
    · rw [hl]
      exact hk
  · rw [if_neg hk, List.mem_append, List.mem_singleton]

theorem appendNew_self (k : String) (keys : List String) :
    appendNew k (appendNew k keys) = appendNew k keys :=
  if_pos ((mem_appendNew k k keys).mpr (.inr rfl))

theorem nodup_appendNew (k : String) (keys : List String) (h : keys.Nodup) :
    (appendNew k keys).Nodup := by
  unfold appendNew
  by_cases hk : k ∈ keys
  · rw [if_pos hk]
    exact h
  · rw [if_neg hk]
    exact List.nodup_append.mpr ⟨h, List.pairwise_singleton _ k, fun l hl k' hk' heq =>
      hk (List.mem_singleton.mp hk' ▸ heq ▸ hl)⟩

theorem appendNew_sublist (k : String) (keys : List String) :
    (appendNew k keys).Sublist (keys ++ [k]) := by
  unfold appendNew
  by_cases hk : k ∈ keys
  · rw [if_pos hk]
    exact List.sublist_append_left keys [k]
  · rw [if_neg hk]

namespace ContractName

variable {α : Type} (name : String)

/-- The keys that a bare name may stand for. -/
def candidatesFor (keys : List String) : List String := keys.filter fun c => bareName c = name

theorem mem_candidatesFor (key : String) (keys : List String) :
    key ∈ candidatesFor name keys ↔ key ∈ keys ∧ bareName key = name := by
  rw [candidatesFor, List.mem_filter, decide_eq_true_eq]

/-- A key that is entered is a candidate for its own name only. -/
theorem candidatesFor_appendNew (path other : String) (keys : List String)
    (hother : ':' ∉ other.toList) :
    candidatesFor name (appendNew s!"{path}:{other}" keys) =
      if other = name then appendNew s!"{path}:{name}" (candidatesFor name keys)
      else candidatesFor name keys := by
  have hbare := bareName_qualified path other hother
  -- What becomes of a key at the end of the list.
  have hlast : candidatesFor name (keys ++ [s!"{path}:{other}"])
      = candidatesFor name keys ++ if other = name then [s!"{path}:{other}"] else [] := by
    rw [candidatesFor, List.filter_append, List.filter_singleton, hbare]
    by_cases hname : other = name
    · rw [if_pos hname, decide_eq_true hname]
      rfl
    · rw [if_neg hname, decide_eq_false hname]
      rfl
  unfold appendNew
  by_cases hname : other = name
  · rw [hname] at hbare hlast ⊢
    rw [if_pos rfl] at hlast
    rw [if_pos rfl, hlast.symm]
    by_cases hkey : s!"{path}:{name}" ∈ keys
    · rw [if_pos hkey, if_pos ((mem_candidatesFor name _ _).mpr ⟨hkey, hbare⟩)]
    · rw [if_neg hkey, if_neg (fun h => hkey ((mem_candidatesFor name _ _).mp h).1)]
  · rw [if_neg hname] at hlast ⊢
    rw [List.append_nil] at hlast
    by_cases hkey : s!"{path}:{other}" ∈ keys
    · rw [if_pos hkey]
    · rw [if_neg hkey, hlast]

/-- Entering the contracts of a source adds one candidate at most. -/
theorem candidates_section (path : String) (named : List (String × α)) (m : Assoc String α)
    (hplain : ∀ e ∈ named, ':' ∉ e.1.toList) :
    candidatesFor name ((qualifiedIn path named).foldl (fun m p => m.put p.1 p.2) m).keys =
      if name ∈ Assoc.keys named then appendNew s!"{path}:{name}" (candidatesFor name m.keys)
      else candidatesFor name m.keys := by
  induction named generalizing m with
  | nil => rfl
  | cons e rest ih =>
      rcases e with ⟨other, record⟩
      have hother := hplain (other, record) List.mem_cons_self
      have hput : candidatesFor name (m.put s!"{path}:{other}" record).keys
          = if other = name then appendNew s!"{path}:{name}" (candidatesFor name m.keys)
            else candidatesFor name m.keys := by
        rw [Assoc.put, Assoc.keys_change]
        exact candidatesFor_appendNew name path other m.keys hother
      change candidatesFor name ((qualifiedIn path rest).foldl _
        (m.put s!"{path}:{other}" record)).keys = _
      rw [ih _ (fun e he => hplain e (List.mem_cons_of_mem _ he)), hput]
      have hmem : name ∈ Assoc.keys ((other, record) :: rest)
          ↔ other = name ∨ name ∈ Assoc.keys rest := by
        rw [Assoc.keys, List.map_cons, List.mem_cons, eq_comm]
        rfl
      simp only [hmem]
      by_cases hname : other = name
      · -- If the name comes again, its key is there already.
        simp only [hname, true_or, if_true, appendNew_self, ite_self]
      · simp only [hname, false_or, if_false]

theorem map_appendNew (path : String) (paths : List String) :
    (appendNew path paths).map (fun p => s!"{p}:{name}")
      = appendNew s!"{path}:{name}" (paths.map fun p => s!"{p}:{name}") := by
  have hmem : s!"{path}:{name}" ∈ (paths.map fun p => s!"{p}:{name}") ↔ path ∈ paths := by
    rw [List.mem_map]
    constructor
    · rintro ⟨p, hp, heq⟩
      rw [← qualified_left_cancel heq]
      exact hp
    · intro hpath
      exact ⟨path, hpath, rfl⟩
  -- The path is new exactly if the qualified name is.
  unfold appendNew
  by_cases hpath : path ∈ paths
  · rw [if_pos hpath, if_pos (hmem.mpr hpath)]
  · rw [if_neg hpath, if_neg (fun h => hpath (hmem.mp h)), List.map_append]
    rfl

/-- The paths that have a name, each where it first comes. -/
def definingPaths (sections : List (String × List (String × α))) : List String :=
  sections.foldl (fun paths s => if name ∈ Assoc.keys s.2 then appendNew s.1 paths else paths) []

theorem definingPaths_concat (sections : List (String × List (String × α)))
    (s : String × List (String × α)) :
    definingPaths name (sections ++ [s]) =
      if name ∈ Assoc.keys s.2 then appendNew s.1 (definingPaths name sections)
      else definingPaths name sections := by
  rw [definingPaths, List.foldl_append]
  rfl

/-- The paths that have a name are listed once each, in the order of the sources. -/
theorem definingPaths_spec (sections : List (String × List (String × α))) :
    (definingPaths name sections).Nodup ∧
      (definingPaths name sections).Sublist (Assoc.keys sections) ∧
      ∀ path, path ∈ definingPaths name sections ↔
        ∃ record, HasRecord sections path name record := by
  -- From the last section on, because the paths are collected in front of it.
  induction sections using List.reverseRecOn with
  | nil =>
      refine ⟨List.nodup_nil, List.Sublist.refl [], fun path => ?_⟩
      constructor
      · intro h
        exact absurd h List.not_mem_nil
      · rintro ⟨_, _, h, _⟩
        exact absurd h List.not_mem_nil
  | append_singleton sections s ih =>
      rcases ih with ⟨hnodup, hsublist, hmem⟩
      have hkeys : Assoc.keys (sections ++ [s]) = Assoc.keys sections ++ [s.1] := by
        rw [Assoc.keys, List.map_append]
        rfl
      have hholds : ∀ path, (∃ record, HasRecord (sections ++ [s]) path name record) ↔
          path ∈ definingPaths name sections ∨ (path = s.1 ∧ name ∈ Assoc.keys s.2) := by
        intro path
        rw [hmem]
        constructor
        · rintro ⟨record, named, hs, hrecord⟩
          rcases List.mem_append.mp hs with hs | hs
          · exact .inl ⟨record, named, hs, hrecord⟩
          · rw [List.mem_singleton] at hs
            rw [← hs]
            exact .inr ⟨rfl, List.mem_map.mpr ⟨(name, record), hrecord, rfl⟩⟩
        · rintro (⟨record, named, hs, hrecord⟩ | ⟨hpath, hname⟩)
          · exact ⟨record, named, List.mem_append_left _ hs, hrecord⟩
          · rcases List.mem_map.mp hname with ⟨e, he, hname⟩
            refine ⟨e.2, s.2, List.mem_append_right _ ?_, ?_⟩
            · rw [hpath]
              exact List.mem_singleton_self s
            · rw [← hname]
              exact he
      -- The last section adds its path if it has the name, and then only if the path is new.
      rw [definingPaths_concat, hkeys]
      by_cases hname : name ∈ Assoc.keys s.2
      · rw [if_pos hname]
        refine ⟨nodup_appendNew _ _ hnodup,
          (appendNew_sublist _ _).trans (hsublist.append (List.Sublist.refl [s.1])), fun path => ?_⟩
        rw [hholds, mem_appendNew, and_iff_left hname]
      · rw [if_neg hname]
        refine ⟨hnodup, hsublist.trans (List.sublist_append_left _ _), fun path => ?_⟩
        rw [hholds, or_iff_left (fun h => hname h.2)]

/-- The candidates for a name are the keys of the paths that have it. -/
theorem candidates_tableOf (sections : List (String × List (String × α)))
    (hplain : ∀ s ∈ sections, ∀ e ∈ s.2, ':' ∉ e.1.toList) :
    candidatesFor name (tableOf sections).keys
      = (definingPaths name sections).map fun path => s!"{path}:{name}" := by
  induction sections using List.reverseRecOn with
  | nil => rfl
  | append_singleton sections s ih =>
      have htable : tableOf (sections ++ [s])
          = (qualifiedIn s.1 s.2).foldl (fun m p => m.put p.1 p.2) (tableOf sections) := by
        rw [tableOf, Assoc.ofList, List.flatMap_append, List.foldl_append, List.flatMap_singleton]
        rfl
      -- The names of the last section are put into the table that the others have made.
      rw [htable, candidates_section name s.1 s.2 _
        (hplain s (List.mem_append_right _ (List.mem_singleton_self s))),
        ih (fun s' hs' => hplain s' (List.mem_append_left _ hs')), definingPaths_concat]
      split
      · exact (map_appendNew name s.1 _).symm
      · rfl

/-- What a bare name is resolved to, by its candidates. -/
theorem qualify_of_candidates (keys paths : List String) (hbare : isQualified name = false)
    (h : candidatesFor name keys = paths.map fun path => s!"{path}:{name}") :
    qualify name keys = resolution name paths := by
  have hfound : qualify name keys = (match candidatesFor name keys with
      | [] => .error (.noContractNamed name)
      | [found] => .ok found
      | found => .error (.ambiguousName name found) : Except Error String) := by
    rw [qualify, hbare, if_neg Bool.false_ne_true]
    rfl
  rw [hfound, h]
  rcases paths with _ | ⟨path, _ | ⟨path', rest⟩⟩ <;> rfl

end ContractName

section Tables

variable {α : Type} (sections : List (String × List (String × α)))

theorem mem_qualified_iff (fullName : String) (record : α) :
    (fullName, record) ∈ (sections.flatMap fun s => qualifiedIn s.1 s.2) ↔
      ∃ path name, fullName = s!"{path}:{name}" ∧ HasRecord sections path name record := by
  constructor
  · intro h
    -- A pair of the table comes from one section and from one name in it.
    rcases List.mem_flatMap.mp h with ⟨s, hs, h⟩
    rcases List.mem_map.mp h with ⟨e, he, heq⟩
    injection heq with hfull hrecord
    rw [← hrecord]
    exact ⟨s.1, e.1, hfull.symm, s.2, hs, he⟩
  · rintro ⟨path, name, hfull, named, hs, he⟩
    rw [hfull]
    exact List.mem_flatMap.mpr ⟨(path, named), hs, List.mem_map.mpr ⟨(name, record), he, rfl⟩⟩

/-- The table of all sources is exact, if names have no colons. -/
theorem isExact_tableOf (hplain : ∀ s ∈ sections, ∀ e ∈ s.2, ':' ∉ e.1.toList) :
    IsExact (Assoc.keys sections) (HasRecord sections) (tableOf sections) := by
  have hcolon : ∀ path name record, HasRecord sections path name record → ':' ∉ name.toList := by
    rintro path name record ⟨named, hs, he⟩
    exact hplain _ hs _ he
  constructor
  case resolved =>
    intro name hbare
    rcases ContractName.definingPaths_spec name sections with ⟨hnodup, hsublist, hmem⟩
    exact ⟨_, hnodup, hsublist, hmem, ContractName.qualify_of_candidates name _ _ hbare
      (ContractName.candidates_tableOf name sections hplain)⟩
  case distinct =>
    intro path name record otherPath other record' h h' heq
    exact ContractName.qualified_inj (hcolon _ _ _ h) (hcolon _ _ _ h') heq
  case kept =>
    intro path name record h
    have hmem := (mem_qualified_iff sections _ record).mpr ⟨path, name, rfl, h⟩
    cases hfind : (tableOf sections).find? s!"{path}:{name}" with
    | none => exact absurd hmem (Assoc.not_mem_of_find?_ofList _ _ hfind record)
    | some last =>
        rcases (mem_qualified_iff sections _ last).mp (Assoc.find?_ofList_mem _ last _ hfind) with
          ⟨otherPath, other, heq, hlast⟩
        -- No other contract has the same key.
        rcases ContractName.qualified_inj (hcolon _ _ _ h) (hcolon _ _ _ hlast) heq with
          ⟨hpath, hname⟩
        rw [hpath, hname]
        exact ⟨last, rfl, hlast⟩
  case only =>
    intro fullName record hfind
    exact (mem_qualified_iff sections _ record).mp (Assoc.find?_ofList_mem _ record _ hfind)

end Tables

/-- A table is exact for all that says the same of its records. -/
theorem IsExact.congr {α : Type} {paths paths' : List String}
    {has has' : String → String → α → Prop} {table : Assoc String α}
    (h : IsExact paths has table) (hpaths : paths.Sublist paths')
    (hhas : ∀ path name record, has path name record ↔ has' path name record) :
    IsExact paths' has' table := by
  have heq : has = has' := by
    funext path name record
    exact propext (hhas path name record)
  rw [← heq]
  refine ⟨fun name hbare => ?_, h.distinct, h.kept, h.only⟩
  rcases h.resolved name hbare with ⟨defining, hnodup, hsublist, hmem, hqualify⟩
  exact ⟨defining, hnodup, hsublist.trans hpaths, hmem, hqualify⟩

/-- The record of a contract that is defined at the top of the tree of a source. -/
def DefinesRecord (output : Json) (path name : String) (record : Record) : Prop :=
  ∃ sources ast shown, output.record? "sources" = some sources ∧
    (path, ast) ∈ Ast.treesOf sources ∧ Ast.Defines ast record shown ∧ shown.display = name

/-- The record of a contract that stands in the contracts section. -/
def ListsRecord (output : Json) (path name : String) (contract : Json) : Prop :=
  ∃ units contracts, output.record? "contracts" = some units ∧ (path, .obj contracts) ∈ units ∧
    (name, contract) ∈ contracts

namespace Ast

/-- A contract that a top-level node defines, by its own name. -/
def namedDefinition? (node : Json) : Option (String × Record) :=
  node.members?.bind fun record =>
    if (Record.get record "nodeType").isText "ContractDefinition" then
      (record.find? "name").map fun name => (name.display, record)
    else none

/-- The contracts at the top of a tree, by their own names. -/
def namedDefinitions (ast : Record) : List (String × Record) :=
  ((ast.getList "nodes").elements.toOption.getD []).filterMap namedDefinition?

/-- The sources of a build with the contracts that are defined in their trees. -/
def sectionsOf (sources : Record) : List (String × List (String × Record)) :=
  (treesOf sources).map fun tree => (tree.1, namedDefinitions tree.2)

theorem definitionsIn_eq (path : String) (ast : Record) :
    definitionsIn path ast = qualifiedIn path (namedDefinitions ast) := by
  rw [definitionsIn, qualifiedIn, namedDefinitions, List.map_filterMap]
  congr 1
  funext node
  unfold definition? namedDefinition?
  cases node.members? with
  | none => rfl
  | some record =>
      rw [Option.bind_some, Option.bind_some]
      -- The path and the name are put together at the end, for each definition by itself.
      split
      · cases record.find? "name" <;> rfl
      · rfl

theorem mem_namedDefinitions (ast record : Record) (name : String) :
    (name, record) ∈ namedDefinitions ast ↔ ∃ shown, Defines ast record shown ∧
      shown.display = name := by
  constructor
  · intro h
    -- The path under which a definition is looked at does not matter for its name.
    have hmem : ∀ path : String, (s!"{path}:{name}", record) ∈ definitionsIn path ast := by
      intro path
      rw [definitionsIn_eq]
      exact List.mem_map.mpr ⟨(name, record), h, rfl⟩
    rcases mem_definitionsIn "" ast _ record (hmem "") with ⟨shown, hdefines, _, rfl, hfull⟩
    exact ⟨shown, hdefines, (ContractName.qualified_right_cancel hfull).symm⟩
  · rintro ⟨shown, ⟨items, hitems, hrecord, hkind, hname⟩, hshown⟩
    refine List.mem_filterMap.mpr ⟨.obj record, ?_, ?_⟩
    · rw [hitems]
      exact hrecord
    · change (if (record.get "nodeType").isText "ContractDefinition" then
        (record.find? "name").map fun name => (name.display, record) else none) = _
      rw [if_pos hkind, hname, ← hshown]
      rfl

theorem sectionsOf_paths (sources : Record) :
    (Assoc.keys (sectionsOf sources)).Sublist (Assoc.keys sources) := by
  induction sources with
  | nil => exact List.Sublist.refl []
  | cons unit rest ih =>
      unfold sectionsOf treesOf at ih ⊢
      rw [List.filterMap_cons]
      cases unit.2.record? "ast" with
      | none => exact ih.trans (List.sublist_cons_self _ _)
      | some ast => exact ih.cons_cons unit.1

theorem hasRecord_sectionsOf (output : Json) (sources : Record)
    (hsources : output.record? "sources" = some sources) (path name : String) (record : Record) :
    HasRecord (sectionsOf sources) path name record ↔ DefinesRecord output path name record := by
  constructor
  · rintro ⟨named, hs, he⟩
    rcases List.mem_map.mp hs with ⟨tree, htree, heq⟩
    injection heq with hpath hnamed
    rw [← hnamed] at he
    rcases (mem_namedDefinitions tree.2 record name).mp he with ⟨shown, hdefines, hshown⟩
    exact ⟨sources, tree.2, shown, hsources, hpath ▸ htree, hdefines, hshown⟩
  · rintro ⟨sources', ast, shown, hsources', htree, hdefines, hshown⟩
    rw [hsources] at hsources'
    injection hsources' with heq
    rw [← heq] at htree
    exact ⟨namedDefinitions ast, List.mem_map.mpr ⟨(path, ast), htree, rfl⟩,
      (mem_namedDefinitions ast record name).mpr ⟨shown, hdefines, hshown⟩⟩

/-- The table of contracts is that of the sources with their definitions. -/
theorem contracts_eq (output : Json) (sources : Record) (index : Index)
    (hsources : output.record? "sources" = some sources)
    (h : Index.ofOutput output = .ok index) : index.contracts = tableOf (sectionsOf sources) := by
  rw [Index.ofOutput_definitions output sources index hsources h, tableOf, sectionsOf,
    List.flatMap_map]
  simp only [definitionsIn_eq]

end Ast

namespace Emitted

/-- The contracts of a source by their own names. -/
def namedContracts : Json → List (String × Json)
  | .obj contracts => contracts
  | _ => []

/-- The sources of a build with the contracts that are listed for them. -/
def sectionsOf (units : Record) : List (String × List (String × Json)) :=
  units.map fun unit => (unit.1, namedContracts unit.2)

theorem listedIn_eq (path : String) (named : Json) :
    listedIn path named = qualifiedIn path (namedContracts named) := by
  cases named <;> rfl

theorem mem_namedContracts (named contract : Json) (name : String) :
    (name, contract) ∈ namedContracts named ↔
      ∃ contracts, named = .obj contracts ∧ (name, contract) ∈ contracts := by
  constructor
  · intro h
    cases named with
    | obj contracts => exact ⟨contracts, rfl, h⟩
    | _ => exact absurd h List.not_mem_nil
  · rintro ⟨contracts, hnamed, h⟩
    rw [hnamed]
    exact h

theorem hasRecord_sectionsOf (output : Json) (units : Record)
    (hunits : output.record? "contracts" = some units) (path name : String) (contract : Json) :
    HasRecord (sectionsOf units) path name contract ↔ ListsRecord output path name contract := by
  constructor
  · rintro ⟨named, hs, he⟩
    rcases List.mem_map.mp hs with ⟨unit, hunit, heq⟩
    injection heq with hpath hnamed
    rw [← hnamed] at he
    rcases (mem_namedContracts unit.2 contract name).mp he with ⟨contracts, hobj, hmem⟩
    exact ⟨units, contracts, hunits, hpath ▸ hobj ▸ hunit, hmem⟩
  · rintro ⟨units', contracts, hunits', hunit, hmem⟩
    rw [hunits] at hunits'
    injection hunits' with heq
    rw [← heq] at hunit
    exact ⟨contracts, List.mem_map.mpr ⟨(path, .obj contracts), hunit, rfl⟩, hmem⟩

theorem sectionsOf_paths (units : Record) :
    Assoc.keys (sectionsOf units) = Assoc.keys units := by
  rw [Assoc.keys, sectionsOf, List.map_map]
  rfl

/-- Compiler output with an index has a contracts section. -/
theorem units_of_ok (output : Json) (index : Index) (h : Index.ofOutput output = .ok index) :
    ∃ units, output.record? "contracts" = some units := by
  unfold Index.ofOutput at h
  cases hunits : output.record? "contracts" with
  | none =>
      rw [hunits] at h
      exact absurd h (by simp only [reduceCtorEq, not_false_eq_true])
  | some units => exact ⟨units, rfl⟩

/-- The table of contracts is that of the sources with what is listed for them. -/
theorem contracts_eq (output : Json) (units : Record) (index : Index)
    (hunits : output.record? "contracts" = some units)
    (h : Index.ofOutput output = .ok index) : index.contracts = tableOf (sectionsOf units) := by
  rw [ofOutput_contracts output units index hunits h, tableOf, sectionsOf, List.flatMap_map,
    listedContracts]
  simp only [listedIn_eq]

end Emitted

/-- The tables of contracts are exact: each keeps all contracts apart by their paths and names, but
for those that repeat a name in one source, and a bare name is resolved in it to the one path that
has the name, or else to nothing or to a choice of all paths that have it, once each and in the
order of the sources. Each table needs its own names to be free of colons. -/
theorem contracts_exact :
    (∀ (output : Json) (index : Ast.Index), Ast.Index.ofOutput output = .ok index →
      (∀ path name record, DefinesRecord output path name record → ':' ∉ name.toList) →
      ∃ sources, output.record? "sources" = some sources ∧
        IsExact (Assoc.keys sources) (DefinesRecord output) index.contracts) ∧
    (∀ (output : Json) (index : Emitted.Index), Emitted.Index.ofOutput output = .ok index →
      (∀ path name record, ListsRecord output path name record → ':' ∉ name.toList) →
      ∃ units, output.record? "contracts" = some units ∧
        IsExact (Assoc.keys units) (ListsRecord output) index.contracts) := by
  constructor
  · intro output index hindex hplain
    rcases Ast.Index.sources_of_ok output index hindex with ⟨sources, hsources⟩
    have hhas := Ast.hasRecord_sectionsOf output sources hsources
    refine ⟨sources, hsources, ?_⟩
    rw [Ast.contracts_eq output sources index hsources hindex]
    -- The table is that of the sections, one for each tree.
    refine (isExact_tableOf (Ast.sectionsOf sources) ?_).congr (Ast.sectionsOf_paths sources) hhas
    intro s hs e he
    exact hplain s.1 e.1 e.2 ((hhas s.1 e.1 e.2).mp ⟨s.2, hs, he⟩)
  · intro output index hindex hplain
    rcases Emitted.units_of_ok output index hindex with ⟨units, hunits⟩
    have hhas := Emitted.hasRecord_sectionsOf output units hunits
    refine ⟨units, hunits, ?_⟩
    rw [Emitted.contracts_eq output units index hunits hindex]
    -- And here one for each source path.
    refine (isExact_tableOf (Emitted.sectionsOf units) ?_).congr ?_ hhas
    · intro s hs e he
      exact hplain s.1 e.1 e.2 ((hhas s.1 e.1 e.2).mp ⟨s.2, hs, he⟩)
    · rw [Emitted.sectionsOf_paths]

/-- A tree that defines contracts. -/
def treeDefining (names : List String) : Json :=
  .obj [("ast", .obj [("nodeType", .str "SourceUnit"), ("nodes", .arr (names.map fun name =>
    .obj [("nodeType", .str "ContractDefinition"), ("name", .str name)]))])]

/-- The sources of a build with colons in their paths. One path ends like the other, and each has a
contract of the name `Token`. -/
def colonSources : Record :=
  [("a:b.sol", treeDefining ["Token", "Vault"]), ("lib:a:b.sol", treeDefining ["Token"])]

/-- The contracts of the same build. -/
def colonUnits : Record :=
  [("a:b.sol", .obj [("Token", .obj []), ("Vault", .obj [])]),
    ("lib:a:b.sol", .obj [("Token", .obj [])])]

def colonOutput : Json := .obj [("sources", .obj colonSources), ("contracts", .obj colonUnits)]

/-- Both tables of the build are exact: `Vault` is found, and for `Token` there are two
candidates. -/
theorem contracts_exact_colons :
    (∃ index : Ast.Index, Ast.Index.ofOutput colonOutput = .ok index ∧
      IsExact ["a:b.sol", "lib:a:b.sol"] (DefinesRecord colonOutput) index.contracts ∧
      ContractName.qualify "Vault" index.contracts.keys = .ok "a:b.sol:Vault") ∧
    ∃ index : Emitted.Index, Emitted.Index.ofOutput colonOutput = .ok index ∧
      IsExact ["a:b.sol", "lib:a:b.sol"] (ListsRecord colonOutput) index.contracts ∧
      ContractName.qualify "Token" index.contracts.keys
        = .error (.ambiguousName "Token" ["a:b.sol:Token", "lib:a:b.sol:Token"]) := by
  constructor
  · -- The paths may hold colons, as long as the names do not.
    have hplain : ∀ s ∈ Ast.sectionsOf colonSources, ∀ e ∈ s.2, ':' ∉ e.1.toList := by decide
    have hindex : ∃ index, Ast.Index.ofOutput colonOutput = .ok index ∧
        ContractName.qualify "Vault" index.contracts.keys = .ok "a:b.sol:Vault" :=
      ⟨_, by with_unfolding_all rfl, by with_unfolding_all rfl⟩
    rcases hindex with ⟨index, hindex, hvault⟩
    rcases contracts_exact.1 colonOutput index hindex (fun path name record h => by
      rcases (Ast.hasRecord_sectionsOf colonOutput colonSources rfl path name record).mpr h with
        ⟨named, hs, he⟩
      exact hplain _ hs _ he) with ⟨sources, hsources, hexact⟩
    injection hsources with hsources
    rw [← hsources] at hexact
    exact ⟨index, hindex, hexact, hvault⟩
  · have hplain : ∀ s ∈ Emitted.sectionsOf colonUnits, ∀ e ∈ s.2, ':' ∉ e.1.toList := by decide
    have hindex : ∃ index, Emitted.Index.ofOutput colonOutput = .ok index ∧
        ContractName.qualify "Token" index.contracts.keys
          = .error (.ambiguousName "Token" ["a:b.sol:Token", "lib:a:b.sol:Token"]) :=
      ⟨_, rfl, rfl⟩
    rcases hindex with ⟨index, hindex, htoken⟩
    rcases contracts_exact.2 colonOutput index hindex (fun path name record h => by
      rcases (Emitted.hasRecord_sectionsOf colonOutput colonUnits rfl path name record).mpr h with
        ⟨named, hs, he⟩
      exact hplain _ hs _ he) with ⟨units, hunits, hexact⟩
    injection hunits with hunits
    rw [← hunits] at hexact
    exact ⟨index, hindex, hexact, htoken⟩

end StorageLayout
