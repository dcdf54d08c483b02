import Mathlib.Data.List.Perm.Basic
import Mathlib.Tactic.Common
import StorageLayout.Artifacts
import StorageLayout.Proofs.Places

/-!
# The Order of the Visit

In which order the files of a folder are visited, said without the visit.

The files are visited folder by folder, and within a folder by name: its own files first, then the
folders in it. So the first place at which the names of two files differ decides. If the names of
one of them end there it comes first, and if those of both do, or of neither, the smaller name does.
That is `Precedes`. No two files precede each other, so a list that is in this order is known from
its members (`IsVisit.unique`).

The induction follows the folders. What it has to say about a folder is independent of the path by
which the folder is called, since sorting and pruning look at names only. The path comes in at the
end: a file is called by joining its names to it one by one.

## Main definitions

* `IsVisited`: Names that lead to a file which the visit reads.
* `Precedes`: Which of two files is visited first.
* `IsVisit`: The files that are visited in a tree, in order.
* `ReadInOrder`: What comes of reading files one after the other.

## Theorems

* `Precedes.asymm`: The order is strict.
* `IsVisit.unique`, `IsVisit.nodup`: There is one visit of a tree, and it comes to no file twice.
* `byName_sorted`: Entries with distinct names are in strict order.
* `exists_visit`: The files that can describe a contract are those of the visit.
* `readInOrder_mapM`: Reading stops at the first fault.
* `listContracts_eq_missing`, `listContracts_visit`: What listing the contracts comes to.
-/

namespace StorageLayout.Artifacts

/-- Names lead to a file that the visit reads: it can describe a contract, and none of the folders
above it is one of build files. -/
def IsVisited (names : List String) : Prop :=
  ∃ folders name, names = folders ++ [name] ∧ describesContract name = true ∧
    buildFolder ∉ folders

/-- Which of two files is visited first, by the names that lead to them. -/
inductive Precedes : List String → List String → Prop
  /-- Two files of one folder are visited by name. -/
  | files {name other : String} (h : name < other) : Precedes [name] [other]
  /-- The files of a folder are visited before those of the folders in it. -/
  | deeper {name folder : String} {rest : List String} (hrest : rest ≠ []) :
      Precedes [name] (folder :: rest)
  /-- Folders are visited by name. -/
  | folders {folder other : String} {rest rest' : List String} (hrest : rest ≠ [])
      (hrest' : rest' ≠ []) (h : folder < other) : Precedes (folder :: rest) (other :: rest')
  | inside {folder : String} {rest rest' : List String} (h : Precedes rest rest') :
      Precedes (folder :: rest) (folder :: rest')

/-- The files that are visited in a tree, in order, with the names that lead to them. -/
structure IsVisit (t : FileTree) (files : List (List String × List UInt8)) : Prop where
  ordered : files.Pairwise fun f g => Precedes f.1 g.1
  mem_iff : ∀ names bytes,
    (names, bytes) ∈ files ↔ IsVisited names ∧ t.atNames? names = some (.file bytes)

/-- How something is called below a folder: by its names, joined to the path one by one. -/
def placeAt (path : String) (names : List String) : String := names.foldl Path.join path

/-- What comes of reading files one after the other: their values, or the error of the first one
that cannot be read. -/
inductive ReadInOrder (path : String) :
    List (List String × List UInt8) → Except Error (List Json) → Prop
  | read {files : List (List String × List UInt8)} {values : List Json}
      (h : List.Forall₂ (fun f v => decodeJson (placeAt path f.1) f.2 = .ok v) files values) :
      ReadInOrder path files (.ok values)
  | failed {before after : List (List String × List UInt8)} {names : List String}
      {bytes : List UInt8} {values : List Json} {e : Error}
      (hbefore : List.Forall₂ (fun f v => decodeJson (placeAt path f.1) f.2 = .ok v) before values)
      (h : decodeJson (placeAt path names) bytes = .error e) :
      ReadInOrder path (before ++ (names, bytes) :: after) (.error e)

/-! ## The order -/

theorem Precedes.ne_nil {names others : List String} (h : Precedes names others) :
    names ≠ [] ∧ others ≠ [] := by
  cases h <;> exact ⟨List.cons_ne_nil _ _, List.cons_ne_nil _ _⟩

/-- No two files precede each other. -/
theorem Precedes.asymm {names others : List String} (h : Precedes names others) :
    ¬ Precedes others names := by
  induction h with
  -- Two files of one folder are ordered by their names only.
  | files h =>
      intro h'
      cases h' with
      | files h' => exact String.lt_asymm h h'
      -- A file before something further down: the other way round, the file would be in a folder.
      | deeper hrest => exact hrest rfl
      | folders hrest => exact hrest rfl
      | inside h' => exact h'.ne_nil.1 rfl
  | deeper hrest =>
      intro h'
      cases h' with
      | files _ => exact hrest rfl
      | deeper hrest' => exact hrest' rfl
      | folders _ hrest' => exact hrest' rfl
      | inside h' => exact h'.ne_nil.2 rfl
  | folders hrest hrest' h =>
      intro h'
      cases h' with
      | files _ => exact hrest rfl
      | deeper _ => exact hrest' rfl
      | folders _ _ h' => exact String.lt_asymm h h'
      | inside _ => exact String.lt_irrefl _ h
  -- In one and the same folder it is what is inside that counts.
  | inside h ih =>
      intro h'
      cases h' with
      | files _ => exact h.ne_nil.1 rfl
      | deeper _ => exact h.ne_nil.2 rfl
      | folders _ _ h' => exact String.lt_irrefl _ h'
      | inside h' => exact ih h'

namespace IsVisit

variable {t : FileTree} {files : List (List String × List UInt8)}

/-- No two files of a visit have the same names. -/
theorem nodup_names (h : IsVisit t files) : (files.map (·.1)).Nodup :=
  List.pairwise_map.mpr (h.ordered.imp fun hab heq => (heq ▸ hab).asymm (heq ▸ hab))

theorem nodup (h : IsVisit t files) : files.Nodup := h.nodup_names.of_map _

/-- There is one visit of the same files. -/
theorem unique {u : FileTree} {others : List (List String × List UInt8)} (h : IsVisit t files)
    (h' : IsVisit u others)
    (hsame : ∀ names bytes,
      t.atNames? names = some (.file bytes) ↔ u.atNames? names = some (.file bytes)) :
    files = others := by
  have hperm : files.Perm others := by
    refine (List.perm_ext_iff_of_nodup h.nodup h'.nodup).mpr ?_
    rintro ⟨names, bytes⟩
    rw [h.mem_iff, h'.mem_iff, hsame]
  exact hperm.eq_of_pairwise (fun _ _ _ _ hab hba => absurd hba hab.asymm) h.ordered h'.ordered

end IsVisit

/-! ## Names -/

theorem isVisited_singleton (name : String) :
    IsVisited [name] ↔ describesContract name = true := by
  constructor
  · rintro ⟨folders, last, heq, hdescribes, _⟩
    rw [← List.nil_append [name]] at heq
    rw [(List.append_singleton_inj.mp heq).2]
    exact hdescribes
  · intro h
    exact ⟨[], name, rfl, h, List.not_mem_nil⟩

/-- What is visited below a folder. -/
theorem isVisited_cons (folder : String) (rest : List String) (hrest : rest ≠ []) :
    IsVisited (folder :: rest) ↔ folder ≠ buildFolder ∧ IsVisited rest := by
  constructor
  · rintro ⟨folders, name, heq, hdescribes, hfolders⟩
    cases folders with
    -- There is more than a name, so the first one is that of a folder.
    | nil => exact absurd (List.cons.inj heq).2 hrest
    | cons first more =>
        rcases List.cons.inj heq with ⟨hfirst, hmore⟩
        rw [List.mem_cons, not_or] at hfolders
        exact ⟨hfirst ▸ Ne.symm hfolders.1, more, name, hmore, hdescribes, hfolders.2⟩
  · rintro ⟨hfolder, folders, name, heq, hdescribes, hfolders⟩
    refine ⟨folder :: folders, name, by rw [heq, List.cons_append], hdescribes, ?_⟩
    rw [List.mem_cons, not_or]
    exact ⟨Ne.symm hfolder, hfolders⟩

theorem IsVisited.ne_nil {names : List String} (h : IsVisited names) : names ≠ [] := by
  rcases h with ⟨folders, name, heq, _⟩
  rw [heq]
  exact List.append_ne_nil_of_right_ne_nil _ (List.cons_ne_nil _ _)

/-! ## Entries in order -/

/-- Entries with distinct names are in strict order. -/
theorem byName_sorted {α : Type} (entries : List (String × α))
    (hnodup : (Assoc.keys entries).Nodup) :
    (byName entries).Pairwise fun a b => a.1 < b.1 := by
  have hsorted : (byName entries).Pairwise fun a b => a.1 ≤ b.1 := by
    have htrans : ∀ a b c : String × α, decide (a.1 ≤ b.1) = true → decide (b.1 ≤ c.1) = true →
        decide (a.1 ≤ c.1) = true := fun a b c hab hbc =>
      decide_eq_true (String.le_trans (of_decide_eq_true hab) (of_decide_eq_true hbc))
    have htotal : ∀ a b : String × α, (decide (a.1 ≤ b.1) || decide (b.1 ≤ a.1)) = true :=
      fun a b => by simpa using String.le_total a.1 b.1
    exact (List.pairwise_mergeSort htrans htotal entries).imp of_decide_eq_true
  have hnames : (Assoc.keys (byName entries)).Nodup :=
    ((List.mergeSort_perm entries _).map _).nodup_iff.mpr hnodup
  -- Two names that are in order and not the same are in strict order.
  exact hsorted.imp₂ (fun a b hab hne => String.not_le.mp fun hba =>
    hne (String.le_antisymm hab hba)) (List.pairwise_map.mp hnames)

/-- Sorting does not look at what stands under the names. -/
theorem byName_map {α β : Type} (g : String × α → β) (entries : List (String × α)) :
    byName (entries.map fun e => (e.1, g e)) = (byName entries).map fun e => (e.1, g e) := by
  rw [byName, byName, List.map_mergeSort]
  intro a _ b _
  rfl

/-- What holds of any two items of a list holds of their partners. -/
theorem pairwise_of_forall₂ {α β : Type} {R : α → β → Prop} {S : α → α → Prop} {T : β → β → Prop}
    (hT : ∀ x y v w, R x v → R y w → S x y → T v w) (xs : List α) (ys : List β)
    (h : List.Forall₂ R xs ys) (hxs : xs.Pairwise S) : ys.Pairwise T := by
  induction h with
  | nil => exact List.Pairwise.nil
  | @cons x v rest others hxv hrest ih =>
      rw [List.pairwise_cons] at hxs ⊢
      refine ⟨fun w hw => ?_, ih hxs.2⟩
      rcases exists_partner _ _ hrest.flip w hw with ⟨y, hy, hyw⟩
      exact hT x y v w hxv hyw (hxs.1 y hy)

/-! ## The visit of a folder -/

/-- The folders that are visited. -/
theorem filesOfFolders_eq (path : String) (entries : List (String × FileTree)) :
    filesOfFolders path entries
      = (entries.filter fun e => e.2.isFolder && e.1 ≠ buildFolder).map
          fun e => (e.1, jsonFiles (Path.join path e.1) e.2) := by
  induction entries with
  | nil =>
      rw [filesOfFolders]
      rfl
  | cons e rest ih =>
      rcases e with ⟨name, t⟩
      rw [filesOfFolders, ih, List.filter_cons]
      -- The walk enters a folder or leaves it out.
      by_cases hvisited : (t.isFolder && name ≠ buildFolder) = true
      · rw [if_pos hvisited, if_pos hvisited, List.map_cons]
      · rw [if_neg hvisited, if_neg hvisited]

/-- The file that is visited for an entry of a folder, if the entry is such a file. -/
def visited? (e : String × FileTree) : Option (List String × List UInt8) :=
  match e.2 with
  | .file bytes => if describesContract e.1 then some ([e.1], bytes) else none
  | .folder _ => none

/-- The files of a folder itself that are visited, with their names. -/
def ownVisit (entries : List (String × FileTree)) : List (List String × List UInt8) :=
  (byName entries).filterMap visited?

theorem visited?_eq_some (e : String × FileTree) (names : List String) (bytes : List UInt8) :
    visited? e = some (names, bytes) ↔
      e.2 = .file bytes ∧ describesContract e.1 = true ∧ names = [e.1] := by
  rcases e with ⟨name, t⟩
  cases t with
  -- Only a file with the right ending is visited.
  | folder _ => simp only [visited?, reduceCtorEq, false_and]
  | file content =>
      cases hdescribes : describesContract name with
      | false => simp only [visited?, hdescribes, Bool.false_eq_true, if_false, reduceCtorEq,
          false_and, and_false]
      | true =>
          simp only [visited?, hdescribes, if_true, Option.some.injEq, Prod.mk.injEq,
            FileTree.file.injEq, true_and]
          exact ⟨fun h => ⟨h.2, h.1.symm⟩, fun h => ⟨h.2.symm, h.1⟩⟩

theorem mem_ownVisit (entries : List (String × FileTree)) (names : List String)
    (bytes : List UInt8) :
    (names, bytes) ∈ ownVisit entries ↔
      ∃ name, names = [name] ∧ (name, FileTree.file bytes) ∈ entries ∧
        describesContract name = true := by
  rw [ownVisit, List.mem_filterMap]
  constructor
  · rintro ⟨⟨name, t⟩, hmem, hfile⟩
    rw [byName, List.mem_mergeSort] at hmem
    rcases (visited?_eq_some _ _ _).mp hfile with ⟨ht, hdescribes, hnames⟩
    exact ⟨name, hnames, ht ▸ hmem, hdescribes⟩
  · rintro ⟨name, hnames, hmem, hdescribes⟩
    exact ⟨(name, .file bytes), List.mem_mergeSort.mpr hmem,
      (visited?_eq_some _ _ _).mpr ⟨rfl, hdescribes, hnames⟩⟩

theorem ownVisit_ordered (entries : List (String × FileTree))
    (hnodup : (Assoc.keys entries).Nodup) :
    (ownVisit entries).Pairwise fun f g => Precedes f.1 g.1 := by
  refine (byName_sorted entries hnodup).filterMap _ fun a b hab f hf g hg => ?_
  rw [((visited?_eq_some a f.1 f.2).mp hf).2.2, ((visited?_eq_some b g.1 g.2).mp hg).2.2]
  exact .files hab

theorem ownFiles_eq (path : String) (entries : List (String × FileTree)) :
    ownFiles path entries = (ownVisit entries).map fun f => (placeAt path f.1, f.2) := by
  rw [ownFiles, ownVisit, List.map_filterMap]
  congr 1
  funext e
  rcases e with ⟨name, t⟩
  -- File by file, the path is the name put behind that of the folder.
  cases t with
  | folder _ => rfl
  | file bytes =>
      cases hdescribes : describesContract name <;>
        simp only [visited?, hdescribes, if_true, Bool.false_eq_true, if_false, Option.map_some,
          Option.map_none, placeAt, List.foldl_cons, List.foldl_nil]

/-- The files below a folder, one folder in it after the other. -/
theorem exists_below (path : String) (folders : List (String × FileTree))
    (hsorted : folders.Pairwise fun a b => a.1 < b.1)
    (hvisit : ∀ e ∈ folders, ∃ files, IsVisit e.2 files ∧
      jsonFiles (Path.join path e.1) e.2
        = files.map fun f => (placeAt (Path.join path e.1) f.1, f.2)) :
    ∃ files : List (List String × List UInt8), (files.Pairwise fun f g => Precedes f.1 g.1) ∧
      (∀ names bytes, (names, bytes) ∈ files ↔ ∃ name u rest, names = name :: rest ∧
        (name, u) ∈ folders ∧ IsVisited rest ∧ u.atNames? rest = some (.file bytes)) ∧
      folders.flatMap (fun e => jsonFiles (Path.join path e.1) e.2)
        = files.map fun f => (placeAt path f.1, f.2) := by
  induction folders with
  | nil =>
      refine ⟨[], List.Pairwise.nil, fun names bytes => ?_, rfl⟩
      constructor
      · exact fun h => absurd h List.not_mem_nil
      · rintro ⟨_, _, _, _, hmem, _⟩
        exact absurd hmem List.not_mem_nil
  | cons e others ih =>
      rcases e with ⟨folder, t⟩
      rw [List.pairwise_cons] at hsorted
      rcases hvisit (folder, t) List.mem_cons_self with ⟨here, hhere, hread⟩
      rcases ih hsorted.2 (fun e he => hvisit e (List.mem_cons_of_mem _ he)) with
        ⟨more, hordered, hmem, hrest⟩
      refine ⟨here.map (fun f => (folder :: f.1, f.2)) ++ more, ?_, ?_, ?_⟩
      · refine List.pairwise_append.mpr ⟨?_, hordered, ?_⟩
        · exact List.pairwise_map.mpr (hhere.ordered.imp .inside)
        · -- What is in an earlier folder precedes what is in a later one.
          rintro f hf ⟨names, bytes⟩ hg
          rcases List.mem_map.mp hf with ⟨⟨rest, content⟩, hin, heq⟩
          rcases (hmem names bytes).mp hg with ⟨name, u, rest', hnames, hlater, hvisited, _⟩
          rw [← heq, hnames]
          exact .folders ((hhere.mem_iff rest content).mp hin).1.ne_nil hvisited.ne_nil
            (hsorted.1 _ hlater)
      · intro names bytes
        rw [List.mem_append, List.mem_map, hmem]
        constructor
        · rintro (⟨⟨rest, content⟩, hin, heq⟩ | ⟨name, u, rest, hnames, hlater, hfile⟩)
          · injection heq with hnames hbytes
            dsimp only at hnames hbytes
            rw [hbytes] at hin
            exact ⟨folder, t, rest, hnames.symm, List.mem_cons_self, (hhere.mem_iff _ _).mp hin⟩
          · exact ⟨name, u, rest, hnames, List.mem_cons_of_mem _ hlater, hfile⟩
        · rintro ⟨name, u, rest, hnames, hin, hfile⟩
          rcases List.mem_cons.mp hin with heq | hlater
          · injection heq with hname hu
            rw [hu] at hfile
            exact .inl ⟨(rest, bytes), (hhere.mem_iff _ _).mpr hfile, by rw [hnames, hname]⟩
          · exact .inr ⟨name, u, rest, hnames, hlater, hfile⟩
      · rw [List.flatMap_cons, hread, hrest, List.map_append, List.map_map]
        rfl

/-- The files that can describe a contract are those of the visit, called by the path of the folder
and their names. -/
theorem exists_visit (t : FileTree) (h : t.HasDistinctNames) (path : String) :
    ∃ files, IsVisit t files ∧
      jsonFiles path t = files.map fun f => (placeAt path f.1, f.2) := by
  match t with
  | .file content =>
      refine ⟨[], ⟨List.Pairwise.nil, fun names bytes => ?_⟩, by rw [jsonFiles, List.map_nil]⟩
      constructor
      · exact fun h => absurd h List.not_mem_nil
      · -- A file has nothing below it, and the names of a visited file are not none.
        rintro ⟨hvisited, hat⟩
        cases names with
        | nil => exact absurd rfl hvisited.ne_nil
        | cons name rest =>
            exact absurd hat (by simp [FileTree.atNames?, FileTree.entries, Assoc.find?])
  | .folder entries =>
      have hnodup := h.nodup
      have hfind : ∀ name u, (name, u) ∈ entries → Assoc.find? name entries = some u :=
        fun name u => Assoc.find?_of_mem name u entries hnodup
      -- The folders in it that are visited, in order.
      let visited := entries.filter fun e => e.2.isFolder && e.1 ≠ buildFolder
      have hvisited : ∀ name u, (name, u) ∈ byName visited ↔
          (name, u) ∈ entries ∧ u.isFolder = true ∧ name ≠ buildFolder := by
        intro name u
        rw [byName, List.mem_mergeSort, List.mem_filter, Bool.and_eq_true, decide_eq_true_eq]
      have hkeys : (Assoc.keys visited).Nodup :=
        hnodup.sublist (List.filter_sublist.map _)
      rcases exists_below path (byName visited) (byName_sorted visited hkeys)
        (fun e he => by
          have hin := ((hvisited e.1 e.2).mp he).1
          have hsize := List.sizeOf_lt_of_mem hin
          exact exists_visit e.2 (h.entry (hfind e.1 e.2 hin)) (Path.join path e.1)) with
        ⟨below, hordered, hmem, hread⟩
      refine ⟨ownVisit entries ++ below, ⟨?_, ?_⟩, ?_⟩
      · refine List.pairwise_append.mpr ⟨ownVisit_ordered entries hnodup, hordered, ?_⟩
        -- The files of the folder itself precede those below it.
        rintro ⟨names, bytes⟩ hf ⟨others, content⟩ hg
        rcases (mem_ownVisit entries names bytes).mp hf with ⟨name, hnames, _⟩
        rcases (hmem others content).mp hg with ⟨folder, _, rest, hothers, _, hrest, _⟩
        rw [hnames, hothers]
        exact .deeper hrest.ne_nil
      · intro names bytes
        rw [List.mem_append, mem_ownVisit, hmem]
        constructor
        · rintro (⟨name, hnames, hin, hdescribes⟩ | ⟨name, u, rest, hnames, hin, hrest, hat⟩)
          · rw [hnames, isVisited_singleton, FileTree.atNames?, FileTree.entries,
              hfind name _ hin]
            exact ⟨hdescribes, rfl⟩
          · rcases (hvisited name u).mp hin with ⟨hentry, _, hname⟩
            rw [hnames, isVisited_cons name rest hrest.ne_nil, FileTree.atNames?,
              FileTree.entries, hfind name u hentry]
            exact ⟨⟨hname, hrest⟩, hat⟩
        · rintro ⟨hnames, hat⟩
          cases names with
          | nil => exact absurd rfl hnames.ne_nil
          | cons name rest =>
              rcases Option.bind_eq_some_iff.mp hat with ⟨u, hu, hbelow⟩
              have hentry := Assoc.find?_mem name u entries hu
              by_cases hrest : rest = []
              · rw [hrest] at hnames hbelow ⊢
                injection hbelow with hbelow
                rw [hbelow] at hentry
                exact .inl ⟨name, rfl, hentry, (isVisited_singleton name).mp hnames⟩
              · rw [isVisited_cons name rest hrest] at hnames
                have hfolder : u.isFolder = true := by
                  cases u with
                  | folder _ => rfl
                  | file _ =>
                      obtain ⟨next, more, heq⟩ := List.exists_cons_of_ne_nil hrest
                      rw [heq] at hbelow
                      exact absurd hbelow
                        (by simp [FileTree.atNames?, FileTree.entries, Assoc.find?])
                exact .inr ⟨name, u, rest, rfl, (hvisited name u).mpr ⟨hentry, hfolder, hnames.1⟩,
                  hnames.2, hbelow⟩
      · rw [jsonFiles, filesOfFolders_eq, byName_map, List.flatMap_map, ownFiles_eq,
          List.map_append, ← hread]
termination_by sizeOf t
decreasing_by
  simp only [Prod.mk.sizeOf_spec, FileTree.folder.sizeOf_spec] at hsize ⊢
  omega

/-! ## Reading -/

/-- Reading stops at the first file that cannot be read. -/
theorem readInOrder_mapM (path : String) (files : List (List String × List UInt8)) :
    ReadInOrder path files (files.mapM fun f => decodeJson (placeAt path f.1) f.2) := by
  induction files with
  | nil => exact .read List.Forall₂.nil
  | cons f rest ih =>
      rcases f with ⟨names, bytes⟩
      rw [List.mapM_cons]
      cases hf : decodeJson (placeAt path names) bytes with
      | error e =>
          -- Nothing has been read before it.
          change ReadInOrder path ([] ++ (names, bytes) :: rest) (.error e)
          exact .failed List.Forall₂.nil hf
      | ok v =>
          rw [ok_bind]
          generalize (rest.mapM fun f => decodeJson (placeAt path f.1) f.2) = outcome at ih
          cases ih with
          | read h => exact .read (List.Forall₂.cons hf h)
          | failed hbefore h => exact .failed (List.Forall₂.cons hf hbefore) h

/-- Where there is no folder nothing can be listed. -/
theorem listContracts_eq_missing (root : FileTree) (folder : String)
    (h : ¬ ∃ entries, root.lookup folder = .ok (.folder entries)) :
    listContracts root folder = .error (.artifactsMissing folder) := by
  unfold listContracts
  split
  · rename_i entries hfound
    exact absurd ⟨entries, hfound⟩ h
  · rfl

/-- Listing the contracts reads the files of the visit. -/
theorem listContracts_visit (root : FileTree) (folder : String)
    (entries : List (String × FileTree)) (files : List (List String × List UInt8))
    (hfound : root.lookup folder = .ok (.folder entries))
    (hfiles : jsonFiles folder (.folder entries)
      = files.map fun f => (placeAt folder f.1, f.2)) :
    listContracts root folder
      = (files.mapM fun f => decodeJson (placeAt folder f.1) f.2).map
          (·.filterMap qualifiedName?) := by
  unfold listContracts
  rw [hfound]
  dsimp only
  rw [hfiles, List.mapM_map]
  change (files.mapM fun f => decodeJson (placeAt folder f.1) f.2) >>= _ = _
  cases files.mapM fun f => decodeJson (placeAt folder f.1) f.2 <;> rfl

end StorageLayout.Artifacts
