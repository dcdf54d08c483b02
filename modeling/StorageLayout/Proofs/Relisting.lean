import StorageLayout.Json.Printer
import StorageLayout.Proofs.Visit

/-!
# Folders Listed in Another Order

The contracts in a folder do not depend on the order in which the system lists files.

A folder yields its entries in an order that the system chooses, which can be another one at the
next call and on another machine. Two trees that differ in nothing else are related by `Relisted`:
every folder has the same names in both, and under each name there is the same file, or again such a
folder.

A path leads to the same place in both, because a step looks an entry up by its name
(`lookup_relisted`). And the same files stand at the same names (`atNames?_file_iff`). The visit is
determined by that, being in a strict order, so both runs read the same files one after the other,
and end in the same list or at the same fault.

## Main definitions

* `FileTree.Relisted`: Two trees are equal up to the order of entries.

## Theorems

* `FileTree.Relisted.refl`, `FileTree.Relisted.symm`, `FileTree.relisted_of_perm`: Trees that are so
  related.
* `FileTree.atNames?_relisted`, `FileTree.atNames?_file_iff`: What stands at a list of names.
* `FileTree.Relisted.putAt`: Putting related trees at one place.
* `FileTree.lookup_relisted`: Where paths lead.
* `listContracts_relisted`: The contracts, or the fault that keeps them from being listed.
-/

namespace StorageLayout

namespace FileTree

/-- Two trees are equal up to the order in which folders list their entries. -/
inductive Relisted : FileTree → FileTree → Prop
  | file (bytes : List UInt8) : Relisted (.file bytes) (.file bytes)
  | folder {xs ys : List (String × FileTree)} (hnames : (Assoc.keys xs).Perm (Assoc.keys ys))
      (hbelow : ∀ name t u, Assoc.find? name xs = some t → Assoc.find? name ys = some u →
        Relisted t u) : Relisted (.folder xs) (.folder ys)

theorem Relisted.refl (t : FileTree) : Relisted t t := by
  match t with
  | .file bytes => exact .file bytes
  | .folder entries =>
      refine .folder (List.Perm.refl _) fun name u v hu hv => ?_
      have hsize := List.sizeOf_lt_of_mem (Assoc.find?_mem name u entries hu)
      rw [hu] at hv
      injection hv with hv
      rw [← hv]
      exact Relisted.refl u
termination_by sizeOf t
decreasing_by
  simp only [Prod.mk.sizeOf_spec, FileTree.folder.sizeOf_spec] at hsize ⊢
  omega

theorem Relisted.symm {t u : FileTree} (h : Relisted t u) : Relisted u t := by
  induction h with
  | file bytes => exact .file bytes
  | folder hnames _ ih => exact .folder hnames.symm fun name v w hv hw => ih name w v hw hv

/-- The entries of one folder in another order. -/
theorem relisted_of_perm (xs ys : List (String × FileTree)) (h : xs.Perm ys)
    (hnodup : (Assoc.keys xs).Nodup) : Relisted (.folder xs) (.folder ys) := by
  have hnames : (Assoc.keys xs).Perm (Assoc.keys ys) := h.map _
  refine .folder hnames fun name t u ht hu => ?_
  have hmem := h.mem_iff.mp (Assoc.find?_mem name t xs ht)
  rw [Assoc.find?_of_mem name t ys (hnames.nodup_iff.mp hnodup) hmem] at hu
  injection hu with hu
  rw [← hu]
  exact .refl t

/-! ## What stands in both -/

/-- An entry is there in both folders or in neither. -/
theorem find?_relisted (xs ys : List (String × FileTree))
    (h : Relisted (.folder xs) (.folder ys)) (name : String) :
    (Assoc.find? name xs = none ∧ Assoc.find? name ys = none) ∨
      ∃ t u, Assoc.find? name xs = some t ∧ Assoc.find? name ys = some u ∧ Relisted t u := by
  cases h with
  | folder hnames hbelow =>
      have hiff := hnames.mem_iff (a := name)
      rw [Assoc.mem_keys_iff, Assoc.mem_keys_iff] at hiff
      cases ht : Assoc.find? name xs with
      | none =>
          cases hu : Assoc.find? name ys with
          | none => exact .inl ⟨rfl, rfl⟩
          | some u =>
              -- Both listings have the same names, so one cannot lack what the other has.
              rcases hiff.mpr ⟨u, hu⟩ with ⟨t, ht'⟩
              rw [ht] at ht'
              exact absurd ht' (by simp only [reduceCtorEq, not_false_eq_true])
      | some t =>
          rcases hiff.mp ⟨t, ht⟩ with ⟨u, hu⟩
          exact .inr ⟨t, u, rfl, hu, hbelow name t u ht hu⟩

/-- What stands at a list of names stands in both trees or in neither. -/
theorem atNames?_relisted (t u : FileTree) (h : Relisted t u) (names : List String) :
    (t.atNames? names = none ∧ u.atNames? names = none) ∨
      ∃ t' u', t.atNames? names = some t' ∧ u.atNames? names = some u' ∧ Relisted t' u' := by
  induction names generalizing t u with
  | nil => exact .inr ⟨t, u, rfl, rfl, h⟩
  | cons name rest ih =>
      cases h with
      | file bytes =>
          exact .inl ⟨by simp [atNames?, entries, Assoc.find?],
            by simp [atNames?, entries, Assoc.find?]⟩
      | @folder xs ys hnames hbelow =>
          rw [atNames?, atNames?, entries, entries]
          -- One step down, and from there by the induction.
          rcases find?_relisted xs ys (.folder hnames hbelow) name with
            ⟨ht, hu⟩ | ⟨t, u, ht, hu, htu⟩
          · rw [ht, hu]
            exact .inl ⟨rfl, rfl⟩
          · rw [ht, hu]
            exact ih t u htu

/-- The same files stand at the same names. -/
theorem atNames?_file_iff (t u : FileTree) (h : Relisted t u) (names : List String)
    (bytes : List UInt8) :
    t.atNames? names = some (.file bytes) ↔ u.atNames? names = some (.file bytes) := by
  rcases atNames?_relisted t u h names with ⟨ht, hu⟩ | ⟨t', u', ht, hu, htu⟩
  · rw [ht, hu]
  · rw [ht, hu]
    cases htu with
    | file content => rfl
    | folder _ _ => simp only [Option.some.injEq, reduceCtorEq]

theorem Relisted.hasDistinctNames {t u : FileTree} (h : Relisted t u) (ht : t.HasDistinctNames) :
    u.HasDistinctNames := by
  intro names others hat
  rcases atNames?_relisted t u h names with ⟨_, hu⟩ | ⟨t', u', ht', hu, htu⟩
  · rw [hat] at hu
    exact absurd hu (by simp only [reduceCtorEq, not_false_eq_true])
  · rw [hat] at hu
    injection hu with hu
    rw [← hu] at htu
    cases htu with
    | folder hnames _ => exact hnames.nodup_iff.mp (ht names _ ht')

/-- Putting related trees at one place of a tree makes related trees. -/
theorem Relisted.putAt (t new other : FileTree) (names : List String) (h : Relisted new other) :
    Relisted (t.putAt names new) (t.putAt names other) := by
  induction names generalizing t with
  | nil => exact h
  | cons name rest ih =>
      refine .folder (by rw [Assoc.keys_change, Assoc.keys_change]) fun n u v hu hv => ?_
      -- Only what stands at the name is changed. All else is the same as before.
      by_cases hname : name = n
      · rw [← hname, Assoc.find?_change_self] at hu hv
        injection hu with hu
        injection hv with hv
        rw [← hu, ← hv]
        exact ih _
      · rw [Assoc.find?_change_other hname] at hu hv
        rw [hu] at hv
        injection hv with hv
        rw [← hv]
        exact .refl u

/-! ## Where paths lead -/

theorem step_relisted (top other : FileTree) (h : Relisted top other) (here : Trail)
    (component : String) : top.step here component = other.step here component := by
  unfold step at?
  rcases atNames?_relisted top other h here.reverse with ⟨ht, hu⟩ | ⟨t, u, ht, hu, htu⟩
  · rw [ht, hu]
  · rw [ht, hu]
    cases htu with
    | file bytes => rfl
    | @folder xs ys hnames hbelow =>
        -- A step only asks whether the folder has the name.
        have hcontains : Assoc.contains component xs = Assoc.contains component ys := by
          rw [Assoc.contains, Assoc.contains]
          rcases find?_relisted xs ys (.folder hnames hbelow) component with
            ⟨hx, hy⟩ | ⟨_, _, hx, hy, _⟩
          · rw [hx, hy]
          · rw [hx, hy]
            rfl
        simp only [hcontains]

theorem locate_relisted (root other : FileTree) (h : Relisted root other) (path : String) :
    other.locate path = root.locate path := by
  have hsteps : (around root).step = (around other).step :=
    funext fun here => funext fun component =>
      step_relisted _ _ (.putAt surroundings root other _ h) here component
  unfold locate walk
  rw [hsteps]

/-- If a path leads to a folder in one tree, it leads to a related folder in the other. -/
theorem lookup_relisted (root other : FileTree) (h : Relisted root other) (path : String)
    (xs : List (String × FileTree)) (hfound : root.lookup path = .ok (.folder xs)) :
    ∃ ys, other.lookup path = .ok (.folder ys) ∧ Relisted (.folder xs) (.folder ys) := by
  rcases (lookup_eq_ok root _ path).mp hfound with ⟨place, hplace, hat⟩
  -- Around both trees there are the same system folders.
  have haround : Relisted (around root) (around other) := .putAt surroundings root other _ h
  rw [at?] at hat
  rcases atNames?_relisted _ _ haround place.reverse with ⟨ht, _⟩ | ⟨t, u, ht, hu, htu⟩
  · rw [hat] at ht
    exact absurd ht (by simp only [reduceCtorEq, not_false_eq_true])
  · rw [hat] at ht
    injection ht with ht
    rw [← ht] at htu
    cases htu with
    | @folder _ ys hnames hbelow =>
        refine ⟨ys, (lookup_eq_ok other _ path).mpr ⟨place, ?_, hu⟩, .folder hnames hbelow⟩
        rw [locate_relisted root other h path]
        exact hplace

/-! ## Names around the working folder -/

theorem hasDistinctNames_folderOf (names : List String) (h : names.Nodup) :
    (folderOf names).HasDistinctNames := by
  have hkeys : Assoc.keys (names.map fun n => (n, FileTree.file [])) = names := by
    rw [Assoc.keys, List.map_map]
    exact List.map_id names
  refine hasDistinctNames_of_entries _ (hkeys.symm ▸ h) fun name u hu => ?_
  rcases List.mem_map.mp (Assoc.find?_mem name u _ hu) with ⟨_, _, heq⟩
  injection heq with _ hu
  rw [← hu]
  exact hasDistinctNames_file []

theorem hasDistinctNames_surroundings : surroundings.HasDistinctNames := by
  refine hasDistinctNames_of_entries _ (List.nodup_singleton _) fun name u hu => ?_
  have heq := List.mem_singleton.mp (Assoc.find?_mem name u _ hu)
  injection heq with _ hu
  rw [hu]
  exact hasDistinctNames_folderOf deviceNames (by decide)

/-- What a path leads to has distinct names. -/
theorem HasDistinctNames.lookup (root t : FileTree) (path : String) (h : root.HasDistinctNames)
    (hfound : root.lookup path = .ok t) : t.HasDistinctNames := by
  have haround : (around root).HasDistinctNames :=
    hasDistinctNames_surroundings.putAt _ _ _ h
  rcases (lookup_eq_ok root t path).mp hfound with ⟨place, _, hat⟩
  intro names entries hbelow
  refine haround (place.reverse ++ names) entries ?_
  rw [at?] at hat
  rw [atNames?_append, hat]
  exact hbelow

end FileTree

namespace Artifacts

/-! ## Listing -/

/-- The contracts of a folder do not depend on the order in which the system lists files.

Let two trees be equal up to that order. Then listing the contracts ends in the same way in both. If
the path leads to no folder, this is said. Otherwise the files of the visit are read one after the
other, and the list has what they say, in that order, or it is the first file that cannot be read
which ends the run. -/
theorem listContracts_relisted (root other : FileTree) (folder : String)
    (hdistinct : root.HasDistinctNames) (h : root.Relisted other) :
    listContracts other folder = listContracts root folder ∧
      ((¬ ∃ entries, root.lookup folder = .ok (.folder entries)) ∧
          listContracts root folder = .error (.artifactsMissing folder) ∨
        ∃ entries files outcome, root.lookup folder = .ok (.folder entries) ∧
          IsVisit (.folder entries) files ∧ ReadInOrder folder files outcome ∧
          listContracts root folder = outcome.map (·.filterMap qualifiedName?)) := by
  by_cases hfolder : ∃ entries, root.lookup folder = .ok (.folder entries)
  · rcases hfolder with ⟨entries, hfound⟩
    rcases FileTree.lookup_relisted root other h folder entries hfound with
      ⟨others, hfound', hrelisted⟩
    have hnames := hdistinct.lookup root _ folder hfound
    rcases exists_visit _ hnames folder with ⟨files, hvisit, hfiles⟩
    rcases exists_visit _ (hrelisted.hasDistinctNames hnames) folder with
      ⟨files', hvisit', hfiles'⟩
    -- The same files stand in both folders, and there is one visit of them.
    have hsame := hvisit.unique hvisit' (FileTree.atNames?_file_iff _ _ hrelisted)
    rw [← hsame] at hfiles'
    have hroot := listContracts_visit root folder entries files hfound hfiles
    have hother := listContracts_visit other folder others files hfound' hfiles'
    exact ⟨hother.trans hroot.symm, .inr ⟨entries, files, _, hfound, hvisit,
      readInOrder_mapM folder files, hroot⟩⟩
  · have hmissing : ¬ ∃ entries, other.lookup folder = .ok (.folder entries) := by
      rintro ⟨others, hfound⟩
      rcases FileTree.lookup_relisted other root h.symm folder others hfound with
        ⟨entries, hfound', _⟩
      exact hfolder ⟨entries, hfound'⟩
    have hroot := listContracts_eq_missing root folder hfolder
    exact ⟨(listContracts_eq_missing other folder hmissing).trans hroot.symm,
      .inl ⟨hfolder, hroot⟩⟩

/-- A folder with the files of three contracts, and with a folder of build files. -/
def shelf (b c z : List UInt8) : List (String × FileTree) :=
  [("Z.json", .file z), ("build-info", .folder [("a.json", .file [])]),
    ("a", .folder [("C.json", .file c), ("C.dbg.json", .file [])]), ("B.json", .file b)]

theorem jsonFiles_shelf (b c z : List UInt8) :
    jsonFiles "." (.folder (shelf b c z))
      = [("./B.json", b), ("./Z.json", z), ("./a/C.json", c)] := by
  simp +decide [shelf, jsonFiles, ownFiles, filesOfFolders, byName, List.mergeSort,
    List.MergeSort.Internal.splitInTwo, FileTree.isFolder]

theorem hasDistinctNames_shelf (b c z : List UInt8) :
    (FileTree.folder (shelf b c z)).HasDistinctNames := by
  have hfiles : ∀ names : List (String × FileTree), (Assoc.keys names).Nodup →
      (∀ e ∈ names, ∃ bytes, e.2 = .file bytes) → (FileTree.folder names).HasDistinctNames := by
    intro names hnodup hfiles
    refine FileTree.hasDistinctNames_of_entries names hnodup fun name u hu => ?_
    rcases hfiles _ (Assoc.find?_mem name u names hu) with ⟨bytes, heq⟩
    rw [show u = .file bytes from heq]
    exact FileTree.hasDistinctNames_file bytes
  have hnames : ["Z.json", "build-info", "a", "B.json"].Nodup := by decide
  refine FileTree.hasDistinctNames_of_entries _ hnames fun name u hu => ?_
  have hmem := Assoc.find?_mem name u _ hu
  simp only [shelf, List.mem_cons, Prod.mk.injEq, List.not_mem_nil, or_false] at hmem
  -- Four entries, of which two are folders with files only.
  rcases hmem with ⟨_, hu⟩ | ⟨_, hu⟩ | ⟨_, hu⟩ | ⟨_, hu⟩ <;> rw [hu]
  · exact FileTree.hasDistinctNames_file _
  · exact hfiles _ (List.nodup_singleton _) (by simp)
  · exact hfiles _ (by decide : ["C.json", "C.dbg.json"].Nodup) (by simp)
  · exact FileTree.hasDistinctNames_file _

/-- What a file says that describes a contract. -/
def describing (source name : String) : List UInt8 :=
  encodeText (Json.obj [("sourceName", .str source), ("contractName", .str name)]).compact

/-- The files of a folder come before those in the folders in it, and are ordered by name, although
they are listed in another order. -/
theorem listContracts_relisted_shelf :
    ∃ entries : List (String × FileTree),
      listContracts (.folder entries.reverse) "." = listContracts (.folder entries) "." ∧
        (listContracts (.folder entries) ".").toOption = some ["b:B", "z:Z", "a:C"] := by
  let entries := shelf (describing "b" "B") (describing "a" "C") (describing "z" "Z")
  have hdistinct : (FileTree.folder entries).HasDistinctNames := hasDistinctNames_shelf _ _ _
  have hrelisted := FileTree.relisted_of_perm entries entries.reverse
    (List.reverse_perm entries).symm hdistinct.nodup
  refine ⟨entries, (listContracts_relisted _ _ "." hdistinct hrelisted).1, ?_⟩
  -- In the order of the listing, the names come file by file.
  have hfound : FileTree.lookup (.folder entries) "." = .ok (.folder entries) := rfl
  unfold listContracts
  rw [hfound]
  dsimp only
  rw [jsonFiles_shelf]
  decide +kernel

end Artifacts

end StorageLayout
