import Mathlib.Data.List.Induction
import Mathlib.Data.List.Nodup
import Mathlib.Tactic.Common
import StorageLayout.FileTree
import StorageLayout.Proofs.Lookup
import StorageLayout.Proofs.Outcome
import StorageLayout.Proofs.Path

/-!
# Places in a File Tree

Where paths lead.

A path is followed one component at a time, and the place it leads to depends on the folders that
are there. Tidying a path looks at the text alone. The two agree on a tree without links: whatever
a path leads to, the tidied path leads to the same place (`walk_normalize`). The converse fails, as
the components that are taken back need not lead anywhere. The comparison follows the tidying: at
every moment, the components on the stack lead to the place that has been reached.

A path below another one leads to the place below it (`lookup_join`), as long as its components are
names. So what a file is called below a folder does not depend on how the path of the folder is
written.

## Main definitions

* `Leads`: A stack of components leads from one place to another.
* `HasDistinctNames`: No folder of a tree has a name twice.
* `ofFiles`: The tree of files that are given with their names.

## Theorems

* `step_eq_ok`: What one step through a tree can do.
* `walk_eq_ok`: What a path that leads somewhere is.
* `leads_addComponent`: Tidying one component goes along with one step.
* `walk_normalize`: A tidied path leads to the same place.
* `read_normalize`, `hasFile_normalize`: So it says the same of files.
* `locate_join`, `lookup_join`: A path below another one.
* `hasFile_of_read`, `device?_eq_none`: What can be read is there, and only a few names are those of
  devices.
* `HasDistinctNames.putAt`, `hasDistinctNames_ofFiles`: A tree that is made file by file has distinct
  names.
* `atNames?_putAt`, `mem_of_atNames?_ofFiles`: And it has no other files.
-/

namespace StorageLayout.FileTree

/-- The components of a path that name something, as texts. -/
theorem pathComponents_eq (path : String) :
    pathComponents path = (Path.named path.toList).map String.ofList := by
  rw [pathComponents, Path.named, List.filter_map]
  congr 1
  apply List.filter_congr
  intro c _
  simp [String.ofList_eq_empty_iff]

/-! ## One step -/

/-- A step is taken from a folder: it stays, goes up, or enters something that is there. -/
theorem step_eq_ok (top : FileTree) (here next : Trail) (c : String)
    (h : top.step here c = .ok next) :
    ∃ entries, top.at? here = some (.folder entries) ∧
      ((c = "." ∧ next = here) ∨ (c = ".." ∧ next = here.tail) ∨
        (c ≠ "." ∧ c ≠ ".." ∧ c.utf8ByteSize ≤ longestName ∧ Assoc.contains c entries = true ∧
          next = c :: here)) := by
  unfold step at h
  cases hat : top.at? here with
  | none =>
      rw [hat] at h
      exact absurd h (by simp only [reduceCtorEq, not_false_eq_true])
  | some t =>
      rw [hat] at h
      cases t with
      | file bytes => exact absurd h (by simp only [reduceCtorEq, not_false_eq_true])
      -- Only from a folder can a step be made, and there are three of them.
      | folder entries =>
          refine ⟨entries, rfl, ?_⟩
          dsimp only at h
          by_cases hdot : c = "."
          · rw [if_pos hdot] at h
            injection h with h
            exact Or.inl ⟨hdot, h.symm⟩
          · rw [if_neg hdot] at h
            by_cases hdots : c = ".."
            · rw [if_pos hdots] at h
              injection h with h
              exact Or.inr (Or.inl ⟨hdots, h.symm⟩)
            · rw [if_neg hdots] at h
              split at h
              · exact absurd h (by simp only [reduceCtorEq, not_false_eq_true])
              · rename_i hshort
                split at h
                · rename_i hpresent
                  injection h with h
                  exact Or.inr (Or.inr ⟨hdot, hdots, Nat.le_of_not_lt hshort, hpresent, h.symm⟩)
                · exact absurd h (by simp only [reduceCtorEq, not_false_eq_true])

theorem step_dot (top : FileTree) (here : Trail) (entries : List (String × FileTree))
    (h : top.at? here = some (.folder entries)) : top.step here "." = .ok here := by
  simp only [step, h, if_true]

/-- Where a name leads: to the entry that has it. -/
theorem step_name (top : FileTree) (here next : Trail) (c : String) (hdot : c ≠ ".")
    (hdots : c ≠ "..") (h : top.step here c = .ok next) : next = c :: here := by
  rcases step_eq_ok top here next c h with ⟨_, _, ⟨heq, _⟩ | ⟨heq, _⟩ | ⟨_, _, _, _, hnext⟩⟩
  · exact absurd heq hdot
  · exact absurd heq hdots
  · exact hnext

theorem foldlM_names (top : FileTree) (here place : Trail) (names : List String)
    (hnames : ∀ c ∈ names, c ≠ "." ∧ c ≠ "..") (h : names.foldlM top.step here = .ok place) :
    place = names.reverse ++ here := by
  induction names generalizing here with
  | nil =>
      injection h with h
      exact h.symm
  | cons c rest ih =>
      rw [List.foldlM_cons] at h
      rcases (bind_eq_ok _ _ _).mp h with ⟨next, hnext, hrest⟩
      -- A name leads one folder down, so the trail grows by it.
      have hname := hnames c List.mem_cons_self
      rw [step_name top here next c hname.1 hname.2 hnext] at hrest
      rw [ih (c :: here) (fun d hd => hnames d (List.mem_cons_of_mem c hd)) hrest,
        List.reverse_cons, List.append_assoc, List.singleton_append]

/-! ## Paths -/

/-- A path that leads somewhere is a text of the right kind, and every step succeeds. -/
theorem walk_eq_ok (top : FileTree) (here place : Trail) (path : String) :
    top.walk here path = .ok place ↔
      path ≠ "" ∧ '\x00' ∉ path.toList ∧ path.utf8ByteSize ≤ longestPath ∧
        (pathComponents path ++ if asksForFolder path then ["."] else []).foldlM top.step
          (start here path) = .ok place := by
  unfold walk
  -- The three reasons to refuse a path are asked one after the other.
  by_cases hempty : path = ""
  · simp only [hempty, if_true, ne_eq, not_true_eq_false, false_and, reduceCtorEq]
  · by_cases hnull : '\x00' ∈ path.toList
    · simp only [hempty, if_false, hnull, if_true, not_true_eq_false, false_and, and_false,
        reduceCtorEq]
    · by_cases hlong : path.utf8ByteSize > longestPath
      · simp only [hempty, if_false, hnull, hlong, if_true, Nat.not_le_of_gt hlong, false_and,
          and_false, reduceCtorEq]
      · simp only [hempty, if_false, hnull, hlong, Nat.le_of_not_lt hlong, ne_eq,
          not_false_eq_true, true_and]

/-- A slash at the end of a path does not change where it leads. -/
theorem foldlM_components (top : FileTree) (here place : Trail) (path : String)
    (h : top.walk here path = .ok place) :
    (pathComponents path).foldlM top.step (start here path) = .ok place := by
  have hsteps := ((walk_eq_ok top here place path).mp h).2.2.2
  by_cases hasks : asksForFolder path = true
  · -- A slash at the end adds a step that stays where it is.
    rw [if_pos hasks, List.foldlM_append] at hsteps
    rcases (bind_eq_ok _ _ _).mp hsteps with ⟨before, hbefore, hdot⟩
    rw [List.foldlM_cons] at hdot
    rcases (bind_eq_ok _ _ _).mp hdot with ⟨next, hnext, hend⟩
    injection hend with hend
    rcases step_eq_ok top before next "." hnext with ⟨_, _, ⟨_, hsame⟩ | ⟨h, _⟩ | ⟨h, _⟩⟩
    · rw [hbefore, ← hend, hsame]
    · exact absurd h (by decide)
    · exact absurd rfl h
  · rw [if_neg hasks, List.append_nil] at hsteps
    exact hsteps

/-- A path that leads somewhere starts in a folder. -/
theorem start_isFolder (top : FileTree) (here place : Trail) (path : String)
    (h : top.walk here path = .ok place) :
    ∃ entries, top.at? (start here path) = some (.folder entries) := by
  rcases (walk_eq_ok top here place path).mp h with ⟨hne, _, _, hsteps⟩
  cases hlist : pathComponents path ++ (if asksForFolder path then ["."] else []) with
  | nil =>
      -- Only a text of slashes has no components, and such a path asks for a folder.
      rcases List.append_eq_nil_iff.mp hlist with ⟨hnone, hasks⟩
      have hlast : path.toList.getLast? ≠ some '/' := by
        intro hslash
        rw [asksForFolder, hslash] at hasks
        exact absurd hasks (by decide)
      rw [pathComponents_eq, List.map_eq_nil_iff] at hnone
      have hne : path.toList ≠ [] := mt String.toList_eq_nil_iff.mp hne
      exact absurd hnone (Path.named_ne_nil _ hne hlast)
  | cons c rest =>
      rw [hlist, List.foldlM_cons] at hsteps
      rcases (bind_eq_ok _ _ _).mp hsteps with ⟨next, hnext, _⟩
      rcases step_eq_ok top _ next c hnext with ⟨entries, hentries, _⟩
      exact ⟨entries, hentries⟩

/-! ## Tidied paths -/

/-- A stack of components leads from one place to another. -/
def Leads (top : FileTree) (origin : Trail) (done : List (List Char)) (place : Trail) : Prop :=
  (done.reverse.map String.ofList).foldlM top.step origin = .ok place ∧ ['.'] ∉ done

theorem leads_cons (top : FileTree) (origin place next : Trail) (done : List (List Char))
    (c : List Char) (hc : c ≠ ['.']) (h : Leads top origin done place)
    (hstep : top.step place (String.ofList c) = .ok next) : Leads top origin (c :: done) next := by
  refine ⟨?_, ?_⟩
  · rw [List.reverse_cons, List.map_append, List.foldlM_append, h.1, ok_bind, List.map_singleton,
      List.foldlM_cons, hstep]
    rfl
  · intro hmem
    rcases List.mem_cons.mp hmem with heq | hdone
    · exact hc heq.symm
    · exact h.2 hdone

/-- A component that is taken back was a name, so going up leads to where it was entered. -/
theorem leads_tail (top : FileTree) (origin place : Trail) (done : List (List Char))
    (c : List Char) (hc : c ≠ ['.', '.']) (h : Leads top origin (c :: done) place) :
    Leads top origin done place.tail := by
  rcases h with ⟨hsteps, hdots⟩
  rw [List.mem_cons, not_or] at hdots
  rw [List.reverse_cons, List.map_append, List.foldlM_append] at hsteps
  -- The last step has led one folder down, so before it the trail was shorter by one name.
  rcases (bind_eq_ok _ _ _).mp hsteps with ⟨before, hbefore, hlast⟩
  rw [List.map_singleton, List.foldlM_cons] at hlast
  rcases (bind_eq_ok _ _ _).mp hlast with ⟨next, hnext, hend⟩
  injection hend with hend
  have hname : String.ofList c ≠ "." ∧ String.ofList c ≠ ".." :=
    ⟨fun h => hdots.1 (String.ofList_injective h).symm, fun h => hc (String.ofList_injective h)⟩
  rw [← hend, step_name top before next _ hname.1 hname.2 hnext]
  exact ⟨hbefore, hdots.2⟩

/-- Tidying one component goes along with one step. -/
theorem leads_addComponent (top : FileTree) (origin place next : Trail) (absolute : Bool)
    (horigin : absolute = true → origin = []) (done : List (List Char)) (c : List Char)
    (hc : c ≠ []) (h : Leads top origin done place)
    (hstep : top.step place (String.ofList c) = .ok next) :
    Leads top origin (Path.addComponent absolute done c) next := by
  unfold Path.addComponent
  by_cases hdot : c = ['.']
  · rw [if_pos (Or.inr hdot)]
    rw [hdot] at hstep
    rcases step_eq_ok top place next "." hstep with ⟨_, _, ⟨_, hsame⟩ | ⟨heq, _⟩ | ⟨hne, _⟩⟩
    · rw [hsame]
      exact h
    · exact absurd heq (by decide)
    · exact absurd rfl hne
  · rw [if_neg (not_or.mpr ⟨hc, hdot⟩)]
    by_cases hdots : c = ['.', '.']
    · rw [if_pos hdots]
      have hup : next = place.tail := by
        rw [hdots] at hstep
        rcases step_eq_ok top place next ".." hstep with
          ⟨_, _, ⟨heq, _⟩ | ⟨_, hup⟩ | ⟨_, hne, _⟩⟩
        · exact absurd heq (by decide)
        · exact hup
        · exact absurd rfl hne
      cases done with
      | nil =>
          cases absolute with
          | true =>
              -- Above the top there is only the top.
              have hplace := h.1
              injection hplace with hplace
              rw [hup, ← hplace, horigin rfl]
              exact ⟨rfl, List.not_mem_nil⟩
          | false => exact leads_cons top origin place next [] c hdot h hstep
      | cons last before =>
          by_cases hlast : last = ['.', '.']
          · simp only [if_pos hlast]
            exact leads_cons top origin place next (last :: before) c hdot h hstep
          · simp only [if_neg hlast]
            rw [hup]
            exact leads_tail top origin place before last hlast h
    · rw [if_neg hdots]
      exact leads_cons top origin place next done c hdot h hstep

theorem leads_foldl (top : FileTree) (origin here place : Trail) (absolute : Bool)
    (horigin : absolute = true → origin = []) (done names : List (List Char))
    (hnames : ∀ c ∈ names, c ≠ []) (h : Leads top origin done here)
    (hsteps : (names.map String.ofList).foldlM top.step here = .ok place) :
    Leads top origin (names.foldl (Path.addComponent absolute) done) place := by
  induction names generalizing done here with
  | nil =>
      injection hsteps with hsteps
      rw [← hsteps]
      exact h
  | cons c rest ih =>
      rw [List.map_cons, List.foldlM_cons] at hsteps
      rcases (bind_eq_ok _ _ _).mp hsteps with ⟨next, hnext, hrest⟩
      -- After a component, the ones that are kept lead to where the step has led.
      have hadded := leads_addComponent top origin here next absolute horigin done c
        (hnames c List.mem_cons_self) h hnext
      exact ih next _ (fun d hd => hnames d (List.mem_cons_of_mem c hd)) hadded hrest

/-- The components that are left of a path lead to where the path leads. -/
theorem foldlM_kept (top : FileTree) (here place : Trail) (path : String)
    (h : top.walk here path = .ok place) :
    ((Path.kept path.toList).map String.ofList).foldlM top.step (start here path)
      = .ok place := by
  have hsteps := foldlM_components top here place path h
  rw [pathComponents_eq] at hsteps
  -- An absolute path starts at the top, so it stays there when it goes further up.
  have horigin : decide (Path.leadingSlashes path.toList ≠ []) = true → start here path = [] := by
    intro habsolute
    rcases Path.leadingSlashes_cases path.toList with ⟨hnil, _⟩ | ⟨hhead, _⟩
    · exact absurd hnil (of_decide_eq_true habsolute)
    · rw [start, if_pos hhead]
  exact (leads_foldl top (start here path) (start here path) place _ horigin [] _
    (fun c hc => (Path.mem_named _ c hc).1) ⟨rfl, List.not_mem_nil⟩ hsteps).1

/-- A tidied path in which nothing is left stays where it starts. -/
theorem steps_normalize_nil (path : String) (h : Path.kept path.toList = []) :
    pathComponents (Path.normalize path)
      ++ (if asksForFolder (Path.normalize path) then ["."] else []) = ["."] := by
  have hdots : Path.named ['.'] = [['.']] := by decide
  have hone : Path.named ['/'] = [] := by decide
  have htwo : Path.named ['/', '/'] = [] := by decide
  rw [pathComponents_eq, asksForFolder, Path.toList_normalize_nil path h]
  -- Nothing is kept, so the path is a dot or a few slashes, and each of them asks for the folder.
  rcases Path.leadingSlashes_cases path.toList with ⟨hnil, _⟩ | ⟨_, hslash | hslashes⟩
  · rw [hnil, if_pos rfl, hdots]
    rfl
  · rw [hslash, if_neg (List.cons_ne_nil _ _), hone]
    rfl
  · rw [hslashes, if_neg (List.cons_ne_nil _ _), htwo]
    rfl

/-- A tidied path leads to the same place. -/
theorem walk_normalize (top : FileTree) (here place : Trail) (path : String)
    (h : top.walk here path = .ok place) : top.walk here (Path.normalize path) = .ok place := by
  rcases (walk_eq_ok top here place path).mp h with ⟨hne, hnull, hshort, _⟩
  have hkept := foldlM_kept top here place path h
  have hstart : start here (Path.normalize path) = start here path := by
    simp only [start, Path.head?_normalize]
  have hnull' : '\x00' ∉ (Path.normalize path).toList := by
    intro hmem
    rcases Path.mem_normalize path _ hmem with hslash | hdot | hpath
    · exact absurd hslash (by decide)
    · exact absurd hdot (by decide)
    · exact hnull hpath
  have hshort' := (Path.utf8ByteSize_normalize_le path hne).trans hshort
  rw [walk_eq_ok, hstart]
  refine ⟨Path.normalize_ne_empty path, hnull', hshort', ?_⟩
  by_cases hnone : Path.kept path.toList = []
  · -- The tidied path is a dot or a slash, which only asks whether it starts in a folder.
    rcases start_isFolder top here place path h with ⟨entries, hentries⟩
    rw [hnone, List.map_nil, List.foldlM_nil] at hkept
    have hplace : start here path = place := Except.ok.inj hkept
    rw [steps_normalize_nil path hnone, List.foldlM_cons, step_dot top _ entries hentries, ok_bind,
      List.foldlM_nil, hplace]
    rfl
  · have hasks : asksForFolder (Path.normalize path) = false :=
      decide_eq_false (Path.getLast?_normalize path hnone)
    rw [hasks, if_neg Bool.false_ne_true, List.append_nil, pathComponents_eq,
      Path.named_normalize path hnone]
    exact hkept

theorem locate_normalize (root : FileTree) (place : Trail) (path : String)
    (h : root.locate path = .ok place) :
    root.locate (Path.normalize path) = root.locate path := by
  rw [h]
  exact walk_normalize _ _ _ _ h

/-! ## What paths lead to -/

/-- What is found has a place. -/
theorem lookup_eq_ok (root t : FileTree) (path : String) :
    root.lookup path = .ok t ↔
      ∃ place, root.locate path = .ok place ∧ (around root).at? place = some t := by
  rw [lookup, bind_eq_ok]
  refine exists_congr fun place => and_congr_right fun _ => ?_
  cases (around root).at? place with
  | none => exact ⟨fun h => absurd h (by simp [throw, throwThe, MonadExceptOf.throw]),
      fun h => absurd h (by simp)⟩
  | some u => simp [pure, Except.pure]

/-- What is read is a file. -/
theorem read_eq_ok (root : FileTree) (path : String) (bytes : List UInt8)
    (h : root.read path = .ok bytes) : root.lookup path = .ok (.file bytes) := by
  rw [read] at h
  rcases (bind_eq_ok _ _ _).mp h with ⟨t, ht, hbytes⟩
  -- Folders are not read, and neither are files that nothing can be taken from.
  cases t with
  | folder entries =>
      exact absurd hbytes (by simp [throw, throwThe, MonadExceptOf.throw])
  | file content =>
      dsimp only at hbytes
      split at hbytes
      · exact absurd hbytes (by simp [throw, throwThe, MonadExceptOf.throw])
      · injection hbytes with hbytes
        rw [ht, hbytes]

/-- What is read depends on where the path leads, and not on the path. -/
theorem read_normalize (root : FileTree) (place : Trail) (path : String)
    (h : root.locate path = .ok place) :
    root.read (Path.normalize path) = root.read path := by
  unfold read lookup deviceAt?
  rw [locate_normalize root place path h]

theorem hasFile_normalize (root : FileTree) (place : Trail) (path : String)
    (h : root.locate path = .ok place) :
    root.hasFile (Path.normalize path) = root.hasFile path := by
  unfold hasFile lookup deviceAt?
  rw [locate_normalize root place path h]

theorem atNames?_append (t : FileTree) (names others : List String) :
    t.atNames? (names ++ others) = (t.atNames? names).bind (atNames? · others) := by
  induction names generalizing t with
  | nil => rfl
  | cons name rest ih =>
      rw [List.cons_append, atNames?, atNames?, Option.bind_assoc]
      congr 1
      funext u
      exact ih u

/-- The working folder stands at its place in the surroundings. -/
theorem atNames?_around (root : FileTree) (names : List String) :
    (around root).atNames? (workingFolder.reverse ++ names) = root.atNames? names := by
  rw [atNames?_append]
  rfl

/-- Where a path below another one leads. -/
theorem locate_join (root : FileTree) (base place : Trail) (folder path : String)
    (hfolder : root.locate folder = .ok base) (h : root.locate (Path.join folder path) = .ok place)
    (hrelative : path.toList.head? ≠ some '/')
    (hnames : ∀ c ∈ pathComponents path, c ≠ "." ∧ c ≠ "..") :
    place = (pathComponents path).reverse ++ base := by
  have hne := ((walk_eq_ok _ _ _ _).mp hfolder).1
  have hbase := foldlM_components _ _ _ _ hfolder
  have hplace := foldlM_components _ _ _ _ h
  have hstart : start workingFolder (Path.join folder path) = start workingFolder folder := by
    simp only [start, Path.head?_join folder path hne hrelative]
  have hcomponents : pathComponents (Path.join folder path)
      = pathComponents folder ++ pathComponents path := by
    simp only [pathComponents_eq, Path.named_join folder path hrelative, List.map_append]
  -- The first path is followed to its end, and from there on only names are entered.
  rw [hstart, hcomponents, List.foldlM_append, hbase, ok_bind] at hplace
  exact foldlM_names _ _ _ _ hnames hplace

/-- What a path below another one leads to stands below what that one leads to. -/
theorem lookup_join (root tree t : FileTree) (folder path : String)
    (hfolder : root.lookup folder = .ok tree) (h : root.lookup (Path.join folder path) = .ok t)
    (hrelative : path.toList.head? ≠ some '/')
    (hnames : ∀ c ∈ pathComponents path, c ≠ "." ∧ c ≠ "..") :
    tree.atNames? (pathComponents path) = some t := by
  rcases (lookup_eq_ok _ _ _).mp hfolder with ⟨base, hbase, htree⟩
  rcases (lookup_eq_ok _ _ _).mp h with ⟨place, hplace, ht⟩
  rw [locate_join root base place folder path hbase hplace hrelative hnames, at?,
    List.reverse_append, List.reverse_reverse, atNames?_append] at ht
  rw [at?] at htree
  rw [htree] at ht
  exact ht

/-- No device has a name with an ending. -/
theorem not_mem_deviceNames (name ending : String) (h : '.' ∈ ending.toList) :
    name ++ ending ∉ deviceNames := by
  have hplain : ∀ device ∈ deviceNames, '.' ∉ device.toList := by decide
  intro hmem
  refine hplain _ hmem ?_
  rw [String.toList_append]
  exact List.mem_append_right _ h

/-- What has a name that no device has is no device. -/
theorem device?_eq_none (name : String) (trail : Trail) (h : name ∉ deviceNames) :
    device? (name :: trail) = none := by
  unfold device?
  split
  · rename_i hnames
    injection hnames with hname _
    rw [if_neg]
    rintro ⟨_, hmem⟩
    exact h (hname ▸ hmem)
  · rfl

/-- What can be read is a file that is there, unless it is a device. -/
theorem hasFile_of_read (root : FileTree) (place : Trail) (path : String) (bytes : List UInt8)
    (h : root.read path = .ok bytes) (hplace : root.locate path = .ok place)
    (hdevice : device? place = none) : root.hasFile path = true := by
  rw [hasFile, read_eq_ok root path bytes h, deviceAt?, hplace]
  simp [Except.toOption, hdevice]

/-! ## Trees of files -/

/-- No folder of a tree has a name twice. -/
def HasDistinctNames (t : FileTree) : Prop :=
  ∀ names entries, t.atNames? names = some (.folder entries) → (Assoc.keys entries).Nodup

theorem HasDistinctNames.nodup {entries : List (String × FileTree)}
    (h : (FileTree.folder entries).HasDistinctNames) : (Assoc.keys entries).Nodup :=
  h [] entries rfl

/-- What stands in a folder has distinct names, too. -/
theorem HasDistinctNames.entry {t u : FileTree} {name : String} (h : t.HasDistinctNames)
    (hfind : t.entries.find? name = some u) : u.HasDistinctNames := by
  intro names entries hu
  refine h (name :: names) entries ?_
  rw [atNames?, hfind]
  exact hu

theorem hasDistinctNames_of_entries (entries : List (String × FileTree))
    (hnodup : (Assoc.keys entries).Nodup)
    (h : ∀ name u, Assoc.find? name entries = some u → u.HasDistinctNames) :
    (FileTree.folder entries).HasDistinctNames := by
  intro names others hat
  -- The entries here are distinct, and those further down by their own hypothesis.
  cases names with
  | nil =>
      injection hat with hat
      injection hat with hat
      rw [← hat]
      exact hnodup
  | cons name rest =>
      rcases Option.bind_eq_some_iff.mp hat with ⟨u, hu, hrest⟩
      exact h name u hu rest others hrest

theorem hasDistinctNames_file (bytes : List UInt8) : (FileTree.file bytes).HasDistinctNames := by
  intro names entries hat
  cases names with
  | nil => exact absurd hat (by simp [atNames?])
  | cons name rest => exact absurd hat (by simp [atNames?, FileTree.entries, Assoc.find?])

theorem hasDistinctNames_empty : empty.HasDistinctNames :=
  hasDistinctNames_of_entries [] List.nodup_nil fun _ _ h => absurd h (by simp [Assoc.find?])

theorem entries_nodup (t : FileTree) (h : t.HasDistinctNames) : t.entries.keys.Nodup := by
  cases t with
  | file bytes => exact List.nodup_nil
  | folder entries => exact h.nodup

/-- Putting something in keeps names distinct. -/
theorem HasDistinctNames.putAt (t new : FileTree) (names : List String) (h : t.HasDistinctNames)
    (hnew : new.HasDistinctNames) : (t.putAt names new).HasDistinctNames := by
  induction names generalizing t with
  | nil => exact hnew
  | cons name rest ih =>
      have hnodup := entries_nodup t h
      refine hasDistinctNames_of_entries _ ?_ ?_
      · -- A name that is there keeps its place, and a new one is not there yet.
        rw [Assoc.keys_change]
        split
        · exact hnodup
        · rename_i hnot
          refine List.nodup_append.mpr ⟨hnodup, List.nodup_singleton name, ?_⟩
          intro other hother last hlast heq
          rw [List.mem_singleton.mp hlast] at heq
          exact hnot (heq ▸ hother)
      · intro other u hu
        by_cases hname : name = other
        · rw [← hname, Assoc.find?_change_self] at hu
          injection hu with hu
          rw [← hu]
          cases hfind : t.entries.find? name with
          | none => exact ih empty hasDistinctNames_empty
          | some present => exact ih present (h.entry hfind)
        · rw [Assoc.find?_change_other hname] at hu
          exact h.entry hu

/-- A file stands where it was put, or where it stood before. -/
theorem atNames?_putAt (t new : FileTree) (names others : List String) (bytes : List UInt8)
    (h : (t.putAt names new).atNames? others = some (.file bytes)) :
    (∃ below, others = names ++ below ∧ new.atNames? below = some (.file bytes)) ∨
      t.atNames? others = some (.file bytes) := by
  induction names generalizing t others with
  | nil => exact Or.inl ⟨others, rfl, h⟩
  | cons name rest ih =>
      cases others with
      | nil => exact absurd h (by simp [putAt, atNames?])
      | cons other more =>
          rw [FileTree.putAt, atNames?] at h
          rcases Option.bind_eq_some_iff.mp h with ⟨u, hu, hmore⟩
          by_cases hname : name = other
          · rw [FileTree.entries, ← hname, Assoc.find?_change_self] at hu
            injection hu with hu
            rw [← hu] at hmore
            rcases ih _ more hmore with ⟨below, hbelow, hnew⟩ | hpresent
            · exact Or.inl ⟨below, by rw [← hname, hbelow, List.cons_append], hnew⟩
            · refine Or.inr ?_
              rw [← hname, atNames?]
              cases hfind : t.entries.find? name with
              | none =>
                  -- What was not there had no files.
                  rw [hfind, Option.getD_none] at hpresent
                  cases more with
                  | nil => exact absurd hpresent (by simp [atNames?, empty])
                  | cons _ _ =>
                      exact absurd hpresent
                        (by simp [atNames?, empty, FileTree.entries, Assoc.find?])
              | some present =>
                  rw [hfind, Option.getD_some] at hpresent
                  exact hpresent
          · rw [FileTree.entries, Assoc.find?_change_other hname] at hu
            refine Or.inr ?_
            rw [atNames?, hu]
            exact hmore

/-- The tree of files that are given with their names from the top. -/
def ofFiles (files : List (List String × List UInt8)) : FileTree :=
  files.foldl (fun t f => t.putAt f.1 (.file f.2)) empty

theorem ofFiles_concat (files : List (List String × List UInt8)) (f : List String × List UInt8) :
    ofFiles (files ++ [f]) = (ofFiles files).putAt f.1 (.file f.2) := by
  rw [ofFiles, List.foldl_append]
  rfl

theorem hasDistinctNames_ofFiles (files : List (List String × List UInt8)) :
    (ofFiles files).HasDistinctNames := by
  induction files using List.reverseRecOn with
  | nil => exact hasDistinctNames_empty
  | append_singleton files f ih =>
      rw [ofFiles_concat]
      exact ih.putAt _ _ _ (hasDistinctNames_file f.2)

/-- A tree of files has no others. -/
theorem mem_of_atNames?_ofFiles (files : List (List String × List UInt8)) (names : List String)
    (bytes : List UInt8) (h : (ofFiles files).atNames? names = some (.file bytes)) :
    (names, bytes) ∈ files := by
  induction files using List.reverseRecOn with
  | nil =>
      cases names with
      | nil => exact absurd h (by simp [ofFiles, empty, atNames?])
      | cons _ _ => exact absurd h (by simp [ofFiles, empty, atNames?, entries, Assoc.find?])
  | append_singleton files f ih =>
      rw [ofFiles_concat] at h
      -- What stands at a place was put there last, or stood there before.
      rcases atNames?_putAt _ _ _ _ _ h with ⟨below, hbelow, hfile⟩ | hbefore
      · cases below with
        | nil =>
            injection hfile with hfile
            injection hfile with hfile
            rw [hbelow, List.append_nil, ← hfile]
            exact List.mem_append_right _ List.mem_cons_self
        | cons _ _ => exact absurd hfile (by simp [atNames?, entries, Assoc.find?])
      · exact List.mem_append_left _ (ih hbefore)

end StorageLayout.FileTree
