import StorageLayout.CommandLine.Commands
import StorageLayout.Proofs.Showing

/-!
# What a Failed Print Leaves Behind

The files and the output after a print command that has failed.

The command does its work in three parts. It compiles the project if that is asked for, and then the
files are what the compiler has made of them (`prepared`). It finds the artifact, chooses a source
and makes the layout. For this it only looks at the files (`Reads`), so the part is a function of
the files and the settings (`layoutFor`), and when it fails nothing has been said or written. Then
the layout is delivered, to a file and on the output (`deliver`), and here something is done before
the last thing that can fail.

There are three such places. The file for the layout is opened, and with it emptied, before the
layout is exported; and the first line of a tree is said before the other lines are made. A slot
without a word is found too late in both. The third way of delivering, the layout as JSON on the
output, makes the whole text first. After a file has been written all lines can be made, because
what has been written can be shown. But they are said one after the other, and the output can refuse
one of them, when the file and the lines before it are there already. So this is all that a failed
print can leave behind (`print_failed`), on whatever host, and it does (`print_leaves`).

## Main definitions

* `Leaves`: What is known of the end of a step.
* `Reads`: A step that only looks at the files.
* `prepared`: The console when the project has been compiled.
* `layoutFor`: The layout that a command is to deliver.
* `deliver`: What is done with it.
* `Abandons`: A file has been opened and not been finished.
* `said`, `saidAll`: The console when lines have been said.
* `StopsAt`: Lines are said up to one that is refused.
* `shownLines`: The lines that a layout is shown in.
* `Leftover`: What a failed print can leave behind.

## Theorems

* `Leaves.bind`, `Reads.bind`: One step after another.
* `reads_findArtifact`, `reads_makeLayout`: Nothing is done while the layout is made.
* `printLayout_eq`: The parts of a print.
* `run_writeFile_error`: A file that cannot be written leaves everything as it was.
* `run_say`, `run_sayAll`: Lines are said, or one is refused.
* `run_writeLayout`, `run_showLayout`, `run_deliver`: How a delivery fails.
* `shownLines_of_written`: After a file has been written all lines can be made.
* `leaves_printLayout`: How a print fails.
* `print_failed`: What a failed print leaves behind.
* `print_leaves`: Three commands that leave something behind.
-/

namespace StorageLayout.CommandLine

/-- What is known of the end of a step, with the console that it leaves. -/
def Leaves {α : Type} (P : Error → Console → Prop) (Q : Console → Prop) :
    Except Error α × Console → Prop
  | (.ok _, c) => Q c
  | (.error e, c) => P e c

/-- A step only looks at the files. -/
def Reads {α : Type} (s : Session α) (g : FileTree → Except Error α) : Prop :=
  ∀ c : Console, s.run.run c = (g c.files, c)

/-- Two steps one after the other. -/
theorem run_bind {α β : Type} (s : Session α) (f : α → Session β) (c : Console) :
    (s >>= f).run.run c = match s.run.run c with
      | (.ok a, c') => (f a).run.run c'
      | (.error e, c') => (.error e, c') := by
  rw [ExceptT.run_bind, StateT.run_bind]
  generalize s.run.run c = result
  rcases result with ⟨r, c'⟩
  cases r <;> rfl

theorem run_get (c : Console) : (get : Session Console).run.run c = (.ok c, c) := rfl

theorem reads_withFiles {α : Type} (f : FileTree → Except Error α) : Reads (withFiles f) f := by
  intro c
  unfold withFiles
  rw [run_bind, run_get]
  simp only
  cases f c.files with
  | ok a => rfl
  | error e => rfl

theorem reads_lift {α : Type} (r : Except Error α) : Reads (lift r) fun _ => r :=
  reads_withFiles _

/-- The end of a step that only looks at the files. -/
theorem Reads.eq {α : Type} {s : Session α} {g : FileTree → Except Error α} (hs : Reads s g)
    {result : Except Error α} {c c' : Console} (h : s.run.run c = (result, c')) :
    g c.files = result ∧ c' = c := by
  rcases Prod.mk.inj ((hs c).symm.trans h) with ⟨hresult, hc⟩
  exact ⟨hresult, hc.symm⟩

/-- A step that fails ends the run. -/
theorem Leaves.bind {α β : Type} {P : Error → Console → Prop} {Q : Console → Prop}
    {s : Session α} {f : α → Session β} {c : Console}
    (hfailed : ∀ e c', s.run.run c = (.error e, c') → P e c')
    (hrest : ∀ a c', s.run.run c = (.ok a, c') → Leaves P Q ((f a).run.run c')) :
    Leaves P Q ((s >>= f).run.run c) := by
  rw [run_bind]
  cases hs : s.run.run c with
  | mk result c' =>
      cases result with
      | error e => exact hfailed e c' hs
      | ok a => exact hrest a c' hs

theorem Leaves.imp {α : Type} {P P' : Error → Console → Prop} {Q : Console → Prop}
    {end' : Except Error α × Console} (h : Leaves P Q end') (hP : ∀ e c, P e c → P' e c) :
    Leaves P' Q end' := by
  rcases end' with ⟨result, c⟩
  cases result with
  | error e => exact hP e c h
  | ok _ => exact h

theorem Reads.bind {α β : Type} {s : Session α} {g : FileTree → Except Error α} (hs : Reads s g)
    {f : α → Session β} {k : α → FileTree → Except Error β} (hf : ∀ a, Reads (f a) (k a)) :
    Reads (s >>= f) fun files => g files >>= fun a => k a files := by
  intro c
  rw [run_bind, hs c]
  change _ = ((g c.files >>= fun a => k a c.files), c)
  cases g c.files with
  | error e => rfl
  | ok a => exact hf a c

theorem reads_pure {α : Type} (a : α) : Reads (pure a) fun _ => .ok a := fun _ => rfl

/-! ## Compiling the project -/

/-- The first part of a print, in which the project is compiled if that is asked for. -/
def prepare (settings : Settings) : Session Unit :=
  if settings.isOn compile then compileStep (settings.text compileCommand) else pure ()

/-- The console when the artifact is about to be looked for. If the project has been compiled, its
files are those that the command has left on this host, and the line about it has been said on the
stream of errors. -/
def prepared (settings : Settings) (c : Console) : Console :=
  if settings.isOn compile then
    let command := settings.text compileCommand
    { c with
      errors := c.errors ++ spoken s!"compiling: {command}"
      files := (c.host.compile c.files c.environment command).1 }
  else c

theorem prepared_of_off (settings : Settings) (h : settings.isOn compile = false) (c : Console) :
    prepared settings c = c := by
  rw [prepared, h, if_neg Bool.false_ne_true]

/-- Compiling says nothing on the output. -/
theorem output_prepared (settings : Settings) (c : Console) :
    (prepared settings c).output = c.output := by
  unfold prepared
  split
  · rfl
  · rfl

theorem run_prepare (settings : Settings) (c c' : Console) (result : Except Error Unit)
    (h : (prepare settings).run.run c = (result, c')) : c' = prepared settings c := by
  unfold prepare at h
  unfold prepared
  -- Asked to compile first or not, nothing is printed: at most the folder and the host have another
  -- state.
  cases hcompile : settings.isOn compile with
  | true =>
      rw [hcompile, if_pos rfl] at h
      rw [if_pos rfl]
      exact ((reads_lift _).eq h).2
  | false =>
      rw [hcompile, if_neg Bool.false_ne_true] at h
      exact (Prod.mk.inj h).2.symm

/-! ## Making the layout -/

/-- The artifact for a contract, and the name to look for in it. -/
def artifactFor (settings : Settings) (files : FileTree) : Except Error (Json × String) :=
  match nonEmpty (settings.text? buildInfo) with
  | some path => do
    let artifact ← Artifacts.loadJson files path
    return (artifact, settings.contract)
  | none => do
    let folder := settings.text artifacts
    let fullName ←
      if ContractName.isQualified settings.contract then .ok settings.contract
      else Artifacts.listContracts files folder >>= ContractName.qualify settings.contract
    let artifact ← Artifacts.readBuildInfo files folder fullName
    return (artifact, fullName)

/-- The layout that a command is to deliver, and the qualified name of its contract. -/
def layoutFor (settings : Settings) (files : FileTree) :
    Except Error (String × List TypeReference) := do
  let (artifact, name) ← artifactFor settings files
  let (source, fullName) ← Source.select artifact name (.ofString (settings.text mode))
  let depth := settings.number maxDepth
  let layout ← layoutOf source fullName ⟨.int depth, depth⟩
  return (fullName, layout)

/-- The part of a print in which the layout is made. -/
def makeLayout (settings : Settings) : Session (String × List TypeReference) := do
  let (artifact, name) ← findArtifact settings
  let (source, fullName) ← lift (Source.select artifact name (.ofString (settings.text mode)))
  let depth := settings.number maxDepth
  let layout ← lift (layoutOf source fullName ⟨.int depth, depth⟩)
  return (fullName, layout)

/-- What is done with a layout: it is written, if a file is named for it, and shown. -/
def deliver (settings : Settings) (fullName : String) (layout : List TypeReference) :
    Session Unit := do
  if let some path := nonEmpty (settings.text? jsonOut) then writeLayout path layout
  showLayout settings fullName layout

theorem reads_findArtifact (settings : Settings) :
    Reads (findArtifact settings) (artifactFor settings) := by
  unfold findArtifact artifactFor
  cases nonEmpty (settings.text? buildInfo) with
  | some path => exact Reads.bind (reads_withFiles _) (fun artifact => reads_pure _)
  | none =>
      have hread : ∀ fullName, Reads
          (withFiles (Artifacts.readBuildInfo · (settings.text artifacts) fullName) >>=
            fun artifact => (pure (artifact, fullName) : Session (Json × String)))
          fun files => Artifacts.readBuildInfo files (settings.text artifacts) fullName >>=
            fun artifact => .ok (artifact, fullName) :=
        fun fullName => Reads.bind (reads_withFiles _) (fun artifact => reads_pure _)
      simp only
      split
      · exact hread settings.contract
      · -- The name is looked up and qualified before the artifact is read under it.
        have hname : Reads (withFiles (Artifacts.listContracts · (settings.text artifacts)) >>=
            fun candidates => lift (ContractName.qualify settings.contract candidates))
            fun files => Artifacts.listContracts files (settings.text artifacts) >>=
              ContractName.qualify settings.contract :=
          Reads.bind (reads_withFiles _) (fun candidates => reads_withFiles _)
        have hboth := Reads.bind hname hread
        rw [bind_assoc] at hboth
        exact hboth

/-- Nothing is said or written while the layout is made. -/
theorem reads_makeLayout (settings : Settings) : Reads (makeLayout settings) (layoutFor settings) :=
  Reads.bind (reads_findArtifact settings) fun _ =>
    Reads.bind (reads_lift _) fun _ => Reads.bind (reads_lift _) fun _ => reads_pure _

/-! ## Delivering it -/

/-- The file for a layout has been opened and has not been finished. -/
inductive Abandons (path : String) (layout : List TypeReference) (c : Console) : Console → Prop
  /-- A slot has no word, and the file is empty. -/
  | unexported {c' : Console} {e : Error} (hopened : (writeFile path []).run.run c = (.ok (), c'))
      (h : exportForest layout = .error e) : Abandons path layout c c'
  /-- The file takes nothing. -/
  | unwritten {c' : Console} {e : Error} {exported : List Json}
      (hopened : (writeFile path []).run.run c = (.ok (), c'))
      (h : exportForest layout = .ok exported)
      (hwrite : (writeFile path (Artifacts.encodeText (Json.arr exported).pretty.text)).run.run c'
        = (.error e, c')) : Abandons path layout c c'
  /-- An integer is too long, and the file has what comes before it. -/
  | cut {c' c'' : Console} {exported : List Json}
      (hopened : (writeFile path []).run.run c = (.ok (), c'))
      (h : exportForest layout = .ok exported)
      (hcut : (Json.arr exported).pretty.isComplete = false)
      (hwrite : (writeFile path (Artifacts.encodeText (Json.arr exported).pretty.text)).run.run c'
        = (.ok (), c'')) : Abandons path layout c c''

/-- The console after a line has been said. -/
def said (line : String) (c : Console) : Console := { c with output := c.output ++ spoken line }

/-- The console after lines have been said. -/
def saidAll (lines : List String) (c : Console) : Console :=
  lines.foldl (fun c line => said line c) c

/-- Why the output does not take a line. -/
def refusal? (line : String) (c : Console) : Option Defect :=
  c.host.refusal? c.output (spoken line)

/-- Lines are said up to one that the output does not take. -/
inductive StopsAt (lines : List String) (c : Console) (d : Defect) : Console → Prop
  | line {before after : List String} {line : String} (hlines : lines = before ++ line :: after)
      (hsaid : (before.forM say).run.run c = (.ok (), saidAll before c))
      (hrefused : refusal? line (saidAll before c) = some d) : StopsAt lines c d (saidAll before c)

/-- A line is said, or it is refused and nothing of it is there. -/
theorem run_say (line : String) (c : Console) :
    (say line).run.run c = match refusal? line c with
      | some d => (.error (.defect d), c)
      | none => (.ok (), said line c) := by
  unfold say refusal?
  rw [run_bind, run_get]
  simp only
  cases c.host.refusal? c.output (spoken line) with
  | some d => rfl
  | none => rfl

/-- A line is said before anything else, or nothing else is done. -/
theorem run_say_bind {α : Type} (line : String) (f : Unit → Session α) (c : Console) :
    (say line >>= f).run.run c = match refusal? line c with
      | some d => (.error (.defect d), c)
      | none => (f ()).run.run (said line c) := by
  rw [run_bind, run_say]
  cases refusal? line c with
  | some d => rfl
  | none => rfl

/-- All lines are said, or one of them is refused. -/
theorem run_sayAll (lines : List String) (c : Console) :
    (lines.forM say).run.run c = (.ok (), saidAll lines c) ∨
      ∃ d c', StopsAt lines c d c' ∧ (lines.forM say).run.run c = (.error (.defect d), c') := by
  induction lines generalizing c with
  | nil => exact Or.inl rfl
  | cons line rest ih =>
      have hrun : ∀ more : List String, ((line :: more).forM say).run.run c
          = match refusal? line c with
            | some d => (.error (.defect d), c)
            | none => (more.forM say).run.run (said line c) :=
        fun more => run_say_bind line (fun _ => more.forM say) c
      cases hrefused : refusal? line c with
      | some d =>
          refine Or.inr ⟨d, c, .line (List.nil_append _).symm rfl hrefused, ?_⟩
          rw [hrun, hrefused]
      | none =>
          simp only [hrefused] at hrun
          rw [hrun]
          rcases ih (said line c) with hall | ⟨d, c', hstops, hrest⟩
          · exact Or.inl hall
          · -- The lines before the one that is refused now begin with this line.
            rcases hstops with @⟨before, after, last, hlines, hsaid, hlast⟩
            have hlines' : line :: rest = (line :: before) ++ last :: after :=
              congrArg (line :: ·) hlines
            have hsaid' : ((line :: before).forM say).run.run c
                = (.ok (), saidAll (line :: before) c) := (hrun before).trans hsaid
            exact Or.inr ⟨d, _, .line hlines' hsaid' hlast, hrest⟩

/-- A file that cannot be written leaves everything as it was. -/
theorem run_writeFile_error (path : String) (bytes : List UInt8) (c c' : Console) (e : Error)
    (h : (writeFile path bytes).run.run c = (.error e, c')) : c' = c := by
  unfold writeFile at h
  simp only [run_bind, run_get] at h
  -- The folder changes in the same step in which the file is accepted, so a refusal leaves
  -- everything as it was.
  split at h
  · cases h
  · cases h
  · cases hwrite : c.files.write path bytes with
    | ok files =>
        rw [hwrite] at h
        cases h
    | error d =>
        rw [hwrite] at h
        exact (Prod.mk.inj h).2.symm

/-- How the writing of a layout ends: it is refused at the start, it is left half done, or all of it
is written. -/
theorem run_writeLayout (path : String) (layout : List TypeReference) (c : Console) :
    Leaves (fun _ c' => c' = c ∨ Abandons path layout c c')
      (fun _ => ∃ exported, exportForest layout = .ok exported ∧
        Json.areShowable exported = true)
      ((writeLayout path layout).run.run c) := by
  unfold writeLayout
  refine Leaves.bind (fun e c' h => Or.inl (run_writeFile_error path [] c c' e h)) ?_
  -- From here on the file is open, and what fails leaves it open.
  intro _ c₁ hopened
  refine Leaves.bind ?_ ?_
  · intro e c' h
    rcases (reads_lift _).eq h with ⟨hexport, hc⟩
    rw [hc]
    exact Or.inr (Abandons.unexported hopened hexport)
  intro exported c₂ h
  rcases (reads_lift _).eq h with ⟨hexport, hc⟩
  rw [hc]
  refine Leaves.bind ?_ ?_
  · intro e c' h
    have hunwritten := run_writeFile_error path _ c₁ c' e h
    rw [hunwritten] at h ⊢
    exact Or.inr (Abandons.unwritten hopened hexport h)
  intro _ c₃ hwrite
  cases hcomplete : (Json.arr exported).pretty.isComplete with
  | false => exact Or.inr (Abandons.cut hopened hexport hcomplete hwrite)
  | true =>
      refine ⟨exported, hexport, ?_⟩
      rw [← hcomplete]
      exact (Json.isComplete_prettyAt 0 (Json.arr exported)).symm

/-- The first line of a tree. -/
def heading (fullName : String) : String := s!"layout of {Text.paint .brightGreen fullName}:"

/-- The lines that a layout is shown in: its JSON as a single one, or a tree. -/
def shownLines (settings : Settings) (fullName : String) (layout : List TypeReference) :
    Except Error (List String) :=
  if settings.isOn raw then do
    let exported ← exportForest layout
    let written := (Json.arr exported).pretty
    if written.isComplete then return [written.text] else Defect.badContent.fail
  else do
    let lines ← Render.renderForest (settings.isOn hexSlots) 0 layout
    return heading fullName :: lines

/-- If its lines can be made, a layout is shown by saying them. -/
theorem run_showLayout_of_lines (settings : Settings) (fullName : String)
    (layout : List TypeReference) (lines : List String)
    (h : shownLines settings fullName layout = .ok lines) (c : Console) :
    (showLayout settings fullName layout).run.run c = (lines.forM say).run.run c := by
  unfold shownLines at h
  unfold showLayout
  cases hraw : settings.isOn raw with
  | true =>
      simp only [hraw, if_true] at h ⊢
      rcases (bind_eq_ok _ _ _).mp h with ⟨exported, hexport, h⟩
      rw [run_bind, reads_lift, hexport]
      cases hcomplete : (Json.arr exported).pretty.isComplete with
      | false =>
          rw [hcomplete] at h
          cases h
      | true =>
          rw [hcomplete] at h
          injection h with h
          rw [← h]
          simp only [hcomplete]
          -- A single line is said and nothing after it.
          change (say _).run.run c = (say _ >>= fun _ => pure ()).run.run c
          rw [run_say_bind, run_say]
          cases refusal? (Json.arr exported).pretty.text c with
          | some d => rfl
          | none => rfl
  | false =>
      simp only [hraw, Bool.false_eq_true, if_false] at h ⊢
      rcases (bind_eq_ok _ _ _).mp h with ⟨rest, hrest, h⟩
      injection h with h
      rw [← h]
      change _ = (say (heading fullName) >>= fun _ => rest.forM say).run.run c
      rw [run_say_bind, run_say_bind]
      change (match refusal? (heading fullName) c with | some d => _ | none => _) = _
      cases refusal? (heading fullName) c with
      | some d => rfl
      | none =>
          simp only
          rw [run_bind, reads_lift, hrest]
          rfl

/-- What has been written can be shown. -/
theorem shownLines_of_written (settings : Settings) (fullName : String)
    (layout : List TypeReference) (exported : List Json)
    (hexport : exportForest layout = .ok exported) (hshow : Json.areShowable exported = true) :
    ∃ lines, shownLines settings fullName layout = .ok lines := by
  unfold shownLines
  -- Both forms show a part of what the file has been given already.
  cases settings.isOn raw with
  | true =>
      have hcomplete : (Json.arr exported).pretty.isComplete = true :=
        (Json.isComplete_prettyAt 0 (Json.arr exported)).trans hshow
      rw [if_pos rfl, hexport, ok_bind]
      simp only [hcomplete, if_true]
      exact ⟨_, rfl⟩
  | false =>
      rcases Render.renderForest_of_written (settings.isOn hexSlots) 0 layout exported hexport hshow
        with ⟨lines, hlines⟩
      rw [if_neg Bool.false_ne_true, hlines]
      exact ⟨_, rfl⟩

/-- The showing of a layout fails at the start, after the first line of a tree, or at a line that is
refused. -/
theorem run_showLayout (settings : Settings) (fullName : String) (layout : List TypeReference)
    (c : Console) :
    Leaves (fun e c' => c' = c ∨
        (settings.isOn raw = false ∧ refusal? (heading fullName) c = none ∧
          Render.renderForest (settings.isOn hexSlots) 0 layout = .error e ∧
          c' = said (heading fullName) c) ∨
        ∃ lines d, shownLines settings fullName layout = .ok lines ∧ StopsAt lines c d c')
      (fun _ => True) ((showLayout settings fullName layout).run.run c) := by
  cases hlines : shownLines settings fullName layout with
  | ok lines =>
      rw [run_showLayout_of_lines settings fullName layout lines hlines]
      rcases run_sayAll lines c with hall | ⟨d, c', hstops, hrun⟩
      · rw [hall]
        exact trivial
      · rw [hrun]
        exact Or.inr (Or.inr ⟨lines, d, rfl, hstops⟩)
  | error e =>
      -- The lines cannot be made, and only of a tree is one said before this is found.
      unfold shownLines at hlines
      unfold showLayout
      cases hraw : settings.isOn raw with
      | true =>
          simp only [hraw, if_true] at hlines ⊢
          refine Leaves.bind (fun e' c' h => Or.inl ((reads_lift _).eq h).2) ?_
          intro exported c' h
          rcases (reads_lift _).eq h with ⟨hexport, hc⟩
          rw [hexport, ok_bind] at hlines
          rw [hc]
          cases hcomplete : (Json.arr exported).pretty.isComplete with
          | false => exact Or.inl rfl
          | true =>
              rw [hcomplete] at hlines
              cases hlines
      | false =>
          simp only [hraw, Bool.false_eq_true, if_false] at hlines ⊢
          rw [run_say_bind]
          change Leaves _ _ (match refusal? (heading fullName) c with | some d => _ | none => _)
          cases hrefused : refusal? (heading fullName) c with
          | some d => exact Or.inl rfl
          | none =>
              refine Leaves.bind ?_ ?_
              · intro e' c' h
                exact Or.inr (Or.inl ⟨trivial, rfl, (reads_lift _).eq h⟩)
              intro lines c' h
              rw [((reads_lift _).eq h).1] at hlines
              cases hlines

/-- What has been done when a layout is about to be shown: it is written, if a file is named for
it. -/
def Wrote (settings : Settings) (layout : List TypeReference) (c c' : Console) : Prop :=
  match nonEmpty (settings.text? jsonOut) with
  | some path => (writeLayout path layout).run.run c = (.ok (), c')
  | none => c' = c

/-- What a print can leave behind that fails when it has made its layout. -/
inductive Leftover (settings : Settings) (fullName : String) (layout : List TypeReference)
    (c : Console) : Console → Prop
  /-- The file for the layout has been opened and has not been finished. -/
  | file {path : String} {c' : Console} (hpath : nonEmpty (settings.text? jsonOut) = some path)
      (h : Abandons path layout c c') : Leftover settings fullName layout c c'
  /-- The first line of the tree has been said, and another one cannot be made. -/
  | line {e : Error} (hpath : nonEmpty (settings.text? jsonOut) = none)
      (hraw : settings.isOn raw = false) (hsaid : refusal? (heading fullName) c = none)
      (h : Render.renderForest (settings.isOn hexSlots) 0 layout = .error e) :
      Leftover settings fullName layout c (said (heading fullName) c)
  /-- The file has been written, if there is one, and then lines have been said up to one that the
  output does not take. -/
  | refused {c' c'' : Console} {lines : List String} {d : Defect}
      (hwrote : Wrote settings layout c c') (hlines : shownLines settings fullName layout = .ok lines)
      (hstops : StopsAt lines c' d c'') : Leftover settings fullName layout c c''

/-- How a delivery fails. -/
theorem run_deliver (settings : Settings) (fullName : String) (layout : List TypeReference)
    (c : Console) :
    Leaves (fun _ c' => c' = c ∨ Leftover settings fullName layout c c') (fun _ => True)
      ((deliver settings fullName layout).run.run c) := by
  unfold deliver
  cases hpath : nonEmpty (settings.text? jsonOut) with
  | some path =>
      refine Leaves.bind ?_ ?_
      · intro e c' hfailed
        have hleft := run_writeLayout path layout c
        rw [hfailed] at hleft
        exact Or.imp id (Leftover.file hpath) hleft
      intro _ c' hwritten
      have hwrote : Wrote settings layout c c' := by
        rw [Wrote, hpath]
        exact hwritten
      have hleft := run_writeLayout path layout c
      rw [hwritten] at hleft
      -- The export has met everything that the lines could fail at.
      rcases hleft with ⟨exported, hexport, hshow⟩
      rcases shownLines_of_written settings fullName layout exported hexport hshow with
        ⟨lines, hlines⟩
      rw [run_showLayout_of_lines settings fullName layout lines hlines]
      rcases run_sayAll lines c' with hall | ⟨d, c'', hstops, hrun⟩
      · rw [hall]
        exact trivial
      · rw [hrun]
        exact Or.inr (.refused hwrote hlines hstops)
  | none =>
      have hwrote : Wrote settings layout c c := by
        rw [Wrote, hpath]
      refine (run_showLayout settings fullName layout c).imp ?_
      intro e c' hend
      rcases hend with hc | ⟨hraw, hsaid, hlines, hc⟩ | ⟨lines, d, hlines, hstops⟩
      · exact Or.inl hc
      · rw [hc]
        exact Or.inr (.line hpath hraw hsaid hlines)
      · exact Or.inr (.refused hwrote hlines hstops)

/-! ## The whole run -/

/-- The parts of a print. -/
theorem printLayout_eq (settings : Settings) :
    printLayout settings = prepare settings >>= fun _ =>
      makeLayout settings >>= fun made => deliver settings made.1 made.2 := by
  unfold printLayout makeLayout prepare
  cases settings.isOn compile with
  | true =>
      simp only [bind_assoc, pure_bind]
      rfl
  | false =>
      simp only [bind_assoc, pure_bind]
      rfl

/-- How a print fails: before its layout has been made, or while it is delivered. -/
theorem leaves_printLayout (settings : Settings) (c : Console) :
    Leaves (fun _ c' => c' = prepared settings c ∨ ∃ fullName layout,
        layoutFor settings (prepared settings c).files = .ok (fullName, layout) ∧
        Leftover settings fullName layout (prepared settings c) c')
      (fun _ => True) ((printLayout settings).run.run c) := by
  rw [printLayout_eq]
  refine Leaves.bind (fun e c' h => Or.inl (run_prepare settings c c' _ h)) (fun _ c' h => ?_)
  rw [run_prepare settings c c' _ h]
  refine Leaves.bind (fun e c'' h => Or.inl ((reads_makeLayout settings).eq h).2)
    (fun made c'' h => ?_)
  rcases (reads_makeLayout settings).eq h with ⟨hlayout, hc⟩
  rw [hc]
  refine (run_deliver settings made.1 made.2 _).imp (fun _ c''' hend => ?_)
  exact hend.imp id fun hleft => ⟨made.1, made.2, hlayout, hleft⟩

/-- A run that has failed has the output and the files of its last step. -/
theorem failed_ofSession (host : Host) (files : FileTree) (environment : Assoc String String)
    (session : Session Unit) {P : Error → Console → Prop} {Q : Console → Prop}
    (h : Leaves P Q (session.run.run { files, environment, host }))
    (hfailed : (Outcome.ofSession host files environment session).status ≠ 0) :
    ∃ e c, P e c ∧ (Outcome.ofSession host files environment session).output = c.output ∧
      (Outcome.ofSession host files environment session).files = c.files := by
  revert h hfailed
  unfold Outcome.ofSession
  rcases session.run.run { files, environment, host } with ⟨result, c⟩
  intro h hfailed
  cases result with
  | ok _ => exact absurd rfl hfailed
  | error e =>
      refine ⟨e, c, h, ?_⟩
      simp only
      -- The two ways of ending with an error differ in what stands on the error output.
      split
      · exact ⟨rfl, rfl⟩
      · exact ⟨rfl, rfl⟩

/-- The words after the word for a command are read as words of this command. -/
theorem command_of_readCommand (s : Surroundings) (c c' : Command) (words : List String)
    (settings : Settings) (h : readCommand s c words = .ok (.run c' settings)) : c' = c := by
  unfold readCommand at h
  -- The settings are told apart and settled with the command given, and no step exchanges it.
  cases htold : tellApart (Context.command c).options true words with
  | error fault =>
      rw [htold] at h
      cases h
  | ok given =>
      rw [htold] at h
      change (settle s (.command c) given >>= _) = _ at h
      cases hsettled : settle s (.command c) given with
      | error fault =>
          rw [hsettled] at h
          cases h
      | ok settled =>
          rw [hsettled] at h
          cases settled with
          | none => cases h
          | some _ =>
              cases h
              rfl

/-- The words of a print command ask for a print. -/
theorem command_of_print (s : Surroundings) (words : List String) (c : Command)
    (settings : Settings) (h : Request.read s ("print" :: words) = .ok (.run c settings)) :
    c = .print := by
  change (readCommand s .print words).mapError (Context.command .print, ·) = _ at h
  cases hread : readCommand s .print words with
  | error fault =>
      rw [hread] at h
      cases h
  | ok request =>
      rw [hread] at h
      cases h
      exact command_of_readCommand s .print c words settings hread

/-- What a failed print leaves behind, whatever the host.

A print that ends with another status than zero has said nothing on the output and has left the files
as they were, or as the compiler has left them if the project was to be compiled. The one exception
is a print that has made a layout and cannot write or show all of it. It can leave a file that has
been opened and not been finished, or the first line of a tree, or the file and the lines before one
that the output does not take. -/
theorem print_failed (host : Host) (files : FileTree) (environment : Assoc String String)
    (words : List String) (hfailed : (runOn host files environment ("print" :: words)).status ≠ 0) :
    ((runOn host files environment ("print" :: words)).output = "" ∧
        (runOn host files environment ("print" :: words)).files = files) ∨
      ∃ settings, Request.read ⟨files, environment⟩ ("print" :: words) =
          .ok (.run .print settings) ∧
        ((settings.isOn compile = true ∧
            (runOn host files environment ("print" :: words)).output = "" ∧
            (runOn host files environment ("print" :: words)).files =
              (prepared settings { files, environment, host }).files) ∨
          ∃ fullName layout c,
            layoutFor settings (prepared settings { files, environment, host }).files =
              .ok (fullName, layout) ∧
            Leftover settings fullName layout (prepared settings { files, environment, host }) c ∧
            (runOn host files environment ("print" :: words)).output = c.output ∧
            (runOn host files environment ("print" :: words)).files = c.files) := by
  revert hfailed
  unfold runOn
  cases hread : Request.read ⟨files, environment⟩ ("print" :: words) with
  | error refused =>
      -- A command line that is refused is answered on the stream of errors only.
      intro _
      simp only [Outcome.ofFault]
      split
      · exact Or.inl ⟨rfl, rfl⟩
      · exact Or.inl ⟨rfl, rfl⟩
  | ok request =>
      cases request with
      | help context =>
          -- The help is a single text, so there is none of it if it is refused.
          intro hfailed
          have hleaves : Leaves (fun _ c' => c' = { files, environment, host }) (fun _ => True)
              ((say context.help).run.run { files, environment, host }) := by
            rw [run_say]
            cases refusal? context.help { files, environment, host } with
            | some d => exact rfl
            | none => exact trivial
          rcases failed_ofSession host files environment _ hleaves hfailed with
            ⟨e, c, hc, houtput, hfiles⟩
          rw [hc] at houtput hfiles
          exact Or.inl ⟨houtput, hfiles⟩
      | run command settings =>
          cases command_of_print _ words command settings hread
          intro hfailed
          rcases failed_ofSession host files environment (printLayout settings)
            (leaves_printLayout settings _) hfailed with ⟨e, c, hend, houtput, hfiles⟩
          rcases hend with hc | ⟨fullName, layout, hlayout, hleft⟩
          · rw [hc] at houtput hfiles
            cases hcompile : settings.isOn compile with
            | true =>
                rw [output_prepared] at houtput
                exact Or.inr ⟨settings, rfl, Or.inl ⟨hcompile, houtput, hfiles⟩⟩
            | false =>
                rw [prepared_of_off settings hcompile] at houtput hfiles
                exact Or.inl ⟨houtput, hfiles⟩
          · exact Or.inr ⟨settings, rfl, Or.inr
              ⟨fullName, layout, c, hlayout, hleft, houtput, hfiles⟩⟩

/-- A build with one variable, beside another file. -/
def projectWith (label : String) (slot : Int) : FileTree :=
  let entry := Json.obj [("label", .str label), ("slot", .int slot), ("type", .str "t")]
  let layout := Json.obj [("storage", .arr [entry]), ("types", .obj [("t", .obj [])])]
  let contracts := Json.obj [("a.sol", .obj [("A", .obj [("storageLayout", layout)])])]
  let build := Json.obj [("contracts", contracts)]
  .folder [("build.json", .file (Artifacts.encodeText build.compact)),
    ("out.json", .file (Artifacts.encodeText "old"))]

/-- A build with a slot that has no word. -/
def negativeSlot : FileTree := projectWith "x" (-1)

/-- A host with an encoding of the first 256 characters only. -/
def narrowHost : Host where
  refusal? _ text := if text.toList.all (·.toNat < 256) then none else some .badContent

/-- The settings of a command that is to be run. -/
def Request.settings? : Request → Option Settings
  | .help _ => none
  | .run _ settings => some settings

/-- The words of a print of the contract in such a build, with an option more. -/
def printWords (option : List String) : List String :=
  "print" :: "A" :: "--build-info" :: "build.json" :: "--mode" :: "layout" :: option

theorem runOn_negativeSlot_hex :
    (runOn {} negativeSlot [] (printWords ["--hex"])).status = 1 ∧
      (runOn {} negativeSlot [] (printWords ["--hex"])).output = "layout of a.sol:A:\n" := by
  decide +kernel

/-- A print that can show the first line only. -/
theorem print_failed_hex :
    (runOn {} negativeSlot [] (printWords ["--hex"])).status ≠ 0 ∧
      ∃ settings fullName layout c, settings.isOn compile = false ∧
        layoutFor settings negativeSlot = .ok (fullName, layout) ∧
        Leftover settings fullName layout { files := negativeSlot } c ∧
        (runOn {} negativeSlot [] (printWords ["--hex"])).output = c.output ∧
        (runOn {} negativeSlot [] (printWords ["--hex"])).files = c.files := by
  rcases runOn_negativeSlot_hex with ⟨hstatus, houtput⟩
  have hfailed : (runOn {} negativeSlot [] (printWords ["--hex"])).status ≠ 0 := by
    rw [hstatus]
    exact Nat.one_ne_zero
  refine ⟨hfailed, ?_⟩
  rcases print_failed {} negativeSlot [] _ hfailed with ⟨hnothing, _⟩ | ⟨settings, hread, hend⟩
  · -- The first line is there.
    rw [printWords] at houtput
    rw [houtput] at hnothing
    exact absurd hnothing (by decide)
  · have hoff : ((Request.read ⟨negativeSlot, []⟩ (printWords ["--hex"])).toOption.bind
        Request.settings?).any (·.isOn compile) = false := by decide +kernel
    rw [printWords, hread] at hoff
    change settings.isOn compile = false at hoff
    rw [prepared_of_off settings hoff] at hend
    rcases hend with ⟨hon, _⟩ | ⟨fullName, layout, c, hlayout, hleft, hsaid, hfiles⟩
    · rw [hoff] at hon
      exact absurd hon Bool.false_ne_true
    · exact ⟨settings, fullName, layout, c, hoff, hlayout, hleft, hsaid, hfiles⟩

/-- A failed print can leave a line on the output, and it can leave a file empty that was not. If the
output does not take the name of a variable, then the file is there as if the print had succeeded. -/
theorem print_leaves :
    ((runOn {} negativeSlot [] (printWords ["--hex"])).status = 1 ∧
      (runOn {} negativeSlot [] (printWords ["--hex"])).output = "layout of a.sol:A:\n") ∧
    ((runOn {} negativeSlot [] (printWords ["--json", "out.json"])).status = 1 ∧
      (negativeSlot.read "out.json").toOption = some (Artifacts.encodeText "old") ∧
      ((runOn {} negativeSlot [] (printWords ["--json", "out.json"])).files.read
        "out.json").toOption = some []) ∧
    (runOn narrowHost (projectWith "名" 0) [] (printWords ["--json", "out.json"])).status = 1 ∧
      (runOn narrowHost (projectWith "名" 0) [] (printWords ["--json", "out.json"])).output =
        "layout of a.sol:A:\n" ∧
      ((runOn narrowHost (projectWith "名" 0) [] (printWords ["--json", "out.json"])).files.read
        "out.json").toOption ≠ some (Artifacts.encodeText "old") ∧
      (runOn {} (projectWith "名" 0) [] (printWords ["--json", "out.json"])).status = 0 ∧
      ((runOn narrowHost (projectWith "名" 0) [] (printWords ["--json", "out.json"])).files.read
        "out.json").toOption =
          ((runOn {} (projectWith "名" 0) [] (printWords ["--json", "out.json"])).files.read
            "out.json").toOption := by
  refine ⟨runOn_negativeSlot_hex, ?_⟩
  decide +kernel

end StorageLayout.CommandLine
