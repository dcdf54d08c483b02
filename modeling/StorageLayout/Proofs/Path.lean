import Mathlib.Data.List.TakeWhile
import Mathlib.Data.String.Basic
import Mathlib.Tactic.Common
import StorageLayout.Path

/-!
# Path Texts

What joining and tidying do to the components of a path.

A path is a text, but what it says is the list of its components that name something, and whether
it is absolute. Joining puts two such lists one after the other (`named_join`). Tidying goes through
the list with a stack, on which a `..` takes back the component before it, so a way down and as many
steps up again lead nowhere (`foldl_climb`). This is how a file that is described by its way from
another file gets the path that leads there from the top (`normalize_climb`). The tidied text has
exactly the components that are left on the stack (`named_normalize`), and it is not longer than the
path was, so that a limit for paths is kept (`utf8ByteSize_normalize_le`).

## Main definitions

* `named`: The components of a text that name something.
* `IsPlain`: A component that is the name of something.
* `kept`: The components that are left when a path has been tidied.
* `tidied`: The text that is made of them.
* `weight`: The length of a text, in terms of its components.

## Theorems

* `components_append`, `components_intercalate`: Splitting and joining texts.
* `mem_of_mem_components`, `mem_components_of_mem`: The characters of components.
* `named_join`, `named_climb`: The components of a joined path, and of a way that first goes up.
* `join_join`, `parent_join`: Joining in two steps, and taking the last step back.
* `foldl_climb`, `normalize_climb`: A way down and up again.
* `kept_sublist`, `named_normalize`: The components of a tidied path.
* `head?_normalize`, `getLast?_normalize`: A tidied path starts as before, and ends in a component.
* `mem_normalize`: The characters of a tidied path.
* `utf8ByteSize_normalize_le`: Tidying makes no path longer.
-/

namespace StorageLayout.Path

/-- The components of a text that name something. -/
def named (cs : List Char) : List (List Char) := (components cs).filter (· ≠ [])

/-- A component that is the name of something, in some folder. -/
structure IsPlain (c : List Char) : Prop where
  ne_nil : c ≠ []
  ne_dot : c ≠ ['.']
  ne_dots : c ≠ ['.', '.']
  not_mem : '/' ∉ c

instance (c : List Char) : Decidable (IsPlain c) :=
  decidable_of_iff (c ≠ [] ∧ c ≠ ['.'] ∧ c ≠ ['.', '.'] ∧ '/' ∉ c)
    ⟨fun h => ⟨h.1, h.2.1, h.2.2.1, h.2.2.2⟩,
      fun h => ⟨h.ne_nil, h.ne_dot, h.ne_dots, h.not_mem⟩⟩

/-- The components that are left when a path has been tidied. -/
def kept (cs : List Char) : List (List Char) :=
  ((named cs).foldl (addComponent (leadingSlashes cs ≠ [])) []).reverse

/-- A name with a long enough ending is plain. -/
theorem isPlain_append (name ending : String) (hname : '/' ∉ name.toList)
    (hending : '/' ∉ ending.toList) (hlength : 2 < ending.toList.length) :
    IsPlain (name ++ ending).toList := by
  have hlong : 2 < (name ++ ending).toList.length := by
    rw [String.toList_append, List.length_append]
    omega
  -- The names that are not plain for their own sake have two characters at most.
  have hshort : ∀ cs : List Char, cs.length ≤ 2 → (name ++ ending).toList ≠ cs := by
    intro cs hcs heq
    rw [heq] at hlong
    omega
  refine ⟨hshort _ (by decide), hshort _ (by decide), hshort _ (by decide), ?_⟩
  rw [String.toList_append, List.mem_append]
  exact fun h => h.elim hname hending

theorem IsPlain.ne_dots_text {name : String} (h : IsPlain name.toList) :
    name ≠ "." ∧ name ≠ ".." :=
  ⟨fun heq => h.ne_dot (congrArg String.toList heq),
    fun heq => h.ne_dots (congrArg String.toList heq)⟩

/-! ## Splitting -/

theorem components_ne_nil (cs : List Char) : components cs ≠ [] := by
  cases cs with
  | nil => exact List.cons_ne_nil _ _
  | cons c rest =>
      rw [components]
      split
      · exact List.cons_ne_nil _ _
      · split <;> exact List.cons_ne_nil _ _

/-- A slash separates the components before it from those after it. -/
theorem components_append (xs ys : List Char) :
    components (xs ++ '/' :: ys) = components xs ++ components ys := by
  induction xs with
  | nil => simp only [List.nil_append, components, if_true, List.singleton_append]
  | cons c rest ih =>
      by_cases hc : c = '/'
      · simp only [List.cons_append, components, if_pos hc, ih]
      · simp only [List.cons_append, components, if_neg hc, ih]
        cases hrest : components rest with
        | nil => exact absurd hrest (components_ne_nil rest)
        | cons first others => rfl

/-- A text without slashes is one component. -/
theorem components_of_not_mem (cs : List Char) (h : '/' ∉ cs) : components cs = [cs] := by
  induction cs with
  | nil => rfl
  | cons c rest ih =>
      have hc : c ≠ '/' := fun heq => h (heq ▸ List.mem_cons_self)
      have hrest := ih fun hmem => h (List.mem_cons_of_mem c hmem)
      simp only [components, if_neg hc, hrest]

/-- Components are made of the characters of the text that are no slashes. -/
theorem mem_of_mem_components (cs c : List Char) (x : Char) (h : c ∈ components cs) (hx : x ∈ c) :
    x ∈ cs ∧ x ≠ '/' := by
  induction cs generalizing c with
  | nil =>
      rw [List.mem_singleton.mp h] at hx
      exact absurd hx List.not_mem_nil
  | cons d rest ih =>
      have hrest : ∀ c ∈ components rest, x ∈ c → x ∈ d :: rest ∧ x ≠ '/' := fun c hc hx =>
        ⟨List.mem_cons_of_mem d (ih c hc hx).1, (ih c hc hx).2⟩
      by_cases hd : d = '/'
      · -- A slash begins a new component, which is empty so far.
        rw [components, if_pos hd] at h
        rcases List.mem_cons.mp h with heq | hmem
        · rw [heq] at hx
          exact absurd hx List.not_mem_nil
        · exact hrest c hmem hx
      · rw [components, if_neg hd] at h
        -- Any other character is put in front of the first component of the rest.
        cases hcomponents : components rest with
        | nil => exact absurd hcomponents (components_ne_nil rest)
        | cons first others =>
            rw [hcomponents] at h hrest
            rcases List.mem_cons.mp h with heq | hothers
            · rw [heq] at hx
              rcases List.mem_cons.mp hx with hhead | hfirst
              · rw [hhead]
                exact ⟨List.mem_cons_self, hd⟩
              · exact hrest first List.mem_cons_self hfirst
            · exact hrest c (List.mem_cons_of_mem _ hothers) hx

/-- A character that is no slash is in a component. -/
theorem mem_components_of_mem (cs : List Char) (x : Char) (h : x ∈ cs) (hx : x ≠ '/') :
    ∃ c ∈ components cs, x ∈ c := by
  induction cs with
  | nil => exact absurd h List.not_mem_nil
  | cons d rest ih =>
      by_cases hd : d = '/'
      · rcases List.mem_cons.mp h with heq | hrest
        · exact absurd (heq.trans hd) hx
        · rcases ih hrest with ⟨c, hc, hmem⟩
          rw [components, if_pos hd]
          exact ⟨c, List.mem_cons_of_mem _ hc, hmem⟩
      · rw [components, if_neg hd]
        -- Only the first component of the rest is changed.
        cases hcomponents : components rest with
        | nil => exact absurd hcomponents (components_ne_nil rest)
        | cons first others =>
            rcases List.mem_cons.mp h with heq | hrest
            · exact ⟨d :: first, List.mem_cons_self, List.mem_cons.mpr (Or.inl heq)⟩
            · rcases ih hrest with ⟨c, hc, hmem⟩
              rw [hcomponents] at hc
              rcases List.mem_cons.mp hc with heq | hothers
              · rw [heq] at hmem
                exact ⟨d :: first, List.mem_cons_self, List.mem_cons_of_mem d hmem⟩
              · exact ⟨c, List.mem_cons_of_mem _ hothers, hmem⟩

/-- Components that are joined by slashes are split again. -/
theorem components_intercalate (names : List (List Char)) (hne : names ≠ [])
    (h : ∀ c ∈ names, '/' ∉ c) : components (List.intercalate ['/'] names) = names := by
  induction names with
  | nil => exact absurd rfl hne
  | cons c rest ih =>
      cases rest with
      | nil =>
          rw [List.intercalate_singleton]
          exact components_of_not_mem c (h c List.mem_cons_self)
      -- Between two names there is one slash, and no other one.
      | cons d others =>
          have hrest := ih (List.cons_ne_nil _ _) fun e he => h e (List.mem_cons_of_mem c he)
          rw [List.intercalate_cons_cons, List.append_assoc, List.singleton_append,
            components_append, hrest, components_of_not_mem c (h c List.mem_cons_self)]
          rfl

theorem toList_slash (first second : String) :
    (first ++ "/" ++ second).toList = first.toList ++ '/' :: second.toList := by
  rw [String.toList_append, String.toList_append, List.append_assoc]
  rfl

theorem named_append (xs ys : List Char) : named (xs ++ '/' :: ys) = named xs ++ named ys := by
  rw [named, components_append, List.filter_append]
  rfl

theorem named_of_plain (c : List Char) (h : IsPlain c) : named c = [c] := by
  rw [named, components_of_not_mem c h.not_mem]
  simp [h.ne_nil]

/-- A slash at the end adds no component. -/
theorem named_concat_slash (xs ys : List Char) : named (xs ++ ['/'] ++ ys) = named (xs ++ ['/'])
    ++ named ys := by
  have hnil : named [] = [] := by decide
  rw [List.append_assoc, List.singleton_append, named_append, named_append, hnil, List.append_nil]

/-- Names that are joined by slashes are the components of the text. -/
theorem named_intercalate (names : List (List Char)) (h : ∀ c ∈ names, c ≠ [] ∧ '/' ∉ c) :
    named (List.intercalate ['/'] names) = names := by
  by_cases hne : names = []
  · rw [hne]
    decide
  · rw [named, components_intercalate names hne fun c hc => (h c hc).2, List.filter_eq_self]
    intro c hc
    exact decide_eq_true (h c hc).1

theorem mem_named (cs c : List Char) (h : c ∈ named cs) : c ≠ [] ∧ '/' ∉ c := by
  rw [named, List.mem_filter, decide_eq_true_eq] at h
  exact ⟨h.2, fun hslash => (mem_of_mem_components cs c '/' h.1 hslash).2 rfl⟩

/-- A text that does not end in a slash names something. -/
theorem named_ne_nil (cs : List Char) (hne : cs ≠ []) (hlast : cs.getLast? ≠ some '/') :
    named cs ≠ [] := by
  have hslash : cs.getLast hne ≠ '/' := fun heq =>
    hlast (by rw [List.getLast?_eq_some_getLast hne, heq])
  rcases mem_components_of_mem cs _ (List.getLast_mem hne) hslash with ⟨c, hc, hmem⟩
  have hnamed : c ∈ named cs := List.mem_filter.mpr ⟨hc, decide_eq_true (List.ne_nil_of_mem hmem)⟩
  exact List.ne_nil_of_mem hnamed

/-- The components of a way that first goes up. -/
theorem named_climb (steps : Nat) (path : String) :
    named (String.join (List.replicate steps "../") ++ path).toList
      = List.replicate steps ['.', '.'] ++ named path.toList := by
  induction steps with
  | zero => rfl
  | succ k ih =>
      -- Each step up is a component of its own.
      have htext : (String.join (List.replicate (k + 1) "../") ++ path).toList
          = ['.', '.'] ++ '/' :: (String.join (List.replicate k "../") ++ path).toList := by
        rw [List.replicate_succ, String.join_cons, String.append_assoc, String.toList_append]
        rfl
      have hdots : named ['.', '.'] = [['.', '.']] := by decide
      rw [htext, named_append, ih, hdots, List.replicate_succ]
      rfl

theorem head?_climb (steps : Nat) (path : String) (h : path.toList.head? ≠ some '/') :
    (String.join (List.replicate steps "../") ++ path).toList.head? ≠ some '/' := by
  cases steps with
  | zero => exact h
  | succ k =>
      rw [List.replicate_succ, String.join_cons, String.append_assoc, String.toList_append]
      exact (by decide : some '.' ≠ some '/')

/-! ## Joining -/

/-- What a relative path is put behind: the base, which may need a slash. -/
theorem toList_join (base path : String) (hrelative : path.toList.head? ≠ some '/') :
    ((base = "" ∨ base.toList.getLast? = some '/') ∧
        (join base path).toList = base.toList ++ path.toList) ∨
      (base ≠ "" ∧ base.toList.getLast? ≠ some '/' ∧
        (join base path).toList = base.toList ++ '/' :: path.toList) := by
  unfold join
  rw [if_neg hrelative]
  by_cases hbase : base = "" ∨ base.toList.getLast? = some '/'
  · rw [if_pos hbase, String.toList_append]
    exact Or.inl ⟨hbase, rfl⟩
  · rw [if_neg hbase, String.toList_append, String.toList_append, List.append_assoc]
    rw [not_or] at hbase
    exact Or.inr ⟨hbase.1, hbase.2, rfl⟩

/-- A joined path has the components of both paths. -/
theorem named_join (base path : String) (hrelative : path.toList.head? ≠ some '/') :
    named (join base path).toList = named base.toList ++ named path.toList := by
  rcases toList_join base path hrelative with ⟨hempty | hslash, htext⟩ | ⟨_, _, htext⟩
  · rw [htext, hempty]
    rfl
  · rcases List.getLast?_eq_some_iff.mp hslash with ⟨before, hbefore⟩
    rw [htext, hbefore]
    exact named_concat_slash before _
  · rw [htext, named_append]

/-- A relative path behind another one does not change how many slashes there are in front. -/
theorem leadingSlashes_join (base path : String) (hbase : base ≠ "")
    (hrelative : path.toList.head? ≠ some '/') :
    leadingSlashes (join base path).toList = leadingSlashes base.toList := by
  have hpath : path.toList.takeWhile (· = '/') = [] := by
    cases hcs : path.toList with
    | nil => rfl
    | cons c rest =>
        rw [hcs, List.head?_cons, ne_eq, Option.some.injEq] at hrelative
        rw [List.takeWhile_cons_of_neg (by simpa using hrelative)]
  have htake : (join base path).toList.takeWhile (· = '/') = base.toList.takeWhile (· = '/') := by
    rcases toList_join base path hrelative with ⟨_, htext⟩ | ⟨_, hlast, htext⟩
    · rw [htext, List.takeWhile_append, hpath, List.append_nil]
      split
      · rename_i hlength
        exact ((List.takeWhile_prefix _).eq_of_length hlength).symm
      · rfl
    · -- The base ends in another character, so its slashes do not reach to the end.
      rw [htext, List.takeWhile_append]
      split
      · rename_i hlength
        have hall := (List.takeWhile_prefix _).eq_of_length hlength
        have hne : base.toList ≠ [] := mt String.toList_eq_nil_iff.mp hbase
        have hmem : base.toList.getLast hne ∈ base.toList.takeWhile (· = '/') := by
          rw [hall]
          exact List.getLast_mem hne
        have hslash := List.mem_takeWhile_imp hmem
        rw [decide_eq_true_eq] at hslash
        rw [List.getLast?_eq_some_getLast hne, hslash] at hlast
        exact absurd rfl hlast
      · rfl
  rw [leadingSlashes, leadingSlashes, htake]

/-- A relative path behind another one does not change where that one starts. -/
theorem head?_join (base path : String) (hbase : base ≠ "")
    (hrelative : path.toList.head? ≠ some '/') :
    (join base path).toList.head? = base.toList.head? := by
  have hne : base.toList ≠ [] := mt String.toList_eq_nil_iff.mp hbase
  rcases toList_join base path hrelative with ⟨_, htext⟩ | ⟨_, _, htext⟩
  · rw [htext, List.head?_append_of_ne_nil _ hne]
  · rw [htext, List.head?_append_of_ne_nil _ hne]

theorem join_ne_empty (base path : String) (hbase : base ≠ "") : join base path ≠ "" := by
  unfold join
  split
  · -- A path from the root takes the place of the base, and begins with a slash.
    rename_i habsolute
    intro hempty
    rw [hempty] at habsolute
    exact absurd habsolute (by decide)
  · split
    · exact fun h => hbase (String.append_eq_empty_iff.mp h).1
    · intro h
      rw [String.append_eq_empty_iff, String.append_eq_empty_iff] at h
      exact hbase h.1.1

/-- A joined path ends as the second path does. -/
theorem getLast?_join (base path : String) (hpath : path ≠ "")
    (hrelative : path.toList.head? ≠ some '/') (hlast : path.toList.getLast? ≠ some '/') :
    (join base path).toList.getLast? ≠ some '/' := by
  have hne : path.toList ≠ [] := mt String.toList_eq_nil_iff.mp hpath
  rcases toList_join base path hrelative with ⟨_, htext⟩ | ⟨_, _, htext⟩
  · rw [htext, List.getLast?_append_of_ne_nil _ hne]
    exact hlast
  · rw [htext, List.getLast?_append_of_ne_nil _ (List.cons_ne_nil _ _),
      List.getLast?_cons_of_ne_nil hne]
    exact hlast

/-- A path is joined part by part, or at once. -/
theorem join_join (base middle path : String) (hmiddle : middle ≠ "")
    (hfirst : middle.toList.head? ≠ some '/') (hlast : middle.toList.getLast? ≠ some '/')
    (hrelative : path.toList.head? ≠ some '/') :
    join (join base middle) path = join base (middle ++ "/" ++ path) := by
  have hne : middle.toList ≠ [] := mt String.toList_eq_nil_iff.mp hmiddle
  have hwhole : (middle ++ "/" ++ path).toList.head? ≠ some '/' := by
    rw [String.append_assoc, String.toList_append, List.head?_append_of_ne_nil _ hne]
    exact hfirst
  have hend := getLast?_join base middle hmiddle hfirst hlast
  -- In both orders the base is only followed by a slash if it does not end in one.
  have hjoined : join base middle ≠ "" := by
    intro hempty
    rcases toList_join base middle hfirst with ⟨_, htext⟩ | ⟨_, _, htext⟩
    · rw [hempty] at htext
      exact hne (List.append_eq_nil_iff.mp htext.symm).2
    · rw [hempty] at htext
      exact List.cons_ne_nil _ _ (List.append_eq_nil_iff.mp htext.symm).2
  unfold join at hjoined hend ⊢
  rw [if_neg hrelative, if_neg hwhole, if_neg (not_or.mpr ⟨hjoined, hend⟩), if_neg hfirst]
  split
  · rw [String.append_assoc, String.append_assoc, String.append_assoc]
  · simp only [String.append_assoc]

/-- The folder of a file is the path that the file stands behind. -/
theorem parent_join (base path : String) (hbase : base ≠ "")
    (hlast : base.toList.getLast? ≠ some '/') (hpath : '/' ∉ path.toList) :
    parent (join base path) = base := by
  have hrelative : path.toList.head? ≠ some '/' := fun h => hpath (List.mem_of_mem_head? h)
  have htext : (join base path).toList = base.toList ++ '/' :: path.toList := by
    rcases toList_join base path hrelative with ⟨hempty | hslash, _⟩ | ⟨_, _, htext⟩
    · exact absurd hempty hbase
    · exact absurd hslash hlast
    · exact htext
  have hne : base.toList ≠ [] := mt String.toList_eq_nil_iff.mp hbase
  have hfile : ∀ c ∈ path.toList.reverse, decide (c ≠ '/') = true := by
    intro c hc
    rw [decide_eq_true_eq]
    intro hslash
    rw [hslash, List.mem_reverse] at hc
    exact hpath hc
  -- From the end, everything up to the slash before the file is taken away.
  have hhead : ((join base path).toList.reverse.dropWhile (· ≠ '/')).reverse
      = base.toList ++ ['/'] := by
    rw [htext, List.reverse_append, List.reverse_cons, List.append_assoc,
      List.dropWhile_append_of_pos hfile, List.singleton_append,
      List.dropWhile_cons_of_neg (by decide), List.reverse_cons, List.reverse_reverse]
  -- Then that slash goes too, and no other one, since the base does not end in a slash.
  have hdrop : dropFinalSlashes (base.toList ++ ['/']) = base.toList := by
    rw [dropFinalSlashes, List.reverse_append, List.reverse_singleton, List.singleton_append,
      List.dropWhile_cons_of_pos (by decide)]
    cases hreverse : base.toList.reverse with
    | nil => exact absurd (List.reverse_eq_nil_iff.mp hreverse) hne
    | cons last before =>
        have hbefore : last ≠ '/' := by
          intro hslash
          rw [← List.head?_reverse, hreverse, hslash] at hlast
          exact hlast rfl
        rw [List.dropWhile_cons_of_neg (by simpa using hbefore), ← hreverse,
          List.reverse_reverse]
  rw [parent, hhead, hdrop, if_neg hne, String.ofList_toList]

/-! ## Tidying -/

theorem addComponent_plain (absolute : Bool) (done : List (List Char)) (c : List Char)
    (h : IsPlain c) : addComponent absolute done c = c :: done := by
  simp only [addComponent, h.ne_nil, h.ne_dot, h.ne_dots, or_self, if_false]

/-- A component that names something is taken back by the next `..`. -/
theorem addComponent_dots (absolute : Bool) (done : List (List Char)) (c : List Char)
    (h : c ≠ ['.', '.']) : addComponent absolute (c :: done) ['.', '.'] = done := by
  simp [addComponent, h]

/-- Names go on the stack. -/
theorem foldl_plain (absolute : Bool) (done names : List (List Char))
    (h : ∀ c ∈ names, IsPlain c) :
    names.foldl (addComponent absolute) done = names.reverse ++ done := by
  induction names generalizing done with
  | nil => rfl
  | cons c rest ih =>
      rw [List.foldl_cons, addComponent_plain absolute done c (h c List.mem_cons_self),
        ih (c :: done) fun d hd => h d (List.mem_cons_of_mem c hd), List.reverse_cons,
        List.append_assoc, List.singleton_append]

/-- As many steps up as there are names on the stack take all of them back. -/
theorem foldl_dots (absolute : Bool) (done names : List (List Char))
    (h : ∀ c ∈ names, IsPlain c) :
    (List.replicate names.length ['.', '.']).foldl (addComponent absolute) (names ++ done)
      = done := by
  induction names with
  | nil => rfl
  | cons c rest ih =>
      rw [List.length_cons, List.replicate_succ, List.foldl_cons, List.cons_append,
        addComponent_dots absolute _ c (h c List.mem_cons_self).ne_dots]
      exact ih fun d hd => h d (List.mem_cons_of_mem c hd)

/-- A way down and as many steps up again lead nowhere. -/
theorem foldl_climb (absolute : Bool) (done names : List (List Char))
    (h : ∀ c ∈ names, IsPlain c) :
    (names ++ List.replicate names.length ['.', '.']).foldl (addComponent absolute) done
      = done := by
  -- The names lie on the stack in reverse, the last one on top.
  have hreverse : ∀ c ∈ names.reverse, IsPlain c := fun c hc => h c (List.mem_reverse.mp hc)
  rw [List.foldl_append, foldl_plain absolute done names h, ← List.length_reverse]
  exact foldl_dots absolute done names.reverse hreverse

/-- Empty components do not count. -/
theorem foldl_components (absolute : Bool) (done : List (List Char)) (cs : List Char) :
    (components cs).foldl (addComponent absolute) done
      = (named cs).foldl (addComponent absolute) done := by
  rw [named, List.foldl_filter]
  congr 1
  funext done c
  by_cases hc : c = []
  · simp [hc, addComponent]
  · simp [hc]

/-- The text of a tidied path. What remains of nothing is the current folder. -/
def tidied (slashes : List Char) (names : List (List Char)) : List Char :=
  let text := slashes ++ List.intercalate ['/'] names
  if text = [] then ['.'] else text

/-- A tidied path is made of the slashes in front and the components that are left. -/
theorem normalize_eq (path : String) :
    (normalize path).toList = tidied (leadingSlashes path.toList)
      (kept path.toList) := by
  rw [normalize, String.toList_ofList, foldl_components]
  rfl

/-- A way down into a folder and up again can be left out. -/
theorem normalize_climb (base way up target : String) (hbase : base ≠ "")
    (hway : way.toList.head? ≠ some '/') (hup : up.toList.head? ≠ some '/')
    (htarget : target.toList.head? ≠ some '/') (hplain : ∀ c ∈ named way.toList, IsPlain c)
    (hnames : named up.toList
      = List.replicate (named way.toList).length ['.', '.'] ++ named target.toList) :
    normalize (join (join base way) up) = normalize (join base target) := by
  apply String.toList_inj.mp
  have hslashes : leadingSlashes (join (join base way) up).toList
      = leadingSlashes (join base target).toList := by
    rw [leadingSlashes_join _ up (join_ne_empty base way hbase) hup,
      leadingSlashes_join base way hbase hway, leadingSlashes_join base target hbase htarget]
  have hkept : kept (join (join base way) up).toList = kept (join base target).toList := by
    -- Both go through the components of the base; the way down and up then leads nowhere.
    rw [kept, kept, hslashes, named_join _ up hup, named_join base way hway,
      named_join base target htarget, hnames, List.append_assoc,
      ← List.append_assoc (named way.toList), List.foldl_append, List.foldl_append,
      foldl_climb _ _ _ hplain, List.foldl_append]
  rw [normalize_eq, normalize_eq, hslashes, hkept]

/-! ## What a tidied path says -/

/-- The stack takes a component or leaves some out. -/
theorem addComponent_sublist (absolute : Bool) (done : List (List Char)) (c : List Char) :
    (addComponent absolute done c).reverse.Sublist (done.reverse ++ [c]) := by
  have hleft : done.reverse.Sublist (done.reverse ++ [c]) := List.sublist_append_left _ _
  have hpushed : (c :: done).reverse.Sublist (done.reverse ++ [c]) :=
    List.reverse_cons ▸ List.Sublist.refl _
  unfold addComponent
  split
  · exact hleft
  · split
    · -- A step up takes a component away, or is kept itself where there is none to be taken.
      cases done with
      | nil =>
          cases absolute with
          | true => exact hleft
          | false => exact hpushed
      | cons last before =>
          by_cases hlast : last = ['.', '.']
          · simp only [if_pos hlast]
            exact hpushed
          · simp only [if_neg hlast]
            exact (List.reverse_sublist.mpr (List.sublist_cons_self last before)).trans hleft
    · exact hpushed

theorem foldl_addComponent_sublist (absolute : Bool) (done names : List (List Char)) :
    (names.foldl (addComponent absolute) done).reverse.Sublist (done.reverse ++ names) := by
  induction names generalizing done with
  | nil =>
      rw [List.append_nil]
      exact List.Sublist.refl _
  | cons c rest ih =>
      have hstep := (addComponent_sublist absolute done c).append_right rest
      rw [List.append_assoc, List.singleton_append] at hstep
      exact (ih (addComponent absolute done c)).trans hstep

/-- What is left are components of the path, in their order. -/
theorem kept_sublist (cs : List Char) : (kept cs).Sublist (named cs) :=
  foldl_addComponent_sublist _ [] (named cs)

theorem mem_kept (cs c : List Char) (h : c ∈ kept cs) : c ≠ [] ∧ '/' ∉ c :=
  mem_named cs c ((kept_sublist cs).subset h)

theorem leadingSlashes_cases (cs : List Char) :
    (leadingSlashes cs = [] ∧ cs.head? ≠ some '/') ∨
      (cs.head? = some '/' ∧ (leadingSlashes cs = ['/'] ∨ leadingSlashes cs = ['/', '/'])) := by
  cases cs with
  | nil => exact Or.inl ⟨rfl, by decide⟩
  | cons c rest =>
      by_cases hc : c = '/'
      · refine Or.inr ⟨by rw [hc, List.head?_cons], ?_⟩
        -- Exactly two slashes are kept as they are, and any other number counts as one.
        rw [leadingSlashes, List.takeWhile_cons_of_pos (by simpa using hc), List.length_cons]
        split
        · exact absurd ‹_› (Nat.succ_ne_zero _)
        · exact Or.inr rfl
        · exact Or.inl rfl
      · refine Or.inl ⟨?_, by simpa using hc⟩
        rw [leadingSlashes, List.takeWhile_cons_of_neg (by simpa using hc)]
        rfl

/-- Slashes in front add no component. -/
theorem named_leadingSlashes (cs ys : List Char) : named (leadingSlashes cs ++ ys) = named ys := by
  have hslash : ∀ ys, named ('/' :: ys) = named ys := fun ys => named_append [] ys
  rcases leadingSlashes_cases cs with ⟨hnil, _⟩ | ⟨_, hone | htwo⟩
  · rw [hnil, List.nil_append]
  · rw [hone, List.singleton_append, hslash]
  · rw [htwo, List.cons_append, List.singleton_append, hslash, hslash]

/-- A text that ends in a component does not end in a slash. -/
theorem getLast?_intercalate (names : List (List Char)) (h : ∀ c ∈ names, c ≠ [] ∧ '/' ∉ c) :
    (List.intercalate ['/'] names).getLast? ≠ some '/' := by
  intro hlast
  rcases List.getLast?_eq_some_iff.mp hlast with ⟨before, hbefore⟩
  by_cases hne : names = []
  · rw [hne] at hbefore
    exact absurd hbefore.symm (List.append_ne_nil_of_right_ne_nil _ (List.cons_ne_nil _ _))
  · -- The text would have an empty component at its end.
    have hnames := components_intercalate names hne fun c hc => (h c hc).2
    rw [hbefore, components_append] at hnames
    have hempty : [] ∈ names := by
      rw [← hnames]
      exact List.mem_append_right _ (List.mem_singleton.mpr rfl)
    exact (h [] hempty).1 rfl

/-- The text of a tidied path in which something is left. -/
theorem toList_normalize (path : String) (hne : kept path.toList ≠ []) :
    (normalize path).toList
      = leadingSlashes path.toList ++ List.intercalate ['/'] (kept path.toList) := by
  rw [normalize_eq, tidied]
  refine if_neg fun hnil => hne ?_
  have hnames := named_intercalate _ (mem_kept path.toList)
  rw [(List.append_eq_nil_iff.mp hnil).2] at hnames
  rw [← hnames]
  decide

/-- The components of a tidied path are those that are left. -/
theorem named_normalize (path : String) (hne : kept path.toList ≠ []) :
    named (normalize path).toList = kept path.toList := by
  rw [toList_normalize path hne, named_leadingSlashes, named_intercalate _ (mem_kept _)]

/-- A tidied path ends in a component. -/
theorem getLast?_normalize (path : String) (hne : kept path.toList ≠ []) :
    (normalize path).toList.getLast? ≠ some '/' := by
  have hnames := named_intercalate _ (mem_kept path.toList)
  have htext : List.intercalate ['/'] (kept path.toList) ≠ [] := by
    intro hnil
    rw [hnil] at hnames
    exact hne hnames.symm
  rw [toList_normalize path hne, List.getLast?_append_of_ne_nil _ htext]
  exact getLast?_intercalate _ (mem_kept _)

theorem normalize_ne_empty (path : String) : normalize path ≠ "" := by
  intro hempty
  have htext := congrArg String.toList hempty
  rw [normalize_eq, tidied] at htext
  by_cases hnil : leadingSlashes path.toList ++ List.intercalate ['/'] (kept path.toList) = []
  · rw [if_pos hnil] at htext
    exact absurd htext (List.cons_ne_nil _ _)
  · rw [if_neg hnil] at htext
    exact hnil htext

/-- A tidied path in which nothing is left is the top or the current folder. -/
theorem toList_normalize_nil (path : String) (h : kept path.toList = []) :
    (normalize path).toList
      = if leadingSlashes path.toList = [] then ['.'] else leadingSlashes path.toList := by
  rw [normalize_eq, tidied, h]
  simp only [List.intercalate_nil, List.append_nil]

/-- A text of components does not begin with a slash. -/
theorem head?_intercalate (names : List (List Char)) (h : ∀ c ∈ names, c ≠ [] ∧ '/' ∉ c) :
    (List.intercalate ['/'] names).head? ≠ some '/' := by
  intro hhead
  rcases List.head?_eq_some_iff.mp hhead with ⟨after, hafter⟩
  by_cases hne : names = []
  · rw [hne] at hafter
    exact absurd hafter.symm (List.cons_ne_nil _ _)
  · -- The text would have an empty component in front.
    have hnames := components_intercalate names hne fun c hc => (h c hc).2
    rw [hafter, components, if_pos rfl] at hnames
    have hempty : [] ∈ names := by
      rw [← hnames]
      exact List.mem_cons_self
    exact (h [] hempty).1 rfl

/-- A tidied path starts where the path did. -/
theorem head?_normalize (path : String) :
    (normalize path).toList.head? = some '/' ↔ path.toList.head? = some '/' := by
  by_cases hkept : kept path.toList = []
  · rw [toList_normalize_nil path hkept]
    rcases leadingSlashes_cases path.toList with ⟨hnil, hhead⟩ | ⟨hhead, hone | htwo⟩
    · rw [if_pos hnil]
      exact ⟨fun h => absurd h (by decide), fun h => absurd h hhead⟩
    · simp [hone, hhead]
    · simp [htwo, hhead]
  · -- What is kept begins with a component, so only the slashes in front can come first.
    rw [toList_normalize path hkept]
    rcases leadingSlashes_cases path.toList with ⟨hnil, hhead⟩ | ⟨hhead, hone | htwo⟩
    · rw [hnil, List.nil_append]
      exact ⟨fun h => absurd h (head?_intercalate _ (mem_kept _)), fun h => absurd h hhead⟩
    · simp [hone, hhead]
    · simp [htwo, hhead]

theorem mem_intercalate (names : List (List Char)) (x : Char)
    (h : x ∈ List.intercalate ['/'] names) : x = '/' ∨ ∃ c ∈ names, x ∈ c := by
  induction names with
  | nil => exact absurd h List.not_mem_nil
  | cons c rest ih =>
      cases rest with
      | nil =>
          rw [List.intercalate_singleton] at h
          exact Or.inr ⟨c, List.mem_cons_self, h⟩
      | cons d others =>
          rw [List.intercalate_cons_cons, List.mem_append, List.mem_append,
            List.mem_singleton] at h
          -- The character is in the first name, is the slash after it, or comes later.
          rcases h with (hc | hslash) | hrest
          · exact Or.inr ⟨c, List.mem_cons_self, hc⟩
          · exact Or.inl hslash
          · rcases ih hrest with hslash | ⟨e, he, hx⟩
            · exact Or.inl hslash
            · exact Or.inr ⟨e, List.mem_cons_of_mem c he, hx⟩

/-- Tidying brings no characters in but slashes and dots. -/
theorem mem_normalize (path : String) (x : Char) (h : x ∈ (normalize path).toList) :
    x = '/' ∨ x = '.' ∨ x ∈ path.toList := by
  have hslashes : x ∈ leadingSlashes path.toList → x = '/' := by
    intro hx
    rcases leadingSlashes_cases path.toList with ⟨hnil, _⟩ | ⟨_, hone | htwo⟩
    · rw [hnil] at hx
      exact absurd hx List.not_mem_nil
    · rw [hone] at hx
      exact List.mem_singleton.mp hx
    · rw [htwo] at hx
      simpa using hx
  by_cases hkept : kept path.toList = []
  · rw [toList_normalize_nil path hkept] at h
    split at h
    · -- Nothing is left of the path but the dot for the folder itself.
      exact Or.inr (Or.inl (List.mem_singleton.mp h))
    · exact Or.inl (hslashes h)
  · rw [toList_normalize path hkept, List.mem_append] at h
    rcases h with hx | hx
    · exact Or.inl (hslashes hx)
    · rcases mem_intercalate _ x hx with hslash | ⟨c, hc, hmem⟩
      · exact Or.inl hslash
      · -- What is kept was a component of the path.
        have hcomponent := (List.mem_filter.mp ((kept_sublist path.toList).subset hc)).1
        exact Or.inr (Or.inr (mem_of_mem_components _ c x hcomponent hmem).1)

/-! ## The length of a tidied path -/

/-- The length of a text that has the given components, and of a slash behind it. -/
def weight : List (List Char) → Nat
  | [] => 0
  | c :: rest => String.utf8Len c + 1 + weight rest

theorem length_le_utf8Len (cs : List Char) : cs.length ≤ String.utf8Len cs := by
  induction cs with
  | nil => exact Nat.le_refl _
  | cons c rest ih =>
      have hpos := Char.utf8Size_pos c
      rw [List.length_cons, String.utf8Len_cons]
      omega

theorem utf8Len_slash (cs : List Char) : String.utf8Len ('/' :: cs) = String.utf8Len cs + 1 := rfl

theorem weight_components (cs : List Char) : weight (components cs) = String.utf8Len cs + 1 := by
  induction cs with
  | nil => rfl
  | cons c rest ih =>
      by_cases hc : c = '/'
      · rw [components, if_pos hc, hc, utf8Len_slash, ← ih]
        exact Nat.add_comm _ _
      · rw [components, if_neg hc]
        -- The character makes the first component longer by what it takes itself.
        cases hrest : components rest with
        | nil => exact absurd hrest (components_ne_nil rest)
        | cons first others =>
            rw [hrest] at ih
            simp only [weight, String.utf8Len_cons] at ih ⊢
            omega

theorem weight_intercalate (names : List (List Char)) (hne : names ≠ [])
    (h : ∀ c ∈ names, '/' ∉ c) :
    String.utf8Len (List.intercalate ['/'] names) + 1 = weight names := by
  rw [← weight_components, components_intercalate names hne h]

theorem weight_le_of_sublist (names others : List (List Char)) (h : names.Sublist others) :
    weight names ≤ weight others := by
  induction h with
  | slnil => exact Nat.le_refl _
  | cons c _ ih => exact ih.trans (Nat.le_add_left _ _)
  | cons_cons c _ ih => exact Nat.add_le_add_left ih _

/-- Every slash in front is a component that names nothing. -/
theorem weight_named_le (cs : List Char) :
    weight (named cs) + (cs.takeWhile (· = '/')).length ≤ String.utf8Len cs + 1 := by
  induction cs with
  | nil => decide
  | cons c rest ih =>
      by_cases hc : c = '/'
      · -- One more slash in front, one more byte, and no more components.
        have hnamed : named ('/' :: rest) = named rest := named_append [] rest
        rw [hc, hnamed, List.takeWhile_cons_of_pos (by decide), List.length_cons, utf8Len_slash]
        omega
      · rw [List.takeWhile_cons_of_neg (by simpa using hc), ← weight_components]
        exact weight_le_of_sublist _ _ List.filter_sublist

theorem utf8Len_leadingSlashes_le (cs : List Char) :
    String.utf8Len (leadingSlashes cs) ≤ (cs.takeWhile (· = '/')).length := by
  unfold leadingSlashes
  split
  · exact Nat.zero_le _
  · rename_i htwo
    rw [htwo]
    decide
  · rename_i hzero _
    exact Nat.one_le_iff_ne_zero.mpr hzero

/-- Tidying makes no path longer. -/
theorem utf8ByteSize_normalize_le (path : String) (hne : path ≠ "") :
    (normalize path).utf8ByteSize ≤ path.utf8ByteSize := by
  have hslashes := utf8Len_leadingSlashes_le path.toList
  have hnamed := weight_named_le path.toList
  rw [← String.utf8Len_toList, ← String.utf8Len_toList]
  by_cases hkept : kept path.toList = []
  · have hpos : 0 < String.utf8Len path.toList :=
      Nat.pos_of_ne_zero fun h => hne (String.toList_eq_nil_iff.mp (String.utf8Len_eq_zero.mp h))
    have hlength : (path.toList.takeWhile (· = '/')).length ≤ String.utf8Len path.toList :=
      (List.takeWhile_prefix _).length_le.trans (length_le_utf8Len _)
    rw [toList_normalize_nil path hkept]
    split
    · exact hpos
    · omega
  · -- The slashes in front were not counted among the components.
    have htext := weight_intercalate _ hkept fun c hc => (mem_kept _ c hc).2
    have hweight := weight_le_of_sublist _ _ (kept_sublist path.toList)
    rw [toList_normalize path hkept, String.utf8Len_append]
    omega

end StorageLayout.Path
