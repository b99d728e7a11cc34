import WebComponents.Proofs.Files.Batches
import WebComponents.Proofs.Files.Plain

/-!
# Making directories without others

When nobody else is at work, making the directory of a plain path, with those above it, succeeds
exactly if no barrier is on the way (`makes_createDirectories`).  What it adds are directories on
that way, and it adds them also if it fails.

A path is tried first and the directories above it only after that, so the induction is on the
ancestors, and what follows the directory above is a second attempt in a later tree.  Directories
are no barriers, so the later tree has the barriers of the first one (`Adds.barrier?_eq`).
-/

namespace WebComponents.Files

open FileTree

variable {tree made : FileTree} {path above : Path} {here front location : Location}
  {names : List String} {last : String} {error : SystemError}
  {run next : Except SystemError Unit × FileTree}

/-- Directories that were added are no barriers. -/
theorem FileTree.Adds.barrier?_eq (h : tree.Adds (· = .directory) made) (here : Location)
    (names : List String) : made.barrier? here names = tree.barrier? here names := by
  refine barrier?_congr fun front _ => ?_
  rcases h.lookup_eq (here ++ front) with heq | ⟨hfree, _, rfl, hnew⟩
  · exact Or.inl heq
  · exact Or.inr ⟨hfree, hnew⟩

/-- Among short names only a file is a barrier. -/
theorem barrier?_eq_none_iff (hhere : ∀ content, tree.lookup here ≠ some (.file content))
    (hshort : ∀ name ∈ names, IsShort name) :
    tree.barrier? here names = none ↔
      ∀ front, front <+: names → ∀ content, tree.lookup (here ++ front) ≠ some (.file content) := by
  induction names generalizing here with
  | nil => simpa [barrier?] using hhere
  | cons name names ih =>
      obtain ⟨hname, hnames⟩ := List.forall_mem_cons.mp hshort
      -- a file at the first name decides; otherwise the names after it do
      by_cases hfile : ∃ content, tree.lookup (here ++ [name]) = some (.file content)
      · obtain ⟨content, hfile⟩ := hfile
        rw [barrier?_of_file (Nat.not_lt.mpr hname) hfile]
        refine iff_of_false (by simp) fun hopen => ?_
        exact hopen [name] (by simp) content hfile
      · push Not at hfile
        rw [barrier?_of_open (Nat.not_lt.mpr hname) hfile, ih hfile hnames]
        constructor
        · intro hopen front hfront
          rcases List.prefix_cons_iff.mp hfront with rfl | ⟨rest, rfl, hrest⟩
          · rwa [List.append_nil]
          · rw [List.append_cons]
            exact hopen rest hrest
        · intro hopen rest hrest
          rw [← List.append_cons]
          exact hopen (name :: rest) ((List.prefix_cons_inj name).mpr hrest)

/-! ## Directories along names -/

/-- What comes of making directories along names, and the tree that it leaves. -/
structure Makes (tree : FileTree) (names : List String)
    (run : Except SystemError Unit × FileTree) : Prop where
  result_eq : run.1 = making tree names
  isGrounded : run.2.IsGrounded
  adds : tree.Adds (· = .directory) run.2
  /-- What is added is on the way. -/
  lookup_eq_or : ∀ location, run.2.lookup location = tree.lookup location ∨ location <+: names
  /-- After a success there is a directory. -/
  lookup_eq : run.1 = .ok () → run.2.lookup names = some .directory

theorem making_eq_ok_iff : making tree names = .ok () ↔ tree.barrier? [] names = none := by
  unfold making
  split
  · simp [*]
  · simp [*]

/-- At a barrier nothing is made. -/
theorem makes_of_barrier (hground : tree.IsGrounded) (h : tree.barrier? [] names = some error) :
    Makes tree names (.error error, tree) where
  result_eq := by rw [making, h]
  isGrounded := hground
  adds := Adds.refl _ tree
  lookup_eq_or _ := Or.inl rfl
  lookup_eq := nofun

theorem makes_of_directory (hground : tree.IsGrounded) (hopen : tree.barrier? [] names = none)
    (h : tree.lookup names = some .directory) : Makes tree names (.ok (), tree) where
  result_eq := (making_eq_ok_iff.mpr hopen).symm
  isGrounded := hground
  adds := Adds.refl _ tree
  lookup_eq_or _ := Or.inl rfl
  lookup_eq _ := h

theorem makes_of_put (hground : tree.IsGrounded)
    (hopen : tree.barrier? [] (front ++ [last]) = none)
    (habove : tree.lookup front = some .directory) (hfree : tree.lookup (front ++ [last]) = none) :
    Makes tree (front ++ [last]) (.ok (), tree.put (front ++ [last]) .directory) where
  result_eq := (making_eq_ok_iff.mpr hopen).symm
  isGrounded := hground.put habove (by simp [hfree]) (by simp)
  adds := (Adds.refl _ tree).put hfree rfl
  lookup_eq_or location := by
    rcases lookup_put_eq_or tree (front ++ [last]) location .directory with heq | ⟨rfl, _⟩
    · exact Or.inl heq
    · exact Or.inr List.prefix_rfl
  lookup_eq _ := by rw [lookup_put _ _ _ _ (by simp), if_pos rfl]

/-- First the directory above, and then one more. -/
theorem Makes.concat (h : Makes tree names run) (h' : Makes run.2 (names ++ [last]) next) :
    Makes tree (names ++ [last]) next where
  result_eq := by rw [h'.result_eq, making, making, h.adds.barrier?_eq]
  isGrounded := h'.isGrounded
  adds := h.adds.trans h'.adds
  lookup_eq_or location := by
    rcases h'.lookup_eq_or location with heq | hwithin
    · rw [heq]
      exact (h.lookup_eq_or location).imp_right fun hfront => hfront.trans (List.prefix_append _ _)
    · exact Or.inr hwithin
  lookup_eq := h'.lookup_eq

/-- Where the directory above cannot be made, the next one cannot. -/
theorem Makes.concat_of_error (h : Makes tree names (.error error, made))
    (hlonger : ∀ error, tree.barrier? [] names = some error →
      tree.barrier? [] (names ++ [last]) = some error) :
    Makes tree (names ++ [last]) (.error error, made) where
  result_eq := by
    have hmaking := h.result_eq
    unfold making at hmaking ⊢
    split at hmaking
    · cases hmaking
    · rename_i hbarrier
      rw [hlonger _ hbarrier]
      exact hmaking
  isGrounded := h.isGrounded
  adds := h.adds
  lookup_eq_or location :=
    (h.lookup_eq_or location).imp_right fun hfront => hfront.trans (List.prefix_append _ _)
  lookup_eq := nofun

/-! ## One attempt -/

theorem makes_of_makeDirectory (hground : tree.IsGrounded) (hplain : IsPlain path)
    (hcheck : checkPath path = .ok ()) (h : tree.makeDirectory path = .ok made) :
    Makes tree (locationOf path) (.ok (), made) := by
  rcases makeDirectory_cases hground hplain hcheck with
    ⟨_, _, hmake, _⟩ | ⟨_, _, _, _, hmake⟩ | ⟨hopen, front, last, hlocation, habove, hfree, hmake⟩ |
    ⟨_, _, _, _, _, hmake⟩
  · cases h.symm.trans hmake
  · cases h.symm.trans hmake
  · cases h.symm.trans hmake
    rw [hlocation] at hopen hfree ⊢
    exact makes_of_put hground hopen habove hfree
  · cases h.symm.trans hmake

/-- A directory that cannot be made may be there already. -/
theorem makes_of_look (hground : tree.IsGrounded) (hplain : IsPlain path)
    (hcheck : checkPath path = .ok ()) (h : tree.makeDirectory path = .error error)
    (hne : error ≠ .notFound) :
    Makes tree (locationOf path)
      (if tree.isDirectory path then .ok () else .error error, tree) := by
  have hlook := isDirectory_iff_lookup hground hplain hcheck
  rcases makeDirectory_cases hground hplain hcheck with
    ⟨other, _, hmake, hbarrier, _⟩ | ⟨hopen, hthere, _⟩ | ⟨_, _, _, _, _, _, hmake⟩ |
    ⟨_, _, _, _, _, hmake⟩
  · cases h.symm.trans hmake
    rw [if_neg (by simp [hlook, hbarrier])]
    exact makes_of_barrier hground hbarrier
  · rw [if_pos (hlook.mpr ⟨hthere, hopen⟩)]
    exact makes_of_directory hground hopen hthere
  · cases h.symm.trans hmake
  · cases h.symm.trans hmake
    exact absurd rfl hne

/-- Only below a directory that is missing nothing is found. -/
theorem concat_of_makeDirectory_notFound (hground : tree.IsGrounded) (hplain : IsPlain path)
    (hcheck : checkPath path = .ok ()) (h : tree.makeDirectory path = .error .notFound) :
    ∃ front last, locationOf path = front ++ [last] ∧ tree.lookup front = none ∧
      ∀ error, tree.barrier? [] front = some error →
        tree.barrier? [] (locationOf path) = some error := by
  rcases makeDirectory_cases hground hplain hcheck with
    ⟨_, hne, hmake, _⟩ | ⟨_, _, _, hne, hmake⟩ | ⟨_, _, _, _, _, _, hmake⟩ |
    ⟨front, last, hlocation, hfree, hlonger, _⟩
  · cases h.symm.trans hmake
    exact absurd rfl hne
  · cases h.symm.trans hmake
    exact absurd rfl hne
  · cases h.symm.trans hmake
  · exact ⟨front, last, hlocation, hfree, hlonger⟩

theorem ne_notFound_of_directory (hground : tree.IsGrounded) (hplain : IsPlain path)
    (hcheck : checkPath path = .ok ()) (hlocation : locationOf path = front ++ [last])
    (habove : tree.lookup front = some .directory) (h : tree.makeDirectory path = .error error) :
    error ≠ .notFound := by
  rintro rfl
  obtain ⟨front', last', hlocation', hfree, _⟩ :=
    concat_of_makeDirectory_notFound hground hplain hcheck h
  rw [hlocation] at hlocation'
  rw [← (List.append_inj' hlocation' rfl).1, habove] at hfree
  cases hfree

/-! ## All directories above -/

theorem makes_makeDirectories (hground : tree.IsGrounded) (hplain : IsPlain path)
    (hcheck : checkPath path = .ok ()) :
    Makes tree (locationOf path) (tree.makeDirectories path.ancestors) := by
  fun_induction Path.ancestors path with
  | case1 path hparent =>
      unfold makeDirectories
      split
      · exact makes_of_makeDirectory hground hplain hcheck (by assumption)
      · -- a root has nothing above it that could be missing
        rename_i hmake
        obtain ⟨front, last, hlocation, _⟩ :=
          concat_of_makeDirectory_notFound hground hplain hcheck hmake
        rw [hplain.locationOf_of_parent?_eq_none hparent] at hlocation
        simp at hlocation
      · rename_i hne hmake
        exact makes_of_look hground hplain hcheck hmake hne
  | case2 path above hparent hempty => exact absurd hempty (hplain.parent hparent).1
  | case3 path above hparent hempty ih =>
      obtain ⟨hne, habove, name, hname⟩ := hplain.parent hparent
      have hcheckAbove := checkPath_parent hparent hne hcheck
      have hfirst := ih habove hcheckAbove
      unfold makeDirectories
      split
      · exact makes_of_makeDirectory hground hplain hcheck (by assumption)
      · rename_i hmake
        obtain ⟨front, last, hlocation, hfree, hlonger⟩ :=
          concat_of_makeDirectory_notFound hground hplain hcheck hmake
        obtain rfl : front = locationOf above := by
          rw [hname] at hlocation
          exact (List.append_inj' hlocation rfl).1.symm
        -- the induction hypothesis is about the directories above, which are made next
        split
        · rename_i hrun
          rw [hrun] at hfirst
          rw [hname] at hlonger ⊢
          exact hfirst.concat_of_error hlonger
        · rename_i between hrun
          rw [hrun] at hfirst
          have hthere := hfirst.lookup_eq rfl
          split
          · rename_i final hfinal
            have hsecond := makes_of_makeDirectory hfirst.isGrounded hplain hcheck hfinal
            rw [hname] at hsecond ⊢
            exact hfirst.concat hsecond
          · -- the second attempt does not miss what has just been made
            rename_i error hfinal
            have hfound :=
              ne_notFound_of_directory hfirst.isGrounded hplain hcheck hname hthere hfinal
            have hsecond := makes_of_look hfirst.isGrounded hplain hcheck hfinal hfound
            rw [hname] at hsecond ⊢
            exact hfirst.concat hsecond
      · rename_i hne' hmake
        exact makes_of_look hground hplain hcheck hmake hne'

/-- **Making a directory.**  It comes to what the barriers on the way say. -/
theorem makes_createDirectories (hground : tree.IsGrounded) (hplain : IsPlain path)
    (hcheck : checkPath path = .ok ()) :
    Makes tree (locationOf path) (tree.createDirectories path) := by
  rw [createDirectories, if_neg hplain.ne_empty]
  exact makes_makeDirectories hground hplain hcheck

/-- Nothing is made for a path that the system does not take. -/
theorem createDirectories_of_checkPath (hne : path.text ≠ "") (h : checkPath path = .error error) :
    tree.createDirectories path = (.error error, tree) := by
  have hmissing := ne_notFound_of_checkPath hne h
  have hlook : tree.isDirectory path = false := (makeDirectory_of_checkPath h).2
  obtain ⟨above, habove⟩ := exists_ancestors_eq_cons path
  rw [createDirectories, if_neg hne, habove, makeDirectories, (makeDirectory_of_checkPath h).1]
  cases error with
  | notFound => exact absurd rfl hmissing
  | _ => simp only [hlook, Bool.false_eq_true, ↓reduceIte]

end WebComponents.Files
