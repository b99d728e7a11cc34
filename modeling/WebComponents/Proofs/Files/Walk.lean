import Mathlib.Data.List.Basic
import WebComponents.Proofs.Files.Steps
import WebComponents.Proofs.Outcome

/-!
# Walks that arrive

`Leads` says of a walk that arrives which steps it takes, one constructor for each kind.  It is the
walk of the file tree that does not create (`walk_eq_found_iff`), and a walk to a file that is to be
created, if it arrives at something, arrives there as well (`leads_of_walk`).

The steps before the last ones lead to a directory, and where they lead is all that the last ones
depend on (`exists_leads_of_append`, `Leads.append`):

```text
a/link/b/f      a/link/b/.  leads to a directory,  f  leads on from there
```

Entries at free locations do not disturb a walk that arrives (`Leads.mono`).  If these entries are
files, they do not help it either, except to arrive at one of them (`leads_of_adds_files`).

What a program finds at a path is what its steps lead to (`spotOf_eq_found_iff`, `holds_iff`).
-/

namespace WebComponents.Files

/-! ## Trees with more entries -/

/-- A regular file. -/
def Entry.IsFile : Entry → Prop
  | .file _ => True
  | _ => False

/-- The later tree has all that is in the earlier one.  What is new are entries of the given kind,
at locations that were free. -/
structure FileTree.Adds (new : Entry → Prop) (tree later : FileTree) : Prop where
  workDir_eq : later.workDir = tree.workDir
  lookup_eq : ∀ location, later.lookup location = tree.lookup location ∨
    tree.lookup location = none ∧ ∃ entry, new entry ∧ later.lookup location = some entry

namespace FileTree

variable {new : Entry → Prop} {tree later : FileTree} {location : Location} {entry : Entry}

theorem Adds.refl (new : Entry → Prop) (tree : FileTree) : tree.Adds new tree where
  workDir_eq := rfl
  lookup_eq _ := Or.inl rfl

theorem Adds.lookup_of_some (h : tree.Adds new later) (hentry : tree.lookup location = some entry) :
    later.lookup location = some entry := by
  rcases h.lookup_eq location with heq | ⟨hnone, _⟩
  · rw [heq, hentry]
  · rw [hnone] at hentry
    cases hentry

theorem Adds.lookup_of_not_new (h : tree.Adds new later)
    (hentry : later.lookup location = some entry) (hnew : ¬ new entry) :
    tree.lookup location = some entry := by
  rcases h.lookup_eq location with heq | ⟨_, other, hother, hlookup⟩
  · rw [← heq, hentry]
  · rw [hlookup, Option.some_inj] at hentry
    exact absurd (hentry ▸ hother) hnew

theorem Adds.lookup_eq_none (h : tree.Adds new later) (hfree : later.lookup location = none) :
    tree.lookup location = none := by
  cases hentry : tree.lookup location with
  | none => rfl
  | some entry =>
      rw [h.lookup_of_some hentry] at hfree
      cases hfree

theorem Adds.trans {last : FileTree} (h : tree.Adds new later) (h' : later.Adds new last) :
    tree.Adds new last where
  workDir_eq := h'.workDir_eq.trans h.workDir_eq
  lookup_eq location := by
    rcases h'.lookup_eq location with heq | ⟨hnone, hnew⟩
    · rw [heq]
      exact h.lookup_eq location
    · rcases h.lookup_eq location with heq' | ⟨hnone', _⟩
      · exact Or.inr ⟨heq' ▸ hnone, hnew⟩
      · exact Or.inr ⟨hnone', hnew⟩

theorem Adds.startOf_eq (h : tree.Adds new later) (path : Path) :
    later.startOf path = tree.startOf path := by
  unfold startOf
  rw [h.workDir_eq]

/-- An entry may be put, also for the second time, at a location that was free. -/
theorem Adds.put (h : tree.Adds new later) (hfree : tree.lookup location = none)
    (hnew : new entry) :
    tree.Adds new (later.put location entry) where
  workDir_eq := h.workDir_eq
  lookup_eq other := by
    by_cases hroot : other = []
    · exact Or.inl (by simp [lookup, hroot])
    rw [lookup_put later location other entry hroot]
    by_cases hother : location = other
    · rw [if_pos hother]
      exact Or.inr ⟨hother ▸ hfree, entry, hnew, rfl⟩
    · rw [if_neg hother]
      exact h.lookup_eq other

/-! ## Walks that arrive -/

/-- The directory in which the target of a link is read. -/
def linkStart (here : Location) (target : String) : Location :=
  if target.toList.head? = some '/' then [] else here

/-- Steps that lead from one location to another, through at most so many links. -/
inductive Leads (tree : FileTree) : Nat → Location → List Step → Location → Prop
  | arrived {links here} : Leads tree links here [] here
  | stay {links here rest there} (h : Leads tree links here rest there) :
      Leads tree links here (.stay :: rest) there
  | slash {links here rest there} (h : Leads tree links here rest there) :
      Leads tree links here (.slash :: rest) there
  | up {links here rest there} (h : Leads tree links here.dropLast rest there) :
      Leads tree links here (.up :: rest) there
  | directory {links here name rest there} (hlength : name.utf8ByteSize ≤ maxNameLength)
      (hlookup : tree.lookup (here ++ [name]) = some .directory)
      (h : Leads tree links (here ++ [name]) rest there) :
      Leads tree links here (.name name :: rest) there
  | file {links here name content} (hlength : name.utf8ByteSize ≤ maxNameLength)
      (hlookup : tree.lookup (here ++ [name]) = some (.file content)) :
      Leads tree links here [.name name] (here ++ [name])
  | link {links here name target rest there} (hlength : name.utf8ByteSize ≤ maxNameLength)
      (hlookup : tree.lookup (here ++ [name]) = some (.link target))
      (h : Leads tree links (linkStart here target) (stepsOf target.toList ++ rest) there) :
      Leads tree (links + 1) here (.name name :: rest) there

variable {links : Nat} {here there : Location} {steps before after : List Step}

theorem leads_of_walk {creating : Bool}
    (h : tree.walk creating links here steps = .ok (.found there)) :
    tree.Leads links here steps there := by
  fun_induction walk tree creating links here steps with
  | case1 links here =>
      cases h
      exact .arrived
  | case2 links here rest ih => exact .stay (ih h)
  | case3 links here rest ih => exact .slash (ih h)
  | case4 links here rest ih => exact .up (ih h)
  | case9 links here name rest _ hlength hlookup ih =>
      exact .directory (Nat.not_lt.mp hlength) hlookup (ih h)
  | case10 links here name hlength content hlookup =>
      cases h
      exact .file (Nat.not_lt.mp hlength) hlookup
  | case13 here name rest _ hlength target hlookup left start ih =>
      exact .link (Nat.not_lt.mp hlength) hlookup (ih h)
  | _ => cases h

theorem Leads.walk_eq (h : tree.Leads links here steps there) :
    tree.walk false links here steps = .ok (.found there) := by
  induction h with
  | arrived => rw [walk]
  | stay _ ih => rw [walk, ih]
  | slash _ ih => rw [walk, ih]
  | up _ ih => rw [walk, ih]
  | directory hlength hlookup _ ih =>
      rw [walk, if_neg (by simp), if_neg (Nat.not_lt.mpr hlength), hlookup]
      exact ih
  | file hlength hlookup =>
      rw [walk, if_neg (by simp), if_neg (Nat.not_lt.mpr hlength), hlookup]
      rfl
  | link hlength hlookup _ ih =>
      rw [walk, if_neg (by simp), if_neg (Nat.not_lt.mpr hlength), hlookup]
      exact ih

theorem walk_eq_found_iff :
    tree.walk false links here steps = .ok (.found there) ↔ tree.Leads links here steps there :=
  ⟨leads_of_walk, Leads.walk_eq⟩

theorem Leads.unique {other : Location} (h : tree.Leads links here steps there)
    (h' : tree.Leads links here steps other) : there = other := by
  have heq := h.walk_eq.symm.trans h'.walk_eq
  cases heq
  rfl

theorem lookup_of_walk_eq_vacant {creating : Bool} {name : String}
    (h : tree.walk creating links here steps = .ok (.vacant there name)) :
    tree.lookup (there ++ [name]) = none := by
  fun_induction walk tree creating links here steps with
  | case2 _ _ _ ih => exact ih h
  | case3 _ _ _ ih => exact ih h
  | case4 _ _ _ ih => exact ih h
  | case7 links here name _ hlookup =>
      cases h
      exact hlookup
  | case9 _ _ _ _ _ _ _ ih => exact ih h
  | case13 _ _ _ _ _ _ _ _ _ ih => exact ih h
  | _ => cases h

/-! ## More entries -/

theorem Leads.mono (hadds : tree.Adds new later) (h : tree.Leads links here steps there) :
    later.Leads links here steps there := by
  induction h with
  | arrived => exact .arrived
  | stay _ ih => exact .stay ih
  | slash _ ih => exact .slash ih
  | up _ ih => exact .up ih
  | directory hlength hlookup _ ih => exact .directory hlength (hadds.lookup_of_some hlookup) ih
  | file hlength hlookup => exact .file hlength (hadds.lookup_of_some hlookup)
  | link hlength hlookup _ ih => exact .link hlength (hadds.lookup_of_some hlookup) ih

/-- New files make no new ways to what was there. -/
theorem leads_of_adds_files (hadds : tree.Adds Entry.IsFile later)
    (h : later.Leads links here steps there) (hthere : tree.lookup there ≠ none) :
    tree.Leads links here steps there := by
  induction h with
  | arrived => exact .arrived
  | stay _ ih => exact .stay (ih hthere)
  | slash _ ih => exact .slash (ih hthere)
  | up _ ih => exact .up (ih hthere)
  | directory hlength hlookup _ ih =>
      exact .directory hlength (hadds.lookup_of_not_new hlookup (fun hnew => hnew)) (ih hthere)
  | file hlength hlookup =>
      obtain ⟨entry, hentry⟩ := Option.ne_none_iff_exists'.mp hthere
      rw [hadds.lookup_of_some hentry] at hlookup
      exact .file hlength (hentry.trans hlookup)
  | link hlength hlookup _ ih =>
      exact .link hlength (hadds.lookup_of_not_new hlookup (fun hnew => hnew)) (ih hthere)

/-! ## The first steps and the last ones -/

/-- The first steps of a walk lead to a place from where the last ones lead on, and from where any
other steps would. -/
private theorem exists_between (h : tree.Leads links here (before ++ after) there)
    (hne : after ≠ []) :
    ∃ left mid, tree.Leads left mid after there ∧
      ∀ more last, tree.Leads left mid more last → tree.Leads links here (before ++ more) last := by
  generalize hsteps : before ++ after = steps at h
  induction h generalizing before with
  | arrived => exact absurd (List.append_eq_nil_iff.mp hsteps).2 hne
  | stay h ih =>
      obtain ⟨rfl, rfl⟩ | ⟨before, rfl, rfl⟩ := List.append_eq_cons_iff.mp hsteps
      · exact ⟨_, _, .stay h, fun _ _ hmore => hmore⟩
      · obtain ⟨left, mid, hafter, hon⟩ := ih rfl
        exact ⟨left, mid, hafter, fun more last hmore => .stay (hon more last hmore)⟩
  | slash h ih =>
      obtain ⟨rfl, rfl⟩ | ⟨before, rfl, rfl⟩ := List.append_eq_cons_iff.mp hsteps
      · exact ⟨_, _, .slash h, fun _ _ hmore => hmore⟩
      · obtain ⟨left, mid, hafter, hon⟩ := ih rfl
        exact ⟨left, mid, hafter, fun more last hmore => .slash (hon more last hmore)⟩
  | up h ih =>
      obtain ⟨rfl, rfl⟩ | ⟨before, rfl, rfl⟩ := List.append_eq_cons_iff.mp hsteps
      · exact ⟨_, _, .up h, fun _ _ hmore => hmore⟩
      · obtain ⟨left, mid, hafter, hon⟩ := ih rfl
        exact ⟨left, mid, hafter, fun more last hmore => .up (hon more last hmore)⟩
  | directory hlength hlookup h ih =>
      obtain ⟨rfl, rfl⟩ | ⟨before, rfl, rfl⟩ := List.append_eq_cons_iff.mp hsteps
      · exact ⟨_, _, .directory hlength hlookup h, fun _ _ hmore => hmore⟩
      · obtain ⟨left, mid, hafter, hon⟩ := ih rfl
        exact ⟨left, mid, hafter, fun more last hmore =>
          .directory hlength hlookup (hon more last hmore)⟩
  | @file links here name content hlength hlookup =>
      -- a file is the end of a walk, so the steps are all among the last ones
      obtain ⟨rfl, rfl⟩ | ⟨before, rfl, hnil⟩ := List.append_eq_cons_iff.mp hsteps
      · exact ⟨links, here, .file hlength hlookup, fun _ _ hmore => hmore⟩
      · exact absurd (List.append_eq_nil_iff.mp hnil.symm).2 hne
  | link hlength hlookup h ih =>
      obtain ⟨rfl, rfl⟩ | ⟨before, rfl, rfl⟩ := List.append_eq_cons_iff.mp hsteps
      · exact ⟨_, _, .link hlength hlookup h, fun _ _ hmore => hmore⟩
      · obtain ⟨left, mid, hafter, hon⟩ := ih (List.append_assoc _ _ _)
        refine ⟨left, mid, hafter, fun more last hmore => ?_⟩
        have hlast := hon more last hmore
        rw [List.append_assoc] at hlast
        exact .link hlength hlookup hlast

/-- The first steps of a walk lead to a directory, from where the last ones lead on. -/
theorem exists_leads_of_append (h : tree.Leads links here (before ++ after) there)
    (hne : after ≠ []) :
    ∃ left mid, tree.Leads links here (before ++ [.stay]) mid ∧
      tree.Leads left mid after there := by
  obtain ⟨left, mid, hafter, hon⟩ := exists_between h hne
  exact ⟨left, mid, hon _ _ (.stay .arrived), hafter⟩

/-- Steps that lead on from the directory lead there from the start. -/
theorem Leads.append {mid : Location} (h : tree.Leads links here (before ++ [.stay]) mid) :
    ∃ left, ∀ after there, tree.Leads left mid after there →
      tree.Leads links here (before ++ after) there := by
  obtain ⟨left, other, hstay, hon⟩ := exists_between h (List.cons_ne_nil _ _)
  cases hstay with
  | stay harrived =>
      cases harrived
      exact ⟨left, hon⟩

/-! ## Looking -/

variable {path : Path}

theorem checkPath_eq_ok (hne : path.text ≠ "") (hnul : '\x00' ∉ path.text.toList)
    (hlength : path.text.utf8ByteSize < maxPathLength) : checkPath path = .ok () := by
  rw [checkPath, if_neg hne, if_neg (by simpa [String.contains_char_eq] using hnul),
    if_neg (Nat.not_le.mpr hlength)]

/-- A path that is not taken is not a path that is missing. -/
theorem ne_notFound_of_checkPath {cause : SystemError} (hne : path.text ≠ "")
    (h : checkPath path = .error cause) : cause ≠ .notFound := by
  rintro rfl
  unfold checkPath at h
  rw [if_neg hne] at h
  split at h
  · cases h
  · split at h <;> cases h

theorem spotOf_eq_found_iff :
    tree.spotOf false path = .ok (.found location) ↔
      checkPath path = .ok () ∧
        tree.Leads maxLinks (tree.startOf path) (stepsOf path.text.toList) location := by
  constructor
  · intro h
    obtain ⟨_, hcheck, hwalk⟩ := bind_eq_ok_iff.mp h
    exact ⟨hcheck, walk_eq_found_iff.mp hwalk⟩
  · rintro ⟨hcheck, hleads⟩
    rw [spotOf, hcheck]
    exact walk_eq_found_iff.mpr hleads

theorem entryOf_eq_ok_iff :
    tree.entryOf path = .ok entry ↔
      ∃ location, tree.spotOf false path = .ok (.found location) ∧
        tree.lookup location = some entry := by
  constructor
  · intro h
    obtain ⟨spot, hspot, h⟩ := bind_eq_ok_iff.mp h
    cases spot with
    | vacant directory name => cases h
    | found location =>
        refine ⟨location, hspot, ?_⟩
        simp only at h
        split at h
        · cases h
        · rename_i hlookup
          cases h
          exact hlookup
  · rintro ⟨location, hspot, hlookup⟩
    rw [entryOf, hspot]
    simp only [Bind.bind, Except.bind, hlookup]

theorem holds_iff :
    tree.holds path = true ↔
      ∃ location entry, tree.spotOf false path = .ok (.found location) ∧
        tree.lookup location = some entry := by
  unfold holds
  cases hentry : tree.entryOf path with
  | ok entry =>
      obtain ⟨location, hfound⟩ := entryOf_eq_ok_iff.mp hentry
      exact ⟨fun _ => ⟨location, entry, hfound⟩, fun _ => rfl⟩
  | error _ =>
      refine ⟨nofun, ?_⟩
      rintro ⟨location, entry, hfound⟩
      rw [entryOf_eq_ok_iff.mpr ⟨location, hfound⟩] at hentry
      cases hentry

theorem isDirectory_iff :
    tree.isDirectory path = true ↔
      ∃ location, tree.spotOf false path = .ok (.found location) ∧
        tree.lookup location = some .directory := by
  rw [← entryOf_eq_ok_iff]
  unfold isDirectory
  constructor
  · intro h
    split at h
    · assumption
    · cases h
  · intro h
    rw [h]

end FileTree

end WebComponents.Files
