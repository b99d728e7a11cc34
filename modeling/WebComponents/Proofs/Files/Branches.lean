import WebComponents.Proofs.Files.CreateOnce
import WebComponents.Proofs.Files.Linkless

/-!
# Walking along names

In a tree of directories and regular files an absolute path without `.` and `..` is a location, name
by name.  Whoever makes directories along it finds, at each name,

```text
a directory            and goes on
nothing                and from there on makes what is missing
a file                 and stops
a name too long        and stops, as soon as the directory before it is there
```

`barrier?` is what stops it, and depends on nothing but the files and the names.  The lemmas below
say what each operation does on such a path, by the barrier and by what is at a single location:
`makeDirectory_cases`, `isDirectory_iff_lookup`, `holds_congr` and `writeText_eq`.
-/

namespace WebComponents.Files.FileTree

open WebComponents.Path

variable {tree later : FileTree} {path above : Path} {here location free : Location} {links : Nat}
  {names : List String} {name : String} {entry : Entry} {steps rest : List Step}
  {creating : Bool} {error : SystemError}

/-! ## Trees of directories and regular files -/

/-- Every entry is in a directory, and none is a link. -/
structure IsGrounded (tree : FileTree) : Prop where
  lookup_above : ∀ location name entry, tree.lookup (location ++ [name]) = some entry →
    tree.lookup location = some .directory
  hasNoLinks : tree.HasNoLinks

theorem isGrounded_of_isClosed (hclosed : tree.IsClosed) (hlinks : tree.HasNoLinks) :
    tree.IsGrounded :=
  ⟨fun _ _ _ h => hclosed.lookup_above h, hlinks⟩

theorem IsGrounded.lookup_of_append (h : tree.IsGrounded) (hne : names ≠ [])
    (hentry : tree.lookup (here ++ names) = some entry) : tree.lookup here = some .directory := by
  induction names using List.reverseRecOn generalizing entry with
  | nil => exact absurd rfl hne
  | append_singleton names name ih =>
      rw [← List.append_assoc] at hentry
      have habove := h.lookup_above _ _ _ hentry
      by_cases hnames : names = []
      · rwa [hnames, List.append_nil] at habove
      · exact ih hnames habove

theorem IsGrounded.lookup_below (h : tree.IsGrounded) (hfree : tree.lookup here = none) :
    tree.lookup (here ++ names) = none := by
  by_cases hnames : names = []
  · rwa [hnames, List.append_nil]
  cases hentry : tree.lookup (here ++ names) with
  | none => rfl
  | some entry =>
      rw [h.lookup_of_append hnames hentry] at hfree
      cases hfree

theorem IsGrounded.isReached (h : tree.IsGrounded) (hhere : tree.lookup here = some .directory) :
    tree.IsReached here := by
  rintro above ⟨names, rfl⟩
  by_cases hnames : names = []
  · rwa [hnames, List.append_nil] at hhere
  · exact h.lookup_of_append hnames hhere

/-- An entry may be put into a directory where no directory is. -/
theorem IsGrounded.put (h : tree.IsGrounded) (hhere : tree.lookup here = some .directory)
    (hfree : tree.lookup (here ++ [name]) ≠ some .directory)
    (hentry : ∀ target, entry ≠ .link target) : (tree.put (here ++ [name]) entry).IsGrounded where
  lookup_above := by
    intro location last found hfound
    -- a directory is never covered by the new entry
    have hkept (hlocation : tree.lookup location = some .directory) :
        (tree.put (here ++ [name]) entry).lookup location = some .directory := by
      rcases lookup_put_eq_or tree (here ++ [name]) location entry with heq | ⟨rfl, _⟩
      · rw [heq, hlocation]
      · exact absurd hlocation hfree
    rcases lookup_put_eq_or tree (here ++ [name]) (location ++ [last]) entry with heq | ⟨heq, _⟩
    · exact hkept (h.lookup_above _ _ _ (heq ▸ hfound))
    · rw [(List.append_inj' heq rfl).1] at hhere
      exact hkept hhere
  hasNoLinks := by
    intro location target hlink
    rcases lookup_put_eq_or tree (here ++ [name]) location entry with heq | ⟨_, heq⟩
    · exact h.hasNoLinks location target (heq ▸ hlink)
    · exact hentry target (Option.some_inj.mp (heq.symm.trans hlink))

/-! ## Plain paths -/

/-- An absolute path without `.` and `..`. -/
structure IsPlain (path : Path) : Prop where
  isAbsolute : path.isAbsolute = true
  stay_notMem : .stay ∉ entrySteps path
  up_notMem : .up ∉ entrySteps path

theorem slash_notMem_entrySteps (path : Path) : .slash ∉ entrySteps path := by
  simp [entrySteps]

theorem foldl_stepFrom_names (here : Location) (names : List String) :
    (names.map Step.name).foldl stepFrom here = here ++ names := by
  induction names generalizing here with
  | nil => exact (List.append_nil here).symm
  | cons name names ih =>
      rw [List.map_cons, List.foldl_cons, ih, stepFrom, List.append_assoc, List.singleton_append]

theorem IsPlain.entrySteps_eq (h : IsPlain path) :
    entrySteps path = (locationOf path).map .name := by
  -- one step of the path at a time, so the steps are taken apart from the path
  have hnames (steps : List Step) (hsteps : ∀ step ∈ steps, step ∈ entrySteps path) :
      ∃ names : List String, steps = names.map .name := by
    induction steps with
    | nil => exact ⟨[], rfl⟩
    | cons step steps ih =>
        obtain ⟨hstep, hsteps⟩ := List.forall_mem_cons.mp hsteps
        obtain ⟨names, rfl⟩ := ih hsteps
        cases step with
        | stay => exact absurd hstep h.stay_notMem
        | up => exact absurd hstep h.up_notMem
        | slash => exact absurd hstep (slash_notMem_entrySteps path)
        | name name => exact ⟨name :: names, rfl⟩
  obtain ⟨names, hsteps⟩ := hnames (entrySteps path) fun _ => id
  rw [locationOf, hsteps, foldl_stepFrom_names, List.nil_append]

theorem IsPlain.locationOf_of_parent?_eq_none (h : IsPlain path) (hparent : path.parent? = none) :
    locationOf path = [] := by
  have hsteps : entrySteps path = [] :=
    List.eq_nil_iff_forall_not_mem.mpr fun step hstep =>
      h.stay_notMem (entrySteps_of_parent?_eq_none hparent step hstep ▸ hstep)
  rw [locationOf, hsteps]
  rfl

/-- The path leads from its parent to one more name. -/
theorem IsPlain.parent (h : IsPlain path) (hparent : path.parent? = some above) :
    above.text ≠ "" ∧ IsPlain above ∧ ∃ name, locationOf path = locationOf above ++ [name] := by
  have habsolute := isAbsolute_of_parent? h.isAbsolute hparent
  have hne := ne_empty_of_isAbsolute habsolute
  obtain ⟨between, last, after, hsteps, hbetween, hlast, hafter⟩ := entrySteps_parent hparent hne
  -- between the last name and the parent, and after the name, there could only be a `.`
  obtain rfl : between = [] := List.eq_nil_iff_forall_not_mem.mpr fun step hstep =>
    h.stay_notMem (by rw [hsteps]; simp [← hbetween step hstep, hstep])
  obtain rfl : after = [] := List.eq_nil_iff_forall_not_mem.mpr fun step hstep =>
    h.stay_notMem (by rw [hsteps]; simp [← hafter step hstep, hstep])
  rw [List.append_nil] at hsteps
  have hmem : last ∈ entrySteps path := by simp [hsteps]
  obtain ⟨name, rfl⟩ : ∃ name, last = .name name := by
    cases last with
    | stay => exact absurd rfl hlast
    | up => exact absurd hmem h.up_notMem
    | slash => exact absurd hmem (slash_notMem_entrySteps path)
    | name name => exact ⟨name, rfl⟩
  refine ⟨hne, ⟨habsolute, ?_, ?_⟩, name, ?_⟩
  · exact fun hstay => h.stay_notMem (by simp [hsteps, hstay])
  · exact fun hup => h.up_notMem (by simp [hsteps, hup])
  · rw [locationOf, hsteps, List.foldl_append]
    rfl

theorem filterMap_segmentOf?_names (names : List String) :
    (names.map Step.name).filterMap segmentOf? = names.map .name := by
  induction names with
  | nil => rfl
  | cons name names ih =>
      rw [List.map_cons, List.filterMap_cons, ih]
      rfl

theorem IsPlain.segments_eq (h : IsPlain path) :
    path.segments = .root :: (locationOf path).map .name := by
  rw [segments_of_isAbsolute h.isAbsolute, namesIn_eq_filterMap, h.entrySteps_eq,
    filterMap_segmentOf?_names]

/-! ## Barriers -/

/-- A name that is short enough for a directory. -/
def IsShort (name : String) : Prop :=
  name.utf8ByteSize ≤ maxNameLength

instance : DecidablePred IsShort := fun _ => inferInstanceAs (Decidable (_ ≤ _))

/-- What stops the making of directories along names: a name that is too long, or a file. -/
def barrier? (tree : FileTree) (here : Location) : List String → Option SystemError
  | [] => none
  | name :: names =>
    if maxNameLength < name.utf8ByteSize then some .nameTooLong
    else
      match tree.lookup (here ++ [name]) with
      | some (.file _) => some (if names = [] then .alreadyExists else .notADirectory)
      | _ => tree.barrier? (here ++ [name]) names

theorem barrier?_of_long (h : maxNameLength < name.utf8ByteSize) :
    tree.barrier? here (name :: names) = some .nameTooLong := by
  rw [barrier?, if_pos h]

theorem barrier?_of_file {content : ByteArray} (hshort : ¬ maxNameLength < name.utf8ByteSize)
    (h : tree.lookup (here ++ [name]) = some (.file content)) :
    tree.barrier? here (name :: names) =
      some (if names = [] then .alreadyExists else .notADirectory) := by
  rw [barrier?, if_neg hshort, h]

theorem barrier?_of_open (hshort : ¬ maxNameLength < name.utf8ByteSize)
    (h : ∀ content, tree.lookup (here ++ [name]) ≠ some (.file content)) :
    tree.barrier? here (name :: names) = tree.barrier? (here ++ [name]) names := by
  rw [barrier?, if_neg hshort]
  split
  · rename_i content hfile
    exact absurd hfile (h content)
  · rfl

theorem isShort_of_barrier?_eq_none (h : tree.barrier? here names = none) :
    ∀ name ∈ names, IsShort name := by
  induction names generalizing here with
  | nil => simp
  | cons name names ih =>
      unfold barrier? at h
      split at h
      · cases h
      · rename_i hlength
        split at h
        · cases h
        · exact List.forall_mem_cons.mpr ⟨Nat.not_lt.mp hlength, ih h⟩

/-- Along directories there is no barrier but a name that is too long. -/
theorem barrier?_append_of_directory (hground : tree.IsGrounded)
    (h : tree.lookup (here ++ names) = some .directory) (hshort : ∀ name ∈ names, IsShort name)
    (more : List String) :
    tree.barrier? here (names ++ more) = tree.barrier? (here ++ names) more := by
  induction names generalizing here with
  | nil => rw [List.append_nil]; rfl
  | cons name names ih =>
      obtain ⟨hname, hnames⟩ := List.forall_mem_cons.mp hshort
      rw [List.append_cons] at h ⊢
      have hdirectory := hground.isReached h (here ++ [name]) (List.prefix_append _ _)
      rw [List.cons_append, barrier?_of_open (Nat.not_lt.mpr hname) (by simp [hdirectory])]
      exact ih h hnames

theorem barrier?_eq_none_of_directory (hground : tree.IsGrounded)
    (h : tree.lookup (here ++ names) = some .directory) (hshort : ∀ name ∈ names, IsShort name) :
    tree.barrier? here names = none := by
  have hall := barrier?_append_of_directory hground h hshort []
  rwa [List.append_nil] at hall

/-- Below a free location only a name can be a barrier, and then it is one for longer ways, too. -/
theorem barrier?_append_of_free (hground : tree.IsGrounded) (hfree : tree.lookup here = none)
    (h : tree.barrier? here names = some error) :
    tree.barrier? here (names ++ more) = some error := by
  induction names generalizing here with
  | nil => cases h
  | cons name names ih =>
      have hname : tree.lookup (here ++ [name]) = none := hground.lookup_below hfree
      rw [List.cons_append]
      by_cases hshort : maxNameLength < name.utf8ByteSize
      · rw [barrier?_of_long hshort] at h ⊢
        exact h
      · rw [barrier?_of_open hshort (by simp [hname])] at h ⊢
        exact ih hname h

/-- Trees that differ in directories alone have the same barriers. -/
theorem barrier?_congr
    (h : ∀ front, front <+: names → later.lookup (here ++ front) = tree.lookup (here ++ front) ∨
      tree.lookup (here ++ front) = none ∧ later.lookup (here ++ front) = some .directory) :
    later.barrier? here names = tree.barrier? here names := by
  induction names generalizing here with
  | nil => rfl
  | cons name names ih =>
      have hrest :
          later.barrier? (here ++ [name]) names = tree.barrier? (here ++ [name]) names := by
        refine ih fun front hfront => ?_
        rw [← List.append_cons]
        exact h (name :: front) ((List.prefix_cons_inj name).mpr hfront)
      by_cases hshort : maxNameLength < name.utf8ByteSize
      · rw [barrier?_of_long hshort, barrier?_of_long hshort]
      · rw [barrier?, barrier?, if_neg hshort, if_neg hshort, hrest]
        -- a directory in a free place is no more of a barrier than the free place
        rcases h [name] (by simp) with heq | ⟨hfree, hnew⟩
        · rw [heq]
        · rw [hfree, hnew]

/-- As far as no barrier comes, there are directories. -/
def IsPaved (tree : FileTree) (here : Location) (names : List String) : Prop :=
  ∀ front, front <+: names → tree.barrier? here front = none →
    tree.lookup (here ++ front) = some .directory

theorem isPaved_of_directory (hground : tree.IsGrounded)
    (h : tree.lookup (here ++ names) = some .directory) : tree.IsPaved here names := by
  rintro front ⟨rest, rfl⟩ _
  rw [← List.append_assoc] at h
  exact hground.isReached h _ (List.prefix_append _ _)

/-- At a barrier the pavement ends. -/
theorem isPaved_of_barrier (hhere : tree.lookup here = some .directory)
    (h : ∀ names, tree.barrier? here (name :: names) ≠ none) :
    tree.IsPaved here (name :: names) := by
  intro front hfront hnone
  rcases List.prefix_cons_iff.mp hfront with rfl | ⟨rest, rfl, _⟩
  · rwa [List.append_nil]
  · exact absurd hnone (h rest)

theorem IsPaved.cons (h : tree.IsPaved (here ++ [name]) names)
    (hhere : tree.lookup here = some .directory) (hshort : ¬ maxNameLength < name.utf8ByteSize)
    (hname : tree.lookup (here ++ [name]) = some .directory) :
    tree.IsPaved here (name :: names) := by
  intro front hfront hnone
  rcases List.prefix_cons_iff.mp hfront with rfl | ⟨rest, rfl, hrest⟩
  · rwa [List.append_nil]
  · rw [barrier?_of_open hshort (by simp [hname])] at hnone
    rw [List.append_cons]
    exact h rest hrest hnone

/-- A barrier at the last name leaves the way to it paved. -/
theorem IsPaved.concat_of_barrier (h : tree.IsPaved here names)
    (hbarrier : tree.barrier? here (names ++ [name]) ≠ none) :
    tree.IsPaved here (names ++ [name]) := by
  intro front hfront hnone
  rcases List.prefix_concat_iff.mp hfront with rfl | hfront
  · exact absurd hnone hbarrier
  · exact h front hfront hnone

/-! ## Walks along names -/

/-- A walk along directories. -/
theorem walk_names_append (hground : tree.IsGrounded)
    (h : tree.lookup (here ++ names) = some .directory) (hshort : ∀ name ∈ names, IsShort name)
    (hslash : rest ≠ [.slash]) :
    tree.walk creating links here (names.map .name ++ rest) =
      tree.walk creating links (here ++ names) rest := by
  induction names generalizing here with
  | nil => rw [List.append_nil]; rfl
  | cons name names ih =>
      obtain ⟨hname, hnames⟩ := List.forall_mem_cons.mp hshort
      rw [List.append_cons] at h ⊢
      have hdirectory := hground.isReached h (here ++ [name]) (List.prefix_append _ _)
      have hmore : names.map Step.name ++ rest ≠ [.slash] := by
        cases names with
        | nil => exact hslash
        | cons next names => simp
      rw [List.map_cons, List.cons_append, walk, if_neg (fun heq => hmore heq.2),
        if_neg (Nat.not_lt.mpr hname), hdirectory]
      exact ih h hnames

/-- A walk to the directory of names arrives, misses a directory, or comes to a barrier. -/
theorem walk_names_cases (links : Nat) (hground : tree.IsGrounded)
    (hhere : tree.lookup here = some .directory) (names : List String) :
    (tree.lookup (here ++ names) = some .directory ∧ tree.barrier? here names = none ∧
      tree.walk false links here (names.map .name ++ [.stay]) = .ok (.found (here ++ names))) ∨
    (tree.lookup (here ++ names) = none ∧
      (∀ error more, tree.barrier? here names = some error →
        tree.barrier? here (names ++ more) = some error) ∧
      tree.walk false links here (names.map .name ++ [.stay]) = .error .notFound) ∨
    ∃ error, error ≠ .notFound ∧ tree.IsPaved here names ∧
      (∀ name, tree.barrier? here (names ++ [name]) = some error) ∧
      tree.walk false links here (names.map .name ++ [.stay]) = .error error := by
  -- the walk stands in a directory, and goes on only if the next name leads to one
  induction names generalizing here with
  | nil =>
      refine Or.inl ⟨by rwa [List.append_nil], rfl, ?_⟩
      rw [List.append_nil, List.map_nil, List.nil_append, walk, walk]
  | cons name names ih =>
      have hrest : names.map Step.name ++ [.stay] ≠ [] := by simp
      rw [List.map_cons, List.cons_append, walk, if_neg (by simp)]
      by_cases hshort : maxNameLength < name.utf8ByteSize
      · refine Or.inr (Or.inr ⟨.nameTooLong, by decide, ?_, fun _ => barrier?_of_long hshort, ?_⟩)
        · exact isPaved_of_barrier hhere fun names => by simp [barrier?_of_long hshort]
        · rw [if_pos hshort]
      rw [if_neg hshort]
      cases hlookup : tree.lookup (here ++ [name]) with
      | none =>
          -- what stops the walk is missing here, and what could stop it further on is a name
          refine Or.inr (Or.inl ⟨?_, fun error more herror => ?_, if_neg hrest⟩)
          · rw [List.append_cons]
            exact hground.lookup_below hlookup
          · rw [List.cons_append, barrier?_of_open hshort (by simp [hlookup])]
            rw [barrier?_of_open hshort (by simp [hlookup])] at herror
            exact barrier?_append_of_free hground hlookup herror
      | some entry =>
          cases entry with
          | link target => exact absurd hlookup (hground.hasNoLinks _ _)
          | file content =>
              -- a file is a barrier whatever follows it
              have hbarrier (more : List String) :
                  tree.barrier? here (name :: more) ≠ none := by
                rw [barrier?_of_file hshort hlookup]
                exact Option.some_ne_none _
              refine Or.inr (Or.inr ⟨.notADirectory, by decide, isPaved_of_barrier hhere hbarrier,
                fun last => ?_, if_neg hrest⟩)
              rw [List.cons_append, barrier?_of_file hshort hlookup]
              simp
          | directory =>
              have hopen (names : List String) : tree.barrier? here (name :: names) =
                  tree.barrier? (here ++ [name]) names :=
                barrier?_of_open hshort (by simp [hlookup])
              simp only [List.cons_append, hopen]
              rw [List.append_cons]
              rcases ih hlookup with harrives | hmisses | ⟨error, hne, hpaved, hbarrier, hwalk⟩
              · exact Or.inl harrives
              · exact Or.inr (Or.inl hmisses)
              · exact Or.inr (Or.inr
                  ⟨error, hne, hpaved.cons hhere hshort hlookup, hbarrier, hwalk⟩)

/-! ## Operations on plain paths -/

/-- Making a directory that is not the root looks for the one above it. -/
theorem makeDirectory_of_concat (tree : FileTree) {front : List String} {last : String}
    (hplain : IsPlain path) (hcheck : checkPath path = .ok ())
    (hlocation : locationOf path = front ++ [last]) :
    tree.makeDirectory path =
      (do match ← tree.walk false maxLinks [] (front.map .name ++ [.stay]) with
        | .vacant _ _ => .error .notFound
        | .found directory =>
          if maxNameLength < last.utf8ByteSize then .error .nameTooLong
          else if (tree.lookup (directory ++ [last])).isSome then .error .alreadyExists
          else .ok (tree.put (directory ++ [last]) .directory)) := by
  have hsteps : entrySteps path = front.map .name ++ [.name last] := by
    rw [hplain.entrySteps_eq, hlocation, List.map_append]
    rfl
  rw [makeDirectory, create, hcheck, hsteps, startOf_of_isAbsolute hplain.isAbsolute,
    List.getLast?_concat, List.dropLast_concat]
  rfl

/-- Making the directory of a plain path meets a barrier, finds it there, makes it, or misses the
directory above. -/
theorem makeDirectory_cases (hground : tree.IsGrounded) (hplain : IsPlain path)
    (hcheck : checkPath path = .ok ()) :
    (∃ error, error ≠ .notFound ∧ tree.makeDirectory path = .error error ∧
      tree.barrier? [] (locationOf path) = some error ∧ tree.IsPaved [] (locationOf path)) ∨
    (tree.barrier? [] (locationOf path) = none ∧
      tree.lookup (locationOf path) = some .directory ∧
      ∃ error, error ≠ .notFound ∧ tree.makeDirectory path = .error error) ∨
    (tree.barrier? [] (locationOf path) = none ∧
      ∃ front last, locationOf path = front ++ [last] ∧ tree.lookup front = some .directory ∧
        tree.lookup (locationOf path) = none ∧
        tree.makeDirectory path = .ok (tree.put (locationOf path) .directory)) ∨
    ∃ front last, locationOf path = front ++ [last] ∧ tree.lookup front = none ∧
      (∀ error, tree.barrier? [] front = some error →
        tree.barrier? [] (locationOf path) = some error) ∧
      tree.makeDirectory path = .error .notFound := by
  have hroot : tree.lookup [] = some .directory := rfl
  have hstart : tree.startOf path = [] := startOf_of_isAbsolute hplain.isAbsolute
  rcases List.eq_nil_or_concat (locationOf path) with hnil | ⟨front, last, hlocation⟩
  -- the root is there, and is not made
  · have hsteps : entrySteps path = [] := by rw [hplain.entrySteps_eq, hnil]; rfl
    refine Or.inr (Or.inl ⟨by rw [hnil]; rfl, by rw [hnil]; rfl, .alreadyExists, by decide, ?_⟩)
    rw [makeDirectory, create, hcheck, hsteps, hstart]
    simp only [Bind.bind, Except.bind, List.getLast?_nil]
    rw [walk]
  rw [List.concat_eq_append] at hlocation
  have hmake := makeDirectory_of_concat tree hplain hcheck hlocation
  rw [hlocation]
  rcases walk_names_cases maxLinks hground hroot front with
    ⟨hdirectory, hbarrier, hwalk⟩ | ⟨hfree, hbarrier, hwalk⟩ | ⟨error, hne, hpaved, hbarrier, hwalk⟩
  -- the directory above is there, so the last name decides
  · rw [hwalk] at hmake
    change _ = (if _ then _ else _) at hmake
    have hlast := barrier?_append_of_directory hground hdirectory
      (isShort_of_barrier?_eq_none hbarrier) [last]
    have hpaved := isPaved_of_directory hground hdirectory
    rw [List.nil_append] at hdirectory hmake hlast
    by_cases hshort : maxNameLength < last.utf8ByteSize
    · rw [if_pos hshort] at hmake
      rw [barrier?_of_long hshort] at hlast
      exact Or.inl ⟨.nameTooLong, by decide, hmake, hlast,
        hpaved.concat_of_barrier (by simp [hlast])⟩
    rw [if_neg hshort] at hmake
    cases hlookup : tree.lookup (front ++ [last]) with
    | none =>
        rw [hlookup] at hmake
        rw [barrier?_of_open hshort (by simp [hlookup])] at hlast
        exact Or.inr (Or.inr (Or.inl ⟨hlast, front, last, rfl, hdirectory, rfl, hmake⟩))
    | some entry =>
        rw [hlookup] at hmake
        cases entry with
        | link target => exact absurd hlookup (hground.hasNoLinks _ _)
        | file content =>
            rw [barrier?_of_file hshort hlookup] at hlast
            exact Or.inl ⟨.alreadyExists, by decide, hmake, hlast,
              hpaved.concat_of_barrier (by simp [hlast])⟩
        | directory =>
            rw [barrier?_of_open hshort (by simp [hlookup])] at hlast
            exact Or.inr (Or.inl ⟨hlast, rfl, .alreadyExists, by decide, hmake⟩)
  -- the directory above is missing
  · rw [hwalk] at hmake
    exact Or.inr (Or.inr (Or.inr
      ⟨front, last, rfl, hfree, fun error => hbarrier error [last], hmake⟩))
  -- a barrier before the last name is one for the whole path
  · rw [hwalk] at hmake
    exact Or.inl ⟨error, hne, hmake, hbarrier last,
      hpaved.concat_of_barrier (by simp [hbarrier last])⟩

/-- Names lead to what is at their location. -/
theorem leads_of_lookup (hground : tree.IsGrounded) (hshort : ∀ name ∈ names, IsShort name)
    (h : tree.lookup (here ++ names) = some entry) :
    tree.Leads links here (names.map .name) (here ++ names) := by
  induction names generalizing here with
  | nil =>
      rw [List.append_nil]
      exact .arrived
  | cons name names ih =>
      obtain ⟨hname, hnames⟩ := List.forall_mem_cons.mp hshort
      rw [List.append_cons] at h ⊢
      by_cases hlast : names = []
      · subst hlast
        rw [List.append_nil] at h ⊢
        cases entry with
        | link target => exact absurd h (hground.hasNoLinks _ _)
        | file content => exact .file hname h
        | directory => exact .directory hname h .arrived
      · exact .directory hname (hground.lookup_of_append hlast h) (ih hnames h)

/-- A walk that arrives has no name that is too long. -/
theorem Leads.isShort {there : Location} (h : tree.Leads links here steps there) :
    ∀ name, .name name ∈ steps → IsShort name := by
  induction h with
  | arrived => simp
  | stay _ ih => simpa using ih
  | slash _ ih => simpa using ih
  | up _ ih => simpa using ih
  | directory hlength _ _ ih =>
      intro other hother
      rcases List.mem_cons.mp hother with heq | hmem
      · cases heq
        exact hlength
      · exact ih other hmem
  | file hlength _ =>
      intro other hother
      cases List.mem_singleton.mp hother
      exact hlength
  | link hlength _ _ ih =>
      intro other hother
      rcases List.mem_cons.mp hother with heq | hmem
      · cases heq
        exact hlength
      · exact ih other (List.mem_append_right _ hmem)

theorem isShort_of_spotOf (hplain : IsPlain path)
    (h : tree.spotOf false path = .ok (.found location)) :
    ∀ name ∈ locationOf path, IsShort name := by
  intro name hname
  refine (spotOf_eq_found_iff.mp h).2.isShort name ?_
  have hmem : .name name ∈ entrySteps path := by
    rw [hplain.entrySteps_eq]
    exact List.mem_map_of_mem hname
  rcases stepsOf_eq_or path with heq | heq
  · rwa [heq]
  · rw [heq]
    exact List.mem_append_left _ hmem

/-- What a plain path stands for depends on its location alone. -/
theorem spotOf_of_lookup (hground : tree.IsGrounded) (hplain : IsPlain path)
    (hcheck : checkPath path = .ok ()) (hshort : ∀ name ∈ locationOf path, IsShort name)
    (h : tree.lookup (locationOf path) = some entry)
    (hslash : entry = .directory ∨ stepsOf path.text.toList = entrySteps path) :
    tree.spotOf false path = .ok (.found (locationOf path)) := by
  have hleads : tree.Leads maxLinks [] (entrySteps path) (locationOf path) := by
    rw [hplain.entrySteps_eq]
    exact leads_of_lookup hground hshort h
  refine spotOf_eq_found_iff.mpr ⟨hcheck, ?_⟩
  rw [startOf_of_isAbsolute hplain.isAbsolute]
  rcases stepsOf_eq_or path with heq | heq
  · rwa [heq]
  · rcases hslash with rfl | hnone
    -- a slash at the end asks for a directory, and there is one
    · obtain ⟨left, hon⟩ := (hleads.stay_of_directory h).append
      rw [heq]
      exact hon [.slash] _ (.slash .arrived)
    · rwa [hnone]

theorem isDirectory_iff_lookup (hground : tree.IsGrounded) (hplain : IsPlain path)
    (hcheck : checkPath path = .ok ()) :
    tree.isDirectory path = true ↔
      tree.lookup (locationOf path) = some .directory ∧
        tree.barrier? [] (locationOf path) = none := by
  rw [isDirectory_iff]
  constructor
  · rintro ⟨location, hspot, hdirectory⟩
    have hlocation := eq_locationOf_of_spotOf hground.hasNoLinks hplain.isAbsolute hspot
    subst hlocation
    exact ⟨hdirectory, barrier?_eq_none_of_directory hground hdirectory
      (isShort_of_spotOf hplain hspot)⟩
  · rintro ⟨hdirectory, hbarrier⟩
    exact ⟨_, spotOf_of_lookup hground hplain hcheck (isShort_of_barrier?_eq_none hbarrier)
      hdirectory (Or.inl rfl), hdirectory⟩

/-- Whether a plain path stands for something depends on its location alone. -/
theorem holds_congr (hground : tree.IsGrounded) (hlater : later.IsGrounded) (hplain : IsPlain path)
    (h : later.lookup (locationOf path) = tree.lookup (locationOf path)) :
    later.holds path = tree.holds path := by
  -- both directions are one statement, with the trees exchanged
  have himp {tree later : FileTree} (hground : tree.IsGrounded) (hlater : later.IsGrounded)
      (h : later.lookup (locationOf path) = tree.lookup (locationOf path))
      (hholds : tree.holds path = true) : later.holds path = true := by
    obtain ⟨location, entry, hspot, hentry⟩ := holds_iff.mp hholds
    have hshort := isShort_of_spotOf hplain hspot
    obtain ⟨hcheck, hleads⟩ := spotOf_eq_found_iff.mp hspot
    have hlocation := eq_locationOf_of_spotOf hground.hasNoLinks hplain.isAbsolute hspot
    subst hlocation
    rw [startOf_of_isAbsolute hplain.isAbsolute] at hleads
    have hslash : entry = .directory ∨ stepsOf path.text.toList = entrySteps path := by
      rcases stepsOf_eq_or path with heq | heq
      · exact Or.inr heq
      -- the path ends with a slash, so what it led to was a directory
      · have hreached := hleads.isReached (isReached_root tree) (by simp [heq])
        rw [hreached _ List.prefix_rfl, Option.some_inj] at hentry
        exact Or.inl hentry.symm
    rw [← h] at hentry
    exact holds_iff.mpr ⟨_, entry,
      spotOf_of_lookup hlater hplain hcheck hshort hentry hslash, hentry⟩
  exact Bool.eq_iff_iff.mpr ⟨himp hlater hground h.symm, himp hground hlater h⟩

/-! ## The content -/

/-- Why the content of a file is refused although its directory is there. -/
def contentError? (tree : FileTree) (path : Path) : Option SystemError :=
  match checkPath path with
  | .error error => some error
  | .ok _ =>
    match (stepsOf path.text.toList).getLast? with
    | some (.name name) =>
      if maxNameLength < name.utf8ByteSize then some .nameTooLong
      else if tree.lookup (locationOf path) = some .directory then some .isADirectory
      else none
    | _ => some .isADirectory

theorem contentError?_congr (h : later.lookup (locationOf path) = tree.lookup (locationOf path)) :
    later.contentError? path = tree.contentError? path := by
  unfold contentError?
  rw [h]

/-- A walk to a root, or to a path with a slash at the end, is no walk to a file. -/
theorem writeText_of_not_name (hplain : IsPlain path) (hcheck : checkPath path = .ok ())
    (hwalk : tree.walk true maxLinks [] (stepsOf path.text.toList) = .ok (.found []) ∨
      tree.walk true maxLinks [] (stepsOf path.text.toList) = .error .isADirectory)
    (text : String) : tree.writeText path text = .error .isADirectory := by
  have hspot : tree.spotOf true path =
      tree.walk true maxLinks [] (stepsOf path.text.toList) := by
    rw [spotOf, hcheck, startOf_of_isAbsolute hplain.isAbsolute]
    rfl
  rw [writeText, writeBytes, hspot]
  rcases hwalk with heq | heq <;> rw [heq] <;> rfl

/-- Writing the content of a plain path whose directory is there. -/
theorem writeText_eq (hground : tree.IsGrounded) (hplain : IsPlain path)
    (habove : ∀ above, path.parent? = some above →
      tree.lookup (locationOf above) = some .directory ∧
        tree.barrier? [] (locationOf above) = none) (text : String) :
    tree.writeText path text =
      match tree.contentError? path with
      | some error => .error error
      | none => .ok (tree.put (locationOf path) (.file text.toUTF8)) := by
  unfold contentError?
  rcases hcheck : checkPath path with error | _
  · rw [writeText, writeBytes, spotOf, hcheck]
    rfl
  cases hparent : path.parent? with
  | none =>
      -- the path is the root, with slashes after it or not
      have hlocation := hplain.locationOf_of_parent?_eq_none hparent
      have hentry : entrySteps path = [] := by rw [hplain.entrySteps_eq, hlocation]; rfl
      rcases stepsOf_eq_or path with heq | heq
      · rw [heq, hentry]
        refine writeText_of_not_name hplain hcheck (Or.inl ?_) text
        rw [heq, hentry, walk]
      · rw [heq, hentry]
        refine writeText_of_not_name hplain hcheck (Or.inl ?_) text
        rw [heq, hentry, List.nil_append, walk, walk]
  | some above =>
      obtain ⟨hdirectory, hbarrier⟩ := habove above hparent
      obtain ⟨_, _, name, hlocation⟩ := hplain.parent hparent
      have hentry : entrySteps path = (locationOf above).map .name ++ [.name name] := by
        rw [hplain.entrySteps_eq, hlocation, List.map_append]
        rfl
      have hwalk (rest : List Step) (hrest : rest ≠ [.slash]) :
          tree.walk true maxLinks [] ((locationOf above).map .name ++ rest) =
            tree.walk true maxLinks (locationOf above) rest :=
        walk_names_append hground hdirectory (isShort_of_barrier?_eq_none hbarrier) hrest
      rcases stepsOf_eq_or path with heq | heq
      -- the walk is at the directory above and has the last name before it
      · rw [heq, hentry, List.getLast?_concat]
        have hspot : tree.spotOf true path =
            tree.walk true maxLinks (locationOf above) [.name name] := by
          rw [spotOf, hcheck, startOf_of_isAbsolute hplain.isAbsolute, heq, hentry]
          exact hwalk _ (by simp)
        rw [writeText, writeBytes, hspot, hlocation, walk, if_neg (by simp)]
        by_cases hshort : maxNameLength < name.utf8ByteSize
        · simp only [if_pos hshort]
          rfl
        · simp only [if_neg hshort]
          cases hlookup : tree.lookup (locationOf above ++ [name]) with
          | none => rfl
          | some entry =>
              cases entry with
              | link target => exact absurd hlookup (hground.hasNoLinks _ _)
              | file content => simp [Bind.bind, Except.bind, hlookup]
              | directory =>
                  simp only [walk, Bind.bind, Except.bind, hlookup]
                  rfl
      -- a slash after the last name asks for a directory
      · rw [heq, hentry, List.getLast?_concat]
        refine writeText_of_not_name hplain hcheck (Or.inr ?_) text
        rw [heq, hentry, List.append_assoc, hwalk _ (by simp)]
        simp [walk]

end WebComponents.Files.FileTree
