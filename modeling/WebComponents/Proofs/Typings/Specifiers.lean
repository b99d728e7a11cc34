import WebComponents.Proofs.Path.Shown
import WebComponents.Proofs.Path.Ways
import WebComponents.Proofs.Typings.Imports

/-!
# The specifier of the typings

A specifier is read from the place of the importing file only if it begins with `./` or `../`; any
other is the name of a package.  The specifier of the typings is the way from the directory of the
declaration file to the typings.  It gets a `./` in front unless it begins with a dot, so the first
segment of the way decides:

```text
/dist/types/card/card.d.ts   ..        ../kiln-public-runtime
/dist/types/card.d.ts        (none)    ./kiln-public-runtime
/dist/card.d.ts              types     ./types/kiln-public-runtime
/dist/card.d.ts              .types    .types/kiln-public-runtime
```

The last line is the name of a package.  `redirect_relative_iff` says that there is no other
way to come to one: the types must lie below the directory of the file, in a directory with a name
that begins with a dot.
-/

namespace WebComponents.Typings

open WebComponents.Path

/-- A specifier that is read from the place of the importing file. -/
def IsRelativeSpecifier (specifier : String) : Prop :=
  ['.', '/'] <+: specifier.toList ∨ ['.', '.', '/'] <+: specifier.toList

instance : DecidablePred IsRelativeSpecifier := fun _ => inferInstanceAs (Decidable (_ ∨ _))

/-- A name that begins with a dot and is, with its backslashes turned, no relative specifier. -/
def IsHiddenName (name : String) : Prop :=
  name.toList.head? = some '.' ∧ ¬ IsRelativeSpecifier (Path.mk name).slashed

instance : DecidablePred IsHiddenName := fun _ => inferInstanceAs (Decidable (_ ∧ _))

/-! ## Turned backslashes -/

theorem toList_slashed (path : Path) (strays : Text.Strays) :
    (path.slashed strays).toList = (strays.shown path.text.toList).map turned :=
  String.toList_ofList

/-- A path that is text is shown as it is. -/
theorem toList_slashed_none (path : Path) : path.slashed.toList = path.text.toList.map turned := by
  rw [toList_slashed, Text.Strays.shown_none]

theorem turned_eq_dot_iff (c : Char) : turned c = '.' ↔ c = '.' := by
  unfold turned
  split
  · rename_i h
    rw [h]
    decide
  · rfl

theorem map_turned_eq_self {s : List Char} (h : '\\' ∉ s) : s.map turned = s := by
  refine (List.map_congr_left fun c hc => ?_).trans (List.map_id _)
  refine if_neg ?_
  rintro rfl
  exact h hc

theorem head?_slashed_eq_dot_iff (path : Path) :
    path.slashed.toList.head? = some '.' ↔ path.text.toList.head? = some '.' := by
  rw [toList_slashed_none]
  cases path.text.toList with
  | nil => simp
  | cons c rest => simp [turned_eq_dot_iff]

/-! ## The way to the typings -/

/-- The way from the directory of a declaration file to the typings, as a path. -/
def wayToTypings (typesDir file : Path) : Path :=
  (file.directory.relative typesDir).join ⟨typingsName⟩

theorem typingsSpecifier_eq (typesDir file : Path) (strays : Text.Strays) :
    typingsSpecifier typesDir file strays =
      if ((wayToTypings typesDir file).slashed strays).toList.head? = some '.' then
        (wayToTypings typesDir file).slashed strays
      else "./" ++ (wayToTypings typesDir file).slashed strays :=
  rfl

theorem isName_typingsName : IsName typingsName := by
  refine ⟨?_, ?_, ?_, ?_⟩ <;> decide

theorem wayToTypings_eq (typesDir file : Path) :
    wayToTypings typesDir file =
      ofSegments (wayBetween (cleanSegments file.directory.segments)
        (cleanSegments typesDir.segments) ++ [.name typingsName]) := by
  unfold wayToTypings relative ofSegments
  rw [List.foldl_append, List.foldl_cons, List.foldl_nil, Segment.text]

/-- A path of a segment and more begins with the text of the segment and a slash. -/
theorem exists_text_ofSegments {segment : Segment} {segments : List Segment} {name : String}
    (hsegment : segment.IsInner) (h : ∀ segment ∈ segments, segment.IsInner) (hname : IsName name) :
    ∃ rest, (ofSegments (segment :: segments ++ [.name name])).text.toList =
      segment.text.toList ++ '/' :: rest := by
  have hfirst : (Path.mk "").join ⟨segment.text⟩ = ⟨segment.text⟩ := by
    simp [join]
  -- neither empty nor with a slash at its end, so the next segment puts a slash after it
  have hplain : (Path.mk segment.text).text.isEmpty = false ∧
      (Path.mk segment.text).endsWithSlash = false := by
    cases segment with
    | root => exact hsegment.elim
    | current => exact hsegment.elim
    | parent => decide
    | name text =>
        refine ⟨?_, ?_⟩
        · simpa [Segment.text, String.isEmpty_iff, ← String.toList_eq_nil_iff] using hsegment.1
        · simp only [endsWithSlash, Segment.text, beq_eq_false_iff_ne, ne_eq]
          exact fun hlast => hsegment.2.1 (List.mem_of_getLast? hlast)
  have hinner : ∀ other ∈ segments ++ [Segment.name name], other.IsInner := by
    intro other hother
    rcases List.mem_append.mp hother with hother | hother
    · exact h other hother
    · rw [List.mem_singleton] at hother
      subst hother
      exact hname
  have hall : ofSegments (segment :: segments ++ [.name name]) =
      (segments ++ [Segment.name name]).foldl (fun path segment => path.join ⟨segment.text⟩)
        ⟨segment.text⟩ := by
    rw [← hfirst]
    rfl
  rw [hall]
  cases hsegments : segments ++ [Segment.name name] with
  | nil => simp at hsegments
  | cons next more =>
      rw [hsegments] at hinner
      obtain ⟨hnext, hmore⟩ := List.forall_mem_cons.mp hinner
      obtain ⟨rest, hrest⟩ := text_prefix_foldl_join ((Path.mk segment.text).join ⟨next.text⟩)
        hmore
      rw [List.foldl_cons, ← hrest, toList_join (isAbsolute_of_isInner hnext), hplain.1, hplain.2]
      exact ⟨next.text.toList ++ rest, by simp⟩

/-! ## When it is relative -/

/-- A slash after a text that is no dots makes no relative specifier of it. -/
theorem isRelativeSpecifier_append {name specifier : String} {rest : List Char}
    (h : specifier.toList = name.toList ++ '/' :: rest) (hdot : name.toList ≠ ['.'])
    (hdots : name.toList ≠ ['.', '.']) :
    IsRelativeSpecifier specifier ↔ IsRelativeSpecifier name := by
  unfold IsRelativeSpecifier
  rw [h]
  generalize name.toList = s at hdot hdots ⊢
  match s with
  | [] => simp
  | [a] =>
      have ha : '.' ≠ a := fun heq => hdot (by rw [heq])
      simp [ha]
  | [a, b] =>
      have hab : ¬ ('.' = a ∧ '.' = b) := fun heq => hdots (by rw [heq.1, ← heq.2, ← heq.1])
      simp [hab]
  | a :: b :: c :: more => simp

theorem isRelativeSpecifier_dot_slash (text : String) : IsRelativeSpecifier ("./" ++ text) :=
  Or.inl ⟨text.toList, by simp⟩

/-- The types lie below the directory of the file, in a directory with a hidden name. -/
def LiesHidden (typesDir file : Path) : Prop :=
  ∃ name rest, cleanSegments typesDir.segments =
    cleanSegments file.directory.segments ++ .name name :: rest ∧ IsHiddenName name

theorem liesHidden_iff {typesDir file : Path} :
    LiesHidden typesDir file ↔
      ∃ name rest, wayBetween (cleanSegments file.directory.segments)
        (cleanSegments typesDir.segments) = .name name :: rest ∧ IsHiddenName name := by
  constructor
  · rintro ⟨name, rest, hsegments, hhidden⟩
    exact ⟨name, rest, by rw [hsegments, wayBetween_append], hhidden⟩
  · rintro ⟨name, rest, hway, hhidden⟩
    exact ⟨name, rest, eq_append_of_wayBetween hway, hhidden⟩

/-- If the way does not begin with a dot, the specifier begins with a dot and a slash. -/
theorem isRelativeSpecifier_of_head? {typesDir file : Path}
    (h : (wayToTypings typesDir file).text.toList.head? ≠ some '.') :
    IsRelativeSpecifier (typingsSpecifier typesDir file) := by
  rw [typingsSpecifier_eq, if_neg (by rwa [head?_slashed_eq_dot_iff])]
  exact isRelativeSpecifier_dot_slash _

/-- The first segment of the way decides. -/
theorem isRelativeSpecifier_of_segment {typesDir file : Path} {segment : Segment} {rest : List Char}
    (h : (wayToTypings typesDir file).text.toList = segment.text.toList ++ '/' :: rest)
    (hsegment : segment.IsInner) :
    IsRelativeSpecifier (typingsSpecifier typesDir file) ↔
      ∀ name, segment = .name name → ¬ IsHiddenName name := by
  have hslashed : (wayToTypings typesDir file).slashed.toList =
      (Path.mk segment.text).slashed.toList ++ '/' :: rest.map turned := by
    rw [toList_slashed_none, toList_slashed_none, h, List.map_append]
    rfl
  cases segment with
  | root => exact hsegment.elim
  | current => exact hsegment.elim
  | parent =>
      have hhead : (wayToTypings typesDir file).slashed.toList.head? = some '.' := by
        rw [head?_slashed_eq_dot_iff, h]
        rfl
      rw [typingsSpecifier_eq, if_pos hhead]
      refine iff_of_true (Or.inr ⟨rest.map turned, ?_⟩) (by simp)
      rw [hslashed, toList_slashed_none]
      rfl
  | name name =>
      obtain ⟨hne, _, hdot, hdots⟩ := hsegment
      -- turning backslashes makes no dots
      have hturned (dots : List Char) (hall : ∀ c ∈ dots, c = '.')
          (heq : (Path.mk name).slashed.toList = dots) : name.toList = dots := by
        rw [toList_slashed_none] at heq
        rw [← heq]
        refine ((List.map_congr_left fun c hc => ?_).trans (List.map_id _)).symm
        have hc' : turned c ∈ dots := heq ▸ List.mem_map_of_mem hc
        exact (hall _ hc').trans ((turned_eq_dot_iff c).mp (hall _ hc')).symm
      have hhead : (wayToTypings typesDir file).slashed.toList.head? = some '.' ↔
          name.toList.head? = some '.' := by
        rw [head?_slashed_eq_dot_iff, h, List.head?_append_of_ne_nil _ (by exact hne)]
        rfl
      -- a name with a dot in front gets no `./`, and needs one unless it is all dots
      by_cases hfirst : name.toList.head? = some '.'
      · rw [typingsSpecifier_eq, if_pos (hhead.mpr hfirst)]
        rw [isRelativeSpecifier_append hslashed (fun heq => hdot (hturned _ (by simp) heq))
          (fun heq => hdots (hturned _ (by simp) heq))]
        simp [IsHiddenName, hfirst]
        rfl
      · rw [typingsSpecifier_eq, if_neg (mt hhead.mp hfirst)]
        exact iff_of_true (isRelativeSpecifier_dot_slash _) (by simp [IsHiddenName, hfirst])

/-- **Relative specifiers.**  Redirecting puts one and the same specifier into every import of the
framework and keeps all else, and this specifier is relative unless the types lie hidden below the
directory of the file. -/
theorem redirect_relative_iff {typesDir file : Path} (htypes : typesDir.isAbsolute = true)
    (hfile : file.isAbsolute = true) :
    (∀ content, (redirect typesDir file content).toList =
      (pieces content.toList).flatMap
        (·.charsWith fun _ => (typingsSpecifier typesDir file).toList)) ∧
    (IsRelativeSpecifier (typingsSpecifier typesDir file) ↔ ¬ LiesHidden typesDir file) := by
  refine ⟨fun content => toList_redirect typesDir file content .none, ?_⟩
  have htext := wayToTypings_eq typesDir file
  rw [liesHidden_iff]
  rcases directory_eq_empty_or_isAbsolute hfile with hempty | hdirectory
  · -- the root is no declaration file; the way is then the path of the types itself
    obtain ⟨names, hnames⟩ := isRooted_cleanSegments htypes
    have hnone : cleanSegments file.directory.segments = [] := by
      cases hdirectory : file.directory
      rw [hdirectory] at hempty
      cases hempty
      rw [segments_empty]
      rfl
    have hway : wayBetween [] (.root :: names.map Segment.name) = .root :: names.map .name := rfl
    rw [hnone, hnames, hway] at htext ⊢
    refine iff_of_true (isRelativeSpecifier_of_head? ?_) (by simp)
    have hinner : ∀ segment ∈ names.map Segment.name ++ [.name typingsName], segment.IsInner := by
      intro segment hsegment
      rcases List.mem_append.mp hsegment with hmem | hmem
      · exact isInner_of_cleanSegments_eq hnames segment hmem
      · rw [List.mem_singleton] at hmem
        subst hmem
        exact isName_typingsName
    obtain ⟨rest, hrest⟩ := text_prefix_foldl_join ⟨"/"⟩ hinner
    have hroot : (wayToTypings typesDir file).text.toList = '/' :: rest := by
      rw [htext]
      exact hrest.symm
    rw [hroot]
    simp
  · cases hway : wayBetween (cleanSegments file.directory.segments)
        (cleanSegments typesDir.segments) with
    | nil =>
        -- the typings are in the directory of the file, and their name begins with no dot
        refine iff_of_true (isRelativeSpecifier_of_head? ?_) (by simp)
        rw [htext, hway]
        decide
    | cons segment segments =>
        have hinner := isInner_of_mem_wayBetween htypes hdirectory
        rw [hway] at hinner
        obtain ⟨hsegment, hsegments⟩ := List.forall_mem_cons.mp hinner
        obtain ⟨rest, hrest⟩ := exists_text_ofSegments hsegment hsegments isName_typingsName
        rw [hway] at htext
        rw [← htext] at hrest
        rw [isRelativeSpecifier_of_segment hrest hsegment]
        simp only [List.cons.injEq, not_exists, not_and, and_imp]
        exact ⟨fun h name _ heq _ => h name heq, fun h name heq => h name _ heq rfl⟩

/-- A hidden directory that holds the types and the file does no harm. -/
theorem redirect_relative_iff_shared :
    let typesDir : Path := ⟨"/dist/.types"⟩
    let file : Path := ⟨"/dist/.types/card/card.d.ts"⟩
    typesDir.isAbsolute = true ∧ file.isAbsolute = true ∧
      IsRelativeSpecifier (typingsSpecifier typesDir file) := by
  intro typesDir file
  have htypes : typesDir.isAbsolute = true := by decide
  have hfile : file.isAbsolute = true := by decide
  refine ⟨htypes, hfile, (redirect_relative_iff htypes hfile).2.mpr ?_⟩
  rintro ⟨name, rest, hbelow, _⟩
  have hdirectory : cleanSegments file.directory.segments =
      [.root, .name "dist", .name ".types", .name "card"] := by decide
  have hsegments : cleanSegments typesDir.segments = [.root, .name "dist", .name ".types"] := by
    decide
  rw [hdirectory, hsegments] at hbelow
  cases hbelow

/-- The types lie hidden below the directory of the file, and the import names a package. -/
theorem redirect_hidden :
    let typesDir : Path := ⟨"/dist/.types"⟩
    let file : Path := ⟨"/dist/a.d.ts"⟩
    typesDir.isAbsolute = true ∧ file.isAbsolute = true ∧
      redirect typesDir file "import { h } from '@kiln/core';\n" =
        "import { h } from '.types/kiln-public-runtime';\n" ∧
      typingsSpecifier typesDir file = ".types/kiln-public-runtime" ∧
      ¬ IsRelativeSpecifier (typingsSpecifier typesDir file) := by
  decide +kernel

end WebComponents.Typings
