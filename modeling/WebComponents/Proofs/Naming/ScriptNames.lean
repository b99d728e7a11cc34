import WebComponents.Proofs.Naming.Grammar
import WebComponents.Proofs.Naming.OnePass
import WebComponents.Proofs.Scaffold.CrossReferences

/-!
# Names that a script may declare

Two names go into scripts.  The class of a component is named after its tag, and the generated files
declare and import it under that name; a variable is named after a module.

```text
my-card       export class MyCard {
1-card        export class 1Card {        -- a number, and then a name
node-fs       nodeFs
node:fs       node:fs                     -- no name at all
```

A tag without a fault is a row of words, and a capital changes nothing but the first letter of each.
All characters of the class are therefore letters, digits and underscores.  No rule says what a tag
may start with, and a digit in front is the only thing that can go wrong (`classNames_iff`).

A variable gets an underscore before a digit.  But its words are cut at listed separators, and
whatever is neither listed nor a letter or digit stays in the name: a colon, a star, a bracket, a
control character.  Only blanks at the ends are lost (`isVariableName_variableName_iff`).
-/

namespace WebComponents.Naming

open Text

/-! ## Names that a script may declare -/

/-- A name with `signs` beside letters and digits: it is not empty and does not start with a
digit. -/
def IsNameWith (signs : List Char) : List Char → Prop
  | [] => False
  | first :: rest =>
    (first.isAlpha = true ∨ first ∈ signs) ∧ ∀ c ∈ rest, c.isAlphanum = true ∨ c ∈ signs

/-- A name that a script may declare. -/
def IsScriptName (name : String) : Prop :=
  IsNameWith ['_', '$'] name.toList

/-- A name for a variable that is made of letters, digits and underscores. -/
def IsVariableName (name : String) : Prop :=
  IsNameWith ['_'] name.toList

variable {signs s : List Char} {tag specifier : String} {position : Position} {c : Char}

theorem isAlpha_iff : c.isAlpha = true ↔ c.isAlphanum = true ∧ c.isDigit = false := by
  constructor
  · intro h
    have halnum : c.isAlphanum = true := by rw [Char.isAlphanum, h, Bool.true_or]
    have hdigit : c.isAlpha = true → c.isDigit = false :=
      forall_ascii c (toNat_lt_of_isAlphanum halnum) (by decide)
    exact ⟨halnum, hdigit h⟩
  · rintro ⟨h, hdigit⟩
    rwa [Char.isAlphanum, hdigit, Bool.or_false] at h

/-- A name in terms of all its characters. -/
theorem isNameWith_iff (hsigns : ∀ c ∈ signs, c.isDigit = false) :
    IsNameWith signs s ↔ s ≠ [] ∧ (∀ c ∈ s, c.isAlphanum = true ∨ c ∈ signs) ∧
      ∀ c ∈ s.head?, c.isDigit = false := by
  cases s with
  | nil => simp [IsNameWith]
  | cons first rest =>
      have hfirst : first.isAlpha = true ∨ first ∈ signs ↔
          (first.isAlphanum = true ∨ first ∈ signs) ∧ first.isDigit = false := by
        have hsign := hsigns first
        rw [isAlpha_iff]
        tauto
      rw [IsNameWith, hfirst, List.forall_mem_cons]
      simp only [List.head?_cons, Option.mem_def, Option.some_inj, forall_eq']
      tauto

/-! ## The class of a tag -/

theorem pascalChars_cons (h : c ≠ '-') (rest : List Char) :
    ∃ more, pascalChars (c :: rest) = upperChar c ++ more := by
  obtain ⟨piece, pieces, -, hcons⟩ := exists_split_cons (· == '-') (by simpa using h) rest
  refine ⟨piece ++ pieces.flatMap capitalize, ?_⟩
  rw [pascalChars, hcons, List.flatMap_cons, capitalize, List.append_assoc]

theorem isAlphanum_of_mem_capitalize {word : List Char}
    (hword : ∀ c ∈ word, Tag.isWordChar c = true) (hc : c ∈ capitalize word) :
    c.isAlphanum = true ∨ c = '_' := by
  have hchar {d : Char} (hd : Tag.isWordChar d = true) : d.isAlphanum = true ∨ d = '_' := by
    simp only [Tag.isWordChar, Bool.or_eq_true, beq_iff_eq] at hd
    rcases hd with (hlower | hdigit) | hscore
    · exact Or.inl (isAlphanum_iff.mpr (Or.inl (Or.inr hlower)))
    · exact Or.inl (isAlphanum_iff.mpr (Or.inr hdigit))
    · exact Or.inr hscore
  have hcapital {d : Char} (hd : Tag.isWordChar d = true) :
      d.toNat < 128 ∧ (d.toUpper.isAlphanum = true ∨ d.toUpper = '_') := by
    rcases hchar hd with halnum | rfl
    · have hascii := toNat_lt_of_isAlphanum halnum
      exact ⟨hascii, Or.inl ((isAlphanum_toUpper hascii).trans halnum)⟩
    · decide
  cases word with
  | nil => cases hc
  | cons first rest =>
      obtain ⟨hfirst, hrest⟩ := List.forall_mem_cons.mp hword
      obtain ⟨hascii, hupper⟩ := hcapital hfirst
      rw [capitalize, upperChar_of_ascii hascii, List.singleton_append] at hc
      rcases List.mem_cons.mp hc with rfl | hc
      · exact hupper
      · exact hchar (hrest c hc)

theorem isAlphanum_of_mem_pascalCase (h : Tag.fault? tag = none)
    (hc : c ∈ (pascalCase tag).toList) : c.isAlphanum = true ∨ c = '_' := by
  obtain ⟨-, hwords⟩ := Tag.charsFault?_eq_none_iff_split.mp h
  rw [pascalCase, String.toList_ofList, pascalChars] at hc
  obtain ⟨word, hword, hc⟩ := List.mem_flatMap.mp hc
  exact isAlphanum_of_mem_capitalize (hwords word hword).2 hc

theorem head?_pascalCase (h : Tag.fault? tag = none) :
    (pascalCase tag).toList.head? = tag.toList.head?.map Char.toUpper := by
  obtain ⟨-, -, hne, -, -, hchars, -, -, hhead, -⟩ := Tag.charsFault?_eq_none_iff.mp h
  obtain ⟨first, rest, htag⟩ := List.exists_cons_of_ne_nil hne
  rw [htag] at hchars hhead
  have hascii := Tag.toNat_lt_of_isTagChar (hchars first List.mem_cons_self)
  obtain ⟨more, hmore⟩ := pascalChars_cons (by simpa using hhead) rest
  rw [pascalCase, String.toList_ofList, htag, hmore, upperChar_of_ascii hascii]
  rfl

theorem isScriptName_pascalCase_iff (h : Tag.fault? tag = none) :
    IsScriptName (pascalCase tag) ↔ ∀ c ∈ tag.toList.head?, c.isDigit = false := by
  have hsigns : ∀ c ∈ ['_', '$'], c.isDigit = false :=
    List.forall_mem_cons.mpr ⟨rfl, List.forall_mem_singleton.mpr rfl⟩
  have hhead := head?_pascalCase h
  obtain ⟨-, -, hne, -, -, hchars, -⟩ := Tag.charsFault?_eq_none_iff.mp h
  obtain ⟨first, rest, htag⟩ := List.exists_cons_of_ne_nil hne
  rw [htag] at hhead hchars ⊢
  have hdigit : first.toUpper.isDigit = first.isDigit :=
    forall_ascii first (Tag.toNat_lt_of_isTagChar (hchars first List.mem_cons_self)) (by decide)
  have hmem : ∀ c ∈ (pascalCase tag).toList, c.isAlphanum = true ∨ c ∈ ['_', '$'] :=
    fun c hc => (isAlphanum_of_mem_pascalCase h hc).imp_right fun heq => by simp [heq]
  have hpascal : (pascalCase tag).toList ≠ [] := by
    intro hnil
    simp [hnil] at hhead
  rw [IsScriptName, isNameWith_iff hsigns, hhead]
  constructor
  · rintro ⟨-, -, hfirst⟩
    simpa [hdigit] using hfirst
  · intro hfirst
    exact ⟨hpascal, hmem, by simpa [hdigit] using hfirst⟩

/-! ## The variable of a module -/

/-- A character of a word that is a letter or digit is written as such, and any other is not. -/
theorem forall_mem_write_iff (h : c.toNat < 128) (hgap : isGap c = false) (position : Position) :
    (∀ d ∈ position.write c, d.isAlphanum = true ∨ d = '_') ↔ c.isAlphanum = true := by
  have hall : isGap c = false →
      (position.write c).all (fun d => d.isAlphanum || d == '_') = c.isAlphanum := by
    cases position with
    | first => exact forall_ascii c h (by decide)
    | apart => exact forall_ascii c h (by decide)
    | inside => exact forall_ascii c h (by decide)
  rw [← hall hgap]
  simp only [List.all_eq_true, Bool.or_eq_true, beq_iff_eq]

theorem forall_mem_scan_iff (h : IsAscii s) (position : Position) :
    (∀ c ∈ scan isGap position s, c.isAlphanum = true ∨ c = '_') ↔
      ∀ c ∈ s, isGap c = true ∨ c.isAlphanum = true := by
  induction s generalizing position with
  | nil => simp [scan]
  | cons c s ih =>
      obtain ⟨hc, hs⟩ := List.forall_mem_cons.mp h
      rw [List.forall_mem_cons]
      cases hgap : isGap c with
      | true =>
          rw [scan_gap hgap, ih hs]
          simp
      | false =>
          rw [scan_word hgap, List.forall_mem_append, forall_mem_write_iff hc hgap, ih hs]
          simp

theorem isDigit_head?_scan (h : IsAscii s) :
    ∀ c ∈ (scan isGap .first s).head?, c.isDigit = false := by
  induction s with
  | nil => exact nofun
  | cons c s ih =>
      obtain ⟨hc, hs⟩ := List.forall_mem_cons.mp h
      cases hgap : isGap c with
      | true =>
          rw [scan_gap hgap]
          exact ih hs
      | false =>
          rw [scan_word hgap, Position.write]
          split
          · intro first hfirst
            obtain rfl : '_' = first := by simpa using hfirst
            decide
          · next hdigit =>
              intro first hfirst
              obtain rfl : c.toLower = first := by simpa using hfirst
              have hsame : c.toLower.isDigit = c.isDigit := forall_ascii c hc (by decide)
              rw [hsame]
              simpa using hdigit

/-- **Names of variables.**  The name made from an ASCII text is empty or fit for a variable exactly
if the part before a query, without blanks at its ends, holds nothing but letters, digits and the
characters that are taken as gaps. -/
theorem isVariableName_variableName_iff (h : IsAscii specifier.toList) :
    (variableName specifier = "" ∨ IsVariableName (variableName specifier)) ↔
      ∀ c ∈ trim (moduleStem specifier.toList), isGap c = true ∨ c.isAlphanum = true := by
  have hstem : IsAscii (moduleStem specifier.toList) :=
    fun c hc => h c ((List.takeWhile_prefix _).mem hc)
  have htrim : IsAscii (trim (moduleStem specifier.toList)) :=
    fun c hc => hstem c (mem_of_mem_trim hc)
  have hsigns : ∀ c ∈ ['_'], c.isDigit = false := List.forall_mem_singleton.mpr rfl
  rw [IsVariableName, isNameWith_iff hsigns, variableName, String.toList_ofList,
    String.ofList_eq_empty_iff, variableChars_eq_scan hstem, ← forall_mem_scan_iff htrim .first]
  constructor
  · rintro (hnil | ⟨-, hchars, -⟩)
    · simp [hnil]
    · simpa using hchars
  · intro hchars
    by_cases hnil : scan isGap .first (trim (moduleStem specifier.toList)) = []
    · exact Or.inl hnil
    · exact Or.inr ⟨hnil, by simpa using hchars, isDigit_head?_scan htrim⟩

/-- Blanks around a scoped package, and a colon after the query begins. -/
theorem isVariableName_variableName_iff_scoped :
    IsAscii "\t@kiln/2d.css?v=a:b".toList ∧
      variableName "\t@kiln/2d.css?v=a:b" = "kiln2dCss" ∧ IsVariableName "kiln2dCss" := by
  have hascii : IsAscii "\t@kiln/2d.css?v=a:b".toList := by decide
  have hname : variableName "\t@kiln/2d.css?v=a:b" = "kiln2dCss" := by decide
  have hall : (trim (moduleStem "\t@kiln/2d.css?v=a:b".toList)).all fun c =>
      isGap c = true ∨ c.isAlphanum = true := by decide
  have hfit := (isVariableName_variableName_iff hascii).mpr fun c hc =>
    of_decide_eq_true (List.all_eq_true.mp hall c hc)
  rw [hname] at hfit
  exact ⟨hascii, hname, hfit.resolve_left (by decide)⟩

/-- Not every ASCII text gives a variable a name that it may have. -/
theorem not_isVariableName_colon :
    ¬ ∀ specifier : String, IsAscii specifier.toList →
      variableName specifier = "" ∨ IsVariableName (variableName specifier) := by
  intro hlaw
  have hname : variableName "node:fs" = "node:fs" := by decide
  rcases hlaw "node:fs" (by decide) with hempty | hfit
  · rw [hname] at hempty
    exact absurd hempty (by decide)
  · rw [hname, IsVariableName] at hfit
    exact absurd (hfit.2 ':' (by decide)) (by decide)

end WebComponents.Naming

namespace WebComponents.Scaffold

open Naming

/-! ## The class in the generated files -/

/-- The component declares its class under this name, and the spec test imports it so. -/
def IsClassName (tag className : String) : Prop :=
  ∀ withStylesheet, classLine className ∈ boilerplateLines tag withStylesheet .component ∧
    importLine className tag ∈ boilerplateLines tag withStylesheet .specTest

theorem isClassName_pascalCase (tag : String) : IsClassName tag (pascalCase tag) := by
  intro withStylesheet
  constructor
  · simp [boilerplateLines, componentLines, classLine]
  · simp [boilerplateLines, specTestLines, importLine]

/-- **Names of classes.**  The class of a component whose tag has no fault has a name that a script
may declare exactly if the tag does not start with a digit. -/
theorem classNames_iff {tag : String} (h : Tag.fault? tag = none) :
    IsClassName tag (pascalCase tag) ∧
      (IsScriptName (pascalCase tag) ↔ ∀ c ∈ tag.toList.head?, c.isDigit = false) :=
  ⟨isClassName_pascalCase tag, isScriptName_pascalCase_iff h⟩

/-- A tag that starts with an underscore and has a digit at the start of its second word. -/
theorem classNames_iff_underscore :
    Tag.fault? "_v2-3d" = none ∧ IsClassName "_v2-3d" "_v23d" ∧ IsScriptName "_v23d" := by
  have htag : Tag.fault? "_v2-3d" = none := by decide
  have hclass : pascalCase "_v2-3d" = "_v23d" := by decide
  have hfirst : "_v2-3d".toList.head? = some '_' := by decide
  obtain ⟨hname, hscript⟩ := classNames_iff htag
  rw [hclass, hfirst] at hscript
  rw [hclass] at hname
  refine ⟨htag, hname, hscript.mpr fun c hc => ?_⟩
  obtain rfl : '_' = c := Option.some_inj.mp hc
  rfl

/-- Not every tag without a fault makes a class that a script may declare. -/
theorem not_isScriptName_digit :
    ¬ ∀ tag : String, Tag.fault? tag = none → IsScriptName (pascalCase tag) := by
  intro hlaw
  have hname : IsScriptName (pascalCase "1-a") := hlaw "1-a" (by decide)
  have hclass : (pascalCase "1-a").toList = ['1', 'A'] := by decide
  rw [IsScriptName, hclass] at hname
  exact absurd hname.1 (by decide)

end WebComponents.Scaffold
