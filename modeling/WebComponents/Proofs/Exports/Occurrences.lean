import Mathlib.Data.List.Basic
import WebComponents.Proofs.Exports.Aliases
import WebComponents.Proofs.Text.Tokens

/-!
# Renaming the tokens of a signature

The text of a method's type is renamed by one alias after the other, wherever the local name stands.
This file compares the result with a renaming of all tokens at the same time (`newName`): a name of
one of the types becomes the export name of that type, and another token the export name of the
first alias for it.

The two agree as long as no alias finds its local name anywhere else when its turn comes
(`KeepsApart`).  What it must not find is, for example,

```text
Foo  in  Foo1        an export name that an earlier alias put in
Foo  in  FooBar      a longer token
Foo  in  Foo         the name of a type of another file
```
-/

namespace WebComponents.Exports

open Metadata NameCounts Text

/-! ## The aliases in turn -/

/-- The aliases that a text is renamed by, in turn, each with its file. -/
def appliedAliases (registry : Registry) (source : Path) (references : References) :
    List (Path × Alias) :=
  (declaringFiles source references).flatMap fun file =>
    ((registry.aliases? file).getD []).map fun item => (file, item)

theorem renameType_eq_foldl (rename : String → Alias → String) (registry : Registry)
    (source : Path) (references : References) (text : String) :
    renameType rename registry source references text =
      (appliedAliases registry source references).foldl (fun text pair => rename text pair.2)
        text := by
  simp only [renameType, appliedAliases, List.foldl_flatMap, List.foldl_map]

theorem distinctFiles_eq_firsts (files : List Path) :
    distinctFiles files = firsts Path.Same files := by
  induction files with
  | nil => rfl
  | cons file files ih => rw [distinctFiles, firsts, ih]

theorem declaringFiles_eq_firsts (source : Path) (references : References) :
    declaringFiles source references =
      firsts Path.Same ((declaredTypes source references).map (·.1)) := by
  rw [declaringFiles, distinctFiles_eq_firsts, declaredTypes, List.map_filterMap]
  simp [Function.comp_def]

/-! ## All tokens at the same time -/

/-- The alias gives the word another name.  If the word is the name of one of the types, the alias
is for the file of that type. -/
def IsFor (types : List (Path × String)) (word : String) (pair : Path × Alias) : Prop :=
  pair.2.localName = word ∧ pair.2.exportName ≠ word ∧
    ∀ type ∈ types, type.2 = word → type.1.Same pair.1

instance (types : List (Path × String)) (word : String) : DecidablePred (IsFor types word) :=
  fun pair => inferInstanceAs (Decidable (pair.2.localName = word ∧ pair.2.exportName ≠ word ∧
    ∀ type ∈ types, type.2 = word → type.1.Same pair.1))

/-- The export name under the first alias for a word; a word without one stays. -/
def newName (types : List (Path × String)) (aliases : List (Path × Alias)) (word : String) :
    String :=
  ((aliases.find? fun pair => IsFor types word pair).map (·.2.exportName)).getD word

/-- The alias finds its local name only in tokens that it is for and that have no new name yet.  A
local name that is no identifier is not found at all. -/
def FindsOwnTokens (types : List (Path × String)) (before : List (Path × Alias))
    (pair : Path × Alias) (signature : String) : Prop :=
  (IsIdentifier pair.2.localName → ∀ word ∈ tokensOf signature,
    pair.2.localName.toList <:+: (newName types before word).toList →
      newName types before word = word ∧ IsFor types word pair) ∧
  (¬ IsIdentifier pair.2.localName →
    ¬ pair.2.localName.toList <:+: (renameTokens (newName types before) signature).toList)

instance (types : List (Path × String)) (before : List (Path × Alias)) (pair : Path × Alias)
    (signature : String) : Decidable (FindsOwnTokens types before pair signature) :=
  instDecidableAnd

/-- Each alias that changes a text finds only its own tokens when its turn comes. -/
def KeepsApart (types : List (Path × String)) (aliases : List (Path × Alias))
    (signature : String) : Prop :=
  ∀ k, (h : k < aliases.length) → aliases[k].2.localName ≠ "" →
    aliases[k].2.localName ≠ aliases[k].2.exportName →
      FindsOwnTokens types (aliases.take k) aliases[k] signature

instance (types : List (Path × String)) (aliases : List (Path × Alias)) (signature : String) :
    Decidable (KeepsApart types aliases signature) :=
  inferInstanceAs (Decidable (∀ k, (h : k < aliases.length) → aliases[k].2.localName ≠ "" →
    aliases[k].2.localName ≠ aliases[k].2.exportName →
      FindsOwnTokens types (aliases.take k) aliases[k] signature))

variable {types : List (Path × String)} {before : List (Path × Alias)} {pair : Path × Alias}
  {word signature : String}

theorem newName_nil (types : List (Path × String)) : newName types [] = id := rfl

/-- One more alias counts for the words that it is for and that had none. -/
theorem newName_concat (types : List (Path × String)) (before : List (Path × Alias))
    (pair : Path × Alias) (word : String) :
    newName types (before ++ [pair]) word =
      if newName types before word = word ∧ IsFor types word pair then pair.2.exportName
      else newName types before word := by
  unfold newName
  rw [List.find?_append, List.find?_singleton]
  cases hfound : before.find? fun pair => IsFor types word pair with
  | none => by_cases hfor : IsFor types word pair <;> simp [hfor]
  | some other =>
      have hother : IsFor types word other := by simpa using List.find?_some hfound
      rw [Option.some_or, Option.map_some, Option.getD_some]
      exact (if_neg fun h => hother.2.1 h.1).symm

theorem isIdentifier_numbered (hword : IsIdentifier word) (n : Nat) :
    IsIdentifier (numbered word n) := by
  by_cases hn : n = 0
  · rw [hn, numbered_zero]
    exact hword
  · rw [IsIdentifier, toList_numbered word hn]
    refine IsToken.append hword fun c hc => ?_
    have hdigit : c.isDigit = true := Nat.isDigit_of_mem_toDigits (by omega) (by omega) hc
    simp [isTokenChar, Char.isAlphanum, hdigit]

/-- A new name of an identifier is one. -/
theorem isIdentifier_newName
    (hnumbered : ∀ pair ∈ before, ∃ k, pair.2.exportName = numbered pair.2.localName k)
    (hword : IsIdentifier word) : IsIdentifier (newName types before word) := by
  unfold newName
  cases hfound : before.find? fun pair => IsFor types word pair with
  | none => exact hword
  | some pair =>
      have hfor : IsFor types word pair := by simpa using List.find?_some hfound
      obtain ⟨k, hk⟩ := hnumbered pair (List.mem_of_find?_eq_some hfound)
      rw [Option.map_some, Option.getD_some, hk, hfor.1]
      exact isIdentifier_numbered hword k

/-! ## One alias -/

theorem renameOccurrences_of_same {item : Alias} (text : String)
    (h : item.localName = "" ∨ item.localName = item.exportName) :
    renameOccurrences text item = text :=
  if_pos h

theorem renameOccurrences_of_not_found {item : Alias} {text : String}
    (h : ¬ item.localName.toList <:+: text.toList) : renameOccurrences text item = text := by
  unfold renameOccurrences
  split
  · rfl
  · rw [replaceAll_eq_self item.exportName.toList h, String.ofList_toList]

/-- An identifier that stands in no longer token is renamed as a token. -/
theorem renameOccurrences_eq_renameTokens {item : Alias} {text : String}
    (hidentifier : IsIdentifier item.localName)
    (h : ∀ word ∈ tokensOf text, item.localName.toList <:+: word.toList →
      word = item.localName) :
    renameOccurrences text item =
      renameTokens (fun word => if word = item.localName then item.exportName else word) text := by
  -- either nothing is renamed, or each occurrence is a token
  by_cases hsame : item.localName = "" ∨ item.localName = item.exportName
  · have hid : ∀ word ∈ tokensOf text,
        (if word = item.localName then item.exportName else word) = id word := by
      intro word hword
      split
      · rename_i hlocal
        rcases hsame with hempty | hsame
        · exact absurd (congrArg String.toList hempty) hidentifier.1
        · rw [← hsame, hlocal, id]
      · rfl
    rw [renameOccurrences_of_same text hsame, renameTokens_congr hid, renameTokens_id]
  · have hwhole : ∀ t ∈ tokens text.toList, item.localName.toList <:+: t →
        t = item.localName.toList := by
      intro t ht hfound
      have hword := h _ (List.mem_map_of_mem ht) (String.toList_ofList.symm ▸ hfound)
      rw [← hword, String.toList_ofList]
    unfold renameOccurrences
    rw [if_neg hsame, replaceAll_eq_mapTokens _ hidentifier hwhole]
    refine congrArg String.ofList (mapTokens_congr fun t _ => ?_)
    have hiff : String.ofList t = item.localName ↔ t = item.localName.toList := by
      rw [← String.toList_inj, String.toList_ofList]
    simp only [hiff]
    split
    · rfl
    · rw [String.toList_ofList]

/-- An alias that is for no token leaves the new names as they are. -/
theorem renameTokens_newName_concat (h : ∀ word ∈ tokensOf signature, ¬ IsFor types word pair) :
    renameTokens (newName types (before ++ [pair])) signature =
      renameTokens (newName types before) signature := by
  refine renameTokens_congr fun word hword => ?_
  rw [newName_concat, if_neg fun hfor => h word hword hfor.2]

/-- An identifier that is found only in its own tokens is renamed there. -/
theorem renameOccurrences_newName_of_isIdentifier
    (hnumbered : ∀ pair ∈ before, ∃ k, pair.2.exportName = numbered pair.2.localName k)
    (hidentifier : IsIdentifier pair.2.localName)
    (hown : ∀ word ∈ tokensOf signature,
      pair.2.localName.toList <:+: (newName types before word).toList →
        newName types before word = word ∧ IsFor types word pair) :
    renameOccurrences (renameTokens (newName types before) signature) pair.2 =
      renameTokens (newName types (before ++ [pair])) signature := by
  have hwords : ∀ word ∈ tokensOf signature, IsIdentifier (newName types before word) :=
    fun word hword => isIdentifier_newName hnumbered (isIdentifier_of_mem_tokensOf hword)
  have hwhole : ∀ word ∈ tokensOf (renameTokens (newName types before) signature),
      pair.2.localName.toList <:+: word.toList → word = pair.2.localName := by
    rw [tokensOf_renameTokens hwords]
    intro renamed hrenamed hfound
    obtain ⟨word, hword, rfl⟩ := List.mem_map.mp hrenamed
    obtain ⟨hkept, hfor⟩ := hown word hword hfound
    rw [hkept, hfor.1]
  rw [renameOccurrences_eq_renameTokens hidentifier hwhole, renameTokens_renameTokens hwords]
  refine renameTokens_congr fun word hword => ?_
  rw [newName_concat, Function.comp_apply]
  by_cases hlocal : newName types before word = pair.2.localName
  · rw [if_pos hlocal, if_pos (hown word hword (hlocal ▸ List.infix_rfl))]
  · rw [if_neg hlocal, if_neg fun h => hlocal (h.1.trans h.2.1.symm)]

/-- One alias more.  The text with the new names so far becomes the text with the new names that
count the alias as well. -/
theorem renameOccurrences_newName
    (hnumbered : ∀ pair ∈ before, ∃ k, pair.2.exportName = numbered pair.2.localName k)
    (hfinds : pair.2.localName ≠ "" → pair.2.localName ≠ pair.2.exportName →
      FindsOwnTokens types before pair signature) :
    renameOccurrences (renameTokens (newName types before) signature) pair.2 =
      renameTokens (newName types (before ++ [pair])) signature := by
  by_cases hchanges : pair.2.localName = "" ∨ pair.2.localName = pair.2.exportName
  · rw [renameOccurrences_of_same _ hchanges, renameTokens_newName_concat]
    rintro word hword ⟨rfl, hne, _⟩
    rcases hchanges with hempty | hsame
    · exact (isIdentifier_of_mem_tokensOf hword).1 (congrArg String.toList hempty)
    · exact hne hsame.symm
  · rw [not_or] at hchanges
    obtain ⟨htokens, hnowhere⟩ := hfinds hchanges.1 hchanges.2
    by_cases hidentifier : IsIdentifier pair.2.localName
    · exact renameOccurrences_newName_of_isIdentifier hnumbered hidentifier (htokens hidentifier)
    · rw [renameOccurrences_of_not_found (hnowhere hidentifier), renameTokens_newName_concat]
      rintro word hword ⟨rfl, _⟩
      exact hidentifier (isIdentifier_of_mem_tokensOf hword)

/-! ## All aliases -/

/-- **A signature is renamed at once.**  If every alias finds only its own tokens, renaming by one
after the other renames all tokens at the same time. -/
theorem foldl_renameOccurrences {aliases : List (Path × Alias)}
    (hnumbered : ∀ pair ∈ aliases, ∃ k, pair.2.exportName = numbered pair.2.localName k)
    (hapart : KeepsApart types aliases signature) :
    aliases.foldl (fun text pair => renameOccurrences text pair.2) signature =
      renameTokens (newName types aliases) signature := by
  have htake (k : Nat) (hk : k ≤ aliases.length) :
      (aliases.take k).foldl (fun text pair => renameOccurrences text pair.2) signature =
        renameTokens (newName types (aliases.take k)) signature := by
    induction k with
    | zero => rw [List.take_zero, List.foldl_nil, newName_nil, renameTokens_id]
    | succ k ih =>
        have hbefore : ∀ pair ∈ aliases.take k,
            ∃ k, pair.2.exportName = numbered pair.2.localName k :=
          fun pair hpair => hnumbered pair (List.mem_of_mem_take hpair)
        rw [← List.take_concat_get' aliases k hk, List.foldl_concat, ih (by omega)]
        exact renameOccurrences_newName hbefore (hapart k hk)
  have hall := htake aliases.length (Nat.le_refl _)
  rwa [List.take_length] at hall

/-- The name of a type becomes its export name, if the aliases of its file give it that name. -/
theorem newName_of_mem {aliases : List (Path × Alias)} {type : Path × String} {exportName : String}
    (htypes : ∀ other ∈ types, other.2 = type.2 → other = type)
    (hexport : ∃ pair ∈ aliases, pair.2 = ⟨type.2, exportName⟩ ∧ type.1.Same pair.1)
    (hunique : ∀ pair ∈ aliases, pair.2.localName = type.2 → type.1.Same pair.1 →
      pair.2.exportName = exportName) (h : type ∈ types) :
    newName types aliases type.2 = exportName := by
  unfold newName
  cases hfound : aliases.find? fun pair => IsFor types type.2 pair with
  | none =>
      obtain ⟨⟨file, item⟩, hpair, rfl, hfile⟩ := hexport
      rw [List.find?_eq_none] at hfound
      by_contra hne
      refine hfound _ hpair (decide_eq_true ⟨rfl, fun heq => hne heq.symm, ?_⟩)
      intro other hother hname
      rwa [htypes other hother hname]
  | some pair =>
      have hfor : IsFor types type.2 pair := by simpa using List.find?_some hfound
      exact hunique pair (List.mem_of_find?_eq_some hfound) hfor.1 (hfor.2.2 type h rfl)

end WebComponents.Exports
