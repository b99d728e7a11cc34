import Mathlib.Data.List.Infix
import Mathlib.Data.List.SplitBy
import WebComponents.Text.Pieces

/-!
# Identifiers in a text

The tokens of a text are its longest runs of letters, digits, `_` and `$`.  `mapTokens` puts another
text in the place of each, all at the same time:

```text
(a: Foo, b: Bar) => void    ↦    (a: Foo1, b: Bar2) => void
```

Replacing the occurrences of one token is such a map if the token does not stand inside a longer one
(`replaceAll_eq_mapTokens`), and two maps after each other are one (`mapTokens_mapTokens`).
-/

namespace WebComponents.Text

/-! ## Tokens -/

/-- A letter, a digit, `_` or `$`. -/
def isTokenChar (c : Char) : Bool :=
  c.isAlphanum || c == '_' || c == '$'

/-- A run of such characters. -/
def IsToken (t : List Char) : Prop :=
  t ≠ [] ∧ ∀ c ∈ t, isTokenChar c = true

instance : DecidablePred IsToken := fun t =>
  -- over the characters of the run, not over all characters
  @instDecidableAnd _ _ _ (List.decidableBAll (fun c => isTokenChar c = true) t)

/-- The tokens and, each by itself, the characters between them. -/
def blocks (s : List Char) : List (List Char) :=
  s.splitBy fun c d => isTokenChar c && isTokenChar d

/-- The longest runs of letters, digits, `_` and `$`. -/
def tokens (s : List Char) : List (List Char) :=
  (blocks s).filter fun t => IsToken t

/-- The text with another text in the place of each token. -/
def mapTokens (f : List Char → List Char) (s : List Char) : List Char :=
  (blocks s).flatMap fun t => if IsToken t then f t else t

variable {s t rest : List Char} {f g : List Char → List Char} {c : Char}

/-- The text starts with no token. -/
def StartsApart (s : List Char) : Prop :=
  ∀ c ∈ s.head?, isTokenChar c = false

theorem IsToken.append (hs : IsToken s) (ht : ∀ c ∈ t, isTokenChar c = true) :
    IsToken (s ++ t) := by
  refine ⟨List.append_ne_nil_of_left_ne_nil hs.1 t, fun c hc => ?_⟩
  rcases List.mem_append.mp hc with hc | hc
  · exact hs.2 c hc
  · exact ht c hc

theorem not_isToken_singleton (h : isTokenChar c = false) : ¬ IsToken [c] := by
  intro htoken
  simpa [h] using htoken.2 c

theorem blocks_cons (h : isTokenChar c = false) : blocks (c :: rest) = [c] :: blocks rest := by
  rw [← List.singleton_append, blocks, List.splitBy_append]
  · rw [List.splitBy_of_isChain (List.cons_ne_nil c []) (List.isChain_singleton c)]
    rfl
  · intro first hfirst second _
    obtain rfl : c = first := by simpa using hfirst
    rw [h, Bool.false_and]

theorem blocks_append (ht : IsToken t) (hrest : StartsApart rest) :
    blocks (t ++ rest) = t :: blocks rest := by
  have hchain : t.IsChain fun c d => (isTokenChar c && isTokenChar d) = true := by
    refine (List.pairwise_iff_forall_sublist.mpr fun {c d} hsub => ?_).isChain
    rw [ht.2 c (hsub.subset (by simp)), ht.2 d (hsub.subset (by simp)), Bool.and_self]
  rw [blocks, List.splitBy_append, List.splitBy_of_isChain ht.1 hchain]
  · rfl
  · intro _ _ second hsecond
    rw [hrest second hsecond, Bool.and_false]

/-- A text that starts with such a character starts with a token that ends there. -/
theorem exists_token_append (rest : List Char) (hc : isTokenChar c = true) :
    ∃ t more, c :: rest = t ++ more ∧ IsToken t ∧ StartsApart more := by
  have hsingle : IsToken [c] := ⟨List.cons_ne_nil c [], by simpa using hc⟩
  induction rest generalizing c with
  | nil => exact ⟨[c], [], rfl, hsingle, by simp [StartsApart]⟩
  | cons d rest ih =>
      cases hd : isTokenChar d with
      | false => exact ⟨[c], d :: rest, rfl, hsingle, by simpa [StartsApart] using hd⟩
      | true =>
          obtain ⟨t, more, heq, ht, hmore⟩ := ih hd ⟨List.cons_ne_nil d [], by simpa using hd⟩
          exact ⟨c :: t, more, by rw [heq, List.cons_append], hsingle.append ht.2, hmore⟩

/-- A text is empty, starts apart, or starts with a token that ends there. -/
theorem tokens_induction {motive : List Char → Prop} (s : List Char) (nil : motive [])
    (apart : ∀ c rest, isTokenChar c = false → motive rest → motive (c :: rest))
    (token : ∀ t rest, IsToken t → StartsApart rest → motive rest → motive (t ++ rest)) :
    motive s := by
  induction hlength : s.length using Nat.strongRecOn generalizing s with
  | ind n ih =>
      subst hlength
      cases s with
      | nil => exact nil
      | cons c rest =>
          cases hc : isTokenChar c with
          | false => exact apart c rest hc (ih rest.length (by simp) rest rfl)
          | true =>
              obtain ⟨t, more, heq, ht, hmore⟩ := exists_token_append rest hc
              have hpos := List.length_pos_iff.mpr ht.1
              have hlength := congrArg List.length heq
              rw [List.length_append] at hlength
              rw [heq]
              exact token t more ht hmore (ih more.length (by omega) more rfl)

theorem tokens_cons (h : isTokenChar c = false) : tokens (c :: rest) = tokens rest := by
  rw [tokens, blocks_cons h, List.filter_cons_of_neg]
  · rfl
  · simpa using not_isToken_singleton h

theorem tokens_append (ht : IsToken t) (hrest : StartsApart rest) :
    tokens (t ++ rest) = t :: tokens rest := by
  rw [tokens, blocks_append ht hrest, List.filter_cons_of_pos]
  · rfl
  · simpa using ht

theorem isToken_of_mem_tokens (h : t ∈ tokens s) : IsToken t := by
  simpa using List.of_mem_filter h

/-! ## Maps over the tokens -/

theorem mapTokens_cons (f : List Char → List Char) (h : isTokenChar c = false) :
    mapTokens f (c :: rest) = c :: mapTokens f rest := by
  rw [mapTokens, blocks_cons h, List.flatMap_cons, if_neg (not_isToken_singleton h)]
  rfl

theorem mapTokens_append (f : List Char → List Char) (ht : IsToken t) (hrest : StartsApart rest) :
    mapTokens f (t ++ rest) = f t ++ mapTokens f rest := by
  rw [mapTokens, blocks_append ht hrest, List.flatMap_cons, if_pos ht]
  rfl

theorem startsApart_mapTokens (f : List Char → List Char) (h : StartsApart s) :
    StartsApart (mapTokens f s) := by
  cases s with
  | nil => exact h
  | cons c rest =>
      rw [mapTokens_cons f (h c rfl)]
      exact h

/-- Only what is put in the place of the text's tokens counts. -/
theorem mapTokens_congr (h : ∀ t ∈ tokens s, f t = g t) : mapTokens f s = mapTokens g s := by
  induction s using tokens_induction with
  | nil => rfl
  | apart c rest hc ih =>
      rw [tokens_cons hc] at h
      rw [mapTokens_cons f hc, mapTokens_cons g hc, ih h]
  | token t rest ht hrest ih =>
      rw [tokens_append ht hrest] at h
      rw [mapTokens_append f ht hrest, mapTokens_append g ht hrest, h t List.mem_cons_self,
        ih fun other hother => h other (List.mem_cons_of_mem _ hother)]

theorem mapTokens_id (s : List Char) : mapTokens id s = s := by
  induction s using tokens_induction with
  | nil => rfl
  | apart c rest hc ih => rw [mapTokens_cons id hc, ih]
  | token t rest ht hrest ih => rw [mapTokens_append id ht hrest, ih, id]

/-- Tokens in the place of tokens are the tokens of the new text. -/
theorem tokens_mapTokens (h : ∀ t ∈ tokens s, IsToken (f t)) :
    tokens (mapTokens f s) = (tokens s).map f := by
  induction s using tokens_induction with
  | nil => rfl
  | apart c rest hc ih =>
      rw [tokens_cons hc] at h ⊢
      rw [mapTokens_cons f hc, tokens_cons hc, ih h]
  | token t rest ht hrest ih =>
      rw [tokens_append ht hrest] at h ⊢
      rw [mapTokens_append f ht hrest,
        tokens_append (h t List.mem_cons_self) (startsApart_mapTokens f hrest), List.map_cons,
        ih fun other hother => h other (List.mem_cons_of_mem _ hother)]

/-- Two maps are one if the first puts in tokens. -/
theorem mapTokens_mapTokens (h : ∀ t ∈ tokens s, IsToken (f t)) :
    mapTokens g (mapTokens f s) = mapTokens (g ∘ f) s := by
  induction s using tokens_induction with
  | nil => rfl
  | apart c rest hc ih =>
      rw [tokens_cons hc] at h
      rw [mapTokens_cons f hc, mapTokens_cons g hc, mapTokens_cons (g ∘ f) hc, ih h]
  | token t rest ht hrest ih =>
      rw [tokens_append ht hrest] at h
      rw [mapTokens_append f ht hrest, mapTokens_append (g ∘ f) ht hrest,
        mapTokens_append g (h t List.mem_cons_self) (startsApart_mapTokens f hrest),
        ih fun other hother => h other (List.mem_cons_of_mem _ hother), Function.comp_apply]

/-! ## Replacing one token -/

variable {pattern : List Char} (replacement : List Char)

theorem replaceFrom_covered (pattern : List Char) (s rest : List Char) :
    replaceFrom pattern replacement s.length (s ++ rest) =
      replaceFrom pattern replacement 0 rest := by
  induction s with
  | nil => rfl
  | cons c s ih => exact ih

/-- Where no occurrence starts, the text stays. -/
theorem replaceFrom_append (h : ∀ start, start ≠ [] → start <:+ s → ¬ pattern <+: start ++ rest) :
    replaceFrom pattern replacement 0 (s ++ rest) =
      s ++ replaceFrom pattern replacement 0 rest := by
  induction s with
  | nil => rfl
  | cons c s ih =>
      have hhere : pattern.isPrefixOf (c :: (s ++ rest)) = false := by
        rw [Bool.eq_false_iff, ne_eq, List.isPrefixOf_iff_prefix]
        exact h (c :: s) (List.cons_ne_nil c s) (List.suffix_refl _)
      have hlater := ih fun start hstart hsuffix =>
        h start hstart (hsuffix.trans (List.suffix_cons c s))
      rw [List.cons_append, replaceFrom, hhere, List.cons_append, ← hlater]
      rfl

theorem replaceAll_eq_self (h : ¬ pattern <:+: s) : replaceAll pattern replacement s = s := by
  have hapart : replaceFrom pattern replacement 0 (s ++ []) = s ++ [] := by
    refine replaceFrom_append replacement fun start _ hsuffix hstarts => ?_
    rw [List.append_nil] at hstarts
    exact h (hstarts.isInfix.trans hsuffix.isInfix)
  rwa [List.append_nil] at hapart

theorem replaceAll_self_append (hpattern : pattern ≠ []) (rest : List Char) :
    replaceAll pattern replacement (pattern ++ rest) =
      replacement ++ replaceAll pattern replacement rest := by
  cases pattern with
  | nil => exact absurd rfl hpattern
  | cons c tail =>
      have hhere : (c :: tail).isPrefixOf (c :: (tail ++ rest)) = true := by
        rw [List.isPrefixOf_iff_prefix]
        exact List.prefix_append (c :: tail) rest
      rw [replaceAll, replaceAll, List.cons_append, replaceFrom, hhere,
        ← replaceFrom_covered replacement (c :: tail) tail rest]
      rfl

/-- A token at the start of a text lies in the text's first token. -/
theorem IsToken.prefix_of_prefix_append (hpattern : IsToken pattern) (hrest : StartsApart rest)
    (h : pattern <+: s ++ rest) : pattern <+: s := by
  rcases List.prefix_or_prefix_of_prefix h (List.prefix_append s rest) with hshort | hlong
  · exact hshort
  · obtain ⟨more, rfl⟩ := hlong
    cases more with
    | nil => exact (List.append_nil s).symm ▸ List.prefix_refl s
    | cons c more =>
        -- the token would go on with the character that stands apart
        have hmore : c :: more <+: rest := (List.prefix_append_right_inj s).mp h
        have hhead : c ∈ rest.head? := by
          obtain ⟨_, rfl⟩ := hmore
          rfl
        have htoken := hpattern.2 c (by simp)
        rw [hrest c hhead] at htoken
        cases htoken

/-- Replacing a token that stands in no longer one. -/
theorem replaceAll_eq_mapTokens (hpattern : IsToken pattern)
    (h : ∀ t ∈ tokens s, pattern <:+: t → t = pattern) :
    replaceAll pattern replacement s =
      mapTokens (fun t => if t = pattern then replacement else t) s := by
  induction s using tokens_induction with
  | nil => rfl
  | apart c rest hc ih =>
      rw [tokens_cons hc] at h
      have hhere : pattern.isPrefixOf (c :: rest) = false := by
        rw [Bool.eq_false_iff, ne_eq, List.isPrefixOf_iff_prefix]
        intro hstarts
        have hapart : StartsApart (c :: rest) := by
          intro d hd
          rwa [← Option.some_inj.mp hd]
        -- nothing of the token fits before the character that stands apart
        have hnil : pattern <+: [] := hpattern.prefix_of_prefix_append hapart hstarts
        exact hpattern.1 (List.prefix_nil.mp hnil)
      rw [mapTokens_cons _ hc, ← ih h, replaceAll, replaceFrom, hhere]
      rfl
  | token t rest ht hrest ih =>
      rw [tokens_append ht hrest] at h
      have hlater := ih fun other hother => h other (List.mem_cons_of_mem _ hother)
      rw [mapTokens_append _ ht hrest, ← hlater]
      by_cases heq : t = pattern
      · subst heq
        rw [if_pos rfl]
        exact replaceAll_self_append replacement ht.1 rest
      · rw [if_neg heq]
        refine replaceFrom_append replacement fun start _ hsuffix hstarts => ?_
        have hinside := hpattern.prefix_of_prefix_append hrest hstarts
        exact heq (h t List.mem_cons_self (hinside.isInfix.trans hsuffix.isInfix))

/-! ## In strings -/

/-- Letters, digits, `_` and `$`, at least one. -/
def IsIdentifier (name : String) : Prop :=
  IsToken name.toList

instance : DecidablePred IsIdentifier := fun name =>
  inferInstanceAs (Decidable (IsToken name.toList))

/-- The tokens of a string. -/
def tokensOf (text : String) : List String :=
  (tokens text.toList).map String.ofList

/-- The string with each token renamed. -/
def renameTokens (rename : String → String) (text : String) : String :=
  String.ofList (mapTokens (fun t => (rename (String.ofList t)).toList) text.toList)

variable {text : String} {rename next : String → String}

theorem isIdentifier_of_mem_tokensOf {word : String} (h : word ∈ tokensOf text) :
    IsIdentifier word := by
  obtain ⟨t, ht, rfl⟩ := List.mem_map.mp h
  rw [IsIdentifier, String.toList_ofList]
  exact isToken_of_mem_tokens ht

theorem renameTokens_congr (h : ∀ word ∈ tokensOf text, rename word = next word) :
    renameTokens rename text = renameTokens next text := by
  refine congrArg String.ofList (mapTokens_congr fun t ht => ?_)
  rw [h _ (List.mem_map_of_mem ht)]

theorem renameTokens_id (text : String) : renameTokens id text = text := by
  have hid : (fun t => (id (String.ofList t)).toList) = id := by
    funext t
    exact String.toList_ofList
  rw [renameTokens, hid, mapTokens_id, String.ofList_toList]

theorem tokensOf_renameTokens (h : ∀ word ∈ tokensOf text, IsIdentifier (rename word)) :
    tokensOf (renameTokens rename text) = (tokensOf text).map rename := by
  have htokens : ∀ t ∈ tokens text.toList, IsToken (rename (String.ofList t)).toList :=
    fun t ht => h _ (List.mem_map_of_mem ht)
  rw [tokensOf, renameTokens, String.toList_ofList, tokens_mapTokens htokens, tokensOf,
    List.map_map, List.map_map]
  refine List.map_congr_left fun t _ => ?_
  exact String.ofList_toList

theorem renameTokens_renameTokens (h : ∀ word ∈ tokensOf text, IsIdentifier (rename word)) :
    renameTokens next (renameTokens rename text) = renameTokens (next ∘ rename) text := by
  have htokens : ∀ t ∈ tokens text.toList, IsToken (rename (String.ofList t)).toList :=
    fun t ht => h _ (List.mem_map_of_mem ht)
  rw [renameTokens, renameTokens, String.toList_ofList, mapTokens_mapTokens htokens]
  refine congrArg String.ofList (mapTokens_congr fun t _ => ?_)
  rw [Function.comp_apply, String.ofList_toList, Function.comp_apply]

end WebComponents.Text
