import WebComponents.Proofs.Text.Trimming
import WebComponents.Records.DocText

/-!
# The lines of a doc comment

A doc comment is put together from a description and its tags, each flattened to one line, and then
trimmed as a whole.  Flattening and trimming both change blanks, and a line break is a blank:

```text
description            tags                      lines
Opens\r\nthe dialog    deprecated "use\nshow"    Opens the dialog / @deprecated use show
\n\t                   since                     @since
the size \n            internal                  the size
```

No item can lose its line to another one.  Each flattened item is a single line
(`ne_break_of_mem_docLines`), and none of those that are shown is blank
(`exists_mem_of_mem_docLines`), so trimming ends at the first and at the last of them.
-/

namespace WebComponents.Records

open Metadata Text

/-! ## Flattening -/

/-- The text with one space for each pair of carriage return and line feed, and for each of the two
that is left. -/
def flattened (s : List Char) : List Char :=
  (replaceAll ['\r', '\n'] [' '] s).map fun c => if c = '\n' ∨ c = '\r' then ' ' else c

theorem flattenChars_eq (s : List Char) : flattenChars s = flattened s := by
  fun_induction flattenChars s with
  | case1 => rfl
  | case2 rest ih =>
      rw [ih]
      rfl
  | case3 c rest hpair ih =>
      have hhere : ['\r', '\n'].isPrefixOf (c :: rest) = false := by
        rw [Bool.eq_false_iff, ne_eq, List.isPrefixOf_iff_prefix]
        rintro ⟨more, hmore⟩
        cases hmore
        exact hpair more rfl rfl
      have hreplaced : replaceAll ['\r', '\n'] [' '] (c :: rest) =
          c :: replaceAll ['\r', '\n'] [' '] rest := by
        rw [replaceAll, replaceFrom, hhere]
        rfl
      rw [ih, flattened, flattened, hreplaced, List.map_cons]

/-- A line break is a blank, and a space in its place is one as well. -/
theorem isBlank_of_break (c : Char) :
    isBlank (if c = '\n' ∨ c = '\r' then ' ' else c) = isBlank c := by
  split
  · next hc => rcases hc with rfl | rfl <;> decide
  · rfl

theorem all_isBlank_flattenChars (s : List Char) :
    (flattenChars s).all isBlank = s.all isBlank := by
  fun_induction flattenChars s with
  | case1 => rfl
  | case2 rest ih =>
      have hblank : isBlank ' ' = true ∧ isBlank '\r' = true ∧ isBlank '\n' = true := by decide
      simp [hblank, ih]
  | case3 c rest hpair ih => rw [List.all_cons, List.all_cons, isBlank_of_break, ih]

/-- A text that is not blank is flattened to one that is not. -/
theorem exists_mem_flattenChars {s : List Char} (h : ¬ s.all isBlank = true) :
    ∃ c ∈ flattenChars s, isBlank c = false := by
  rw [← all_isBlank_flattenChars] at h
  simpa using h

theorem ne_break_of_mem_flattenChars {s : List Char} {c : Char} (h : c ∈ flattenChars s) :
    c ≠ '\n' ∧ c ≠ '\r' := by
  rw [flattenChars_eq] at h
  obtain ⟨d, -, rfl⟩ := List.mem_map.mp h
  split
  · decide
  · next hd => exact not_or.mp hd

/-! ## Lines -/

/-- The lines of a doc comment: the description without blanks in front, unless it is blank, and a
line for each tag that is shown. -/
def docLines (docs : Docs) : List (List Char) :=
  (if docs.text.toList.all isBlank then [] else [trimStart (flattened docs.text.toList)]) ++
  (docs.tags.filter fun tag => tag.name ≠ "internal").map fun tag =>
    '@' :: tag.name.toList ++ ' ' :: flattened (tag.text?.getD "").toList

variable {docs : Docs}

/-- The lines of the tags that are shown. -/
theorem map_tagLine_shownTags (docs : Docs) :
    (shownTags docs).map tagLine =
      (docs.tags.filter fun tag => tag.name ≠ "internal").map fun tag =>
        '@' :: tag.name.toList ++ ' ' :: flattened (tag.text?.getD "").toList := by
  apply List.map_congr_left
  intro tag _
  rw [tagLine, flattenChars_eq]

/-- No line is blank. -/
theorem exists_mem_of_mem_docLines {line : List Char} (h : line ∈ docLines docs) :
    ∃ c ∈ line, isBlank c = false := by
  rcases List.mem_append.mp h with htext | htag
  · split at htext
    · cases htext
    · next hshown =>
        rw [List.mem_singleton.mp htext, ← flattenChars_eq]
        exact exists_mem_trimStart (exists_mem_flattenChars hshown)
  · obtain ⟨tag, -, rfl⟩ := List.mem_map.mp htag
    exact ⟨'@', List.mem_cons_self, by decide⟩

/-- No line has a line break if the names of the tags have none. -/
theorem ne_break_of_mem_docLines
    (h : ∀ tag ∈ docs.tags, '\r' ∉ tag.name.toList ∧ '\n' ∉ tag.name.toList)
    {line : List Char} (hline : line ∈ docLines docs) {c : Char} (hc : c ∈ line) :
    c ≠ '\n' ∧ c ≠ '\r' := by
  rcases List.mem_append.mp hline with htext | hshown
  · split at htext
    · cases htext
    · rw [List.mem_singleton.mp htext, ← flattenChars_eq] at hc
      exact ne_break_of_mem_flattenChars ((List.dropWhile_suffix isBlank).mem hc)
  · obtain ⟨tag, htag, rfl⟩ := List.mem_map.mp hshown
    obtain ⟨hreturn, hfeed⟩ := h tag (List.mem_of_mem_filter htag)
    rcases List.mem_append.mp hc with hname | htext
    · rcases List.mem_cons.mp hname with rfl | hname
      · decide
      · exact ⟨fun heq => hfeed (heq ▸ hname), fun heq => hreturn (heq ▸ hname)⟩
    · rcases List.mem_cons.mp htext with rfl | htext
      · decide
      · rw [← flattenChars_eq] at htext
        exact ne_break_of_mem_flattenChars htext

/-- A text that starts with a tag has no blank in front. -/
theorem trimStart_join_tagLines (tags : List DocTag) :
    trimStart (join '\n' (tags.map tagLine)) = join '\n' (tags.map tagLine) := by
  cases tags with
  | nil => rfl
  | cons tag tags =>
      have hsign : isBlank '@' = false := by decide
      rw [List.map_cons, join_cons, tagLine]
      exact trimStart_cons hsign _

/-- The text of a doc comment is that of its lines.  If the description is blank, trimming goes on
to the first tag. -/
theorem toList_docText (docs : Docs) :
    (docText docs).toList = join '\n' (trimLast (docLines docs)) := by
  have hbreak : isBlank '\n' = true := by decide
  rw [docText, String.toList_ofList, trim, ← trimEnd_join fun _ => exists_mem_of_mem_docLines,
    docLines, ← flattenChars_eq, ← map_tagLine_shownTags]
  by_cases htext : docs.text.toList.all isBlank = true
  · have hblank : ∀ c ∈ flattenChars docs.text.toList ++ ['\n'], isBlank c = true := by
      rw [← all_isBlank_flattenChars] at htext
      intro c hc
      rcases List.mem_append.mp hc with hc | hc
      · exact List.all_eq_true.mp htext c hc
      · rw [List.mem_singleton.mp hc, hbreak]
    rw [if_pos htext, List.nil_append, List.append_cons, trimStart_of_blank hblank,
      trimStart_join_tagLines]
  · rw [if_neg htext, trimStart_append (exists_mem_flattenChars htext)]
    cases (shownTags docs).map tagLine with
    | nil =>
        -- the break after the description is a blank at the end
        exact dropEndWhile_concat hbreak _
    | cons line lines => rfl

/-- **One line per item.**  If no tag's name holds a line break, the text of a doc comment has no
carriage return, and cut at line feeds it gives the description without blanks in front, unless it
is blank, and then a line for each tag that is shown, the last line without blanks at its end. -/
theorem split_docText
    (h : ∀ tag ∈ docs.tags, '\r' ∉ tag.name.toList ∧ '\n' ∉ tag.name.toList) :
    '\r' ∉ (docText docs).toList ∧
      split (· == '\n') (docText docs).toList = trimLast (docLines docs) := by
  have hlines : ∀ line ∈ trimLast (docLines docs), ∀ c ∈ line, c ≠ '\n' ∧ c ≠ '\r' := by
    intro line hline c hc
    obtain ⟨whole, hwhole, hmem⟩ := mem_of_mem_trimLast hline hc
    exact ne_break_of_mem_docLines h hwhole hmem
  rw [toList_docText]
  constructor
  · intro hreturn
    rcases mem_join hreturn with heq | ⟨line, hline, hc⟩
    · exact absurd heq (by decide)
    · exact (hlines line hline _ hc).2 rfl
  · apply split_join_eq_self (trimLast_ne_nil _)
    exact fun line hline hfeed => (hlines line hline _ hfeed).1 rfl

/-- A description and tags with line breaks of all kinds and blanks at both ends, and a tag that is
not shown. -/
theorem split_docText_dialog :
    let docs : Docs := ⟨" \n\tOpens\r\nthe\rdialog \n",
      [⟨"deprecated", some "use show()\n\rinstead "⟩, ⟨"internal", none⟩, ⟨"since", none⟩]⟩
    (∀ tag ∈ docs.tags, '\r' ∉ tag.name.toList ∧ '\n' ∉ tag.name.toList) ∧
      '\r' ∉ (docText docs).toList ∧ split (· == '\n') (docText docs).toList =
        ["Opens the dialog  ", "@deprecated use show()  instead ", "@since"].map String.toList := by
  intro docs
  have hnames : ∀ tag ∈ docs.tags, '\r' ∉ tag.name.toList ∧ '\n' ∉ tag.name.toList := by decide
  obtain ⟨hreturn, hlines⟩ := split_docText hnames
  refine ⟨hnames, hreturn, hlines.trans ?_⟩
  decide

end WebComponents.Records
