import WebComponents.Files.Write
import WebComponents.Proofs.Files.Directories

/-!
# Writing a file

The content of a file is written to a free location or over a file that the path leads to
(`exists_of_writeText_eq_ok`).  Before it, directories are added and nothing else
(`adds_createParents`), and a file that is to be created once is left alone where its path leads to
something (`write_of_holds`).  `write_eq` puts these together.
-/

namespace WebComponents.Files

open FileTree

namespace FileTree

variable {tree later made : FileTree} {path : Path} {location : Location} {entry : Entry}
  {content : ByteArray} {text : String}

/-! ## The content -/

theorem ne_nil_of_lookup_ne (h : tree.lookup location ≠ some .directory) : location ≠ [] := by
  rintro rfl
  exact h (if_pos rfl)

/-- A file is put where the walk lacks its last entry, or over the file at which it arrives. -/
theorem walk_of_writeText (h : tree.writeText path text = .ok later) :
    checkPath path = .ok () ∧
      ((∃ directory name, later = tree.put (directory ++ [name]) (.file text.toUTF8) ∧
        tree.walk true maxLinks (tree.startOf path) (stepsOf path.text.toList) =
          .ok (.vacant directory name)) ∨
      ∃ location content, later = tree.put location (.file text.toUTF8) ∧
        tree.lookup location = some (.file content) ∧
        tree.walk true maxLinks (tree.startOf path) (stepsOf path.text.toList) =
          .ok (.found location)) := by
  unfold writeText writeBytes at h
  obtain ⟨spot, hspot, h⟩ := bind_eq_ok_iff.mp h
  obtain ⟨_, hcheck, hwalk⟩ := bind_eq_ok_iff.mp hspot
  refine ⟨hcheck, ?_⟩
  cases spot with
  | vacant directory name =>
      cases h
      exact Or.inl ⟨directory, name, rfl, hwalk⟩
  | found location =>
      simp only at h
      split at h
      · rename_i content hfile
        cases h
        exact Or.inr ⟨location, content, rfl, hfile, hwalk⟩
      · cases h

/-- A file is written to a free location, or over a file that its path leads to. -/
theorem exists_of_writeText_eq_ok (h : tree.writeText path text = .ok later) :
    ∃ location, later = tree.put location (.file text.toUTF8) ∧
      (tree.lookup location = none ∨
        tree.spotOf false path = .ok (.found location) ∧
          ∃ content, tree.lookup location = some (.file content)) := by
  obtain ⟨hcheck, ⟨directory, name, hput, hwalk⟩ | ⟨location, content, hput, hfile, hwalk⟩⟩ :=
    walk_of_writeText h
  · exact ⟨directory ++ [name], hput, Or.inl (lookup_of_walk_eq_vacant hwalk)⟩
  · have hfound := spotOf_eq_found_iff.mpr ⟨hcheck, leads_of_walk hwalk⟩
    exact ⟨location, hput, Or.inr ⟨hfound, content, hfile⟩⟩

/-- No file loses its content, except one that the path leads to. -/
theorem lookup_of_writeText_eq_ok (h : tree.writeText path text = .ok later)
    (hfile : tree.lookup location = some (.file content))
    (hfound : tree.spotOf false path ≠ .ok (.found location)) :
    later.lookup location = some (.file content) := by
  obtain ⟨other, rfl, hother⟩ := exists_of_writeText_eq_ok h
  have hroot : location ≠ [] := ne_nil_of_lookup_ne (by rw [hfile]; exact nofun)
  have hne : other ≠ location := by
    rintro rfl
    rcases hother with hfree | ⟨hspot, _⟩
    · rw [hfree] at hfile
      cases hfile
    · exact hfound hspot
  rw [lookup_put _ _ _ _ hroot, if_neg hne, hfile]

end FileTree

/-! ## The whole write -/

variable {tree made : FileTree} {file : GeneratedFile} {location : Location} {content : ByteArray}

theorem adds_createParents (tree : FileTree) (path : Path) :
    tree.Adds (· = .directory) (createParents tree path).2 := by
  unfold createParents
  split
  · exact Adds.refl _ tree
  · rename_i above _
    exact adds_createDirectories tree above

theorem createDirectories_of_createParents {path above : Path} (hparent : path.parent? = some above)
    (h : createParents tree path = (.ok (), made)) :
    tree.createDirectories above = (.ok (), made) := by
  simp only [createParents, hparent] at h
  rcases hmade : tree.createDirectories above with ⟨_ | _, later⟩
  · rw [hmade] at h
    cases h
  · rw [hmade] at h
    cases h
    rfl

theorem write_of_holds (hrule : file.overwrite = .ifMissing) (h : tree.holds file.path = true) :
    file.write tree = (.ok .skipped, tree) :=
  if_pos ⟨hrule, h⟩

/-- A write that passes the look makes the directories above and then writes the content. -/
theorem write_eq (file : GeneratedFile)
    (h : ¬ (file.overwrite = .ifMissing ∧ tree.holds file.path = true)) :
    (∃ problem, (createParents tree file.path).1 = .error problem ∧
      file.write tree = (.error problem, (createParents tree file.path).2)) ∨
    (createParents tree file.path).1 = .ok () ∧
      ((∃ later, (createParents tree file.path).2.writeText file.path file.content = .ok later ∧
        file.write tree = (.ok .written, later)) ∨
      ∃ problem, file.write tree = (.error problem, (createParents tree file.path).2)) := by
  unfold GeneratedFile.write writeThrough writeContent
  rw [if_neg h]
  rcases createParents tree file.path with ⟨_ | _, made⟩
  · exact Or.inl ⟨_, rfl, rfl⟩
  · refine Or.inr ⟨rfl, ?_⟩
    simp only
    cases made.writeText file.path file.content with
    | error cause => exact Or.inr ⟨_, rfl⟩
    | ok later => exact Or.inl ⟨later, rfl, rfl⟩

end WebComponents.Files
