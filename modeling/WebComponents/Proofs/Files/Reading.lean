import WebComponents.Proofs.Files.Refilling

/-!
# What can be read after a write

A write puts one file, either at a free location or over a file, and makes directories before that.
So every path that led somewhere still leads there (`spotOf_of_write`), and the path of the file
leads to where it was put, also if a link on the way was dangling before (`exists_of_write`).

Hence the text that was written can be read (`readText_of_write`), and so can every other text,
unless its path leads to the file (`readText_of_write_or`).
-/

namespace WebComponents.Files

open FileTree

namespace FileTree

variable {tree later : FileTree} {new : Entry → Prop} {path other : Path}
  {here there location : Location} {links : Nat} {steps : List Step} {entry : Entry}
  {content : ByteArray} {text : String} {name : String}

/-! ## Where paths lead -/

theorem Adds.spotOf_eq (h : tree.Adds new later)
    (hspot : tree.spotOf false path = .ok (.found location)) :
    later.spotOf false path = .ok (.found location) := by
  obtain ⟨hcheck, hleads⟩ := spotOf_eq_found_iff.mp hspot
  exact spotOf_eq_found_iff.mpr ⟨hcheck, h.startOf_eq path ▸ hleads.mono h⟩

theorem sameShape_put (hfile : tree.lookup location = some (.file content)) (new : ByteArray) :
    tree.SameShape (tree.put location (.file new)) where
  workDir_eq := rfl
  lookup_eq other := by
    rcases lookup_put_eq_or tree location other (.file new) with heq | ⟨rfl, heq⟩
    · exact Or.inl heq
    · exact Or.inr ⟨content, new, hfile, heq⟩

/-- A walk that only lacks its last entry arrives when this is put there. -/
theorem leads_put_of_walk {creating : Bool}
    (h : tree.walk creating links here steps = .ok (.vacant there name)) (content : ByteArray) :
    (tree.put (there ++ [name]) (.file content)).Leads links here steps (there ++ [name]) := by
  have hadds : tree.Adds Entry.IsFile (tree.put (there ++ [name]) (.file content)) :=
    (Adds.refl _ tree).put (lookup_of_walk_eq_vacant h) trivial
  fun_induction walk tree creating links here steps with
  | case2 _ _ _ ih => exact .stay (ih h)
  | case3 _ _ _ ih => exact .slash (ih h)
  | case4 _ _ _ ih => exact .up (ih h)
  | case7 _ here _ hlength _ _ =>
      cases h
      have hput : (tree.put (there ++ [name]) (.file content)).lookup (there ++ [name]) =
          some (.file content) := by
        rw [lookup_put _ _ _ _ (List.append_ne_nil_of_right_ne_nil _ (List.cons_ne_nil _ _)),
          if_pos rfl]
      exact .file (Nat.not_lt.mp hlength) hput
  | case9 _ _ _ _ _ hlength hlookup ih =>
      exact .directory (Nat.not_lt.mp hlength) (hadds.lookup_of_some hlookup) (ih h)
  | case13 _ _ _ _ hlength _ hlookup _ _ ih =>
      exact .link (Nat.not_lt.mp hlength) (hadds.lookup_of_some hlookup) (ih h)
  | _ => cases h

/-- What is written is put where the path leads from then on, at a free location or over a file. -/
theorem exists_of_writeText (h : tree.writeText path text = .ok later) :
    ∃ location, later = tree.put location (.file text.toUTF8) ∧
      later.spotOf false path = .ok (.found location) ∧
      (tree.lookup location = none ∨ ∃ content, tree.lookup location = some (.file content)) := by
  obtain ⟨hcheck, ⟨directory, name, rfl, hwalk⟩ | ⟨location, content, rfl, hfile, hwalk⟩⟩ :=
    walk_of_writeText h
  · have hfound := spotOf_eq_found_iff.mpr ⟨hcheck, leads_put_of_walk hwalk text.toUTF8⟩
    exact ⟨_, rfl, hfound, Or.inl (lookup_of_walk_eq_vacant hwalk)⟩
  · have hfound := spotOf_eq_found_iff.mpr ⟨hcheck, leads_of_walk hwalk⟩
    exact ⟨location, rfl, (sameShape_put hfile _).spotOf_eq.trans hfound, Or.inr ⟨content, hfile⟩⟩

theorem spotOf_of_writeText (h : tree.writeText path text = .ok later)
    (hspot : tree.spotOf false other = .ok (.found location)) :
    later.spotOf false other = .ok (.found location) := by
  obtain ⟨put, rfl, _, hfree | ⟨content, hfile⟩⟩ := exists_of_writeText h
  · have hadds : tree.Adds Entry.IsFile (tree.put put (.file text.toUTF8)) :=
      (Adds.refl _ tree).put hfree trivial
    exact hadds.spotOf_eq hspot
  · exact (sameShape_put hfile _).spotOf_eq.trans hspot

end FileTree

/-! ## The whole write -/

variable {tree later : FileTree} {file : GeneratedFile} {path : Path} {location : Location}
  {text : String} {result : Except Problem WriteResult}

/-- Of a file that is always written, either nothing but directories remains, or it is put where its
path leads from then on. -/
theorem exists_of_write (hrule : file.overwrite = .always) (h : file.write tree = (result, later)) :
    (∃ problem, result = .error problem) ∧ tree.Adds (· = .directory) later ∨
      result = .ok .written ∧ ∃ made put, tree.Adds (· = .directory) made ∧
        later = made.put put (.file file.content.toUTF8) ∧
        made.writeText file.path file.content = .ok later ∧
        later.spotOf false file.path = .ok (.found put) := by
  have hadds := adds_createParents tree file.path
  rcases @write_eq tree file (by simp [hrule]) with
    ⟨problem, _, heq⟩ | ⟨_, ⟨written, hwritten, heq⟩ | ⟨problem, heq⟩⟩
  · cases h.symm.trans heq
    exact Or.inl ⟨⟨problem, rfl⟩, hadds⟩
  · cases h.symm.trans heq
    obtain ⟨put, hput, hspot, _⟩ := exists_of_writeText hwritten
    exact Or.inr ⟨rfl, _, put, hadds, hput, hwritten, hspot⟩
  · cases h.symm.trans heq
    exact Or.inl ⟨⟨problem, rfl⟩, hadds⟩

/-- A file is put into a directory that is there. -/
theorem write_of_vacant {above : Path} {directory : Location} {name : String}
    (hrule : file.overwrite = .always) (hparent : file.path.parent? = some above)
    (habove : tree.isDirectory above = true)
    (hspot : tree.spotOf true file.path = .ok (.vacant directory name)) :
    file.write tree =
      (.ok .written, tree.put (directory ++ [name]) (.file file.content.toUTF8)) := by
  have hmade : createParents tree file.path = (.ok (), tree) := by
    rw [createParents, hparent]
    simp only [createDirectories_of_isDirectory habove]
    rfl
  have hwrite : tree.writeText file.path file.content =
      .ok (tree.put (directory ++ [name]) (.file file.content.toUTF8)) := by
    rw [writeText, writeBytes, hspot]
    rfl
  rw [GeneratedFile.write, if_neg (by simp [hrule]), writeThrough, hmade]
  simp only [writeContent, hwrite]
  rfl

/-- Paths lead where they led. -/
theorem spotOf_of_write (hrule : file.overwrite = .always) (h : file.write tree = (result, later))
    (hspot : tree.spotOf false path = .ok (.found location)) :
    later.spotOf false path = .ok (.found location) := by
  rcases exists_of_write hrule h with ⟨_, hadds⟩ | ⟨_, made, put, hadds, _, hwrite, _⟩
  · exact hadds.spotOf_eq hspot
  · exact spotOf_of_writeText hwrite (hadds.spotOf_eq hspot)

/-- What was there is there as it was, but for the file that is written. -/
theorem lookup_of_write {entry : Entry} (hrule : file.overwrite = .always)
    (h : file.write tree = (result, later)) (hentry : tree.lookup location = some entry) :
    later.lookup location = some entry ∨
      result = .ok .written ∧ later.spotOf false file.path = .ok (.found location) ∧
        later.lookup location = some (.file file.content.toUTF8) := by
  rcases exists_of_write hrule h with ⟨_, hadds⟩ | ⟨hresult, made, put, hadds, rfl, _, hspot⟩
  · exact Or.inl (hadds.lookup_of_some hentry)
  · rcases lookup_put_eq_or made put location (.file file.content.toUTF8) with
      heq | ⟨rfl, heq⟩
    · exact Or.inl (heq.trans (hadds.lookup_of_some hentry))
    · exact Or.inr ⟨hresult, hspot, heq⟩

/-- A text that was written can be read. -/
theorem readText_of_write (hrule : file.overwrite = .always)
    (h : file.write tree = (.ok .written, later)) :
    later.readText file.path = .ok file.content := by
  rcases exists_of_write hrule h with ⟨⟨_, hresult⟩, _⟩ | ⟨_, made, put, _, rfl, hwrite, hspot⟩
  · cases hresult
  · obtain ⟨other, hput, hother, hplace⟩ := exists_of_writeText hwrite
    cases hspot.symm.trans hother
    have hroot : put ≠ [] := by
      rintro rfl
      rcases hplace with hfree | ⟨_, hfile⟩
      · cases hfree
      · cases hfile
    exact readText_of_lookup hspot (by rw [lookup_put _ _ _ _ hroot, if_pos rfl])

/-- What could be read can still be read, unless the file is written over it. -/
theorem readText_of_write_or (hrule : file.overwrite = .always)
    (h : file.write tree = (result, later)) (hread : tree.readText path = .ok text) :
    later.readText path = .ok text ∨
      later.spotOf false path = later.spotOf false file.path ∧
        later.readText path = .ok file.content := by
  obtain ⟨location, content, hspot, hfile, htext⟩ := readText_eq_ok_iff.mp hread
  have hlater := spotOf_of_write hrule h hspot
  rcases lookup_of_write hrule h hfile with hkept | ⟨_, hplace, hnew⟩
  · exact Or.inl (readText_eq_ok_iff.mpr ⟨location, content, hlater, hkept, htext⟩)
  · exact Or.inr ⟨hlater.trans hplace.symm, readText_of_lookup hlater hnew⟩

end WebComponents.Files
