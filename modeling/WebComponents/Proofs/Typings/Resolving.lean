import WebComponents.Proofs.Path.ShortestWays
import WebComponents.Proofs.Typings.Specifiers

/-!
# Where the specifier of the typings leads

A specifier is read in the directory of the file that it stands in, and the extension `.d.ts` is
added to it.  The specifier of the typings consists of the way to their directory and their name,
with or without a `./` in front.  A specifier is text, and so it can name this place only if the way
goes along names that are texts.  Then it leads to the place where the typings are copied to, and
otherwise it leads elsewhere (`leadsToTypings_iff`):

```text
file                          types          specifier                     leads to
/dist/types/card/card.d.ts    /dist/types    ../kiln-public-runtime        /dist/types
/home/ÿ/a.d.ts                /home/ÿ/types  ./types/kiln-public-runtime   /home/ÿ/types
/dist/a.d.ts                  /dist/ÿ        ./�/kiln-public-runtime       /dist/�
```

Here `ÿ` is a stray.  A backslash in the directory of the typings would be turned into a slash on
the way.
-/

namespace WebComponents.Typings

open WebComponents.Path Text

variable {typesDir file : Path} {strays : Strays} {segments : List Segment}
  {name extension : String}

/-- The segments of the way to the typings. -/
def typingsWay (typesDir file : Path) : List Segment :=
  wayBetween (cleanSegments file.directory.segments) (cleanSegments typesDir.segments) ++
    [.name typingsName]

theorem wayToTypings_eq_ofSegments (typesDir file : Path) :
    wayToTypings typesDir file = ofSegments (typingsWay typesDir file) := by
  rw [wayToTypings_eq, typingsWay]

theorem isInner_of_mem_typingsWay (htypes : typesDir.isAbsolute = true)
    (hfile : file.directory.isAbsolute = true) :
    ∀ segment ∈ typingsWay typesDir file, segment.IsInner := by
  intro segment hsegment
  rcases List.mem_append.mp hsegment with hway | hname
  · exact isInner_of_mem_wayBetween htypes hfile segment hway
  · rw [List.mem_singleton.mp hname]
    exact isName_typingsName

/-- There is a backslash on the way only if there is one in the path of the types. -/
theorem backslash_notMem_wayToTypings (htypes : typesDir.isAbsolute = true)
    (hfile : file.directory.isAbsolute = true) (hbackslash : '\\' ∉ typesDir.text.toList) :
    '\\' ∉ (wayToTypings typesDir file).text.toList := by
  rw [wayToTypings_eq_ofSegments, ofSegments]
  intro hmem
  rcases mem_text_foldl_join (isInner_of_mem_typingsWay htypes hfile) hmem with
    hempty | hslash | ⟨segment, hsegment, hc⟩
  · cases hempty
  · cases hslash
  rcases List.mem_append.mp hsegment with hway | hname
  · rcases eq_parent_or_mem_of_mem_wayBetween hway with rfl | htarget
    · revert hc
      decide
    · have hinner := isInner_of_mem_wayBetween htypes hfile segment hway
      cases segment with
      | root => exact hinner
      | current => exact hinner
      | parent =>
          revert hc
          decide
      | name text =>
          exact hbackslash (mem_text_of_mem_segments (mem_of_mem_cleanSegments htarget) hc)
  · rw [List.mem_singleton.mp hname] at hc
    revert hc
    decide

theorem segments_wayToTypings (htypes : typesDir.isAbsolute = true)
    (hfile : file.directory.isAbsolute = true) :
    (wayToTypings typesDir file).segments = typingsWay typesDir file := by
  rw [wayToTypings_eq_ofSegments]
  exact segments_ofSegments_of_inner (isInner_of_mem_typingsWay htypes hfile)

/-- Read in a directory, the specifier is the way to the typings as it is shown; a `./` in front
adds nothing. -/
theorem segments_typingsSpecifier (htypes : typesDir.isAbsolute = true)
    (hfile : file.directory.isAbsolute = true) (hbackslash : '\\' ∉ typesDir.text.toList)
    (strays : Strays) :
    (Path.mk (typingsSpecifier typesDir file strays)).isAbsolute = false ∧
      (Path.mk (typingsSpecifier typesDir file strays)).segments.filter (· ≠ .current) =
        (typingsWay typesDir file).map (Segment.shown strays) := by
  have hslashed : ((wayToTypings typesDir file).slashed strays).toList =
      strays.shown (wayToTypings typesDir file).text.toList := by
    rw [toList_slashed, map_turned_eq_self]
    exact Strays.notMem_shown (by decide) (backslash_notMem_wayToTypings htypes hfile hbackslash)
  have hinner := isInner_of_mem_typingsWay htypes hfile
  have hsegments := segments_wayToTypings htypes hfile
  have hrelative : (wayToTypings typesDir file).isAbsolute = false :=
    isAbsolute_eq_false_of_inner (hsegments ▸ hinner)
  have hnames : namesIn ((wayToTypings typesDir file).slashed strays).toList =
      (typingsWay typesDir file).map (Segment.shown strays) := by
    rw [hslashed, namesIn_shown, ← filter_segments_of_relative hrelative, hsegments,
      filter_eq_self_of_inner hinner]
  rw [typingsSpecifier_eq]
  -- from here on it only counts which names the way has, and whether it begins with a dot
  generalize (wayToTypings typesDir file).slashed strays = way at hnames ⊢
  split
  · rename_i hdot
    have hway : (Path.mk way).isAbsolute = false := by simp [isAbsolute, hdot]
    exact ⟨hway, (filter_segments_of_relative hway).trans hnames⟩
  · have htext : ("./" ++ way).toList = ['.'] ++ '/' :: way.toList := by
      rw [String.toList_append]
      rfl
    have hway : (Path.mk ("./" ++ way)).isAbsolute = false := by
      rw [isAbsolute, htext]
      rfl
    refine ⟨hway, ?_⟩
    rw [filter_segments_of_relative hway, htext, namesIn_append_slash, namesIn_dot,
      List.nil_append, hnames]

theorem text_join_name_append (base : Path) (hname : IsName name) (extension : String)
    (hlong : IsName (name ++ extension)) :
    (base.join ⟨name⟩).text ++ extension = (base.join ⟨name ++ extension⟩).text := by
  have hrelative {text : String} (h : IsName text) : (Path.mk text).isAbsolute = false := by
    have hinner : (Segment.name text).IsInner := h
    simpa only [Segment.text] using isAbsolute_of_isInner hinner
  refine String.toList_injective ?_
  rw [String.toList_append, toList_join (hrelative hname), toList_join (hrelative hlong),
    String.toList_append, List.append_assoc]

/-- An extension goes to the last name. -/
theorem segments_ofSegments_append (hsegments : IsSegments segments) (hname : IsName name)
    (hlong : IsName (name ++ extension)) :
    (Path.mk ((ofSegments (segments ++ [.name name])).text ++ extension)).segments =
      segments ++ [.name (name ++ extension)] := by
  have hjoin : ofSegments (segments ++ [.name name]) = (ofSegments segments).join ⟨name⟩ := by
    rw [ofSegments, List.foldl_append]
    rfl
  have hinner : (Segment.name (name ++ extension)).IsInner := hlong
  rw [hjoin, text_join_name_append _ hname extension hlong]
  exact (segments_join_inner hinner).trans (by rw [segments_ofSegments hsegments])

theorem isName_typingsFile : IsName (typingsName ++ ".d.ts") := by
  refine ⟨?_, ?_, ?_, ?_⟩ <;> decide

theorem segments_typingsPath (typesDir : Path) :
    (typingsPath typesDir).segments =
      typesDir.segments ++ [.name (typingsName ++ ".d.ts")] := by
  have hinner : (Segment.name (typingsName ++ ".d.ts")).IsInner := isName_typingsFile
  have hjoin := @segments_join_inner typesDir _ hinner
  rw [Segment.text] at hjoin
  rw [typingsPath, hjoin]

/-- The specifier, read in the directory of the file, leads to the copied typings. -/
def LeadsToTypings (strays : Strays) (typesDir file : Path) : Prop :=
  Path.Same ⟨(file.directory.resolve ⟨typingsSpecifier typesDir file strays⟩).text ++ ".d.ts"⟩
    (typingsPath typesDir)

/-- The names of the types' directory that the directory of the file does not share are texts. -/
def HasTextWay (strays : Strays) (typesDir file : Path) : Prop :=
  ∀ name, .name name ∈
    wayBetween (cleanSegments file.directory.segments) (cleanSegments typesDir.segments) →
    strays.IsText name

theorem isText_typingsName (strays : Strays) : strays.IsText typingsName := by
  have hascii : typingsName.toList.all (fun c => decide (c.toNat < 0x80)) = true := by decide
  exact fun c hc => strays.byte?_ascii c (of_decide_eq_true (List.all_eq_true.mp hascii c hc))

/-- Whoever reads the specifier goes back as far as the way does, and then along the names as they
are shown. -/
theorem cleanSegments_join_typingsSpecifier {shared back forth : List String}
    (htypes : typesDir.isAbsolute = true) (hfile : file.directory.isAbsolute = true)
    (hbackslash : '\\' ∉ typesDir.text.toList)
    (hfrom : cleanSegments file.directory.segments = .root :: (shared ++ back).map .name)
    (hway : wayBetween (cleanSegments file.directory.segments) (cleanSegments typesDir.segments) =
      List.replicate back.length .parent ++ forth.map .name) :
    cleanSegments (file.directory.join ⟨typingsSpecifier typesDir file strays⟩).segments =
      .root :: (shared ++ forth.map (shownName strays)).map .name ++ [.name typingsName] := by
  obtain ⟨hrelative, hspecifier⟩ := segments_typingsSpecifier htypes hfile hbackslash strays
  have hsteps : cleanSegments (Path.mk (typingsSpecifier typesDir file strays)).segments =
      List.replicate back.length .parent ++
        (forth.map (shownName strays) ++ [typingsName]).map .name := by
    have hshown : (typingsWay typesDir file).map (Segment.shown strays) =
        List.replicate back.length .parent ++
          (forth.map (shownName strays) ++ [typingsName]).map .name := by
      have hname := shownName_eq_self_iff.mpr (isText_typingsName strays)
      simp [typingsWay, hway, Segment.shown, hname, Function.comp_def]
    rw [cleanSegments, ← foldl_cleanStep_filter, hspecifier, hshown]
    exact cleanSegments_of_isWay ⟨_, _, rfl⟩
  rw [cleanSegments_join_way hrelative hfrom hsteps]
  simp

/-- A specifier leads to the typings exactly if it can tell the way. -/
theorem leadsToTypings_iff (htypes : typesDir.isAbsolute = true)
    (hclean : typesDir.clean.Same typesDir) (hbackslash : '\\' ∉ typesDir.text.toList)
    (hfile : file.directory.isAbsolute = true) (strays : Strays) :
    LeadsToTypings strays typesDir file ↔ HasTextWay strays typesDir file := by
  obtain ⟨fileNames, hfrom⟩ := isRooted_cleanSegments hfile
  obtain ⟨typesNames, hto⟩ := isRooted_cleanSegments htypes
  -- the names of the two directories part after the shared ones
  obtain ⟨shared, back, forth, rfl, rfl, _, hparted⟩ := exists_wayBetween_eq fileNames typesNames
  have hway : wayBetween (cleanSegments file.directory.segments) (cleanSegments typesDir.segments) =
      List.replicate back.length .parent ++ forth.map .name := by
    rw [hfrom, hto, wayBetween, if_pos rfl, hparted]
  have hcopied : (typingsPath typesDir).segments =
      .root :: (shared ++ forth).map .name ++ [.name (typingsName ++ ".d.ts")] := by
    have hcleaned : cleanSegments typesDir.segments = typesDir.segments := by
      rw [← segments_clean]
      exact hclean
    rw [segments_typingsPath, ← hcleaned, hto]
  have hread : (Path.mk ((file.directory.resolve
      ⟨typingsSpecifier typesDir file strays⟩).text ++ ".d.ts")).segments =
      .root :: (shared ++ forth.map (shownName strays)).map .name ++
        [.name (typingsName ++ ".d.ts")] := by
    have hinner : IsSegments (.root :: (shared ++ forth.map (shownName strays)).map .name) := by
      have hnames := isInner_of_cleanSegments_eq hto
      simp only [List.map_append, List.forall_mem_append] at hnames
      have hshown : ∀ segment ∈ (forth.map (shownName strays)).map Segment.name,
          segment.IsInner := by
        intro segment hsegment
        rw [List.map_map] at hsegment
        obtain ⟨name, hname, rfl⟩ := List.mem_map.mp hsegment
        exact isName_shownName (hnames.2 _ (List.mem_map_of_mem hname))
      simpa only [IsSegments, List.map_append, List.forall_mem_append] using ⟨hnames.1, hshown⟩
    rw [resolve, clean, cleanSegments_join_typingsSpecifier htypes hfile hbackslash hfrom hway]
    exact segments_ofSegments_append hinner isName_typingsName isName_typingsFile
  calc LeadsToTypings strays typesDir file
      ↔ ∀ name ∈ forth, shownName strays name = name := by
        rw [LeadsToTypings, Same, hread, hcopied]
        simp
    _ ↔ ∀ name ∈ forth, strays.IsText name :=
        forall₂_congr fun _ _ => shownName_eq_self_iff
    _ ↔ HasTextWay strays typesDir file := by
        rw [HasTextWay, hway]
        simp

end WebComponents.Typings
