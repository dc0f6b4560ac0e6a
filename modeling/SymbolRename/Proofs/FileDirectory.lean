import SymbolRename.Proofs.PathReading
import SymbolRename.Uri.FilePath

/-! # A renamed file and its directory

The URI of a file is a directory and the name of the file in it (`Uri.IsFile`), however it
was obtained (`Obtained.exists_isFile`).  A new name is written behind the directory, the
old extension behind the name, and the draft that comes of it is read again as a path.
`draft_cases` says what the draft can be, and `Strays` lists the names with which the file
ends up elsewhere: a file stays in its directory exactly if its name is none of these
(`renamedFile_keeps_directory_iff`).  A plain name is never one of them, unless the
directory is not settled (`IsFile.exists_renamedFile_eq`).
-/
namespace SymbolRename

namespace Uri

/-! ## URIs of files -/

/-- A URI names a file in a directory; both are written as paths have them, and the path does not
begin with an empty segment. -/
structure IsFile (u : Uri) (directory : List String) (file : String) : Prop where
  scheme_eq : u.scheme = "file"
  path_eq : u.path = .rooted (directory ++ [file])
  written : ∀ s ∈ directory ++ [file], IsWritten s
  front : directory.head? ≠ some ""

/-- The URIs that documents can have: they are read, made for a file, or renamed. -/
inductive Obtained : Uri → Prop
  | parsed {s : String} {u : Uri} : parse s = some u → Obtained u
  | ofFilePath (directory path : FilePath) : Obtained (ofFilePath directory path)
  | renamedFile {u v : Uri} {name : String} : Obtained u → u.renamedFile name = some v → Obtained v

theorem exists_isFile_of_readPath {u : Uri} {cs : List Char} (hscheme : u.scheme = "file")
    (hpath : u.path = .rooted (readPath "file" cs)) :
    ∃ directory file, u.IsFile directory file := by
  obtain ⟨directory, file, heq, hfront⟩ := exists_readPath_eq cs
  refine ⟨directory, file, hscheme, heq ▸ hpath, ?_, hfront⟩
  rw [← heq]
  exact isWritten_readPath cs

theorem exists_readPath_of_readFile? {cs : List Char} {host : String} {segments : List String}
    (h : readFile? cs = some (host, segments)) : ∃ path, segments = readPath "file" path := by
  unfold readFile? at h
  dsimp only at h
  repeat' split at h
  all_goals cases h
  all_goals exact ⟨_, rfl⟩

theorem exists_isFile_of_parse {s : String} {u : Uri} (h : parse s = some u)
    (hscheme : u.scheme = "file") : ∃ directory file, u.IsFile directory file := by
  obtain ⟨⟨scheme, rest⟩, -, h⟩ := Option.bind_eq_some_iff.mp h
  dsimp only at h
  split at h
  · obtain ⟨⟨authority, path⟩, hread, hu⟩ := Option.bind_eq_some_iff.mp h
    obtain ⟨⟨host, segments⟩, hfile, heq⟩ := Option.map_eq_some_iff.mp hread
    obtain ⟨cs, rfl⟩ := exists_readPath_of_readFile? hfile
    obtain rfl := Option.some.inj hu
    exact exists_isFile_of_readPath hscheme (congrArg Prod.snd heq).symm
  · rename_i hother
    obtain ⟨_, -, hu⟩ := Option.bind_eq_some_iff.mp h
    obtain rfl := Option.some.inj hu
    exact absurd hscheme hother

theorem encodeBytes_ne_nil {set : CharSet} {bytes : Bytes} (h : bytes ≠ []) :
    encodeBytes set bytes ≠ [] := by
  obtain ⟨b, bytes, rfl⟩ := List.exists_cons_of_ne_nil h
  rw [encodeBytes, List.flatMap_cons]
  refine List.append_ne_nil_of_left_ne_nil ?_ _
  unfold encodeByte
  split <;> exact List.cons_ne_nil _ _

theorem exists_isFile_ofFilePath (directory path : FilePath) :
    ∃ parents file, (ofFilePath directory path).IsFile parents file := by
  by_cases hnil : (FilePath.resolve directory path).components = []
  · refine ⟨[], "", rfl, ?_, ?_, by simp⟩
    · rw [ofFilePath, hnil]
      rfl
    · exact List.forall_mem_singleton.mpr isWritten_empty
  · obtain ⟨front, last, heq⟩ := (List.eq_nil_or_concat' _).resolve_left hnil
    have hmem {c : Bytes} (hc : c ∈ front ++ [last]) : c ≠ [] := by
      rw [← heq] at hc
      exact (of_decide_eq_true (List.mem_filter.mp hc).2).1
    refine ⟨front.map fun c => String.ofList (encodeBytes specialSegmentSet c),
      String.ofList (encodeBytes specialSegmentSet last), rfl, ?_, ?_, ?_⟩
    · simp [ofFilePath, heq]
    · refine isWritten_concat (fun s hs => ?_) (isWritten_encodedBytes last)
      obtain ⟨c, -, rfl⟩ := List.mem_map.mp hs
      exact isWritten_encodedBytes c
    · intro hfront
      rw [List.head?_map, Option.map_eq_some_iff] at hfront
      obtain ⟨c, hc, hempty⟩ := hfront
      have hne := hmem (List.mem_append_left _ (List.mem_of_mem_head? hc))
      exact encodeBytes_ne_nil hne (String.ofList_eq_empty_iff.mp hempty)

theorem path_of_renamedFile {u v : Uri} {name : String} (h : u.renamedFile name = some v) :
    ∃ path, v = { u with path := path } := by
  unfold renamedFile at h
  split at h
  · cases h
  · cases h
  · exact ⟨_, (Option.some.inj h).symm⟩

/-- The segments of the new path before they are read. -/
def draft (directory : List String) (extension name : String) : List String :=
  appendToLast (pushSegment "file" directory name) extension

theorem IsFile.renamedFile_eq {u : Uri} {directory : List String} {file : String}
    (h : u.IsFile directory file) (name : String) :
    u.renamedFile name = some { u with path := .rooted (readPath "file"
      (renderSegments (draft directory (fileExtension file) name)).toList.tail) } := by
  have hparent : parentSegments (directory ++ [file]) = directory := by
    rw [parentSegments, List.dropLast_concat, if_neg]
    rintro rfl
    exact h.front rfl
  have hlast : (directory ++ [file]).getLastD "" = file := List.getLastD_concat
  unfold renamedFile
  rw [h.path_eq]
  split
  · rename_i heq
    cases heq
  · rename_i heq
    exact absurd (Path.rooted.inj heq)
      (List.append_ne_nil_of_right_ne_nil _ (List.cons_ne_nil _ _))
  · rename_i segments _ heq
    rw [← Path.rooted.inj heq, hparent, hlast, h.scheme_eq]
    rfl

/-- A renamed file is a file. -/
theorem IsFile.exists_isFile_of_renamedFile {u v : Uri} {directory : List String} {file : String}
    (h : u.IsFile directory file) {name : String} (hv : u.renamedFile name = some v) :
    ∃ directory' file', v.IsFile directory' file' := by
  rw [h.renamedFile_eq] at hv
  obtain rfl := Option.some.inj hv
  exact exists_isFile_of_readPath h.scheme_eq rfl

/-- Every URI of a file is the URI of a file in a directory. -/
theorem Obtained.exists_isFile {u : Uri} (h : u.Obtained) (hscheme : u.scheme = "file") :
    ∃ directory file, u.IsFile directory file := by
  induction h with
  | parsed hparse => exact exists_isFile_of_parse hparse hscheme
  | ofFilePath directory path => exact exists_isFile_ofFilePath directory path
  | renamedFile _ hrenamed ih =>
    obtain ⟨path, rfl⟩ := path_of_renamedFile hrenamed
    obtain ⟨directory, file, hu⟩ := ih hscheme
    exact hu.exists_isFile_of_renamedFile hrenamed

/-! ## Where a name leads -/

/-- What counts of a name in a path. -/
def bareName (name : String) : List Char := dropLayout name.toList

theorem appendToLast_concat (front : List String) (last ending : String) :
    appendToLast (front ++ [last]) ending = front ++ [last ++ ending] := by
  rw [appendToLast, List.dropLast_concat, List.getLastD_concat]

theorem pushSegment_passedOver {directory : List String} {name : String}
    (h : name = "." ∨ name = "..") :
    pushSegment "file" directory name = if directory = [] then [""] else directory :=
  if_pos h

theorem pushSegment_file {directory : List String} {name : String}
    (h : ¬(name = "." ∨ name = "..")) :
    pushSegment "file" directory name = dropEmptyFront
      (Trail.add true specialSegmentSet ⟨directory, false⟩ name.toList true).segments :=
  if_neg h

theorem pushSegment_drive {name : String} {drive rest : List Char}
    (h : splitDrive name.toList = some (drive, rest)) :
    ∃ a : Char, a.isAlpha = true ∧ pushSegment "file" [] name =
      [String.ofList [a, ':'], String.ofList (encodeText specialSegmentSet rest)] := by
  obtain ⟨a, ha, rfl, -, hcolon, -⟩ := splitDrive_eq_some h
  have hname : ¬(name = "." ∨ name = "..") := by
    rintro (rfl | rfl) <;> exact absurd hcolon (by decide)
  have hfront : [String.ofList [a, ':']].head? ≠ some "" := by simp
  have hadd : (Trail.add true specialSegmentSet ⟨[], false⟩ name.toList true).segments =
      [String.ofList [a, ':']] ++ [String.ofList (encodeText specialSegmentSet rest)] := by
    rw [Trail.add, List.isEmpty_nil, Bool.and_self, if_pos rfl, h]
    rfl
  refine ⟨a, ha, ?_⟩
  rw [pushSegment_file hname, hadd, dropEmptyFront_eq_self hfront]
  rfl

/-- Otherwise the name is added as one segment. -/
theorem segments_add_name {directory : List String} {name : String}
    (h : directory = [] → splitDrive name.toList = none) :
    (Trail.add true specialSegmentSet ⟨directory, false⟩ name.toList true).segments =
      (Trail.addText true ⟨directory, false⟩
        (String.ofList (encodeText specialSegmentSet (bareName name))) true).segments := by
  have hnone : (if true && directory.isEmpty then splitDrive name.toList else none) = none := by
    rw [Bool.true_and, ite_eq_right_iff]
    exact fun hnil => h (List.isEmpty_iff.mp hnil)
  rw [Trail.add, hnone]
  rfl

/-- The names of which nothing is written in a path. -/
def IsVoid (name : String) : Prop :=
  bareName name = [] ∨ bareName name = ['.'] ∨ bareName name = ['.', '.']

theorem isVoid_of_passedOver {name : String} (h : name = "." ∨ name = "..") : IsVoid name := by
  rcases h with rfl | rfl
  · exact Or.inr (Or.inl (by decide))
  · exact Or.inr (Or.inr (by decide))

/-- No ending makes a dot segment of what is written of any other name. -/
theorem not_isDots_of_not_isVoid {name : String} (h : ¬IsVoid name) (ending : String) :
    ¬IsDots (String.ofList (encodeText specialSegmentSet (bareName name)) ++ ending) := by
  rw [IsVoid, not_or, not_or] at h
  have hlist := not_isDots_encodedName h.1 h.2.1 h.2.2 ending.toList
  rwa [String.ofList_append, String.ofList_toList] at hlist

/-- Of a void name only the extension is left, behind the directory or the one above it. -/
theorem pushSegment_of_isVoid {directory : List String} {name : String}
    (hname : ¬(name = "." ∨ name = "..")) (hdrive : directory = [] → splitDrive name.toList = none)
    (hfront : directory.head? ≠ some "") (hvoid : IsVoid name) :
    pushSegment "file" directory name =
      (if bareName name = ['.', '.'] then dropParent directory else directory) ++ [""] := by
  rw [pushSegment_file hname, segments_add_name hdrive]
  rcases hvoid with hbare | hbare | hbare
  · have hempty : String.ofList (encodeText specialSegmentSet []) = "" := rfl
    rw [hbare, if_neg (by decide), hempty, segments_addText not_isDots_empty (Or.inr (by decide)),
      dropEmptyFront_eq_self hfront]
  · rw [hbare, if_neg (by decide), encodeText_dot,
      segments_addText_staying (by decide) (by decide), dropEmptyFront_eq_self hfront]
  · rw [hbare, if_pos rfl, encodeText_dot, encodeText_dot, segments_addText_climbing (by decide),
      dropEmptyFront_eq_self (head?_dropParent hfront)]

/-- Any other name is written in the directory. -/
theorem exists_pushSegment_eq {directory : List String} {name : String}
    (hdrive : directory = [] → splitDrive name.toList = none)
    (hfront : directory.head? ≠ some "") (hvoid : ¬IsVoid name) :
    ∃ s, IsWritten s ∧ pushSegment "file" directory name = directory ++ [s] ∧
      ∀ ending, ¬IsDots (s ++ ending) := by
  have hname : ¬(name = "." ∨ name = "..") := fun h => hvoid (isVoid_of_passedOver h)
  have hdots := not_isDots_of_not_isVoid hvoid
  rw [pushSegment_file hname, segments_add_name hdrive]
  rcases segments_addText_cases ⟨directory, false⟩
    (String.ofList (encodeText specialSegmentSet (bareName name))) true with
    ⟨hdouble, -⟩ | ⟨hsingle, -⟩ | ⟨-, hroot, a, ha, -, heq⟩ | ⟨-, -, heq⟩
  · exact absurd (Or.inr hdouble) (String.append_empty ▸ hdots "")
  · exact absurd (Or.inl hsingle) (String.append_empty ▸ hdots "")
  · obtain rfl : directory = [] := hroot
    refine ⟨String.ofList [a, ':'], isWritten_drive ha, ?_, fun ending => ?_⟩
    · rw [heq]
      exact dropEmptyFront_eq_self hfront _
    · have hlist : (String.ofList [a, ':'] ++ ending).toList = a :: ':' :: ending.toList := by
        rw [String.toList_append, String.toList_ofList]
        rfl
      exact not_isDots_of_isAlpha ha hlist
  · refine ⟨_, isWritten_encodedName (bareName name), ?_, hdots⟩
    rw [heq, dropEmptyFront_eq_self hfront]

/-- **The names with which a file leaves its directory.** -/
inductive Strays (directory : List String) (extension name : String) : Prop
  /-- `.` and `..` are passed over, and the directory itself gets the extension. -/
  | passedOver : directory ≠ [] → name = "." ∨ name = ".." → Strays directory extension name
  /-- `..` with tabs or line ends in it leads to the directory above, and so does an extension
  that spells `..` behind a name of which nothing is left. -/
  | climbs : dropParent directory ≠ directory →
      bareName name = ['.', '.'] ∨ (IsVoid name ∧ isDoubleDot extension = true) →
      Strays directory extension name
  /-- In the root a drive letter that ends with a tab or line end becomes a directory. -/
  | entersDrive : directory = [] → (splitDrive name.toList).isSome = true →
      Strays directory extension name
  /-- The directory does not stay as it is when it is read again. -/
  | unsettled : ¬IsSettled directory → Strays directory extension name

section

variable {directory : List String} {extension name : String}

/-- The directory that is read from the draft of a path. -/
def newDirectory (directory : List String) (extension name : String) : List String :=
  (readPath "file" (renderSegments (draft directory extension name)).toList.tail).dropLast

/-- **What the draft of a path can be.** -/
theorem draft_cases (extension name : String) (hfront : directory.head? ≠ some "") :
    (directory ≠ [] ∧ (name = "." ∨ name = "..") ∧ ∃ last ∈ directory,
      draft directory extension name = directory.dropLast ++ [last ++ extension]) ∨
    (directory = [] ∧ (splitDrive name.toList).isSome = true ∧ ∃ a : Char, a.isAlpha = true ∧
      ∃ cs, draft directory extension name = [String.ofList [a, ':']] ++
        [String.ofList (encodeText specialSegmentSet cs) ++ extension]) ∨
    ((directory = [] → splitDrive name.toList = none) ∧
      (directory ≠ [] → ¬(name = "." ∨ name = "..")) ∧
      ((IsVoid name ∧ draft directory extension name =
        (if bareName name = ['.', '.'] then dropParent directory else directory) ++ [extension]) ∨
      (¬IsVoid name ∧ ∃ s, IsWritten s ∧ ¬IsDots (s ++ extension) ∧
        draft directory extension name = directory ++ [s ++ extension]))) := by
  by_cases hdrive : directory = [] ∧ (splitDrive name.toList).isSome = true
  · obtain ⟨rfl, hsome⟩ := hdrive
    obtain ⟨⟨drive, rest⟩, hsplit⟩ := Option.isSome_iff_exists.mp hsome
    obtain ⟨a, ha, hpush⟩ := pushSegment_drive hsplit
    refine Or.inr (Or.inl ⟨rfl, hsome, a, ha, rest, ?_⟩)
    rw [draft, hpush]
    rfl
  · replace hdrive : directory = [] → splitDrive name.toList = none := by
      intro hnil
      exact Option.not_isSome_iff_eq_none.mp fun hsome => hdrive ⟨hnil, hsome⟩
    by_cases hvoid : IsVoid name
    · by_cases hname : name = "." ∨ name = ".."
      · by_cases hnil : directory = []
        · subst hnil
          refine Or.inr (Or.inr ⟨hdrive, fun h => absurd rfl h, Or.inl ⟨hvoid, ?_⟩⟩)
          have hroot : dropParent [] = [] := rfl
          rw [draft, pushSegment_passedOver hname, if_pos rfl, hroot, ite_self]
          exact appendToLast_concat [] "" extension
        · obtain ⟨front, last, rfl⟩ := (List.eq_nil_or_concat' directory).resolve_left hnil
          refine Or.inl ⟨hnil, hname, last, List.mem_append_right front List.mem_cons_self, ?_⟩
          rw [draft, pushSegment_passedOver hname, if_neg hnil, appendToLast_concat,
            List.dropLast_concat]
      · refine Or.inr (Or.inr ⟨hdrive, fun _ => hname, Or.inl ⟨hvoid, ?_⟩⟩)
        rw [draft, pushSegment_of_isVoid hname hdrive hfront hvoid, appendToLast_concat,
          String.empty_append]
    · have hname : ¬(name = "." ∨ name = "..") := fun h => hvoid (isVoid_of_passedOver h)
      obtain ⟨s, hs, hpush, hdots⟩ := exists_pushSegment_eq hdrive hfront hvoid
      refine Or.inr (Or.inr ⟨hdrive, fun _ => hname, Or.inr ⟨hvoid, s, hs, hdots extension, ?_⟩⟩)
      rw [draft, hpush, appendToLast_concat]

theorem length_dropParent_lt (h : dropParent directory ≠ directory) :
    (dropParent directory).length < directory.length := by
  have heq : dropParent directory = directory.dropLast := (dropParent_cases directory).resolve_left h
  have hpos : 0 < directory.length := by
    refine List.length_pos_iff.mpr ?_
    rintro rfl
    exact h rfl
  rw [heq, List.length_dropLast]
  omega

theorem dropParent_drive {a : Char} (ha : a.isAlpha = true) :
    dropParent [String.ofList [a, ':']] = [String.ofList [a, ':']] := by
  refine if_pos ?_
  rw [List.getLast?_singleton, Option.any_some, String.toList_ofList]
  simp [beginsWithDrive, isDriveLetter, ha]

theorem isSettled_drive {a : Char} (ha : a.isAlpha = true) :
    IsSettled [String.ofList [a, ':']] := by
  refine ⟨?_, fun b _ => by simp⟩
  exact List.forall_mem_singleton.mpr (not_isDots_of_isAlpha ha String.toList_ofList)

/-- Where no name is passed over and no drive is entered, only climbing is left. -/
theorem not_strays_iff (hdrive : directory = [] → splitDrive name.toList = none)
    (hname : directory ≠ [] → ¬(name = "." ∨ name = "..")) :
    ¬Strays directory extension name ↔ IsSettled directory ∧
      (bareName name = ['.', '.'] ∨ (IsVoid name ∧ isDoubleDot extension = true) →
        dropParent directory = directory) := by
  constructor
  · intro h
    constructor
    · by_contra hsettled
      exact h (.unsettled hsettled)
    · intro hclimb
      by_contra hparent
      exact h (.climbs hparent hclimb)
  · rintro ⟨hsettled, hparent⟩ h
    cases h with
    | passedOver hnil hpassed => exact hname hnil hpassed
    | climbs hne hclimb => exact hne (hparent hclimb)
    | entersDrive hnil hsome =>
      rw [hdrive hnil] at hsome
      cases hsome
    | unsettled hunsettled => exact hunsettled hsettled

variable (hwritten : ∀ s ∈ directory, IsWritten s) (hextension : IsWritten extension)
  (hfront : directory.head? ≠ some "")
include hwritten hextension

theorem newDirectory_ne_of_passedOver (hnil : directory ≠ []) {last : String}
    (hlast : last ∈ directory)
    (hdraft : draft directory extension name = directory.dropLast ++ [last ++ extension]) :
    newDirectory directory extension name ≠ directory := by
  have hpos := List.length_pos_iff.mpr hnil
  rw [newDirectory, hdraft]
  refine dropLast_readPath_ne_of_length (isWritten_concat (fun s hs => ?_) ?_) ?_
  · exact hwritten s ((List.dropLast_sublist directory).subset hs)
  · exact (hwritten last hlast).append hextension
  · rw [List.length_dropLast]
    omega

omit hwritten in
theorem newDirectory_drive {a : Char} (ha : a.isAlpha = true) {cs : List Char}
    (hdraft : draft directory extension name = [String.ofList [a, ':']] ++
      [String.ofList (encodeText specialSegmentSet cs) ++ extension]) :
    newDirectory directory extension name = [String.ofList [a, ':']] := by
  have hdrive : ∀ s ∈ [String.ofList [a, ':']], IsWritten s :=
    List.forall_mem_singleton.mpr (isWritten_drive ha)
  rw [newDirectory, hdraft, dropLast_readPath_eq_iff
    (isWritten_concat hdrive ((isWritten_encodedName cs).append hextension)) (by simp)]
  exact ⟨isSettled_drive ha, fun _ => dropParent_drive ha⟩

include hfront

/-- With a void name the extension decides whether the file stays. -/
theorem newDirectory_void_iff (hvoid : IsVoid name)
    (hdraft : draft directory extension name =
      (if bareName name = ['.', '.'] then dropParent directory else directory) ++ [extension]) :
    newDirectory directory extension name = directory ↔ IsSettled directory ∧
      (bareName name = ['.', '.'] ∨ (IsVoid name ∧ isDoubleDot extension = true) →
        dropParent directory = directory) := by
  rw [newDirectory, hdraft]
  by_cases hclimb : bareName name = ['.', '.'] ∧ dropParent directory ≠ directory
  · -- The name itself leads to the directory above.
    rw [if_pos hclimb.1]
    refine iff_of_false ?_ fun h => hclimb.2 (h.2 (Or.inl hclimb.1))
    exact dropLast_readPath_ne_of_length
      (isWritten_concat (fun s hs => hwritten s (dropParent_subset hs)) hextension)
      (length_dropParent_lt hclimb.2)
  · have hparent (hbare : bareName name = ['.', '.']) : dropParent directory = directory := by
      by_contra hne
      exact hclimb ⟨hbare, hne⟩
    rw [ite_eq_right_iff.mpr hparent,
      dropLast_readPath_eq_iff (isWritten_concat hwritten hextension) hfront]
    refine and_congr_right fun _ => ⟨?_, fun h hdouble => h (Or.inr ⟨hvoid, hdouble⟩)⟩
    rintro h (hbare | ⟨-, hdouble⟩)
    · exact hparent hbare
    · exact h hdouble

/-- **A file stays in its directory** exactly if its name does not stray from it. -/
theorem newDirectory_eq_iff :
    newDirectory directory extension name = directory ↔ ¬Strays directory extension name := by
  rcases draft_cases extension name hfront with
    ⟨hnil, hname, last, hlast, hdraft⟩ | ⟨rfl, hsome, a, ha, cs, hdraft⟩ |
      ⟨hdrive, hname, ⟨hvoid, hdraft⟩ | ⟨hvoid, s, hs, hdots, hdraft⟩⟩
  · refine iff_of_false ?_ (not_not.mpr (.passedOver hnil hname))
    exact newDirectory_ne_of_passedOver hwritten hextension hnil hlast hdraft
  · refine iff_of_false ?_ (not_not.mpr (.entersDrive rfl hsome))
    rw [newDirectory_drive hextension ha hdraft]
    exact List.cons_ne_nil _ _
  · rw [not_strays_iff hdrive hname]
    exact newDirectory_void_iff hwritten hextension hfront hvoid hdraft
  · rw [not_strays_iff hdrive hname, newDirectory, hdraft, dropLast_readPath_eq_iff
      (isWritten_concat hwritten (hs.append hextension)) hfront]
    refine and_congr_right fun _ => iff_of_true (fun hdouble => absurd (Or.inr hdouble) hdots) ?_
    rintro (hbare | ⟨hv, -⟩)
    · exact absurd (Or.inr (Or.inr hbare)) hvoid
    · exact absurd hv hvoid

end

/-! ## Extensions -/

/-- The part of a name from its last dot on, which is empty if the name has no dot. -/
def IsExtension (extension file : String) : Prop :=
  ('.' ∉ file.toList ∧ extension = "") ∨
    ∃ stem tail, file.toList = stem ++ '.' :: tail ∧ '.' ∉ tail ∧ extension.toList = '.' :: tail

theorem isExtension_fileExtension (file : String) : IsExtension (fileExtension file) file := by
  by_cases hdot : '.' ∈ file.toList.reverse
  · obtain ⟨back, front, hsplit, hback⟩ := List.eq_append_cons_of_mem hdot
    refine Or.inr ⟨front.reverse, back.reverse, ?_, ?_, ?_⟩
    · rw [← List.reverse_reverse file.toList, hsplit, List.reverse_append, List.reverse_cons,
        List.append_assoc, List.singleton_append]
    · rwa [List.mem_reverse]
    · rw [fileExtension, hsplit, span_ne_append hback]
      simp
  · refine Or.inl ⟨by rwa [List.mem_reverse] at hdot, ?_⟩
    rw [fileExtension, span_ne_of_notMem hdot]
    rfl

theorem IsExtension.isWritten {extension file : String} (h : IsExtension extension file)
    (hfile : IsWritten file) : IsWritten extension := by
  rcases h with ⟨-, rfl⟩ | ⟨stem, tail, hsplit, -, hextension⟩
  · exact isWritten_empty
  · intro c hc
    refine hfile c ?_
    rw [hsplit, ← hextension]
    exact List.mem_append_right stem hc

theorem IsFile.isWritten_directory {u : Uri} {directory : List String} {file : String}
    (h : u.IsFile directory file) : ∀ s ∈ directory, IsWritten s :=
  fun s hs => h.written s (List.mem_append_left [file] hs)

theorem IsFile.isWritten_extension {u : Uri} {directory : List String} {file : String}
    (h : u.IsFile directory file) : IsWritten (fileExtension file) :=
  (isExtension_fileExtension file).isWritten
    (h.written file (List.mem_append_right directory List.mem_cons_self))

/-! ## Plain names -/

/-- A name of ASCII letters, digits, `_` and `$`. -/
structure IsPlainName (name : String) : Prop where
  ne_empty : name ≠ ""
  plain : ∀ c ∈ name.toList, isNameChar c = true

namespace IsPlainName

variable {name : String} (h : IsPlainName name)
include h

theorem toList_ne_nil : name.toList ≠ [] := fun hnil => h.ne_empty (String.toList_eq_nil_iff.mp hnil)

theorem isWritten : IsWritten name := by
  intro c hc
  obtain ⟨hascii, hset⟩ := plain_of_isNameChar (h.plain c hc)
  exact isPathChar_of_plain hascii hset

theorem bareName_eq : bareName name = name.toList := h.isWritten.dropLayout_eq

theorem encodeText_eq : encodeText specialSegmentSet name.toList = name.toList :=
  encodeText_eq_self fun c hc => plain_of_isNameChar (h.plain c hc)

theorem not_isVoid : ¬IsVoid name := by
  have hdot : '.' ∉ name.toList := fun hmem => absurd (h.plain '.' hmem) (by decide)
  rw [IsVoid, h.bareName_eq]
  rintro (hbare | hbare | hbare)
  · exact h.toList_ne_nil hbare
  · exact hdot (hbare ▸ List.mem_cons_self)
  · exact hdot (hbare ▸ List.mem_cons_self)

theorem splitDrive_eq_none : splitDrive name.toList = none := by
  refine Option.eq_none_iff_forall_ne_some.mpr ?_
  rintro ⟨drive, rest⟩ hsplit
  obtain ⟨a, -, -, -, hcolon, -⟩ := splitDrive_eq_some hsplit
  exact absurd (h.plain ':' hcolon) (by decide)

theorem not_isDots_append (ending : String) : ¬IsDots (name ++ ending) := by
  have hdots := not_isDots_of_not_isVoid h.not_isVoid ending
  rwa [h.bareName_eq, h.encodeText_eq, String.ofList_toList] at hdots

/-- No extension makes a plain name a drive letter. -/
theorem isDriveLetter_append {extension file : String} (hextension : IsExtension extension file) :
    isDriveLetter (name ++ extension).toList = false := by
  refine Bool.eq_false_iff.mpr fun hdrive => ?_
  obtain ⟨a, mark, hmark, hletter⟩ : ∃ a mark, (mark = ':' ∨ mark = '|') ∧
      name.toList ++ extension.toList = [a, mark] := by
    rw [← String.toList_append]
    obtain ⟨a, -, hcolon | hbar⟩ := isDriveLetter_iff.mp hdrive
    · exact ⟨a, ':', Or.inl rfl, hcolon⟩
    · exact ⟨a, '|', Or.inr rfl, hbar⟩
  have hother : isNameChar mark = false ∧ mark ≠ '.' := by
    rcases hmark with rfl | rfl <;> decide
  -- The mark stands in the name, or the extension begins with it.
  obtain ⟨c, cs, hcs⟩ := List.exists_cons_of_ne_nil h.toList_ne_nil
  rw [hcs, List.cons_append, List.cons.injEq] at hletter
  cases cs with
  | nil =>
    rcases hextension with ⟨-, rfl⟩ | ⟨-, tail, -, -, htail⟩
    · exact absurd hletter.2 (List.cons_ne_nil mark []).symm
    · rw [htail, List.nil_append] at hletter
      exact hother.2 (List.cons.inj hletter.2).1.symm
  | cons d cs =>
    have hd := h.plain d (hcs ▸ List.mem_cons_of_mem c List.mem_cons_self)
    rw [(List.cons.inj hletter.2).1, hother.1] at hd
    cases hd

/-- A plain name is put into a path as it is. -/
theorem pushSegment_eq {directory : List String} (hfront : directory.head? ≠ some "") :
    pushSegment "file" directory name = directory ++ [name] := by
  have hname : ¬(name = "." ∨ name = "..") := fun hdots => h.not_isVoid (isVoid_of_passedOver hdots)
  have hdots := h.not_isDots_append ""
  have hdrive := h.isDriveLetter_append (Or.inl ⟨List.not_mem_nil, rfl⟩ : IsExtension "" "")
  rw [String.append_empty] at hdots hdrive
  rw [pushSegment_file hname, segments_add_name fun _ => h.splitDrive_eq_none, h.bareName_eq,
    h.encodeText_eq, String.ofList_toList, segments_addText hdots (Or.inr hdrive),
    dropEmptyFront_eq_self hfront]

end IsPlainName

/-- **A plain name replaces the last segment up to its extension**, and the directory stays as it
is exactly if it is settled. -/
theorem IsFile.exists_renamedFile_eq {u : Uri} {directory : List String} {file name : String}
    (h : u.IsFile directory file) (hname : IsPlainName name) :
    ∃ directory', u.renamedFile name = some
        { u with path := .rooted (directory' ++ [name ++ fileExtension file]) } ∧
      (directory' = directory ↔ IsSettled directory) := by
  have hdots := hname.not_isDots_append (fileExtension file)
  have hdrive := hname.isDriveLetter_append (isExtension_fileExtension file)
  have hwritten : ∀ s ∈ directory ++ [name ++ fileExtension file], IsWritten s :=
    isWritten_concat h.isWritten_directory (hname.isWritten.append h.isWritten_extension)
  have hread := readPath_renderSegments hwritten
  rw [segments_addText hdots (Or.inr hdrive)] at hread
  obtain ⟨directory', hfront, -⟩ := exists_dropEmptyFront_eq (enter directory).segments
    (name ++ fileExtension file)
  rw [hfront] at hread
  refine ⟨directory', ?_, ?_⟩
  · rw [h.renamedFile_eq, draft, hname.pushSegment_eq h.front, appendToLast_concat, hread]
  · have hiff := dropLast_readPath_eq_iff hwritten h.front
    rw [hread, List.dropLast_concat] at hiff
    rw [hiff]
    exact and_iff_left fun hdouble => absurd (Or.inr hdouble) hdots

/-! ## Renaming a file -/

/-- **A renamed file stays in its directory exactly if its name does not stray.**  Nothing but
the path of the URI changes, whatever the name is. -/
theorem renamedFile_keeps_directory_iff {s : String} {u : Uri} (hparse : parse s = some u)
    (hscheme : u.scheme = "file") (name : String) :
    ∃ directory file v directory' file', u.IsFile directory file ∧
      u.renamedFile name = some v ∧ v.IsFile directory' file' ∧ v.scheme = u.scheme ∧
      v.authority = u.authority ∧ v.query = u.query ∧ v.fragment = u.fragment ∧
      (directory' = directory ↔ ¬Strays directory (fileExtension file) name) := by
  obtain ⟨directory, file, hu⟩ := exists_isFile_of_parse hparse hscheme
  have hv := hu.renamedFile_eq name
  obtain ⟨directory', file', hfile⟩ := hu.exists_isFile_of_renamedFile hv
  refine ⟨directory, file, _, directory', file', hu, hv, hfile, rfl, rfl, rfl, rfl, ?_⟩
  have hdirectory : newDirectory directory (fileExtension file) name = directory' := by
    rw [newDirectory, Path.rooted.inj hfile.path_eq, List.dropLast_concat]
  rw [← hdirectory]
  exact newDirectory_eq_iff hu.isWritten_directory hu.isWritten_extension hu.front

/-- A class in a file of its own. -/
def shapeUri : Uri :=
  ⟨"file", some ⟨"", "", none⟩, false, .rooted ["ws", "src", "Shape.groovy"], none, none⟩

theorem parse_shapeUri : parse "file:///ws/src/Shape.groovy" = some shapeUri := rfl

theorem shape_keeps_directory_iff :
    parse "file:///ws/src/Shape.groovy" = some shapeUri ∧ shapeUri.scheme = "file" ∧
      ∃ directory file v directory' file', shapeUri.IsFile directory file ∧
        shapeUri.renamedFile "My Shape" = some v ∧ v.IsFile directory' file' ∧
        v.scheme = "file" ∧ v.authority = some ⟨"", "", none⟩ ∧ v.query = none ∧
        v.fragment = none ∧
        (directory' = directory ↔ ¬Strays directory (fileExtension file) "My Shape") :=
  ⟨parse_shapeUri, rfl, renamedFile_keeps_directory_iff parse_shapeUri rfl "My Shape"⟩

/-- The name `..` moves the class out of its directory. -/
theorem dots_leave_directory :
    ¬∀ s u v name segments segments', parse s = some u → u.scheme = "file" →
      u.renamedFile name = some v → u.path = .rooted segments → v.path = .rooted segments' →
      segments'.dropLast = segments.dropLast := by
  intro h
  have hrenamed : shapeUri.renamedFile ".." =
      some { shapeUri with path := .rooted ["ws", "src.groovy"] } := rfl
  exact absurd (h _ _ _ _ _ _ parse_shapeUri rfl hrenamed rfl rfl) (by decide)

end Uri

end SymbolRename
