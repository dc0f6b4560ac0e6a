import Mathlib.Data.List.Induction
import SymbolRename.Proofs.FirstOccurrences
import SymbolRename.Proofs.WrittenSegments

/-! # Paths of files, read and read again

Reading a path puts its segments together one by one.  `segments_addText_cases` says all
that one segment can do to those before it.  Whatever is read, the segments are written in
full (`isWritten_readPath`), and the first one is empty only if it is the last
(`exists_readPath_eq`).

A path that is written in full is read again segment by segment
(`readPath_renderSegments`), and that is not the same path always: dot segments are taken
out once more, and a drive letter in front gets its colon.  A directory is kept exactly if
it `IsSettled` and the last segment does not climb out of it (`dropLast_readPath_eq_iff`).
-/
namespace SymbolRename

namespace Uri

/-! ## Cutting a path -/

theorem ne_separator_of_mem_cutSegments {cs segment : List Char} {c : Char}
    (hsegment : segment ∈ cutSegments true cs) (hc : c ∈ segment) : c ≠ '/' ∧ c ≠ '\\' := by
  obtain ⟨hmem, hslash⟩ := mem_of_mem_splitOn hsegment hc
  rw [if_pos rfl, List.mem_map] at hmem
  obtain ⟨d, -, hd⟩ := hmem
  refine ⟨hslash, ?_⟩
  rintro rfl
  split at hd
  · exact absurd hd (by decide)
  · rename_i hne
    exact hne hd

theorem toList_renderSegments (segments : List String) :
    (renderSegments segments).toList = segments.flatMap fun s => '/' :: s.toList := by
  rw [renderSegments, String.toList_join, List.flatMap_map]
  refine List.flatMap_congr fun s _ => ?_
  rw [String.toList_append]
  rfl

theorem splitOn_renderSegments {s : String} {segments : List String}
    (h : ∀ t ∈ s :: segments, '/' ∉ t.toList) :
    (renderSegments (s :: segments)).toList.tail.splitOn '/' =
      (s :: segments).map String.toList := by
  induction segments generalizing s with
  | nil =>
    rw [toList_renderSegments, List.flatMap_singleton]
    exact List.splitOn_eq_singleton (h s List.mem_cons_self)
  | cons t segments ih =>
    have hrest := ih fun t' ht' => h t' (List.mem_cons_of_mem s ht')
    rw [toList_renderSegments, List.flatMap_cons] at hrest ⊢
    rw [List.flatMap_cons, List.map_cons, ← hrest]
    exact List.splitOn_append_cons_self_of_not_mem (h s List.mem_cons_self) _

/-- A written path is cut into the segments of which it was put together. -/
theorem cutSegments_renderSegments {segments : List String} (hne : segments ≠ [])
    (h : ∀ s ∈ segments, IsWritten s) :
    cutSegments true (renderSegments segments).toList.tail = segments.map String.toList := by
  have hback : ∀ c ∈ (renderSegments segments).toList.tail, c ≠ '\\' := by
    intro c hc
    replace hc := List.mem_of_mem_tail hc
    rw [toList_renderSegments, List.mem_flatMap] at hc
    obtain ⟨s, hs, hc⟩ := hc
    rcases List.mem_cons.mp hc with rfl | hc
    · decide
    · exact (isPathChar_iff.mp (h s hs c hc)).2.2.2
  have hmap : ((renderSegments segments).toList.tail.map fun c => if c = '\\' then '/' else c) =
      (renderSegments segments).toList.tail := by
    refine (List.map_congr_left fun c hc => ?_).trans (List.map_id' _)
    exact if_neg (hback c hc)
  rw [cutSegments, if_pos rfl, hmap]
  obtain ⟨s, rest, rfl⟩ := List.exists_cons_of_ne_nil hne
  refine splitOn_renderSegments fun t ht hslash => ?_
  exact (isPathChar_iff.mp (h t ht '/' hslash)).2.2.1 rfl

/-! ## Drive letters -/

theorem isDriveLetter_iff {cs : List Char} :
    isDriveLetter cs = true ↔ ∃ a, a.isAlpha = true ∧ (cs = [a, ':'] ∨ cs = [a, '|']) := by
  constructor
  · intro h
    unfold isDriveLetter at h
    split at h
    · rename_i a b
      rw [Bool.and_eq_true, Bool.or_eq_true, decide_eq_true_eq, decide_eq_true_eq] at h
      obtain ⟨ha, rfl | rfl⟩ := h
      · exact ⟨a, ha, Or.inl rfl⟩
      · exact ⟨a, ha, Or.inr rfl⟩
    · cases h
  · rintro ⟨a, ha, rfl | rfl⟩ <;> simp [isDriveLetter, ha]

theorem isWritten_drive {a : Char} (ha : a.isAlpha = true) : IsWritten (String.ofList [a, ':']) := by
  have hname : isNameChar a = true := by simp [isNameChar, Char.isAlphanum, ha]
  obtain ⟨hascii, hset⟩ := plain_of_isNameChar hname
  intro c hc
  rw [String.toList_ofList, List.mem_cons, List.mem_singleton] at hc
  rcases hc with rfl | rfl
  · exact isPathChar_of_plain hascii hset
  · decide

theorem not_isDots_of_isAlpha {s : String} {a : Char} {rest : List Char} (ha : a.isAlpha = true)
    (hs : s.toList = a :: rest) : ¬IsDots s := by
  have hdot : dropDot (a :: rest) = none := by
    refine Option.eq_none_iff_forall_ne_some.mpr fun tail h => ?_
    rcases dropDot_eq_some_iff.mp h with h | h | h <;> rw [(List.cons.inj h).1] at ha <;>
      exact absurd ha (by decide)
  rw [IsDots, isSingleDot_iff, isDoubleDot_iff, hs, hdot]
  simp

/-- A drive letter is split off a segment only where a tab or line end follows it. -/
theorem splitDrive_eq_some {segment drive rest : List Char}
    (h : splitDrive segment = some (drive, rest)) :
    ∃ a, a.isAlpha = true ∧ drive = [a, ':'] ∧ (∀ c ∈ rest, c ∈ segment) ∧
      ':' ∈ segment ∧ ∃ c ∈ segment, isLayout c = true := by
  unfold splitDrive at h
  split at h
  · cases h
  · rename_i a more hmore
    split at h
    · rename_i c tail htail
      obtain ⟨hcond, heq⟩ := Option.ite_none_right_eq_some.mp h
      rw [Bool.and_eq_true, Bool.and_eq_true] at hcond
      cases heq
      -- What follows the drive letter stands at the end of the segment.
      have hsuffix : ∀ d ∈ ':' :: c :: tail, d ∈ segment := by
        intro d hd
        refine (List.dropWhile_sublist isLayout).subset (hmore ▸ List.mem_cons_of_mem a ?_)
        exact (List.dropWhile_sublist isLayout).subset (htail ▸ hd)
      refine ⟨a, hcond.1.1, rfl, ?_, hsuffix ':' List.mem_cons_self, c, ?_, hcond.1.2⟩
      · intro d hd
        exact hsuffix d (List.mem_cons_of_mem _ (List.mem_cons_of_mem _ (List.mem_filter.mp hd).1))
      · exact hsuffix c (List.mem_cons_of_mem _ List.mem_cons_self)
    · cases h

theorem IsWritten.splitDrive_eq_none {s : String} (h : IsWritten s) :
    splitDrive s.toList = none := by
  refine Option.eq_none_iff_forall_ne_some.mpr ?_
  rintro ⟨drive, rest⟩ hsplit
  obtain ⟨a, -, -, -, -, c, hc, hlayout⟩ := splitDrive_eq_some hsplit
  rw [isLayout_of_isPathChar (h c hc)] at hlayout
  cases hlayout

/-! ## Adding a segment -/

variable {trail : Trail} {s : String} {isLast : Bool}

theorem dropParent_cases (done : List String) :
    dropParent done = done ∨ dropParent done = done.dropLast := by
  unfold dropParent
  split
  · exact Or.inl rfl
  · exact Or.inr rfl

theorem dropParent_subset {done : List String} {t : String} (h : t ∈ dropParent done) :
    t ∈ done := by
  rcases dropParent_cases done with heq | heq
  · rwa [heq] at h
  · rw [heq] at h
    exact (List.dropLast_sublist done).subset h

theorem length_dropParent_le (done : List String) : (dropParent done).length ≤ done.length := by
  rcases dropParent_cases done with heq | heq
  · exact Nat.le_of_eq (congrArg List.length heq)
  · rw [heq, List.length_dropLast]
    exact Nat.sub_le _ _

/-- **What adding a segment can do**: it climbs, it stays, it opens a drive, or it goes on. -/
theorem segments_addText_cases (trail : Trail) (s : String) (isLast : Bool) :
    (isDoubleDot s = true ∧ (trail.addText true s isLast).segments =
      dropParent trail.segments ++ if isLast then [""] else []) ∨
    (isSingleDot s = true ∧ isDoubleDot s = false ∧
      (trail.addText true s isLast).segments = trail.segments ++ if isLast then [""] else []) ∨
    (¬IsDots s ∧ trail.segments = [] ∧ ∃ a, a.isAlpha = true ∧
      (s.toList = [a, ':'] ∨ s.toList = [a, '|']) ∧
      (trail.addText true s isLast).segments = [String.ofList [a, ':']]) ∨
    (¬IsDots s ∧ (trail.segments ≠ [] ∨ isDriveLetter s.toList = false) ∧
      (trail.addText true s isLast).segments = trail.segments ++ [s]) := by
  unfold Trail.addText
  by_cases hdouble : isDoubleDot s = true
  · refine Or.inl ⟨hdouble, ?_⟩
    rw [if_pos hdouble]
    cases isLast <;> simp
  · rw [if_neg hdouble]
    by_cases hsingle : isSingleDot s = true
    · refine Or.inr (Or.inl ⟨hsingle, Bool.eq_false_iff.mpr hdouble, ?_⟩)
      rw [if_pos hsingle]
      cases isLast <;> simp
    · rw [if_neg hsingle]
      have hdots : ¬IsDots s := not_or.mpr ⟨hsingle, hdouble⟩
      by_cases hfront : trail.segments = [] ∧ isDriveLetter s.toList = true
      · obtain ⟨a, ha, hs⟩ := isDriveLetter_iff.mp hfront.2
        refine Or.inr (Or.inr (Or.inl ⟨hdots, hfront.1, a, ha, hs, ?_⟩))
        rw [if_pos (by simp [hfront])]
        rcases hs with hs | hs <;> rw [hs] <;> rfl
      · refine Or.inr (Or.inr (Or.inr ⟨hdots, ?_, ?_⟩))
        · rwa [not_and_or, Bool.not_eq_true] at hfront
        · rw [if_neg (by simpa using hfront)]

/-- A segment that does not climb adds one segment at the end of a path. -/
theorem segments_addText_last (trail : Trail) (h : ¬isDoubleDot s = true) :
    ∃ t, (trail.addText true s true).segments = trail.segments ++ [t] := by
  rcases segments_addText_cases trail s true with
    ⟨hdouble, -⟩ | ⟨-, -, heq⟩ | ⟨-, hnil, a, -, -, heq⟩ | ⟨-, -, heq⟩
  · exact absurd hdouble h
  · exact ⟨"", heq⟩
  · exact ⟨String.ofList [a, ':'], by rw [heq, hnil, List.nil_append]⟩
  · exact ⟨s, heq⟩

theorem segments_addText_climbing (h : isDoubleDot s = true) :
    (trail.addText true s true).segments = dropParent trail.segments ++ [""] := by
  rcases segments_addText_cases trail s true with
    ⟨-, heq⟩ | ⟨-, hdouble, -⟩ | ⟨hdots, -⟩ | ⟨hdots, -⟩
  · exact heq
  · exact absurd h (hdouble ▸ Bool.false_ne_true)
  · exact absurd (Or.inr h) hdots
  · exact absurd (Or.inr h) hdots

theorem segments_addText_staying (h : isSingleDot s = true) (hstay : ¬isDoubleDot s = true) :
    (trail.addText true s true).segments = trail.segments ++ [""] := by
  rcases segments_addText_cases trail s true with
    ⟨hdouble, -⟩ | ⟨-, -, heq⟩ | ⟨hdots, -⟩ | ⟨hdots, -⟩
  · exact absurd hdouble hstay
  · exact heq
  · exact absurd (Or.inl h) hdots
  · exact absurd (Or.inl h) hdots

/-- A segment that is no dot segment is added as it is, unless it is a drive letter in front. -/
theorem segments_addText (h : ¬IsDots s)
    (hplain : trail.segments ≠ [] ∨ isDriveLetter s.toList = false) :
    (trail.addText true s isLast).segments = trail.segments ++ [s] := by
  rcases segments_addText_cases trail s isLast with
    ⟨hdouble, -⟩ | ⟨hsingle, -⟩ | ⟨-, hnil, a, ha, hs, -⟩ | ⟨-, -, heq⟩
  · exact absurd (Or.inr hdouble) h
  · exact absurd (Or.inl hsingle) h
  · have hdrive : isDriveLetter s.toList = true := isDriveLetter_iff.mpr ⟨a, ha, hs⟩
    rcases hplain with hne | hno
    · exact absurd hnil hne
    · exact absurd hdrive (hno ▸ Bool.false_ne_true)
  · exact heq

/-- In front a drive letter is written with a colon. -/
theorem segments_addText_drive {a : Char} (ha : a.isAlpha = true)
    (hs : s.toList = [a, ':'] ∨ s.toList = [a, '|']) (hnil : trail.segments = []) :
    (trail.addText true s isLast).segments = [String.ofList [a, ':']] := by
  have hdots : ¬IsDots s := by
    rcases hs with hs | hs <;> exact not_isDots_of_isAlpha ha hs
  rcases segments_addText_cases trail s isLast with
    ⟨hdouble, -⟩ | ⟨hsingle, -⟩ | ⟨-, -, b, -, hs', heq⟩ | ⟨-, hplain, -⟩
  · exact absurd (Or.inr hdouble) hdots
  · exact absurd (Or.inl hsingle) hdots
  · rw [heq]
    rcases hs with hs | hs <;> rcases hs' with hs' | hs' <;> rw [hs] at hs' <;> cases hs' <;> rfl
  · have hdrive : isDriveLetter s.toList = true := isDriveLetter_iff.mpr ⟨a, ha, hs⟩
    rcases hplain with hne | hno
    · exact absurd hnil hne
    · exact absurd hdrive (hno ▸ Bool.false_ne_true)

/-- What holds of added segments, of the empty one and of drive letters holds of all segments. -/
theorem forall_segments_addText {P : String → Prop} (hempty : P "")
    (hdrive : ∀ a : Char, a.isAlpha = true → P (String.ofList [a, ':'])) (hs : ¬IsDots s → P s)
    (htrail : ∀ t ∈ trail.segments, P t) :
    ∀ t ∈ (trail.addText true s isLast).segments, P t := by
  have hend : ∀ t ∈ (if isLast then [""] else []), P t := by
    cases isLast <;> simp [hempty]
  rcases segments_addText_cases trail s isLast with
    ⟨-, heq⟩ | ⟨-, -, heq⟩ | ⟨-, -, a, ha, -, heq⟩ | ⟨hdots, -, heq⟩
  · rw [heq, List.forall_mem_append]
    exact ⟨fun t ht => htrail t (dropParent_subset ht), hend⟩
  · rw [heq, List.forall_mem_append]
    exact ⟨htrail, hend⟩
  · rw [heq, List.forall_mem_singleton]
    exact hdrive a ha
  · rw [heq, List.forall_mem_append, List.forall_mem_singleton]
    exact ⟨htrail, hs hdots⟩

theorem length_segments_addText_le :
    (trail.addText true s isLast).segments.length ≤ trail.segments.length + 1 := by
  have hparent := length_dropParent_le trail.segments
  have hend : (if isLast then [""] else []).length ≤ 1 := by
    cases isLast <;> simp
  rcases segments_addText_cases trail s isLast with
    ⟨-, heq⟩ | ⟨-, -, heq⟩ | ⟨-, -, a, -, -, heq⟩ | ⟨-, -, heq⟩
  · rw [heq, List.length_append]
    omega
  · rw [heq, List.length_append]
    omega
  · rw [heq, List.length_singleton]
    omega
  · refine Nat.le_of_eq ?_
    rw [heq, List.length_append, List.length_singleton]

/-! ## Reading a path -/

theorem forall_segments_add {P : String → Prop} (hempty : P "")
    (hdrive : ∀ a : Char, a.isAlpha = true → P (String.ofList [a, ':'])) {set : CharSet}
    {segment : List Char}
    (hset : ∀ cs : List Char, (∀ c ∈ cs, c ∈ segment) → P (String.ofList (encodeText set cs)))
    (htrail : ∀ t ∈ trail.segments, P t) :
    ∀ t ∈ (trail.add true set segment isLast).segments, P t := by
  unfold Trail.add
  split
  · rename_i drive rest hsplit
    rw [Option.ite_none_right_eq_some] at hsplit
    obtain ⟨a, ha, rfl, hrest, -⟩ := splitDrive_eq_some hsplit.2
    intro t ht
    rcases List.mem_cons.mp ht with rfl | ht
    · exact hdrive a ha
    · exact List.mem_singleton.mp ht ▸ hset rest hrest
  · refine forall_segments_addText hempty hdrive (fun _ => hset _ fun c hc => ?_) htrail
    exact (List.mem_filter.mp hc).1

/-- Segments of a path are added in full. -/
theorem isWritten_addAll {segments : List (List Char)}
    (h : ∀ segment ∈ segments, ∀ c ∈ segment, c ≠ '/' ∧ c ≠ '\\')
    (htrail : ∀ t ∈ trail.segments, IsWritten t) :
    ∀ t ∈ (trail.addAll true segments).segments, IsWritten t := by
  have hset {segment : List Char} (hsegment : segment ∈ segments) (cs : List Char)
      (hcs : ∀ c ∈ cs, c ∈ segment) : IsWritten (String.ofList (encodeText pathSet cs)) :=
    isWritten_encodedSegment fun c hc => h segment hsegment c (hcs c hc)
  fun_induction Trail.addAll true trail segments with
  | case1 trail => exact htrail
  | case2 trail segment =>
    exact forall_segments_add isWritten_empty (fun _ => isWritten_drive)
      (hset List.mem_cons_self) htrail
  | case3 trail segment rest _ ih =>
    refine ih (fun t ht => h t (List.mem_cons_of_mem _ ht)) ?_ ?_
    · exact forall_segments_add isWritten_empty (fun _ => isWritten_drive)
        (hset List.mem_cons_self) htrail
    · exact fun ht => hset (List.mem_cons_of_mem _ ht)

theorem segments_add_last_ne_nil {set : CharSet} {segment : List Char} :
    (trail.add true set segment true).segments ≠ [] := by
  unfold Trail.add
  split
  · exact List.cons_ne_nil _ _
  · by_cases hdouble : isDoubleDot (String.ofList (encodeText set (dropLayout segment))) = true
    · rw [segments_addText_climbing hdouble]
      exact List.append_ne_nil_of_right_ne_nil _ (List.cons_ne_nil _ _)
    · obtain ⟨t, ht⟩ := segments_addText_last trail hdouble
      rw [ht]
      exact List.append_ne_nil_of_right_ne_nil _ (List.cons_ne_nil _ _)

theorem segments_addAll_ne_nil {segments : List (List Char)} (h : segments ≠ []) :
    (trail.addAll true segments).segments ≠ [] := by
  fun_induction Trail.addAll true trail segments with
  | case1 => exact absurd rfl h
  | case2 trail segment => exact segments_add_last_ne_nil
  | case3 trail segment rest hrest ih => exact ih fun hnil => hrest hnil

theorem dropEmptyFront_sublist (segments : List String) :
    (dropEmptyFront segments).Sublist segments := by
  fun_induction dropEmptyFront segments with
  | case1 segment rest ih => exact ih.trans (List.sublist_cons_self _ _)
  | case2 segments => exact List.Sublist.refl _

theorem dropEmptyFront_eq_self {front : List String} (h : front.head? ≠ some "") (last : String) :
    dropEmptyFront (front ++ [last]) = front ++ [last] := by
  unfold dropEmptyFront
  split
  · rename_i segment rest heq
    cases front with
    | nil => cases heq
    | cons s front => exact absurd (congrArg some (List.cons.inj heq).1) h
  · rfl

/-- The last segment stays, and the first one is empty only if it is the last. -/
theorem exists_dropEmptyFront_eq (front : List String) (last : String) :
    ∃ front', dropEmptyFront (front ++ [last]) = front' ++ [last] ∧ front'.head? ≠ some "" := by
  induction front with
  | nil => exact ⟨[], dropEmptyFront_eq_self (by simp) last, by simp⟩
  | cons s front ih =>
    by_cases hs : s = ""
    · subst hs
      obtain ⟨front', heq, hhead⟩ := ih
      refine ⟨front', ?_, hhead⟩
      rw [← heq, List.cons_append]
      cases front <;> rfl
    · have hhead : (s :: front).head? ≠ some "" := by simpa using hs
      exact ⟨s :: front, dropEmptyFront_eq_self hhead last, hhead⟩

theorem readPath_file (cs : List Char) :
    readPath "file" cs = dropEmptyFront (readTrail true true cs).segments := rfl

/-- **The segments of a path are written in full.** -/
theorem isWritten_readPath (cs : List Char) : ∀ s ∈ readPath "file" cs, IsWritten s := by
  intro s hs
  rw [readPath_file] at hs
  refine isWritten_addAll ?_ ?_ s ((dropEmptyFront_sublist _).subset hs)
  · exact fun segment hsegment c => ne_separator_of_mem_cutSegments hsegment
  · exact fun t ht => absurd ht List.not_mem_nil

theorem exists_readPath_eq (cs : List Char) :
    ∃ directory file, readPath "file" cs = directory ++ [file] ∧ directory.head? ≠ some "" := by
  have hne : (readTrail true true cs).segments ≠ [] :=
    segments_addAll_ne_nil (List.splitOn_ne_nil _ _)
  obtain ⟨front, last, heq⟩ := (List.eq_nil_or_concat' _).resolve_left hne
  obtain ⟨front', hdrop, hhead⟩ := exists_dropEmptyFront_eq front last
  exact ⟨front', last, by rw [readPath_file, heq, hdrop], hhead⟩

/-! ## Reading a written path again -/

/-- What has been read of a path after the segments of a directory. -/
def enter (directory : List String) : Trail :=
  directory.foldl (fun trail s => trail.addText true s false) Trail.root

theorem enter_append_singleton (directory : List String) (s : String) :
    enter (directory ++ [s]) = (enter directory).addText true s false := by
  rw [enter, List.foldl_append]
  rfl

theorem IsWritten.add_eq (hs : IsWritten s) :
    trail.add true pathSet s.toList isLast = trail.addText true s isLast := by
  unfold Trail.add
  rw [hs.splitDrive_eq_none, ite_self, hs.dropLayout_eq, hs.encodeText_eq, String.ofList_toList]

theorem addAll_eq_foldl {directory : List String} {file : String}
    (h : ∀ s ∈ directory ++ [file], IsWritten s) :
    trail.addAll true ((directory ++ [file]).map String.toList) =
      (directory.foldl (fun trail s => trail.addText true s false) trail).addText true file true := by
  induction directory generalizing trail with
  | nil => exact (h file List.mem_cons_self).add_eq
  | cons s directory ih =>
    have hs : IsWritten s := h s List.mem_cons_self
    obtain ⟨next, rest, hrest⟩ := List.exists_cons_of_ne_nil
      (List.append_ne_nil_of_right_ne_nil directory (List.cons_ne_nil file []))
    have hnext := @ih (trail.addText true s false) fun t ht => h t (List.mem_cons_of_mem s ht)
    rw [hrest] at hnext
    rw [List.cons_append, hrest, List.map_cons, List.map_cons, Trail.addAll, hs.add_eq,
      List.foldl_cons, ← hnext, List.map_cons]
    simp

/-- **A written path is read segment by segment.** -/
theorem readPath_renderSegments {directory : List String} {file : String}
    (h : ∀ s ∈ directory ++ [file], IsWritten s) :
    readPath "file" (renderSegments (directory ++ [file])).toList.tail =
      dropEmptyFront ((enter directory).addText true file true).segments := by
  have hne : directory ++ [file] ≠ [] :=
    List.append_ne_nil_of_right_ne_nil directory (List.cons_ne_nil file [])
  rw [readPath_file, readTrail, cutSegments_renderSegments hne h, addAll_eq_foldl h]
  rfl

/-- A directory that is read again as it stands: nothing in it is a dot segment, and a drive
letter in front is written with a colon. -/
structure IsSettled (directory : List String) : Prop where
  no_dots : ∀ s ∈ directory, ¬IsDots s
  colon : ∀ a : Char, a.isAlpha = true → directory.head? ≠ some (String.ofList [a, '|'])

theorem segments_foldl_addText {directory : List String} (hdots : ∀ s ∈ directory, ¬IsDots s)
    (hne : trail.segments ≠ []) :
    (directory.foldl (fun trail s => trail.addText true s false) trail).segments =
      trail.segments ++ directory := by
  induction directory generalizing trail with
  | nil => rw [List.foldl_nil, List.append_nil]
  | cons s directory ih =>
    have hadd : (trail.addText true s false).segments = trail.segments ++ [s] :=
      segments_addText (hdots s List.mem_cons_self) (Or.inl hne)
    rw [List.foldl_cons, ih (fun t ht => hdots t (List.mem_cons_of_mem s ht)), hadd,
      List.append_assoc, List.singleton_append]
    rw [hadd]
    exact List.append_ne_nil_of_left_ne_nil hne _

theorem segments_enter_cons {s t : String} {rest : List String} (hdots : ∀ s ∈ rest, ¬IsDots s)
    (hfront : (Trail.root.addText true s false).segments = [t]) :
    (enter (s :: rest)).segments = t :: rest := by
  have hne : (Trail.root.addText true s false).segments ≠ [] := by
    rw [hfront]
    exact List.cons_ne_nil t []
  rw [enter, List.foldl_cons, segments_foldl_addText hdots hne, hfront, List.singleton_append]

theorem segments_enter_of_settled {directory : List String} (h : IsSettled directory) :
    (enter directory).segments = directory := by
  cases directory with
  | nil => rfl
  | cons s rest =>
    refine segments_enter_cons (fun t ht => h.no_dots t (List.mem_cons_of_mem s ht)) ?_
    by_cases hdrive : isDriveLetter s.toList = true
    · obtain ⟨a, ha, hs⟩ := isDriveLetter_iff.mp hdrive
      have hcolon : s.toList = [a, ':'] := by
        refine hs.resolve_right fun hbar => h.colon a ha ?_
        rw [List.head?_cons, ← hbar, String.ofList_toList]
      rw [segments_addText_drive ha hs rfl, ← hcolon, String.ofList_toList]
    · rw [segments_addText (h.no_dots s List.mem_cons_self)
        (Or.inr (Bool.eq_false_iff.mpr hdrive))]
      rfl

/-- A drive letter that was written with a bar is written with a colon now. -/
theorem segments_enter_of_bar {a : Char} (ha : a.isAlpha = true) {rest : List String}
    (hdots : ∀ s ∈ rest, ¬IsDots s) :
    (enter (String.ofList [a, '|'] :: rest)).segments = String.ofList [a, ':'] :: rest :=
  segments_enter_cons hdots (segments_addText_drive ha (Or.inr String.toList_ofList) rfl)

/-- Nothing that has been read is a dot segment. -/
theorem not_isDots_addText (htrail : ∀ t ∈ trail.segments, ¬IsDots t) :
    ∀ t ∈ (trail.addText true s isLast).segments, ¬IsDots t :=
  forall_segments_addText not_isDots_empty
    (fun _ ha => not_isDots_of_isAlpha ha String.toList_ofList) id htrail

theorem not_isDots_enter (directory : List String) :
    ∀ t ∈ (enter directory).segments, ¬IsDots t := by
  induction directory using List.reverseRecOn with
  | nil => exact fun t ht => absurd ht List.not_mem_nil
  | append_singleton directory s ih =>
    rw [enter_append_singleton]
    exact not_isDots_addText ih

theorem length_enter_le (directory : List String) :
    (enter directory).segments.length ≤ directory.length := by
  induction directory using List.reverseRecOn with
  | nil => exact Nat.le_refl _
  | append_singleton directory s ih =>
    rw [enter_append_singleton, List.length_append, List.length_singleton]
    exact Nat.le_trans length_segments_addText_le (Nat.add_le_add_right ih 1)

theorem length_readPath_le {directory : List String} {file : String}
    (h : ∀ s ∈ directory ++ [file], IsWritten s) :
    (readPath "file" (renderSegments (directory ++ [file])).toList.tail).length ≤
      directory.length + 1 := by
  rw [readPath_renderSegments h]
  calc (dropEmptyFront ((enter directory).addText true file true).segments).length
      ≤ ((enter directory).addText true file true).segments.length :=
        (dropEmptyFront_sublist _).length_le
    _ ≤ (enter directory).segments.length + 1 := length_segments_addText_le
    _ ≤ directory.length + 1 := Nat.add_le_add_right (length_enter_le directory) 1

theorem head?_dropParent {done : List String} (h : done.head? ≠ some "") :
    (dropParent done).head? ≠ some "" := by
  rcases dropParent_cases done with heq | heq
  · rwa [heq]
  · rw [heq, List.head?_dropLast]
    split
    · exact h
    · simp

/-- The directory of a path that is read again. -/
theorem dropLast_readPath {directory : List String} {file : String}
    (h : ∀ s ∈ directory ++ [file], IsWritten s)
    (hfront : (enter directory).segments.head? ≠ some "") :
    (readPath "file" (renderSegments (directory ++ [file])).toList.tail).dropLast =
      if isDoubleDot file = true then dropParent (enter directory).segments
      else (enter directory).segments := by
  rw [readPath_renderSegments h]
  split
  · rename_i hclimb
    rw [segments_addText_climbing hclimb, dropEmptyFront_eq_self (head?_dropParent hfront),
      List.dropLast_concat]
  · rename_i hstay
    obtain ⟨t, ht⟩ := segments_addText_last (enter directory) hstay
    rw [ht, dropEmptyFront_eq_self hfront, List.dropLast_concat]

/-- A settled directory is read again as it is, unless the last segment climbs out of it. -/
theorem dropLast_readPath_of_settled {directory : List String} {file : String}
    (h : ∀ s ∈ directory ++ [file], IsWritten s) (hsettled : IsSettled directory)
    (hfront : directory.head? ≠ some "") :
    (readPath "file" (renderSegments (directory ++ [file])).toList.tail).dropLast =
      if isDoubleDot file = true then dropParent directory else directory := by
  have henter := segments_enter_of_settled hsettled
  rw [dropLast_readPath h (henter.symm ▸ hfront), henter]

/-- A directory that is not settled is not read again as it is. -/
theorem dropLast_readPath_ne {directory : List String} {file : String}
    (h : ∀ s ∈ directory ++ [file], IsWritten s) (hsettled : ¬IsSettled directory) :
    (readPath "file" (renderSegments (directory ++ [file])).toList.tail).dropLast ≠ directory := by
  intro hsame
  have hdots : ∀ s ∈ directory, ¬IsDots s := by
    intro s hs
    rw [← hsame, readPath_renderSegments h] at hs
    have hread := (dropEmptyFront_sublist _).subset ((List.dropLast_sublist _).subset hs)
    exact not_isDots_addText (not_isDots_enter directory) s hread
  -- All that is left is a bar behind the drive letter.
  obtain ⟨a, ha, hhead⟩ : ∃ a : Char, a.isAlpha = true ∧
      directory.head? = some (String.ofList [a, '|']) := by
    by_contra hnone
    exact hsettled ⟨hdots, fun a ha hhead => hnone ⟨a, ha, hhead⟩⟩
  obtain ⟨rest, rfl⟩ := List.head?_eq_some_iff.mp hhead
  have henter := segments_enter_of_bar ha fun s hs => hdots s (List.mem_cons_of_mem _ hs)
  have hfront : (enter (String.ofList [a, '|'] :: rest)).segments.head? ≠ some "" := by
    rw [henter, List.head?_cons]
    simp
  have hcolon : String.ofList [a, ':'] :: rest ≠ String.ofList [a, '|'] :: rest := by simp
  rw [dropLast_readPath h hfront, henter] at hsame
  split at hsame
  · rcases dropParent_cases (String.ofList [a, ':'] :: rest) with heq | heq
    · exact hcolon (heq ▸ hsame)
    · have hlength := congrArg List.length (heq ▸ hsame)
      rw [List.length_dropLast, List.length_cons, List.length_cons] at hlength
      omega
  · exact hcolon hsame

/-- **Reading a path again keeps its directory** exactly if the directory is settled and the last
segment does not climb out of it. -/
theorem dropLast_readPath_eq_iff {directory : List String} {file : String}
    (h : ∀ s ∈ directory ++ [file], IsWritten s) (hfront : directory.head? ≠ some "") :
    (readPath "file" (renderSegments (directory ++ [file])).toList.tail).dropLast = directory ↔
      IsSettled directory ∧ (isDoubleDot file = true → dropParent directory = directory) := by
  by_cases hsettled : IsSettled directory
  · rw [dropLast_readPath_of_settled h hsettled hfront, ite_eq_right_iff]
    exact (and_iff_right hsettled).symm
  · constructor
    · exact fun hsame => absurd hsame (dropLast_readPath_ne h hsettled)
    · exact fun hboth => absurd hboth.1 hsettled

/-- A path that is shorter than a directory is not read as one inside it. -/
theorem dropLast_readPath_ne_of_length {directory front : List String} {last : String}
    (h : ∀ s ∈ front ++ [last], IsWritten s) (hlength : front.length < directory.length) :
    (readPath "file" (renderSegments (front ++ [last])).toList.tail).dropLast ≠ directory := by
  intro hsame
  have hle := length_readPath_le h
  have hlast := congrArg List.length hsame
  rw [List.length_dropLast] at hlast
  omega

end Uri

end SymbolRename
