import Mathlib.Data.List.Forall2
import Mathlib.Data.List.Induction
import Mathlib.Data.List.TakeWhile
import SymbolRename.CursorMarkup
import SymbolRename.Proofs.FirstOccurrences
import SymbolRename.Proofs.Offsets

/-! # Reading and writing cursor markup

`Written` says which marked texts stand for a list of pieces, and `Means` what the pieces mean: the
text without the markup, and a cursor from the position in front of its content to the position
behind it.  Reading inverts writing: whatever plain runs and markers are written one behind the
other, their meaning is read back (`parse_written`), and whatever is read was written so
(`written_of_parse`).  Both directions follow the scan from marker to marker, of which `marker` has
to find exactly the written ones (`marker_eq_point_iff`, `marker_eq_range_iff`).
-/
namespace SymbolRename

namespace CursorMarkup

open Position

/-! ## Written pieces -/

/-- How the name of a cursor is written.  The name of an unnamed cursor is empty, and so is that of
a cursor with nothing but a `$`. -/
inductive NameWritten : List Char → List Char → Prop where
  | unnamed : NameWritten [] []
  | named {name : List Char} (h : ∀ c ∈ name, isNameChar c = true) : NameWritten name ('$' :: name)

/-- How a piece is written; the content of a range goes up to the first `]>`. -/
inductive Piece.Written : Piece → List Char → Prop where
  | plain (run : List Char) : Piece.Written (.plain run) run
  | point {name sign : List Char} (h : NameWritten name sign) :
      Piece.Written (.point name) ('<' :: sign ++ ['|', '>'])
  | range {name sign content : List Char} (h : NameWritten name sign)
      (hcontent : ¬[']', '>'] <:+: content) :
      Piece.Written (.range name content) ('<' :: sign ++ '[' :: content ++ [']', '>'])

/-- How pieces are written, one behind the other. -/
inductive Written : List Piece → List Char → Prop where
  | nil : Written [] []
  | cons {piece : Piece} {pieces : List Piece} {part cs : List Char} (hpiece : piece.Written part)
      (h : Written pieces cs) : Written (piece :: pieces) (part ++ cs)

/-- A piece that can be written: the characters of its name are those of names, and its content does
not end before its end. -/
def Piece.IsMarkup : Piece → Prop
  | .plain _ => True
  | .point name => ∀ c ∈ name, isNameChar c = true
  | .range name content => (∀ c ∈ name, isNameChar c = true) ∧ ¬[']', '>'] <:+: content

theorem nameWritten_renderName {name : List Char} (h : ∀ c ∈ name, isNameChar c = true) :
    NameWritten name (renderName name) := by
  rw [renderName]
  split
  · rename_i hnil
    rw [hnil]
    exact .unnamed
  · exact .named h

theorem Piece.IsMarkup.written_render {piece : Piece} (h : piece.IsMarkup) :
    piece.Written piece.render := by
  cases piece with
  | plain run => exact .plain run
  | point name => exact .point (nameWritten_renderName h)
  | range name content => exact .range (nameWritten_renderName h.1) h.2

/-- `render` is one way to write pieces. -/
theorem written_render {pieces : List Piece} (h : ∀ piece ∈ pieces, piece.IsMarkup) :
    Written pieces (render pieces) := by
  induction pieces with
  | nil => exact .nil
  | cons piece pieces ih =>
    rw [List.forall_mem_cons] at h
    exact .cons h.1.written_render (ih h.2)

/-! ## Markers -/

/-- A range ends at the first `]>`. -/
theorem splitAtClose_eq_some_iff {cs content rest : List Char} :
    splitAtClose cs = some (content, rest) ↔
      cs = content ++ ']' :: '>' :: rest ∧ ¬[']', '>'] <:+: content := by
  fun_induction splitAtClose cs generalizing content with
  | case1 => simp
  | case2 behind =>
    constructor
    · intro h
      obtain ⟨rfl, rfl⟩ := Prod.mk.inj (Option.some.inj h)
      exact ⟨rfl, by simp⟩
    · rintro ⟨hcs, hcontent⟩
      rcases content with _ | ⟨c, _ | ⟨d, content⟩⟩
      · rw [List.nil_append, List.cons.injEq, List.cons.injEq] at hcs
        rw [hcs.2.2]
      · rw [List.cons_append, List.cons.injEq] at hcs
        exact absurd (List.cons.inj hcs.2).1 (by decide)
      · rw [List.cons_append, List.cons_append, List.cons.injEq, List.cons.injEq] at hcs
        rw [← hcs.1, ← hcs.2.1] at hcontent
        exact absurd ⟨[], content, rfl⟩ hcontent
  | case3 c cs hopen ih =>
    constructor
    · intro h
      obtain ⟨⟨content', rest'⟩, hsplit, heq⟩ := Option.map_eq_some_iff.mp h
      obtain ⟨rfl, rfl⟩ := Prod.mk.inj heq
      obtain ⟨rfl, hcontent⟩ := ih.mp hsplit
      refine ⟨rfl, ?_⟩
      rw [List.infix_cons_iff]
      rintro (⟨tail, htail⟩ | hinner)
      · -- Then the range would have been closed right here.
        rw [List.cons_append, List.cons.injEq] at htail
        exact hopen (tail ++ ']' :: '>' :: rest') htail.1.symm (by rw [← htail.2]; rfl)
      · exact hcontent hinner
    · rintro ⟨hcs, hcontent⟩
      cases content with
      | nil =>
        obtain ⟨rfl, rfl⟩ := List.cons.inj hcs
        exact absurd rfl (hopen rest rfl)
      | cons d content =>
        obtain ⟨rfl, rfl⟩ := List.cons.inj hcs
        rw [List.infix_cons_iff, not_or] at hcontent
        rw [ih.mpr ⟨rfl, hcontent.2⟩]
        rfl

theorem exists_splitName (after : List Char) :
    ∃ sign, NameWritten (splitName after).1 sign ∧ after = sign ++ (splitName after).2 := by
  unfold splitName
  split
  · rename_i cs
    refine ⟨'$' :: cs.takeWhile isNameChar, .named fun c hc => List.mem_takeWhile_imp hc, ?_⟩
    rw [List.cons_append, List.takeWhile_append_dropWhile]
  · exact ⟨[], .unnamed, rfl⟩

/-- A name is read up to a character that cannot belong to it. -/
theorem splitName_append {name sign : List Char} (h : NameWritten name sign) {d : Char}
    (hd : isNameChar d = false) (hdollar : d ≠ '$') (body : List Char) :
    splitName (sign ++ d :: body) = (name, d :: body) := by
  cases h with
  | unnamed =>
    unfold splitName
    split
    · rename_i cs hcs
      exact absurd (List.cons.inj hcs).1 hdollar
    · rfl
  | named hname =>
    have hstop : ¬isNameChar d = true := by
      rw [hd]
      exact Bool.false_ne_true
    rw [List.cons_append, splitName, List.takeWhile_append_of_pos hname,
      List.dropWhile_append_of_pos hname, List.takeWhile_cons_of_neg hstop,
      List.dropWhile_cons_of_neg hstop, List.append_nil]

/-- **A point is read exactly where one is written.** -/
theorem marker_eq_point_iff {after name rest : List Char} :
    marker after = .point name rest ↔
      ∃ sign, NameWritten name sign ∧ after = sign ++ '|' :: '>' :: rest := by
  constructor
  · intro h
    obtain ⟨sign, hname, hafter⟩ := exists_splitName after
    unfold marker at h
    split at h
    rename_i name' body hsplit
    rw [hsplit] at hname hafter
    split at h
    · obtain ⟨rfl, rfl⟩ := Marker.point.inj h
      exact ⟨sign, hname, hafter⟩
    · cases h
    · split at h <;> cases h
    · cases h
  · rintro ⟨sign, hname, rfl⟩
    rw [marker, splitName_append hname (by decide) (by decide)]
    rfl

/-- **A range is read exactly where one is written.** -/
theorem marker_eq_range_iff {after name content rest : List Char} :
    marker after = .range name content rest ↔
      ∃ sign, NameWritten name sign ∧ ¬[']', '>'] <:+: content ∧
        after = sign ++ '[' :: (content ++ ']' :: '>' :: rest) := by
  constructor
  · intro h
    obtain ⟨sign, hname, hafter⟩ := exists_splitName after
    unfold marker at h
    split at h
    rename_i name' body hsplit
    rw [hsplit] at hname hafter
    split at h
    · cases h
    · cases h
    · split at h
      · rename_i hclose
        obtain ⟨rfl, rfl, rfl⟩ := Marker.range.inj h
        obtain ⟨rfl, hcontent⟩ := splitAtClose_eq_some_iff.mp hclose
        exact ⟨sign, hname, hcontent, hafter⟩
      · cases h
    · cases h
  · rintro ⟨sign, hname, hcontent, rfl⟩
    rw [marker, splitName_append hname (by decide) (by decide)]
    simp only [splitAtClose_eq_some_iff.mpr ⟨rfl, hcontent⟩]

/-! ## The scan -/

/-- Without a `<` there is no markup. -/
theorem parse_run {run : List Char} (h : '<' ∉ run) : parse run = .ok [.plain run] := by
  have hall := forall_ne_of_notMem h
  rw [parse]
  dsimp only
  split
  · rw [List.takeWhile_eq_self_iff.mpr hall]
  · rename_i lt after hd
    rw [List.dropWhile_eq_nil_iff.mpr hall] at hd
    cases hd

/-- The scan goes from the first `<` on as the marker behind it says. -/
theorem parse_marker {run : List Char} (h : '<' ∉ run) (after : List Char) :
    parse (run ++ '<' :: after) =
      match marker after with
      | .point name rest => (parse rest).map (.plain run :: .point name :: ·)
      | .range name content rest => (parse rest).map (.plain run :: .range name content :: ·)
      | .unclosed => .error (.unclosedRange run)
      | .broken => .error (.brokenPoint run)
      | .literal => (parse after).map (.plain run :: .plain ['<'] :: ·) := by
  have htake : (run ++ '<' :: after).takeWhile (· ≠ '<') = run := by
    rw [List.takeWhile_append_of_pos (forall_ne_of_notMem h)]
    exact List.append_nil run
  have hdrop : (run ++ '<' :: after).dropWhile (· ≠ '<') = '<' :: after := by
    rw [List.dropWhile_append_of_pos (forall_ne_of_notMem h)]
    rfl
  rw [parse]
  dsimp only
  split
  · rename_i hd
    rw [hdrop] at hd
    cases hd
  · rename_i lt after' hd
    rw [hdrop] at hd
    obtain ⟨rfl, rfl⟩ := List.cons.inj hd
    rw [htake]
    split <;> rename_i hm <;> rw [hm]

/-! ## Reading what is written -/

/-- Pieces of which the text and the cursors are the same, wherever they begin. -/
def SameMeaning (pieces pieces' : List Piece) : Prop :=
  pieces.flatMap Piece.text = pieces'.flatMap Piece.text ∧
    ∀ here, cursorsFrom here pieces = cursorsFrom here pieces'

theorem SameMeaning.refl (pieces : List Piece) : SameMeaning pieces pieces := ⟨rfl, fun _ => rfl⟩

theorem SameMeaning.trans {ps qs rs : List Piece} (h : SameMeaning ps qs) (h' : SameMeaning qs rs) :
    SameMeaning ps rs :=
  ⟨h.1.trans h'.1, fun here => (h.2 here).trans (h'.2 here)⟩

theorem SameMeaning.cons (piece : Piece) {pieces pieces' : List Piece}
    (h : SameMeaning pieces pieces') : SameMeaning (piece :: pieces) (piece :: pieces') := by
  refine ⟨by rw [List.flatMap_cons, List.flatMap_cons, h.1], fun here => ?_⟩
  cases piece with
  | plain run => exact h.2 (here.advance run)
  | point name => rw [cursorsFrom, cursorsFrom, h.2]
  | range name content => rw [cursorsFrom, cursorsFrom, h.2]

/-- Two plain runs are one. -/
theorem sameMeaning_plain_append (run run' : List Char) (pieces : List Piece) :
    SameMeaning (.plain run :: .plain run' :: pieces) (.plain (run ++ run') :: pieces) := by
  refine ⟨by simp [Piece.text], fun here => ?_⟩
  simp only [cursorsFrom, advance_append]

theorem sameMeaning_plain_nil (pieces : List Piece) : SameMeaning pieces (.plain [] :: pieces) :=
  ⟨by simp [Piece.text], fun _ => rfl⟩

/-- **Written pieces are read back.**  The induction is on the pieces; `run` is what has been read
since the last marker, and it goes into the run in front of the next one. -/
theorem parse_written_behind {pieces : List Piece} {cs : List Char} (h : Written pieces cs)
    (hplain : ∀ run, .plain run ∈ pieces → '<' ∉ run) {run : List Char} (hrun : '<' ∉ run) :
    ∃ pieces', parse (run ++ cs) = .ok pieces' ∧ SameMeaning (.plain run :: pieces) pieces' := by
  induction h generalizing run with
  | nil =>
    rw [List.append_nil]
    exact ⟨_, parse_run hrun, .refl _⟩
  | @cons piece pieces part cs hpiece _ ih =>
    have hrest : ∀ run, .plain run ∈ pieces → '<' ∉ run :=
      fun run hmem => hplain run (List.mem_cons_of_mem piece hmem)
    cases hpiece with
    | plain =>
      have hboth : '<' ∉ run ++ part := by
        rw [List.mem_append, not_or]
        exact ⟨hrun, hplain part List.mem_cons_self⟩
      obtain ⟨pieces', hparse, hsame⟩ := ih hrest hboth
      rw [List.append_assoc] at hparse
      exact ⟨pieces', hparse, (sameMeaning_plain_append run part pieces).trans hsame⟩
    | @point name sign hname =>
      obtain ⟨pieces', hparse, hsame⟩ := ih hrest List.not_mem_nil
      rw [List.nil_append] at hparse
      have hmarker : marker (sign ++ '|' :: '>' :: cs) = .point name cs :=
        marker_eq_point_iff.mpr ⟨sign, hname, rfl⟩
      refine ⟨.plain run :: .point name :: pieces', ?_,
        .cons _ (.cons _ ((sameMeaning_plain_nil pieces).trans hsame))⟩
      have hstep := parse_marker hrun (sign ++ '|' :: '>' :: cs)
      simp only [hmarker, hparse] at hstep
      simpa [Except.map] using hstep
    | @range name sign content hname hcontent =>
      obtain ⟨pieces', hparse, hsame⟩ := ih hrest List.not_mem_nil
      rw [List.nil_append] at hparse
      have hmarker : marker (sign ++ '[' :: (content ++ ']' :: '>' :: cs)) = .range name content cs :=
        marker_eq_range_iff.mpr ⟨sign, hname, hcontent, rfl⟩
      refine ⟨.plain run :: .range name content :: pieces', ?_,
        .cons _ (.cons _ ((sameMeaning_plain_nil pieces).trans hsame))⟩
      have hstep := parse_marker hrun (sign ++ '[' :: (content ++ ']' :: '>' :: cs))
      simp only [hmarker, hparse] at hstep
      simpa [Except.map] using hstep

/-! ## Writing what was read -/

/-- What a step of the scan puts in front of the pieces of the rest. -/
theorem exists_of_map_eq_ok {f : List Piece → List Piece} {result : Except Error (List Piece)}
    {pieces : List Piece} (h : result.map f = .ok pieces) :
    ∃ rest, result = .ok rest ∧ f rest = pieces := by
  cases result with
  | error e => cases h
  | ok rest => exact ⟨rest, rfl, Except.ok.inj h⟩

/-- The scan stops at a `<`. -/
theorem eq_takeWhile_append {cs after : List Char} {lt : Char}
    (h : cs.dropWhile (· ≠ '<') = lt :: after) :
    lt = '<' ∧ cs = cs.takeWhile (· ≠ '<') ++ lt :: after := by
  constructor
  · have hhead := List.head?_dropWhile_not (· ≠ '<') cs
    rw [h] at hhead
    simpa using hhead
  · rw [← h, List.takeWhile_append_dropWhile]

/-- **What is read has been written**: every input that is read is made of the pieces that are read
from it, one behind the other. -/
theorem written_of_parse {cs : List Char} {pieces : List Piece} (h : parse cs = .ok pieces) :
    Written pieces cs := by
  fun_induction parse cs generalizing pieces with
  | case1 cs run =>
    rename_i hd
    have hrun : run ++ [] = cs := by
      rw [← hd]
      exact List.takeWhile_append_dropWhile
    obtain rfl := Except.ok.inj h
    have hwritten := Written.cons (.plain run) .nil
    rwa [hrun] at hwritten
  | case2 cs run lt after hd _ name rest hm _ =>
    rename_i ih
    obtain ⟨rfl, hcs⟩ := eq_takeWhile_append hd
    obtain ⟨sign, hname, rfl⟩ := marker_eq_point_iff.mp hm
    obtain ⟨more, hparse, rfl⟩ := exists_of_map_eq_ok h
    have hwritten := Written.cons (.plain run) (.cons (.point hname) (ih hparse))
    simp only [List.cons_append, List.append_assoc, List.nil_append] at hwritten
    rwa [← hcs] at hwritten
  | case3 cs run lt after hd _ name content rest hm _ =>
    rename_i ih
    obtain ⟨rfl, hcs⟩ := eq_takeWhile_append hd
    obtain ⟨sign, hname, hcontent, rfl⟩ := marker_eq_range_iff.mp hm
    obtain ⟨more, hparse, rfl⟩ := exists_of_map_eq_ok h
    have hwritten := Written.cons (.plain run) (.cons (.range hname hcontent) (ih hparse))
    simp only [List.cons_append, List.append_assoc, List.nil_append] at hwritten
    rwa [← hcs] at hwritten
  | case4 => cases h
  | case5 => cases h
  | case6 cs run lt after hd _ hm =>
    rename_i ih
    obtain ⟨more, hparse, rfl⟩ := exists_of_map_eq_ok h
    have hwritten := Written.cons (.plain run) (.cons (.plain [lt]) (ih hparse))
    rwa [List.singleton_append, ← (eq_takeWhile_append hd).2] at hwritten

/-! ## Cursors -/

/-- The name and the content of a piece that is a marker. -/
def Piece.marker? : Piece → Option (List Char × List Char)
  | .plain _ => none
  | .point name => some (name, [])
  | .range name content => some (name, content)

/-- The cursor of the piece with number `i`, if that is a marker: it goes from the position behind
all that stands in front of the piece to the position behind the content of the piece. -/
def cursorAt (pieces : List Piece) (i : Nat) : Option (String × Span) :=
  (pieces[i]?.bind Piece.marker?).map fun marker =>
    (String.ofList marker.1, ⟨measure ((pieces.take i).flatMap Piece.text),
      measure ((pieces.take (i + 1)).flatMap Piece.text)⟩)

/-- What pieces mean: their plain runs and contents make up the text, and their markers, in order,
are its cursors. -/
structure Means (pieces : List Piece) (m : MarkedText) : Prop where
  text_eq : m.text.toList = pieces.flatMap Piece.text
  cursors_eq : m.cursors = (List.range pieces.length).filterMap (cursorAt pieces)

/-- A cursor with the name of a marker, and with the content of the marker between its ends, both of
which are positions of the text. -/
structure Marks (text : List Char) (marker : List Char × List Char) (cursor : String × Span) :
    Prop where
  name_eq : cursor.1 = String.ofList marker.1
  content : ∃ before after, text = before ++ marker.2 ++ after ∧
    Text.byteIndex? text cursor.2.start = some (Text.byteSize before) ∧
    Text.byteIndex? text cursor.2.stop = some (Text.byteSize (before ++ marker.2))

theorem advance_measure (before cs : List Char) :
    advance (measure before) cs = measure (before ++ cs) := by
  rw [measure_append, advance_eq_add]

/-- A point is a range without content. -/
theorem cursorsFrom_point (here : Position) (name : List Char) (pieces : List Piece) :
    cursorsFrom here (.point name :: pieces) = cursorsFrom here (.range name [] :: pieces) := rfl

theorem cursorsFrom_append (here : Position) (pieces pieces' : List Piece) :
    cursorsFrom here (pieces ++ pieces') = cursorsFrom here pieces ++
      cursorsFrom (advance here (pieces.flatMap Piece.text)) pieces' := by
  induction pieces generalizing here with
  | nil => rfl
  | cons piece pieces ih =>
    rw [List.cons_append, List.flatMap_cons, advance_append]
    cases piece with
    | plain run => exact ih (advance here run)
    | point name =>
      rw [cursorsFrom, cursorsFrom, ih]
      rfl
    | range name content =>
      rw [cursorsFrom, cursorsFrom, ih]
      rfl

/-- A piece more changes nothing about the cursors of the others. -/
theorem cursorAt_append {pieces : List Piece} {i : Nat} (hi : i < pieces.length) (piece : Piece) :
    cursorAt (pieces ++ [piece]) i = cursorAt pieces i := by
  rw [cursorAt, cursorAt, List.getElem?_append_left hi,
    List.take_append_of_le_length (Nat.le_of_lt hi), List.take_append_of_le_length hi]

theorem cursorAt_last (pieces : List Piece) (piece : Piece) :
    (cursorAt (pieces ++ [piece]) pieces.length).toList =
      cursorsFrom (measure (pieces.flatMap Piece.text)) [piece] := by
  have hall : (pieces ++ [piece]).take (pieces.length + 1) = pieces ++ [piece] :=
    List.take_of_length_le (by simp)
  rw [cursorAt, List.getElem?_concat_length, Option.bind_some, List.take_left, hall,
    List.flatMap_append, ← advance_measure]
  cases piece with
  | plain run => rfl
  | point name => rfl
  | range name content => simp [Piece.marker?, Piece.text, cursorsFrom]

/-- **The cursors of pieces lie where the pieces stand in the text.** -/
theorem cursorsFrom_eq (pieces : List Piece) :
    cursorsFrom origin pieces = (List.range pieces.length).filterMap (cursorAt pieces) := by
  induction pieces using List.reverseRecOn with
  | nil => rfl
  | append_singleton pieces piece ih =>
    have hsame : (List.range pieces.length).filterMap (cursorAt (pieces ++ [piece])) =
        (List.range pieces.length).filterMap (cursorAt pieces) := by
      refine List.filterMap_congr fun i hi => ?_
      exact cursorAt_append (List.mem_range.mp hi) piece
    have hlast : [pieces.length].filterMap (cursorAt (pieces ++ [piece])) =
        cursorsFrom (measure (pieces.flatMap Piece.text)) [piece] := by
      rw [← cursorAt_last]
      cases h : cursorAt (pieces ++ [piece]) pieces.length <;> simp [h]
    rw [cursorsFrom_append, ih, List.length_append, List.length_singleton, List.range_succ,
      List.filterMap_append, hsame, hlast]
    rfl

theorem means_ofPieces (pieces : List Piece) : Means pieces (MarkedText.ofPieces pieces) where
  text_eq := String.toList_ofList
  cursors_eq := cursorsFrom_eq pieces

/-- Each cursor marks the content of its marker, whatever text stands in front. -/
theorem marks_cursorsFrom (before : List Char) (pieces : List Piece) :
    List.Forall₂ (Marks (before ++ pieces.flatMap Piece.text)) (pieces.filterMap Piece.marker?)
      (cursorsFrom (measure before) pieces) := by
  induction pieces generalizing before with
  | nil => exact .nil
  | cons piece pieces ih =>
    rw [List.flatMap_cons, ← List.append_assoc]
    have hrest := ih (before ++ piece.text)
    have hstart := Text.byteIndex?_append before (piece.text ++ pieces.flatMap Piece.text)
    have hstop := Text.byteIndex?_append (before ++ piece.text) (pieces.flatMap Piece.text)
    rw [← List.append_assoc] at hstart
    cases piece with
    | plain run =>
      rw [cursorsFrom, advance_measure]
      exact hrest
    | point name =>
      rw [cursorsFrom_point, cursorsFrom, advance_measure]
      exact .cons ⟨rfl, before, _, rfl, hstart, hstop⟩ hrest
    | range name content =>
      rw [cursorsFrom, advance_measure]
      exact .cons ⟨rfl, before, _, rfl, hstart, hstop⟩ hrest

/-- The cursors of pieces that begin at `here` lie behind `here`, and none is reversed. -/
theorem le_start_of_mem_cursorsFrom {here : Position} {pieces : List Piece} {c : String × Span}
    (hc : c ∈ cursorsFrom here pieces) : here ≤ c.2.start ∧ c.2.start ≤ c.2.stop := by
  induction pieces generalizing here with
  | nil => exact absurd hc List.not_mem_nil
  | cons piece pieces ih =>
    cases piece with
    | plain run =>
      obtain ⟨hstart, hstop⟩ := ih hc
      exact ⟨le_trans (le_advance here run) hstart, hstop⟩
    | point name =>
      rcases List.mem_cons.mp hc with rfl | hc
      · exact ⟨le_refl here, le_refl here⟩
      · exact ih hc
    | range name content =>
      rcases List.mem_cons.mp hc with rfl | hc
      · exact ⟨le_refl here, le_advance here content⟩
      · obtain ⟨hstart, hstop⟩ := ih hc
        exact ⟨le_trans (le_advance here content) hstart, hstop⟩

/-- A cursor ends before the next one begins. -/
theorem pairwise_cursorsFrom (here : Position) (pieces : List Piece) :
    (cursorsFrom here pieces).Pairwise fun c d => c.2.stop ≤ d.2.start := by
  induction pieces generalizing here with
  | nil => exact .nil
  | cons piece pieces ih =>
    cases piece with
    | plain run => exact ih (advance here run)
    | point name => exact .cons (fun d hd => (le_start_of_mem_cursorsFrom hd).1) (ih here)
    | range name content =>
      exact .cons (fun d hd => (le_start_of_mem_cursorsFrom hd).1) (ih (advance here content))

/-! ## Marked texts -/

theorem SameMeaning.ofPieces_eq {pieces pieces' : List Piece} (h : SameMeaning pieces pieces') :
    MarkedText.ofPieces pieces = MarkedText.ofPieces pieces' := by
  rw [MarkedText.ofPieces, MarkedText.ofPieces, h.1, h.2]

/-- **The meaning of written pieces is read back.** -/
theorem parse_written {pieces : List Piece} {cs : List Char} (h : Written pieces cs)
    (hplain : ∀ run, .plain run ∈ pieces → '<' ∉ run) :
    MarkedText.parse (String.ofList cs) = .ok (MarkedText.ofPieces pieces) := by
  obtain ⟨pieces', hparse, hsame⟩ := parse_written_behind h hplain List.not_mem_nil
  rw [List.nil_append] at hparse
  rw [MarkedText.parse, String.toList_ofList, hparse,
    ((sameMeaning_plain_nil pieces).trans hsame).ofPieces_eq]
  rfl

/-- How a marked text comes from the input that it was read from. -/
structure ReadFrom (input : List Char) (pieces : List Piece) (m : MarkedText) : Prop where
  /-- The input is made of plain runs and markers. -/
  written : Written pieces input
  means : Means pieces m
  /-- The cursors stand around the contents of the markers, in their order. -/
  marks : List.Forall₂ (Marks m.text.toList) (pieces.filterMap Piece.marker?) m.cursors
  forward : ∀ c ∈ m.cursors, c.2.start ≤ c.2.stop
  /-- No cursor begins before another one that is in front of it has ended. -/
  ordered : m.cursors.Pairwise fun c d => c.2.stop ≤ d.2.start

theorem readFrom_ofPieces {input : List Char} {pieces : List Piece} (h : Written pieces input) :
    ReadFrom input pieces (MarkedText.ofPieces pieces) where
  written := h
  means := means_ofPieces pieces
  marks := by
    have hmarks := marks_cursorsFrom [] pieces
    rw [List.nil_append, ← (means_ofPieces pieces).text_eq] at hmarks
    exact hmarks
  forward := fun _ hc => (le_start_of_mem_cursorsFrom hc).2
  ordered := pairwise_cursorsFrom origin pieces

/-- **Reading and writing cursor markup are inverse to each other.**  Whatever is written with
markers and with plain runs that hold no `<` is read as the text and the cursors that it stands
for; this is so for all ways to write names and in particular for `render`.  And whatever is read,
also if a `<` stands in it that begins no marker, is made of plain runs and markers whose contents
stand between the ends of the cursors. -/
theorem markup_round_trip :
    (∀ pieces cs, Written pieces cs → (∀ run, .plain run ∈ pieces → '<' ∉ run) →
      ∃ m, MarkedText.parse (String.ofList cs) = .ok m ∧ Means pieces m) ∧
    (∀ pieces : List Piece, (∀ piece ∈ pieces, piece.IsMarkup) → Written pieces (render pieces)) ∧
    ∀ s m, MarkedText.parse s = .ok m → ∃ pieces, ReadFrom s.toList pieces m := by
  refine ⟨?_, fun pieces => written_render, ?_⟩
  · intro pieces cs hwritten hplain
    exact ⟨_, parse_written hwritten hplain, means_ofPieces pieces⟩
  · intro s m hparse
    rw [MarkedText.parse] at hparse
    cases hpieces : parse s.toList with
    | error e =>
      rw [hpieces] at hparse
      cases hparse
    | ok pieces =>
      rw [hpieces] at hparse
      obtain rfl := Except.ok.inj hparse
      exact ⟨pieces, readFrom_ofPieces (written_of_parse hpieces)⟩

/-- A run, a point with a bare `$`, and a range whose content looks like markup. -/
def mixedPieces : List Piece :=
  [.plain ['i', 'f', '\n'], .point [], .range ['A'] ['<', '|', '\n', ']'], .plain ['>']]

theorem mixed_markup_is_read :
    Written mixedPieces "if\n<$|><$A[<|\n]]>>".toList ∧
      ∃ m, MarkedText.parse (String.ofList "if\n<$|><$A[<|\n]]>>".toList) = .ok m ∧
        Means mixedPieces m := by
  have hpoint : Piece.Written (.point []) ['<', '$', '|', '>'] :=
    .point (.named (List.all_eq_true.mp rfl))
  have hrange : Piece.Written (.range ['A'] ['<', '|', '\n', ']'])
      ['<', '$', 'A', '[', '<', '|', '\n', ']', ']', '>'] :=
    .range (.named (List.all_eq_true.mp rfl)) (by decide)
  have hwritten : Written mixedPieces "if\n<$|><$A[<|\n]]>>".toList := by
    have h := Written.cons (.plain ['i', 'f', '\n'])
      (.cons hpoint (.cons hrange (.cons (.plain ['>']) .nil)))
    exact h
  refine ⟨hwritten, markup_round_trip.1 mixedPieces _ hwritten ?_⟩
  simp [mixedPieces]

end CursorMarkup

end SymbolRename
