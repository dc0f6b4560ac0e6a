import SymbolRename.Proofs.Occurrences

/-! # A rename is a transaction that can be carried out

The edits of a bundle cut their document at character boundaries, and the cuts follow
each other (`Cut.InOrder`).  An editor that makes such edits from the last to the
first finds every span where it was computed, because the text in front of a cut is
still untouched when its turn comes (`Cut.applyAll_edits`).  So the document ends up
as its own text with the new name in the place of every cut, and with nothing else
changed (`DocumentEdits.MakesCuts`).
-/
namespace SymbolRename

/-- The change by which an editor makes an edit. -/
def TextEdit.toChange (e : TextEdit) : Change := ⟨some e.span, e.newText⟩

/-- A part of a text between two character boundaries, which are numbered by the characters
before them. -/
structure Cut where
  start : Nat
  stop : Nat

namespace Cut

open Position

/-- No cut is empty and none starts before the one before it ends, where `ruler` measures the
boundaries and `low` is where the first cut may start. -/
def InOrder (ruler : Nat → Nat) : Nat → List Cut → Prop
  | _, [] => True
  | low, c :: cuts =>
    low ≤ ruler c.start ∧ ruler c.start < ruler c.stop ∧ InOrder ruler (ruler c.stop) cuts

/-- The text from the boundary `low` on, with `new` in the place of every cut. -/
def fill (cs new : List Char) : Nat → List Cut → List Char
  | low, [] => cs.drop low
  | low, c :: cuts => (cs.drop low).take (c.start - low) ++ new ++ fill cs new c.stop cuts

/-- The span of a cut. -/
def span (cs : List Char) (c : Cut) : Span := ⟨measure (cs.take c.start), measure (cs.take c.stop)⟩

/-- The edit that puts `new` in the place of a cut. -/
def edit (cs : List Char) (new : String) (c : Cut) : TextEdit := ⟨c.span cs, new⟩

variable {cs : List Char} {cuts : List Cut} {low : Nat}

/-- Edits that are each the edit of a cut are together the edits of a list of cuts. -/
theorem exists_map_edit {P : Cut → Prop} {new : String} {edits : List TextEdit}
    (h : ∀ e ∈ edits, ∃ c, P c ∧ e = c.edit cs new) :
    ∃ cuts : List Cut, edits = cuts.map (edit cs new) ∧ ∀ c ∈ cuts, P c := by
  induction edits with
  | nil => exact ⟨[], rfl, fun c hc => absurd hc List.not_mem_nil⟩
  | cons e edits ih =>
    obtain ⟨c, hc, rfl⟩ := h e List.mem_cons_self
    obtain ⟨cuts, rfl, hcuts⟩ := ih fun e' he' => h e' (List.mem_cons_of_mem _ he')
    exact ⟨c :: cuts, rfl, List.forall_mem_cons.mpr ⟨hc, hcuts⟩⟩

/-- Cuts in the order of their characters are in the order of their bytes. -/
theorem InOrder.bytes (h : InOrder id low cuts) (hin : ∀ c ∈ cuts, c.stop ≤ cs.length) :
    InOrder (Text.byteOffset cs) (Text.byteOffset cs low) cuts := by
  induction cuts generalizing low with
  | nil => exact trivial
  | cons c cuts ih =>
    obtain ⟨hlow, hlt, hrest⟩ := h
    have hstop := hin c List.mem_cons_self
    exact ⟨Text.byteOffset_le hlow (Nat.le_trans (Nat.le_of_lt hlt) hstop),
      Text.byteOffset_lt hlt hstop,
      ih hrest fun c' hc' => hin c' (List.mem_cons_of_mem c hc')⟩

/-- Edits that follow each other in a text cut it in order. -/
theorem inOrder_of_pairwise (hin : ∀ c ∈ cuts, c.start < c.stop ∧ c.stop ≤ cs.length)
    (hlow : ∀ c ∈ cuts, low ≤ c.start)
    (h : cuts.Pairwise fun a b => (a.span cs).stop ≤ (b.span cs).start) :
    InOrder id low cuts := by
  induction cuts generalizing low with
  | nil => exact trivial
  | cons c cuts ih =>
    obtain ⟨hnext, hrest⟩ := List.pairwise_cons.mp h
    obtain ⟨hlt, hstop⟩ := hin c List.mem_cons_self
    refine ⟨hlow c List.mem_cons_self, hlt,
      ih (fun d hd => hin d (List.mem_cons_of_mem c hd)) (fun d hd => ?_) hrest⟩
    obtain ⟨hlt', hstop'⟩ := hin d (List.mem_cons_of_mem c hd)
    exact (measure_take_le_iff hstop (Nat.le_trans (Nat.le_of_lt hlt') hstop')).mp (hnext d hd)

/-! ## Making the edits -/

/-- A span of a text is still where it was after everything behind it has changed. -/
theorem replace_take_append {i j : Nat} (hij : i ≤ j) (hj : j ≤ cs.length) (new rest : List Char) :
    Text.replace (cs.take j ++ rest) ⟨measure (cs.take i), measure (cs.take j)⟩ new =
      cs.take i ++ new ++ rest := by
  have hlen : (cs.take j).length = j := List.length_take_of_le hj
  have hi : (cs.take j ++ rest).take i = cs.take i := by
    rw [List.take_append_of_le_length (by rw [hlen]; exact hij), List.take_take,
      Nat.min_eq_left hij]
  have hj' : (cs.take j ++ rest).take j = cs.take j := by
    rw [List.take_append_of_le_length (Nat.le_of_eq hlen.symm), List.take_take, Nat.min_self]
  have hdrop : (cs.take j ++ rest).drop j = rest := by
    have h : (cs.take j ++ rest).drop (cs.take j).length = rest := List.drop_left
    rwa [hlen] at h
  have hle : j ≤ (cs.take j ++ rest).length := by
    rw [List.length_append, hlen]
    exact Nat.le_add_right ..
  have h := Text.replace_measure hij hle new
  rwa [hi, hj', hdrop] at h

/-- **Edits that are made from the last to the first fill the cuts.** -/
theorem applyAll_edits {text new : String} (h : InOrder id low cuts)
    (hin : ∀ c ∈ cuts, c.stop ≤ text.toList.length) (hlow : low ≤ text.toList.length) :
    (Change.applyAll ((cuts.map (edit text.toList new)).reverse.map TextEdit.toChange) text).toList =
      text.toList.take low ++ fill text.toList new.toList low cuts := by
  -- As a fold from the right, the first cut is made last: all cuts behind it are filled by then.
  rw [Change.applyAll, List.map_reverse, List.foldl_reverse]
  induction cuts generalizing low with
  | nil => exact (List.take_append_drop low text.toList).symm
  | cons c cuts ih =>
    obtain ⟨hstart, hlt, hrest⟩ : low ≤ c.start ∧ c.start < c.stop ∧ InOrder id c.stop cuts := h
    have hstop := hin c List.mem_cons_self
    have hbehind := ih hrest (fun d hd => hin d (List.mem_cons_of_mem c hd)) hstop
    rw [List.map_cons, List.map_cons, List.foldr_cons]
    show (String.ofList (Text.replace _ (c.span text.toList) new.toList)).toList = _
    rw [String.toList_ofList, hbehind, span, replace_take_append (Nat.le_of_lt hlt) hstop, fill]
    have hsplit : text.toList.take c.start =
        text.toList.take low ++ (text.toList.drop low).take (c.start - low) := by
      rw [← List.take_add, Nat.add_sub_cancel' hstart]
    rw [hsplit, List.append_assoc, List.append_assoc, List.append_assoc]

end Cut

/-- The edits of a bundle put `newName` in the place of `cuts` of a text.  The cuts are at
character boundaries and in increasing order of bytes; an edit starts and stops where its cut
does, on one row; and making the edits from the last to the first fills the cuts and changes
nothing else. -/
structure DocumentEdits.MakesCuts (d : DocumentEdits) (newName text : String) (cuts : List Cut) :
    Prop where
  length_eq : cuts.length = d.edits.length
  in_text : ∀ c ∈ cuts, c.stop ≤ text.toList.length
  in_order : Cut.InOrder (Text.byteOffset text.toList) 0 cuts
  placed : ∀ (k : Nat) (e : TextEdit) (c : Cut), d.edits[k]? = some e → cuts[k]? = some c →
    Text.byteIndex? text.toList e.span.start = some (Text.byteOffset text.toList c.start) ∧
      Text.byteIndex? text.toList e.span.stop = some (Text.byteOffset text.toList c.stop) ∧
      e.span.start.row = e.span.stop.row ∧ e.newText = newName
  carried_out : (Change.applyAll (d.edits.reverse.map TextEdit.toChange) text).toList =
    Cut.fill text.toList newName.toList 0 cuts

/-- A name token is cut out of its text, on one row. -/
theorem NameToken.exists_cut {text : List Char} {category : Category} {span place : Span}
    {before front word back after : List Char}
    (t : NameToken text category span place before front word back after) :
    ∃ c : Cut, c.start < c.stop ∧ c.stop ≤ text.length ∧ place = c.span text ∧
      place.start.row = place.stop.row := by
  have hstart : text.take (before ++ front).length = before ++ front := by
    rw [t.text_eq, List.append_assoc, List.append_assoc, List.take_left]
  have hstop : text.take (before ++ front ++ word).length = before ++ front ++ word := by
    rw [t.text_eq, List.append_assoc (before ++ front ++ word), List.take_left]
  have hword : 0 < word.length := List.length_pos_iff.mpr t.word_ne
  have hlen := congrArg List.length t.text_eq
  refine ⟨⟨(before ++ front).length, (before ++ front ++ word).length⟩, ?_, ?_, ?_, ?_⟩
  · simp only [List.length_append]
    omega
  · simp only [List.length_append] at hlen ⊢
    omega
  · rw [t.place_eq, Cut.span, hstart, hstop]
  · have hrow : '\n' ∉ word := fun hmem =>
      t.one_line (List.mem_append_left _ (List.mem_append_right _ hmem))
    rw [t.place_eq, Position.measure_append (before ++ front), ← Position.advance_eq_add]
    exact (Position.row_advance_of_no_newline _ hrow).symm

/-- The name of an occurrence is not empty. -/
theorem Occurrence.start_lt_stop {index : SyntaxIndex} {texts : TextSource} {home : Uri}
    {node : NodeId} (o : Occurrence index texts home node) :
    o.site.nameSpan.start < o.site.nameSpan.stop := by
  obtain ⟨before, front, word, back, after, t⟩ := o.exists_token
  obtain ⟨c, hlt, hin, hplace, -⟩ := t.exists_cut
  rw [hplace]
  exact Position.measure_take_lt hlt hin

namespace Rename

variable {index : SyntaxIndex} {texts : TextSource} {uri : Uri} {p : Position} {newName : String}

/-- Every edit of a bundle puts the new name in the place of a cut of its document. -/
theorem exists_cut_of_mem_edits {d : DocumentEdits} {text : String}
    (hd : d ∈ (rename index texts uri p newName).documents) (htext : texts d.uri = .ok text)
    {e : TextEdit} (he : e ∈ d.edits) :
    ∃ c : Cut, (c.start < c.stop ∧ c.stop ≤ text.toList.length ∧
      (c.span text.toList).start.row = (c.span text.toList).stop.row) ∧
      e = c.edit text.toList newName := by
  obtain ⟨m, -, hdoc, o, rfl⟩ := exists_occurrence_of_mem_edits hd he
  obtain rfl : o.text = text := Except.ok.inj (o.text_eq.symm.trans (hdoc ▸ htext))
  obtain ⟨before, front, word, back, after, t⟩ := o.exists_token
  obtain ⟨c, hlt, hin, hplace, hrow⟩ := t.exists_cut
  exact ⟨c, ⟨hlt, hin, hplace ▸ hrow⟩, congrArg (TextEdit.mk · newName) hplace⟩

theorem exists_text {d : DocumentEdits}
    (hd : d ∈ (rename index texts uri p newName).documents) : ∃ text, texts d.uri = .ok text := by
  obtain ⟨⟨m, -, hdoc, ⟨o⟩⟩, -⟩ := mem_rename_documents.mp hd
  exact ⟨o.text, hdoc ▸ o.text_eq⟩

/-- The edits of a bundle follow each other in their document. -/
theorem edits_apart {d : DocumentEdits}
    (hd : d ∈ (rename index texts uri p newName).documents) :
    d.edits.Pairwise fun a b => a.span.stop ≤ b.span.start := by
  obtain ⟨-, hedits⟩ := mem_rename_documents.mp hd
  rw [hedits]
  refine DocumentEdits.settle_apart fun e he => ?_
  obtain ⟨m, -, -, o, rfl⟩ := mem_editsOf_sitesAt.mp he
  exact o.start_lt_stop

/-- **A bundle can be carried out.**  It is not empty, and its edits make cuts in the text of
its document. -/
theorem bundle_is_applicable (d : DocumentEdits)
    (hd : d ∈ (rename index texts uri p newName).documents) :
    d.edits ≠ [] ∧
      ∃ text cuts, texts d.uri = .ok text ∧ d.MakesCuts newName text cuts := by
  obtain ⟨text, htext⟩ := exists_text hd
  obtain ⟨cuts, hedits, hcuts⟩ :=
    Cut.exists_map_edit fun e he => exists_cut_of_mem_edits hd htext he
  have hin : ∀ c ∈ cuts, c.stop ≤ text.toList.length := fun c hc => (hcuts c hc).2.1
  have hapart := edits_apart hd
  rw [hedits] at hapart
  have horder : Cut.InOrder id 0 cuts :=
    Cut.inOrder_of_pairwise (fun c hc => ⟨(hcuts c hc).1, hin c hc⟩)
      (fun c _ => Nat.zero_le c.start) (List.pairwise_map.mp hapart)
  refine ⟨edits_ne_nil hd, text, cuts, htext, ?_, hin, horder.bytes hin, ?_, ?_⟩
  · rw [hedits, List.length_map]
  · intro k e c he hc
    rw [hedits, List.getElem?_map, hc] at he
    obtain rfl : c.edit text.toList newName = e := Option.some.inj he
    obtain ⟨hlt, hstop, hrow⟩ := hcuts c (List.mem_of_getElem? hc)
    exact ⟨Text.byteIndex?_measure (Nat.le_trans (Nat.le_of_lt hlt) hstop),
      Text.byteIndex?_measure hstop, hrow, rfl⟩
  · rw [hedits]
    exact Cut.applyAll_edits horder hin (Nat.zero_le _)

/-- The class and its constructor are renamed together. -/
theorem shapes_bundle_is_applicable :
    Shapes.classEdits ∈ Shapes.renamed.documents ∧ Shapes.classEdits.edits ≠ [] ∧
      ∃ text cuts, Shapes.texts Shapes.classUri = .ok text ∧
        Shapes.classEdits.MakesCuts "Polygon" text cuts :=
  ⟨Shapes.classEdits_mem, bundle_is_applicable _ Shapes.classEdits_mem⟩

end Rename

end SymbolRename
