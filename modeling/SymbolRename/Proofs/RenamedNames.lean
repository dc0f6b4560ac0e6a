import SymbolRename.Proofs.Occurrences

/-! # A rename overwrites names and nothing else

The name of a reference is found in a line that was cut out of its document, as a
number of characters, and becomes a pair of positions of the document.  Every edit of
a rename still covers exactly that name (`Rename.CoversName`): it starts and stops at
the bytes where the name does, inside the first line of the span of a node that refers
to the renamed symbol, and the name is spelled as the category of the node demands.
-/
namespace SymbolRename

namespace NameToken

variable {text : List Char} {category : Category} {span place : Span}
  {before front word back after : List Char}
  (t : NameToken text category span place before front word back after)
include t

theorem byteIndex?_span_start :
    Text.byteIndex? text span.start = some (Text.byteSize before) := by
  rw [t.span_start, t.text_eq]
  simp only [List.append_assoc]
  exact Text.byteIndex?_append before _

theorem byteIndex?_place_start :
    Text.byteIndex? text place.start = some (Text.byteSize (before ++ front)) := by
  rw [t.place_eq, t.text_eq, List.append_assoc, List.append_assoc]
  exact Text.byteIndex?_append (before ++ front) _

theorem byteIndex?_place_stop :
    Text.byteIndex? text place.stop = some (Text.byteSize (before ++ front ++ word)) := by
  rw [t.place_eq, t.text_eq, List.append_assoc (before ++ front ++ word)]
  exact Text.byteIndex?_append (before ++ front ++ word) _

/-- The line of the name ends inside the span. -/
theorem byteSize_line_le :
    Text.byteSize (before ++ front ++ word ++ back) ≤ Text.clampedByteIndex text span.stop := by
  have hline : text.take (before ++ front ++ word ++ back).length =
      before ++ front ++ word ++ back := by
    rw [t.text_eq, List.take_left]
  have hle := Text.byteOffset_le t.in_span (Text.clampedOffset_le text span.stop)
  rwa [Text.byteOffset, hline] at hle

end NameToken

namespace Rename

/-- A place in a document is exactly the name of a reference `m` of the symbol at a position.
The first line of the span of `m` is `front`, `word` and `back`, and `word` is spelled as the
category of `m` demands; the place starts at the byte where `word` starts and stops at the byte
where it stops. -/
def CoversName (index : SyntaxIndex) (texts : TextSource) (uri : Uri) (p : Position)
    (document : Uri) (place : Span) : Prop :=
  ∃ m ∈ index.referencesAt uri p, index.documentOf uri m = document ∧
    ∃ category span text, index.category? m = some category ∧ index.span? m = some span ∧
      texts document = .ok text ∧
      ∃ before front word back after,
        NameToken text.toList category span place before front word back after ∧
        Text.byteIndex? text.toList span.start = some (Text.byteSize before) ∧
        Text.byteIndex? text.toList place.start = some (Text.byteSize (before ++ front)) ∧
        Text.byteIndex? text.toList place.stop = some (Text.byteSize (before ++ front ++ word)) ∧
        Text.byteSize (before ++ front ++ word ++ back) ≤
          Text.clampedByteIndex text.toList span.stop

variable {index : SyntaxIndex} {texts : TextSource} {uri : Uri} {p : Position} {newName : String}

/-- **Every edit covers exactly a name of a reference.** -/
theorem edit_covers_name (d : DocumentEdits) (e : TextEdit)
    (hd : d ∈ (rename index texts uri p newName).documents) (he : e ∈ d.edits) :
    CoversName index texts uri p d.uri e.span := by
  obtain ⟨m, hm, hdoc, o, rfl⟩ := exists_occurrence_of_mem_edits hd he
  obtain ⟨before, front, word, back, after, t⟩ := o.exists_token
  exact ⟨m, hm, hdoc, o.category, o.span, o.text, o.category_eq, o.span_eq,
    hdoc ▸ o.text_eq, before, front, word, back, after, t, t.byteIndex?_span_start,
    t.byteIndex?_place_start, t.byteIndex?_place_stop, t.byteSize_line_le⟩

/-- The edit of the constructor covers its name. -/
theorem shapes_edit_covers_name :
    Shapes.classEdits ∈ Shapes.renamed.documents ∧
      ⟨⟨⟨1, 2⟩, ⟨1, 7⟩⟩, "Polygon"⟩ ∈ Shapes.classEdits.edits ∧
      CoversName Shapes.index Shapes.texts Shapes.useUri ⟨0, 14⟩ Shapes.classUri
        ⟨⟨1, 2⟩, ⟨1, 7⟩⟩ := by
  have he : ⟨⟨⟨1, 2⟩, ⟨1, 7⟩⟩, "Polygon"⟩ ∈ Shapes.classEdits.edits :=
    List.mem_cons_of_mem _ List.mem_cons_self
  exact ⟨Shapes.classEdits_mem, he, edit_covers_name _ _ Shapes.classEdits_mem he⟩

end Rename

end SymbolRename
