import SymbolRename.Proofs.NameSpelling
import SymbolRename.Proofs.SettledEdits
import SymbolRename.Rename

/-! # Occurrences of a symbol

`Occurrence` collects what makes a reference renameable: a category, a span, a text,
a start of the span that the text has, and a name in the first line of the span.
`Rename.locate` succeeds exactly on occurrences (`locate_eq_ok_iff`), so the sites of
a rename are the occurrences among the references of its node.  The name that was
found relative to the first line of a span is a name at the same place of the whole
text (`Occurrence.token`): positions relative to the span become positions of the
document without touching any other text.
-/
namespace SymbolRename

namespace Text

open Position

/-- The text between two offsets, up to its first line feed. -/
def firstLine (cs : List Char) (i j : Nat) : List Char :=
  ((cs.drop i).take (j - i)).takeWhile (· != '\n')

theorem firstLines_one (cs : List Char) : firstLines 1 cs = cs.takeWhile (· != '\n') := by
  induction cs with
  | nil => rfl
  | cons c cs ih =>
    by_cases hc : c = '\n'
    · simp [firstLines, hc]
    · simp [firstLines, hc, ih]

/-- One line of a span is the first line of the text from its start to its clamped end. -/
theorem slice?_one (cs : List Char) (s : Span) :
    slice? cs s 1 = (offset? cs s.start).map fun i => firstLine cs i (clampedOffset cs s.stop) := by
  simp only [slice?, firstLines_one, firstLine]

theorem newline_notMem_firstLine (cs : List Char) (i j : Nat) : '\n' ∉ firstLine cs i j := by
  intro hmem
  have hall := List.all_eq_true.mp (List.all_takeWhile (p := (· != '\n'))) _ hmem
  exact absurd hall (by decide)

/-- A first line is cut out of its text: it begins at the first offset, and it ends at the
second one or in front of a line feed. -/
theorem firstLine_split (cs : List Char) {i j : Nat} (hij : i ≤ j) (hj : j ≤ cs.length) :
    ∃ after, cs = cs.take i ++ firstLine cs i j ++ after ∧
      (cs.take i ++ firstLine cs i j).length ≤ j ∧
      (after.head? = some '\n' ∨ (cs.take i ++ firstLine cs i j).length = j) := by
  obtain ⟨rest, hrest⟩ : ∃ rest, rest = ((cs.drop i).take (j - i)).dropWhile (· != '\n') :=
    ⟨_, rfl⟩
  have hcover : firstLine cs i j ++ rest = (cs.drop i).take (j - i) := by
    rw [hrest, firstLine, List.takeWhile_append_dropWhile]
  have hlen := congrArg List.length hcover
  rw [List.length_append, List.length_take, List.length_drop] at hlen
  have hi : (cs.take i).length = i := List.length_take_of_le (Nat.le_trans hij hj)
  refine ⟨rest ++ cs.drop j, ?_, ?_, ?_⟩
  · have hskip : cs.drop j = (cs.drop i).drop (j - i) := by
      rw [List.drop_drop, Nat.add_sub_cancel' hij]
    rw [List.append_assoc, ← List.append_assoc (firstLine cs i j), hcover, hskip,
      List.take_append_drop, List.take_append_drop]
  · rw [List.length_append, hi]
    omega
  · rw [List.length_append, hi]
    -- What the line leaves of the span is nothing, or begins with the line feed that ended it.
    cases hr : rest with
    | nil =>
      rw [hr, List.length_nil] at hlen
      exact Or.inr (by omega)
    | cons c rest' =>
      have hhead := List.head?_dropWhile_not (· != '\n') ((cs.drop i).take (j - i))
      rw [← hrest, hr] at hhead
      exact Or.inl (by simpa using hhead)

end Text

/-- The document of a node; a node without one belongs to `home`. -/
def SyntaxIndex.documentOf (index : SyntaxIndex) (home : Uri) (node : NodeId) : Uri :=
  (index.uri? node).getD home

/-- The references of the symbol at a position; none if there is no symbol. -/
def SyntaxIndex.referencesAt (index : SyntaxIndex) (uri : Uri) (p : Position) : List NodeId :=
  match index.nodeAt uri p with
  | none => []
  | some node => index.references node

/-- A reference that can be renamed: nothing about it is missing, its span starts at a
position of its text, and its name is found in the first line of its span. -/
structure Occurrence (index : SyntaxIndex) (texts : TextSource) (home : Uri) (node : NodeId) where
  category : Category
  span : Span
  text : String
  /-- The number of characters before the span. -/
  offset : Nat
  /-- The span of the name, measured from the start of the node's span. -/
  name : Span
  category_eq : index.category? node = some category
  span_eq : index.span? node = some span
  text_eq : texts (index.documentOf home node) = .ok text
  offset_eq : Text.offset? text.toList span.start = some offset
  name_eq : NameLocation.locate category
    (Text.firstLine text.toList offset (Text.clampedOffset text.toList span.stop)) = some name

namespace Occurrence

open Position

variable {index : SyntaxIndex} {texts : TextSource} {home : Uri} {node : NodeId}
variable (o : Occurrence index texts home node)

/-- The line in which the name is found. -/
def line : List Char :=
  Text.firstLine o.text.toList o.offset (Text.clampedOffset o.text.toList o.span.stop)

/-- What a rename knows of an occurrence. -/
def site : Site :=
  ⟨o.category, index.documentOf home node, ⟨o.span.start, o.span.start.advance o.line⟩,
    (index.parent? node).isNone, o.name⟩

variable {texts' : TextSource} {home' : Uri}

/-- The occurrence in another source of texts that has the same text for it. -/
def transfer (htext : texts' (index.documentOf home' node) = .ok o.text) :
    Occurrence index texts' home' node :=
  { o with text_eq := htext }

theorem transfer_site (htext : texts' (index.documentOf home' node) = .ok o.text)
    (hdoc : index.documentOf home node = index.documentOf home' node) :
    (o.transfer htext).site = o.site := by
  show Site.mk _ (index.documentOf home' node) _ _ _ = _
  rw [← hdoc]
  rfl

end Occurrence

/-- The name of a node at its `place` in a text.  `front`, `word` and `back` make up the first
line of the node's span, and `word` is the name; `before` and `after` are the rest of the text. -/
structure NameToken (text : List Char) (category : Category) (span place : Span)
    (before front word back after : List Char) : Prop where
  text_eq : text = before ++ front ++ word ++ back ++ after
  span_start : span.start = Position.measure before
  place_eq : place = ⟨Position.measure (before ++ front), Position.measure (before ++ front ++ word)⟩
  word_ne : word ≠ []
  one_line : '\n' ∉ front ++ word ++ back
  in_span : (before ++ front ++ word ++ back).length ≤ Text.clampedOffset text span.stop
  line_end : after.head? = some '\n' ∨
    (before ++ front ++ word ++ back).length = Text.clampedOffset text span.stop
  spelling : NameLocation.Spelling category front word back

open Position in
/-- **The name of an occurrence is a token of its text**, at the place that the edit of the
occurrence gives. -/
theorem Occurrence.exists_token {index : SyntaxIndex} {texts : TextSource} {home : Uri}
    {node : NodeId} (o : Occurrence index texts home node) :
    ∃ before front word back after,
      NameToken o.text.toList o.category o.span o.site.nameSpan before front word back after := by
  obtain ⟨hoffset, hstart⟩ := Text.offset?_eq_some_iff.mp o.offset_eq
  obtain ⟨front, word, back, hline, hname, hne, hspelling⟩ :=
    NameLocation.locate_spelling o.name_eq
  have hstop := Text.clampedOffset_le o.text.toList o.span.stop
  -- A reversed span covers no line, and no name is found in an empty line.
  have hforward : o.offset ≤ Text.clampedOffset o.text.toList o.span.stop := by
    refine Nat.le_of_not_lt fun hlt => ?_
    rw [Text.firstLine, Nat.sub_eq_zero_of_le (Nat.le_of_lt hlt)] at hline
    exact hne (List.append_eq_nil_iff.mp (List.append_eq_nil_iff.mp hline.symm).1).2
  obtain ⟨after, htext, hin, hend⟩ := Text.firstLine_split o.text.toList hforward hstop
  have hnl := Text.newline_notMem_firstLine o.text.toList o.offset
    (Text.clampedOffset o.text.toList o.span.stop)
  rw [hline] at htext hin hend hnl
  refine ⟨o.text.toList.take o.offset, front, word, back, after, ?_, hstart.symm, ?_, hne, hnl,
    ?_, ?_, hspelling⟩
  · simpa only [List.append_assoc] using htext
  · show Span.mk (o.span.start + o.name.start) (o.span.start + o.name.stop) = _
    rw [hname, ← hstart, ← measure_append, ← measure_append, List.append_assoc]
  · simpa only [List.append_assoc] using hin
  · simpa only [List.append_assoc] using hend

namespace Rename

variable {index : SyntaxIndex} {texts : TextSource} {home : Uri} {node : NodeId} {site : Site}

theorem mapError_eq_ok {ε ε' α : Type} {f : ε → ε'} {x : Except ε α} {a : α}
    (h : x.mapError f = .ok a) : x = .ok a := by
  cases x with
  | error e => cases h
  | ok b => exact congrArg Except.ok (Except.ok.inj h)

/-- **A reference is located exactly when it is an occurrence.** -/
theorem locate_eq_ok_iff :
    locate index texts home node = .ok site ↔
      ∃ o : Occurrence index texts home node, o.site = site := by
  constructor
  · intro h
    simp only [locate, bind, Except.bind] at h
    -- Each split is one thing that a reference can lack; only the last branch answers a site.
    split at h
    · rename_i category hcategory
      split at h
      · rename_i span hspan
        split at h
        · cases h
        · rename_i text htext
          split at h
          · rename_i line hline
            rw [searchedLines, Text.slice?_one] at hline
            obtain ⟨offset, hoffset, rfl⟩ := Option.map_eq_some_iff.mp hline
            split at h
            · rename_i name hname
              cases h
              exact ⟨⟨category, span, text, offset, name, hcategory, hspan,
                mapError_eq_ok htext, hoffset, hname⟩, rfl⟩
            · cases h
          · cases h
      · cases h
    · cases h
  · rintro ⟨o, rfl⟩
    have hline : Text.slice? o.text.toList o.span searchedLines = some o.line := by
      rw [searchedLines, Text.slice?_one, o.offset_eq]
      rfl
    have htext : (texts ((index.uri? node).getD home)).mapError SkipReason.noText = .ok o.text := by
      rw [← SyntaxIndex.documentOf, o.text_eq]
      rfl
    have hname : NameLocation.locate o.category o.line = some o.name := o.name_eq
    unfold locate
    simp only [o.category_eq, o.span_eq, htext, bind, Except.bind, hline, hname]
    rfl

theorem locate_toOption_eq_some_iff :
    (locate index texts home node).toOption = some site ↔
      ∃ o : Occurrence index texts home node, o.site = site := by
  rw [← locate_eq_ok_iff]
  cases locate index texts home node with
  | error reason => exact ⟨fun h => (nomatch h), fun h => (nomatch h)⟩
  | ok found => exact ⟨fun h => congrArg _ (Option.some.inj h), fun h => congrArg _ (Except.ok.inj h)⟩

/-- Where a reference is located depends only on what its document is and on the text that this
document has. -/
theorem locate_toOption_congr {texts' : TextSource} {home' : Uri}
    (hdoc : index.documentOf home node = index.documentOf home' node)
    (htext : ∀ text, texts (index.documentOf home node) = .ok text ↔
      texts' (index.documentOf home' node) = .ok text) :
    (locate index texts home node).toOption = (locate index texts' home' node).toOption := by
  refine Option.ext fun site => ?_
  rw [locate_toOption_eq_some_iff, locate_toOption_eq_some_iff]
  constructor
  · rintro ⟨o, rfl⟩
    have ho := (htext o.text).mp o.text_eq
    exact ⟨o.transfer ho, o.transfer_site ho hdoc⟩
  · rintro ⟨o, rfl⟩
    have ho := (htext o.text).mpr o.text_eq
    exact ⟨o.transfer ho, o.transfer_site ho hdoc.symm⟩

/-! ## Sites and edits of a rename -/

variable {uri : Uri} {p : Position} {newName : String} {d : DocumentEdits} {e : TextEdit}

/-- The sites of the symbol at a position. -/
def sitesAt (index : SyntaxIndex) (texts : TextSource) (uri : Uri) (p : Position) : List Site :=
  (index.referencesAt uri p).filterMap fun m => (locate index texts uri m).toOption

/-- A rename collects what the sites of its symbol ask for. -/
theorem rename_eq_ofEdits :
    rename index texts uri p newName =
      .ofEdits (siteEdits (sitesAt index texts uri p) newName)
        ((sitesAt index texts uri p).filterMap (·.fileRename? newName)) := by
  rw [rename, sitesAt, SyntaxIndex.referencesAt]
  cases index.nodeAt uri p with
  | none => rfl
  | some node => rfl

/-- The sites of a symbol are the occurrences among its references. -/
theorem mem_sitesAt_iff :
    site ∈ sitesAt index texts uri p ↔
      ∃ m ∈ index.referencesAt uri p, ∃ o : Occurrence index texts uri m, o.site = site := by
  rw [sitesAt, List.mem_filterMap]
  constructor
  · rintro ⟨m, hm, h⟩
    exact ⟨m, hm, locate_toOption_eq_some_iff.mp h⟩
  · rintro ⟨m, hm, h⟩
    exact ⟨m, hm, locate_toOption_eq_some_iff.mpr h⟩

/-- The edits of a document, before any is dropped, are the edits of the occurrences in it. -/
theorem mem_editsOf_sitesAt {document : Uri} :
    e ∈ WorkspaceEdit.editsOf (siteEdits (sitesAt index texts uri p) newName) document ↔
      ∃ m ∈ index.referencesAt uri p, index.documentOf uri m = document ∧
        ∃ o : Occurrence index texts uri m, o.site.edit newName = e := by
  rw [WorkspaceEdit.mem_editsOf, siteEdits, List.mem_map]
  constructor
  · rintro ⟨site, hsite, heq⟩
    obtain ⟨m, hm, o, rfl⟩ := mem_sitesAt_iff.mp hsite
    cases heq
    exact ⟨m, hm, rfl, o, rfl⟩
  · rintro ⟨m, hm, rfl, o, rfl⟩
    exact ⟨o.site, mem_sitesAt_iff.mpr ⟨m, hm, o, rfl⟩, rfl⟩

/-- A rename has a bundle for every document with an occurrence, and it holds the settled edits
of the occurrences in that document. -/
theorem mem_rename_documents :
    d ∈ (rename index texts uri p newName).documents ↔
      (∃ m ∈ index.referencesAt uri p, index.documentOf uri m = d.uri ∧
        Nonempty (Occurrence index texts uri m)) ∧
      d.edits = DocumentEdits.settle
        (WorkspaceEdit.editsOf (siteEdits (sitesAt index texts uri p) newName) d.uri) := by
  have hedits : (∃ e, (d.uri, e) ∈ siteEdits (sitesAt index texts uri p) newName) ↔
      ∃ m ∈ index.referencesAt uri p, index.documentOf uri m = d.uri ∧
        Nonempty (Occurrence index texts uri m) := by
    simp only [← WorkspaceEdit.mem_editsOf, mem_editsOf_sitesAt]
    constructor
    · rintro ⟨e, m, hm, hdoc, o, -⟩
      exact ⟨m, hm, hdoc, ⟨o⟩⟩
    · rintro ⟨m, hm, hdoc, ⟨o⟩⟩
      exact ⟨o.site.edit newName, m, hm, hdoc, o, rfl⟩
  rw [rename_eq_ofEdits, WorkspaceEdit.mem_ofEdits_documents, hedits]

/-- Every edit of a bundle is the edit of an occurrence in its document. -/
theorem exists_occurrence_of_mem_edits (hd : d ∈ (rename index texts uri p newName).documents)
    (he : e ∈ d.edits) :
    ∃ m ∈ index.referencesAt uri p, index.documentOf uri m = d.uri ∧
      ∃ o : Occurrence index texts uri m, o.site.edit newName = e := by
  obtain ⟨-, hedits⟩ := mem_rename_documents.mp hd
  rw [hedits] at he
  exact mem_editsOf_sitesAt.mp (DocumentEdits.mem_of_mem_settle he)

theorem edits_ne_nil (hd : d ∈ (rename index texts uri p newName).documents) : d.edits ≠ [] := by
  obtain ⟨⟨m, hm, hdoc, ⟨o⟩⟩, hedits⟩ := mem_rename_documents.mp hd
  rw [hedits]
  refine DocumentEdits.settle_ne_nil ?_
  exact List.ne_nil_of_mem (mem_editsOf_sitesAt.mpr ⟨m, hm, hdoc, o, rfl⟩)

end Rename

/-! ## A small workspace

A class with a constructor, and a use of the class in another document, behind a character
that takes two columns. -/

namespace Shapes

def classUri : Uri := ⟨"untitled", none, false, .rootless "Shape", none, none⟩

def useUri : Uri := ⟨"untitled", none, false, .rootless "Main", none, none⟩

def index : SyntaxIndex := ⟨[
  ⟨some (.type "geo.Shape"), some classUri, some ⟨⟨0, 0⟩, ⟨2, 3⟩⟩, none, none⟩,
  ⟨some (.method "Shape"), some classUri, some ⟨⟨1, 2⟩, ⟨1, 14⟩⟩, some 0, some 0⟩,
  ⟨some .literal, some useUri, some ⟨⟨0, 13⟩, ⟨0, 18⟩⟩, none, some 0⟩]⟩

def texts : TextSource := fun uri =>
  if uri = classUri then .ok "class Shape:\n  Shape () = 1\nend\n"
  else if uri = useUri then .ok "def 😀 = new Shape()\n"
  else .error (.notAFile uri)

/-- What renaming the class from its use does. -/
def renamed : WorkspaceEdit := Rename.rename index texts useUri ⟨0, 14⟩ "Polygon"

/-- The bundle for the class. -/
def classEdits : DocumentEdits :=
  ⟨classUri, [⟨⟨⟨0, 6⟩, ⟨0, 11⟩⟩, "Polygon"⟩, ⟨⟨⟨1, 2⟩, ⟨1, 7⟩⟩, "Polygon"⟩]⟩

theorem classEdits_settled : DocumentEdits.settle classEdits.edits = classEdits.edits := by
  have herase : classEdits.edits.eraseDups = classEdits.edits := by decide
  have hsort : DocumentEdits.arrange classEdits.edits = classEdits.edits := by
    rw [DocumentEdits.arrange, herase]
    exact List.mergeSort_of_pairwise (by decide)
  rw [DocumentEdits.settle, hsort]
  decide

theorem classEdits_mem : classEdits ∈ renamed.documents := by
  have hedits : WorkspaceEdit.editsOf
      (Rename.siteEdits (Rename.sitesAt index texts useUri ⟨0, 14⟩) "Polygon") classUri =
        classEdits.edits := by
    decide +kernel
  rw [renamed, Rename.rename_eq_ofEdits, WorkspaceEdit.mem_ofEdits_documents]
  simp only [← WorkspaceEdit.mem_editsOf]
  show (∃ e, e ∈ WorkspaceEdit.editsOf _ classUri) ∧
    classEdits.edits = DocumentEdits.settle (WorkspaceEdit.editsOf _ classUri)
  rw [hedits]
  exact ⟨⟨_, List.mem_cons_self⟩, classEdits_settled.symm⟩

end Shapes

end SymbolRename
