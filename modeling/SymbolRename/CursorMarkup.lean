import SymbolRename.Text

/-! # Cursor markup

Markup inside a text marks points and ranges of it: `<|>` and `<$A|>` mark a
point, `<[...]>` and `<$A[...]>` a range.  `parse` cuts marked text into pieces,
`render` writes pieces down again, and `MarkedText.ofPieces` gives the text
without its markup together with the spans of its cursors.  A `<` that begins no
marker stands for itself.  Ranges do not nest.
-/
namespace SymbolRename

namespace CursorMarkup

/-- What marked text consists of; an unnamed cursor has the empty name. -/
inductive Piece where
  | plain (run : List Char)
  | point (name : List Char)
  | range (name content : List Char)
deriving DecidableEq, Repr

/-- Why marked text has no meaning, or a name no cursor.  `near` is the plain run before the marker. -/
inductive Error where
  | unclosedRange (near : List Char)
  | brokenPoint (near : List Char)
  | noCursor (name : String)
deriving DecidableEq, Repr

def Error.message : Error → String
  | .unclosedRange near => s!"unclosed range cursor near '{String.ofList near}'"
  | .brokenPoint near => s!"'<|' must be followed by '>' near '{String.ofList near}'"
  | .noCursor name => s!"no cursor named '{name}'"

/-- Names of cursors consist of ASCII letters, digits and `_`. -/
def isNameChar (c : Char) : Bool := c.isAlphanum || c = '_'

/-- Splits at the first `]>`. -/
def splitAtClose : List Char → Option (List Char × List Char)
  | [] => none
  | ']' :: '>' :: rest => some ([], rest)
  | c :: cs => (splitAtClose cs).map fun (content, rest) => (c :: content, rest)

/-- What stands behind a `<`. -/
inductive Marker where
  | point (name rest : List Char)
  | range (name content rest : List Char)
  | unclosed
  | broken
  | literal

/-- The name behind a `<` and what follows it. -/
def splitName : List Char → List Char × List Char
  | '$' :: cs => (cs.takeWhile isNameChar, cs.dropWhile isNameChar)
  | cs => ([], cs)

/-- Reads the marker whose `<` has just been read. -/
def marker (after : List Char) : Marker :=
  let (name, body) := splitName after
  match body with
  | '|' :: '>' :: rest => .point name rest
  | '|' :: _ => .broken
  | '[' :: cs =>
    match splitAtClose cs with
    | some (content, rest) => .range name content rest
    | none => .unclosed
  | _ => .literal

theorem splitAtClose_length {cs content rest : List Char}
    (h : splitAtClose cs = some (content, rest)) : rest.length < cs.length := by
  fun_induction splitAtClose cs generalizing content with
  | case1 => simp at h
  | case2 r =>
    simp only [Option.some.injEq, Prod.mk.injEq] at h
    simp only [← h.2, List.length_cons]
    omega
  | case3 c cs _ ih =>
    obtain ⟨⟨b, r⟩, hb, he⟩ := Option.map_eq_some_iff.1 h
    simp only [Prod.mk.injEq] at he
    have := ih (he.2 ▸ hb)
    simp only [List.length_cons]
    omega

theorem splitName_length (cs : List Char) : (splitName cs).2.length ≤ cs.length := by
  unfold splitName
  split
  · rename_i cs
    have := (List.dropWhile_sublist (l := cs) isNameChar).length_le
    simp only [List.length_cons]
    omega
  · simp

theorem marker_point_length {after name rest : List Char}
    (h : marker after = .point name rest) : rest.length < after.length := by
  have hl := splitName_length after
  unfold marker at h
  split at h
  rename_i n body hs
  rw [hs] at hl
  split at h
  · simp only [Marker.point.injEq] at h
    simp only [List.length_cons] at hl
    rw [← h.2]; omega
  · simp at h
  · split at h <;> simp at h
  · simp at h

theorem marker_range_length {after name content rest : List Char}
    (h : marker after = .range name content rest) : rest.length < after.length := by
  have hl := splitName_length after
  unfold marker at h
  split at h
  rename_i n body hs
  rw [hs] at hl
  split at h
  · simp at h
  · simp at h
  · split at h
    · rename_i hc
      have := splitAtClose_length hc
      simp only [Marker.range.injEq] at h
      simp only [List.length_cons] at hl
      rw [← h.2.2]; omega
    · simp at h
  · simp at h

/-- Cuts marked text into pieces. -/
def parse (cs : List Char) : Except Error (List Piece) :=
  let run := cs.takeWhile (· ≠ '<')
  match hd : cs.dropWhile (· ≠ '<') with
  | [] => .ok [.plain run]
  | lt :: after =>
    have hlen : after.length < cs.length := by
      have := (List.dropWhile_sublist (l := cs) (· ≠ '<')).length_le
      rw [hd, List.length_cons] at this
      omega
    match hm : marker after with
    | .point name rest =>
      have := marker_point_length hm
      (parse rest).map fun pieces => .plain run :: .point name :: pieces
    | .range name content rest =>
      have := marker_range_length hm
      (parse rest).map fun pieces => .plain run :: .range name content :: pieces
    | .unclosed => .error (.unclosedRange run)
    | .broken => .error (.brokenPoint run)
    | .literal => (parse after).map fun pieces => .plain run :: .plain [lt] :: pieces
termination_by cs.length

/-- The name part of a marker. -/
def renderName (name : List Char) : List Char := if name = [] then [] else '$' :: name

/-- The marked text that a piece stands for. -/
def Piece.render : Piece → List Char
  | .plain run => run
  | .point name => '<' :: renderName name ++ ['|', '>']
  | .range name content => '<' :: renderName name ++ '[' :: content ++ [']', '>']

/-- Writes pieces down as marked text. -/
def render (pieces : List Piece) : List Char := pieces.flatMap Piece.render

/-- The part of a piece that is text and not markup. -/
def Piece.text : Piece → List Char
  | .plain run => run
  | .point _ => []
  | .range _ content => content

/-- The cursors of pieces of which the first begins at `here`. -/
def cursorsFrom (here : Position) : List Piece → List (String × Span)
  | [] => []
  | .plain run :: pieces => cursorsFrom (here.advance run) pieces
  | .point name :: pieces => (String.ofList name, .point here) :: cursorsFrom here pieces
  | .range name content :: pieces =>
    (String.ofList name, ⟨here, here.advance content⟩) :: cursorsFrom (here.advance content) pieces

end CursorMarkup

/-- A text without markup, and its cursors in the order of the markup. -/
structure MarkedText where
  text : String
  cursors : List (String × Span)
deriving DecidableEq, Repr

namespace MarkedText

open CursorMarkup

/-- The meaning of pieces. -/
def ofPieces (pieces : List Piece) : MarkedText :=
  ⟨String.ofList (pieces.flatMap Piece.text), cursorsFrom .origin pieces⟩

/-- Reads marked text. -/
def parse (s : String) : Except CursorMarkup.Error MarkedText :=
  (CursorMarkup.parse s.toList).map ofPieces

/-- The spans of all cursors. -/
def spans (m : MarkedText) : List Span := m.cursors.map (·.2)

/-- The span of the first cursor with the given name. -/
def spanOf (m : MarkedText) (name : String) : Except CursorMarkup.Error Span :=
  match m.cursors.find? (·.1 = name) with
  | some (_, span) => .ok span
  | none => .error (.noCursor name)

end MarkedText

end SymbolRename
