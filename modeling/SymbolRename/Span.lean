import SymbolRename.Position

/-! # Spans of a text

A span is a pair of positions, the second one excluded.  Nothing forces the
first to come before the second: spans arrive from outside, and a reversed one
covers no text.
-/
namespace SymbolRename

/-- From `start` up to, and without, `stop`. -/
structure Span where
  start : Position
  stop : Position
deriving DecidableEq, Repr, Inhabited

namespace Span

/-- The span at `p` that covers nothing. -/
def point (p : Position) : Span := ⟨p, p⟩

def isEmpty (s : Span) : Bool := s.start = s.stop

/-- Both ends belong to the span, so that a cursor just behind a word is still on it. -/
def contains (s : Span) (p : Position) : Bool := s.start ≤ p ∧ p ≤ s.stop

/-- Adjacent spans do not overlap; a span, even an empty one, overlaps itself. -/
def overlaps (s t : Span) : Bool := s = t ∨ (s.start < t.stop ∧ t.start < s.stop)

/-- A span measured from `p` as a span of the text in which `p` lies. -/
def shift (s : Span) (p : Position) : Span := ⟨p + s.start, p + s.stop⟩

/-- Three-way comparison by start, then by stop. -/
protected def compare (s t : Span) : Ordering :=
  (s.start.compare t.start).then (s.stop.compare t.stop)

/-- `row.column-row.column`, all counted from one; unlike those of a single position, the numbers
are not kept in 32 bits. -/
def render (s : Span) : String :=
  s!"{s.start.row + 1}.{s.start.column + 1}-{s.stop.row + 1}.{s.stop.column + 1}"

end Span

end SymbolRename
