/-! # Positions in a text

A position is the number of line feeds before a point of a text together with
the number of UTF-16 units between the last of them and the point.  Positions
add up the way texts concatenate: `Position.measure` turns `++` into `+`
(`measure_append`), and `+` is associative with `origin` as its unit.
-/
namespace SymbolRename

/-- A row and a column, both counted from zero; the column counts UTF-16 units. -/
structure Position where
  row : Nat
  column : Nat
deriving DecidableEq, Repr, Inhabited

namespace Position

/-- The largest row and the largest column that an editor's position keeps. -/
def limit : Nat := 4294967295

/-- The position that an editor's numbers denote: each is cut off at `limit`. -/
def ofEditor (row column : Nat) : Position := ⟨min row limit, min column limit⟩

/-- The start of every text. -/
def origin : Position := ⟨0, 0⟩

/-- `p + q` is where `q`, measured from `p`, lies: a line feed in `q` resets the column. -/
protected def add (p q : Position) : Position :=
  ⟨p.row + q.row, if q.row = 0 then p.column + q.column else q.column⟩

instance : Add Position := ⟨Position.add⟩

/-- Positions are ordered by row, then by column. -/
protected def Before (p q : Position) : Prop :=
  p.row < q.row ∨ p.row = q.row ∧ p.column < q.column

instance : LT Position := ⟨Position.Before⟩

instance : LE Position := ⟨fun p q => p < q ∨ p = q⟩

instance (p q : Position) : Decidable (p < q) :=
  inferInstanceAs (Decidable (p.row < q.row ∨ p.row = q.row ∧ p.column < q.column))

instance (p q : Position) : Decidable (p ≤ q) :=
  inferInstanceAs (Decidable (p < q ∨ p = q))

/-- Three-way comparison in the order of positions. -/
protected def compare (p q : Position) : Ordering :=
  if p < q then .lt else if p = q then .eq else .gt

/-- How far one character moves the position. -/
def ofChar (c : Char) : Position :=
  if c = '\n' then ⟨1, 0⟩ else ⟨0, if c.toNat < 0x10000 then 1 else 2⟩

/-- The position reached from `p` by reading `cs`. -/
def advance (p : Position) (cs : List Char) : Position :=
  cs.foldl (fun q c => q + ofChar c) p

/-- The position of the end of a text. -/
def measure (cs : List Char) : Position := advance origin cs

/-- The sum of a list of positions, from left to right. -/
def sum (ps : List Position) : Position := ps.foldl (· + ·) origin

/-- A row or a column counted from one, in the 32 bits that it is kept in: behind `limit` there is
zero. -/
def fromOne (n : Nat) : Nat := (n + 1) % (limit + 1)

/-- `row:column`, both counted from one. -/
def render (p : Position) : String := s!"{fromOne p.row}:{fromOne p.column}"

/-! ## Order -/

theorem lt_iff {p q : Position} :
    p < q ↔ p.row < q.row ∨ p.row = q.row ∧ p.column < q.column := Iff.rfl

theorem le_iff {p q : Position} :
    p ≤ q ↔ p.row < q.row ∨ p.row = q.row ∧ p.column ≤ q.column := by
  show p < q ∨ p = q ↔ _
  obtain ⟨r, c⟩ := p
  obtain ⟨s, d⟩ := q
  simp only [lt_iff, Position.mk.injEq]
  omega

theorem le_refl (p : Position) : p ≤ p := Or.inr rfl

theorem le_total (p q : Position) : p ≤ q ∨ q ≤ p := by
  rw [le_iff, le_iff]; omega

theorem le_trans {p q r : Position} (hpq : p ≤ q) (hqr : q ≤ r) : p ≤ r := by
  rw [le_iff] at *; omega

theorem not_lt {p q : Position} : ¬p < q ↔ q ≤ p := by
  rw [lt_iff, le_iff]; omega

/-! ## Sums -/

theorem add_def (p q : Position) :
    p + q = ⟨p.row + q.row, if q.row = 0 then p.column + q.column else q.column⟩ := rfl

@[simp] theorem origin_add (p : Position) : origin + p = p := by
  simp [add_def, origin]

@[simp] theorem add_origin (p : Position) : p + origin = p := by
  simp [add_def, origin]

theorem add_assoc (p q r : Position) : p + q + r = p + (q + r) := by
  by_cases hq : q.row = 0 <;> by_cases hr : r.row = 0 <;>
    simp [add_def, hq, hr, Nat.add_assoc]

@[simp] theorem advance_nil (p : Position) : advance p [] = p := rfl

@[simp] theorem advance_cons (p : Position) (c : Char) (cs : List Char) :
    advance p (c :: cs) = advance (p + ofChar c) cs := rfl

theorem advance_append (p : Position) (a b : List Char) :
    advance p (a ++ b) = advance (advance p a) b := by
  simp [advance, List.foldl_append]

theorem advance_eq_add (p : Position) (cs : List Char) : advance p cs = p + measure cs := by
  induction cs generalizing p with
  | nil => simp [measure]
  | cons c cs ih =>
    rw [measure, advance_cons, advance_cons, ih, ih (origin + ofChar c), origin_add, add_assoc]

theorem measure_append (a b : List Char) : measure (a ++ b) = measure a + measure b := by
  rw [measure, advance_append, advance_eq_add]; rfl

end Position

end SymbolRename
