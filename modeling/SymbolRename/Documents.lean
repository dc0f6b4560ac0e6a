import SymbolRename.Disk
import SymbolRename.Text

/-! # Documents

The editor owns the text of the documents that are open in it and reports every
change; the text of any other document is read from disk.  `Documents.get?` is the
view of the open documents: `get?_put`, `get?_close` and `get?_change` say what each
report does to it, and that it leaves all other documents alone.
-/
namespace SymbolRename

/-- A change of a document; without a span the whole text is replaced. -/
structure Change where
  span : Option Span
  text : String
deriving DecidableEq, Repr

namespace Change

/-- Makes the change in a text. -/
def apply (change : Change) (text : String) : String :=
  match change.span with
  | none => change.text
  | some span => String.ofList (Text.replace text.toList span change.text.toList)

/-- Makes changes one after the other. -/
def applyAll (changes : List Change) (text : String) : String :=
  changes.foldl (fun text change => change.apply text) text

end Change

/-- A document that is open in the editor. -/
structure Document where
  version : Int
  text : String
deriving DecidableEq, Repr

/-- The documents that are open in the editor. -/
structure Documents where
  entries : List (Uri × Document)
deriving DecidableEq, Repr

namespace Documents

def empty : Documents := ⟨[]⟩

def get? (docs : Documents) (uri : Uri) : Option Document :=
  (docs.entries.find? (·.1 = uri)).map (·.2)

def version? (docs : Documents) (uri : Uri) : Option Int := (docs.get? uri).map (·.version)

/-- Forgets a document. -/
def close (docs : Documents) (uri : Uri) : Documents := ⟨docs.entries.filter (·.1 ≠ uri)⟩

/-- Opens a document, or replaces it if it is open. -/
def put (docs : Documents) (uri : Uri) (doc : Document) : Documents :=
  ⟨(uri, doc) :: (docs.close uri).entries⟩

/-- What changes make of a document.  Without a text to change, the last change that
replaces everything counts alone. -/
def changed? (doc : Option Document) (version : Int) (changes : List Change) : Option Document :=
  match doc with
  | some doc => some ⟨version, Change.applyAll changes doc.text⟩
  | none => (changes.reverse.find? (·.span.isNone)).map fun change => ⟨version, change.text⟩

/-- Makes changes in a document, in order. -/
def change (docs : Documents) (uri : Uri) (version : Int) (changes : List Change) : Documents :=
  match changed? (docs.get? uri) version changes with
  | some doc => docs.put uri doc
  | none => docs

/-! ## What reports do to the view -/

theorem get?_close (docs : Documents) (uri other : Uri) :
    (docs.close uri).get? other = if other = uri then none else docs.get? other := by
  unfold close get?
  induction docs.entries with
  | nil => simp
  | cons entry entries ih =>
    by_cases hu : entry.1 = uri <;> by_cases ho : entry.1 = other <;>
      simp_all

theorem get?_put (docs : Documents) (uri other : Uri) (doc : Document) :
    (docs.put uri doc).get? other = if other = uri then some doc else docs.get? other := by
  have h := docs.get?_close uri other
  by_cases ho : other = uri
  · simp [put, get?, ho]
  · have hne : ¬uri = other := fun he => ho he.symm
    rw [if_neg ho] at h ⊢
    rw [← h]
    simp [put, get?, hne]

theorem get?_change (docs : Documents) (uri other : Uri) (version : Int) (changes : List Change) :
    (docs.change uri version changes).get? other =
      if other = uri then changed? (docs.get? uri) version changes else docs.get? other := by
  unfold change
  split
  · rename_i doc h
    rw [get?_put, h]
  · rename_i h
    by_cases ho : other = uri
    · subst ho
      cases hd : docs.get? other with
      | none => simp_all
      | some doc => simp [changed?, hd] at h
    · simp [ho]

end Documents

/-- Why a document has no text. -/
inductive TextError where
  | notAFile (uri : Uri)
  | unreadable (path : FilePath) (cause : ReadError)
deriving DecidableEq, Repr

/-- Gives the text of a document, or says why it has none. -/
abbrev TextSource := Uri → Except TextError String

/-- The texts of the open documents, and of all others on a disk. -/
def Documents.texts (docs : Documents) (disk : Disk) : TextSource := fun uri =>
  match docs.get? uri with
  | some doc => .ok doc.text
  | none =>
    match uri.filePath? with
    | none => .error (.notAFile uri)
    | some path => (disk.readText path).mapError (.unreadable path)

end SymbolRename
