import Mathlib.Data.List.Induction
import SymbolRename.Documents

/-! # Batches of changes

An editor sends changes in batches.  In a document that is open all changes are made
in order, so it does not matter how they are grouped (`applyAll_append`).  A document
that is not open is opened by the last change that replaces everything, and the
changes behind it in the same batch are not made.  They are made if they come in a
batch of their own.  So two batches and one are told apart exactly by the changes that
stand behind the last replacement (`batches_agree_iff`).
-/
namespace SymbolRename

namespace Change

theorem applyAll_append (changes more : List Change) (text : String) :
    applyAll (changes ++ more) text = applyAll more (applyAll changes text) :=
  List.foldl_append

/-! ## The last replacement -/

/-- The text of the last change that replaces everything. -/
def replacement? (changes : List Change) : Option String :=
  (changes.reverse.find? (·.span.isNone)).map (·.text)

/-- The changes behind the last one that replaces everything; all of them if none does. -/
def sinceReplacement (changes : List Change) : List Change :=
  (changes.reverse.takeWhile (·.span.isSome)).reverse

theorem replacement?_concat (changes : List Change) (change : Change) :
    replacement? (changes ++ [change]) =
      if change.span.isNone then some change.text else replacement? changes := by
  rw [replacement?, List.reverse_concat, List.find?_cons]
  cases change.span <;> rfl

theorem sinceReplacement_concat (changes : List Change) (change : Change) :
    sinceReplacement (changes ++ [change]) =
      if change.span.isNone then [] else sinceReplacement changes ++ [change] := by
  rw [sinceReplacement, List.reverse_concat, List.takeWhile_cons]
  cases change.span with
  | none => rfl
  | some span => exact List.reverse_cons

theorem replacement?_append (changes more : List Change) :
    replacement? (changes ++ more) = (replacement? more).or (replacement? changes) := by
  rw [replacement?, List.reverse_append, List.find?_append, Option.map_or]
  rfl

/-- Of all changes that are made in a text, the last replacement and those behind it count. -/
theorem applyAll_eq_sinceReplacement (changes : List Change) (text : String) :
    applyAll changes text =
      applyAll (sinceReplacement changes) ((replacement? changes).getD text) := by
  induction changes using List.reverseRecOn with
  | nil => rfl
  | append_singleton changes change ih =>
    rw [applyAll_append, ih, replacement?_concat, sinceReplacement_concat]
    cases hspan : change.span with
    | none =>
      show change.apply _ = change.text
      rw [apply, hspan]
    | some span => exact (applyAll_append _ _ _).symm

end Change

namespace Documents

open Change

/-- A document that is not open is opened by the last replacement, and by nothing else. -/
theorem changed?_none (version : Int) (changes : List Change) :
    changed? none version changes = (replacement? changes).map (Document.mk version) := by
  rw [replacement?, Option.map_map]
  rfl

/-- Two batches leave of an open document what one leaves. -/
theorem changed?_changed?_some (doc : Document) (v₁ v₂ : Int) (c₁ c₂ : List Change) :
    changed? (changed? (some doc) v₁ c₁) v₂ c₂ = changed? (some doc) v₂ (c₁ ++ c₂) := by
  show some (Document.mk v₂ _) = some (Document.mk v₂ _)
  rw [applyAll_append]

/-- Two batches leave of a document that is not open what one leaves, unless the first opens it
and the second changes the text that one would have opened it with. -/
theorem changed?_changed?_none_iff (v₁ v₂ : Int) (c₁ c₂ : List Change) :
    changed? (changed? none v₁ c₁) v₂ c₂ = changed? none v₂ (c₁ ++ c₂) ↔
      replacement? c₁ = none ∨
        ∃ text, replacement? (c₁ ++ c₂) = some text ∧
          applyAll (sinceReplacement c₂) text = text := by
  rw [changed?_none, changed?_none, replacement?_append]
  cases hfirst : replacement? c₁ with
  | none =>
    rw [Option.map_none, changed?_none, Option.or_none]
    exact ⟨fun _ => Or.inl rfl, fun _ => rfl⟩
  | some first =>
    -- Both ways the document ends up open, so only its texts have to be compared.
    have hopened : (replacement? c₂).or (some first) = some ((replacement? c₂).getD first) := by
      cases replacement? c₂ <;> rfl
    have htwo : changed? (Option.map (Document.mk v₁) (some first)) v₂ c₂ =
        some ⟨v₂, applyAll (sinceReplacement c₂) ((replacement? c₂).getD first)⟩ := by
      rw [← applyAll_eq_sinceReplacement]
      rfl
    rw [htwo, hopened, Option.map_some]
    constructor
    · intro h
      exact Or.inr ⟨_, rfl, congrArg Document.text (Option.some.inj h)⟩
    · rintro (h | ⟨text, htext, h⟩)
      · exact absurd h (Option.some_ne_none first)
      · rw [Option.some.inj htext, h]

/-- **When batches do not matter.**  Two batches of changes leave the same documents as all their
changes in one batch exactly if the document was open before, or the first batch does not open it,
or nothing is changed behind the last replacement of all the text. -/
theorem batches_agree_iff (docs : Documents) (uri : Uri) (v₁ v₂ : Int) (c₁ c₂ : List Change) :
    (∀ other, ((docs.change uri v₁ c₁).change uri v₂ c₂).get? other =
        (docs.change uri v₂ (c₁ ++ c₂)).get? other) ↔
      (docs.get? uri).isSome ∨ replacement? c₁ = none ∨
        ∃ text, replacement? (c₁ ++ c₂) = some text ∧
          applyAll (sinceReplacement c₂) text = text := by
  have hview : (∀ other, ((docs.change uri v₁ c₁).change uri v₂ c₂).get? other =
        (docs.change uri v₂ (c₁ ++ c₂)).get? other) ↔
      changed? (changed? (docs.get? uri) v₁ c₁) v₂ c₂ = changed? (docs.get? uri) v₂ (c₁ ++ c₂) := by
    constructor
    · intro h
      have huri := h uri
      rwa [get?_change, get?_change, get?_change, if_pos rfl, if_pos rfl, if_pos rfl] at huri
    · intro h other
      rw [get?_change, get?_change, get?_change, get?_change, if_pos rfl]
      split
      · exact h
      · rfl
  rw [hview]
  cases docs.get? uri with
  | none =>
    rw [changed?_changed?_none_iff, Option.isSome_none]
    exact ⟨Or.inr, fun h => h.resolve_left Bool.false_ne_true⟩
  | some doc => exact ⟨fun _ => Or.inl rfl, fun _ => changed?_changed?_some doc v₁ v₂ c₁ c₂⟩

/-- A document that is on no disk. -/
def draft : Uri := ⟨"untitled", none, false, .rootless "a", none, none⟩

/-- All text is replaced. -/
def replacing : List Change := [⟨none, "abc"⟩]

/-- A letter is put in front of the text. -/
def inserting : List Change := [⟨some ⟨⟨0, 0⟩, ⟨0, 0⟩⟩, "x"⟩]

/-- The letter is there after two batches, and lost after one. -/
theorem insertion_lost :
    ((empty.change draft 1 replacing).change draft 2 inserting).get? draft = some ⟨2, "xabc"⟩ ∧
      (empty.change draft 2 (replacing ++ inserting)).get? draft = some ⟨2, "abc"⟩ := by
  decide

end Documents

end SymbolRename
