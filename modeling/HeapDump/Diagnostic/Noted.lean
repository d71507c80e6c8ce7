/-
HeapDump/Diagnostic/Noted.lean

Results with the diagnostics that came up on the way to them, in order.

Looking references up and decoding fields compute values and note what is odd
about them, but no value depends on what was noted.  So this is the writer monad
and no more: value and notes of a `bind` are those of its parts, by `rfl`, and the
notes of a loop are those of its rounds, one after the other.  The lemmas are
simp lemmas, which take a computation apart into its value and its notes without
unfolding the monad.
-/
import HeapDump.Diagnostic.Basic

namespace HeapDump

/-- A result, and what was noted while it was computed. -/
structure Noted (α : Type) where
  value : α
  notes : List Diagnostic := []
  deriving DecidableEq, Repr

namespace Noted

/-- Goes on with a result; what is noted then comes after what was noted before. -/
def andThen (x : Noted α) (f : α → Noted β) : Noted β :=
  let y := f x.value
  ⟨y.value, x.notes ++ y.notes⟩

instance : Monad Noted where
  pure a := ⟨a, []⟩
  bind := andThen

@[simp] theorem value_pure (a : α) : (pure a : Noted α).value = a := rfl

@[simp] theorem notes_pure (a : α) : (pure a : Noted α).notes = [] := rfl

@[simp] theorem value_bind (x : Noted α) (f : α → Noted β) :
    (x >>= f).value = (f x.value).value := rfl

@[simp] theorem notes_bind (x : Noted α) (f : α → Noted β) :
    (x >>= f).notes = x.notes ++ (f x.value).notes := rfl

/-- Notes one diagnostic. -/
def note (d : Diagnostic) : Noted Unit := ⟨(), [d]⟩

@[simp] theorem notes_note (d : Diagnostic) : (note d).notes = [d] := rfl

/-- The results for all items of a list; the notes are those of the first item, then
those of the second, and so on. -/
def each (xs : List α) (f : α → Noted β) : Noted (List β) :=
  let ys := xs.map f
  ⟨ys.map (·.value), ys.flatMap (·.notes)⟩

@[simp] theorem value_each (xs : List α) (f : α → Noted β) :
    (each xs f).value = xs.map fun x => (f x).value := by
  simp [each]

@[simp] theorem notes_each (xs : List α) (f : α → Noted β) :
    (each xs f).notes = xs.flatMap fun x => (f x).notes := by
  simp [each, List.flatMap_map]

/-- The results for all items of an array. -/
def eachIn (xs : Array α) (f : α → Noted β) : Noted (Array β) :=
  let ys := xs.map f
  ⟨ys.map (·.value), ys.toList.flatMap (·.notes)⟩

@[simp] theorem value_eachIn (xs : Array α) (f : α → Noted β) :
    (eachIn xs f).value = xs.map fun x => (f x).value := by
  simp [eachIn, Function.comp_def]

@[simp] theorem notes_eachIn (xs : Array α) (f : α → Noted β) :
    (eachIn xs f).notes = xs.toList.flatMap fun x => (f x).notes := by
  simp [eachIn, List.flatMap_map]

end Noted

end HeapDump
