/-
HeapDump/Number/Code.lean

Kinds that a dump names by a code of one byte.

The kinds are listed in a table, and a code stands for the first one in the table
that has it.  So a table has to be checked entry by entry only: if each kind is the
one that its own code stands for, then no two kinds have the same code, and a code
stands for a kind exactly if it is the code of that kind (`find?_code_eq_some_iff`).

The tags of records and of sub-records and the types of values are such tables.
-/

namespace HeapDump

/-- A table in which each kind is found by its code finds for a code the kind that has it. -/
theorem find?_code_eq_some_iff {κ : Type} {all : List κ} {code : κ → UInt8}
    (hall : ∀ t, all.find? (code · = code t) = some t) {c : UInt8} {t : κ} :
    all.find? (code · = c) = some t ↔ code t = c := by
  constructor
  · intro h
    simpa using List.find?_some h
  · rintro rfl
    exact hall t

end HeapDump
