/-
HeapDump/Proofs/Graph/Climbing.lean

The fields of an object read class by class.

`climb` reads the fields that a class declares, then those of its superclass, and so on, until
a field is missing, until more classes have been visited than there are, or until a class has no
superclass.  Nothing but the count of classes makes it end.  It counts its visits, and visits one
class more than there are at most (`visits_climb_le`).

Decoding is defined over the whole layout at once, which is cut by the chain of superclasses.
The two are equal,

    (climb objects classes idSize owner i 0 i { data }).2
      = decodeFields objects classes idSize owner data i

(`climb_eq_decodeFields`), so what is said of visits is said of decoding.  The induction is on
the number of classes that may still be visited, and its step is that layouts one behind the
other are read one after the other (`readLayout_append`).
-/
import HeapDump.Proofs.Graph.Ancestry
import HeapDump.Proofs.Graph.Decoding

namespace HeapDump

section

variable (objects : ObjectTable) (classes : Array ClassObject) (idSize : Nat) (owner : FieldOwner)

/-- Reads the fields of an object from the class at position `i` upwards, which is `depth` steps
above the one at position `first`.  Gives the number of classes that were visited, and what was
decoded. -/
def climb (first depth i : Nat) (p : Parser) : Nat × Noted (List FieldValue) :=
  let read := readLayout objects idSize owner (layoutPart classes i) p
  match read.value.2 with
  | none => (1, ⟨read.value.1, read.notes⟩)
  | some p' =>
    if classes.size < depth + 1 then
      (1, ⟨read.value.1, read.notes ++ (classes[first]?.map ClassObject.cyclic).toList⟩)
    else
      match parent? classes i with
      | some j =>
        let (visits, above) := climb first (depth + 1) j p'
        (visits + 1, ⟨read.value.1 ++ above.value, read.notes ++ above.notes⟩)
      | none =>
        let excess := if p'.hasMore then [owner.excess p'.remaining] else []
        (1, ⟨read.value.1, read.notes ++ excess⟩)
termination_by classes.size - depth

/-- Layouts one behind the other are read one after the other, if no field is missing. -/
theorem readLayout_append (xs ys : List LayoutField) (p : Parser) :
    readLayout objects idSize owner (xs ++ ys) p
      = let read := readLayout objects idSize owner xs p
        match read.value.2 with
        | none => read
        | some p' =>
          let more := readLayout objects idSize owner ys p'
          ⟨(read.value.1 ++ more.value.1, more.value.2), read.notes ++ more.notes⟩ := by
  induction xs generalizing p with
  | nil => rfl
  | cons f rest ih =>
    rw [List.cons_append, readLayout, readLayout]
    rcases Value.parse f.field.type idSize p with ⟨e | raw, p⟩
    · rfl
    · dsimp only [bind, Noted.andThen, pure]
      rw [ih p]
      obtain ⟨⟨values, p?⟩, notes⟩ := readLayout objects idSize owner rest p
      cases p? with
      | none => rfl
      | some p' => simp

theorem layout_cons (i : Nat) (chain : List Nat) :
    layout classes (i :: chain) = layoutPart classes i ++ layout classes chain :=
  rfl

theorem visits_climb_le (first : Nat) {depth : Nat} (hdepth : depth ≤ classes.size) (i : Nat)
    (p : Parser) :
    (climb objects classes idSize owner first depth i p).1 + depth ≤ classes.size + 1 := by
  fun_induction climb objects classes idSize owner first depth i p with
  | case3 depth i p read p' hread hleft j hparent visits above habove ih =>
    have hvisits := ih (by omega)
    rw [habove] at hvisits
    dsimp only at hvisits ⊢
    omega
  | _ => omega

/-- **Class by class as much is decoded as from the whole layout**, as long as there are classes
left to be visited. -/
theorem climb_snd (first : Nat) {depth m : Nat} (hdepth : depth + m = classes.size) (i : Nat)
    (p : Parser) :
    (climb objects classes idSize owner first depth i p).2
      = let chain := superclassesFrom classes (m + 1) i
        let read := readLayout objects idSize owner (layout classes chain) p
        ⟨read.value.1,
          read.notes ++ endNotes classes owner first (depth + chain.length) read.value.2⟩ := by
  induction m generalizing depth i p with
  | zero =>
    -- this is the last class to be visited
    have hchain : superclassesFrom classes 1 i = [i] := by
      rw [superclassesFrom_succ]
      cases parent? classes i <;> rfl
    have hlast : classes.size < depth + 1 := by omega
    rw [climb, hchain]
    dsimp only
    rw [layout_cons, readLayout_append]
    obtain ⟨⟨values, p?⟩, notes⟩ := readLayout objects idSize owner (layoutPart classes i) p
    cases p? with
    | none => simp [endNotes]
    | some p' => simp [endNotes, hlast, layout, readLayout]
  | succ m ih =>
    have hleft : ¬classes.size < depth + 1 := by omega
    rw [climb, superclassesFrom_succ]
    dsimp only
    rw [layout_cons, readLayout_append]
    obtain ⟨⟨values, p?⟩, notes⟩ := readLayout objects idSize owner (layoutPart classes i) p
    cases p? with
    | none => simp [endNotes]
    -- behind the fields of this class the climb goes on, if there is a superclass
    | some p' =>
      cases parent? classes i with
      | none => simp [endNotes, hleft, layout, readLayout]
      | some j =>
        have habove := ih (show depth + 1 + m = classes.size by omega) j p'
        dsimp only at habove ⊢
        rw [if_neg hleft, habove]
        simp only [Option.elim_some, List.length_cons, List.append_assoc]
        rw [Nat.add_assoc, Nat.add_comm 1]

theorem climb_eq_decodeFields (data : ByteArray) (i : Nat) :
    (climb objects classes idSize owner i 0 i { data }).2
      = decodeFields objects classes idSize owner data i := by
  rw [climb_snd objects classes idSize owner i (Nat.zero_add _), decodeFields_eq]
  simp only [Nat.zero_add]
  rfl

end

end HeapDump
