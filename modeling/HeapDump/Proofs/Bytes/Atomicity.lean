/-
HeapDump/Proofs/Bytes/Atomicity.lean

Operations that happen as a whole or not at all.

An operation that fails leaves the parser as it was, and so does a block in which one fails,
whatever was read or skipped in front of it and however deep it stands (`keeps_run`).  A block in
which none fails does what its operations do without it (`run_transaction_eq_ok_iff`), down to the
operations that are no blocks (`succeed_leaves`).  The error of a block is that of the first
operation in it that fails (`run_transaction_eq_error_iff`).

Design.  A tree of operations is run by two functions that call each other, one for an operation
and one for a list of them, so every statement about trees comes as a pair that is proved by
mutual recursion.  Three notions keep these pairs short:

* `Keeps p x`: the outcome `x` of running at `p` stands inside the bytes of `p`, and is `p` itself
  if it is an error.  Single operations keep a parser because of their guards; a block does so
  because it goes back, whatever its operations did.
* `Succeed ops p answers q`: the operations follow each other without a failure.
* `Performs op p inner q`: to run `op` at `p` comes to `inner` at `q`, at any depth.

Main statement: `operations_atomic`, which is about any operation that a run comes to, after any
history of operations that gave answers or failed.
-/
import HeapDump.Proofs.Value.Parsing

namespace HeapDump.Parser

variable {α β : Type} {p q r : Parser}

/-! ### Where a parser may stand -/

/-- `q` stands inside the bytes that `p` is over. -/
structure Inside (p q : Parser) : Prop where
  data_eq : q.data = p.data
  base_eq : q.base = p.base
  position_le : q.position ≤ q.length

theorem Inside.refl (hp : p.position ≤ p.length) : p.Inside p := ⟨rfl, rfl, hp⟩

theorem Inside.trans (h : p.Inside q) (h' : q.Inside r) : p.Inside r where
  data_eq := h'.data_eq.trans h.data_eq
  base_eq := h'.base_eq.trans h.base_eq
  position_le := h'.position_le

/-- Going back from inside to where a parser stood. -/
theorem Inside.eq_of_position_eq (h : p.Inside q) : { q with position := p.position } = p := by
  obtain ⟨data, base, position⟩ := q
  obtain ⟨rfl, rfl, -⟩ := h
  rfl

/-- What `p` gives together with the parser after it: that one stands inside, and is `p` itself if
what `p` gives is an error. -/
structure Keeps (p : Parser) (x : Except Error α × Parser) : Prop where
  inside : p.Inside x.2
  restored : ∀ e, x.1 = .error e → x.2 = p

theorem Keeps.answering {x : Except Error α × Parser} (h : p.Keeps x) (f : α → β) :
    p.Keeps (answering f x) := by
  obtain ⟨result, after⟩ := x
  refine ⟨h.inside, fun e he => ?_⟩
  cases result with
  | error e' => exact h.restored e' rfl
  | ok a => cases he

theorem keeps_error (hp : p.position ≤ p.length) (e : Error) :
    p.Keeps ((.error e, p) : Except Error α × Parser) :=
  ⟨.refl hp, fun _ _ => rfl⟩

theorem keeps_ok {position : Nat} (h : position ≤ p.length) (a : α) :
    p.Keeps ((.ok a, { p with position }) : Except Error α × Parser) where
  inside := ⟨rfl, rfl, h⟩
  restored := by
    intro e he
    cases he

/-! ### One operation -/

section

variable (hp : p.position ≤ p.length)
include hp

/-- As many bytes as are left lead to the end at most. -/
theorem add_le_length {n : Nat} (h : n ≤ p.remaining) : p.position + n ≤ p.length := by
  have hsum : p.position + p.remaining = p.length := Nat.add_sub_of_le hp
  omega

theorem keeps_readNumber (s : Scalar) : p.Keeps (p.readNumber s) := by
  rw [readNumber_eq]
  split
  · next h => exact keeps_ok (add_le_length hp h) _
  · exact keeps_error hp _

theorem keeps_readId (width : Nat) : p.Keeps (p.readId width) := by
  by_cases hwidth : width ∈ [1, 2, 4, 8]
  · rw [readId_eq p hwidth]
    split
    · next h => exact keeps_ok (add_le_length hp h) _
    · exact keeps_error hp _
  · rw [readId_of_unsupported p hwidth]
    exact keeps_error hp _

theorem keeps_readBytes (length : Nat) : p.Keeps (p.readBytes length) := by
  unfold readBytes
  split
  · next h => exact keeps_ok (add_le_length hp h) _
  · exact keeps_error hp _

theorem keeps_seek (position : Nat) : p.Keeps (p.seek position) := by
  unfold seek
  split
  · next h => exact keeps_ok h _
  · exact keeps_error hp _

theorem keeps_advance (step : Nat) : p.Keeps (p.advance step) := by
  unfold advance
  split
  · next h => exact keeps_ok (add_le_length hp h) _
  · exact keeps_error hp _

theorem keeps_peek : p.Keeps p.peek := by
  unfold peek
  split
  · exact keeps_ok hp _
  · exact keeps_error hp _

/-- A block goes back to where it began, even if what was done in it did not. -/
theorem keeps_transaction {act : Parser → Except Error α × Parser} (h : p.Inside (act p).2) :
    p.Keeps (p.transaction act) := by
  unfold transaction
  rcases hact : act p with ⟨e | a, after⟩
  · rw [hact] at h
    -- an error: the parser behind the block is moved back to where the block began
    have hback : { after with position := p.position } = p := h.eq_of_position_eq
    simp only [hback]
    exact keeps_error hp e
  · rw [hact] at h
    refine ⟨h, ?_⟩
    intro e he
    cases he

end

/-! ### Operations in blocks -/

theorem runAll_cons_of_ok {op : Op} {answer : Answer} (h : op.run p = (.ok answer, q))
    (ops : List Op) : Op.runAll (op :: ops) p = answering (answer :: ·) (Op.runAll ops q) := by
  simp only [Op.runAll, h]

theorem runAll_cons_of_error {op : Op} {e : Error} (h : op.run p = (.error e, q))
    (ops : List Op) : Op.runAll (op :: ops) p = (.error e, q) := by
  simp only [Op.runAll, h]

mutual

/-- **An operation that fails leaves the parser as it was**, and one that does not leaves it
inside. -/
theorem keeps_run : ∀ (op : Op) {p : Parser}, p.position ≤ p.length → p.Keeps (op.run p)
  | .readNumber s, _, hp => (keeps_readNumber hp s).answering _
  | .readId width, _, hp => (keeps_readId hp width).answering _
  | .readBytes length, _, hp => (keeps_readBytes hp length).answering _
  | .seek position, _, hp => (keeps_seek hp position).answering _
  | .advance step, _, hp => (keeps_advance hp step).answering _
  | .peek, _, hp => (keeps_peek hp).answering _
  -- a block need not keep the parser in its operations, it is enough that they stay inside
  | .transaction ops, _, hp => (keeps_transaction hp (inside_runAll ops hp)).answering _

/-- Operations one after the other do not leave the bytes, though what is behind the first ones is
not taken back if a later one fails. -/
theorem inside_runAll : ∀ (ops : List Op) {p : Parser}, p.position ≤ p.length →
    p.Inside (Op.runAll ops p).2
  | [], _, hp => .refl hp
  | op :: ops, p, hp => by
    have hop : p.Keeps (op.run p) := keeps_run op hp
    rcases hrun : op.run p with ⟨e | answer, q⟩
    · rw [hrun] at hop
      rw [runAll_cons_of_error hrun]
      exact hop.inside
    · rw [hrun] at hop
      rw [runAll_cons_of_ok hrun]
      exact hop.inside.trans (inside_runAll ops hop.inside.position_le)

end

/-- The parser after some operations, each of which is run whether or not those in front of it
failed. -/
def afterAll (ops : List Op) (p : Parser) : Parser := ops.foldl (fun p op => (op.run p).2) p

theorem inside_afterAll (ops : List Op) (hp : p.position ≤ p.length) :
    p.Inside (afterAll ops p) := by
  induction ops generalizing p with
  | nil => exact .refl hp
  | cons op ops ih =>
    have hop := (keeps_run op hp).inside
    exact hop.trans (ih hop.position_le)

/-! ### Operations without blocks -/

/-- Operations follow each other, with no block around them, and each gives an answer. -/
inductive Op.Succeed : List Op → Parser → List Answer → Parser → Prop where
  | nil (p : Parser) : Succeed [] p [] p
  | cons {op : Op} {ops : List Op} {answer : Answer} {answers : List Answer} {p q r : Parser}
      (first : op.run p = (.ok answer, q)) (rest : Succeed ops q answers r) :
      Succeed (op :: ops) p (answer :: answers) r

theorem Op.Succeed.append {ops ops' : List Op} {answers answers' : List Answer}
    (h : Op.Succeed ops p answers q) (h' : Op.Succeed ops' q answers' r) :
    Op.Succeed (ops ++ ops') p (answers ++ answers') r := by
  induction h with
  | nil => exact h'
  | cons first _ ih => exact .cons first (ih h')

theorem Op.Succeed.inside {ops : List Op} {answers : List Answer}
    (h : Op.Succeed ops p answers q) (hp : p.position ≤ p.length) : p.Inside q := by
  induction h with
  | nil => exact .refl hp
  | @cons op _ _ _ p q _ first _ ih =>
    have hop : p.Keeps (op.run p) := keeps_run op hp
    rw [first] at hop
    exact hop.inside.trans (ih hop.inside.position_le)

theorem answering_eq_ok_iff {f : α → β} {x : Except Error α × Parser} {b : β} :
    answering f x = (.ok b, q) ↔ ∃ a, x = (.ok a, q) ∧ b = f a := by
  obtain ⟨e | a, after⟩ := x
  · simp [answering, Except.map]
  · simp [answering, Except.map, and_comm, eq_comm]

theorem answering_fst_eq_error_iff {f : α → β} {x : Except Error α × Parser} {e : Error} :
    (answering f x).1 = .error e ↔ x.1 = .error e := by
  obtain ⟨e' | a, after⟩ := x
  · simp [answering, Except.map]
  · simp [answering, Except.map]

theorem runAll_eq_ok_iff {ops : List Op} {answers : List Answer} :
    Op.runAll ops p = (.ok answers, q) ↔ Op.Succeed ops p answers q := by
  induction ops generalizing p answers with
  | nil =>
    constructor
    · intro h
      cases h
      exact .nil _
    · intro h
      cases h
      rfl
  | cons op ops ih =>
    constructor
    · intro h
      rcases hop : op.run p with ⟨e | answer, p'⟩
      · rw [runAll_cons_of_error hop] at h
        cases h
      · rw [runAll_cons_of_ok hop] at h
        obtain ⟨rest, hrest, rfl⟩ := answering_eq_ok_iff.mp h
        exact .cons hop (ih.mp hrest)
    · intro h
      cases h with
      | cons first rest =>
        rw [runAll_cons_of_ok first]
        exact answering_eq_ok_iff.mpr ⟨_, ih.mpr rest, rfl⟩

/-- Operations one after the other fail with the first of them that does. -/
theorem runAll_fst_eq_error_iff {ops : List Op} {e : Error} :
    (Op.runAll ops p).1 = .error e ↔ ∃ front failing rest answers q,
      ops = front ++ failing :: rest ∧ Op.Succeed front p answers q
        ∧ (failing.run q).1 = .error e := by
  constructor
  · intro h
    -- induction on the operations: the first one fails, or the rest is run behind it
    induction ops generalizing p with
    | nil => cases h
    | cons op ops ih =>
      rcases hop : op.run p with ⟨e' | answer, p'⟩
      · rw [runAll_cons_of_error hop] at h
        cases h
        exact ⟨[], op, ops, [], p, rfl, .nil p, congrArg Prod.fst hop⟩
      · rw [runAll_cons_of_ok hop] at h
        obtain ⟨front, failing, rest, answers, q, rfl, hfront, hfails⟩ :=
          ih (answering_fst_eq_error_iff.mp h)
        exact ⟨op :: front, failing, rest, _, q, rfl, .cons hop hfront, hfails⟩
  -- the operations in front of the failing one are passed one by one
  · rintro ⟨front, failing, rest, answers, q, rfl, hfront, hfails⟩
    induction hfront with
    | nil p =>
      rcases hop : failing.run p with ⟨e' | answer, p'⟩
      · rw [hop] at hfails
        cases hfails
        rw [List.nil_append, runAll_cons_of_error hop]
      · rw [hop] at hfails
        cases hfails
    | cons first _ ih =>
      rw [List.cons_append, runAll_cons_of_ok first]
      exact answering_fst_eq_error_iff.mpr (ih hfails)

/-- **A block gives an answer just if its operations do without it**, and then the same answers and
the same place. -/
theorem run_transaction_eq_ok_iff {ops : List Op} {answer : Answer} :
    (Op.transaction ops).run p = (.ok answer, q)
      ↔ ∃ answers, answer = .all answers ∧ Op.Succeed ops p answers q := by
  have hblock {answers : List Answer} : p.transaction (Op.runAll ops) = (.ok answers, q)
      ↔ Op.runAll ops p = (.ok answers, q) := by
    unfold transaction
    rcases Op.runAll ops p with ⟨e | answers', after⟩
    · simp
    · rfl
  rw [Op.run, answering_eq_ok_iff]
  constructor
  · rintro ⟨answers, hrun, rfl⟩
    exact ⟨answers, rfl, runAll_eq_ok_iff.mp (hblock.mp hrun)⟩
  · rintro ⟨answers, rfl, hrun⟩
    exact ⟨answers, hblock.mpr (runAll_eq_ok_iff.mpr hrun), rfl⟩

/-- A block fails as its operations do without it. -/
theorem run_transaction_fst_eq_error_iff {ops : List Op} {e : Error} :
    ((Op.transaction ops).run p).1 = .error e ↔ (Op.runAll ops p).1 = .error e := by
  have hblock : (p.transaction (Op.runAll ops)).1 = (Op.runAll ops p).1 := by
    unfold transaction
    rcases Op.runAll ops p with ⟨e' | answers, after⟩
    · rfl
    · rfl
  rw [Op.run, answering_fst_eq_error_iff, hblock]

/-- **A block fails just if one of its operations does**, with the error of the first one. -/
theorem run_transaction_eq_error_iff {ops : List Op} {e : Error} :
    ((Op.transaction ops).run p).1 = .error e ↔ ∃ front failing rest answers q,
      ops = front ++ failing :: rest ∧ Op.Succeed front p answers q
        ∧ (failing.run q).1 = .error e := by
  rw [run_transaction_fst_eq_error_iff, runAll_fst_eq_error_iff]

mutual

/-- The operations of a tree that are no blocks, in their order. -/
def Op.leaves : Op → List Op
  | .transaction ops => Op.allLeaves ops
  | op => [op]

/-- The operations of some trees that are no blocks. -/
def Op.allLeaves : List Op → List Op
  | [] => []
  | op :: ops => op.leaves ++ Op.allLeaves ops

end

mutual

/-- The answers of the operations that are no blocks. -/
def Answer.leaves : Answer → List Answer
  | .all answers => Answer.allLeaves answers
  | answer => [answer]

/-- The answers of the operations of some trees that are no blocks. -/
def Answer.allLeaves : List Answer → List Answer
  | [] => []
  | answer :: answers => answer.leaves ++ Answer.allLeaves answers

end

mutual

/-- **Without failures blocks change nothing**, however deep they are: a tree that gives an answer
gives those of its leaves, one after the other, and ends where they do. -/
theorem succeed_leaves : ∀ (op : Op) {p q : Parser} {answer : Answer},
    op.run p = (.ok answer, q) → Op.Succeed op.leaves p answer.leaves q
  | .readNumber s, _, q, _, h => by
    obtain ⟨value, -, rfl⟩ := answering_eq_ok_iff.mp h
    exact .cons h (.nil q)
  | .readId width, _, q, _, h => by
    obtain ⟨value, -, rfl⟩ := answering_eq_ok_iff.mp h
    exact .cons h (.nil q)
  | .readBytes length, _, q, _, h => by
    obtain ⟨value, -, rfl⟩ := answering_eq_ok_iff.mp h
    exact .cons h (.nil q)
  | .seek position, _, q, _, h => by
    obtain ⟨value, -, rfl⟩ := answering_eq_ok_iff.mp h
    exact .cons h (.nil q)
  | .advance step, _, q, _, h => by
    obtain ⟨value, -, rfl⟩ := answering_eq_ok_iff.mp h
    exact .cons h (.nil q)
  | .peek, _, q, _, h => by
    obtain ⟨value, -, rfl⟩ := answering_eq_ok_iff.mp h
    exact .cons h (.nil q)
  -- the leaves of a block are those of its operations, without the block itself
  | .transaction ops, _, _, _, h => by
    obtain ⟨answers, rfl, hops⟩ := run_transaction_eq_ok_iff.mp h
    exact succeed_allLeaves ops hops

/-- The same for trees that follow each other. -/
theorem succeed_allLeaves : ∀ (ops : List Op) {p q : Parser} {answers : List Answer},
    Op.Succeed ops p answers q → Op.Succeed (Op.allLeaves ops) p (Answer.allLeaves answers) q
  | [], _, _, _, .nil p => .nil p
  | op :: ops, _, _, _, .cons first rest =>
    (succeed_leaves op first).append (succeed_allLeaves ops rest)

end

/-! ### What a run comes to -/

/-- To run `op` at `p` is to perform `inner` at `q`, among other things: the two are the same, or
`op` is a block, and one of its operations performs `inner` after those in front of it have given
their answers. -/
inductive Op.Performs : Op → Parser → Op → Parser → Prop where
  | self (op : Op) (p : Parser) : Performs op p op p
  | inside {front rest : List Op} {op inner : Op} {answers : List Answer} {p q r : Parser}
      (hfront : Op.Succeed front p answers q) (h : Performs op q inner r) :
      Performs (.transaction (front ++ op :: rest)) p inner r

theorem Op.Performs.inside_of_position_le {op inner : Op} (h : op.Performs p inner q)
    (hp : p.position ≤ p.length) : p.Inside q := by
  induction h with
  | self => exact .refl hp
  | inside hfront _ ih =>
    have hq := hfront.inside hp
    exact hq.trans (ih hq.position_le)

/-- An operation that is no block. -/
def Op.IsLeaf : Op → Prop
  | .transaction _ => False
  | _ => True

mutual

/-- **Every error comes from an operation that is no block**, which the run has come to. -/
theorem exists_performs_of_error : ∀ (op : Op) {p : Parser} {e : Error},
    (op.run p).1 = .error e →
      ∃ leaf q, op.Performs p leaf q ∧ leaf.IsLeaf ∧ (leaf.run q).1 = .error e
  | .readNumber _, p, _, h => ⟨_, p, .self _ p, trivial, h⟩
  | .readId _, p, _, h => ⟨_, p, .self _ p, trivial, h⟩
  | .readBytes _, p, _, h => ⟨_, p, .self _ p, trivial, h⟩
  | .seek _, p, _, h => ⟨_, p, .self _ p, trivial, h⟩
  | .advance _, p, _, h => ⟨_, p, .self _ p, trivial, h⟩
  | .peek, p, _, h => ⟨_, p, .self _ p, trivial, h⟩
  -- the failing operation of a block is looked at in turn, until it is no block
  | .transaction ops, _, _, h => by
    obtain ⟨front, failing, rest, answers, q, rfl, hfront, leaf, r, hleaf⟩ :=
      exists_performs_of_runAll_error ops (run_transaction_fst_eq_error_iff.mp h)
    exact ⟨leaf, r, .inside hfront hleaf.1, hleaf.2⟩

/-- The same for operations that follow each other. -/
theorem exists_performs_of_runAll_error : ∀ (ops : List Op) {p : Parser} {e : Error},
    (Op.runAll ops p).1 = .error e → ∃ front failing rest answers q,
      ops = front ++ failing :: rest ∧ Op.Succeed front p answers q
        ∧ ∃ leaf r, failing.Performs q leaf r ∧ leaf.IsLeaf ∧ (leaf.run r).1 = .error e
  | [], _, _, h => by cases h
  | op :: ops, p, e, h => by
    rcases hop : op.run p with ⟨e' | answer, q⟩
    · rw [runAll_cons_of_error hop] at h
      cases h
      exact ⟨[], op, ops, [], p, rfl, .nil p, exists_performs_of_error op (congrArg Prod.fst hop)⟩
    · rw [runAll_cons_of_ok hop] at h
      obtain ⟨front, failing, rest, answers, r, rfl, hfront, hleaf⟩ :=
        exists_performs_of_runAll_error ops (answering_fst_eq_error_iff.mp h)
      exact ⟨op :: front, failing, rest, _, r, rfl, .cons hop hfront, hleaf⟩

end

/-! ### The main statement -/

/-- **Operations happen as a whole or not at all**, wherever a run comes to them and however deep
they stand, after any others that gave answers or failed.  The position stays inside, and an
operation that fails does not move it.  Without failures blocks change nothing: a tree does what its
leaves do, and a block what its operations do.  A block fails with the error of its first operation
that does, and with no other. -/
theorem operations_atomic {data : ByteArray} {base : Nat} (hbase : base + data.size < UInt64.size)
    (history : List Op) (op : Op) {inner : Op} {p : Parser}
    (h : op.Performs (afterAll history { data, base }) inner p) :
    let (result, after) := inner.run p
    (after.data = data ∧ after.base = base
      ∧ after.position ≤ data.size ∧ after.position + after.remaining = data.size
      ∧ after.absolutePosition < UInt64.size)
    ∧ (∀ e, result = .error e → after = p)
    ∧ (∀ answer, result = .ok answer → Op.Succeed inner.leaves p answer.leaves after)
    ∧ ∀ ops, inner = .transaction ops →
      (∀ answer q, (result, after) = (.ok answer, q)
        ↔ ∃ answers, answer = .all answers ∧ Op.Succeed ops p answers q)
      ∧ ∀ e, result = .error e ↔ ∃ front failing rest answers q,
        ops = front ++ failing :: rest ∧ Op.Succeed front p answers q
          ∧ (failing.run q).1 = .error e := by
  -- history, and the operations in front of `inner`, have kept the parser inside the bytes
  have hstart : Inside { data, base } (afterAll history { data, base }) :=
    inside_afterAll history (Nat.zero_le _)
  have hp : Inside { data, base } p := hstart.trans (h.inside_of_position_le hstart.position_le)
  have hkeeps : p.Keeps (inner.run p) := keeps_run inner hp.position_le
  have hafter : Inside { data, base } (inner.run p).2 := hp.trans hkeeps.inside
  have hle : (inner.run p).2.position ≤ data.size := by
    have hposition := hafter.position_le
    rwa [length, hafter.data_eq] at hposition
  refine ⟨⟨hafter.data_eq, hafter.base_eq, hle, ?_, ?_⟩, hkeeps.restored, fun answer hok => ?_,
    fun ops hops => ?_⟩
  -- what is left and what is behind make up all bytes
  · rw [remaining, length, hafter.data_eq]
    exact Nat.add_sub_of_le hle
  -- no place inside the bytes wraps around, since their end does not
  · rw [absolutePosition, hafter.base_eq]
    show base + _ < _
    omega
  · exact succeed_leaves inner (Prod.ext hok rfl)
  · subst hops
    exact ⟨fun answer q => run_transaction_eq_ok_iff, fun e => run_transaction_eq_error_iff⟩

/-- A block that reads a byte, with a block in it that goes back to the start and fails behind two
more bytes. -/
def nestedBlocks : Op :=
  .transaction [.readNumber .uint8, .transaction [.seek 0, .readBytes 2, .readId 2], .advance 1]

/-- Three bytes that stand at place 1000, read from the second one on.  The inner block fails at the
third byte and goes back to where it began, which is behind the byte that the outer one has read. -/
theorem operations_atomic_nestedBlocks :
    let inner : Op := .transaction [.seek 0, .readBytes 2, .readId 2]
    let start : Parser := { data := ⟨#[1, 2, 3]⟩, base := 1000, position := 1 }
    1000 + (⟨#[1, 2, 3]⟩ : ByteArray).size < UInt64.size
      ∧ start = afterAll [.advance 1, .advance 3] { data := ⟨#[1, 2, 3]⟩, base := 1000 }
      ∧ nestedBlocks.Performs start inner { start with position := 2 }
      ∧ inner.run { start with position := 2 }
        = (.error (.outOfBounds 1002 2 1003), { start with position := 2 })
      ∧ nestedBlocks.run start = (.error (.outOfBounds 1002 2 1003), start) := by
  intro inner start
  have hbase : 1000 + (⟨#[1, 2, 3]⟩ : ByteArray).size < UInt64.size := by decide
  have hperforms : (Op.transaction ([.readNumber .uint8] ++ inner :: [.advance 1])).Performs
      start inner { start with position := 2 } := .inside (.cons rfl (.nil _)) (.self _ _)
  have hinner : (inner.run { start with position := 2 }).1 = .error (.outOfBounds 1002 2 1003) :=
    rfl
  have houter : (nestedBlocks.run start).1 = .error (.outOfBounds 1002 2 1003) := rfl
  obtain ⟨-, hback, -⟩ := operations_atomic hbase [.advance 1, .advance 3] nestedBlocks hperforms
  obtain ⟨-, hstart, -⟩ :=
    operations_atomic hbase [.advance 1, .advance 3] nestedBlocks (.self nestedBlocks start)
  exact ⟨hbase, rfl, hperforms, Prod.ext hinner (hback _ hinner),
    Prod.ext houter (hstart _ houter)⟩

end HeapDump.Parser
