/-
HeapDump/Proofs/Graph/ClassName.lean

The common form of class names.

A class is written with slashes or with dots, and a class of arrays as a descriptor such as
`[[Lpackage/Name;` or as a name with brackets such as `package.Name[][]`.  The common form has
dots and brackets.

The common form does not tell slashes from dots (`normalizeChars_dotted`), and a name that ends in
a bracket is no descriptor (`normalizeChars_of_getLast?`).  A common form has no slashes, and it
ends in a bracket if it was made from a descriptor, so it is a common form of its own
(`normalize_normalize`).

The descriptor of an array class and its name in source text have one common form
(`ArraySpelling.normalize_eq`), from which the class and the number of dimensions can be read off
(`ArraySpelling.inj`): the dimensions are counted by the closing brackets, as the name of the
element has none.  All of it is proved on lists of characters and carried over to strings at the
end.  Main statement: `class_names_canonical`.
-/
import HeapDump.Graph.ClassName
import Mathlib.Data.List.Basic

namespace HeapDump

namespace ClassName

variable {name rest : List Char} {c : Char} {k : Nat}

/-! ### Dots for slashes -/

/-- What stands for a character in a dotted name. -/
def dot (c : Char) : Char := if c = '/' then '.' else c

theorem dotted_eq_map (name : List Char) : dotted name = name.map dot := rfl

theorem dotted_append (front back : List Char) :
    dotted (front ++ back) = dotted front ++ dotted back :=
  List.map_append

/-- Characters other than slashes and dots stay where they are. -/
theorem dot_eq_iff (hslash : c ≠ '/') (hdot : c ≠ '.') {x : Char} : dot x = c ↔ x = c := by
  rw [dot]
  split
  · next hx => exact iff_of_false hdot.symm (hx ▸ hslash.symm)
  · rfl

theorem slash_notMem_dotted (name : List Char) : '/' ∉ dotted name := by
  intro h
  obtain ⟨x, -, hx⟩ := List.mem_map.mp h
  split at hx
  · cases hx
  · next hne => exact hne hx

theorem dotted_eq_self (h : '/' ∉ name) : dotted name = name := by
  have hdot (x : Char) (hx : x ∈ name) : dot x = id x :=
    if_neg fun (heq : x = '/') => h (heq ▸ hx)
  rw [dotted_eq_map, List.map_congr_left hdot, List.map_id]

theorem dotted_dotted (name : List Char) : dotted (dotted name) = dotted name :=
  dotted_eq_self (slash_notMem_dotted name)

theorem mem_dotted_iff (hslash : c ≠ '/') (hdot : c ≠ '.') : c ∈ dotted name ↔ c ∈ name := by
  rw [dotted_eq_map, List.mem_map]
  simp [dot_eq_iff hslash hdot]

/-! ### Brackets -/

theorem brackets_succ (n : Nat) : brackets (n + 1) = brackets n ++ ['[', ']'] := by
  simp [brackets, List.replicate_succ']

theorem slash_notMem_brackets (n : Nat) : '/' ∉ brackets n := by
  induction n with
  | zero => exact List.not_mem_nil
  | succ n ih => simpa [brackets_succ] using ih

theorem count_brackets (n : Nat) : (brackets n).count ']' = n := by
  induction n with
  | zero => rfl
  | succ n ih => simp [brackets_succ, ih]

/-- A name with pairs of brackets behind it ends in a bracket. -/
theorem getLast?_append_brackets (hk : 0 < k) : (name ++ brackets k).getLast? = some ']' := by
  obtain ⟨n, rfl⟩ := Nat.exists_eq_add_one.mpr hk
  simp [brackets_succ]

/-! ### Elements of descriptors -/

theorem element?_cons_cons (a b : Char) :
    element? (a :: b :: rest)
      = if a = 'L' ∧ (b :: rest).getLast? = some ';' then some (dotted (b :: rest).dropLast)
        else none := by
  by_cases ha : a = 'L'
  · subst ha
    simp [element?]
  · rw [if_neg fun h => ha h.1]
    unfold element?
    split <;> simp_all

/-- A class between its letter and a semicolon. -/
theorem element?_class (name : List Char) :
    element? ('L' :: (name ++ [';'])) = some (dotted name) := by
  cases name with
  | nil => rfl
  | cons b name =>
    rw [List.cons_append, element?_cons_cons, ← List.cons_append, List.getLast?_concat,
      if_pos ⟨rfl, rfl⟩, List.dropLast_concat]

theorem element?_letter {t : BasicType} (ht : t ∈ BasicType.primitives) :
    element? [t.letter] = some t.name.toList := by
  cases t with
  | object => exact absurd ht (by decide)
  | _ => rfl

/-- An element does not tell slashes from dots. -/
theorem element?_dotted (rest : List Char) : element? (dotted rest) = element? rest := by
  match rest with
  | [] => rfl
  | [letter] =>
    by_cases h : letter = '/'
    · subst h
      rfl
    · rw [dotted_eq_self fun hmem => h (List.mem_singleton.mp hmem).symm]
  | a :: b :: rest =>
    -- the letter in front and the semicolon at the end are neither slash nor dot
    have hlast : (dotted (b :: rest)).getLast? = some ';' ↔ (b :: rest).getLast? = some ';' := by
      rw [dotted_eq_map, List.getLast?_map, Option.map_eq_some_iff]
      simp [dot_eq_iff]
    have hdrop : dotted (dotted (b :: rest)).dropLast = dotted (b :: rest).dropLast := by
      rw [dotted_eq_map (b :: rest), ← List.map_dropLast]
      exact dotted_dotted _
    show element? (dot a :: dot b :: rest.map dot) = _
    rw [element?_cons_cons, element?_cons_cons]
    simp only [dot_eq_iff (show 'L' ≠ '/' by decide) (show 'L' ≠ '.' by decide)]
    exact if_congr (and_congr_right fun _ => hlast) (congrArg some hdrop) rfl

theorem slash_notMem_of_element? {element : List Char} (h : element? rest = some element) :
    '/' ∉ element := by
  match rest with
  | [] => cases h
  | [letter] =>
    obtain ⟨t, -, rfl⟩ := Option.map_eq_some_iff.mp h
    cases t <;> decide
  | a :: b :: rest =>
    rw [element?_cons_cons] at h
    split at h
    · cases h
      exact slash_notMem_dotted _
    · cases h

/-- What ends in a bracket is no element. -/
theorem element?_of_getLast? (h : rest.getLast? = some ']') : element? rest = none := by
  match rest with
  | [] => rfl
  | [letter] =>
    obtain rfl : letter = ']' := Option.some.inj h
    rfl
  | a :: b :: rest =>
    rw [List.getLast?_cons_cons] at h
    rw [element?_cons_cons, h]
    exact if_neg fun hlast => by cases hlast.2

/-! ### Common forms -/

/-- The common form does not tell slashes from dots. -/
theorem normalizeChars_dotted (name : List Char) :
    normalizeChars (dotted name) = normalizeChars name := by
  have hdimensions : ((dotted name).takeWhile (· = '[')).length
      = (name.takeWhile (· = '[')).length := by
    rw [dotted_eq_map, List.takeWhile_map, List.length_map]
    simp [Function.comp_def, dot_eq_iff]
  have hdrop (n : Nat) : (dotted name).drop n = dotted (name.drop n) := List.map_drop.symm
  rw [normalizeChars, normalizeChars, hdimensions, hdrop, element?_dotted, dotted_dotted]

/-- A name is dotted, or it is a descriptor: then an element is named, and brackets stand behind
it for those in front. -/
theorem normalizeChars_cases (name : List Char) :
    normalizeChars name = dotted name
      ∨ ∃ element k, 0 < k ∧ '/' ∉ element ∧ normalizeChars name = element ++ brackets k := by
  rw [normalizeChars]
  split
  · exact .inl rfl
  · next hne =>
    cases helement : element? (name.drop (name.takeWhile (· = '[')).length) with
    | none => exact .inl rfl
    | some element =>
      exact .inr ⟨element, _, Nat.pos_of_ne_zero hne, slash_notMem_of_element? helement, rfl⟩

/-- A name that ends in a bracket is no descriptor. -/
theorem normalizeChars_of_getLast? (h : name.getLast? = some ']') :
    normalizeChars name = dotted name := by
  rw [normalizeChars]
  split
  · rfl
  · have helement (n : Nat) : element? (name.drop n) = none := by
      by_cases hn : name.length ≤ n
      · rw [List.drop_of_length_le hn]
        rfl
      · refine element?_of_getLast? ?_
        rw [List.getLast?_drop, if_neg hn, h]
    rw [helement]

/-- A name without brackets in front is no descriptor. -/
theorem normalizeChars_of_notMem (h : '[' ∉ name) : normalizeChars name = dotted name := by
  cases name with
  | nil => rfl
  | cons c name =>
    have hc : c ≠ '[' := fun hc => h (List.mem_cons.mpr (.inl hc.symm))
    rw [normalizeChars, List.takeWhile_cons_of_neg (by simpa using hc)]
    rfl

/-- A descriptor of so many dimensions. -/
theorem normalizeChars_descriptor {element : List Char} (hk : 0 < k) (hc : c ≠ '[')
    (helement : element? (c :: rest) = some element) :
    normalizeChars (List.replicate k '[' ++ c :: rest) = element ++ brackets k := by
  have htake : (List.replicate k '[' ++ c :: rest).takeWhile (· = '[') = List.replicate k '[' := by
    rw [List.takeWhile_append_of_pos (by simp), List.takeWhile_cons_of_neg (by simpa using hc),
      List.append_nil]
  rw [normalizeChars, htake, List.length_replicate, if_neg (Nat.ne_of_gt hk),
    List.drop_left' List.length_replicate, helement]

theorem slash_notMem_normalizeChars (name : List Char) : '/' ∉ normalizeChars name := by
  rcases normalizeChars_cases name with h | ⟨element, k, -, helement, h⟩
  · rw [h]
    exact slash_notMem_dotted name
  · rw [h, List.mem_append, not_or]
    exact ⟨helement, slash_notMem_brackets k⟩

/-- A common form is a common form of its own, whatever it was made from. -/
theorem normalizeChars_normalizeChars (name : List Char) :
    normalizeChars (normalizeChars name) = normalizeChars name := by
  have hslash := slash_notMem_normalizeChars name
  rcases normalizeChars_cases name with h | ⟨element, k, hk, -, h⟩
  · conv => lhs; rw [h]
    exact normalizeChars_dotted name
  · -- brackets behind the name, so there is no second descriptor
    rw [normalizeChars_of_getLast? (h ▸ getLast?_append_brackets hk), dotted_eq_self hslash]

/-! ### Strings -/

theorem toList_normalize (x : String) : (normalize x).toList = normalizeChars x.toList :=
  String.toList_ofList

theorem normalize_eq_iff {x y : String} : normalize x = y ↔ normalizeChars x.toList = y.toList := by
  rw [← String.toList_inj, toList_normalize]

theorem normalize_normalize (x : String) : normalize (normalize x) = normalize x := by
  rw [normalize_eq_iff, toList_normalize, normalizeChars_normalizeChars]

/-- The descriptor of the arrays of a class. -/
def descriptor (name : String) (dimensions : Nat) : String :=
  String.ofList (List.replicate dimensions '[' ++ 'L' :: (name.toList ++ [';']))

/-- The descriptor of the arrays of a primitive type. -/
def primitiveDescriptor (t : BasicType) (dimensions : Nat) : String :=
  String.ofList (List.replicate dimensions '[' ++ [t.letter])

/-- The name of the arrays of a class in source text. -/
def arrayName (name : String) (dimensions : Nat) : String :=
  name ++ String.ofList (brackets dimensions)

/-- The two spellings of the name of an array class. -/
inductive ArraySpelling (name : String) (dimensions : Nat) : String → Prop where
  | descriptor : ArraySpelling name dimensions (descriptor name dimensions)
  | source : ArraySpelling name dimensions (arrayName name dimensions)

/-- There is no bracket in a name. -/
def Unbracketed (name : String) : Prop := '[' ∉ name.toList ∧ ']' ∉ name.toList

instance (name : String) : Decidable (Unbracketed name) :=
  inferInstanceAs (Decidable (_ ∧ _))

theorem toList_arrayName (name : String) (dimensions : Nat) :
    (arrayName name dimensions).toList = name.toList ++ brackets dimensions := by
  rw [arrayName, String.toList_append, String.toList_ofList]

variable {n n' x x' : String} {k' : Nat}

/-- **Both spellings have one common form**: the dotted name with brackets behind it. -/
theorem ArraySpelling.toList_normalize (h : ArraySpelling n k x) (hk : 0 < k) :
    (normalize x).toList = dotted n.toList ++ brackets k := by
  rw [ClassName.toList_normalize]
  cases h with
  | descriptor =>
    rw [ClassName.descriptor, String.toList_ofList]
    exact normalizeChars_descriptor hk (by decide) (element?_class _)
  | source =>
    rw [toList_arrayName, normalizeChars_of_getLast? (getLast?_append_brackets hk), dotted_append,
      dotted_eq_self (slash_notMem_brackets k)]

/-- The common form of an array class is that of its element with brackets behind it, the class
being written with slashes or dots. -/
theorem ArraySpelling.normalize_eq {m : String} (h : ArraySpelling m k x) (hk : 0 < k)
    (hn : Unbracketed n) (hm : dotted m.toList = dotted n.toList) :
    normalize x = arrayName (normalize n) k := by
  rw [← String.toList_inj, h.toList_normalize hk, toList_arrayName, ClassName.toList_normalize,
    normalizeChars_of_notMem hn.1, hm]

/-- The class and the number of dimensions can be read off the common form. -/
theorem ArraySpelling.inj (h : ArraySpelling n k x) (h' : ArraySpelling n' k' x') (hk : 0 < k)
    (hk' : 0 < k') (hn : Unbracketed n) (hn' : Unbracketed n') (heq : normalize x = normalize x') :
    k = k' ∧ dotted n.toList = dotted n'.toList := by
  have hlist := congrArg String.toList heq
  rw [h.toList_normalize hk, h'.toList_normalize hk'] at hlist
  -- closing brackets are those of the dimensions only
  have hcount {n : String} (hn : Unbracketed n) (k : Nat) :
      (dotted n.toList ++ brackets k).count ']' = k := by
    have hmem : ']' ∉ dotted n.toList :=
      (mem_dotted_iff (by decide) (by decide)).not.mpr hn.2
    rw [List.count_append, List.count_eq_zero_of_not_mem hmem, count_brackets, Nat.zero_add]
  obtain rfl : k = k' := by rw [← hcount hn k, hlist, hcount hn' k']
  exact ⟨rfl, List.append_cancel_right hlist⟩

theorem normalize_primitiveDescriptor {t : BasicType} (ht : t ∈ BasicType.primitives)
    (hk : 0 < k) : normalize (primitiveDescriptor t k) = arrayName t.name k := by
  rw [normalize_eq_iff, primitiveDescriptor, String.toList_ofList, toList_arrayName]
  refine normalizeChars_descriptor hk ?_ (element?_letter ht)
  cases t <;> decide

theorem arrayName_one (t : BasicType) : arrayName t.name 1 = t.arrayClassName := rfl

end ClassName

/-! ### The main statement -/

open ClassName in
/-- **The common form of class names is one form.**  It has no slashes and is its own common form.
A descriptor of so many dimensions and the name in source text have the same one, the class being
written with slashes or dots, and a descriptor of a primitive type has the name of the type with
the brackets.  Two spellings of array classes have one common form only if their classes are equal
but for slashes and dots, and have as many dimensions. -/
theorem class_names_canonical :
    (∀ x, '/' ∉ (normalize x).toList ∧ normalize (normalize x) = normalize x)
    ∧ (∀ (n m : String) (k : Nat) (x : String), Unbracketed n → 0 < k →
      dotted m.toList = dotted n.toList → ArraySpelling m k x →
        normalize x = arrayName (normalize n) k)
    ∧ (∀ t ∈ BasicType.primitives, (∀ k > 0, normalize (primitiveDescriptor t k) = arrayName t.name k)
      ∧ normalize (primitiveDescriptor t 1) = t.arrayClassName)
    ∧ ∀ (n n' : String) (k k' : Nat) (x x' : String), Unbracketed n → Unbracketed n' → 0 < k →
      0 < k' → ArraySpelling n k x → ArraySpelling n' k' x' → normalize x = normalize x' →
        k = k' ∧ dotted n.toList = dotted n'.toList := by
  refine ⟨fun x => ⟨?_, normalize_normalize x⟩, fun n m k x hn hk hm hx => hx.normalize_eq hk hn hm,
    fun t ht => ⟨fun k hk => normalize_primitiveDescriptor ht hk, ?_⟩,
    fun n n' k k' x x' hn hn' hk hk' hx hx' => hx.inj hx' hk hk' hn hn'⟩
  · rw [toList_normalize]
    exact slash_notMem_normalizeChars _
  · rw [normalize_primitiveDescriptor ht Nat.one_pos, arrayName_one]

open ClassName in
/-- A descriptor with slashes and a name with dots are one name, and their class is one class. -/
theorem class_names_canonical_object :
    descriptor "java/lang/Object" 2 = "[[Ljava/lang/Object;"
      ∧ normalize "[[Ljava/lang/Object;" = arrayName (normalize "java.lang.Object") 2
      ∧ normalize (primitiveDescriptor .int 1) = BasicType.arrayClassName .int
      ∧ dotted "java/lang/Object".toList = dotted "java.lang.Object".toList := by
  obtain ⟨-, hspelled, hprimitive, hinj⟩ := class_names_canonical
  have hdescriptor : descriptor "java/lang/Object" 2 = "[[Ljava/lang/Object;" := by
    decide +kernel
  have hslashes : Unbracketed "java/lang/Object" := by decide +kernel
  have hdots : Unbracketed "java.lang.Object" := by decide +kernel
  have hnormal := hspelled "java.lang.Object" "java/lang/Object" 2 _ hdots (by decide)
    (by decide +kernel) .descriptor
  have hsource := hspelled "java.lang.Object" "java.lang.Object" 2 _ hdots (by decide) rfl .source
  obtain ⟨-, hclass⟩ := hinj _ _ 2 2 _ _ hslashes hdots (by decide) (by decide) .descriptor .source
    (hnormal.trans hsource.symm)
  exact ⟨hdescriptor, hdescriptor ▸ hnormal, (hprimitive .int (by decide)).2, hclass⟩

end HeapDump
