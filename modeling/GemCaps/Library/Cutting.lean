/-
**Cutting a text at delimiters.**

A text is a list over any alphabet, a delimiter a letter of it.

* `before mark text`: the text up to its first `mark`; `behind mark text`: what follows that `mark`;
  `afterLast mark text`: what follows its last `mark`.
* `upTo marks text`: the text up to the first of several marks, looked for one after the other.
* `fields isMark text`: the pieces between delimiters, where a delimiter at the very end closes
  the last piece and opens no new one (`fields` of `a/b/` is `a`, `b`).
* `frame mark items`, `unframe mark count text`: items written one after the other, each closed by
  `mark`, and the loop that cuts `count` items off again. `unframe_before_frame_perm_iff` says when
  the cutting gives the items back, also when the framed text is first shortened at a `stop` letter.
-/

import Mathlib.Data.List.Basic
import Mathlib.Data.List.Infix
import Mathlib.Data.List.TakeWhile
import Mathlib.Data.List.Perm.Basic

namespace Cutting

variable {α : Type}

section Marks

variable [DecidableEq α]

/-! ### Up to the first mark -/

/-- The text up to its first `mark`. -/
def before (mark : α) (text : List α) : List α := text.takeWhile fun a => !decide (a = mark)

theorem before_isPrefix (mark : α) (text : List α) : before mark text <+: text :=
  List.takeWhile_prefix _

theorem mark_notMem_before (mark : α) (text : List α) : mark ∉ before mark text := by
  intro member
  simpa using List.mem_takeWhile_imp member

theorem before_append_of_notMem {mark : α} {front : List α} (free : mark ∉ front) (back : List α) :
    before mark (front ++ back) = front ++ before mark back := by
  refine List.takeWhile_append_of_pos fun a inside => ?_
  have different : a ≠ mark := fun same => free (same ▸ inside)
  simpa using different

theorem before_of_notMem {mark : α} {text : List α} (free : mark ∉ text) :
    before mark text = text := by
  have whole := before_append_of_notMem free ([] : List α)
  simpa [before] using whole

@[simp] theorem before_cons_self (mark : α) (text : List α) : before mark (mark :: text) = [] := by
  simp [before]

theorem before_append_cons {mark : α} {front : List α} (free : mark ∉ front) (back : List α) :
    before mark (front ++ mark :: back) = front := by
  rw [before_append_of_notMem free, before_cons_self, List.append_nil]

/-- A text is free of `mark`, or it is a free front, the first `mark`, and the rest. -/
theorem notMem_or_exists_first (mark : α) (text : List α) :
    mark ∉ text ∨ ∃ front back, text = front ++ mark :: back ∧ mark ∉ front := by
  by_cases inside : mark ∈ text
  · obtain ⟨front, back, split, free⟩ := List.eq_append_cons_of_mem inside
    exact Or.inr ⟨front, back, split, free⟩
  · exact Or.inl inside

theorem before_append_of_mem {mark : α} {front : List α} (inside : mark ∈ front) (back : List α) :
    before mark (front ++ back) = before mark front := by
  rcases notMem_or_exists_first mark front with free | ⟨head, tail, rfl, free⟩
  · exact absurd inside free
  · rw [List.append_assoc, List.cons_append, before_append_cons free, before_append_cons free]

/-- The text behind its first `mark`. -/
def behind (mark : α) (text : List α) : List α :=
  (text.dropWhile fun a => !decide (a = mark)).drop 1

theorem behind_append_cons {mark : α} {front : List α} (free : mark ∉ front) (back : List α) :
    behind mark (front ++ mark :: back) = back := by
  have passed : ∀ a ∈ front, (!decide (a = mark)) = true := fun a inside => by
    have different : a ≠ mark := fun same => free (same ▸ inside)
    simpa using different
  rw [behind, List.dropWhile_append_of_pos passed]
  simp

/-- A text has one split at its first `mark`. -/
theorem forall_behind_iff {mark : α} {front back : List α} (free : mark ∉ front)
    (property : List α → Prop) :
    (∀ front' back', front ++ mark :: back = front' ++ mark :: back' → mark ∉ front' →
      property back') ↔ property back := by
  refine ⟨fun all => all front back rfl free, fun holds front' back' split free' => ?_⟩
  have same := congrArg (behind mark) split
  rw [behind_append_cons free, behind_append_cons free'] at same
  exact same ▸ holds

/-! ### Up to one of several marks -/

/-- The text up to a mark. The marks are looked for in the order of the list, and the first one that
occurs anywhere ends the piece. -/
def upTo : List α → List α → List α
  | [], text => text
  | mark :: marks, text => if mark ∈ text then before mark text else upTo marks text

theorem upTo_of_mem {mark : α} {text : List α} (inside : mark ∈ text) (marks : List α) :
    upTo (mark :: marks) text = before mark text := if_pos inside

theorem upTo_of_notMem {mark : α} {text : List α} (free : mark ∉ text) (marks : List α) :
    upTo (mark :: marks) text = upTo marks text := if_neg free

/-- A piece that does not end at once starts as the text does. -/
theorem head?_upTo {marks : List α} {letter : α} (plain : letter ∉ marks) (back : List α) :
    (upTo marks (letter :: back)).head? = some letter := by
  induction marks with
  | nil => rfl
  | cons mark marks ih =>
    simp only [List.mem_cons, not_or] at plain
    by_cases inside : mark ∈ letter :: back
    · rw [upTo_of_mem inside, before, List.takeWhile_cons_of_pos (by simpa using plain.1)]
      rfl
    · rw [upTo_of_notMem inside]
      exact ih plain.2

/-- **Where the piece ends.** It ends at the first place of the first mark that occurs. -/
theorem exists_of_mem_marks {marks text : List α} {last : α} (listed : last ∈ marks)
    (closed : last ∈ text) :
    ∃ earlier mark later back, marks = earlier ++ mark :: later ∧ (∀ other ∈ earlier, other ∉ text) ∧
      mark ∉ upTo marks text ∧ text = upTo marks text ++ mark :: back := by
  induction marks with
  | nil => exact absurd listed List.not_mem_nil
  | cons mark marks ih =>
    by_cases inside : mark ∈ text
    · obtain ⟨front, back, rfl, free⟩ := List.eq_append_cons_of_mem inside
      rw [upTo_of_mem inside, before_append_cons free]
      exact ⟨[], mark, marks, back, rfl, fun _ none => absurd none List.not_mem_nil, free, rfl⟩
    · have listedLater : last ∈ marks :=
        (List.mem_cons.mp listed).resolve_left fun same => inside (same ▸ closed)
      obtain ⟨earlier, other, later, back, rfl, absent, free, split⟩ := ih listedLater
      rw [upTo_of_notMem inside]
      refine ⟨mark :: earlier, other, later, back, rfl, fun letter passed => ?_, free, split⟩
      rcases List.mem_cons.mp passed with rfl | passed
      · exact inside
      · exact absent letter passed

/-! ### Behind the last mark -/

/-- The text behind its last `mark`; the whole text where there is none. -/
def afterLast (mark : α) (text : List α) : List α := (before mark text.reverse).reverse

theorem afterLast_of_notMem {mark : α} {text : List α} (free : mark ∉ text) :
    afterLast mark text = text := by
  have none : mark ∉ text.reverse := fun inside => free (List.mem_reverse.mp inside)
  rw [afterLast, before_of_notMem none, List.reverse_reverse]

omit [DecidableEq α] in
theorem reverse_append_cons (front : List α) (mark : α) (back : List α) :
    (front ++ mark :: back).reverse = back.reverse ++ mark :: front.reverse := by
  rw [List.reverse_append, List.reverse_cons, List.append_assoc, List.singleton_append]

theorem afterLast_append_cons {mark : α} (front : List α) {back : List α} (free : mark ∉ back) :
    afterLast mark (front ++ mark :: back) = back := by
  have none : mark ∉ back.reverse := fun inside => free (List.mem_reverse.mp inside)
  rw [afterLast, reverse_append_cons, before_append_cons none, List.reverse_reverse]

/-- A text is free of `mark`, or it is a front, the last `mark`, and a free rest. -/
theorem notMem_or_exists_last (mark : α) (text : List α) :
    mark ∉ text ∨ ∃ front back, text = front ++ mark :: back ∧ mark ∉ back := by
  rcases notMem_or_exists_first mark text.reverse with none | ⟨back, front, reversed, free⟩
  · exact Or.inl fun inside => none (List.mem_reverse.mpr inside)
  · refine Or.inr ⟨front.reverse, back.reverse, ?_, fun inside => free (List.mem_reverse.mp inside)⟩
    rw [← List.reverse_reverse text, reversed, reverse_append_cons]

/-! ### The index of the first mark -/

theorem findIdx?_append_cons {mark : α} {front : List α} (free : mark ∉ front) (back : List α) :
    (front ++ mark :: back).findIdx? (· == mark) = some front.length := by
  induction front with
  | nil => simp [List.findIdx?_cons]
  | cons a front ih =>
    simp only [List.mem_cons, not_or] at free
    have different : (a == mark) = false := beq_eq_false_iff_ne.mpr (Ne.symm free.1)
    rw [List.cons_append, List.findIdx?_cons, different, ih free.2]
    rfl

theorem findIdx?_eq_none {mark : α} {text : List α} (free : mark ∉ text) :
    text.findIdx? (· == mark) = none := by
  refine List.findIdx?_eq_none_iff.mpr fun a inside => beq_eq_false_iff_ne.mpr ?_
  rintro rfl
  exact free inside

theorem findIdx?_eq_some {mark : α} {text : List α} {index : Nat}
    (found : text.findIdx? (· == mark) = some index) :
    ∃ front back, text = front ++ mark :: back ∧ mark ∉ front ∧ front.length = index := by
  rcases notMem_or_exists_first mark text with free | ⟨front, back, rfl, free⟩
  · rw [findIdx?_eq_none free] at found
    cases found
  · rw [findIdx?_append_cons free] at found
    exact ⟨front, back, rfl, free, Option.some.inj found⟩

/-! ### Cutting a shortened text -/

/-- What follows a front only continues its last piece. -/
theorem dropLast_splitOn_append (mark : α) (front back : List α) :
    (front.splitOn mark).dropLast <+: (front ++ back).splitOn mark := by
  induction front with
  | nil => exact List.nil_prefix
  | cons a front ih =>
    rw [List.cons_append, List.splitOn_cons_eq_if_modifyHead, List.splitOn_cons_eq_if_modifyHead]
    obtain ⟨piece, pieces, shape⟩ := List.exists_cons_of_ne_nil (List.splitOn_ne_nil mark front)
    obtain ⟨other, others, shape'⟩ :=
      List.exists_cons_of_ne_nil (List.splitOn_ne_nil mark (front ++ back))
    rw [shape, shape'] at ih ⊢
    by_cases marked : (a == mark) = true
    · rw [if_pos marked, if_pos marked, List.dropLast_cons_of_ne_nil (List.cons_ne_nil _ _)]
      exact (List.prefix_cons_inj _).mpr ih
    · rw [if_neg marked, if_neg marked, List.modifyHead_cons, List.modifyHead_cons]
      cases pieces with
      | nil => exact List.nil_prefix
      | cons next rest =>
        rw [List.dropLast_cons_of_ne_nil (List.cons_ne_nil _ _)] at ih ⊢
        obtain ⟨rfl, below⟩ := List.cons_prefix_cons.mp ih
        exact (List.prefix_cons_inj _).mpr below

/-- The pieces and the marks between them make up the text. -/
theorem length_splitOn (mark : α) (text : List α) :
    (text.splitOn mark).flatten.length + (text.splitOn mark).length = text.length + 1 := by
  induction text with
  | nil => rfl
  | cons a text ih =>
    obtain ⟨piece, pieces, shape⟩ := List.exists_cons_of_ne_nil (List.splitOn_ne_nil mark text)
    rw [List.splitOn_cons_eq_if_modifyHead]
    rw [shape] at ih ⊢
    by_cases marked : (a == mark) = true
    · rw [if_pos marked]
      simp only [List.flatten_cons, List.nil_append, List.length_append, List.length_cons] at ih ⊢
      omega
    · rw [if_neg marked, List.modifyHead_cons]
      simp only [List.flatten_cons, List.cons_append, List.length_append, List.length_cons] at ih ⊢
      omega

/-- A text whose pieces continue those of another one is not shorter. -/
theorem length_le_of_splitOn {mark : α} {front text : List α} {more : List (List α)}
    (continued : text.splitOn mark = front.splitOn mark ++ more) : front.length ≤ text.length := by
  have short := length_splitOn mark front
  have long := length_splitOn mark text
  rw [continued, List.flatten_append, List.length_append, List.length_append] at long
  omega

/-- The last piece of a text, or of one shortened, is the only one that may be new. -/
theorem mem_splitOn_append {mark : α} {front piece : List α} (back : List α)
    (inside : piece ∈ front.splitOn mark) :
    piece ∈ (front ++ back).splitOn mark ∨ (front.splitOn mark).getLast? = some piece := by
  have nonempty := List.splitOn_ne_nil mark front
  rw [← List.dropLast_append_getLast nonempty] at inside
  rcases List.mem_append.mp inside with earlier | last
  · exact Or.inl ((dropLast_splitOn_append mark front back).subset earlier)
  · rw [List.mem_singleton] at last
    exact Or.inr (by rw [List.getLast?_eq_some_getLast nonempty, last])

/-! ### Framing -/

/-- Items one after the other, each closed by `mark`. -/
def frame (mark : α) (items : List (List α)) : List α := items.flatMap (· ++ [mark])

/-- Cut `count` items off a framed text; a missing `mark` ends the cutting and drops the rest. -/
def unframe (mark : α) : Nat → List α → List (List α)
  | 0, _ => []
  | count + 1, text =>
    match text.findIdx? (· == mark) with
    | none => []
    | some index => text.take index :: unframe mark count (text.drop (index + 1))

theorem unframe_succ_append_cons {mark : α} {front : List α} (free : mark ∉ front) (count : Nat)
    (back : List α) :
    unframe mark (count + 1) (front ++ mark :: back) = front :: unframe mark count back := by
  have after : (front ++ mark :: back).drop (front.length + 1) = back := by
    rw [← List.singleton_append, ← List.append_assoc]
    exact List.drop_left' (by simp)
  simp only [unframe, findIdx?_append_cons free, List.take_left, after]

theorem unframe_of_notMem {mark : α} {text : List α} (free : mark ∉ text) (count : Nat) :
    unframe mark count text = [] := by
  cases count with
  | zero => rfl
  | succ count => simp only [unframe, findIdx?_eq_none free]

/-- Items without the closing letter are cut off as they were framed. -/
theorem unframe_frame {mark : α} {items : List (List α)} (free : ∀ item ∈ items, mark ∉ item) :
    unframe mark items.length (frame mark items) = items := by
  induction items with
  | nil => rfl
  | cons item items ih =>
    have shape : frame mark (item :: items) = item ++ mark :: frame mark items := by
      simp [frame]
    rw [shape, List.length_cons, unframe_succ_append_cons (free item List.mem_cons_self),
      ih fun other inside => free other (List.mem_cons_of_mem _ inside)]

/-- An item that was cut off holds no `mark`, and only letters of the text. -/
theorem mem_unframe {mark : α} {count : Nat} {text item : List α}
    (member : item ∈ unframe mark count text) : mark ∉ item ∧ ∀ a ∈ item, a ∈ text := by
  induction count generalizing text with
  | zero => exact absurd member List.not_mem_nil
  | succ count ih =>
    rcases notMem_or_exists_first mark text with free | ⟨front, back, rfl, free⟩
    · rw [unframe_of_notMem free] at member
      exact absurd member List.not_mem_nil
    · rw [unframe_succ_append_cons free] at member
      rcases List.mem_cons.mp member with rfl | later
      · exact ⟨free, fun a inside => List.mem_append_left _ inside⟩
      · obtain ⟨itemFree, inside⟩ := ih later
        exact ⟨itemFree, fun a member => List.mem_append_right _
          (List.mem_cons_of_mem _ (inside a member))⟩

/-- Items without the closing letter and without `stop` survive the shortening as well. -/
theorem unframe_before_frame {mark stop : α} (different : mark ≠ stop) {items : List (List α)}
    (clean : ∀ item ∈ items, mark ∉ item ∧ stop ∉ item) :
    unframe mark items.length (before stop (frame mark items)) = items := by
  have stopFree : stop ∉ frame mark items := by
    simp only [frame, List.mem_flatMap, List.mem_append, List.mem_singleton, not_exists, not_and,
      not_or]
    exact fun item inside => ⟨(clean item inside).2, Ne.symm different⟩
  rw [before_of_notMem stopFree, unframe_frame fun item inside => (clean item inside).1]

/-- **When a framed text survives.** Shortened at its first `stop` and cut again, the framed text
gives exactly its items back if and only if no item holds the closing letter or `stop`. -/
theorem unframe_before_frame_perm_iff {mark stop : α} (different : mark ≠ stop)
    (items : List (List α)) :
    (unframe mark items.length (before stop (frame mark items))).Perm items ↔
      ∀ item ∈ items, mark ∉ item ∧ stop ∉ item := by
  constructor
  · intro same item inside
    obtain ⟨markFree, letters⟩ := mem_unframe (same.mem_iff.mpr inside)
    exact ⟨markFree, fun member => mark_notMem_before stop _ (letters stop member)⟩
  · exact fun clean => List.Perm.of_eq (unframe_before_frame different clean)

end Marks

/-! ### Fields -/

/-- The pieces between delimiters; a delimiter at the end closes the last piece. -/
def fields (isMark : α → Bool) : List α → List (List α)
  | [] => []
  | a :: text =>
    if isMark a then [] :: fields isMark text
    else match fields isMark text with
      | [] => [[a]]
      | field :: rest => (a :: field) :: rest

variable {isMark : α → Bool}

@[simp] theorem fields_nil : fields isMark [] = [] := rfl

theorem fields_cons_mark {a : α} (mark : isMark a = true) (text : List α) :
    fields isMark (a :: text) = [] :: fields isMark text := by
  rw [fields, if_pos mark]

theorem fields_append_cons {front : List α} (free : ∀ a ∈ front, isMark a = false) {mark : α}
    (isMarked : isMark mark = true) (back : List α) :
    fields isMark (front ++ mark :: back) = front :: fields isMark back := by
  induction front with
  | nil => exact fields_cons_mark isMarked back
  | cons a front ih =>
    have head : ¬ isMark a = true := by simp [free a List.mem_cons_self]
    have tail := ih fun b inside => free b (List.mem_cons_of_mem _ inside)
    rw [List.cons_append, fields, if_neg head, tail]

theorem fields_of_free {text : List α} (free : ∀ a ∈ text, isMark a = false)
    (nonempty : text ≠ []) : fields isMark text = [text] := by
  induction text with
  | nil => exact absurd rfl nonempty
  | cons a text ih =>
    have head : ¬ isMark a = true := by simp [free a List.mem_cons_self]
    by_cases last : text = []
    · subst last
      rw [fields, if_neg head]
      rfl
    · have tail := ih (fun b inside => free b (List.mem_cons_of_mem _ inside)) last
      rw [fields, if_neg head, tail]

/-- A text without delimiters, or a free front, the first delimiter, and the rest. -/
theorem free_or_exists_first (isMark : α → Bool) (text : List α) :
    (∀ a ∈ text, isMark a = false) ∨
      ∃ front mark back, text = front ++ mark :: back ∧ (∀ a ∈ front, isMark a = false) ∧
        isMark mark = true := by
  induction text with
  | nil => exact Or.inl fun a inside => absurd inside List.not_mem_nil
  | cons a text ih =>
    by_cases marked : isMark a = true
    · exact Or.inr ⟨[], a, text, rfl, fun b inside => absurd inside List.not_mem_nil, marked⟩
    · have plain : isMark a = false := by simpa using marked
      rcases ih with free | ⟨front, mark, back, rfl, free, isMarked⟩
      · exact Or.inl fun b inside => (List.mem_cons.mp inside).elim (fun same => same ▸ plain) (free b)
      · refine Or.inr ⟨a :: front, mark, back, rfl, fun b inside => ?_, isMarked⟩
        exact (List.mem_cons.mp inside).elim (fun same => same ▸ plain) (free b)

/-- Induction along the fields of a text: the empty text, a last field, a field and the rest. -/
theorem fields_induction {motive : List α → Prop} (isMark : α → Bool) (nil : motive [])
    (last : ∀ text, text ≠ [] → (∀ a ∈ text, isMark a = false) → motive text)
    (field : ∀ front mark back, (∀ a ∈ front, isMark a = false) → isMark mark = true →
      motive back → motive (front ++ mark :: back)) (text : List α) : motive text := by
  induction length : text.length using Nat.strong_induction_on generalizing text with
  | _ size ih =>
    rcases free_or_exists_first isMark text with free | ⟨front, mark, back, rfl, free, isMarked⟩
    · by_cases empty : text = []
      · exact empty ▸ nil
      · exact last text empty free
    · have shorter : back.length < size := by
        simp only [List.length_append, List.length_cons] at length
        omega
      exact field front mark back free isMarked (ih _ shorter back rfl)

/-- A text that ends with a delimiter is cut on its own, whatever follows. -/
theorem fields_append_of_mark {mark : α} (isMarked : isMark mark = true) (front back : List α) :
    fields isMark (front ++ mark :: back) = fields isMark (front ++ [mark]) ++ fields isMark back := by
  induction front using fields_induction isMark with
  | nil =>
    rw [List.nil_append, List.nil_append, fields_cons_mark isMarked, fields_cons_mark isMarked]
    rfl
  | last front nonempty free =>
    rw [fields_append_cons free isMarked, fields_append_cons free isMarked]
    rfl
  | field front first rest free isFirst ih =>
    rw [List.append_assoc, List.append_assoc, List.cons_append, List.cons_append,
      fields_append_cons free isFirst, fields_append_cons free isFirst, ih, List.cons_append]

/-- A delimiter behind the last field only closes it. -/
theorem fields_concat {mark last : α} (isMarked : isMark mark = true) (plain : isMark last = false)
    (front : List α) : fields isMark (front ++ [last] ++ [mark]) = fields isMark (front ++ [last]) := by
  induction front using fields_induction isMark with
  | nil =>
    have free : ∀ a ∈ [last], isMark a = false := fun a inside => List.mem_singleton.mp inside ▸ plain
    rw [List.nil_append, fields_append_cons free isMarked, fields_of_free free (List.cons_ne_nil _ _)]
    rfl
  | last front nonempty free =>
    have allFree : ∀ a ∈ front ++ [last], isMark a = false := by
      intro a inside
      rcases List.mem_append.mp inside with inFront | isLast
      · exact free a inFront
      · exact List.mem_singleton.mp isLast ▸ plain
    have filled : front ++ [last] ≠ [] := List.append_ne_nil_of_left_ne_nil nonempty _
    rw [fields_append_cons allFree isMarked, fields_of_free allFree filled]
    rfl
  | field front first rest free isFirst ih =>
    rw [List.append_assoc front, List.append_assoc front, List.cons_append, List.cons_append,
      fields_append_cons free isFirst, fields_append_cons free isFirst, ih]

/-- No field holds a delimiter. -/
theorem free_of_mem_fields {text field : List α} (member : field ∈ fields isMark text) :
    ∀ a ∈ field, isMark a = false := by
  induction text using fields_induction isMark with
  | nil => exact absurd member List.not_mem_nil
  | last text nonempty free =>
    rw [fields_of_free free nonempty, List.mem_singleton] at member
    exact member ▸ free
  | field front mark back free isMarked ih =>
    rw [fields_append_cons free isMarked] at member
    rcases List.mem_cons.mp member with rfl | inside
    · exact free
    · exact ih inside

/-- Every letter of a field is a letter of the text. -/
theorem mem_of_mem_fields {text field : List α} (member : field ∈ fields isMark text) :
    ∀ a ∈ field, a ∈ text := by
  induction text using fields_induction isMark with
  | nil => exact absurd member List.not_mem_nil
  | last text nonempty free =>
    rw [fields_of_free free nonempty, List.mem_singleton] at member
    exact fun a inside => member ▸ inside
  | field front mark back free isMarked ih =>
    rw [fields_append_cons free isMarked] at member
    intro a inside
    rcases List.mem_cons.mp member with rfl | later
    · exact List.mem_append_left _ inside
    · exact List.mem_append_right _ (List.mem_cons_of_mem _ (ih later a inside))

/-- Pieces joined by a delimiter are cut apart again, when the last piece is not empty. -/
theorem fields_intercalate {mark : α} (isMarked : isMark mark = true) {pieces : List (List α)}
    (free : ∀ piece ∈ pieces, ∀ a ∈ piece, isMark a = false)
    (closed : ∀ piece, pieces.getLast? = some piece → piece ≠ []) :
    fields isMark ([mark].intercalate pieces) = pieces := by
  induction pieces with
  | nil => rfl
  | cons piece pieces ih =>
    have pieceFree := free piece List.mem_cons_self
    by_cases single : pieces = []
    · subst single
      rw [List.intercalate_singleton]
      exact fields_of_free pieceFree (closed piece rfl)
    · have rest := ih (fun other inside => free other (List.mem_cons_of_mem _ inside))
        fun other isLast => closed other (by rw [List.getLast?_cons_of_ne_nil single]; exact isLast)
      rw [List.intercalate_cons_of_ne_nil single, List.append_assoc, List.singleton_append,
        fields_append_cons pieceFree isMarked, rest]

end Cutting
