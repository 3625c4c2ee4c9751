/-
**Cutting and joining paths** (`pathutils.cpp`).

`splitFrom` is the loop of `path::split` on the position in the path, which has to come to its end
exactly. `splitFrom_eq`: it ends after at most as many rounds as there are letters, with the parts of
`split`. `joinAll_split_eq`: joining them gives the path back with `/` for every separator and without
one separator at its end. `split_join`: what `join` puts together is cut into the parts of both.
-/

import GemCaps.Path.Resolution

namespace GemCaps

open Cutting GemCaps.Path

namespace Path

/-! ### The loop on positions -/

/-- The loop of `path::split`, with this many rounds left; `none` when they are used up, or when
`substr` throws because the position is behind the end. -/
def splitFrom : Nat → Bytes → Nat → List Bytes → Option (List Bytes)
  | 0, _, _, _ => none
  | rounds + 1, path, start, sections =>
    if start = path.length then some sections
    else match find path slash start, find path backslash start with
      | none, none => if start ≤ path.length then some (sections ++ [path.drop start]) else none
      | none, some endBck =>
        splitFrom rounds path (endBck + 1) (sections ++ [substr path start (endBck - start)])
      | some endFwd, none =>
        splitFrom rounds path (endFwd + 1) (sections ++ [substr path start (endFwd - start)])
      | some endFwd, some endBck =>
        if endFwd < endBck then
          splitFrom rounds path (endFwd + 1) (sections ++ [substr path start (endFwd - start)])
        else splitFrom rounds path (endBck + 1) (sections ++ [substr path start (endBck - start)])

theorem find_drop (path : Bytes) (letter : Byte) (start : Nat) :
    find path letter start = (find (path.drop start) letter 0).map (start + ·) := by
  rw [find, find, List.drop_zero, Option.map_map]
  congr 1
  funext index
  exact congrArg (start + ·) (Nat.zero_add index).symm

/-- A letter that was found lies before the end. -/
theorem lt_length_of_find {rest : Bytes} {letter : Byte} {index : Nat}
    (found : find rest letter 0 = some index) : index < rest.length := by
  obtain ⟨front, back, shape, _, rfl⟩ := exists_of_find_eq_some found
  rw [List.drop_zero] at shape
  rw [shape, List.length_append, List.length_cons]
  omega

/-- **The loop on positions does what the loop on the rest of the path does.** -/
theorem splitFrom_eq_splitLoop {rounds start : Nat} {path : Bytes} (sections : List Bytes)
    (inside : start ≤ path.length) (enough : path.length - start < rounds) :
    splitFrom rounds path start sections =
      some (sections ++ splitLoop (path.length - start) (path.drop start)) := by
  induction rounds generalizing start sections with
  | zero => exact absurd enough (Nat.not_lt_zero _)
  | succ rounds ih =>
    by_cases atEnd : start = path.length
    · rw [splitFrom, if_pos atEnd, atEnd, Nat.sub_self, List.drop_length, splitLoop,
        List.append_nil]
    · have more : path.drop start ≠ [] := by
        rw [ne_eq, List.drop_eq_nil_iff]
        omega
      have count : path.length - start = path.length - start - 1 + 1 := by omega
      -- One round of both loops, up to the letter that was found.
      have round : ∀ index, index < (path.drop start).length →
          splitFrom rounds path (start + index + 1)
              (sections ++ [substr path start (start + index - start)]) =
            some (sections ++ (path.drop start).take index ::
              splitLoop (path.length - start - 1) ((path.drop start).drop (index + 1))) := by
        intro index found
        rw [List.length_drop] at found
        have rest : (path.drop start).drop (index + 1) = path.drop (start + index + 1) := by
          rw [List.drop_drop, Nat.add_assoc]
        have cut : splitLoop (path.length - (start + index + 1)) (path.drop (start + index + 1)) =
            splitLoop (path.length - start - 1) (path.drop (start + index + 1)) := by
          rw [splitLoop_eq_fields (by rw [List.length_drop]),
            splitLoop_eq_fields (by rw [List.length_drop]; omega)]
        rw [ih _ (by omega) (by omega), Nat.add_sub_cancel_left, substr, rest, ← cut,
          List.append_assoc, List.singleton_append]
      rw [splitFrom, if_neg atEnd, count, splitLoop, if_neg more, find_drop path slash,
        find_drop path backslash]
      cases fwd : find (path.drop start) slash 0 with
      | none =>
        cases bck : find (path.drop start) backslash 0 with
        | none => simp only [Option.map_none, if_pos inside]
        | some endBck => exact round endBck (lt_length_of_find bck)
      | some endFwd =>
        cases bck : find (path.drop start) backslash 0 with
        | none => exact round endFwd (lt_length_of_find fwd)
        | some endBck =>
          simp only [Option.map_some, Nat.add_lt_add_iff_left]
          by_cases first : endFwd < endBck
          · rw [if_pos first, if_pos first]
            exact round endFwd (lt_length_of_find fwd)
          · rw [if_neg first, if_neg first]
            exact round endBck (lt_length_of_find bck)

/-- **The loop ends.** -/
theorem splitFrom_eq {rounds : Nat} {path : Bytes} (enough : path.length < rounds) :
    splitFrom rounds path 0 [] = some (split path) :=
  splitFrom_eq_splitLoop [] (Nat.zero_le _) enough

/-- **Cutting and joining again.** The loop ends, its parts hold no separator, and joined they are the
path with `/` for every separator, but for one separator at its end. -/
theorem joinAll_split_eq (path : Bytes) :
    (∃ bound, ∀ rounds, bound ≤ rounds → splitFrom rounds path 0 [] = some (split path)) ∧
      (∀ part ∈ split path, slash ∉ part ∧ backslash ∉ part) ∧
      joinAll (split path) =
        if path.getLast?.any isSep then (forward path).dropLast else forward path := by
  refine ⟨⟨path.length + 1, fun rounds enough => splitFrom_eq enough⟩, fun part inside => ?_, ?_⟩
  · have free := split_free path part inside
    exact ⟨fun here => absurd (free slash here) (by decide),
      fun here => absurd (free backslash here) (by decide)⟩
  · rw [← joinAll_split path]
    by_cases trailing : path.getLast?.any isSep = true
    · rw [if_pos trailing, if_pos trailing, List.dropLast_concat]
    · rw [if_neg trailing, if_neg trailing, List.append_nil]

end Path

/-! ### What `join` puts together -/

/-- The second argument of `join` without its leading separator. -/
def unrooted (path : Bytes) : Bytes := if path.head?.any isSep then path.drop 1 else path

theorem join_eq {root : Bytes} (noTrailing : root.getLast?.any isSep = false) (path : Bytes) :
    join root path = root ++ slash :: unrooted path := by
  rw [join, if_neg (by simp [noTrailing]), unrooted]

namespace Path

theorem join_of_trailing {root : Bytes} (trailing : root.getLast?.any isSep = true) (path : Bytes) :
    join root path = root ++ unrooted path := by
  rw [join, if_pos trailing, unrooted]

/-- `join` keeps its first argument in front. -/
theorem join_isPrefix (root path : Bytes) : root <+: join root path := by
  cases trailing : root.getLast?.any isSep with
  | true =>
    rw [join_of_trailing trailing]
    exact List.prefix_append root _
  | false =>
    rw [join_eq trailing]
    exact List.prefix_append root _

/-- **`split` turns `join` into an append.** -/
theorem split_join_append {root : Bytes} (nonempty : root ≠ []) (path : Bytes) :
    split (join root path) = split root ++ split (unrooted path) := by
  obtain ⟨front, last, rfl⟩ : ∃ front last, root = front ++ [last] :=
    ⟨root.dropLast, root.getLast nonempty, (List.dropLast_concat_getLast nonempty).symm⟩
  have isLast : (front ++ [last]).getLast?.any isSep = isSep last := by
    rw [List.getLast?_concat, Option.any_some]
  rw [split_eq_fields, split_eq_fields, split_eq_fields]
  cases trailing : isSep last with
  | true =>
    rw [join_of_trailing (isLast.trans trailing), List.append_assoc, List.singleton_append,
      fields_append_of_mark trailing]
  | false =>
    rw [join_eq (isLast.trans trailing), fields_append_of_mark isSep_slash,
      fields_concat isSep_slash trailing]

/-- `join` adds nothing in front of its first argument. -/
theorem split_unrooted_join (middle path : Bytes) :
    split (unrooted (join middle path)) = split (unrooted middle) ++ split (unrooted path) := by
  cases middle with
  | nil => exact congrArg split (if_pos rfl)
  | cons letter rest =>
    obtain ⟨added, joined⟩ := join_isPrefix (letter :: rest) path
    rw [List.cons_append] at joined
    cases leading : isSep letter with
    | false =>
      have plain : ∀ others, unrooted (letter :: others) = letter :: others := fun others =>
        if_neg (by simp [leading])
      rw [← joined, plain, joined, plain, split_join_append (List.cons_ne_nil _ _)]
    | true =>
      have dropped : ∀ others, unrooted (letter :: others) = others := fun others =>
        if_pos (by simp [leading])
      rw [← joined, dropped, dropped]
      cases rest with
      | nil =>
        have isPath : join [letter] path = letter :: unrooted path :=
          join_of_trailing (by simp [leading]) path
        rw [← joined, List.cons.injEq] at isPath
        exact congrArg split isPath.2
      | cons next others =>
        have last : (letter :: next :: others).getLast? = (next :: others).getLast? :=
          List.getLast?_cons_cons
        have isJoin : next :: others ++ added = join (next :: others) path := by
          cases trailing : (next :: others).getLast?.any isSep with
          | true =>
            rw [join_of_trailing (last ▸ trailing)] at joined
            rw [join_of_trailing trailing]
            exact (List.cons.inj joined).2
          | false =>
            rw [join_eq (last ▸ trailing)] at joined
            rw [join_eq trailing]
            exact (List.cons.inj joined).2
        rw [isJoin, split_join_append (List.cons_ne_nil _ _)]

/-- **Joining and cutting**: the parts of the root, then those of the path behind one separator in
front of it. So `join` is associative up to `split`. -/
theorem split_join {root : Bytes} (nonempty : root ≠ []) (path : Bytes) :
    split (join root path) = split root ++ split (unrooted path) ∧
      ∀ more, split (join (join root path) more) = split (join root (join path more)) := by
  refine ⟨split_join_append nonempty path, fun more => ?_⟩
  have stillNonempty : join root path ≠ [] := (join_isPrefix root path).ne_nil nonempty
  rw [split_join_append stillNonempty, split_join_append nonempty, split_join_append nonempty,
    split_unrooted_join, List.append_assoc]

theorem split_join_root :
    split (join (text "/") (text "\\a")) = split (text "/") ++ split (unrooted (text "\\a")) ∧
      ∀ more, split (join (join (text "/") (text "\\a")) more) =
        split (join (text "/") (join (text "\\a") more)) :=
  split_join (by decide) (text "\\a")

end Path

end GemCaps
