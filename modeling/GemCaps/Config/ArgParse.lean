/-
**The command line** (`params.cpp`).

`parseArgs` consumes the arguments from the front: an option takes its value with it, any other word is
bound to the next positional name. `parseArgs_spec`: it accepts exactly the sequences of items that the
parser allows, binds every option to its first value and the positional names to the words in their
order, and its result does not change when options move among the words.
-/

import GemCaps.Files.Handler

namespace GemCaps

/-- `ArgParse`. Every short name stands for a long one. -/
structure ArgParse where
  args : List Bytes
  params : List Bytes
  shortParams : Vars
  declared : ∀ short name, shortParams.lookup short = some name → name ∈ params

/-- What a map holds after an insertion. -/
theorem lookup_insertVar (vars : Vars) (var : Bytes × Bytes) (key : Bytes) :
    (insertVar vars var).lookup key =
      (vars.lookup key).or (if key = var.1 then some var.2 else none) := by
  unfold insertVar
  by_cases bound : var.1 ∈ vars
  · rw [if_pos bound]
    by_cases same : key = var.1
    · obtain ⟨value, found⟩ := Option.isSome_iff_exists.mp (AList.lookup_isSome.mpr bound)
      rw [same, found, Option.some_or]
    · rw [if_neg same, Option.or_none]
  · rw [if_neg bound]
    by_cases same : key = var.1
    · rw [if_pos same, same, AList.lookup_insert, AList.lookup_eq_none.mpr bound, Option.none_or]
    · rw [if_neg same, Option.or_none, AList.lookup_insert_ne same]

namespace ArgParse

/-! ### Declaring names -/

/-- A parser without names. -/
def empty : ArgParse := ⟨[], [], ∅, fun short name found => by simp at found⟩

/-- `addArg(arg)`. -/
def addArg (parser : ArgParse) (arg : Bytes) : ArgParse :=
  { parser with args := parser.args ++ [arg] }

/-- `addParam(param)`. -/
def addParam (parser : ArgParse) (param : Bytes) : ArgParse :=
  { parser with
    params := parser.params.insert param
    declared := fun short name found => List.mem_insert_of_mem (parser.declared short name found) }

/-- `addParam(param, short_param)`. -/
def addShortParam (parser : ArgParse) (param shortParam : Bytes) : ArgParse :=
  { parser.addParam param with
    shortParams := insertVar parser.shortParams (shortParam, param)
    declared := by
      intro short name found
      rw [lookup_insertVar, Option.or_eq_some_iff] at found
      rcases found with earlier | ⟨_, new⟩
      · exact (parser.addParam param).declared short name earlier
      · obtain ⟨_, same⟩ := Option.ite_none_right_eq_some.mp new
        exact Option.some.inj same ▸ List.mem_insert_self }

/-! ### Parsing -/

/-- The texts of the exceptions. -/
def unknownParameter (arg : Bytes) : Bytes := text "Unknown parameter '" ++ arg ++ text "'"

def missingValue (arg : Bytes) : Bytes := text "Missing value after '" ++ arg ++ text "'"

def tooManyArguments : Bytes := text "Too many arguments given"

/-- The loop of `parseArgs`; the error is the text of the exception. -/
def parseFrom (parser : ArgParse) : List Bytes → Nat → Vars → Except Bytes Vars
  | [], _, result => .ok result
  | arg :: rest, argPos, result =>
    if text "--" <+: arg then
      if arg.drop 2 ∈ parser.params then
        match rest with
        | [] => .error (missingValue arg)
        | value :: rest => parseFrom parser rest argPos (insertVar result (arg.drop 2, value))
      else .error (unknownParameter arg)
    else if text "-" <+: arg then
      match parser.shortParams.lookup (arg.drop 1) with
      | none => .error (unknownParameter arg)
      | some name =>
        match rest with
        | [] => .error (missingValue arg)
        | value :: rest => parseFrom parser rest argPos (insertVar result (name, value))
    else
      match parser.args[argPos]? with
      | none => .error tooManyArguments
      | some tag => parseFrom parser rest (argPos + 1) (insertVar result (tag, arg))

/-- `parseArgs(args)`. -/
def parseArgs (parser : ArgParse) (args : List Bytes) : Except Bytes Vars :=
  parser.parseFrom args 0 ∅

/-- `parseArgs(args, nargs)`. -/
def parseArgv (parser : ArgParse) (args : List CString) : Except Bytes Vars :=
  parser.parseArgs (args.map CString.bytes)

/-! ### The grammar -/

/-- What a command line consists of. -/
inductive Item where
  | long (name value : Bytes)
  | short (name value : Bytes)
  | plain (word : Bytes)
deriving DecidableEq

/-- The arguments of an item. -/
def Item.written : Item → List Bytes
  | .long name value => [minus :: minus :: name, value]
  | .short name value => [minus :: name, value]
  | .plain word => [word]

/-- The names of options are declared, and a word does not look like an option. -/
def Item.Allowed (parser : ArgParse) : Item → Prop
  | .long name _ => name ∈ parser.params
  | .short name _ => name ∈ parser.shortParams
  | .plain word => word.head? ≠ some minus

/-- The option that an item gives, under its long name, with its value. -/
def Item.option (parser : ArgParse) : Item → Option (Bytes × Bytes)
  | .long name value => some (name, value)
  | .short name value => (parser.shortParams.lookup name).map fun long => (long, value)
  | .plain _ => none

/-- The word that is no option. -/
def Item.positional : Item → Option Bytes
  | .plain word => some word
  | .long _ _ | .short _ _ => none

/-- The options that are given, in their order. -/
def options (parser : ArgParse) (items : List Item) : List (Bytes × Bytes) :=
  items.filterMap (Item.option parser)

/-- The words in their order. -/
def words (items : List Item) : List Bytes := items.filterMap Item.positional

/-- A sequence of items that the parser has names for. -/
structure Accepts (parser : ArgParse) (items : List Item) : Prop where
  allowed : ∀ item ∈ items, item.Allowed parser
  count : (words items).length ≤ parser.args.length

/-- Every option is bound to its first value, the positional names are bound to the words in their
order, and nothing else is bound. -/
structure Binds (parser : ArgParse) (items : List Item) (result : Vars) : Prop where
  option : ∀ name ∈ parser.params, result.lookup name = (parser.options items).lookup name
  positional : ∀ (index : Nat) (name : Bytes), parser.args[index]? = some name →
    result.lookup name = (words items)[index]?
  other : ∀ name, name ∉ parser.params → name ∉ parser.args → result.lookup name = none

/-- No name is declared twice, and no short name looks like the dashes of a long one. -/
structure Distinct (parser : ArgParse) : Prop where
  names : (parser.params ++ parser.shortParams.keys ++ parser.args).Nodup
  dashFree : ∀ short ∈ parser.shortParams, short.head? ≠ some minus

/-! ### One item -/

variable {parser : ArgParse}

/-- The dashes in front of an argument. -/
theorem dash_prefix_iff (arg : Bytes) : text "-" <+: arg ↔ arg.head? = some minus := by
  cases arg with
  | nil => simp [text]
  | cons letter rest => simp [text, List.cons_prefix_cons, eq_comm]

theorem not_dashes_of_plain {arg : Bytes} (plain : arg.head? ≠ some minus) : ¬ text "--" <+: arg := by
  cases arg with
  | nil => simp [text]
  | cons letter rest =>
    intro dashes
    have first : minus = letter := (List.cons_prefix_cons.mp dashes).1
    exact plain (congrArg some first.symm)

/-- What the loop does with an option. -/
structure Takes (parser : ArgParse) (item : Item) (var : Bytes × Bytes) : Prop where
  option : item.option parser = some var
  positional : item.positional = none
  declared : var.1 ∈ parser.params
  parses : ∀ rest argPos result, parser.parseFrom (item.written ++ rest) argPos result =
    parser.parseFrom rest argPos (insertVar result var)

theorem takes_long {name value : Bytes} (isParam : name ∈ parser.params) :
    Takes parser (.long name value) (name, value) := by
  refine ⟨rfl, rfl, isParam, fun rest argPos result => ?_⟩
  have dashes : text "--" <+: minus :: minus :: name := List.prefix_append [minus, minus] name
  have tag : (minus :: minus :: name).drop 2 = name := rfl
  simp only [Item.written, List.cons_append, List.nil_append, parseFrom, if_pos dashes, tag,
    if_pos isParam]

theorem takes_short {short long value : Bytes} (dashFree : short.head? ≠ some minus)
    (found : parser.shortParams.lookup short = some long) :
    Takes parser (.short short value) (long, value) := by
  refine ⟨?_, rfl, parser.declared short long found, fun rest argPos result => ?_⟩
  · rw [Item.option, found]
    rfl
  · have noDashes : ¬ text "--" <+: minus :: short := by
      intro dashes
      have second := (List.cons_prefix_cons.mp dashes).2
      exact dashFree ((dash_prefix_iff short).mp second)
    have dash : text "-" <+: minus :: short := List.prefix_append [minus] short
    have tag : (minus :: short).drop 1 = short := rfl
    simp only [Item.written, List.cons_append, List.nil_append, parseFrom, if_neg noDashes,
      if_pos dash]
    rw [tag, found]

/-- **An allowed item** is a word, or an option that the loop takes. -/
theorem Item.Allowed.cases {item : Item} (allowed : item.Allowed parser)
    (distinct : parser.Distinct) :
    (∃ word, item = .plain word ∧ word.head? ≠ some minus) ∨ ∃ var, Takes parser item var := by
  cases item with
  | long name value => exact .inr ⟨_, takes_long allowed⟩
  | short name value =>
    obtain ⟨long, found⟩ := Option.isSome_iff_exists.mp (AList.lookup_isSome.mpr allowed)
    exact .inr ⟨_, takes_short (distinct.dashFree name allowed) found⟩
  | plain word => exact .inl ⟨word, rfl, allowed⟩

theorem parseFrom_plain {word tag : Bytes} {argPos : Nat} (plain : word.head? ≠ some minus)
    (here : parser.args[argPos]? = some tag) (rest : List Bytes) (result : Vars) :
    parser.parseFrom (word :: rest) argPos result =
      parser.parseFrom rest (argPos + 1) (insertVar result (tag, word)) := by
  have noDash : ¬ text "-" <+: word := fun dash => plain ((dash_prefix_iff word).mp dash)
  rw [parseFrom.eq_def]
  simp only [if_neg (not_dashes_of_plain plain), if_neg noDash, here]

/-! ### What the items bind -/

/-- What the loop inserts for these items, from this positional name on. -/
def assignments (parser : ArgParse) : List Item → Nat → List (Bytes × Bytes)
  | [], _ => []
  | item :: items, argPos =>
    match item.positional with
    | some word => (parser.args.getD argPos [], word) :: assignments parser items (argPos + 1)
    | none => (item.option parser).toList ++ assignments parser items argPos

theorem assignments_of_takes {item : Item} {var : Bytes × Bytes} (takes : Takes parser item var)
    (items : List Item) (argPos : Nat) :
    parser.assignments (item :: items) argPos = var :: parser.assignments items argPos := by
  simp only [assignments, takes.positional, takes.option, Option.toList_some, List.singleton_append]

theorem assignments_plain {word tag : Bytes} {argPos : Nat} (here : parser.args[argPos]? = some tag)
    (items : List Item) :
    parser.assignments (.plain word :: items) argPos =
      (tag, word) :: parser.assignments items (argPos + 1) := by
  show (parser.args.getD argPos [], word) :: _ = _
  rw [List.getD_eq_getElem?_getD, here, Option.getD_some]

theorem options_of_takes {item : Item} {var : Bytes × Bytes} (takes : Takes parser item var)
    (items : List Item) : parser.options (item :: items) = var :: parser.options items :=
  List.filterMap_cons_some takes.option

theorem words_of_takes {item : Item} {var : Bytes × Bytes} (takes : Takes parser item var)
    (items : List Item) : words (item :: items) = words items :=
  List.filterMap_cons_none takes.positional

theorem words_plain (word : Bytes) (items : List Item) :
    words (.plain word :: items) = word :: words items := rfl

theorem options_plain (word : Bytes) (items : List Item) :
    parser.options (.plain word :: items) = parser.options items := rfl

/-- Items that the loop takes, from this positional name on. -/
inductive Fits (parser : ArgParse) : List Item → Nat → Prop where
  | nil (argPos : Nat) : Fits parser [] argPos
  | plain {word tag : Bytes} {items : List Item} {argPos : Nat} (plain : word.head? ≠ some minus)
      (here : parser.args[argPos]? = some tag) (later : Fits parser items (argPos + 1)) :
      Fits parser (.plain word :: items) argPos
  | option {item : Item} {var : Bytes × Bytes} {items : List Item} {argPos : Nat}
      (takes : Takes parser item var) (later : Fits parser items argPos) :
      Fits parser (item :: items) argPos

/-- Allowed items fit while there are names for the words. -/
theorem fits_of_allowed (distinct : parser.Distinct) {items : List Item} {argPos : Nat}
    (allowed : ∀ item ∈ items, item.Allowed parser)
    (count : (words items).length ≤ parser.args.length - argPos) : Fits parser items argPos := by
  induction items generalizing argPos with
  | nil => exact .nil argPos
  | cons item items ih =>
    obtain ⟨here, later⟩ := List.forall_mem_cons.mp allowed
    rcases here.cases distinct with ⟨word, rfl, plain⟩ | ⟨var, takes⟩
    · rw [words_plain, List.length_cons] at count
      have inside : argPos < parser.args.length := by omega
      exact .plain plain (List.getElem?_eq_getElem inside) (ih later (by omega))
    · rw [words_of_takes takes] at count
      exact .option takes (ih later count)

/-- **The loop accepts items**, and inserts what they assign. -/
theorem parseFrom_written {items : List Item} {argPos : Nat} (fits : Fits parser items argPos)
    (result : Vars) :
    parser.parseFrom (items.flatMap Item.written) argPos result =
      .ok ((parser.assignments items argPos).foldl insertVar result) := by
  induction fits generalizing result with
  | nil argPos => rfl
  | plain plain here later ih =>
    rw [assignments_plain here, List.foldl_cons, ← ih]
    exact parseFrom_plain plain here _ _
  | option takes later ih =>
    rw [List.flatMap_cons, takes.parses, ih, assignments_of_takes takes, List.foldl_cons]

/-! ### What the loop accepts -/

/-- The name behind the dashes. -/
theorem eq_of_dashes {arg : Bytes} (dashes : text "--" <+: arg) :
    arg = minus :: minus :: arg.drop 2 := by
  obtain ⟨name, rfl⟩ := dashes
  rfl

theorem eq_of_dash {arg : Bytes} (dash : text "-" <+: arg) : arg = minus :: arg.drop 1 := by
  obtain ⟨name, rfl⟩ := dash
  rfl

/-- The exception is about this argument. -/
def Blames (error arg : Bytes) : Prop :=
  error = tooManyArguments ∨ error = unknownParameter arg ∨ error = missingValue arg

/-- The loop goes on behind an item, and the item leaves enough positional names. -/
structure Consumes (parser : ArgParse) (args : List Bytes) (argPos : Nat) (result : Vars)
    (item : Item) (later : List Bytes) (next : Nat) (var : Bytes × Bytes) : Prop where
  shape : args = item.written ++ later
  allowed : item.Allowed parser
  room : (words [item]).length + (parser.args.length - next) ≤ parser.args.length - argPos
  parses : parser.parseFrom args argPos result = parser.parseFrom later next (insertVar result var)

theorem Takes.consumes {arg value : Bytes} {item : Item} {var : Bytes × Bytes}
    (takes : Takes parser item var) (allowed : item.Allowed parser) (shape : item.written = [arg, value])
    (rest : List Bytes) (argPos : Nat) (result : Vars) :
    Consumes parser (arg :: value :: rest) argPos result item rest argPos var := by
  have whole : arg :: value :: rest = item.written ++ rest := by
    rw [shape]
    rfl
  refine ⟨whole, allowed, ?_, ?_⟩
  · rw [words_of_takes takes]
    exact (Nat.zero_add _).le
  · rw [whole, takes.parses]

/-- **One round of the loop**: it fails because of its argument, or it consumes an item. -/
theorem parseFrom_cons (arg : Bytes) (rest : List Bytes) (argPos : Nat) (result : Vars) :
    (∃ error, parser.parseFrom (arg :: rest) argPos result = .error error ∧ Blames error arg) ∨
      ∃ item later next var, Consumes parser (arg :: rest) argPos result item later next var := by
  by_cases dashes : text "--" <+: arg
  · by_cases isParam : arg.drop 2 ∈ parser.params
    · cases rest with
      | nil =>
        refine .inl ⟨missingValue arg, ?_, .inr (.inr rfl)⟩
        simp only [parseFrom, if_pos dashes, if_pos isParam]
      | cons value rest =>
        have written : (Item.long (arg.drop 2) value).written = [arg, value] := by
          rw [Item.written, ← eq_of_dashes dashes]
        exact .inr ⟨_, _, _, _, (takes_long isParam).consumes isParam written rest argPos result⟩
    · refine .inl ⟨unknownParameter arg, ?_, .inr (.inl rfl)⟩
      rw [parseFrom.eq_def]
      simp only [if_pos dashes, if_neg isParam]
  by_cases dash : text "-" <+: arg
  · cases found : parser.shortParams.lookup (arg.drop 1) with
    | none =>
      refine .inl ⟨unknownParameter arg, ?_, .inr (.inl rfl)⟩
      rw [parseFrom.eq_def]
      simp only [if_neg dashes, if_pos dash, found]
    | some long =>
      cases rest with
      | nil =>
        refine .inl ⟨missingValue arg, ?_, .inr (.inr rfl)⟩
        simp only [parseFrom, if_neg dashes, if_pos dash, found]
      | cons value rest =>
        have shape := eq_of_dash dash
        have written : (Item.short (arg.drop 1) value).written = [arg, value] := by
          rw [Item.written, ← shape]
        have dashFree : (arg.drop 1).head? ≠ some minus := by
          intro second
          have front := (dash_prefix_iff _).mpr second
          rw [shape] at dashes
          exact dashes (List.cons_prefix_cons.mpr ⟨rfl, front⟩)
        have isShort : arg.drop 1 ∈ parser.shortParams :=
          AList.lookup_isSome.mp (Option.isSome_of_eq_some found)
        exact .inr ⟨_, _, _, _,
          (takes_short dashFree found).consumes isShort written rest argPos result⟩
  · have plain : arg.head? ≠ some minus := fun first => dash ((dash_prefix_iff arg).mpr first)
    cases here : parser.args[argPos]? with
    | none =>
      refine .inl ⟨tooManyArguments, ?_, .inl rfl⟩
      rw [parseFrom.eq_def]
      simp only [if_neg dashes, if_neg dash, here]
    | some tag =>
      have inside : argPos < parser.args.length := (List.getElem?_eq_some_iff.mp here).1
      refine .inr ⟨.plain arg, rest, argPos + 1, (tag, arg), rfl, plain, ?_,
        parseFrom_plain plain here rest result⟩
      rw [words_plain, List.length_cons]
      show 0 + 1 + _ ≤ _
      omega

/-- Behind an item fewer arguments are left. -/
theorem Consumes.length_lt {args later : List Bytes} {argPos next : Nat} {result : Vars} {item : Item}
    {var : Bytes × Bytes} (consumes : Consumes parser args argPos result item later next var) :
    later.length < args.length := by
  rw [consumes.shape, List.length_append]
  cases item <;> simp [Item.written]

theorem words_cons (item : Item) (items : List Item) :
    words (item :: items) = words [item] ++ words items :=
  List.filterMap_append (l := [item])

/-- **The loop accepts nothing else.** -/
theorem items_of_parseFrom {args : List Bytes} {argPos : Nat} {result final : Vars}
    (parsed : parser.parseFrom args argPos result = .ok final) :
    ∃ items, args = items.flatMap Item.written ∧ (∀ item ∈ items, item.Allowed parser) ∧
      (words items).length ≤ parser.args.length - argPos := by
  induction size : args.length using Nat.strong_induction_on generalizing args argPos result with
  | _ size ih =>
    cases args with
    | nil => exact ⟨[], rfl, fun item inside => absurd inside List.not_mem_nil, Nat.zero_le _⟩
    | cons arg rest =>
      rcases parser.parseFrom_cons arg rest argPos result with
        ⟨error, failed, _⟩ | ⟨item, later, next, var, consumes⟩
      · rw [failed] at parsed
        cases parsed
      · rw [consumes.parses] at parsed
        obtain ⟨items, isLater, allowed, count⟩ := ih _ (size ▸ consumes.length_lt) parsed rfl
        refine ⟨item :: items, ?_, List.forall_mem_cons.mpr ⟨consumes.allowed, allowed⟩, ?_⟩
        · rw [List.flatMap_cons, ← isLater]
          exact consumes.shape
        · have room := consumes.room
          rw [words_cons, List.length_append]
          omega

/-- **Every exception names the argument it is about**, or there are too many. -/
theorem parseFrom_error {args : List Bytes} {argPos : Nat} {result : Vars} {error : Bytes}
    (failed : parser.parseFrom args argPos result = .error error) : ∃ arg ∈ args, Blames error arg := by
  induction size : args.length using Nat.strong_induction_on generalizing args argPos result with
  | _ size ih =>
    cases args with
    | nil => cases failed
    | cons arg rest =>
      rcases parser.parseFrom_cons arg rest argPos result with
        ⟨other, failedHere, blames⟩ | ⟨item, later, next, var, consumes⟩
      · obtain rfl : other = error := Except.error.inj (failedHere.symm.trans failed)
        exact ⟨arg, List.mem_cons_self, blames⟩
      · rw [consumes.parses] at failed
        obtain ⟨blamed, inside, blames⟩ := ih _ (size ▸ consumes.length_lt) failed rfl
        exact ⟨blamed, consumes.shape ▸ List.mem_append_right _ inside, blames⟩

/-! ### The result -/

/-- A map after several insertions: the first value for a name stays. -/
theorem lookup_foldl_insertVar (assigned : List (Bytes × Bytes)) (vars : Vars) (name : Bytes) :
    (assigned.foldl insertVar vars).lookup name = (vars.lookup name).or (assigned.lookup name) := by
  induction assigned generalizing vars with
  | nil => rw [List.foldl_nil, List.lookup_nil, Option.or_none]
  | cons var assigned ih =>
    rw [List.foldl_cons, ih, lookup_insertVar, Option.or_assoc, List.lookup_cons]
    by_cases same : name = var.1
    · rw [if_pos same, Option.some_or, beq_iff_eq.mpr same]
    · rw [if_neg same, Option.none_or, beq_eq_false_iff_ne.mpr same]

/-- The value assigned to the name of an option. -/
theorem lookup_param {items : List Item} {argPos : Nat} (fits : Fits parser items argPos) {name : Bytes}
    (notArg : name ∉ parser.args) :
    (parser.assignments items argPos).lookup name = (parser.options items).lookup name := by
  induction fits with
  | nil argPos => rfl
  | @plain word tag items argPos plain here later ih =>
    have other : (name == tag) = false :=
      beq_eq_false_iff_ne.mpr fun same => notArg (same ▸ List.mem_of_getElem? here)
    rw [assignments_plain here, options_plain, List.lookup_cons, other]
    exact ih
  | option takes later ih =>
    rw [assignments_of_takes takes, options_of_takes takes, List.lookup_cons, List.lookup_cons, ih]

/-- The value assigned to a positional name. -/
theorem lookup_positional {items : List Item} {argPos index : Nat} (distinct : parser.Distinct)
    (fits : Fits parser items argPos) {name : Bytes}
    (found : parser.args[argPos + index]? = some name) :
    (parser.assignments items argPos).lookup name = (words items)[index]? := by
  obtain ⟨_, argsDistinct, apart⟩ := List.nodup_append.mp distinct.names
  have isArg : name ∈ parser.args := List.mem_of_getElem? found
  induction fits generalizing index with
  | nil argPos => rfl
  | @plain word tag items argPos plain here later ih =>
    rw [assignments_plain here, List.lookup_cons, words_plain]
    cases index with
    | zero =>
      have same : name = tag := Option.some.inj (found.symm.trans here)
      rw [beq_iff_eq.mpr same]
      rfl
    | succ index =>
      have other : (name == tag) = false := by
        refine beq_eq_false_iff_ne.mpr fun same => ?_
        rw [same, ← here] at found
        have inside := (List.getElem?_eq_some_iff.mp here).1
        have sameIndex := (List.getElem?_inj inside argsDistinct).mp found.symm
        omega
      rw [other, List.getElem?_cons_succ]
      exact ih (by rwa [Nat.add_assoc, Nat.add_comm 1])
  | @option item var items argPos takes later ih =>
    have other : (name == var.1) = false := by
      refine beq_eq_false_iff_ne.mpr fun same => ?_
      exact apart var.1 (List.mem_append_left _ takes.declared) name isArg same.symm
    rw [assignments_of_takes takes, List.lookup_cons, other, words_of_takes takes]
    exact ih found

/-- Only long names are options. -/
theorem option_declared {items : List Item} {argPos : Nat} (fits : Fits parser items argPos)
    {name : Bytes} (notParam : name ∉ parser.params) : (parser.options items).lookup name = none := by
  induction fits with
  | nil argPos => rfl
  | plain plain here later ih => exact ih
  | @option item var items argPos takes later ih =>
    have other : (name == var.1) = false :=
      beq_eq_false_iff_ne.mpr fun same => notParam (same ▸ takes.declared)
    rw [options_of_takes takes, List.lookup_cons, other]
    exact ih

/-- **The result of an accepted command line.** -/
theorem parseArgs_of_accepts (distinct : parser.Distinct) {items : List Item}
    (accepts : parser.Accepts items) :
    ∃ result, parser.parseArgs (items.flatMap Item.written) = .ok result ∧
      parser.Binds items result := by
  have fits : Fits parser items 0 := fits_of_allowed distinct accepts.allowed accepts.count
  have apart := (List.nodup_append.mp distinct.names).2.2
  have bound : ∀ name, ((parser.assignments items 0).foldl insertVar ∅).lookup name =
      (parser.assignments items 0).lookup name := by
    intro name
    rw [lookup_foldl_insertVar, AList.lookup_empty, Option.none_or]
  refine ⟨_, parseFrom_written fits ∅, ?_, ?_, ?_⟩
  · intro name isParam
    have notArg : name ∉ parser.args := fun isArg =>
      apart name (List.mem_append_left _ isParam) name isArg rfl
    rw [bound, lookup_param fits notArg]
  · intro index name found
    rw [bound]
    exact lookup_positional distinct fits (by rwa [Nat.zero_add])
  · intro name notParam notArg
    rw [bound, lookup_param fits notArg, option_declared fits notParam]

/-- Two results that bind the same options and words are the same map. -/
theorem Binds.lookup_eq {items others : List Item} {result other : Vars}
    (binds : parser.Binds items result) (otherBinds : parser.Binds others other)
    (sameOptions : parser.options items = parser.options others) (sameWords : words items = words others)
    (name : Bytes) : result.lookup name = other.lookup name := by
  by_cases isParam : name ∈ parser.params
  · rw [binds.option name isParam, otherBinds.option name isParam, sameOptions]
  · by_cases isArg : name ∈ parser.args
    · obtain ⟨index, found⟩ := List.mem_iff_getElem?.mp isArg
      rw [binds.positional index name found, otherBinds.positional index name found, sameWords]
    · rw [binds.other name isParam isArg, otherBinds.other name isParam isArg]

/-- The item is an option with its value. -/
def Item.isOption : Item → Bool
  | .long _ _ | .short _ _ => true
  | .plain _ => false

/-- The same options and the same words, each in their order. -/
def Shuffled (items others : List Item) : Prop :=
  items.filter Item.isOption = others.filter Item.isOption ∧
    (items.filter fun item => !item.isOption) = others.filter fun item => !item.isOption

theorem Item.option_eq_none {item : Item} (plain : item.isOption = false) :
    item.option parser = none := by
  cases item with
  | plain word => rfl
  | long name value => cases plain
  | short name value => cases plain

theorem Item.positional_eq_none {item : Item} (isOption : item.isOption = true) :
    item.positional = none := by
  cases item with
  | plain word => cases isOption
  | long name value => rfl
  | short name value => rfl

/-- Items that a filter drops give nothing. -/
theorem filterMap_of_filter {α β : Type} {keep : α → Bool} {value : α → Option β}
    (dropped : ∀ item, keep item = false → value item = none) (items : List α) :
    (items.filter keep).filterMap value = items.filterMap value := by
  rw [List.filterMap_filter]
  refine List.filterMap_congr fun item _ => ?_
  cases kept : keep item with
  | true => rw [if_pos rfl]
  | false => rw [if_neg Bool.false_ne_true, dropped item kept]

theorem Shuffled.options_eq {items others : List Item} (shuffled : Shuffled items others) :
    parser.options items = parser.options others := by
  have dropped : ∀ item : Item, item.isOption = false → item.option parser = none :=
    fun _ => Item.option_eq_none
  rw [options, ← filterMap_of_filter dropped, shuffled.1, filterMap_of_filter dropped]
  rfl

theorem Shuffled.words_eq {items others : List Item} (shuffled : Shuffled items others) :
    words items = words others := by
  have dropped : ∀ item : Item, (!item.isOption) = false → item.positional = none :=
    fun item isOption => Item.positional_eq_none (by simpa using isOption)
  rw [words, ← filterMap_of_filter dropped, shuffled.2, filterMap_of_filter dropped]
  rfl

/-- Moving options among the words keeps a command line accepted. -/
theorem Accepts.of_shuffled {items others : List Item} (accepts : parser.Accepts items)
    (shuffled : Shuffled items others) : parser.Accepts others := by
  refine ⟨fun item inside => accepts.allowed item ?_, shuffled.words_eq ▸ accepts.count⟩
  cases isOption : item.isOption with
  | true =>
    have kept : item ∈ others.filter Item.isOption := List.mem_filter.mpr ⟨inside, isOption⟩
    exact (List.mem_filter.mp (shuffled.1 ▸ kept)).1
  | false =>
    have kept : item ∈ others.filter fun item => !item.isOption :=
      List.mem_filter.mpr ⟨inside, by rw [isOption]; rfl⟩
    exact (List.mem_filter.mp (shuffled.2 ▸ kept)).1

/-- **The command line.** It is parsed exactly when it is a sequence of items that the parser accepts;
the result binds what they say; and it stays the same when options move among the words. -/
theorem parseArgs_spec (distinct : parser.Distinct) :
    (∀ args, (∃ result, parser.parseArgs args = .ok result) ↔
        ∃ items, args = items.flatMap Item.written ∧ parser.Accepts items) ∧
      (∀ items result, parser.Accepts items →
        parser.parseArgs (items.flatMap Item.written) = .ok result → parser.Binds items result) ∧
      ∀ items others, parser.Accepts items → Shuffled items others →
        ∃ result other, parser.parseArgs (items.flatMap Item.written) = .ok result ∧
          parser.parseArgs (others.flatMap Item.written) = .ok other ∧
          ∀ name, result.lookup name = other.lookup name := by
  refine ⟨fun args => ⟨?_, ?_⟩, ?_, ?_⟩
  · rintro ⟨result, parsed⟩
    obtain ⟨items, isArgs, allowed, count⟩ := items_of_parseFrom parsed
    exact ⟨items, isArgs, allowed, count⟩
  · rintro ⟨items, rfl, accepts⟩
    obtain ⟨result, parsed, _⟩ := parseArgs_of_accepts distinct accepts
    exact ⟨result, parsed⟩
  · intro items result accepts parsed
    obtain ⟨other, isOther, binds⟩ := parseArgs_of_accepts distinct accepts
    obtain rfl : result = other := Except.ok.inj (parsed.symm.trans isOther)
    exact binds
  · intro items others accepts shuffled
    obtain ⟨result, parsed, binds⟩ := parseArgs_of_accepts distinct accepts
    obtain ⟨other, otherParsed, otherBinds⟩ :=
      parseArgs_of_accepts distinct (accepts.of_shuffled shuffled)
    exact ⟨result, other, parsed, otherParsed,
      binds.lookup_eq otherBinds shuffled.options_eq shuffled.words_eq⟩

/-! ### The parser of the server -/

/-- The names that `main` declares. -/
def mainParser : ArgParse :=
  (((empty.addShortParam (text "log") (text "l")).addParam (text "colors")).addShortParam
    (text "verbose") (text "v")).addShortParam (text "config") (text "c")

theorem mainParser_distinct : mainParser.Distinct := by
  have keys : mainParser.shortParams.keys = [text "c", text "v", text "l"] := by decide
  refine ⟨by decide, fun short inside => ?_⟩
  rw [AList.mem_keys, keys] at inside
  simp only [List.mem_cons, List.not_mem_nil, or_false] at inside
  rcases inside with rfl | rfl | rfl
  · decide
  · decide
  · decide

/-- The parser of the server, with a name for one word. -/
def fileParser : ArgParse := mainParser.addArg (text "file")

theorem fileParser_distinct : fileParser.Distinct :=
  ⟨by decide, mainParser_distinct.dashFree⟩

/-- Options around a word, one of them with a value that looks like an option. -/
def aroundFile : List Item :=
  [.short (text "l") (text "-v"), .plain (text "a.gmi"), .long (text "config") (text "conf")]

/-- The same options, all behind the word. -/
def behindFile : List Item :=
  [.plain (text "a.gmi"), .short (text "l") (text "-v"), .long (text "config") (text "conf")]

theorem aroundFile_accepts : fileParser.Accepts aroundFile := by
  refine ⟨?_, by decide⟩
  intro item inside
  simp only [aroundFile, List.mem_cons, List.not_mem_nil, or_false] at inside
  rcases inside with rfl | rfl | rfl
  · exact AList.lookup_isSome.mp (by decide)
  · show (text "a.gmi").head? ≠ some minus
    decide
  · exact List.mem_of_elem_eq_true (by decide)

theorem parseArgs_spec_fileParser :
    (∃ result, fileParser.parseArgs
        [text "-l", text "-v", text "a.gmi", text "--config", text "conf"] = .ok result) ∧
      (∀ result, fileParser.parseArgs
          [text "-l", text "-v", text "a.gmi", text "--config", text "conf"] = .ok result →
        result.lookup (text "log") = some (text "-v") ∧
          result.lookup (text "verbose") = none ∧ result.lookup (text "file") = some (text "a.gmi")) ∧
      ∃ result other, fileParser.parseArgs
          [text "-l", text "-v", text "a.gmi", text "--config", text "conf"] = .ok result ∧
        fileParser.parseArgs
          [text "a.gmi", text "-l", text "-v", text "--config", text "conf"] = .ok other ∧
        ∀ name, result.lookup name = other.lookup name := by
  obtain ⟨accepted, bound, shuffled⟩ := parseArgs_spec fileParser_distinct
  refine ⟨(accepted _).mpr ⟨aroundFile, rfl, aroundFile_accepts⟩, ?_, ?_⟩
  · intro result parsed
    have binds : fileParser.Binds aroundFile result := bound aroundFile result aroundFile_accepts parsed
    refine ⟨?_, ?_, ?_⟩
    · rw [binds.option (text "log") (by decide)]
      decide
    · rw [binds.option (text "verbose") (by decide)]
      decide
    · exact binds.positional 0 (text "file") rfl
  · exact shuffled aroundFile behindFile aroundFile_accepts ⟨by decide, by decide⟩

end ArgParse

end GemCaps
