/-
**Loading a list of items into a table.**

An item is read to a datum that is put into the state, or it is refused and skipped, or reading it
fails and ends the loop. `load_eq_ok_iff`: the loop comes to its end exactly when every read is
contained, and then the state has all the data, in their order, and nothing else.
`contained_bind_iff` and `contained_mapM_iff` say when a composed read is contained. `loadUntil` is the
loop that stops at the first item that is not read and keeps what it has (`loadUntil_state`,
`loadUntil_eq_error_iff`). A datum is put
under its key in one of two ways: `insertNew` keeps the value that is there, `push` appends.
-/

import GemCaps.Library.Trace
import Mathlib.Data.List.Nodup
import Mathlib.Logic.Function.Basic

namespace Loading

section Loop

variable {Error α β : Type} {refused : Error → Bool}

/-- The result is a value or a refusal. -/
def Contained (refused : Error → Bool) (result : Except Error α) : Prop :=
  ∀ error, result = .error error → refused error = true

theorem contained_ok (value : α) : Contained refused (.ok value) := fun _ => nofun

theorem contained_error_iff (error : Error) :
    Contained refused (.error error : Except Error α) ↔ refused error = true :=
  ⟨fun contained => contained error rfl, fun isRefused _ same => Except.error.inj same ▸ isRefused⟩

theorem bind_eq_ok_iff {result : Except Error α} {next : α → Except Error β} {last : β} :
    result >>= next = .ok last ↔ ∃ value, result = .ok value ∧ next value = .ok last := by
  cases result with
  | error error => exact iff_of_false nofun fun ⟨_, same, _⟩ => nomatch same
  | ok value =>
    refine ⟨fun same => ⟨value, rfl, same⟩, ?_⟩
    rintro ⟨other, same, isLast⟩
    exact Except.ok.inj same ▸ isLast

/-- **One read after another.** -/
theorem contained_bind_iff (result : Except Error α) (next : α → Except Error β) :
    Contained refused (result >>= next) ↔
      Contained refused result ∧ ∀ value, result = .ok value → Contained refused (next value) := by
  cases result with
  | error error =>
    show Contained refused (.error error) ↔ _
    rw [contained_error_iff, contained_error_iff]
    exact (and_iff_left fun _ => nofun).symm
  | ok value =>
    refine ⟨fun contained => ⟨contained_ok value, ?_⟩, fun both => both.2 value rfl⟩
    rintro other same
    exact Except.ok.inj same ▸ contained

theorem Contained.bind {result : Except Error α} {next : α → Except Error β}
    (first : Contained refused result)
    (second : ∀ value, result = .ok value → Contained refused (next value)) :
    Contained refused (result >>= next) := (contained_bind_iff result next).mpr ⟨first, second⟩

/-- **A list of reads**: each is contained when all before it have succeeded. -/
theorem contained_mapM_iff (read : α → Except Error β) (items : List α) :
    Contained refused (items.mapM read) ↔
      Trace.Preceded (fun before item => (∀ earlier ∈ before, ∃ value, read earlier = .ok value) →
        Contained refused (read item)) items := by
  induction items with
  | nil => exact iff_of_true (contained_ok []) Trace.preceded_nil
  | cons item items ih =>
    have first : Trace.Preceded (fun before item =>
        (∀ earlier ∈ before, ∃ value, read earlier = .ok value) → Contained refused (read item))
        [item] ↔ Contained refused (read item) := by
      rw [← List.nil_append [item], Trace.preceded_concat_iff]
      simp [Trace.preceded_nil]
    rw [List.mapM_cons, contained_bind_iff, ← List.singleton_append, Trace.preceded_append_iff,
      first]
    refine and_congr_right fun _ => ?_
    cases isRead : read item with
    | error error =>
      refine iff_of_true (fun _ => nofun) fun before other after _ earlier => ?_
      obtain ⟨value, succeeded⟩ := earlier item (by simp)
      exact absurd (isRead.symm.trans succeeded) nofun
    | ok value =>
      have rest : (∀ other, (Except.ok value : Except Error β) = .ok other →
          Contained refused (items.mapM read >>= fun values => pure (other :: values))) ↔
          Contained refused (items.mapM read) := by
        refine ⟨fun all => ((contained_bind_iff _ _).mp (all value rfl)).1, fun contained _ _ => ?_⟩
        exact contained.bind fun _ _ => contained_ok _
      rw [rest, ih]
      simp [Trace.Preceded, isRead]

variable {State Item Datum : Type} (read : Item → Except Error Datum) (put : State → Datum → State)

/-- The loop. -/
def load (refused : Error → Bool) : State → List Item → Except Error State
  | state, [] => .ok state
  | state, item :: items =>
    match read item with
    | .ok datum => load refused (put state datum) items
    | .error error => if refused error then load refused state items else .error error

/-- The data that are read from the items. -/
def data (items : List Item) : List Datum := items.filterMap fun item => (read item).toOption

/-- **What a loop leaves, and when it comes to its end.** -/
theorem load_eq_ok_iff {items : List Item} {state final : State} :
    load read put refused state items = .ok final ↔
      (∀ item ∈ items, Contained refused (read item)) ∧
        final = (data read items).foldl put state := by
  induction items generalizing state with
  | nil => exact ⟨fun same => ⟨fun _ => nofun, (Except.ok.inj same).symm⟩, fun both => both.2 ▸ rfl⟩
  | cons item items ih =>
    rw [List.forall_mem_cons]
    cases isRead : read item with
    | ok datum =>
      have more : data read (item :: items) = datum :: data read items :=
        List.filterMap_cons_some (congrArg Except.toOption isRead)
      rw [load, isRead, more, List.foldl_cons]
      exact ih.trans (and_congr_left fun _ => (and_iff_right (contained_ok datum)).symm)
    | error error =>
      have same : data read (item :: items) = data read items :=
        List.filterMap_cons_none (congrArg Except.toOption isRead)
      rw [load, isRead, same, contained_error_iff]
      cases isRefused : refused error with
      | true => simpa [isRefused] using @ih state
      | false => simp [isRefused]

/-- The items that are read to a datum give the same data. -/
theorem data_filter (items : List Item) :
    data read (items.filter fun item => (read item).toOption.isSome) = data read items := by
  unfold data
  rw [List.filterMap_filter]
  refine List.filterMap_congr fun item _ => ?_
  cases (read item).toOption <;> rfl

/-- **A refused item changes nothing**: the loop leaves the same without them. -/
theorem load_filter {items : List Item} {state final : State}
    (loaded : load read put refused state items = .ok final) :
    load read put refused state (items.filter fun item => (read item).toOption.isSome) =
      .ok final := by
  obtain ⟨contained, same⟩ := (load_eq_ok_iff read put).mp loaded
  refine (load_eq_ok_iff read put).mpr ⟨fun item inside => ?_, ?_⟩
  · exact contained item (List.mem_filter.mp inside).1
  · rwa [data_filter]

/-- The data lead back to the items they are read from. -/
theorem data_map_sublist {back : Datum → Item}
    (leads : ∀ item datum, read item = .ok datum → back datum = item) (items : List Item) :
    ((data read items).map back).Sublist items := by
  induction items with
  | nil => exact List.Sublist.refl []
  | cons item items ih =>
    cases isRead : read item with
    | error error =>
      have same : data read (item :: items) = data read items :=
        List.filterMap_cons_none (congrArg Except.toOption isRead)
      exact same ▸ ih.cons item
    | ok datum =>
      have more : data read (item :: items) = datum :: data read items :=
        List.filterMap_cons_some (congrArg Except.toOption isRead)
      rw [more, List.map_cons, leads item datum isRead]
      exact ih.cons_cons item

theorem mem_data {items : List Item} {datum : Datum} :
    datum ∈ data read items ↔ ∃ item ∈ items, read item = .ok datum := by
  refine List.mem_filterMap.trans (exists_congr fun item => and_congr_right fun _ => ?_)
  cases read item <;> simp [Except.toOption]

end Loop

section Stop

variable {Error State Item Datum : Type} (read : Item → Except Error Datum)
  (put : State → Datum → State)

/-- A loop that ends at the first item that is not read; what was put before stays. -/
def loadUntil : State → List Item → State × Except Error Unit
  | state, [] => (state, .ok ())
  | state, item :: items =>
    match read item with
    | .ok datum => loadUntil (put state datum) items
    | .error error => (state, .error error)

/-- The data in front of the first item that is not read. -/
def frontData : List Item → List Datum
  | [] => []
  | item :: items =>
    match read item with
    | .ok datum => datum :: frontData items
    | .error _ => []

/-- **What such a loop leaves.** -/
theorem loadUntil_state (items : List Item) (state : State) :
    (loadUntil read put state items).1 = (frontData read items).foldl put state := by
  induction items generalizing state with
  | nil => rfl
  | cons item items ih =>
    unfold loadUntil frontData
    cases read item with
    | ok datum => exact ih (put state datum)
    | error error => rfl

/-- **When such a loop fails**, and with what. -/
theorem loadUntil_eq_error_iff {items : List Item} {state : State} {error : Error} :
    (loadUntil read put state items).2 = .error error ↔
      ∃ before item after, items = before ++ item :: after ∧
        (∀ earlier ∈ before, ∃ datum, read earlier = .ok datum) ∧ read item = .error error := by
  induction items generalizing state with
  | nil =>
    refine iff_of_false nofun ?_
    rintro ⟨before, item, after, split, _⟩
    exact absurd split.symm (by simp)
  | cons first items ih =>
    unfold loadUntil
    cases isRead : read first with
    | error other =>
      show Except.error other = Except.error error ↔ _
      constructor
      · intro same
        obtain rfl := Except.error.inj same
        exact ⟨[], first, items, rfl, fun _ => nofun, isRead⟩
      · rintro ⟨before, item, after, split, earlier, isError⟩
        cases before with
        | nil =>
          obtain ⟨rfl, _⟩ := List.cons.inj split
          exact congrArg Except.error (Except.error.inj (isRead.symm.trans isError))
        | cons _ before =>
          obtain ⟨rfl, _⟩ := List.cons.inj split
          obtain ⟨datum, isDatum⟩ := earlier first List.mem_cons_self
          exact absurd (isRead.symm.trans isDatum) nofun
    | ok datum =>
      refine ih.trans ⟨?_, ?_⟩
      · rintro ⟨before, item, after, rfl, earlier, isError⟩
        exact ⟨first :: before, item, after, rfl,
          List.forall_mem_cons.mpr ⟨⟨datum, isRead⟩, earlier⟩, isError⟩
      · rintro ⟨before, item, after, split, earlier, isError⟩
        cases before with
        | nil =>
          obtain ⟨rfl, _⟩ := List.cons.inj split
          exact absurd (isRead.symm.trans isError) nofun
        | cons _ before =>
          obtain ⟨_, isRest⟩ := List.cons.inj split
          exact ⟨before, item, after, isRest, (List.forall_mem_cons.mp earlier).2, isError⟩

/-- The first datum in front that meets a condition comes from an item before which everything is
read, and nothing that meets it. -/
theorem find?_frontData_eq_some {meets : Datum → Bool} {items : List Item} {datum : Datum} :
    (frontData read items).find? meets = some datum ↔
      meets datum = true ∧ ∃ before item after, items = before ++ item :: after ∧
        read item = .ok datum ∧
        ∀ earlier ∈ before, ∃ other, read earlier = .ok other ∧ meets other = false := by
  induction items with
  | nil =>
    refine iff_of_false nofun ?_
    rintro ⟨_, before, item, after, split, _⟩
    exact absurd split.symm (by simp)
  | cons first items ih =>
    unfold frontData
    cases isRead : read first with
    | error error =>
      refine iff_of_false nofun ?_
      rintro ⟨_, before, item, after, split, isItem, earlier⟩
      cases before with
      | nil =>
        obtain ⟨rfl, _⟩ := List.cons.inj split
        exact absurd (isRead.symm.trans isItem) nofun
      | cons other before =>
        obtain ⟨rfl, _⟩ := List.cons.inj split
        obtain ⟨_, isOther, _⟩ := earlier first List.mem_cons_self
        exact absurd (isRead.symm.trans isOther) nofun
    | ok value =>
      cases isMet : meets value with
      | true =>
        rw [List.find?_cons_of_pos isMet, Option.some.injEq]
        constructor
        · rintro rfl
          exact ⟨isMet, [], first, items, rfl, isRead, fun _ => nofun⟩
        · rintro ⟨_, before, item, after, split, isItem, earlier⟩
          cases before with
          | nil =>
            obtain ⟨rfl, _⟩ := List.cons.inj split
            exact Except.ok.inj (isRead.symm.trans isItem)
          | cons other before =>
            obtain ⟨rfl, _⟩ := List.cons.inj split
            obtain ⟨found, isFound, misses⟩ := earlier first List.mem_cons_self
            obtain rfl := Except.ok.inj (isRead.symm.trans isFound)
            exact absurd (isMet.symm.trans misses) nofun
      | false =>
        rw [List.find?_cons_of_neg (by simp [isMet]), ih]
        refine and_congr_right fun meetsDatum => ⟨?_, ?_⟩
        · rintro ⟨before, item, after, rfl, isItem, earlier⟩
          refine ⟨first :: before, item, after, rfl, isItem, ?_⟩
          exact List.forall_mem_cons.mpr ⟨⟨value, isRead, isMet⟩, earlier⟩
        · rintro ⟨before, item, after, split, isItem, earlier⟩
          cases before with
          | nil =>
            obtain ⟨rfl, _⟩ := List.cons.inj split
            obtain rfl := Except.ok.inj (isRead.symm.trans isItem)
            exact absurd (meetsDatum.symm.trans isMet) nofun
          | cons other before =>
            obtain ⟨rfl, isRest⟩ := List.cons.inj split
            exact ⟨before, item, after, isRest, isItem, (List.forall_mem_cons.mp earlier).2⟩

end Stop

section Tables

variable {Key Value : Type} [DecidableEq Key]

/-- Put a value under a key that has none. -/
def insertNew (table : Key → Option Value) (pair : Key × Value) : Key → Option Value :=
  if (table pair.1).isSome then table else Function.update table pair.1 (some pair.2)

/-- Append a value to those of a key. -/
def push (table : Key → Option (List Value)) (pair : Key × Value) : Key → Option (List Value) :=
  Function.update table pair.1 (some ((table pair.1).getD [] ++ [pair.2]))

/-- The first value of a key stays. -/
theorem foldl_insertNew (pairs : List (Key × Value)) (table : Key → Option Value) (key : Key) :
    pairs.foldl insertNew table key =
      (table key).or ((pairs.find? fun pair => pair.1 = key).map Prod.snd) := by
  induction pairs generalizing table with
  | nil => simp
  | cons pair pairs ih =>
    rw [List.foldl_cons, ih]
    unfold insertNew
    by_cases same : pair.1 = key
    · subst same
      rw [List.find?_cons_of_pos (by simp)]
      cases there : table pair.1 with
      | some value => simp [there]
      | none => simp
    · rw [List.find?_cons_of_neg (by simpa using same)]
      split
      · rfl
      · rw [Function.update_of_ne (Ne.symm same)]

/-- **What a loop registers under a key**: the datum of the first item that has it. -/
theorem foldl_insertNew_data_eq_some_iff {Error Item : Type} {read : Item → Except Error (Key × Value)}
    {items : List Item} {key : Key} {value : Value} :
    (data read items).foldl insertNew (fun _ => none) key = some value ↔
      ∃ before item after, items = before ++ item :: after ∧ read item = .ok (key, value) ∧
        ∀ earlier ∈ before, ∀ other, read earlier ≠ .ok (key, other) := by
  have wants : ∀ item, (read item).toOption.any (fun pair => pair.1 = key) = true ↔
      ∃ other, read item = .ok (key, other) := by
    intro item
    cases read item with
    | error error => simp [Except.toOption]
    | ok pair => simp [Except.toOption, Prod.ext_iff, eq_comm]
  rw [foldl_insertNew, Option.none_or, data, List.find?_filterMap, Option.map_eq_some_iff]
  constructor
  · rintro ⟨pair, found, rfl⟩
    obtain ⟨item, isItem, isPair⟩ := Option.bind_eq_some_iff.mp found
    obtain ⟨wanted, before, after, split, earlier⟩ := List.find?_eq_some_iff_append.mp isItem
    obtain ⟨other, isRead⟩ := (wants item).mp wanted
    rw [isRead] at isPair
    obtain rfl := Option.some.inj isPair
    refine ⟨before, item, after, split, isRead, fun first inside other same => ?_⟩
    have unwanted := earlier first inside
    rw [(wants first).mpr ⟨other, same⟩] at unwanted
    cases unwanted
  · rintro ⟨before, item, after, split, isRead, earlier⟩
    have isItem : items.find? (fun item => (read item).toOption.any fun pair => pair.1 = key) =
        some item := by
      refine List.find?_eq_some_iff_append.mpr ⟨(wants item).mpr ⟨value, isRead⟩, before, after, split,
        fun first inside => ?_⟩
      rw [Bool.not_eq_true', ← Bool.not_eq_true, wants]
      rintro ⟨other, same⟩
      exact earlier first inside other same
    exact ⟨(key, value), Option.bind_eq_some_iff.mpr ⟨item, isItem, congrArg Except.toOption isRead⟩,
      rfl⟩

/-- **Every pair is in the table exactly when the keys are distinct**, for distinct values. -/
theorem insertNew_all_iff {pairs : List (Key × Value)} (distinct : (pairs.map Prod.snd).Nodup) :
    (∀ pair ∈ pairs, pairs.foldl insertNew (fun _ => none) pair.1 = some pair.2) ↔
      (pairs.map Prod.fst).Nodup := by
  constructor
  · intro all
    refine List.Nodup.map_on (fun first isFirst second isSecond same => ?_) distinct.of_map
    have values : some first.2 = some second.2 :=
      (all first isFirst).symm.trans ((congrArg _ same).trans (all second isSecond))
    exact List.inj_on_of_nodup_map distinct isFirst isSecond (Option.some.inj values)
  · intro keys pair inside
    rw [foldl_insertNew, Option.none_or]
    obtain ⟨found, isFound⟩ : ∃ found, (pairs.find? fun other => other.1 = pair.1) = some found :=
      Option.isSome_iff_exists.mp (List.find?_isSome.mpr ⟨pair, inside, by simp⟩)
    have same : found = pair := List.inj_on_of_nodup_map keys (List.mem_of_find?_eq_some isFound)
      inside (by simpa using List.find?_some isFound)
    rw [isFound, same]
    rfl

/-- The values of a key, in their order. -/
theorem getD_foldl_push (pairs : List (Key × Value)) (table : Key → Option (List Value))
    (key : Key) : (pairs.foldl push table key).getD [] =
      (table key).getD [] ++ (pairs.filter fun pair => pair.1 = key).map Prod.snd := by
  induction pairs generalizing table with
  | nil => simp
  | cons pair pairs ih =>
    rw [List.foldl_cons, ih]
    unfold push
    by_cases same : pair.1 = key
    · subst same
      simp
    · rw [Function.update_of_ne (Ne.symm same), List.filter_cons_of_neg (by simpa using same)]

/-- A key has values once one is pushed. -/
theorem foldl_push_isSome_iff {pairs : List (Key × Value)} {table : Key → Option (List Value)}
    {key : Key} : (pairs.foldl push table key).isSome = true ↔
      (table key).isSome = true ∨ ∃ pair ∈ pairs, pair.1 = key := by
  induction pairs generalizing table with
  | nil => simp
  | cons pair pairs ih =>
    rw [List.foldl_cons, ih, push]
    by_cases same : pair.1 = key
    · subst same
      simp
    · rw [Function.update_of_ne (Ne.symm same)]
      simp [same]

theorem mem_foldl_push {pairs : List (Key × Value)} {table : Key → Option (List Value)}
    {pair : Key × Value} (inside : pair ∈ pairs) :
    pair.2 ∈ (pairs.foldl push table pair.1).getD [] := by
  rw [getD_foldl_push]
  refine List.mem_append_right _ (List.mem_map_of_mem ?_)
  exact List.mem_filter.mpr ⟨inside, by simp⟩

end Tables

/-- **The first datum that is wanted**, among those that are picked from a list of items. -/
theorem findIdx?_filterMap_eq_some_iff {Item Datum : Type} {pick : Item → Option Datum}
    {wanted : Datum → Bool} {items : List Item} {index : Nat} :
    (items.filterMap pick).findIdx? wanted = some index ↔
      ∃ before item after datum, items = before ++ item :: after ∧ pick item = some datum ∧
        wanted datum = true ∧
        (∀ earlier ∈ before, ∀ other, pick earlier = some other → wanted other = false) ∧
        index = (before.filterMap pick).length := by
  have unwanted : ∀ front : List Item,
      (∀ earlier ∈ front, ∀ other, pick earlier = some other → wanted other = false) →
        (front.filterMap pick).findIdx? wanted = none := by
    intro front earlier
    refine List.findIdx?_eq_none_iff.mpr fun other inside => ?_
    obtain ⟨item, isItem, picked⟩ := List.mem_filterMap.mp inside
    exact earlier item isItem other picked
  have first : ∀ before item after datum, items = before ++ item :: after → pick item = some datum →
      wanted datum = true →
      (∀ earlier ∈ before, ∀ other, pick earlier = some other → wanted other = false) →
      (items.filterMap pick).findIdx? wanted = some (before.filterMap pick).length := by
    rintro before item after datum rfl picked isWanted earlier
    rw [List.filterMap_append, List.filterMap_cons_some picked, List.findIdx?_append,
      unwanted before earlier, Option.none_or, List.findIdx?_cons, if_pos isWanted]
    simp
  constructor
  · intro found
    cases isFirst : items.find? fun item => (pick item).any wanted with
    | none =>
      have all := List.find?_eq_none.mp isFirst
      have none : ∀ item ∈ items, ∀ other, pick item = some other → wanted other = false := by
        intro item inside other picked
        simpa [picked] using all item inside
      exact absurd ((unwanted items none).symm.trans found) nofun
    | some item =>
      obtain ⟨isItem, before, after, split, earlier⟩ := List.find?_eq_some_iff_append.mp isFirst
      obtain ⟨datum, picked, isWanted⟩ := (Option.any_eq_true _ _).mp isItem
      have none : ∀ earlier ∈ before, ∀ other, pick earlier = some other → wanted other = false := by
        intro item inside other same
        simpa [same] using earlier item inside
      rw [first before item after datum split picked isWanted none, Option.some.injEq] at found
      exact ⟨before, item, after, datum, split, picked, isWanted, none, found.symm⟩
  · rintro ⟨before, item, after, datum, split, picked, isWanted, earlier, rfl⟩
    exact first before item after datum split picked isWanted earlier

end Loading
