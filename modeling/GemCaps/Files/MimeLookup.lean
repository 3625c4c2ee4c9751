/-
**The search of the table against a walk through it.**

The bisection of `getType` needs the extensions in the order of `strcmpi`, and two entries stand
elsewhere: `geojson` is not behind `gemini` there, nor `gml` behind `gmi`. Every other entry is found,
in any case of its letters (`search_of_alike`), so the search and the walk agree on all texts but
these two (`bisect_eq`, `bisect_agrees_iff`). It follows which extensions lead from a type back to
itself (`getType_iff_getExtension`), and which files a server with this table can send
(`run_crashed_iff`).
-/

import GemCaps.Files.MimeTable

namespace GemCaps

open Transition

namespace MimeTypes

variable {signed : Bool} {extension name : CString} {entry : Entry} {i : Nat}

/-- The extensions that the search does not find. -/
def misplaced : List CString := [.ofLiteral "geojson", .ofLiteral "gml"]

/-- One of them, in any case of its letters. -/
def Misplaced (extension : CString) : Prop := ∃ name ∈ misplaced, Alike extension name

instance (extension : CString) : Decidable (Misplaced extension) :=
  inferInstanceAs (Decidable (∃ name ∈ misplaced, Alike extension name))

/-- The type of the first entry with this extension, from a walk through the table. -/
def scan (signed : Bool) (extension : CString) : Option CString :=
  (types.find? fun entry =>
    decide (strcmpi signed extension.bytes entry.fileExtension.bytes = 0)).map Entry.mimeType

/-! ### What the order of the table gives -/

theorem Alike.symm {first second : CString} (alike : Alike first second) : Alike second first :=
  Eq.symm alike

theorem Alike.trans {first second third : CString} (alike : Alike first second)
    (alikeToo : Alike second third) : Alike first third :=
  Eq.trans alike alikeToo

theorem misplaced_congr (alike : Alike extension name) : Misplaced extension ↔ Misplaced name := by
  constructor
  · rintro ⟨last, listed, same⟩
    exact ⟨last, listed, alike.symm.trans same⟩
  · rintro ⟨last, listed, same⟩
    exact ⟨last, listed, alike.trans same⟩

/-- Each extension of the table is found at its place, or is one of the two; the search is run here
once for each entry. -/
theorem searched_types : (types.zipIdx.all fun (entry, i) =>
    decide (Probing.search (orderOf true entry.fileExtension) 0 types.length =
      if Misplaced entry.fileExtension then none else some i)) = true := by
  decide +kernel

/-- A sign would change no letter of the table. -/
theorem plain_types : (types.all fun entry =>
    entry.fileExtension.bytes.all fun letter => decide (letter ||| 32 < 128)) = true := by
  decide +kernel

theorem misplaced_listed : (misplaced.all fun name =>
    types.any fun entry => decide (entry.fileExtension = name)) = true := by
  decide +kernel

/-! ### The sign of a letter -/

/-- A letter that has the same value with and without a sign. -/
def Plain (letter : Byte) : Prop := letter ||| 32 < 128

theorem charValue_of_plain {letter : Byte} (plain : Plain letter) :
    charValue signed (letter ||| 32) = (letter ||| 32).toNat := by
  have small : ¬ (128 : Byte) ≤ letter ||| 32 := UInt8.not_le.mpr plain
  rw [charValue, if_neg fun both => small both.2]

theorem atStop_signed {letter other : Byte} (plain : Plain letter) (plainToo : Plain other) :
    atStop signed letter other = atStop true letter other := by
  simp only [atStop, charValue_of_plain plain, charValue_of_plain plainToo]

theorem strcmpi_signed {first second : Bytes} (plain : ∀ letter ∈ first, Plain letter)
    (plainToo : ∀ letter ∈ second, Plain letter) :
    strcmpi signed first second = strcmpi true first second := by
  have atNul : Plain nul := by
    unfold Plain
    decide
  fun_induction strcmpi signed first second with
  | case1 s2 =>
    rw [strcmpi]
    cases s2 with
    | nil => exact atStop_signed atNul atNul
    | cons other s2 => exact atStop_signed atNul (plainToo other List.mem_cons_self)
  | case2 letter s1 => exact atStop_signed (plain letter List.mem_cons_self) atNul
  | case3 letter s1 other s2 alike ih =>
    rw [strcmpi, if_pos alike]
    exact ih (fun last inside => plain last (List.mem_cons_of_mem letter inside))
      fun last inside => plainToo last (List.mem_cons_of_mem other inside)
  | case4 letter s1 other s2 differ =>
    rw [strcmpi, if_neg differ]
    exact atStop_signed (plain letter List.mem_cons_self) (plainToo other List.mem_cons_self)

theorem plain_of_listed (listed : entry ∈ types) : ∀ letter ∈ entry.fileExtension.bytes, Plain letter := by
  intro letter inside
  have all := List.all_eq_true.mp plain_types entry listed
  have small : letter ||| 32 < 128 := of_decide_eq_true (List.all_eq_true.mp all letter inside)
  exact small

/-! ### The search and the walk -/

theorem orderOf_eq (listed : types[i]? = some entry) (extension : CString) :
    orderOf signed extension i = strcmpi signed extension.bytes entry.fileExtension.bytes := by
  rw [orderOf, listed, Option.map_some, Option.getD_some]

theorem orderOf_congr (alike : Alike extension name) :
    orderOf signed extension = orderOf signed name := by
  funext i
  cases listed : types[i]? with
  | none => rw [orderOf, orderOf, listed, Option.map_none, Option.map_none]
  | some entry =>
    rw [orderOf_eq listed, orderOf_eq listed]
    exact strcmpi_congr alike extension.noNul name.noNul _ entry.fileExtension.noNul

theorem orderOf_signed (listed : entry ∈ types) :
    orderOf signed entry.fileExtension = orderOf true entry.fileExtension := by
  funext i
  cases other : types[i]? with
  | none => rw [orderOf, orderOf, other, Option.map_none, Option.map_none]
  | some entryToo =>
    rw [orderOf_eq other, orderOf_eq other]
    exact strcmpi_signed (plain_of_listed listed) (plain_of_listed (List.mem_of_getElem? other))

/-- **Every extension of the table is found at its place**, but for the two. -/
theorem search_of_alike (listed : types[i]? = some entry) (alike : Alike extension entry.fileExtension) :
    Probing.search (orderOf signed extension) 0 types.length =
      if Misplaced extension then none else some i := by
  have member : (entry, i) ∈ types.zipIdx := List.mem_zipIdx_iff_getElem?.mpr listed
  have searched := of_decide_eq_true (List.all_eq_true.mp searched_types (entry, i) member)
  rw [orderOf_congr alike, orderOf_signed (List.mem_of_getElem? listed), searched]
  simp only [misplaced_congr alike]

/-- **What is found is in the table.** -/
theorem exists_of_bisect {type : CString} (found : bisect signed extension = some type) :
    ∃ (i : Nat) (entry : Entry), types[i]? = some entry ∧ Alike extension entry.fileExtension ∧
      ¬ Misplaced extension ∧ type = entry.mimeType := by
  obtain ⟨i, searched, isType⟩ := Option.bind_eq_some_iff.mp found
  obtain ⟨entry, listed, rfl⟩ := Option.map_eq_some_iff.mp isType
  have equal := (Probing.search_sound searched).2.2
  rw [orderOf_eq listed] at equal
  have alike := (alike_iff extension entry.fileExtension).mpr equal
  refine ⟨i, entry, listed, alike, fun isMisplaced => ?_, rfl⟩
  rw [search_of_alike listed alike, if_pos isMisplaced] at searched
  cases searched

theorem bisect_of_alike (listed : types[i]? = some entry) (alike : Alike extension entry.fileExtension)
    (wellPlaced : ¬ Misplaced extension) : bisect signed extension = some entry.mimeType := by
  rw [bisect, search_of_alike listed alike, if_neg wellPlaced, Option.bind_some, listed,
    Option.map_some]

/-- What the walk finds, and where. -/
theorem scan_eq_some_iff {type : CString} :
    scan signed extension = some type ↔ ∃ (i : Nat) (entry : Entry), types[i]? = some entry ∧
      Alike extension entry.fileExtension ∧ type = entry.mimeType ∧
      ∀ j < i, ∀ earlier : Entry, types[j]? = some earlier → ¬ Alike extension earlier.fileExtension := by
  simp only [scan, Option.map_eq_some_iff, List.find?_eq_some_iff_getElem, decide_eq_true_eq,
    ← alike_iff]
  constructor
  · rintro ⟨entry, ⟨alike, i, inside, rfl, first⟩, rfl⟩
    refine ⟨i, _, List.getElem?_eq_getElem inside, alike, rfl, fun j before earlier listed => ?_⟩
    obtain ⟨insideToo, rfl⟩ := List.getElem?_eq_some_iff.mp listed
    simpa using first j before
  · rintro ⟨i, entry, listed, alike, rfl, first⟩
    obtain ⟨inside, rfl⟩ := List.getElem?_eq_some_iff.mp listed
    refine ⟨_, ⟨alike, i, inside, rfl, fun j before => ?_⟩, rfl⟩
    simpa using first j before _ (List.getElem?_eq_getElem (before.trans inside))

/-- **The search agrees with the walk** but for the two extensions, which it does not find. -/
theorem bisect_eq (signed : Bool) (extension : CString) :
    bisect signed extension = if Misplaced extension then none else scan signed extension := by
  by_cases isMisplaced : Misplaced extension
  · rw [if_pos isMisplaced]
    cases found : bisect signed extension with
    | none => rfl
    | some type =>
      obtain ⟨_, _, _, _, wellPlaced, _⟩ := exists_of_bisect found
      exact absurd isMisplaced wellPlaced
  · rw [if_neg isMisplaced]
    cases found : scan signed extension with
    | some type =>
      obtain ⟨i, entry, listed, alike, rfl, _⟩ := scan_eq_some_iff.mp found
      exact bisect_of_alike listed alike isMisplaced
    | none =>
      cases searched : bisect signed extension with
      | none => rfl
      | some type =>
        obtain ⟨i, entry, listed, alike, _⟩ := exists_of_bisect searched
        rw [scan, Option.map_eq_none_iff, List.find?_eq_none] at found
        have differ := found entry (List.mem_of_getElem? listed)
        rw [decide_eq_true_eq, ← alike_iff] at differ
        exact absurd alike differ

/-- The walk finds the two. -/
theorem scan_of_misplaced (isMisplaced : Misplaced extension) : scan signed extension ≠ none := by
  obtain ⟨name, member, alike⟩ := isMisplaced
  have inTable := List.all_eq_true.mp misplaced_listed name member
  obtain ⟨entry, listed, isName⟩ := List.any_eq_true.mp inTable
  obtain rfl := of_decide_eq_true isName
  intro missing
  rw [scan, Option.map_eq_none_iff, List.find?_eq_none] at missing
  have differ := missing entry listed
  rw [decide_eq_true_eq, ← alike_iff] at differ
  exact differ alike

/-- **Where bisection and a walk through the table agree**: on every text but `geojson` and `gml`, in
any case of their letters; of these the search finds none, and the walk finds them. -/
theorem bisect_agrees_iff (signed : Bool) (extension : CString) :
    (bisect signed extension = scan signed extension ↔ ¬ Misplaced extension) ∧
      (Misplaced extension → bisect signed extension = none ∧ scan signed extension ≠ none) := by
  rw [bisect_eq]
  by_cases isMisplaced : Misplaced extension
  · rw [if_pos isMisplaced]
    have walks : scan signed extension ≠ none := scan_of_misplaced isMisplaced
    exact ⟨iff_of_false walks.symm (not_not_intro isMisplaced), fun _ => ⟨rfl, walks⟩⟩
  · rw [if_neg isMisplaced]
    exact ⟨iff_of_true rfl isMisplaced, fun misses => absurd misses isMisplaced⟩

/-! ### From a type to its extensions -/

/-- **`getExtension` skips along the entries of the type.** -/
theorem extensionFrom_eq (signed : Bool) (type : CString) (entries : List Entry) (skip : Int) :
    extensionFrom signed type entries skip =
      ((entries.filter fun entry => decide (Alike type entry.mimeType))[skip.toNat]?).map
        Entry.fileExtension := by
  induction entries generalizing skip with
  | nil => rfl
  | cons entry rest ih =>
    by_cases alike : Alike type entry.mimeType
    · have matched : strcmpi signed type.bytes entry.mimeType.bytes = 0 :=
        (alike_iff type entry.mimeType).mp alike
      have kept : (entry :: rest).filter (fun entry => decide (Alike type entry.mimeType)) =
          entry :: rest.filter fun entry => decide (Alike type entry.mimeType) := by
        simp [alike]
      rw [extensionFrom, if_pos matched, kept]
      by_cases last : skip ≤ 0
      · rw [if_pos last, Int.toNat_of_nonpos last]
        rfl
      · have next : skip.toNat = (skip - 1).toNat + 1 := by omega
        rw [if_neg last, ih, next, List.getElem?_cons_succ]
    · have unmatched : ¬ strcmpi signed type.bytes entry.mimeType.bytes = 0 := fun same =>
        alike ((alike_iff type entry.mimeType).mpr same)
      have skipped : (entry :: rest).filter (fun entry => decide (Alike type entry.mimeType)) =
          rest.filter fun entry => decide (Alike type entry.mimeType) := by
        simp [alike]
      rw [extensionFrom, if_neg unmatched, skipped, ih]

/-- What `getExtension` gives for a type, over all `skip`. -/
theorem exists_getExtension_iff {type : CString} :
    (∃ skip, getExtension signed type skip = some extension) ↔
      ∃ entry ∈ types, Alike type entry.mimeType ∧ entry.fileExtension = extension := by
  simp only [getExtension, extensionFrom_eq, Option.map_eq_some_iff]
  constructor
  · rintro ⟨skip, entry, listed, rfl⟩
    have member := List.mem_filter.mp (List.mem_of_getElem? listed)
    exact ⟨entry, member.1, of_decide_eq_true member.2, rfl⟩
  · rintro ⟨entry, member, alike, rfl⟩
    have kept : entry ∈ types.filter fun entry => decide (Alike type entry.mimeType) :=
      List.mem_filter.mpr ⟨member, decide_eq_true alike⟩
    obtain ⟨index, listed⟩ := List.mem_iff_getElem?.mp kept
    exact ⟨(index : Int), entry, by rwa [Int.toNat_natCast], rfl⟩

/-- **Which extensions lead from a type back to it**: the type that is found for a text is this one
exactly when `getExtension` gives the text for the type, for some `skip`, and it is not one of the two
that the search misses. -/
theorem getType_iff_getExtension (signed : Bool) (name type : CString) :
    (∃ found, bisect signed name = some found ∧ Alike found type) ↔
      ¬ Misplaced name ∧
        ∃ skip extension, getExtension signed type skip = some extension ∧ Alike name extension := by
  constructor
  · rintro ⟨found, searched, alike⟩
    obtain ⟨i, entry, listed, same, wellPlaced, rfl⟩ := exists_of_bisect searched
    have given : ∃ skip, getExtension signed type skip = some entry.fileExtension :=
      exists_getExtension_iff.mpr ⟨entry, List.mem_of_getElem? listed, alike.symm, rfl⟩
    obtain ⟨skip, gives⟩ := given
    exact ⟨wellPlaced, skip, _, gives, same⟩
  · rintro ⟨wellPlaced, skip, extension, gives, same⟩
    obtain ⟨entry, member, alike, rfl⟩ := exists_getExtension_iff.mp ⟨skip, gives⟩
    obtain ⟨i, listed⟩ := List.mem_iff_getElem?.mp member
    exact ⟨_, bisect_of_alike listed same wellPlaced, alike.symm⟩

end MimeTypes

/-! ### The files that a server can send -/

namespace Serving

open MimeTypes

variable {system : System} {handler : FileHandler} {request : Request} {serving : Serving}

/-- The text behind the last dot is an extension of the table, in any case of its letters, and not one
of the two that the search misses. -/
def Recognised (file : Bytes) : Prop :=
  (∃ entry ∈ types, Alike ⟨cStr (extension file), noNul_cStr _⟩ entry.fileExtension) ∧
    ¬ Misplaced ⟨cStr (extension file), noNul_cStr _⟩

theorem listed_iff_recognised (signed : Bool) (file : Bytes) :
    Listed (table signed) file ↔ Recognised file := by
  rw [Listed, ← Option.ne_none_iff_isSome, table]
  constructor
  · intro found
    obtain ⟨type, searched⟩ := Option.ne_none_iff_exists'.mp found
    obtain ⟨i, entry, listed, alike, wellPlaced, _⟩ := exists_of_bisect searched
    exact ⟨⟨entry, List.mem_of_getElem? listed, alike⟩, wellPlaced⟩
  · rintro ⟨⟨entry, member, alike⟩, wellPlaced⟩
    obtain ⟨i, listed⟩ := List.mem_iff_getElem?.mp member
    rw [bisect_of_alike listed alike wellPlaced]
    exact Option.some_ne_none _

/-- The type of a recognised extension. -/
theorem getType_of_alike {signed : Bool} {file : Bytes} {entry : MimeTypes.Entry}
    (listed : entry ∈ types)
    (alike : Alike ⟨cStr (extension file), noNul_cStr _⟩ entry.fileExtension)
    (wellPlaced : ¬ Misplaced ⟨cStr (extension file), noNul_cStr _⟩) :
    getType (table signed) file = some entry.mimeType := by
  obtain ⟨i, isEntry⟩ := List.mem_iff_getElem?.mp listed
  rw [getType_eq, table]
  exact bisect_of_alike isEntry alike wellPlaced

/-- **Which files crash the server**: in every run, when the file of the request has been opened, the
server crashes exactly when the text behind the last dot is no extension of the table, or one of the
two that the search misses; otherwise it sends the header with the type of the entry that has this
extension. -/
theorem run_crashed_iff {signed : Bool} {events : List ServingEvent}
    (ran : Transition.run (step (system.withTypes (table signed)) handler) (handle handler request)
      events = some serving)
    {path : CString} (waits : serving.pending = some (.openFile path)) {result : Int}
    (opened : 0 ≤ result) :
    ∃ next, serving.step (system.withTypes (table signed)) handler (.openDone result) = some next ∧
      (next.crashed = true ↔ ¬ Recognised path.bytes) ∧
      (Recognised path.bytes →
        ∀ entry ∈ types, Alike ⟨cStr (extension path.bytes), noNul_cStr _⟩ entry.fileExtension →
          HeaderTyped (system.withTypes (table signed)) handler serving result
            entry.mimeType.bytes) := by
  have serves := run_serves ran waits
  have typed : Recognised path.bytes → ∀ entry ∈ types,
      Alike ⟨cStr (extension path.bytes), noNul_cStr _⟩ entry.fileExtension →
        HeaderTyped (system.withTypes (table signed)) handler serving result entry.mimeType.bytes := by
    intro recognised entry listed alike
    refine headerTyped_of_eq serves waits opened ?_
    show (getType (table signed) path.bytes).map CString.bytes = _
    rw [getType_of_alike listed alike recognised.2, Option.map_some]
  obtain ⟨_, stepped⟩ := openDone_eq (system.withTypes (table signed)) serves waits result
  refine ⟨_, stepped, ?_, typed⟩
  by_cases recognised : Recognised path.bytes
  · obtain ⟨entry, listed, alike⟩ := recognised.1
    obtain ⟨next, steppedToo, alive, _⟩ := typed recognised entry listed alike
    obtain rfl := Option.some.inj (stepped.symm.trans steppedToo)
    exact iff_of_false (by rw [alive]; exact Bool.false_ne_true) (not_not_intro recognised)
  · refine iff_of_true ?_ recognised
    have untyped : (system.withTypes (table signed)).mimeType path.bytes = none := by
      show (getType (table signed) path.bytes).map CString.bytes = none
      rw [getType_eq, Option.map_eq_none_iff, ← Option.not_isSome_iff_eq_none]
      exact fun found => recognised ((listed_iff_recognised signed path.bytes).mp found)
    obtain ⟨next, steppedToo, crashed⟩ := crashed_of_eq_none serves waits opened untyped
    exact Option.some.inj (stepped.symm.trans steppedToo) ▸ crashed

theorem run_crashed_iff_geojson : ∃ serving path,
    Transition.run (step (plainSystem.withTypes (table true)) srvHandler)
        (handle srvHandler { path := text "/a.geojson" }) [.statDone 0 0o100644] = some serving ∧
      serving.pending = some (.openFile path) ∧ (0 : Int) ≤ 3 ∧
      ∃ next, serving.step (plainSystem.withTypes (table true)) srvHandler (.openDone 3) = some next ∧
        (next.crashed = true ↔ ¬ Recognised path.bytes) ∧
        (Recognised path.bytes →
          ∀ entry ∈ types, Alike ⟨cStr (extension path.bytes), noNul_cStr _⟩ entry.fileExtension →
            HeaderTyped (plainSystem.withTypes (table true)) srvHandler serving 3
              entry.mimeType.bytes) := by
  have ran := (show Transition.run (step (plainSystem.withTypes (table true)) srvHandler)
    (handle srvHandler { path := text "/a.geojson" }) [.statDone 0 0o100644] = some _ from rfl)
  exact ⟨_, _, rfl, rfl, by decide, run_crashed_iff ran rfl (by decide)⟩

end Serving

end GemCaps
