/-
**Where the links of a directory listing lead.**

The listing prints names as they are. Until a link is a file again it passes through four readers:
the reader of gemtext ends the target at a blank, the client writes it behind the authority, the
parser looks for `:`, `?` and CR in it, and `handle` redirects what `delUps` changes.

* `leads_entry_iff`: when the link of an entry leads to the entry.
* `listing_leadsBack_iff`: when a listing has one link for each entry and all of them lead back.
-/

import GemCaps.Files.Listing
import GemCaps.Request.RoundTrip
import GemCaps.Request.Target

namespace GemCaps

open Cutting Lines GemCaps.Path Transition

/-- The letters at which the reader of the listing or the parser ends a target. -/
def isBreak (letter : Byte) : Bool :=
  isBlank letter || letter == lf || letter == question || letter == cr

/-- A request for the target that is short enough, and that the parser accepts, is one that the
handler takes and maps to the file without a redirect. -/
def Leads (handler : FileHandler) (authority : Authority) (target file : Bytes) : Prop :=
  (requestLine authority target).length ≤ 1024 →
    ∀ request, parseHost { header := requestLine authority target } = some request →
      handler.shouldHandle request.host request.path = true ∧
        FileHandler.canonical request.path = request.path ∧ handler.mapped request.path = file

/-- Besides the link back there is one link line for each entry; its target leads to the entry. -/
def LeadsBack (handler : FileHandler) (authority : Authority) (path : Bytes) (entries : List Dirent)
    (body : Bytes) : Prop :=
  ∃ back links, linkLines body = back :: links ∧
    List.Forall₂ (fun entry line => Leads handler authority (linkTarget line)
      (join (handler.mapped path) entry.name.bytes)) (listed entries) links

/-! ### When a link leads to its entry -/

/-- The request is too long, or the parser takes a `:` of the target for the one before a port and
finds no port behind it. -/
def LeftAside (authority : Authority) (target : Bytes) : Prop :=
  1024 < (requestLine authority target).length ∨ reading authority target = none

/-- The printed link of an entry is a path as `handle` serves it. A leading separator of the name is
not printed. -/
structure Survives (handler : FileHandler) (authority : Authority) (path : Bytes) (entry : Dirent) :
    Prop where
  whole : ∀ letter ∈ printed path entry, isBreak letter = false
  portClear : authority.port ≠ none ∨ colon ∉ printed path entry
  onBase : handler.OnBase path
  filled : unrooted entry.name.bytes ≠ []
  noDots : unrooted entry.name.bytes ≠ text "." ∧ unrooted entry.name.bytes ≠ text ".."
  noBackslash : backslash ∉ unrooted entry.name.bytes

/-- The entry with the name `\` stands for the directory itself, for the links and for `join`. -/
def StaysAtTop (handler : FileHandler) (authority : Authority) (path : Bytes) (entry : Dirent) :
    Prop :=
  unrooted entry.name.bytes = [] ∧ handler.AtTop path ∧
    ∃ host other, reading authority (shown (printed path entry)) = some (host, other) ∧
      handler.shouldHandle host other = true ∧ FileHandler.canonical other = other ∧
      handler.AtTop other

/-- The condition on one entry. -/
def Fits (handler : FileHandler) (authority : Authority) (path : Bytes) (entry : Dirent) : Prop :=
  LeftAside authority (shown (printed path entry)) ∨ Survives handler authority path entry ∨
    StaysAtTop handler authority path entry

section Entry

variable {handler : FileHandler} {authority : Authority} {path : Bytes} {entry : Dirent}

/-- A link leads to a file when what the parser reads is mapped there. -/
theorem leads_iff {target file : Bytes} (rooted : target.head? = some slash) :
    Leads handler authority target file ↔ LeftAside authority target ∨
      ∃ host other, reading authority target = some (host, other) ∧
        handler.shouldHandle host other = true ∧ FileHandler.canonical other = other ∧
        handler.mapped other = file := by
  have parsed := parseHost_requestLine authority rooted
  unfold Leads LeftAside
  cases isParsed : parseHost { header := requestLine authority target } with
  | none =>
    rw [isParsed, Option.map_none] at parsed
    refine iff_of_true (fun _ request accepted => ?_) (.inl (.inr parsed.symm))
    cases accepted
  | some request =>
    rw [isParsed, Option.map_some] at parsed
    rw [← parsed]
    constructor
    · intro leads
      by_cases short : (requestLine authority target).length ≤ 1024
      · exact .inr ⟨request.host, request.path, rfl, leads short request rfl⟩
      · exact .inl (.inl (Nat.not_le.mp short))
    · rintro ((long | none) | ⟨host, other, same, reaches⟩) short found isFound
      · exact absurd short (Nat.not_le.mpr long)
      · cases none
      · obtain ⟨rfl, rfl⟩ := Prod.mk.inj (Option.some.inj same)
        obtain rfl := Option.some.inj isFound
        exact reaches

theorem printed_rooted (rooted : path.head? = some slash) (trailing : path.getLast? = some slash) :
    (printed path entry).head? = some slash := by
  rw [printed_eq trailing, List.head?_append, rooted, Option.some_or]

theorem trailer_letters {letter : Byte} (inside : letter ∈ trailer entry) : letter = slash := by
  unfold trailer at inside
  split at inside
  · exact List.mem_singleton.mp inside
  · exact absurd inside List.not_mem_nil

theorem length_trailer_le (entry : Dirent) : (trailer entry).length ≤ 1 := by
  unfold trailer
  split <;> simp

/-- **A path that reaches to the end of the name** was read from a link without breaks. -/
theorem whole_of_reading {host other : Bytes} (rooted : path.head? = some slash)
    (trailing : path.getLast? = some slash)
    (isReading : reading authority (shown (printed path entry)) = some (host, other))
    (long : (path ++ unrooted entry.name.bytes).length ≤ other.length) :
    (∀ letter ∈ printed path entry, isBreak letter = false) ∧
      (authority.port ≠ none ∨ colon ∉ printed path entry) := by
  have shape : printed path entry = (path ++ unrooted entry.name.bytes) ++ trailer entry := by
    rw [printed_eq trailing, List.append_assoc]
  have isTarget : shown (printed path entry) <+:
      (path ++ unrooted entry.name.bytes) ++ trailer entry := shape ▸ shown_isPrefix _
  have targetRooted : (shown (printed path entry)).head? = some slash :=
    shown_rooted (printed_rooted rooted trailing)
  have noQuestion : question ∉ trailer entry := fun inside =>
    absurd (trailer_letters inside) (by decide)
  have noReading : ¬ (authority.port = none ∧ colon ∈ shown (printed path entry)) := by
    rintro ⟨noPort, inside⟩
    have short := length_reading_of_colon authority targetRooted noPort inside isReading
    have bound := isTarget.length_le
    have small := length_trailer_le entry
    rw [List.length_append] at bound
    omega
  obtain ⟨reaches, clear, clearCr⟩ :=
    clear_of_length_le authority isTarget noQuestion noReading isReading long
  constructor
  · intro letter inside
    rw [shape] at inside
    rcases List.mem_append.mp inside with inFront | inTrailer
    · obtain ⟨notBlank, notLf⟩ := plain_of_mem_shown (reaches.subset inFront)
      have notQuestion : letter ≠ question := fun same => clear (same ▸ inFront)
      have notCr : letter ≠ cr := fun same => clearCr (same ▸ inFront)
      simp [isBreak, notBlank, notLf, notQuestion, notCr]
    · rw [trailer_letters inTrailer]
      rfl
  · by_cases noPort : authority.port = none
    · refine .inr fun inside => ?_
      rw [shape] at inside
      rcases List.mem_append.mp inside with inFront | inTrailer
      · exact noReading ⟨noPort, reaches.subset inFront⟩
      · exact absurd (trailer_letters inTrailer) (by decide)
    · exact .inl noPort

/-- A link without breaks is read as it was printed. -/
theorem reading_of_whole (whole : ∀ letter ∈ printed path entry, isBreak letter = false)
    (portClear : authority.port ≠ none ∨ colon ∉ printed path entry) :
    reading authority (shown (printed path entry)) = some (authority.host, printed path entry) := by
  have isShown : shown (printed path entry) = printed path entry := by
    refine List.takeWhile_eq_self_iff.mpr fun letter inside => ?_
    have plain := whole letter inside
    simp only [isBreak, Bool.or_eq_false_iff] at plain
    simp [plain.1.1.1, plain.1.1.2]
  rw [isShown]
  refine reading_of_plain authority (fun inside => ?_) (fun inside => ?_) portClear
  · exact absurd (whole question inside) (by decide)
  · exact absurd (whole cr inside) (by decide)

/-- A canonical path with a separator at its end. -/
theorem eq_joinAll_slash (canonical : Canonical path) (trailing : path.getLast? = some slash) :
    path = joinAll (split path) ++ [slash] := by
  refine canonical.shape.2.resolve_left fun same => ?_
  have noTrailing := getLast?_joinAll canonical.normal_split
  rw [← same, trailing] at noTrailing
  exact absurd noTrailing (by decide)

/-- The printed link without its trailer. -/
theorem front_eq (canonical : Canonical path) (rooted : path.head? = some slash)
    (trailing : path.getLast? = some slash) (part : Bytes) :
    path ++ part = joinAll (split path ++ [part]) := by
  obtain ⟨rest, isSplit⟩ := split_of_rooted rooted
  have filled : split path ≠ [] := by simp [isSplit]
  rw [joinAll_concat filled, List.append_cons]
  exact congrArg (· ++ part) (eq_joinAll_slash canonical trailing)

theorem printed_eq_joinAll (canonical : Canonical path) (rooted : path.head? = some slash)
    (trailing : path.getLast? = some slash) (entry : Dirent) :
    printed path entry = joinAll (split path ++ [unrooted entry.name.bytes]) ++ trailer entry := by
  rw [printed_eq trailing, ← List.append_assoc, front_eq canonical rooted trailing]

/-- The parts of a link with a plain name. -/
theorem Survives.normal (survives : Survives handler authority path entry)
    (canonical : Canonical path) (named : slash ∉ entry.name.bytes) :
    Normal (split path ++ [unrooted entry.name.bytes]) := by
  refine canonical.normal_split.concat (fun letter inside => ?_) survives.noDots fun empty =>
    absurd empty survives.filled
  have notSlash : letter ≠ slash := fun same =>
    named ((unrooted_isSuffix _).subset (same ▸ inside))
  have notBackslash : letter ≠ backslash := fun same => survives.noBackslash (same ▸ inside)
  simp [isSep, notSlash, notBackslash]

/-- **A link that survives leads to its entry.** -/
theorem Survives.leads (survives : Survives handler authority path entry)
    (kept : FileHandler.canonical path = path) (rooted : path.head? = some slash)
    (trailing : path.getLast? = some slash)
    (taken : handler.shouldHandle authority.host path = true)
    (named : slash ∉ entry.name.bytes) :
    handler.shouldHandle authority.host (printed path entry) = true ∧
      FileHandler.canonical (printed path entry) = printed path entry ∧
      handler.mapped (printed path entry) = join (handler.mapped path) entry.name.bytes := by
  have canonical := canonical_of_eq kept
  have normal := survives.normal canonical named
  have isPrinted := printed_eq_joinAll canonical rooted trailing entry
  have notRoot : split path ++ [unrooted entry.name.bytes] ≠ [[]] := by
    intro root
    rcases List.append_eq_singleton_iff.mp root with ⟨_, single⟩ | ⟨_, none⟩
    · exact survives.filled (List.cons.inj single).1
    · exact absurd none (List.cons_ne_nil _ _)
  have printedKept : FileHandler.canonical (printed path entry) = printed path entry := by
    rw [isPrinted]
    unfold trailer
    split
    · exact FileHandler.canonical_joinAll_slash normal
    · rw [List.append_nil]
      exact FileHandler.canonical_joinAll normal
  have isSplit : split (printed path entry) = split path ++ [unrooted entry.name.bytes] := by
    rw [isPrinted]
    unfold trailer
    split
    · exact split_joinAll_slash normal (by simp)
    · rw [List.append_nil]
      exact split_joinAll normal notRoot
  have free : slash ∉ unrooted entry.name.bytes := fun inside =>
    named ((unrooted_isSuffix _).subset inside)
  refine ⟨?_, printedKept, ?_⟩
  · obtain ⟨host, _⟩ := (FileHandler.shouldHandle_iff _ _ _).mp taken
    refine (FileHandler.shouldHandle_iff _ _ _).mpr ⟨host, ?_⟩
    refine survives.onBase.imp_right fun below => .inl ?_
    rw [Path.Below, isSplit]
    exact List.IsPrefix.trans below (List.prefix_append _ _)
  · have printedCanonical := canonical_of_eq printedKept
    refine (FileHandler.mapped_eq_join_iff canonical printedCanonical free).mpr (.inl ?_)
    exact FileHandler.place_concat canonical rooted survives.onBase printedCanonical isSplit

/-- A canonical link has no more letters than the parts it was printed from. -/
theorem length_joinAll_printed_le (canonical : Canonical path) (rooted : path.head? = some slash)
    (trailing : path.getLast? = some slash) (printedCanonical : Canonical (printed path entry)) :
    (joinAll (split (printed path entry))).length ≤
      (joinAll (split path ++ [unrooted entry.name.bytes])).length := by
  have isPrinted := printed_eq_joinAll canonical rooted trailing entry
  unfold trailer at isPrinted
  split at isPrinted
  · have ends : (printed path entry).getLast? = some slash := by
      rw [isPrinted, List.getLast?_concat]
    have same := (eq_joinAll_slash printedCanonical ends).symm.trans isPrinted
    rw [List.append_cancel_right same]
  · rw [List.append_nil] at isPrinted
    exact printedCanonical.length_joinAll_le.trans (le_of_eq (congrArg List.length isPrinted))

/-- **A link that leads to the place of its entry survives.** -/
theorem survives_of_place {host other : Bytes} (kept : FileHandler.canonical path = path)
    (rooted : path.head? = some slash) (trailing : path.getLast? = some slash)
    (taken : handler.shouldHandle authority.host path = true)
    (isReading : reading authority (shown (printed path entry)) = some (host, other))
    (otherTaken : handler.shouldHandle host other = true)
    (otherKept : FileHandler.canonical other = other)
    (isPlace : handler.place other = handler.place path ++ [unrooted entry.name.bytes]) :
    Survives handler authority path entry := by
  have canonical := canonical_of_eq kept
  have otherCanonical := canonical_of_eq otherKept
  have isFront := front_eq canonical rooted trailing (unrooted entry.name.bytes)
  have otherRooted := reading_rooted authority (shown_rooted (printed_rooted rooted trailing))
    isReading
  have cases := FileHandler.place_entry canonical rooted taken otherCanonical otherRooted otherTaken
    isPlace
  have reaches : (path ++ unrooted entry.name.bytes).length ≤ (joinAll (split other)).length := by
    rw [isFront]
    rcases cases with ⟨_, continued⟩ | longer
    · rw [continued]
    · exact longer.le
  obtain ⟨whole, portClear⟩ := whole_of_reading rooted trailing isReading
    (reaches.trans otherCanonical.length_joinAll_le)
  -- Nothing was cut off, so that the request is the link as it was printed.
  rw [reading_of_whole whole portClear] at isReading
  obtain ⟨rfl, rfl⟩ := Prod.mk.inj (Option.some.inj isReading)
  have notLonger := length_joinAll_printed_le canonical rooted trailing otherCanonical
  obtain ⟨onBase, continued⟩ := cases.resolve_right (Nat.not_lt.mpr notLonger)
  have normal : Normal (split path ++ [unrooted entry.name.bytes]) :=
    continued ▸ otherCanonical.normal_split
  have isPart : unrooted entry.name.bytes ∈ split path ++ [unrooted entry.name.bytes] := by simp
  have isLater : unrooted entry.name.bytes ∈ (split path ++ [unrooted entry.name.bytes]).tail := by
    obtain ⟨rest, isSplit⟩ := split_of_rooted rooted
    simp [isSplit]
  exact
    { whole
      portClear
      onBase
      filled := normal.filled _ isLater
      noDots := normal.noDots _ isPart
      noBackslash := fun inside => absurd (normal.free _ isPart backslash inside) (by decide) }

/-- **When the link of an entry leads to the entry.** -/
theorem leads_entry_iff (kept : FileHandler.canonical path = path)
    (rooted : path.head? = some slash) (trailing : path.getLast? = some slash)
    (taken : handler.shouldHandle authority.host path = true) (named : slash ∉ entry.name.bytes) :
    Leads handler authority (shown (printed path entry))
        (join (handler.mapped path) entry.name.bytes) ↔ Fits handler authority path entry := by
  have canonical := canonical_of_eq kept
  have free : slash ∉ unrooted entry.name.bytes := fun inside =>
    named ((unrooted_isSuffix _).subset inside)
  rw [leads_iff (shown_rooted (printed_rooted rooted trailing)), Fits]
  refine or_congr_right ?_
  constructor
  · rintro ⟨host, other, isReading, otherTaken, otherKept, isFile⟩
    have otherCanonical := canonical_of_eq otherKept
    rcases (FileHandler.mapped_eq_join_iff canonical otherCanonical free).mp isFile with
      isPlace | ⟨otherTop, top, empty⟩
    · exact .inl
        (survives_of_place kept rooted trailing taken isReading otherTaken otherKept isPlace)
    · have atTop := (FileHandler.place_eq_nil_iff canonical taken).mp top
      have otherAtTop := (FileHandler.place_eq_nil_iff otherCanonical otherTaken).mp otherTop
      exact .inr ⟨empty, atTop, host, other, isReading, otherTaken, otherKept, otherAtTop⟩
  · rintro (survives | ⟨empty, top, host, other, isReading, otherTaken, otherKept, otherTop⟩)
    · exact ⟨_, _, reading_of_whole survives.whole survives.portClear,
        survives.leads kept rooted trailing taken named⟩
    · have otherCanonical := canonical_of_eq otherKept
      refine ⟨host, other, isReading, otherTaken, otherKept, ?_⟩
      exact (FileHandler.mapped_eq_join_iff canonical otherCanonical free).mpr
        (.inr ⟨(FileHandler.place_eq_nil_iff otherCanonical otherTaken).mpr otherTop,
          (FileHandler.place_eq_nil_iff canonical taken).mpr top, empty⟩)

end Entry

/-! ### All the links of a listing -/

section Listing

variable {handler : FileHandler} {authority : Authority} {path : Bytes} {entries : List Dirent}

/-- Every link of the listing leads to its entry. -/
theorem leadsBack_of_single (rooted : path.head? = some slash)
    (trailing : path.getLast? = some slash)
    (single : ¬ Splits path ∧ ∀ entry ∈ entries, ¬ Splits entry.name.bytes) :
    LeadsBack handler authority path entries (listing path (entryNames (folderEntries entries))
        (entryNames (childEntries entries))) ↔
      ∀ entry ∈ entries, Leads handler authority (shown (printed path entry))
        (join (handler.mapped path) entry.name.bytes) := by
  have isTarget : ∀ entry, linkTarget (before lf (entryLine path entry)) =
      shown (printed path entry) := fun entry =>
    linkTarget_entryLine (printed_rooted rooted trailing)
  rw [LeadsBack, linkLines_listing trailing single]
  constructor
  · rintro ⟨back, links, same, leads⟩ entry inside
    obtain ⟨_, rfl⟩ := List.cons.inj same
    rw [List.forall₂_map_right_iff, List.forall₂_same] at leads
    have here := leads entry (mem_listed.mpr inside)
    rwa [isTarget] at here
  · intro leads
    refine ⟨_, _, rfl, ?_⟩
    rw [List.forall₂_map_right_iff, List.forall₂_same]
    intro entry inside
    rw [isTarget]
    exact leads entry (mem_listed.mp inside)

/-- **When the links of a listing lead back.** -/
theorem leadsBack_iff (kept : FileHandler.canonical path = path) (rooted : path.head? = some slash)
    (trailing : path.getLast? = some slash)
    (taken : handler.shouldHandle authority.host path = true)
    (named : ∀ entry ∈ entries, slash ∉ entry.name.bytes) :
    LeadsBack handler authority path entries (listing path (entryNames (folderEntries entries))
        (entryNames (childEntries entries))) ↔
      ¬ Splits path ∧
        ∀ entry ∈ entries, ¬ Splits entry.name.bytes ∧ Fits handler authority path entry := by
  have entry_iff : ∀ entry ∈ entries, (Leads handler authority (shown (printed path entry))
      (join (handler.mapped path) entry.name.bytes) ↔ Fits handler authority path entry) :=
    fun entry inside => leads_entry_iff kept rooted trailing taken (named entry inside)
  constructor
  · intro leadsBack
    have single : ¬ Splits path ∧ ∀ entry ∈ entries, ¬ Splits entry.name.bytes := by
      obtain ⟨back, links, same, leads⟩ := leadsBack
      refine (length_linkLines_iff trailing).mp ?_
      rw [same, List.length_cons, leads.length_eq]
    have leads := (leadsBack_of_single rooted trailing single).mp leadsBack
    exact ⟨single.1, fun entry inside =>
      ⟨single.2 entry inside, (entry_iff entry inside).mp (leads entry inside)⟩⟩
  · rintro ⟨noPath, fits⟩
    refine (leadsBack_of_single rooted trailing ⟨noPath, fun entry inside =>
      (fits entry inside).1⟩).mpr ?_
    exact fun entry inside => (entry_iff entry inside).mpr (fits entry inside).2

end Listing

/-- **When the links of a directory listing lead back to the entries.** A request for a directory
without an accepted index is answered with a listing; it has one link line for each entry, each with
a target that leads to its entry, exactly when neither the path nor a name starts a link line of its
own and every name `Fits`. -/
theorem listing_leadsBack_iff {system : System} {handler : FileHandler} {fresh request : Request}
    {authority : Authority} {mode : Nat} {result : Int} {entries : List Dirent}
    (accepted : parseHost fresh = some request) (admitted : Serving.Admitted handler request)
    (taken : handler.shouldHandle authority.host request.path = true)
    (trailing : request.path.getLast? = some slash) (directory : Serving.isDir mode = true)
    (scanned : 0 ≤ result) (readable : handler.canReadDirs = true)
    (noIndex : ∀ entry ∈ entries, ¬ Serving.IsIndex handler (handler.mapped request.path) entry)
    (named : ∀ entry ∈ entries, slash ∉ entry.name.bytes) :
    ∃ final body, run (Serving.step system handler) (Serving.handle handler request)
        [.statDone 0 mode, .scanDone result entries] = some final ∧
      final.transcript =
        [.send (responseHeader resSuccess (text "text/gemini")), .send body, .close] ∧
      (LeadsBack handler authority request.path entries body ↔
        ¬ Splits request.path ∧ ∀ entry ∈ entries,
          ¬ Splits entry.name.bytes ∧ Fits handler authority request.path entry) := by
  have rooted : request.path.head? = some slash := by
    refine (parseHost_rooted accepted).resolve_left fun empty => ?_
    rw [empty] at trailing
    cases trailing
  obtain ⟨final, ran, answer⟩ := @run_listing system handler request admitted trailing mode
    directory result scanned entries noIndex readable
  exact ⟨final, _, ran, answer, leadsBack_iff admitted.1 rooted trailing taken named⟩

/-- `gemini://h`. -/
def plainAuthority : Authority := colonUri.authority

/-- A request for the folder. -/
def rootRequest : Request := ⟨text "gemini://h/\r\n", text "h", 1965, text "/", []⟩

/-- A file `a` and a directory `b`. -/
def plainEntries : List Dirent :=
  [⟨⟨text "a", by decide⟩, false⟩, ⟨⟨text "b", by decide⟩, true⟩]

/-- The links to a file and to a directory lead back. -/
theorem listing_leadsBack_plain : ∃ final body,
    run (Serving.step plainSystem srvHandler) (Serving.handle srvHandler rootRequest)
        [.statDone 0 0o040000, .scanDone 0 plainEntries] = some final ∧
      final.transcript =
        [.send (responseHeader resSuccess (text "text/gemini")), .send body, .close] ∧
      LeadsBack srvHandler plainAuthority rootRequest.path plainEntries body := by
  have accepted : parseHost { header := rootRequest.header } = some rootRequest := by decide
  have noIndex : ∀ entry ∈ plainEntries,
      ¬ Serving.IsIndex srvHandler (srvHandler.mapped rootRequest.path) entry := by decide
  have named : ∀ entry ∈ plainEntries, slash ∉ entry.name.bytes := by decide
  have survives : ∀ entry ∈ plainEntries,
      Survives srvHandler plainAuthority rootRequest.path entry := by
    intro entry inside
    simp only [plainEntries, List.mem_cons, List.not_mem_nil, or_false] at inside
    rcases inside with rfl | rfl
    · exact ⟨List.all_iff_forall_prop.mp (by decide), by decide, by decide, by decide, by decide,
        by decide⟩
    · exact ⟨List.all_iff_forall_prop.mp (by decide), by decide, by decide, by decide, by decide,
        by decide⟩
  have single : ∀ entry ∈ plainEntries, ¬ Splits entry.name.bytes := by decide
  have fits : ¬ Splits rootRequest.path ∧ ∀ entry ∈ plainEntries, ¬ Splits entry.name.bytes ∧
      Fits srvHandler plainAuthority rootRequest.path entry :=
    ⟨by decide, fun entry inside => ⟨single entry inside, .inr (.inl (survives entry inside))⟩⟩
  have taken : srvHandler.shouldHandle plainAuthority.host rootRequest.path = true := by decide
  obtain ⟨final, body, ran, answer, leadsBack⟩ := @listing_leadsBack_iff plainSystem srvHandler
    { header := rootRequest.header } rootRequest plainAuthority 0o040000 0 plainEntries accepted
    (by decide) taken (by decide) (by decide) (le_refl 0) (by decide) noIndex named
  exact ⟨final, body, ran, answer, leadsBack.mpr fits⟩

/-- A file `a b`. -/
def blankEntry : Dirent := ⟨⟨text "a b", by decide⟩, false⟩

/-- The link for `a b` ends at the blank: the request for its target is mapped to `a`. -/
theorem listing_blank :
    parseHost { header := rootRequest.header } = some rootRequest ∧
      (∃ final body, run (Serving.step plainSystem srvHandler)
          (Serving.handle srvHandler rootRequest)
          [.statDone 0 0o040000, .scanDone 0 [blankEntry]] = some final ∧
        final.transcript =
          [.send (responseHeader resSuccess (text "text/gemini")), .send body, .close] ∧
        (linkLines body).map linkTarget = [text "back", text "/a"] ∧
        ¬ LeadsBack srvHandler plainAuthority rootRequest.path [blankEntry] body) ∧
      join (srvHandler.mapped rootRequest.path) (text "a b") = text "/srv/a b" ∧
      srvHandler.mapped (text "/a") = text "/srv/a" := by
  have noIndex : ∀ entry ∈ [blankEntry],
      ¬ Serving.IsIndex srvHandler (srvHandler.mapped rootRequest.path) entry := by decide
  obtain ⟨final, ran, answer⟩ := @run_listing plainSystem srvHandler rootRequest (by decide)
    (by decide) 0o040000 (by decide) 0 (le_refl 0) [blankEntry] noIndex (by decide)
  refine ⟨by decide, ⟨final, _, ran, answer, by decide, ?_⟩, by decide, by decide⟩
  rintro ⟨back, links, same, leads⟩
  have isLines : linkLines (listing rootRequest.path (entryNames (folderEntries [blankEntry]))
      (entryNames (childEntries [blankEntry]))) = [text "=>  back", text "=> /a b a b"] := by decide
  rw [isLines] at same
  obtain ⟨_, rfl⟩ := List.cons.inj same
  obtain ⟨leads, _⟩ := List.forall₂_cons.mp leads
  have read : parseHost { header := requestLine plainAuthority (text "/a") } =
      some ⟨text "gemini://h/a\r\n", text "h", 1965, text "/a", []⟩ := by decide
  exact absurd (leads (by decide) _ read).2.2 (by decide)

end GemCaps
