/-
**The text of a directory listing.**

`dir_on_scan` prints a line `=> path name` for every entry. A reader of gemtext takes the lines that
start with `=>` for links, and the first word behind it for the target.

* `run_listing`: a request for a directory without an accepted index is answered with `listing`.
* `linkLines_listing`: the link lines are the back link and one line for each entry, exactly when
  neither the path nor a name holds `=>` at the start of a line.
* `linkTarget_entryLine`: the target ends at the first blank or LF.
-/

import GemCaps.Library.Lines
import GemCaps.Files.Place
import GemCaps.Files.Redirects
import GemCaps.Files.Transcript
import GemCaps.Path.Ends

namespace GemCaps

open Cutting Lines GemCaps.Path Transition

/-! ### Gemtext -/

/-- The blanks of gemtext. -/
def isBlank (letter : Byte) : Bool := letter == space || letter == tab

/-- What a link line starts with. -/
def linkMark : Bytes := text "=>"

/-- The link lines of a gemtext. -/
def linkLines (body : Bytes) : List Bytes := tagged lf linkMark body

/-- The target of a link line: the first word behind the mark. -/
def linkTarget (line : Bytes) : Bytes :=
  ((line.drop linkMark.length).dropWhile isBlank).takeWhile fun letter => !isBlank letter

/-- A text that starts a link line behind one of its LFs. -/
def Splits (string : Bytes) : Prop := lf :: linkMark <:+: string

instance (string : Bytes) : Decidable (Splits string) := inferInstanceAs (Decidable (_ <:+: _))

/-- A letter other than those of the mark keeps the lines of two texts apart. -/
theorem splits_append_cons {letter : Byte} (other : letter ∉ lf :: linkMark) (front back : Bytes) :
    Splits (front ++ letter :: back) ↔ Splits front ∨ Splits back :=
  infix_append_cons_iff other front back

theorem not_splits_nil : ¬ Splits [] := by decide

theorem Splits.mono {part whole : Bytes} (splits : Splits part) (inside : part <:+: whole) :
    Splits whole :=
  List.IsInfix.trans splits inside

/-! ### What is printed -/

/-- A directory is printed with a separator behind it. -/
def trailer (entry : Dirent) : Bytes := if entry.isDir then [slash] else []

/-- The link that is printed for an entry. -/
def printed (path : Bytes) (entry : Dirent) : Bytes := join path entry.name.bytes ++ trailer entry

/-- The line that is printed for an entry. -/
def entryLine (path : Bytes) (entry : Dirent) : Bytes :=
  linkMark ++ space :: (printed path entry ++ space :: (entry.name.bytes ++ trailer entry))

/-- The line with the link back. -/
def backLine (path : Bytes) : Bytes :=
  linkMark ++ space :: ((dirname path).getD [] ++ space :: text "back")

/-- The directories among the entries, and the others. -/
def folderEntries (entries : List Dirent) : List Dirent := entries.filter fun entry => entry.isDir

def childEntries (entries : List Dirent) : List Dirent := entries.filter fun entry => !entry.isDir

/-- The entries in the order in which they are printed. -/
def listed (entries : List Dirent) : List Dirent := folderEntries entries ++ childEntries entries

/-- The names of some entries. -/
def entryNames (entries : List Dirent) : List Bytes := entries.map fun entry => entry.name.bytes

theorem mem_listed {entries : List Dirent} {entry : Dirent} :
    entry ∈ listed entries ↔ entry ∈ entries := by
  rw [listed, folderEntries, childEntries, List.mem_append, List.mem_filter, List.mem_filter]
  cases entry.isDir <;> simp

/-- The lines of a listing. -/
def listingLines (path : Bytes) (entries : List Dirent) : List Bytes :=
  [text "# DirectoryContents", [], text "##" ++ space :: path, [], backLine path, []] ++
    (folderEntries entries).map (entryLine path) ++ [[]] ++
    (childEntries entries).map (entryLine path)

theorem frame_append (mark : Byte) (front back : List Bytes) :
    frame mark (front ++ back) = frame mark front ++ frame mark back :=
  List.flatMap_append

/-- **The body is its lines**, each with an LF. -/
theorem listing_eq_frame (path : Bytes) (entries : List Dirent) :
    listing path (entryNames (folderEntries entries)) (entryNames (childEntries entries)) =
      frame lf (listingLines path entries) := by
  have folders : ((entryNames (folderEntries entries)).flatMap fun folder =>
      text "=> " ++ join path folder ++ text "/ " ++ folder ++ text "/\n") =
        frame lf ((folderEntries entries).map (entryLine path)) := by
    rw [entryNames, frame, List.flatMap_map, List.flatMap_map]
    refine List.flatMap_congr fun entry inside => ?_
    have isDir : entry.isDir = true := (List.mem_filter.mp inside).2
    rw [entryLine, printed, trailer, if_pos isDir]
    simp [text, linkMark]
  have children : ((entryNames (childEntries entries)).flatMap fun file =>
      text "=> " ++ join path file ++ text " " ++ file ++ text "\n") =
        frame lf ((childEntries entries).map (entryLine path)) := by
    rw [entryNames, frame, List.flatMap_map, List.flatMap_map]
    refine List.flatMap_congr fun entry inside => ?_
    have notDir : ¬ entry.isDir = true := by simpa using (List.mem_filter.mp inside).2
    rw [entryLine, printed, trailer, if_neg notDir]
    simp [text, linkMark]
  rw [listing, folders, children, listingLines, frame_append, frame_append, frame_append]
  simp [frame, text, backLine, linkMark]

/-! ### The run that prints it -/

section Run

variable {system : System} {handler : FileHandler} {request : Request}

/-- Without an accepted index the loop collects all the names. -/
theorem scan_exhausted {file : Bytes} {entries : List Dirent}
    (noIndex : ∀ entry ∈ entries, ¬ Serving.IsIndex handler file entry)
    (folders children : List Bytes) :
    (Serving.scan handler file entries folders children).2 =
      .exhausted (folders ++ entryNames (folderEntries entries))
        (children ++ entryNames (childEntries entries)) := by
  induction entries generalizing folders children with
  | nil => simp [Serving.scan, entryNames, folderEntries, childEntries]
  | cons entry entries ih =>
    have rest := ih fun other inside => noIndex other (List.mem_cons_of_mem _ inside)
    have notIndex := noIndex entry List.mem_cons_self
    simp only [Serving.scan]
    have collected : ∀ folders children,
        (Serving.scan handler file entries
            (if entry.isDir then folders ++ [entry.name.bytes] else folders)
            (if entry.isDir then children else children ++ [entry.name.bytes])).2 =
          .exhausted (folders ++ entryNames (folderEntries (entry :: entries)))
            (children ++ entryNames (childEntries (entry :: entries))) := by
      intro folders children
      rw [rest]
      cases isDir : entry.isDir <;> simp [entryNames, folderEntries, childEntries, isDir]
    by_cases isIndexName : text "index." <+: entry.name.bytes
    · have invalid : ¬ handler.validateFile (join file entry.name.bytes) = true := fun valid =>
        notIndex ⟨isIndexName, valid⟩
      rw [if_pos isIndexName, if_neg invalid]
      exact collected folders children
    · rw [if_neg isIndexName]
      exact collected folders children

/-- `dir_on_scan` sends the listing. -/
theorem dirOnScan_transcript {serving : Serving} {result : Int} (scanned : 0 ≤ result)
    {entries : List Dirent}
    (noIndex : ∀ entry ∈ entries, ¬ Serving.IsIndex handler serving.file entry)
    (readable : handler.canReadDirs = true) :
    (serving.dirOnScan system handler result entries).transcript =
      serving.transcript ++ [.send (responseHeader resSuccess (text "text/gemini")),
        .send (listing serving.request.path (entryNames (folderEntries entries))
          (entryNames (childEntries entries))), .close] := by
  have ends := scan_exhausted noIndex [] []
  have hidden : (Serving.scan handler serving.file entries [] []).1.filter Action.visible = [] :=
    Serving.scan_hidden ..
  rw [Serving.dirOnScan, if_neg (Int.not_lt.mpr scanned)]
  simp only [ends, List.nil_append]
  rw [Serving.listDirectory, if_pos readable, Serving.act_transcript, Serving.act_transcript,
    hidden, List.append_nil]
  rfl

/-- **A request for a directory without an accepted index** is answered with its listing. -/
theorem run_listing (admitted : Serving.Admitted handler request)
    (trailing : request.path.getLast? = some slash) {mode : Nat}
    (directory : Serving.isDir mode = true) {result : Int} (scanned : 0 ≤ result)
    {entries : List Dirent}
    (noIndex : ∀ entry ∈ entries, ¬ Serving.IsIndex handler (handler.mapped request.path) entry)
    (readable : handler.canReadDirs = true) :
    ∃ final, run (Serving.step system handler) (Serving.handle handler request)
        [.statDone 0 mode, .scanDone result entries] = some final ∧
      final.transcript = [.send (responseHeader resSuccess (text "text/gemini")),
        .send (listing request.path (entryNames (folderEntries entries))
          (entryNames (childEntries entries))), .close] := by
  let scanning := (Serving.handle handler request).finish.readDir
  have first : Serving.step system handler (Serving.handle handler request) (.statDone 0 mode) =
      some scanning := by
    rw [step_of_admitted admitted, Option.some.injEq, Serving.handle_of_admitted admitted]
    simp [scanning, Serving.handleOnStat, directory, trailing, Serving.finish, Serving.act,
      Serving.handle_of_admitted admitted]
  have second : Serving.step system handler scanning (.scanDone result entries) =
      some (scanning.finish.dirOnScan system handler result entries) := by
    simp only [scanning, Serving.handle_of_admitted admitted]
    rfl
  have isFile : scanning.finish.file = handler.mapped request.path := by
    simp only [scanning, Serving.handle_of_admitted admitted]
    rfl
  have isRequest : scanning.finish.request = request := by
    simp only [scanning, Serving.handle_of_admitted admitted]
    rfl
  have silent : scanning.finish.transcript = [] := by
    simp only [scanning, Serving.handle_of_admitted admitted]
    rfl
  refine ⟨scanning.finish.dirOnScan system handler result entries, ?_, ?_⟩
  · rw [run_cons, first, Option.bind_some, run_cons, second, Option.bind_some, run_nil]
  · rw [dirOnScan_transcript scanned (isFile ▸ noIndex) readable, silent, isRequest,
      List.nil_append]

end Run

/-! ### The link lines of a listing -/

section Links

variable {path : Bytes} {entries : List Dirent}

theorem lf_notMem_linkMark : lf ∉ linkMark := by decide

theorem linkMark_prefix_entryLine (path : Bytes) (entry : Dirent) :
    linkMark <+: entryLine path entry :=
  List.prefix_append _ _

/-- The lines of the listing that start with the mark. -/
theorem filter_listingLines (path : Bytes) (entries : List Dirent) :
    (listingLines path entries).filter (fun line => linkMark <+: line) =
      backLine path :: (listed entries).map (entryLine path) := by
  have isLink : ∀ some : List Dirent,
      (some.map (entryLine path)).filter (fun line => linkMark <+: line) =
        some.map (entryLine path) := by
    intro some
    refine List.filter_eq_self.mpr fun line inside => ?_
    obtain ⟨entry, _, rfl⟩ := List.mem_map.mp inside
    exact decide_eq_true (linkMark_prefix_entryLine path entry)
  have title : ¬ linkMark <+: text "##" ++ space :: path := fun inside =>
    absurd ((prefix_append_cons_iff (by decide) _ _).mp inside) (by decide)
  have noTitle : ¬ linkMark <+: text "# DirectoryContents" := by decide
  have noEmpty : ¬ linkMark <+: [] := by decide
  have isBack : linkMark <+: backLine path := List.prefix_append _ _
  rw [listingLines, List.filter_append, List.filter_append, List.filter_append, isLink, isLink,
    listed, List.map_append]
  simp [title, noTitle, noEmpty, isBack]

/-- The link back shows a front of the path. -/
theorem dirname_isPrefix (path : Bytes) : (dirname path).getD [] <+: path := by
  by_cases named : Named path
  · have isFront : path.rdropWhile isSep <+: path := List.rdropWhile_prefix isSep path
    rw [dirname_of_named named]
    split
    · exact List.nil_prefix
    all_goals exact (List.take_prefix _ _).trans isFront
  · rw [dirname, popSeps_eq_none named]
    exact List.nil_prefix

/-- A name and its trailer break where the name does. -/
theorem splits_trailer (name : Bytes) (entry : Dirent) :
    Splits (name ++ trailer entry) ↔ Splits name := by
  unfold trailer
  split
  · rw [splits_append_cons (by decide), or_iff_left not_splits_nil]
  · rw [List.append_nil]

theorem splits_backLine (splits : Splits (backLine path)) : Splits path := by
  have noMark : ¬ Splits linkMark := by decide
  have noBack : ¬ Splits (text "back") := by decide
  rw [backLine, splits_append_cons (by decide), or_iff_right noMark, splits_append_cons (by decide),
    or_iff_left noBack] at splits
  exact splits.mono (dirname_isPrefix path).isInfix

/-- Behind a path with a separator at its end the name follows. -/
theorem printed_eq (trailing : path.getLast? = some slash) (entry : Dirent) :
    printed path entry = path ++ (unrooted entry.name.bytes ++ trailer entry) := by
  have separator : path.getLast?.any isSep = true := by rw [trailing]; rfl
  rw [printed, join_of_trailing separator, List.append_assoc]

theorem unrooted_isSuffix (name : Bytes) : unrooted name <:+ name := by
  unfold unrooted
  split
  · exact List.drop_suffix 1 name
  · exact List.suffix_rfl

/-- **A line breaks where the path or the name does.** -/
theorem splits_entryLine_iff (trailing : path.getLast? = some slash) (entry : Dirent) :
    Splits (entryLine path entry) ↔ Splits path ∨ Splits entry.name.bytes := by
  obtain ⟨front, rfl⟩ : ∃ front, path = front ++ [slash] :=
    List.getLast?_eq_some_iff.mp trailing
  have noMark : ¬ Splits linkMark := by decide
  have isPath : Splits (front ++ [slash]) ↔ Splits front := by
    rw [splits_append_cons (by decide), or_iff_left not_splits_nil]
  have isPrinted : Splits (printed (front ++ [slash]) entry) ↔
      Splits front ∨ Splits (unrooted entry.name.bytes) := by
    rw [printed_eq trailing, List.append_assoc, List.singleton_append,
      splits_append_cons (by decide), splits_trailer]
  have isName : Splits (unrooted entry.name.bytes) → Splits entry.name.bytes := fun splits =>
    splits.mono (unrooted_isSuffix _).isInfix
  rw [entryLine, splits_append_cons (by decide), or_iff_right noMark,
    splits_append_cons (by decide), isPrinted, isPath, splits_trailer, or_assoc,
    or_iff_right_of_imp isName]

/-- No line of the listing breaks into several links. -/
theorem splits_listingLines_iff (trailing : path.getLast? = some slash) :
    (∀ line ∈ listingLines path entries, ¬ Splits line) ↔
      ¬ Splits path ∧ ∀ entry ∈ entries, ¬ Splits entry.name.bytes := by
  have noTitle : ¬ Splits (text "# DirectoryContents") := by decide
  have isHeading : Splits (text "##" ++ space :: path) ↔ Splits path := by
    rw [splits_append_cons (by decide), or_iff_right (by decide)]
  constructor
  · intro single
    have noPath : ¬ Splits path := fun splits =>
      single (text "##" ++ space :: path) (by simp [listingLines]) (isHeading.mpr splits)
    refine ⟨noPath, fun entry inside splits => ?_⟩
    have isLine : entryLine path entry ∈ listingLines path entries := by
      have isListed := mem_listed.mpr inside
      rw [listed, List.mem_append] at isListed
      rw [listingLines, List.mem_append, List.mem_append, List.mem_append]
      rcases isListed with folder | child
      · exact .inl (.inl (.inr (List.mem_map_of_mem folder)))
      · exact .inr (List.mem_map_of_mem child)
    exact single _ isLine ((splits_entryLine_iff trailing entry).mpr (.inr splits))
  · rintro ⟨noPath, noName⟩ line inside splits
    have noEntry : ∀ entry ∈ entries, ¬ Splits (entryLine path entry) := fun entry isEntry breaks =>
      ((splits_entryLine_iff trailing entry).mp breaks).elim noPath (noName entry isEntry)
    rw [listingLines, List.mem_append, List.mem_append, List.mem_append] at inside
    rcases inside with ((fixed | folder) | gap) | child
    · simp only [List.mem_cons, List.not_mem_nil, or_false] at fixed
      rcases fixed with rfl | rfl | rfl | rfl | rfl | rfl
      · exact noTitle splits
      · exact not_splits_nil splits
      · exact noPath (isHeading.mp splits)
      · exact not_splits_nil splits
      · exact noPath (splits_backLine splits)
      · exact not_splits_nil splits
    · obtain ⟨entry, isEntry, rfl⟩ := List.mem_map.mp folder
      exact noEntry entry (List.mem_filter.mp isEntry).1 splits
    · exact not_splits_nil (List.mem_singleton.mp gap ▸ splits)
    · obtain ⟨entry, isEntry, rfl⟩ := List.mem_map.mp child
      exact noEntry entry (List.mem_filter.mp isEntry).1 splits

/-- **One link line for each entry**, besides the link back. -/
theorem length_linkLines_iff (trailing : path.getLast? = some slash) :
    (linkLines (listing path (entryNames (folderEntries entries))
        (entryNames (childEntries entries)))).length = (listed entries).length + 1 ↔
      ¬ Splits path ∧ ∀ entry ∈ entries, ¬ Splits entry.name.bytes := by
  have count := length_tagged_frame_iff lf_notMem_linkMark (listingLines path entries)
  rw [filter_listingLines, List.length_cons, List.length_map] at count
  rw [listing_eq_frame, linkLines, count]
  exact splits_listingLines_iff trailing

/-- **The link lines of a listing.** -/
theorem linkLines_listing (trailing : path.getLast? = some slash)
    (single : ¬ Splits path ∧ ∀ entry ∈ entries, ¬ Splits entry.name.bytes) :
    linkLines (listing path (entryNames (folderEntries entries))
        (entryNames (childEntries entries))) =
      before lf (backLine path) ::
        (listed entries).map fun entry => before lf (entryLine path entry) := by
  rw [listing_eq_frame, linkLines, tagged_frame lf_notMem_linkMark
    ((splits_listingLines_iff trailing).mpr single), filter_listingLines, List.map_cons,
    List.map_map]
  rfl

/-! ### The target of a line -/

/-- What is left of a printed link: it ends at the first blank or LF. -/
def shown (link : Bytes) : Bytes := link.takeWhile fun letter => !isBlank letter && !(letter == lf)

theorem shown_isPrefix (link : Bytes) : shown link <+: link := List.takeWhile_prefix _

theorem plain_of_mem_shown {link : Bytes} {letter : Byte} (inside : letter ∈ shown link) :
    isBlank letter = false ∧ letter ≠ lf := by
  have kept := List.mem_takeWhile_imp inside
  simpa using kept

theorem shown_rooted {link : Bytes} (rooted : link.head? = some slash) :
    (shown link).head? = some slash := by
  obtain ⟨rest, rfl⟩ := List.head?_eq_some_iff.mp rooted
  rw [shown, List.takeWhile_cons_of_pos (by decide)]
  rfl

/-- **The target of the line of an entry.** -/
theorem linkTarget_entryLine {entry : Dirent} (rooted : (printed path entry).head? = some slash) :
    linkTarget (before lf (entryLine path entry)) = shown (printed path entry) := by
  obtain ⟨rest, isPrinted⟩ := List.head?_eq_some_iff.mp rooted
  have free : lf ∉ linkMark ++ [space] := by decide
  have line : before lf (entryLine path entry) = linkMark ++ space ::
      before lf (printed path entry ++ space :: (entry.name.bytes ++ trailer entry)) := by
    have cut := before_append_of_notMem free
      (printed path entry ++ space :: (entry.name.bytes ++ trailer entry))
    simpa [entryLine] using cut
  have starts : (before lf (printed path entry ++
      space :: (entry.name.bytes ++ trailer entry))).dropWhile isBlank =
        before lf (printed path entry ++ space :: (entry.name.bytes ++ trailer entry)) := by
    have head := before_append_of_notMem (show lf ∉ [slash] by decide)
      (rest ++ space :: (entry.name.bytes ++ trailer entry))
    rw [isPrinted]
    rw [List.singleton_append, ← List.cons_append] at head
    rw [head, List.singleton_append, List.dropWhile_cons_of_neg (by decide)]
  have stops : ∀ back : Bytes, shown (printed path entry ++ space :: back) =
      shown (printed path entry) := by
    intro back
    unfold shown
    rw [List.takeWhile_append]
    split
    next whole =>
      rw [List.takeWhile_cons_of_neg (by decide), List.append_nil]
      exact ((List.takeWhile_prefix _).eq_of_length whole).symm
    next => rfl
  rw [linkTarget, line, List.drop_left, List.dropWhile_cons_of_pos (by decide), starts, before,
    List.takeWhile_takeWhile, ← stops (entry.name.bytes ++ trailer entry), shown]
  congr 1
  funext letter
  by_cases ends : letter = lf <;> simp [ends]

end Links

end GemCaps
