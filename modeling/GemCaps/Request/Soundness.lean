/-
**What the parser accepts.**

`accepted_inGrammar_iff`: an accepted header whose only LF is its last byte is the text of a `Uri`
with the port the parser stored if and only if it is plain behind its marker: a CR stands only right
before the final LF, and a port that is written after the host consists of decimal digits and is
below `2 ^ 31`. `atoi` stops at the first byte that is no digit, skips blanks, takes a sign, and
wraps around, so that the other headers are accepted with a port that is not the one written.
-/

import GemCaps.Request.RoundTrip

namespace GemCaps

/-- A header is the text of a URI, and a written port has this value. -/
def InGrammar (header : Bytes) (port : Nat) : Prop :=
  ∃ (uri : Uri) (lineEnd : Bytes), (lineEnd = crlf ∨ lineEnd = [lf]) ∧
    header = uri.render lineEnd ∧ ∀ digits ∈ uri.port, digitsValue digits = port

/-- The header behind its first marker. -/
def behindMarker (header : Bytes) : Bytes :=
  header.drop ((findText header marker 0).getD 0 + marker.length)

/-- The text of a port that is written directly after the host: from the colon to an end byte. -/
def writtenPort (tail : Bytes) : Option Bytes :=
  match tail.dropWhile fun letter => !isDelimiter letter with
  | [] => none
  | letter :: rest => if letter = colon then some (rest.takeWhile fun letter => !isEnd letter) else none

/-- A CR only right before the final LF, and a written port in decimal below `2 ^ 31`. -/
structure Plain (tail : Bytes) : Prop where
  lastCr : ∀ front back, tail = front ++ cr :: back → back = [lf]
  digits : ∀ digits ∈ writtenPort tail, ∀ digit ∈ digits, isDigit digit = true
  small : ∀ digits ∈ writtenPort tail, digitsValue digits < 2 ^ 31

theorem behindMarker_eq {scheme rest : Bytes} (first : SchemeFirst scheme) :
    behindMarker (scheme ++ (marker ++ rest)) = rest := by
  rw [behindMarker, findText_marker first, Option.getD_some, ← List.drop_drop, List.drop_left,
    List.drop_left]

/-- A front without the byte lies before every place of the byte. -/
theorem exists_of_append_eq {front rest front' back : Bytes} {letter : Byte}
    (free : letter ∉ front) (same : front ++ rest = front' ++ letter :: back) :
    ∃ middle, front' = front ++ middle ∧ rest = middle ++ letter :: back := by
  rcases List.append_eq_append_iff.mp same with ⟨middle, isFront, isRest⟩ | ⟨middle, isFront, isRest⟩
  · exact ⟨middle, isFront, isRest⟩
  · cases middle with
    | nil => exact ⟨[], by simpa using isFront.symm, by simpa using isRest.symm⟩
    | cons other middle =>
      obtain ⟨rfl, _⟩ := List.cons.inj isRest
      exact absurd (isFront ▸ List.mem_append_right _ List.mem_cons_self) free

/-- Behind a CR of the line end there is the LF. -/
theorem eq_lf_of_lineEnd {lineEnd middle back : Bytes} (isLineEnd : lineEnd = crlf ∨ lineEnd = [lf])
    (same : lineEnd = middle ++ cr :: back) : back = [lf] := by
  rcases isLineEnd with rfl | rfl
  · rcases middle with _ | ⟨letter, _ | ⟨other, middle⟩⟩
    · exact (List.cons.inj same).2.symm
    · exact absurd (List.cons.inj (List.cons.inj same).2).1 (by decide)
    · simp [crlf] at same
  · rcases middle with _ | ⟨letter, middle⟩
    · exact absurd (List.cons.inj same).1 (by decide)
    · simp at same

/-! ### The text of a URI is plain -/

section Rendered

variable (uri : Uri)

/-- What follows the port starts with an end byte. -/
theorem isEnd_head_rest {lineEnd : Bytes} (isLineEnd : lineEnd = crlf ∨ lineEnd = [lf]) :
    ∃ letter rest, uri.path ++ (uri.query ++ lineEnd) = letter :: rest ∧ isEnd letter = true := by
  rcases hPath : uri.path with _ | ⟨letter, path⟩
  · rcases hQuery : uri.query with _ | ⟨letter, query⟩
    · rcases isLineEnd with rfl | rfl
      · exact ⟨cr, [lf], rfl, rfl⟩
      · exact ⟨lf, [], rfl, rfl⟩
    · have shape := uri.queryShape
      rw [hQuery] at shape
      obtain rfl : letter = question := by simpa using shape
      exact ⟨question, query ++ lineEnd, rfl, rfl⟩
  · have shape := uri.pathShape
    rw [hPath] at shape
    obtain rfl : letter = slash := by simpa using shape
    exact ⟨slash, path ++ (uri.query ++ lineEnd), rfl, rfl⟩

theorem writtenPort_renderTail {lineEnd : Bytes} (isLineEnd : lineEnd = crlf ∨ lineEnd = [lf]) :
    writtenPort (uri.renderTail lineEnd) = uri.port := by
  obtain ⟨letter, rest, behind, ends⟩ := isEnd_head_rest uri isLineEnd
  have overHost : (uri.renderTail lineEnd).dropWhile (fun letter => !isDelimiter letter) =
      (uri.portText ++ letter :: rest).dropWhile fun letter => !isDelimiter letter := by
    rw [Uri.renderTail, behind]
    exact List.dropWhile_append_of_pos fun letter inside => by simp [uri.hostPlain letter inside]
  have stops : isDelimiter letter = true := by simp [isDelimiter, ends]
  rw [writtenPort, overHost, Uri.portText]
  cases isPort : uri.port with
  | none =>
    have notColon : letter ≠ colon := by
      rintro rfl
      exact absurd ends (by decide)
    simp [stops, notColon]
  | some digits =>
    have run : (digits ++ letter :: rest).takeWhile (fun letter => !isEnd letter) = digits := by
      rw [List.takeWhile_append_of_pos fun digit inside => by
        simp [isEnd_of_isDigit (uri.portDigits digits isPort digit inside)]]
      simp [ends]
    simp [show isDelimiter colon = true by decide, run]

theorem cr_notMem_body : cr ∉ uri.host ++ (uri.portText ++ (uri.path ++ uri.query)) := by
  simp only [List.mem_append, not_or]
  refine ⟨fun inside => absurd (uri.host_noEnd cr inside) (by decide), ?_, uri.path_noCr,
    uri.query_noCr⟩
  unfold Uri.portText
  cases isPort : uri.port with
  | none => exact List.not_mem_nil
  | some digits =>
    rintro (_ | ⟨_, inside⟩)
    exact absurd (uri.portDigits digits isPort cr inside) (by decide)

/-- **The text of a URI is plain.** -/
theorem plain_renderTail {lineEnd : Bytes} (isLineEnd : lineEnd = crlf ∨ lineEnd = [lf]) :
    Plain (uri.renderTail lineEnd) := by
  have isPort := writtenPort_renderTail uri isLineEnd
  refine ⟨fun front back same => ?_, fun digits written => ?_, fun digits written => ?_⟩
  · have body : uri.renderTail lineEnd =
        uri.host ++ (uri.portText ++ (uri.path ++ uri.query)) ++ lineEnd := by
      simp [Uri.renderTail]
    obtain ⟨middle, _, isEnd⟩ := exists_of_append_eq (cr_notMem_body uri) (body.symm.trans same)
    exact eq_lf_of_lineEnd isLineEnd isEnd
  · rw [isPort] at written
    exact uri.portDigits digits written
  · rw [isPort] at written
    have range := uri.portRange digits written
    omega

end Rendered

/-- The text of a URI is plain behind its marker. -/
theorem plain_of_inGrammar {header : Bytes} {port : Nat} (inGrammar : InGrammar header port) :
    Plain (behindMarker header) := by
  obtain ⟨uri, lineEnd, isLineEnd, shape, _⟩ := inGrammar
  rw [shape, Uri.render, behindMarker_eq uri.schemeFirst]
  exact plain_renderTail uri isLineEnd

/-! ### A plain header is the text of a URI -/

/-- Path and query of a text without line ends. -/
structure PathQuery (rest : Bytes) where
  path : Bytes
  query : Bytes
  split : rest = path ++ query
  pathShape : path = [] ∨ path.head? = some slash
  pathPlain : ∀ letter ∈ path, letter ≠ question ∧ letter ≠ cr ∧ letter ≠ lf
  queryShape : query = [] ∨ query.head? = some question
  queryPlain : ∀ letter ∈ query, letter ≠ cr ∧ letter ≠ lf

/-- The end bytes that are no line ends start a path or a query. -/
theorem nonempty_pathQuery {rest : Bytes} (noLineEnd : ∀ letter ∈ rest, letter ≠ cr ∧ letter ≠ lf)
    (ends : ∀ letter, rest.head? = some letter → isEnd letter = true) :
    Nonempty (PathQuery rest) := by
  cases rest with
  | nil =>
    exact ⟨[], [], rfl, Or.inl rfl, by simp, Or.inl rfl, by simp⟩
  | cons letter rest =>
    have head := ends letter rfl
    have notLine := noLineEnd letter List.mem_cons_self
    simp only [isEnd, Bool.or_eq_true, beq_iff_eq, notLine.1, notLine.2, or_false] at head
    rcases head with rfl | rfl
    · refine ⟨(slash :: rest).takeWhile (fun letter => !decide (letter = question)),
        (slash :: rest).dropWhile (fun letter => !decide (letter = question)),
        List.takeWhile_append_dropWhile.symm, Or.inr rfl, fun letter inside => ?_, ?_,
        fun letter inside => noLineEnd letter ((List.dropWhile_sublist _).subset inside)⟩
      · have notQuestion : letter ≠ question := by simpa using List.mem_takeWhile_imp inside
        exact ⟨notQuestion, noLineEnd letter ((List.takeWhile_sublist _).subset inside)⟩
      · cases shape : (slash :: rest).dropWhile (fun letter => !decide (letter = question)) with
        | nil => exact Or.inl rfl
        | cons first others =>
          have stopped := List.head?_dropWhile_not (fun letter => !decide (letter = question))
            (slash :: rest)
          simp only [shape, List.head?_cons] at stopped
          exact Or.inr (by simpa using stopped)
    · exact ⟨[], question :: rest, rfl, Or.inl rfl, by simp, Or.inr rfl, noLineEnd⟩

/-- A tail that ends in its only LF, and has a CR only before that, is a body and a line end. -/
theorem exists_body {tail line : Bytes} (isLine : tail = line ++ [lf]) (noLf : lf ∉ line)
    (lastCr : ∀ front back, tail = front ++ cr :: back → back = [lf]) :
    ∃ body lineEnd, tail = body ++ lineEnd ∧ (lineEnd = crlf ∨ lineEnd = [lf]) ∧
      ∀ letter ∈ body, letter ≠ cr ∧ letter ≠ lf := by
  rcases Cutting.notMem_or_exists_first cr line with noCr | ⟨front, back, rfl, noCr⟩
  · exact ⟨line, [lf], isLine, Or.inr rfl, fun letter inside =>
      ⟨fun same => noCr (same ▸ inside), fun same => noLf (same ▸ inside)⟩⟩
  · have isLast := lastCr front (back ++ [lf]) (by rw [isLine]; simp)
    have empty : back = [] := by simpa using isLast
    subst empty
    refine ⟨front, crlf, by rw [isLine]; simp [crlf], Or.inl rfl, fun letter inside =>
      ⟨fun same => noCr (same ▸ inside), fun same => noLf (same ▸ List.mem_append_left _ inside)⟩⟩

/-- `atoi` finds no number where a path or a query starts. -/
theorem atoi_of_isEnd {portText : Bytes} {letter : Byte} (isHead : portText.head? = some letter)
    (starts : letter = slash ∨ letter = question) : atoi portText = 0 := by
  obtain ⟨rest, rfl⟩ := List.head?_eq_some_iff.mp isHead
  rcases starts with rfl | rfl <;>
    exact atoi_eq_zero rest (by decide) (by decide) (by decide) (by decide) (by decide)

/-- A text before a line end is cut like the text alone. -/
theorem dropWhile_lineEnd (stop : Byte → Bool) {lineEnd : Bytes}
    (isLineEnd : lineEnd = crlf ∨ lineEnd = [lf]) (stopsCr : stop cr = true)
    (stopsLf : stop lf = true) (body : Bytes) :
    (body ++ lineEnd).dropWhile (fun letter => !stop letter) =
        body.dropWhile (fun letter => !stop letter) ++ lineEnd ∧
      (body ++ lineEnd).takeWhile (fun letter => !stop letter) =
        body.takeWhile (fun letter => !stop letter) := by
  induction body with
  | nil => rcases isLineEnd with rfl | rfl <;> simp [crlf, stopsCr, stopsLf]
  | cons letter body ih =>
    by_cases stopped : stop letter = true
    · simp [stopped]
    · have goesOn : stop letter = false := by simpa using stopped
      simpa [goesOn] using ih

theorem writtenPort_body {body lineEnd : Bytes} (isLineEnd : lineEnd = crlf ∨ lineEnd = [lf]) :
    writtenPort (body ++ lineEnd) = writtenPort body := by
  rw [writtenPort, writtenPort, (dropWhile_lineEnd isDelimiter isLineEnd (by decide) (by decide) body).1]
  cases body.dropWhile fun letter => !isDelimiter letter with
  | nil => rcases isLineEnd with rfl | rfl <;> rfl
  | cons letter rest =>
    simp only [List.cons_append, (dropWhile_lineEnd isEnd isLineEnd (by decide)
      (by decide) rest).2]

/-- **A body without line ends is the text of a URI**, when a written port is in decimal and in
range. -/
theorem exists_uri {scheme body : Bytes} (first : SchemeFirst scheme)
    (noLineEnd : ∀ letter ∈ body, letter ≠ cr ∧ letter ≠ lf)
    (areDigits : ∀ digits ∈ writtenPort body, ∀ digit ∈ digits, isDigit digit = true)
    (range : ∀ digits ∈ writtenPort body, 1 ≤ digitsValue digits ∧ digitsValue digits ≤ 65535) :
    ∃ uri : Uri, uri.scheme = scheme ∧ uri.port = writtenPort body ∧
      ∀ lineEnd, uri.renderTail lineEnd = body ++ lineEnd := by
  have hostPlain : ∀ letter ∈ body.takeWhile (fun letter => !isDelimiter letter),
      isDelimiter letter = false := fun letter inside => by
    simpa using List.mem_takeWhile_imp inside
  have split : body = body.takeWhile (fun letter => !isDelimiter letter) ++
      body.dropWhile (fun letter => !isDelimiter letter) :=
    List.takeWhile_append_dropWhile.symm
  have stopped := List.head?_dropWhile_not (fun letter => !isDelimiter letter) body
  have inBody : ∀ letter ∈ body.dropWhile (fun letter => !isDelimiter letter),
      letter ≠ cr ∧ letter ≠ lf := fun letter inside =>
    noLineEnd letter ((List.dropWhile_sublist _).subset inside)
  cases rest : body.dropWhile fun letter => !isDelimiter letter with
  | nil =>
    have none : writtenPort body = none := by rw [writtenPort, rest]
    rw [rest, List.append_nil] at split
    refine ⟨⟨scheme, body, .none, [], [], first, split ▸ hostPlain, by simp, by simp, Or.inl rfl,
      by simp, Or.inl rfl, by simp⟩, rfl, none.symm, fun lineEnd => rfl⟩
  | cons letter rest' =>
    rw [rest] at split stopped inBody
    have delimiter : isDelimiter letter = true := by simpa using stopped
    by_cases isColon : letter = colon
    · subst isColon
      have written : writtenPort body =
          some (rest'.takeWhile fun letter => !isEnd letter) := by
        simp only [writtenPort, rest, if_true]
      have restSplit : rest' = rest'.takeWhile (fun letter => !isEnd letter) ++
          rest'.dropWhile (fun letter => !isEnd letter) := List.takeWhile_append_dropWhile.symm
      obtain ⟨parts⟩ : Nonempty (PathQuery (rest'.dropWhile fun letter => !isEnd letter)) :=
        nonempty_pathQuery
          (fun letter inside => inBody letter
            (List.mem_cons_of_mem _ ((List.dropWhile_sublist _).subset inside)))
          (fun letter isHead => by
            have stopped := List.head?_dropWhile_not (fun letter => !isEnd letter) rest'
            rw [isHead] at stopped
            simpa using stopped)
      rw [parts.split] at restSplit
      refine ⟨⟨scheme, _, some (rest'.takeWhile fun letter => !isEnd letter), parts.path,
        parts.query, first, hostPlain, written ▸ areDigits, written ▸ range, parts.pathShape,
        parts.pathPlain, parts.queryShape, parts.queryPlain⟩, rfl, written.symm, fun lineEnd => ?_⟩
      conv_rhs => rw [split, restSplit]
      simp [Uri.renderTail, Uri.portText]
    · have ends : isEnd letter = true := by simpa [isDelimiter, isColon] using delimiter
      have none : writtenPort body = none := by simp only [writtenPort, rest, if_neg isColon]
      obtain ⟨parts⟩ := nonempty_pathQuery inBody fun other isHead => by
        obtain rfl : letter = other := by simpa using isHead
        exact ends
      refine ⟨⟨scheme, _, .none, parts.path, parts.query, first, hostPlain, by simp, by simp,
        parts.pathShape, parts.pathPlain, parts.queryShape, parts.queryPlain⟩, rfl, none.symm,
        fun lineEnd => ?_⟩
      conv_rhs => rw [split, parts.split]
      simp [Uri.renderTail, Uri.portText]

/-! ### The port that was stored -/

section Written

variable {host digits behind portText back : Bytes} {mark : Byte}

theorem writtenPort_eq_some {tail : Bytes} (written : writtenPort tail = some digits) :
    ∃ host behind, tail = host ++ colon :: (digits ++ behind) ∧ colon ∉ host ∧
      (∀ letter, behind.head? = some letter → isEnd letter = true) := by
  have split : tail = tail.takeWhile (fun letter => !isDelimiter letter) ++
      tail.dropWhile (fun letter => !isDelimiter letter) := List.takeWhile_append_dropWhile.symm
  unfold writtenPort at written
  cases rest : tail.dropWhile fun letter => !isDelimiter letter with
  | nil =>
    rw [rest] at written
    cases written
  | cons letter rest' =>
    rw [rest] at written split
    by_cases isColon : letter = colon
    · subst isColon
      simp only [if_true, Option.some.injEq] at written
      refine ⟨tail.takeWhile fun letter => !isDelimiter letter,
        rest'.dropWhile fun letter => !isEnd letter, ?_, fun inside => ?_, fun letter isHead => ?_⟩
      · rw [← written, List.takeWhile_append_dropWhile]
        exact split
      · exact absurd (List.mem_takeWhile_imp inside) (by decide)
      · have stopped := List.head?_dropWhile_not (fun letter => !isEnd letter) rest'
        rw [isHead] at stopped
        simpa using stopped
    · simp only [if_neg isColon] at written
      cases written

/-- Nothing is read as a number where a path, a query or the line end follows the colon. -/
theorem atoi_behind {more : Bytes}
    (starts : ∀ letter, behind.head? = some letter → isEnd letter = true)
    (lastCr : ∀ front back, behind = front ++ cr :: back → back = [lf])
    (lastLf : ∀ front back, behind = front ++ lf :: back → back = [])
    (same : behind = more ++ mark :: back) : atoi more = 0 := by
  cases more with
  | nil => rfl
  | cons letter more =>
    have ends := starts letter (by rw [same]; rfl)
    simp only [isEnd, Bool.or_eq_true, beq_iff_eq] at ends
    rcases ends with ((isSlash | isQuestion) | isCr) | isLf
    · exact atoi_of_isEnd rfl (Or.inl isSlash)
    · exact atoi_of_isEnd rfl (Or.inr isQuestion)
    · subst isCr
      have single := lastCr [] _ same
      cases more with
      | nil => rfl
      | cons other more => simp at single
    · subst isLf
      have empty := lastLf [] _ same
      simp at empty

/-- **The stored port is the written one**, when the written one is in decimal and fits. -/
theorem atoi_portText (areDigits : ∀ digit ∈ digits, isDigit digit = true)
    (small : digitsValue digits < 2 ^ 31)
    (starts : ∀ letter, behind.head? = some letter → isEnd letter = true)
    (lastCr : ∀ front back, behind = front ++ cr :: back → back = [lf])
    (lastLf : ∀ front back, behind = front ++ lf :: back → back = []) (isMark : isEnd mark = true)
    (same : digits ++ behind = portText ++ mark :: back)
    (positive : 0 < atoi portText) : atoi portText = digitsValue digits := by
  have noMark : mark ∉ digits := fun inside => by
    rw [isEnd_of_isDigit (areDigits mark inside)] at isMark
    cases isMark
  obtain ⟨more, rfl, isBehind⟩ := exists_of_append_eq noMark same
  by_cases empty : digits = []
  · subst empty
    rw [List.nil_append, atoi_behind starts lastCr lastLf isBehind] at positive
    exact absurd positive (lt_irrefl _)
  · refine atoi_digits areDigits empty (fun letter isHead => ?_) small
    have ends := starts letter (by rw [isBehind, List.head?_append, isHead, Option.some_or])
    by_contra digit
    rw [isEnd_of_isDigit (by simpa using digit)] at ends
    cases ends

end Written

/-- The tail of a header whose only LF is its last byte. -/
theorem tail_line {scheme tail line : Bytes} (noLf : lf ∉ line)
    (same : line ++ [lf] = scheme ++ (marker ++ tail)) :
    (∃ line', tail = line' ++ [lf] ∧ lf ∉ line') := by
  have isFront : ∃ line', line = (scheme ++ marker) ++ line' ∧ tail = line' ++ [lf] := by
    rw [← List.append_assoc] at same
    rcases List.append_eq_append_iff.mp same with ⟨middle, isScheme, isLast⟩ |
      ⟨line', isLine, isTail⟩
    · cases middle with
      | nil => exact ⟨[], by simpa using isScheme.symm, by simpa using isLast.symm⟩
      | cons letter middle =>
        exfalso
        have markerEnd : (scheme ++ marker).getLast? = some slash := by
          rw [List.getLast?_append]
          rfl
        obtain ⟨rfl, empty⟩ := List.cons.inj isLast
        obtain ⟨rfl, rfl⟩ := List.append_eq_nil_iff.mp empty.symm
        rw [isScheme, List.getLast?_append] at markerEnd
        exact absurd (Option.some.inj markerEnd) (by decide)
    · exact ⟨line', isLine, isTail⟩
  obtain ⟨line', rfl, isTail⟩ := isFront
  exact ⟨line', isTail, fun inside => noLf (List.mem_append_right _ inside)⟩

/-- **A plain accepted header is the text of a URI**, with the port the parser stored. -/
theorem inGrammar_of_plain {fresh request : Request} {line : Bytes}
    (onlyLf : fresh.header = line ++ [lf]) (noLf : lf ∉ line)
    (accepted : parseHost fresh = some request) (plain : Plain (behindMarker fresh.header)) :
    InGrammar fresh.header request.port := by
  obtain ⟨scheme, tail, host', path', query', shape, first, parsed⟩ := parseHost_eq_some accepted
  rw [shape, behindMarker_eq first] at plain
  obtain ⟨line', isLine, noLf'⟩ := tail_line noLf (onlyLf.symm.trans shape)
  -- the port the parser stored is the written one, and in range
  have stored : ∀ digits ∈ writtenPort tail, digitsValue digits = request.port ∧
      1 ≤ digitsValue digits ∧ digitsValue digits ≤ 65535 := by
    intro digits written
    obtain ⟨host, behind, isTail, noColon, starts⟩ := writtenPort_eq_some written
    have inTail : ∀ front back, behind = front ++ back →
        tail = host ++ colon :: (digits ++ front) ++ back := by
      intro front back same
      rw [isTail, same]
      simp
    rcases parsed with ⟨portText, mark, back, isTail', noColon', ends, positive, inRange, rfl, _⟩ |
      ⟨_, _, _, noColonTail, _⟩
    · have sameHost : host = host' := by
        have cut := Cutting.before_append_cons noColon (digits ++ behind)
        rw [← isTail, isTail', Cutting.before_append_cons noColon'] at cut
        exact cut.symm
      subst sameHost
      rw [isTail, List.append_cancel_left_eq, List.cons.injEq] at isTail'
      have value := atoi_portText (plain.digits digits written) (plain.small digits written) starts
        (fun front back same => plain.lastCr _ _ (inTail front (cr :: back) same))
        (fun front back same => by
          have tailSplit := inTail front (lf :: back) same
          rw [isLine] at tailSplit
          obtain ⟨middle, _, isEnd⟩ := exists_of_append_eq noLf' tailSplit
          cases middle with
          | nil => exact (List.cons.inj isEnd).2.symm
          | cons letter middle => simp at isEnd)
        ends isTail'.2 positive
      refine ⟨?_, by omega, by omega⟩
      show digitsValue digits = (atoi portText).toNat
      omega
    · exact absurd (isTail ▸ List.mem_append_right _ List.mem_cons_self) noColonTail
  obtain ⟨body, lineEnd, isBody, isLineEnd, noLineEnd⟩ := exists_body isLine noLf' plain.lastCr
  have samePort : writtenPort tail = writtenPort body := isBody ▸ writtenPort_body isLineEnd
  obtain ⟨uri, rfl, isPort, renders⟩ := exists_uri first noLineEnd
    (fun digits written => plain.digits digits (samePort ▸ written))
    (fun digits written => (stored digits (samePort ▸ written)).2)
  refine ⟨uri, lineEnd, isLineEnd, ?_, fun digits written => ?_⟩
  · rw [shape, Uri.render, renders, ← isBody]
  · rw [isPort, ← samePort] at written
    exact (stored digits written).1

/-- **What is accepted is in the grammar exactly when it is plain.** -/
theorem accepted_inGrammar_iff {fresh request : Request} {line : Bytes}
    (onlyLf : fresh.header = line ++ [lf]) (noLf : lf ∉ line)
    (accepted : parseHost fresh = some request) :
    InGrammar fresh.header request.port ↔ Plain (behindMarker fresh.header) := by
  exact ⟨plain_of_inGrammar, inGrammar_of_plain onlyLf noLf accepted⟩

/-- The parser accepts a port with trailing garbage: `gemini://h:80x/` is read as port 80. -/
theorem accepted_garbagePort :
    parseHost { header := text "gemini://h:80x/\r\n" } =
        some ⟨text "gemini://h:80x/\r\n", text "h", 80, text "/", []⟩ ∧
      ¬ InGrammar (text "gemini://h:80x/\r\n") 80 := by
  refine ⟨by decide, fun inGrammar => ?_⟩
  have plain := plain_of_inGrammar inGrammar
  have digit := plain.digits (text "80x") (by decide) 120 (by decide)
  exact absurd digit (by decide)

/-- A fresh request with a header. -/
def plainRequest : Request := { header := text "gemini://h:1966/a?b\r\n" }

/-- An accepted header that is plain. -/
theorem accepted_inGrammar_plainPort : InGrammar plainRequest.header 1966 :=
  (accepted_inGrammar_iff
    (show plainRequest.header = text "gemini://h:1966/a?b\r" ++ [lf] from rfl) (by decide)
    (show parseHost plainRequest =
      some ⟨plainRequest.header, text "h", 1966, text "/a", text "?b"⟩ by decide)).mpr
    ⟨fun front back same => by
      have body : behindMarker plainRequest.header = text "h:1966/a?b" ++ crlf := by decide
      rw [body] at same
      obtain ⟨middle, _, isEnd⟩ := exists_of_append_eq (by decide) same
      exact eq_lf_of_lineEnd (Or.inl rfl) isEnd,
    fun digits written => by
      have isPort : writtenPort (behindMarker plainRequest.header) = some (text "1966") := by decide
      obtain rfl := Option.some.inj (isPort.symm.trans written)
      exact List.all_iff_forall_prop.mp (by decide), by decide⟩

end GemCaps
