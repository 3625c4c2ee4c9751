/-
**Request URIs and their text.**

A `Uri` is a parsed request: a scheme, a host, an optional port in decimal, a path and a query, each
with the bytes its place in the text allows. `Uri.render` writes the request line. This is what the
parser of the requests is for; `GemCaps.Request.RoundTrip` and `GemCaps.Request.Soundness` compare
the parser with it.
-/

import GemCaps.Request.Parse

namespace GemCaps

def crlf : Bytes := [cr, lf]

/-- The bytes that end a host. -/
def isDelimiter (letter : Byte) : Bool := letter == colon || isEnd letter

/-- The text up to the first `marker` is the scheme. -/
def SchemeFirst (scheme : Bytes) : Prop := search marker (scheme ++ marker) = some scheme.length

instance (scheme : Bytes) : Decidable (SchemeFirst scheme) := inferInstanceAs (Decidable (_ = _))

/-- A request URI. The port is kept as the digits it is written with. -/
structure Uri where
  scheme : Bytes
  host : Bytes
  port : Option Bytes
  path : Bytes
  query : Bytes
  schemeFirst : SchemeFirst scheme
  hostPlain : ∀ letter ∈ host, isDelimiter letter = false
  portDigits : ∀ digits ∈ port, ∀ digit ∈ digits, isDigit digit = true
  portRange : ∀ digits ∈ port, 1 ≤ digitsValue digits ∧ digitsValue digits ≤ 65535
  pathShape : path = [] ∨ path.head? = some slash
  pathPlain : ∀ letter ∈ path, letter ≠ question ∧ letter ≠ cr ∧ letter ≠ lf
  queryShape : query = [] ∨ query.head? = some question
  queryPlain : ∀ letter ∈ query, letter ≠ cr ∧ letter ≠ lf

namespace Uri

/-- The port with its colon. -/
def portText (uri : Uri) : Bytes :=
  match uri.port with
  | none => []
  | some digits => colon :: digits

/-- The port a request for this URI is about. -/
def portNumber (uri : Uri) : Nat :=
  match uri.port with
  | none => defaultPort
  | some digits => digitsValue digits

/-- What stands behind the marker. -/
def renderTail (uri : Uri) (lineEnd : Bytes) : Bytes :=
  uri.host ++ (uri.portText ++ (uri.path ++ (uri.query ++ lineEnd)))

/-- The request line. -/
def render (uri : Uri) (lineEnd : Bytes) : Bytes := uri.scheme ++ (marker ++ uri.renderTail lineEnd)

end Uri

/-! ### The marker -/

theorem drop_marker {header scheme rest : Bytes} (shape : header = scheme ++ (marker ++ rest)) :
    header.drop (scheme.length + 3) = rest := by
  rw [shape, ← List.drop_drop, List.drop_left]
  exact List.drop_left' rfl

/-- The first marker of a scheme stays the first, whatever follows it. -/
theorem findText_marker {scheme : Bytes} (first : SchemeFirst scheme) (rest : Bytes) :
    findText (scheme ++ (marker ++ rest)) marker 0 = some scheme.length := by
  obtain ⟨_, _, none⟩ := (search_eq_some_iff _ _ _).mp first
  have found : search marker (scheme ++ (marker ++ rest)) = some scheme.length := by
    refine (search_eq_some_iff _ _ _).mpr ⟨?_, by simp, fun earlier small inside => ?_⟩
    · rw [List.drop_left]
      exact List.prefix_append _ _
    · refine none earlier small ?_
      have room : earlier ≤ scheme.length := small.le
      rw [← List.append_assoc, List.drop_append_of_le_length (by simp; omega)] at inside
      refine List.prefix_of_prefix_length_le inside (List.prefix_append _ _) ?_
      simp only [List.length_drop, List.length_append]
      omega
  simp [findText, found]

/-- A scheme of letters ends at its own marker: the marker starts with a colon. -/
theorem schemeFirst_of_noColon {scheme : Bytes} (noColon : colon ∉ scheme) : SchemeFirst scheme := by
  refine (search_eq_some_iff _ _ _).mpr ⟨by simp, by simp, fun earlier small inside => ?_⟩
  obtain ⟨rest, shape⟩ := inside
  have atEarlier : (scheme ++ marker)[earlier]? = some colon := by
    have head := congrArg List.head? shape
    rw [List.head?_drop] at head
    exact head.symm
  rw [List.getElem?_append_left small] at atEarlier
  exact noColon (List.mem_of_getElem? atEarlier)

/-- The text behind a found marker. -/
theorem exists_of_findText_marker {header : Bytes} {offset : Nat}
    (found : findText header marker 0 = some offset) :
    ∃ scheme rest, header = scheme ++ (marker ++ rest) ∧ SchemeFirst scheme ∧
      offset = scheme.length := by
  simp only [findText, Nat.zero_le, if_true, List.drop_zero, Nat.zero_add, Option.map_id'] at found
  obtain ⟨⟨rest, shape⟩, room, none⟩ := (search_eq_some_iff _ _ _).mp found
  have split : header = header.take offset ++ (marker ++ rest) := by
    rw [shape, List.take_append_drop]
  have length : (header.take offset).length = offset := by simpa using room
  refine ⟨header.take offset, rest, split, ?_, length.symm⟩
  refine (search_eq_some_iff _ _ _).mpr ⟨by simp, by simp, fun earlier small inside => ?_⟩
  rw [length] at small
  refine none earlier small ?_
  rw [split, ← List.append_assoc, List.drop_append_of_le_length (by simp; omega)]
  exact inside.trans (List.prefix_append _ _)

/-- A text has one first marker. -/
theorem marker_unique {scheme scheme' rest rest' : Bytes} (first : SchemeFirst scheme)
    (first' : SchemeFirst scheme')
    (same : scheme ++ (marker ++ rest) = scheme' ++ (marker ++ rest')) :
    scheme = scheme' ∧ rest = rest' := by
  have lengths : scheme.length = scheme'.length := by
    have found := findText_marker first rest
    rw [same, findText_marker first' rest', Option.some.injEq] at found
    exact found.symm
  obtain ⟨rfl, behind⟩ := List.append_inj same lengths
  exact ⟨rfl, List.append_cancel_left behind⟩

/-! ### What an accepted header looks like to the parser -/

/-- **The inversion of `parseHost`.** The header is cut at its first marker. Where a colon follows,
the text before the first one is the host and the text from there to an end byte is read as the
port; otherwise the host reaches to an end byte. A `/` anywhere behind the host (and the port's
colon) makes the path not empty. -/
theorem parseHost_eq_some {request parsed : Request} (accepted : parseHost request = some parsed) :
    ∃ scheme rest host path query,
      request.header = scheme ++ (marker ++ rest) ∧ SchemeFirst scheme ∧
      ((∃ portText mark back, rest = host ++ colon :: (portText ++ mark :: back) ∧
          colon ∉ host ∧ isEnd mark = true ∧ 0 < atoi portText ∧ atoi portText ≤ 65535 ∧
          parsed = { request with host, port := (atoi portText).toNat, path, query } ∧
          (slash ∈ portText ++ mark :: back → path ≠ [])) ∨
        (∃ mark back, rest = host ++ mark :: back ∧ colon ∉ rest ∧ isEnd mark = true ∧
          parsed = { request with host, port := defaultPort, path, query } ∧
          (slash ∈ rest → path ≠ []))) := by
  obtain ⟨offset, foundMarker, accepted⟩ := Option.bind_eq_some_iff.mp accepted
  obtain ⟨scheme, rest, shape, first, rfl⟩ := exists_of_findText_marker foundMarker
  have atRest : request.header.drop (scheme.length + 3) = rest := drop_marker shape
  cases foundColon : find request.header colon (scheme.length + 3) with
  | some stop =>
    simp only [foundColon] at accepted
    obtain ⟨host, back, here, noColon, rfl⟩ := exists_of_find_eq_some foundColon
    obtain ⟨middle, acceptedPort, stored⟩ := Option.bind_eq_some_iff.mp accepted
    obtain ⟨⟨after, stop⟩, acceptedAfter, inRange⟩ := Option.bind_eq_some_iff.mp acceptedPort
    obtain ⟨path, query, portText, mark, tail, rfl, atPort, ends, rfl, shapePath⟩ :=
      parseAfter_eq_some acceptedAfter
    have filled := path_ne_nil shapePath
    have behind : request.header.drop (scheme.length + 3 + host.length + 1) = back :=
      drop_behind here
    rw [behind] at atPort filled
    have slice : substr request.header (scheme.length + 3 + host.length + 1)
        (scheme.length + 3 + host.length + 1 + portText.length -
          (scheme.length + 3 + host.length + 1)) = portText :=
      substr_eq (behind.trans atPort)
    simp only [slice] at inRange
    by_cases outside : atoi portText ≤ 0 ∨ 65535 < atoi portText
    · rw [if_pos outside] at inRange
      cases inRange
    · rw [if_neg outside] at inRange
      obtain rfl := Option.some.inj inRange
      obtain rfl := Option.some.inj stored
      have isHost := substr_eq here
      refine ⟨scheme, rest, host, path, query, shape, first, Or.inl ⟨portText, mark, tail, ?_,
        noColon, ends, by omega, by omega, ?_, atPort ▸ filled⟩⟩
      · rw [← atRest, here, atPort]
      · simp only [isHost]
  | none =>
    simp only [foundColon] at accepted
    have noColon := find_eq_none_iff.mp foundColon
    obtain ⟨⟨after, stop⟩, acceptedAfter, stored⟩ := Option.bind_eq_some_iff.mp accepted
    obtain ⟨path, query, host, mark, back, rfl, here, ends, rfl, shapePath⟩ :=
      parseAfter_eq_some acceptedAfter
    have filled := path_ne_nil shapePath
    obtain rfl := Option.some.inj stored
    have isHost := substr_eq here
    simp only [atRest] at here noColon filled
    exact ⟨scheme, rest, host, path, query, shape, first, Or.inr ⟨mark, back, here, noColon, ends,
      by simp only [isHost], filled⟩⟩

/-- The parser keeps the header. -/
theorem parseHost_header {request parsed : Request} (accepted : parseHost request = some parsed) :
    parsed.header = request.header := by
  obtain ⟨_, _, _, _, _, _, _, ⟨_, _, _, _, _, _, _, _, rfl, _⟩ | ⟨_, _, _, _, _, rfl, _⟩⟩ :=
    parseHost_eq_some accepted
  · rfl
  · rfl

/-! ### Where an accepted path stands -/

section Stands

variable {request parsed : Request} {header path : Bytes} {start stop : Nat}

/-- The path stands in the header, from a `/` at this place or behind it, and a byte follows it. -/
def StandsFrom (header path : Bytes) (start : Nat) : Prop :=
  ∃ place mark back, start ≤ place ∧ header.drop place = path ++ mark :: back ∧
    path.head? = some slash

theorem StandsFrom.length (stands : StandsFrom header path start) :
    path.length + start < header.length := by
  obtain ⟨place, mark, back, later, here, _⟩ := stands
  have count := congrArg List.length here
  rw [List.length_drop, List.length_append, List.length_cons] at count
  omega

theorem parseAfter_stands (accepted : parseAfter request start = some (parsed, stop)) :
    parsed.path = [] ∨ StandsFrom request.header parsed.path start := by
  obtain ⟨path, query, front, mark, back, rfl, here, _, _, shape⟩ := parseAfter_eq_some accepted
  refine shape.imp (fun absent => absent.2) ?_
  rintro ⟨other, later, behind, rooted⟩
  refine ⟨start + front.length, other, later, Nat.le_add_right start _, ?_, rooted⟩
  rw [drop_add_length here, behind]

/-- **The path of an accepted request** is empty or stands behind the marker. -/
theorem parseHost_stands (accepted : parseHost request = some parsed) :
    parsed.path = [] ∨ StandsFrom request.header parsed.path 3 := by
  have weaken : ∀ {path : Bytes} {start : Nat}, 3 ≤ start →
      (path = [] ∨ StandsFrom request.header path start) →
      path = [] ∨ StandsFrom request.header path 3 := by
    rintro path start behind (empty | ⟨place, mark, back, later, stands⟩)
    · exact .inl empty
    · exact .inr ⟨place, mark, back, behind.trans later, stands⟩
  obtain ⟨offset, _, accepted⟩ := Option.bind_eq_some_iff.mp accepted
  cases foundColon : find request.header colon (offset + 3) with
  | some stop =>
    simp only [foundColon] at accepted
    obtain ⟨front, back, _, _, rfl⟩ := exists_of_find_eq_some foundColon
    obtain ⟨middle, acceptedPort, stored⟩ := Option.bind_eq_some_iff.mp accepted
    obtain ⟨⟨after, stop⟩, acceptedAfter, inRange⟩ := Option.bind_eq_some_iff.mp acceptedPort
    obtain rfl := Option.some.inj stored
    simp only [Option.ite_none_left_eq_some] at inRange
    obtain ⟨_, isMiddle⟩ := inRange
    obtain rfl := Option.some.inj isMiddle
    have stands := parseAfter_stands acceptedAfter
    exact weaken (by omega) stands
  | none =>
    simp only [foundColon] at accepted
    obtain ⟨⟨after, stop⟩, acceptedAfter, stored⟩ := Option.bind_eq_some_iff.mp accepted
    obtain rfl := Option.some.inj stored
    have stands := parseAfter_stands acceptedAfter
    exact weaken (Nat.le_add_left 3 offset) stands

/-- An accepted path starts with a separator. -/
theorem parseHost_rooted (accepted : parseHost request = some parsed) :
    parsed.path = [] ∨ parsed.path.head? = some slash := by
  refine (parseHost_stands accepted).imp_right fun stands => ?_
  obtain ⟨place, mark, back, _, _, rooted⟩ := stands
  exact rooted

/-- **The marker and a line end are no part of the path.** -/
theorem parseHost_length (accepted : parseHost request = some parsed) :
    parsed.path = [] ∨ parsed.path.length + 4 ≤ request.header.length :=
  (parseHost_stands accepted).imp_right StandsFrom.length

end Stands

end GemCaps
