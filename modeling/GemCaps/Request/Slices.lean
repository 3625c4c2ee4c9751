/-
**The header as the parser cuts it** (`manager.cpp`).

The functions search one after the other, each from its own start, and store their slices on the way
back. `parseAfter_slices`: the component that ends the host or the port, the path and the query follow
each other without a gap, up to a CR or an LF. `parseHost_slices`: on a header that ends in its only
LF, the parser accepts unless the marker is missing or the port is out of range, and the header is the
scheme, the marker and the stored slices.
-/

import GemCaps.Request.Soundness

namespace GemCaps

open Cutting

/-- What ends the host, or the port, in the order of the searches. -/
def componentEnds : List Byte := [slash, question, cr, lf]

/-- What ends the path. -/
def pathEnds : List Byte := [question, cr, lf]

/-- What ends the query. -/
def queryEnds : List Byte := [cr, lf]

/-- How the rest of a header is cut behind the marker, or behind the colon. -/
structure Cut (tail component path query rest : Bytes) : Prop where
  whole : tail = component ++ (path ++ (query ++ rest))
  componentEnd : component = upTo componentEnds tail
  pathShape : path = [] ∧ slash ∉ tail ∨
    path.head? = some slash ∧ path = upTo pathEnds (path ++ (query ++ rest))
  queryShape : query = [] ∧ question ∉ path ++ rest ∧ (path = [] → question ∉ tail) ∨
    query.head? = some question ∧ query = upTo queryEnds (query ++ rest)
  lineEnd : rest.head? = some cr ∨ rest.head? = some lf

/-! ### The searches -/

section Searches

variable {request : Request} {header tail : Bytes} {start : Nat}

theorem find_eq_before {mark : Byte} (here : header.drop start = tail) (inside : mark ∈ tail) :
    find header mark start = some (start + (before mark tail).length) := by
  obtain ⟨front, back, rfl, free⟩ := List.eq_append_cons_of_mem inside
  rw [find_eq_some here free, before_append_cons free]

theorem find_eq_none_of_notMem {mark : Byte} (here : header.drop start = tail) (free : mark ∉ tail) :
    find header mark start = none :=
  find_eq_none (here ▸ free)

theorem lineEnd_eq (here : header.drop start = tail) (closed : lf ∈ tail) :
    lineEnd header start = some (start + (upTo queryEnds tail).length) := by
  unfold lineEnd queryEnds
  by_cases inside : cr ∈ tail
  · rw [find_eq_before here inside, Option.some_or, upTo_of_mem inside]
  · rw [find_eq_none_of_notMem here inside, Option.none_or, find_eq_before here closed,
      upTo_of_notMem inside, upTo_of_mem closed]

/-- A line end stands behind what the last search has cut off. -/
theorem exists_upTo_queryEnds (closed : lf ∈ tail) :
    ∃ rest, tail = upTo queryEnds tail ++ rest ∧ (rest.head? = some cr ∨ rest.head? = some lf) := by
  have listed : lf ∈ queryEnds := by simp [queryEnds]
  obtain ⟨earlier, mark, later, back, isEnds, _, _, split⟩ := exists_of_mem_marks listed closed
  have isEnd : mark ∈ queryEnds := isEnds ▸ List.mem_append_right earlier List.mem_cons_self
  refine ⟨mark :: back, split, ?_⟩
  simpa [queryEnds] using isEnd

theorem parseQuery_eq (request : Request) (here : request.header.drop start = tail) (closed : lf ∈ tail) :
    parseQuery request start = some { request with query := upTo queryEnds tail } := by
  obtain ⟨rest, split, _⟩ := exists_upTo_queryEnds closed
  have slice := substr_eq (here.trans split)
  simp only [parseQuery, lineEnd_eq here closed, slice, Option.bind_eq_bind, Option.bind_some,
    Option.pure_def]

end Searches

/-! ### The components -/

/-- How `parsePath` cuts the text from a `/` on. -/
structure PathCut (tail path query rest : Bytes) : Prop where
  whole : tail = path ++ (query ++ rest)
  pathEnd : path = upTo pathEnds tail
  queryShape : query = [] ∧ question ∉ tail ∨
    query.head? = some question ∧ query = upTo queryEnds (query ++ rest)
  lineEnd : rest.head? = some cr ∨ rest.head? = some lf

section Components

variable {request : Request} {tail : Bytes} {start : Nat}

theorem lf_mem_of_closed {front back : Bytes} {letter : Byte}
    (closed : (front ++ letter :: back).getLast? = some lf) : lf ∈ letter :: back := by
  rw [List.getLast?_append_cons] at closed
  exact List.mem_of_getLast? closed

/-- The query, from its `?` on, and what follows it. -/
theorem exists_query {back : Bytes} (closed : lf ∈ question :: back) :
    ∃ query rest, question :: back = query ++ rest ∧ query = upTo queryEnds (question :: back) ∧
      query.head? = some question ∧ (rest.head? = some cr ∨ rest.head? = some lf) := by
  obtain ⟨rest, split, lineEnd⟩ := exists_upTo_queryEnds closed
  exact ⟨_, rest, split, rfl, head?_upTo (by decide) back, lineEnd⟩

/-- **The path and the query follow each other.** -/
theorem parsePath_slices (here : request.header.drop start = tail) (closed : tail.getLast? = some lf) :
    ∃ path query rest, PathCut tail path query rest ∧
      parsePath request start = some { request with path, query } := by
  have inside : lf ∈ tail := List.mem_of_getLast? closed
  unfold parsePath
  by_cases questioned : question ∈ tail
  · obtain ⟨path, back, rfl, free⟩ := List.eq_append_cons_of_mem questioned
    have closedQuery : lf ∈ question :: back := lf_mem_of_closed closed
    obtain ⟨query, rest, split, isQuery, head, lineEnd⟩ := exists_query closedQuery
    refine ⟨path, query, rest, ⟨by rw [split], ?_, .inr ⟨head, by rw [← split]; exact isQuery⟩,
      lineEnd⟩, ?_⟩
    · rw [pathEnds, upTo_of_mem questioned, before_append_cons free]
    · have slice := substr_eq here
      rw [find_eq_some here free]
      simp only [parseQuery_eq request (drop_add_length here) closedQuery, slice, ← isQuery,
        Option.bind_eq_bind, Option.bind_some, Option.pure_def]
  · obtain ⟨rest, split, lineEnd⟩ := exists_upTo_queryEnds inside
    refine ⟨upTo queryEnds tail, [], rest, ⟨split, ?_, .inl ⟨rfl, questioned⟩, lineEnd⟩, ?_⟩
    · rw [pathEnds, upTo_of_notMem questioned, queryEnds]
    · have slice := substr_eq (here.trans split)
      rw [find_eq_none_of_notMem here questioned]
      simp only [lineEnd_eq here inside, slice, Option.bind_eq_bind, Option.bind_some,
        Option.pure_def]

/-- **The component, the path and the query follow each other.** -/
theorem parseAfter_slices (here : request.header.drop start = tail) (closed : tail.getLast? = some lf) :
    ∃ component path query rest, Cut tail component path query rest ∧
      parseAfter request start =
        some ({ request with path, query }, start + component.length) := by
  have inside : lf ∈ tail := List.mem_of_getLast? closed
  unfold parseAfter
  by_cases slashed : slash ∈ tail
  · obtain ⟨component, back, rfl, free⟩ := List.eq_append_cons_of_mem slashed
    rw [List.getLast?_append_cons] at closed
    obtain ⟨path, query, rest, cut, parsed⟩ := parsePath_slices (drop_add_length here) closed
    have rooted : path.head? = some slash := by
      rw [cut.pathEnd]
      exact head?_upTo (by decide) back
    refine ⟨component, path, query, rest, ⟨by rw [cut.whole], ?_, .inr ⟨rooted, ?_⟩, ?_,
      cut.lineEnd⟩, ?_⟩
    · rw [componentEnds, upTo_of_mem slashed, before_append_cons free]
    · rw [← cut.whole]
      exact cut.pathEnd
    · refine cut.queryShape.imp_left fun absent => ⟨absent.1, ?_, ?_⟩
      · have free := absent.2
        rwa [cut.whole, absent.1, List.nil_append] at free
      · rintro rfl
        cases rooted
    · rw [find_eq_some here free]
      simp only [parsed, Option.map_some]
  · rw [find_eq_none_of_notMem here slashed]
    by_cases questioned : question ∈ tail
    · obtain ⟨component, back, rfl, free⟩ := List.eq_append_cons_of_mem questioned
      have closedQuery : lf ∈ question :: back := lf_mem_of_closed closed
      obtain ⟨query, rest, split, isQuery, head, lineEnd⟩ := exists_query closedQuery
      refine ⟨component, [], query, rest, ⟨by rw [split]; rfl, ?_, .inl ⟨rfl, slashed⟩,
        .inr ⟨head, by rw [← split]; exact isQuery⟩, lineEnd⟩, ?_⟩
      · rw [componentEnds, upTo_of_notMem slashed, upTo_of_mem questioned, before_append_cons free]
      · have parsed := parseQuery_eq { request with path := [] } (drop_add_length here) closedQuery
        simp only [find_eq_some here free, parsed, ← isQuery, Option.map_some]
    · obtain ⟨rest, split, lineEnd⟩ := exists_upTo_queryEnds inside
      refine ⟨upTo queryEnds tail, [], [], rest, ⟨split, ?_, .inl ⟨rfl, slashed⟩,
        .inl ⟨rfl, fun later => questioned ?_, fun _ => questioned⟩, lineEnd⟩, ?_⟩
      · rw [componentEnds, upTo_of_notMem slashed, upTo_of_notMem questioned, queryEnds]
      · rw [split]
        exact List.mem_append_right _ later
      · simp only [find_eq_none_of_notMem here questioned, lineEnd_eq here inside, Option.map_some]

end Components

/-! ### The whole header -/

/-- The consecutive slices of a header; `port` is what is read as the port where a colon follows the
marker. -/
structure Slices where
  scheme : Bytes
  host : Bytes
  port : Option Bytes
  path : Bytes
  query : Bytes
  rest : Bytes

namespace Slices

/-- The slices behind the host, or behind the port. -/
def after (slices : Slices) : Bytes := slices.path ++ (slices.query ++ slices.rest)

/-- The port with its colon. -/
def portText (slices : Slices) : Bytes :=
  match slices.port with
  | none => []
  | some port => colon :: port

/-- The slices one after the other. -/
def text (slices : Slices) : Bytes :=
  slices.scheme ++ (marker ++ (slices.host ++ (slices.portText ++ slices.after)))

/-- The port that is stored. -/
def portNumber (slices : Slices) : Nat :=
  match slices.port with
  | none => defaultPort
  | some port => (atoi port).toNat

/-- The slices are cut at the first marker, at the first colon behind it, and by the searches. -/
structure Exact (slices : Slices) : Prop where
  schemeFirst : SchemeFirst slices.scheme
  located : match slices.port with
    | none => colon ∉ slices.host ++ slices.after ∧
        Cut (slices.host ++ slices.after) slices.host slices.path slices.query slices.rest
    | some port => colon ∉ slices.host ∧
        Cut (port ++ slices.after) port slices.path slices.query slices.rest

theorem Exact.lineEnd {slices : Slices} (exact : slices.Exact) :
    slices.rest.head? = some cr ∨ slices.rest.head? = some lf := by
  have located := exact.located
  cases port : slices.port with
  | none =>
    rw [port] at located
    exact located.2.lineEnd
  | some port' =>
    rw [port] at located
    exact located.2.lineEnd

end Slices

/-- The stored fields are the slices. -/
def Request.store (request : Request) (slices : Slices) : Request :=
  { request with
    host := slices.host, port := slices.portNumber, path := slices.path, query := slices.query }

section Headers

variable {request : Request} {scheme tail : Bytes}

theorem not_isInfix_of_findText_eq_none {header : Bytes} (missing : findText header marker 0 = none) :
    ¬ marker <:+: header := by
  intro inside
  have isSome := (findText_isSome_iff header marker 0).mpr ⟨Nat.zero_le _, inside⟩
  rw [missing] at isSome
  cases isSome

/-- The marker does not end in LF, so that the LF at the end stands behind it. -/
theorem getLast?_tail {header : Bytes} (shape : header = scheme ++ (marker ++ tail))
    (closed : header.getLast? = some lf) : tail.getLast? = some lf := by
  rw [shape, ← List.append_assoc] at closed
  cases tail with
  | nil =>
    rw [List.append_nil, List.getLast?_append_of_ne_nil _ (by decide)] at closed
    exact absurd closed (by decide)
  | cons letter rest => rwa [List.getLast?_append_cons] at closed

/-- **Without a colon** every header with a marker is accepted. -/
theorem parseHost_withoutColon (first : SchemeFirst scheme)
    (shape : request.header = scheme ++ (marker ++ tail)) (closed : tail.getLast? = some lf)
    (noColon : colon ∉ tail) :
    ∃ slices : Slices, slices.Exact ∧ request.header = slices.text ∧
      parseHost request = some (request.store slices) := by
  have here : request.header.drop (scheme.length + 3) = tail := drop_marker shape
  obtain ⟨host, path, query, rest, cut, parsed⟩ :=
    @parseAfter_slices { request with port := defaultPort } _ _ here closed
  have slice := substr_eq (here.trans cut.whole)
  refine ⟨⟨scheme, host, none, path, query, rest⟩, ⟨first, ?_, ?_⟩, ?_, ?_⟩
  · exact cut.whole ▸ noColon
  · exact cut.whole ▸ cut
  · rw [shape, cut.whole]
    rfl
  · simp only [parseHost, shape, findText_marker first, Option.bind_eq_bind, Option.bind_some]
    simp only [← shape, find_eq_none_of_notMem here noColon, parsed, slice, Option.bind_some,
      Option.pure_def]
    rfl

/-- **With a colon** a header is accepted when the port is in range. -/
theorem parseHost_withColon {host behind : Bytes} (first : SchemeFirst scheme)
    (shape : request.header = scheme ++ (marker ++ (host ++ colon :: behind)))
    (closed : (host ++ colon :: behind).getLast? = some lf) (free : colon ∉ host) :
    ∃ slices : Slices, slices.Exact ∧ request.header = slices.text ∧
      parseHost request =
        if atoi (upTo componentEnds behind) ≤ 0 ∨ 65535 < atoi (upTo componentEnds behind) then none
        else some (request.store slices) := by
  have here : request.header.drop (scheme.length + 3) = host ++ colon :: behind := drop_marker shape
  have hereBehind : request.header.drop (scheme.length + 3 + host.length + 1) = behind :=
    drop_behind here
  have closedBehind : behind.getLast? = some lf := by
    rw [List.getLast?_append_cons] at closed
    cases behind with
    | nil => exact absurd closed (by decide)
    | cons letter rest => rwa [List.getLast?_cons_cons] at closed
  obtain ⟨port, path, query, rest, cut, parsed⟩ := parseAfter_slices hereBehind closedBehind
  have slicePort := substr_eq (hereBehind.trans cut.whole)
  have sliceHost := substr_eq here
  refine ⟨⟨scheme, host, some port, path, query, rest⟩, ⟨first, free, ?_⟩, ?_, ?_⟩
  · exact cut.whole ▸ cut
  · rw [shape, cut.whole]
    rfl
  · rw [← cut.componentEnd]
    simp only [parseHost, shape, findText_marker first, Option.bind_eq_bind, Option.bind_some]
    simp only [← shape, find_eq_some here free, parsePort, parsed, slicePort,
      Option.bind_eq_bind, Option.bind_some, Option.pure_def]
    by_cases outside : atoi port ≤ 0 ∨ 65535 < atoi port
    · rw [if_pos outside, if_pos outside, Option.bind_none]
    · rw [if_neg outside, if_neg outside, Option.bind_some]
      simp only [sliceHost]
      rfl

end Headers

/-- **The parser splits a header without loss.** A header that ends in LF is accepted if and only if
it holds the marker and, where a colon follows the marker, the number of the text behind the first
such colon, up to what ends it, is a port. The stored fields are then consecutive slices of the header,
from the first marker to a CR or an LF, whatever the fields held before. -/
theorem parseHost_slices (request : Request) (closed : request.header.getLast? = some lf) :
    ((parseHost request).isSome = true ↔
      marker <:+: request.header ∧
        ∀ host behind, behindMarker request.header = host ++ colon :: behind → colon ∉ host →
          1 ≤ atoi (upTo componentEnds behind) ∧ atoi (upTo componentEnds behind) ≤ 65535) ∧
    ∀ parsed, parseHost request = some parsed →
      ∃ slices : Slices, slices.Exact ∧ request.header = slices.text ∧
        (slices.rest.head? = some cr ∨ slices.rest.head? = some lf) ∧
        parsed = request.store slices := by
  cases found : findText request.header marker 0 with
  | none =>
    have refused : parseHost request = none := by
      rw [parseHost, found]
      rfl
    rw [refused]
    exact ⟨iff_of_false (by decide) fun held => not_isInfix_of_findText_eq_none found held.1,
      fun parsed accepted => absurd accepted.symm (Option.some_ne_none parsed)⟩
  | some offset =>
    obtain ⟨scheme, tail, shape, first, rfl⟩ := exists_of_findText_marker found
    have inside : marker <:+: request.header := ⟨scheme, tail, by rw [shape, List.append_assoc]⟩
    have isBehind : behindMarker request.header = tail := by rw [shape, behindMarker_eq first]
    have closedTail := getLast?_tail shape closed
    rw [isBehind, and_iff_right inside]
    rcases notMem_or_exists_first colon tail with noColon | ⟨host, behind, rfl, free⟩
    · obtain ⟨slices, exact, whole, accepted⟩ := parseHost_withoutColon first shape closedTail noColon
      rw [accepted]
      refine ⟨iff_of_true rfl fun host behind split _ => ?_, fun parsed stored =>
        ⟨slices, exact, whole, exact.lineEnd, (Option.some.inj stored).symm⟩⟩
      exact absurd (split ▸ List.mem_append_right host List.mem_cons_self) noColon
    · obtain ⟨slices, exact, whole, accepted⟩ := parseHost_withColon first shape closedTail free
      rw [accepted, forall_behind_iff free fun behind =>
        1 ≤ atoi (upTo componentEnds behind) ∧ atoi (upTo componentEnds behind) ≤ 65535]
      split
      · next outside =>
        refine ⟨iff_of_false Bool.false_ne_true (by omega), fun parsed stored => ?_⟩
        cases stored
      · next inRange =>
        exact ⟨iff_of_true rfl (by omega), fun parsed stored =>
          ⟨slices, exact, whole, exact.lineEnd, (Option.some.inj stored).symm⟩⟩

/-- No stale field survives, also where the first `/` stands behind a CR. -/
theorem parseHost_slices_stale :
    ∃ slices : Slices, slices.Exact ∧ text "gemini://host:1965\r/a:b?c\r\n" = slices.text ∧
      (slices.rest.head? = some cr ∨ slices.rest.head? = some lf) ∧
      (⟨text "gemini://host:1965\r/a:b?c\r\n", text "host", 1965, text "/a:b", text "?c"⟩ : Request) =
        (⟨text "gemini://host:1965\r/a:b?c\r\n", text "x", 7, text "/old", text "?old"⟩ :
          Request).store slices :=
  (parseHost_slices ⟨text "gemini://host:1965\r/a:b?c\r\n", text "x", 7, text "/old", text "?old"⟩
    (by decide)).2 _ (by decide)

end GemCaps
