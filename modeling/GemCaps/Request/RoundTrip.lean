/-
**Parsing a rendered request.**

`parseHost_render_iff`: on the text of a `Uri`, the parser stores exactly the host, port, path and
query of the `Uri` if and only if no `:` and no `/` of a later component is taken for the delimiter
of an earlier one: either the port is written, or path and query hold no `:`; and either the path is
not empty, or the query holds no `/`. The parser searches the whole rest of the header for a `:`
before it looks for the end of the host, and for a `/` before it looks for the start of the query.
-/

import GemCaps.Request.Uri

namespace GemCaps

variable {request parsed : Request} {start : Nat}

/-! ### Each function on the text of its component -/

theorem lineEnd_render {header front : Bytes} (here : header.drop start = front ++ crlf)
    (noCr : cr ∉ front) : lineEnd header start = some (start + front.length) := by
  rw [lineEnd, find_eq_some here noCr, Option.some_or]

theorem parseQuery_render {query : Bytes} (here : request.header.drop start = query ++ crlf)
    (noCr : cr ∉ query) : parseQuery request start = some { request with query } := by
  rw [parseQuery, lineEnd_render here noCr]
  simp only [Option.bind_eq_bind, Option.bind_some, substr_eq here]
  rfl

theorem parsePath_render {path query : Bytes}
    (here : request.header.drop start = path ++ (query ++ crlf)) (noQuestion : question ∉ path)
    (noCrPath : cr ∉ path) (noCrQuery : cr ∉ query)
    (shape : query = [] ∨ query.head? = some question) :
    parsePath request start = some { request with path, query } := by
  cases query with
  | nil =>
    have noQuestion' : question ∉ request.header.drop start := by
      rw [here]
      simp [noQuestion, show question ∉ crlf by decide]
    have atEnd := lineEnd_render here noCrPath
    simp only [parsePath, find_eq_none noQuestion', atEnd, Option.bind_eq_bind, Option.bind_some,
      substr_eq here]
    rfl
  | cons letter rest =>
    obtain rfl : letter = question := by simpa using shape
    have found := find_eq_some here noQuestion
    have stored := parseQuery_render (drop_add_length here) noCrQuery
    simp only [parsePath, found, stored, Option.bind_eq_bind, Option.bind_some, substr_eq here]
    rfl

/-- The shared part of `parseHost` and `parsePort`, on the text of a component that is followed by
path and query: a `/` in the query must not come first. -/
theorem parseAfter_render {front path query : Bytes}
    (here : request.header.drop start = front ++ (path ++ (query ++ crlf)))
    (plain : ∀ letter ∈ front, isEnd letter = false) (noQuestion : question ∉ path)
    (noCrPath : cr ∉ path) (noCrQuery : cr ∉ query)
    (pathShape : path = [] ∨ path.head? = some slash)
    (queryShape : query = [] ∨ query.head? = some question)
    (noSlash : path = [] → slash ∉ query) :
    parseAfter request start = some ({ request with path, query }, start + front.length) := by
  have absent : ∀ letter, isEnd letter = true → letter ∉ front := fun letter ends inside => by
    rw [plain letter inside] at ends
    cases ends
  cases path with
  | cons letter rest =>
    obtain rfl : letter = slash := by simpa using pathShape
    have found := find_eq_some here (absent slash rfl)
    have stored := parsePath_render (drop_add_length here) noQuestion noCrPath noCrQuery queryShape
    simp only [parseAfter, found, stored, Option.map_some]
  | nil =>
    have slashFree : slash ∉ request.header.drop start := by
      rw [here]
      simp [absent slash rfl, noSlash rfl, show slash ∉ crlf by decide]
    cases query with
    | cons letter rest =>
      obtain rfl : letter = question := by simpa using queryShape
      have found := find_eq_some here (absent question rfl)
      have stored : parseQuery { request with path := [] } (start + front.length) =
          some { request with path := [], query := question :: rest } :=
        parseQuery_render (drop_add_length here) noCrQuery
      simp only [parseAfter, find_eq_none slashFree, found, stored, Option.map_some]
    | nil =>
      have questionFree : question ∉ request.header.drop start := by
        rw [here]
        simp [absent question rfl, show question ∉ crlf by decide]
      have atEnd := lineEnd_render here (absent cr rfl)
      simp only [parseAfter, find_eq_none slashFree, find_eq_none questionFree, atEnd,
        Option.map_some]

/-! ### The whole header -/

namespace Uri

variable (uri : Uri)

theorem path_noQuestion : question ∉ uri.path := fun inside =>
  (uri.pathPlain question inside).1 rfl

theorem path_noCr : cr ∉ uri.path := fun inside => (uri.pathPlain cr inside).2.1 rfl

theorem query_noCr : cr ∉ uri.query := fun inside => (uri.queryPlain cr inside).1 rfl

theorem host_noColon : colon ∉ uri.host := fun inside => by
  simpa [isDelimiter] using uri.hostPlain colon inside

theorem host_noEnd : ∀ letter ∈ uri.host, isEnd letter = false := fun letter inside => by
  have plain := uri.hostPlain letter inside
  simp only [isDelimiter, Bool.or_eq_false_iff] at plain
  exact plain.2

/-- The text of a URI behind its scheme and marker. -/
theorem drop_render (lineEnd : Bytes) :
    (uri.render lineEnd).drop (uri.scheme.length + 3) = uri.renderTail lineEnd := drop_marker rfl

end Uri

/-- A header is parsed with the fields of a URI. -/
def ParsesTo (header : Bytes) (uri : Uri) : Prop :=
  ∀ fresh : Request, ∃ request, parseHost { fresh with header } = some request ∧
    request.host = uri.host ∧ request.port = uri.portNumber ∧ request.path = uri.path ∧
    request.query = uri.query

section Forward

variable {uri : Uri}

/-- A written port: the first colon behind the marker is the one before the port. -/
theorem parsesTo_of_port {digits : Bytes} (isPort : uri.port = some digits)
    (noSlash : uri.path = [] → slash ∉ uri.query) : ParsesTo (uri.render crlf) uri := by
  intro fresh
  have range := uri.portRange digits isPort
  have areDigits := uri.portDigits digits isPort
  have nonempty : digits ≠ [] := fun empty => by
    rw [empty] at range
    exact absurd range.1 (by decide)
  have atHost : (uri.render crlf).drop (uri.scheme.length + 3) =
      uri.host ++ colon :: (digits ++ (uri.path ++ (uri.query ++ crlf))) := by
    rw [uri.drop_render, Uri.renderTail, Uri.portText, isPort, List.cons_append]
  have atPort : (uri.render crlf).drop (uri.scheme.length + 3 + uri.host.length + 1) =
      digits ++ (uri.path ++ (uri.query ++ crlf)) := drop_behind atHost
  have foundMarker : findText (uri.render crlf) marker 0 = some uri.scheme.length :=
    findText_marker uri.schemeFirst (uri.renderTail crlf)
  have foundColon := find_eq_some atHost uri.host_noColon
  have value : atoi digits = digitsValue digits := atoi_of_digits areDigits nonempty (by omega)
  have inRange : ¬ ((digitsValue digits : Int) ≤ 0 ∨ 65535 < (digitsValue digits : Int)) := by omega
  have storedAfter : parseAfter { fresh with header := uri.render crlf }
      (uri.scheme.length + 3 + uri.host.length + 1) = _ := parseAfter_render atPort
    (fun digit inside => isEnd_of_isDigit (areDigits digit inside)) uri.path_noQuestion
    uri.path_noCr uri.query_noCr uri.pathShape uri.queryShape noSlash
  have storedPort : parsePort { fresh with header := uri.render crlf }
      (uri.scheme.length + 3 + uri.host.length + 1) =
        some ⟨uri.render crlf, fresh.host, digitsValue digits, uri.path, uri.query⟩ := by
    simp only [parsePort, storedAfter, Option.bind_eq_bind, Option.bind_some, substr_eq atPort,
      value, if_neg inRange, Int.toNat_natCast]
    rfl
  refine ⟨⟨uri.render crlf, uri.host, digitsValue digits, uri.path, uri.query⟩, ?_, rfl, ?_, rfl,
    rfl⟩
  · simp only [parseHost, foundMarker, foundColon, storedPort, Option.bind_eq_bind,
      Option.bind_some, substr_eq atHost]
    rfl
  · simp only [Uri.portNumber, isPort]

/-- No port: there must be no colon at all behind the host. -/
theorem parsesTo_of_noPort (noPort : uri.port = none) (noColon : colon ∉ uri.path ++ uri.query)
    (noSlash : uri.path = [] → slash ∉ uri.query) : ParsesTo (uri.render crlf) uri := by
  intro fresh
  have atHost : (uri.render crlf).drop (uri.scheme.length + 3) =
      uri.host ++ (uri.path ++ (uri.query ++ crlf)) := by
    rw [uri.drop_render, Uri.renderTail, Uri.portText, noPort, List.nil_append]
  have foundMarker : findText (uri.render crlf) marker 0 = some uri.scheme.length :=
    findText_marker uri.schemeFirst (uri.renderTail crlf)
  have foundColon : find (uri.render crlf) colon (uri.scheme.length + 3) = none := by
    refine find_eq_none ?_
    rw [atHost, ← List.append_assoc uri.path]
    simp only [List.mem_append, not_or] at noColon ⊢
    exact ⟨uri.host_noColon, noColon, by decide⟩
  have storedAfter : parseAfter { fresh with header := uri.render crlf, port := defaultPort }
      (uri.scheme.length + 3) = _ := parseAfter_render atHost
    uri.host_noEnd uri.path_noQuestion uri.path_noCr uri.query_noCr uri.pathShape uri.queryShape
    noSlash
  refine ⟨⟨uri.render crlf, uri.host, defaultPort, uri.path, uri.query⟩, ?_, rfl, ?_, rfl, rfl⟩
  · simp only [parseHost, foundMarker, foundColon, storedAfter, Option.bind_eq_bind,
      Option.bind_some, substr_eq atHost]
    rfl
  · simp only [Uri.portNumber, noPort]

end Forward

section Backward

variable {uri : Uri}

/-- What stands behind the host never starts with a colon when the port is omitted. -/
theorem tail_ne_colon (uri : Uri) (back : Bytes) :
    uri.path ++ (uri.query ++ crlf) ≠ colon :: back := by
  intro same
  have head : (uri.path ++ (uri.query ++ crlf)).head? = some colon := congrArg List.head? same
  rcases uri.pathShape with empty | atSlash
  · rcases uri.queryShape with empty' | atQuestion
    · rw [empty, empty'] at head
      exact absurd head (by decide)
    · rw [empty, List.nil_append, List.head?_append, atQuestion, Option.some_or] at head
      exact absurd head (by decide)
  · rw [List.head?_append, atSlash, Option.some_or] at head
    exact absurd head (by decide)

/-- The fields that the parser stores, on the text of a URI. -/
theorem ParsesTo.inversion (parses : ParsesTo (uri.render crlf) uri) :
    ∃ path, path = uri.path ∧
      ((∃ back, uri.renderTail crlf = uri.host ++ colon :: back ∧ (slash ∈ back → path ≠ [])) ∨
        (colon ∉ uri.renderTail crlf ∧ (slash ∈ uri.renderTail crlf → path ≠ []))) := by
  obtain ⟨request, accepted, sameHost, _, samePath, _⟩ := parses {}
  obtain ⟨scheme, rest, host, path, query, shape, first, cases⟩ := parseHost_eq_some accepted
  obtain ⟨_, rfl⟩ := marker_unique uri.schemeFirst first shape
  rcases cases with ⟨portText, mark, back, isRest, _, _, _, _, rfl, filled⟩ |
    ⟨mark, back, isRest, noColon, _, rfl, filled⟩
  · obtain rfl : host = uri.host := sameHost
    exact ⟨path, samePath, Or.inl ⟨_, isRest, filled⟩⟩
  · exact ⟨path, samePath, Or.inr ⟨noColon, filled⟩⟩

/-- An omitted port and a colon behind the host: the host is cut too late. -/
theorem ParsesTo.noColon (parses : ParsesTo (uri.render crlf) uri) (noPort : uri.port = none) :
    colon ∉ uri.path ++ uri.query := by
  have isTail : uri.renderTail crlf = uri.host ++ (uri.path ++ (uri.query ++ crlf)) := by
    rw [Uri.renderTail, Uri.portText, noPort, List.nil_append]
  obtain ⟨path, _, ⟨back, isRest, _⟩ | ⟨noColon, _⟩⟩ := parses.inversion
  · rw [isTail, List.append_cancel_left_eq] at isRest
    exact absurd isRest (tail_ne_colon uri back)
  · rw [isTail, ← List.append_assoc uri.path] at noColon
    intro inside
    exact noColon (List.mem_append_right _ (List.mem_append_left _ inside))

/-- A slash in the query and no path: the parser finds a path in the query. -/
theorem ParsesTo.noSlash (parses : ParsesTo (uri.render crlf) uri) (noPath : uri.path = []) :
    slash ∉ uri.query := by
  intro inside
  have inTail : slash ∈ uri.renderTail crlf := by
    simp [Uri.renderTail, inside]
  obtain ⟨path, rfl, ⟨back, isRest, filled⟩ | ⟨_, filled⟩⟩ := parses.inversion
  · rw [isRest] at inTail
    rcases List.mem_append.mp inTail with inHost | inBack
    · exact absurd (uri.host_noEnd slash inHost) (by decide)
    · rcases List.mem_cons.mp inBack with same | inBack
      · exact absurd same (by decide)
      · exact filled inBack noPath
  · exact filled inTail noPath

end Backward

/-- **Parsing undoes rendering exactly when no delimiter is mistaken.** -/
theorem parseHost_render_iff (uri : Uri) :
    ParsesTo (uri.render crlf) uri ↔
      (uri.port.isSome ∨ colon ∉ uri.path ++ uri.query) ∧
        (uri.path ≠ [] ∨ slash ∉ uri.query) := by
  constructor
  · intro parses
    constructor
    · cases isPort : uri.port with
      | some digits => exact Or.inl rfl
      | none => exact Or.inr (parses.noColon isPort)
    · by_cases noPath : uri.path = []
      · exact Or.inr (parses.noSlash noPath)
      · exact Or.inl noPath
  · rintro ⟨portOrNoColon, pathOrNoSlash⟩
    have noSlash : uri.path = [] → slash ∉ uri.query := fun empty =>
      pathOrNoSlash.resolve_left fun filled => filled empty
    cases isPort : uri.port with
    | some digits => exact parsesTo_of_port isPort noSlash
    | none =>
      rw [isPort] at portOrNoColon
      exact parsesTo_of_noPort isPort (portOrNoColon.resolve_left (by decide)) noSlash

/-- `gemini://h/a:b`: a colon in the path and no port. -/
def colonUri : Uri where
  scheme := text "gemini"
  host := text "h"
  port := none
  path := text "/a:b"
  query := []
  schemeFirst := by decide
  hostPlain := List.all_iff_forall_prop.mp (by decide)
  portDigits := by decide
  portRange := by decide
  pathShape := by decide
  pathPlain := List.all_iff_forall_prop.mp (by decide)
  queryShape := by decide
  queryPlain := List.all_iff_forall_prop.mp (by decide)

/-- The parser takes the colon in the path for the one before a port, and rejects the request. -/
theorem parseHost_colonUri :
    colonUri.render crlf = text "gemini://h/a:b\r\n" ∧
      parseHost { header := colonUri.render crlf } = none ∧
      ¬ ParsesTo (colonUri.render crlf) colonUri := by
  have rejected : parseHost { header := colonUri.render crlf } = none := by decide
  refine ⟨by decide, rejected, fun parses => ?_⟩
  obtain ⟨request, accepted, _⟩ := parses {}
  rw [rejected] at accepted
  cases accepted

end GemCaps
