/-
**The request parser** (`manager.cpp`, `parseHost` and the functions it calls).

Each function searches the header from a position on for the delimiters in a fixed order and stores
the slices in the request. `none` stands for `return false`: the caller then crashes the connection
and never looks at the request again.
-/

import GemCaps.Text

namespace GemCaps

/-- `struct Request`. -/
structure Request where
  header : Bytes := []
  host : Bytes := []
  port : Nat := 0
  path : Bytes := []
  query : Bytes := []
deriving DecidableEq

/-- The port of a request that names none. -/
def defaultPort : Nat := 1965

/-- What separates the scheme from the host. -/
def marker : Bytes := text "://"

/-- The end of the last component: the first CR, or else the first LF. -/
def lineEnd (header : Bytes) (start : Nat) : Option Nat :=
  (find header cr start).or (find header lf start)

/-- `parseQuery(request, start)`. -/
def parseQuery (request : Request) (start : Nat) : Option Request := do
  let stop ← lineEnd request.header start
  return { request with query := substr request.header start (stop - start) }

/-- `parsePath(request, start)`. -/
def parsePath (request : Request) (start : Nat) : Option Request :=
  match find request.header question start with
  | some stop => do
    let request ← parseQuery request stop
    return { request with path := substr request.header start (stop - start) }
  | none => do
    let request := { request with query := [] }
    let stop ← lineEnd request.header start
    return { request with path := substr request.header start (stop - start) }

/-- The part that `parseHost` and `parsePort` share: the end of the component that starts at
`start`, and the request with path and query stored. -/
def parseAfter (request : Request) (start : Nat) : Option (Request × Nat) :=
  match find request.header slash start with
  | some stop => (parsePath request stop).map (·, stop)
  | none =>
    let request := { request with path := [] }
    match find request.header question start with
    | some stop => (parseQuery request stop).map (·, stop)
    | none =>
      let request := { request with query := [] }
      (lineEnd request.header start).map (request, ·)

/-- `parsePort(request, start)`. -/
def parsePort (request : Request) (start : Nat) : Option Request := do
  let (request, stop) ← parseAfter request start
  let port := atoi (substr request.header start (stop - start))
  if port ≤ 0 ∨ 65535 < port then none
  else return { request with port := port.toNat }

/-- `parseHost(request)`. -/
def parseHost (request : Request) : Option Request := do
  let start := (← findText request.header marker 0) + 3
  match find request.header colon start with
  | some stop =>
    let request ← parsePort request (stop + 1)
    return { request with host := substr request.header start (stop - start) }
  | none =>
    let (request, stop) ← parseAfter { request with port := defaultPort } start
    return { request with host := substr request.header start (stop - start) }

/-! ### Where a component ends -/

variable {request parsed : Request} {start stop : Nat}

/-- The bytes at which a component after the host can end. -/
def isEnd (letter : Byte) : Bool :=
  letter == slash || letter == question || letter == cr || letter == lf

theorem isEnd_of_isDigit {letter : Byte} (digit : isDigit letter = true) : isEnd letter = false := by
  have other : ∀ mark, isDigit mark = false → letter ≠ mark := fun _ => ne_of_isDigit digit
  simp [isEnd, other slash (by decide), other question (by decide), other cr (by decide),
    other lf (by decide)]

/-- A found line end is a CR or an LF. -/
theorem exists_of_lineEnd {header : Bytes} (found : lineEnd header start = some stop) :
    ∃ front mark back, header.drop start = front ++ mark :: back ∧ (mark = cr ∨ mark = lf) ∧
      stop = start + front.length := by
  unfold lineEnd at found
  cases foundCr : find header cr start with
  | some stopCr =>
    rw [foundCr, Option.some_or, Option.some.injEq] at found
    obtain ⟨front, back, here, _, isStop⟩ := exists_of_find_eq_some foundCr
    exact ⟨front, cr, back, here, Or.inl rfl, found ▸ isStop⟩
  | none =>
    rw [foundCr, Option.none_or] at found
    obtain ⟨front, back, here, _, isStop⟩ := exists_of_find_eq_some found
    exact ⟨front, lf, back, here, Or.inr rfl, isStop⟩

theorem parseQuery_eq_some (accepted : parseQuery request start = some parsed) :
    ∃ query, parsed = { request with query } := by
  obtain ⟨stop, _, stored⟩ := Option.bind_eq_some_iff.mp accepted
  exact ⟨_, (Option.some.inj stored).symm⟩

/-- `parsePath` stores path and query; the path starts at the cursor and ends before an end byte other
than `/`. -/
theorem parsePath_eq_some (accepted : parsePath request start = some parsed) :
    ∃ path query mark back, parsed = { request with path, query } ∧
      request.header.drop start = path ++ mark :: back ∧ mark ≠ slash := by
  unfold parsePath at accepted
  cases foundQuery : find request.header question start with
  | some stop =>
    rw [foundQuery] at accepted
    obtain ⟨front, back, here, _, rfl⟩ := exists_of_find_eq_some foundQuery
    obtain ⟨middle, storedQuery, stored⟩ := Option.bind_eq_some_iff.mp accepted
    obtain ⟨query, rfl⟩ := parseQuery_eq_some storedQuery
    rw [substr_eq here] at stored
    exact ⟨front, query, question, back, (Option.some.inj stored).symm, here, by decide⟩
  | none =>
    rw [foundQuery] at accepted
    obtain ⟨stop, foundEnd, stored⟩ := Option.bind_eq_some_iff.mp accepted
    obtain ⟨front, mark, back, here, isMark, rfl⟩ := exists_of_lineEnd foundEnd
    rw [substr_eq here] at stored
    refine ⟨front, [], mark, back, (Option.some.inj stored).symm, here, ?_⟩
    rcases isMark with rfl | rfl <;> decide

/-- `parseAfter` stores path and query, and the component ends at an end byte. The path is empty where
the rest of the header has no `/`; else the component ends at the first one, and the path starts there
and ends before another byte. -/
theorem parseAfter_eq_some (accepted : parseAfter request start = some (parsed, stop)) :
    ∃ path query front mark back, parsed = { request with path, query } ∧
      request.header.drop start = front ++ mark :: back ∧ isEnd mark = true ∧
      stop = start + front.length ∧
      (slash ∉ request.header.drop start ∧ path = [] ∨
        ∃ other later, mark :: back = path ++ other :: later ∧ path.head? = some slash) := by
  unfold parseAfter at accepted
  cases foundPath : find request.header slash start with
  | some stopPath =>
    rw [foundPath] at accepted
    obtain ⟨front, back, here, _, rfl⟩ := exists_of_find_eq_some foundPath
    obtain ⟨stored, accepted', same⟩ := Option.map_eq_some_iff.mp accepted
    obtain ⟨path, query, other, later, rfl, behind, notSlash⟩ := parsePath_eq_some accepted'
    obtain ⟨rfl, rfl⟩ := Prod.mk.inj same
    rw [drop_add_length here] at behind
    refine ⟨path, query, front, slash, back, rfl, here, rfl, rfl, .inr ⟨other, later, behind, ?_⟩⟩
    cases path with
    | nil => exact absurd (List.cons.inj behind).1.symm notSlash
    | cons letter path => exact congrArg some (List.cons.inj behind).1.symm
  | none =>
    have noSlash := find_eq_none_iff.mp foundPath
    rw [foundPath] at accepted
    cases foundQuery : find request.header question start with
    | some stopQuery =>
      simp only [foundQuery] at accepted
      obtain ⟨front, back, here, _, rfl⟩ := exists_of_find_eq_some foundQuery
      obtain ⟨stored, accepted', same⟩ := Option.map_eq_some_iff.mp accepted
      obtain ⟨query, rfl⟩ := parseQuery_eq_some accepted'
      obtain ⟨rfl, rfl⟩ := Prod.mk.inj same
      exact ⟨[], query, front, question, back, rfl, here, rfl, rfl, .inl ⟨noSlash, rfl⟩⟩
    | none =>
      simp only [foundQuery] at accepted
      obtain ⟨stopLine, foundEnd, same⟩ := Option.map_eq_some_iff.mp accepted
      obtain ⟨front, mark, back, here, isMark, rfl⟩ := exists_of_lineEnd foundEnd
      obtain ⟨rfl, rfl⟩ := Prod.mk.inj same
      refine ⟨[], [], front, mark, back, rfl, here, ?_, rfl, .inl ⟨noSlash, rfl⟩⟩
      rcases isMark with rfl | rfl <;> rfl

/-- A `/` in the rest of the header makes the path not empty. -/
theorem path_ne_nil {rest tail path : Bytes}
    (shape : slash ∉ rest ∧ path = [] ∨
      ∃ other later, tail = path ++ other :: later ∧ path.head? = some slash)
    (inside : slash ∈ rest) : path ≠ [] := by
  rcases shape with ⟨absent, _⟩ | ⟨_, _, _, rooted⟩
  · exact absurd inside absent
  · rintro rfl
    cases rooted

end GemCaps
