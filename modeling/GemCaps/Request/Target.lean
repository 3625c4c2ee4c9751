/-
**A request for a target on the same host.**

A link target that starts with `/` is requested by writing it behind the scheme and the authority of
the page it stands on. `reading` says what the parser makes of that line: without a written port it
takes the first `:` of the target for the one before a port, and it ends the path at the first `?`,
or else at the first CR.

* `parseHost_requestLine`: the parser stores the host and the path of `reading`, and rejects the
  line where there is none.
* `reading_of_plain`: a target without these letters is the path.
* `length_reading_of_colon`, `clear_of_length_le`: a target with one of them becomes a shorter path.
-/

import GemCaps.Request.Uri

namespace GemCaps

open Cutting

/-- The authority of a URI. The port is kept as the digits it is written with. -/
structure Authority where
  host : Bytes
  port : Option Bytes
  hostPlain : ∀ letter ∈ host, isDelimiter letter = false
  portDigits : ∀ digits ∈ port, ∀ digit ∈ digits, isDigit digit = true
  portRange : ∀ digits ∈ port, 1 ≤ digitsValue digits ∧ digitsValue digits ≤ 65535

def Uri.authority (uri : Uri) : Authority :=
  ⟨uri.host, uri.port, uri.hostPlain, uri.portDigits, uri.portRange⟩

/-- The port with its colon. -/
def Authority.portText (authority : Authority) : Bytes :=
  match authority.port with
  | none => []
  | some digits => colon :: digits

/-- The request line for a target. -/
def requestLine (authority : Authority) (target : Bytes) : Bytes :=
  text "gemini" ++ (marker ++ (authority.host ++ (authority.portText ++ (target ++ crlf))))

/-! ### What the parser reads -/

/-- The path at the start of a text: up to the first `?`, or else up to the first CR. -/
def pathPart (rest : Bytes) : Bytes :=
  if question ∈ rest then before question rest else before cr rest

/-- The component before path and query: up to the first `/`, or else `?`, or else CR. -/
def frontPart (rest : Bytes) : Bytes :=
  if slash ∈ rest then before slash rest
  else if question ∈ rest then before question rest else before cr rest

/-- The path behind that component. -/
def pathBehind (rest : Bytes) : Bytes :=
  if slash ∈ rest then pathPart (slash :: behind slash rest) else []

/-- The host and the path that the parser reads in the request for a target. -/
def reading (authority : Authority) (target : Bytes) : Option (Bytes × Bytes) :=
  if authority.port = none ∧ colon ∈ target then
    let port := atoi (frontPart (behind colon target))
    if port ≤ 0 ∨ 65535 < port then none
    else some (authority.host ++ before colon target, pathBehind (behind colon target))
  else some (authority.host, pathPart target)

section Cut

variable {header rest : Bytes} {request : Request} {start : Nat}

/-- A letter that the text before the CRLF holds. -/
theorem find_cut {letter : Byte} (here : header.drop start = rest ++ crlf)
    (inside : letter ∈ rest) :
    find header letter start = some (start + (before letter rest).length) := by
  obtain ⟨front, back, rfl, free⟩ := List.eq_append_cons_of_mem inside
  rw [List.append_assoc, List.cons_append] at here
  rw [find_eq_some here free, before_append_cons free]

/-- A letter that neither the text nor the CRLF holds. -/
theorem find_cut_none {letter : Byte} (here : header.drop start = rest ++ crlf)
    (outside : letter ∉ rest) (notEnd : letter ∉ crlf) : find header letter start = none := by
  refine find_eq_none ?_
  rw [here, List.mem_append, not_or]
  exact ⟨outside, notEnd⟩

/-- The line ends at the first CR. -/
theorem lineEnd_cut (here : header.drop start = rest ++ crlf) :
    lineEnd header start = some (start + (before cr rest).length) := by
  unfold lineEnd
  by_cases inside : cr ∈ rest
  · rw [find_cut here inside, Option.some_or]
  · rw [find_eq_some here inside, Option.some_or, before_of_notMem inside]

/-- What is cut off at a letter. -/
theorem substr_cut (letter : Byte) (here : header.drop start = rest ++ crlf) :
    substr header start (start + (before letter rest).length - start) = before letter rest := by
  obtain ⟨tail, whole⟩ := before_isPrefix letter rest
  have shape : header.drop start = before letter rest ++ (tail ++ crlf) := by
    rw [here, ← List.append_assoc, whole]
  exact substr_eq shape

theorem parseQuery_cut (here : request.header.drop start = rest ++ crlf) :
    ∃ query, parseQuery request start = some { request with query } := by
  refine ⟨before cr rest, ?_⟩
  simp only [parseQuery, lineEnd_cut here, Option.bind_eq_bind, Option.bind_some,
    substr_cut cr here]
  rfl

theorem parsePath_cut (here : request.header.drop start = rest ++ crlf) :
    ∃ query, parsePath request start = some { request with path := pathPart rest, query } := by
  by_cases inside : question ∈ rest
  · obtain ⟨tail, whole⟩ := before_isPrefix question rest
    have atQuery : request.header.drop (start + (before question rest).length) = tail ++ crlf := by
      refine drop_add_length ?_
      rw [here, ← List.append_assoc, whole]
    obtain ⟨query, stored⟩ := parseQuery_cut atQuery
    refine ⟨query, ?_⟩
    simp only [parsePath, find_cut here inside, stored, Option.bind_eq_bind, Option.bind_some,
      substr_cut question here, pathPart, if_pos inside]
    rfl
  · refine ⟨[], ?_⟩
    simp only [parsePath, find_cut_none here inside (by decide), lineEnd_cut here,
      Option.bind_eq_bind, Option.bind_some, substr_cut cr here, pathPart, if_neg inside]
    rfl

/-- **The part that `parseHost` and `parsePort` share**, on any text before the CRLF. -/
theorem parseAfter_cut (here : request.header.drop start = rest ++ crlf) :
    ∃ query, parseAfter request start =
      some ({ request with path := pathBehind rest, query }, start + (frontPart rest).length) := by
  by_cases atSlash : slash ∈ rest
  · obtain ⟨front, back, rfl, free⟩ := List.eq_append_cons_of_mem atSlash
    have atPath : request.header.drop (start + (before slash (front ++ slash :: back)).length) =
        (slash :: back) ++ crlf := by
      refine drop_add_length ?_
      rw [here, before_append_cons free, List.append_assoc]
    obtain ⟨query, stored⟩ := parsePath_cut atPath
    refine ⟨query, ?_⟩
    simp only [parseAfter, find_cut here atSlash, stored, Option.map_some, pathBehind, frontPart,
      if_pos atSlash, behind_append_cons free]
  · by_cases atQuestion : question ∈ rest
    · obtain ⟨tail, whole⟩ := before_isPrefix question rest
      have atQuery : ({ request with path := [] } : Request).header.drop
          (start + (before question rest).length) = tail ++ crlf := by
        refine drop_add_length ?_
        rw [here, ← List.append_assoc, whole]
      obtain ⟨query, stored⟩ := parseQuery_cut atQuery
      refine ⟨query, ?_⟩
      simp only [parseAfter, find_cut_none here atSlash (by decide), find_cut here atQuestion,
        stored, Option.map_some, pathBehind, frontPart, if_neg atSlash, if_pos atQuestion]
    · refine ⟨[], ?_⟩
      simp only [parseAfter, find_cut_none here atSlash (by decide),
        find_cut_none here atQuestion (by decide), lineEnd_cut here, Option.map_some, pathBehind,
        frontPart, if_neg atSlash, if_neg atQuestion]

/-- What `parseAfter` skips is the component. -/
theorem substr_frontPart (here : header.drop start = rest ++ crlf) :
    substr header start (start + (frontPart rest).length - start) = frontPart rest := by
  unfold frontPart
  split
  · exact substr_cut slash here
  · split
    · exact substr_cut question here
    · exact substr_cut cr here

/-- `parsePort` on any text before the CRLF. -/
theorem parsePort_cut (here : request.header.drop start = rest ++ crlf) :
    ∃ query, parsePort request start =
      if atoi (frontPart rest) ≤ 0 ∨ 65535 < atoi (frontPart rest) then none
      else some { request with
        port := (atoi (frontPart rest)).toNat, path := pathBehind rest, query } := by
  obtain ⟨query, stored⟩ := parseAfter_cut here
  refine ⟨query, ?_⟩
  simp only [parsePort, stored, Option.bind_eq_bind, Option.bind_some, substr_frontPart here]
  rfl

end Cut

/-! ### The request line -/

section Line

variable (authority : Authority) {target : Bytes}

theorem host_noColon : colon ∉ authority.host := fun inside => by
  simpa [isDelimiter] using authority.hostPlain colon inside

theorem host_noEnd {letter : Byte} (ends : isEnd letter = true) : letter ∉ authority.host :=
  fun inside => by simpa [isDelimiter, ends] using authority.hostPlain letter inside

/-- A text that starts with `/` behind a component without one. -/
theorem pathBehind_append {front : Bytes} (free : slash ∉ front)
    (rooted : target.head? = some slash) : pathBehind (front ++ target) = pathPart target := by
  obtain ⟨rest, rfl⟩ := List.head?_eq_some_iff.mp rooted
  rw [pathBehind, if_pos (by simp), behind_append_cons free]

theorem frontPart_append {front : Bytes} (free : slash ∉ front)
    (rooted : target.head? = some slash) : frontPart (front ++ target) = front := by
  obtain ⟨rest, rfl⟩ := List.head?_eq_some_iff.mp rooted
  rw [frontPart, if_pos (by simp), before_append_cons free]

/-- The line behind its marker. -/
theorem drop_requestLine (target : Bytes) :
    (requestLine authority target).drop ((text "gemini").length + 3) =
      authority.host ++ (authority.portText ++ (target ++ crlf)) := drop_marker rfl

theorem findText_requestLine (target : Bytes) :
    findText (requestLine authority target) marker 0 = some (text "gemini").length :=
  findText_marker (schemeFirst_of_noColon (by decide)) _

/-- Behind the first colon the parser reads a port. -/
theorem parseHost_of_colon {host rest : Bytes}
    (shape : authority.host ++ (authority.portText ++ (target ++ crlf)) =
      host ++ colon :: (rest ++ crlf)) (free : colon ∉ host) :
    (parseHost { header := requestLine authority target }).map
        (fun request => (request.host, request.path)) =
      if atoi (frontPart rest) ≤ 0 ∨ 65535 < atoi (frontPart rest) then none
      else some (host, pathBehind rest) := by
  have atHost := (drop_requestLine authority target).trans shape
  have atPort : ({ header := requestLine authority target } : Request).header.drop
      ((text "gemini").length + 3 + host.length + 1) = rest ++ crlf := drop_behind atHost
  obtain ⟨query, stored⟩ := parsePort_cut atPort
  have isHost := substr_eq atHost
  simp only [parseHost, findText_requestLine, find_eq_some atHost free, stored,
    Option.bind_eq_bind, Option.bind_some]
  split
  · rfl
  · rw [Option.bind_some, isHost]
    rfl

/-- Without a colon the host reaches to the path. -/
theorem parseHost_of_noColon (rooted : target.head? = some slash) (noPort : authority.port = none)
    (outside : colon ∉ target) :
    (parseHost { header := requestLine authority target }).map
        (fun request => (request.host, request.path)) =
      some (authority.host, pathPart target) := by
  have shape : authority.host ++ (authority.portText ++ (target ++ crlf)) =
      (authority.host ++ target) ++ crlf := by
    simp [Authority.portText, noPort]
  have atHost := (drop_requestLine authority target).trans shape
  have absent : find (requestLine authority target) colon ((text "gemini").length + 3) = none := by
    refine find_cut_none atHost ?_ (by decide)
    rw [List.mem_append, not_or]
    exact ⟨host_noColon authority, outside⟩
  have atHost' : ({ header := requestLine authority target, port := defaultPort } :
      Request).header.drop ((text "gemini").length + 3) = (authority.host ++ target) ++ crlf :=
    atHost
  obtain ⟨query, stored⟩ := parseAfter_cut atHost'
  have isHost := substr_frontPart atHost
  have noSlash : slash ∉ authority.host := host_noEnd authority rfl
  rw [frontPart_append noSlash rooted] at stored isHost
  rw [pathBehind_append noSlash rooted] at stored
  simp only [parseHost, findText_requestLine, absent, stored, Option.bind_eq_bind,
    Option.bind_some, isHost]
  rfl

/-- **What the parser makes of a request line**: host and path are those of `reading`. -/
theorem parseHost_requestLine (rooted : target.head? = some slash) :
    (parseHost { header := requestLine authority target }).map
        (fun request => (request.host, request.path)) = reading authority target := by
  have noColon := host_noColon authority
  cases isPort : authority.port with
  | some digits =>
    have areDigits := authority.portDigits digits isPort
    have range := authority.portRange digits isPort
    have nonempty : digits ≠ [] := fun empty => by
      rw [empty] at range
      exact absurd range.1 (by decide)
    have digitsFree : slash ∉ digits := fun inside =>
      absurd (areDigits slash inside) (by decide)
    have value : atoi digits = digitsValue digits := atoi_of_digits areDigits nonempty (by omega)
    have shape : authority.host ++ (authority.portText ++ (target ++ crlf)) =
        authority.host ++ colon :: ((digits ++ target) ++ crlf) := by
      simp [Authority.portText, isPort]
    have isReading : reading authority target = some (authority.host, pathPart target) := by
      rw [reading, if_neg (by simp [isPort])]
    rw [parseHost_of_colon authority shape noColon, frontPart_append digitsFree rooted,
      pathBehind_append digitsFree rooted, value, if_neg (by omega), isReading]
  | none =>
    by_cases inside : colon ∈ target
    · obtain ⟨front, back, rfl, free⟩ := List.eq_append_cons_of_mem inside
      have shape : authority.host ++ (authority.portText ++ ((front ++ colon :: back) ++ crlf)) =
          (authority.host ++ front) ++ colon :: (back ++ crlf) := by
        simp [Authority.portText, isPort]
      have hostFree : colon ∉ authority.host ++ front := by
        rw [List.mem_append, not_or]
        exact ⟨noColon, free⟩
      have isReading : reading authority (front ++ colon :: back) =
          if atoi (frontPart back) ≤ 0 ∨ 65535 < atoi (frontPart back) then none
          else some (authority.host ++ front, pathBehind back) := by
        rw [reading, if_pos ⟨isPort, inside⟩, before_append_cons free, behind_append_cons free]
      rw [parseHost_of_colon authority shape hostFree, isReading]
    · have isReading : reading authority target = some (authority.host, pathPart target) := by
        rw [reading, if_neg fun both => inside both.2]
      rw [parseHost_of_noColon authority rooted isPort inside, isReading]

/-! ### What is left of a target -/

/-- A target that holds none of the letters the parser stops at is the path. -/
theorem reading_of_plain (noQuestion : question ∉ target) (noCr : cr ∉ target)
    (noColon : authority.port ≠ none ∨ colon ∉ target) :
    reading authority target = some (authority.host, target) := by
  have clear : ¬ (authority.port = none ∧ colon ∈ target) := fun both =>
    noColon.elim (fun port => port both.1) fun free => free both.2
  rw [reading, if_neg clear, pathPart, if_neg noQuestion, before_of_notMem noCr]

theorem pathPart_isPrefix (rest : Bytes) : pathPart rest <+: rest := by
  unfold pathPart
  split <;> exact before_isPrefix _ _

theorem length_pathBehind_le (rest : Bytes) : (pathBehind rest).length ≤ rest.length := by
  unfold pathBehind
  by_cases inside : slash ∈ rest
  · rw [if_pos inside]
    obtain ⟨front, back, rfl, free⟩ := List.eq_append_cons_of_mem inside
    have short := (pathPart_isPrefix (slash :: back)).length_le
    rw [behind_append_cons free, List.length_append]
    omega
  · rw [if_neg inside]
    exact Nat.zero_le _

/-- The path is empty or starts at a `/`. -/
theorem reading_rooted {host path : Bytes} (rooted : target.head? = some slash)
    (isReading : reading authority target = some (host, path)) :
    path = [] ∨ path.head? = some slash := by
  have starts : ∀ rest, (pathPart (slash :: rest)).head? = some slash := by
    intro rest
    unfold pathPart
    split
    · exact congrArg List.head? (before_append_of_notMem (show question ∉ [slash] by decide) rest)
    · exact congrArg List.head? (before_append_of_notMem (show cr ∉ [slash] by decide) rest)
  unfold reading at isReading
  split at isReading
  · simp only [Option.ite_none_left_eq_some, Option.some.injEq, Prod.mk.injEq] at isReading
    obtain ⟨_, _, rfl⟩ := isReading
    unfold pathBehind
    split
    · exact .inr (starts _)
    · exact .inl rfl
  · obtain ⟨rest, rfl⟩ := List.head?_eq_some_iff.mp rooted
    obtain ⟨_, rfl⟩ := Prod.mk.inj (Option.some.inj isReading)
    exact .inr (starts rest)

/-- **A `:` that is taken for the one before a port** costs the path at least two letters. -/
theorem length_reading_of_colon {host path : Bytes} (rooted : target.head? = some slash)
    (noPort : authority.port = none) (inside : colon ∈ target)
    (isReading : reading authority target = some (host, path)) :
    path.length + 2 ≤ target.length := by
  rw [reading, if_pos ⟨noPort, inside⟩] at isReading
  simp only [Option.ite_none_left_eq_some, Option.some.injEq, Prod.mk.injEq] at isReading
  obtain ⟨_, _, rfl⟩ := isReading
  obtain ⟨front, back, rfl, free⟩ := List.eq_append_cons_of_mem inside
  have short := length_pathBehind_le back
  have started : front ≠ [] := by
    rintro rfl
    exact absurd (Option.some.inj rooted) (by decide)
  have positive := List.length_pos_iff.mpr started
  rw [behind_append_cons free, List.length_append, List.length_cons]
  omega

/-- **A path that reaches over a front** of its target was not cut there: the front holds no `?`
and no CR. -/
theorem clear_of_length_le {host path front back : Bytes} (isTarget : target <+: front ++ back)
    (noBreak : question ∉ back) (noReading : ¬ (authority.port = none ∧ colon ∈ target))
    (isReading : reading authority target = some (host, path))
    (long : front.length ≤ path.length) : front <+: target ∧ question ∉ front ∧ cr ∉ front := by
  rw [reading, if_neg noReading] at isReading
  obtain ⟨_, rfl⟩ := Prod.mk.inj (Option.some.inj isReading)
  have isPart := pathPart_isPrefix target
  have reaches : front <+: pathPart target :=
    List.prefix_of_prefix_length_le (List.prefix_append front back) (isPart.trans isTarget) long
  have noQuestion : question ∉ target := by
    intro inside
    have inFront : question ∈ front :=
      (List.mem_append.mp (isTarget.subset inside)).resolve_right noBreak
    have cut := reaches.subset inFront
    rw [pathPart, if_pos inside] at cut
    exact mark_notMem_before question target cut
  refine ⟨reaches.trans isPart, fun inside => ?_, fun inside => ?_⟩
  · exact noQuestion (isPart.subset (reaches.subset inside))
  · have cut := reaches.subset inside
    rw [pathPart, if_neg noQuestion] at cut
    exact mark_notMem_before cr target cut

end Line

end GemCaps
