/-
**Replies, as a client takes them apart.**

A reply is a line with a number, a blank and the meta text, and behind the line end the body.
`Reply.parse` takes the first line end and the first blank in front of it, so that what it reads has no
line end in its meta text (`parse_noLineEnd`), and it reads back what is written exactly when the meta
text has none (`parse_header_iff`). For `CachedData::generateResponse` this is `parse_generate_iff`.
-/

import GemCaps.Cache.Store
import GemCaps.Request.Number

namespace GemCaps

open StringLiteral

variable {bytes front metaText body : Bytes}

/-! ### Numbers -/

/-- The value of a text of digits. -/
def natural (letters : Bytes) : Option Nat :=
  if letters ≠ [] ∧ letters.all isDigit then some (digitsValue letters) else none

/-- The value of a text of digits, with a minus in front or not. -/
def number : Bytes → Option Int
  | [] => none
  | letter :: rest =>
    if letter = minus then (natural rest).map fun value : Nat => -(value : Int)
    else (natural (letter :: rest)).map fun value : Nat => (value : Int)

theorem natural_decimal (value : Nat) : natural (decimal value) = some value := by
  obtain ⟨areDigits, isValue⟩ := decimal_spec value
  have all : (decimal value).all isDigit = true := List.all_eq_true.mpr areDigits
  rw [natural, if_pos ⟨decimal_ne_nil value, all⟩, isValue]

theorem number_signed (value : Int) : number (signed value) = some value := by
  unfold signed
  by_cases negative : value < 0
  · rw [if_pos negative, number, if_pos rfl, natural_decimal, Option.map_some]
    congr 1
    omega
  · rw [if_neg negative]
    cases letters : decimal value.natAbs with
    | nil => exact absurd letters (decimal_ne_nil _)
    | cons letter rest =>
      have isDigit : isDigit letter = true :=
        (decimal_spec value.natAbs).1 letter (letters ▸ List.mem_cons_self)
      have notMinus : letter ≠ minus := ne_of_isDigit isDigit (by decide)
      rw [number, if_neg notMinus, ← letters, natural_decimal, Option.map_some]
      congr 1
      omega

theorem notMem_signed {mark : Byte} (notDigit : isDigit mark = false) (notMinus : mark ≠ minus)
    (value : Int) : mark ∉ signed value := by
  have free : mark ∉ decimal value.natAbs := fun inside =>
    ne_of_isDigit ((decimal_spec value.natAbs).1 mark inside) notDigit rfl
  unfold signed
  split
  · exact fun inside => (List.mem_cons.mp inside).elim notMinus free
  · exact free

/-! ### The first line end -/

/-- The first line end stands behind a text that has none. -/
theorem search_crlf (noLineEnd : ¬ crlf <:+: front) (back : Bytes) :
    search crlf (front ++ (crlf ++ back)) = some front.length := by
  refine (search_eq_some_iff crlf _ _).mpr ⟨?_, ?_, ?_⟩
  · rw [List.drop_left]
    exact List.prefix_append crlf back
  · rw [List.length_append]
    exact Nat.le_add_right _ _
  · rintro earlier before ⟨rest, here⟩
    -- An earlier line end is one of the text, or starts at its last letter and would need a CR to be an LF.
    have split : front = front.take earlier ++ front.drop earlier :=
      (List.take_append_drop earlier front).symm
    rw [List.drop_append_of_le_length (Nat.le_of_lt before)] at here
    cases left : front.drop earlier with
    | nil => exact absurd (List.drop_eq_nil_iff.mp left) (Nat.not_le_of_lt before)
    | cons first others =>
      rw [left] at here
      cases others with
      | nil =>
        have second := (List.cons.inj (List.cons.inj here).2).1
        exact absurd second (by decide)
      | cons second others =>
        have isFirst := (List.cons.inj here).1
        have isSecond := (List.cons.inj (List.cons.inj here).2).1
        refine noLineEnd ⟨front.take earlier, others, ?_⟩
        conv_rhs => rw [split, left, ← isFirst, ← isSecond]
        simp [crlf]

/-- What stands in front of the first line end has none. -/
theorem not_infix_take {stop : Nat} (found : search crlf bytes = some stop) :
    ¬ crlf <:+: bytes.take stop := by
  rintro ⟨front, back, split⟩
  obtain ⟨_, inside, first⟩ := (search_eq_some_iff crlf bytes stop).mp found
  have length := congrArg List.length split
  rw [List.length_take_of_le inside, List.length_append, List.length_append] at length
  have two : crlf.length = 2 := rfl
  refine first front.length (by omega) ⟨back ++ bytes.drop stop, ?_⟩
  conv_rhs => rw [← List.take_append_drop stop bytes, ← split]
  rw [List.append_assoc, List.append_assoc, List.drop_left]

/-! ### The whole reply -/

/-- A reply. -/
structure Reply where
  status : Int
  metaText : Bytes
  body : Bytes
deriving DecidableEq

namespace Reply

/-- What a client makes of the bytes it has received. -/
def parse (bytes : Bytes) : Option Reply :=
  (search crlf bytes).bind fun stop =>
    (find (bytes.take stop) space 0).bind fun gap =>
      (number ((bytes.take stop).take gap)).map fun status =>
        ⟨status, (bytes.take stop).drop (gap + 1), bytes.drop (stop + 2)⟩

/-- **A parsed reply** has no line end in its meta text. -/
theorem parse_noLineEnd {reply : Reply} (parsed : parse bytes = some reply) :
    ¬ crlf <:+: reply.metaText := by
  obtain ⟨stop, found, rest⟩ := Option.bind_eq_some_iff.mp parsed
  obtain ⟨gap, _, read⟩ := Option.bind_eq_some_iff.mp rest
  obtain ⟨status, _, rfl⟩ := Option.map_eq_some_iff.mp read
  intro inside
  exact not_infix_take found (inside.trans (List.drop_suffix _ _).isInfix)

/-- **Reading back**: a number, a blank, a meta text without line ends, CRLF and a body. -/
theorem parse_header (status : Int) (noLineEnd : ¬ crlf <:+: metaText) (body : Bytes) :
    parse (signed status ++ space :: (metaText ++ (crlf ++ body))) =
      some ⟨status, metaText, body⟩ := by
  have noBlank : space ∉ signed status := notMem_signed (by decide) (by decide) status
  have noCr : cr ∉ signed status := notMem_signed (by decide) (by decide) status
  -- The line end is in the meta text if it is in the line: a CR is not in front of it.
  have noEarlier : ¬ crlf <:+: signed status ++ space :: metaText := by
    rintro ⟨front, back, split⟩
    rw [List.append_assoc] at split
    rcases List.append_eq_append_iff.mp split with ⟨more, isNumber, isRest⟩ | ⟨more, isFront, isMeta⟩
    · cases more with
      | nil => exact absurd (List.cons.inj isRest).1 (by decide)
      | cons letter more =>
        have isCr := (List.cons.inj isRest).1
        exact noCr (isNumber ▸ List.mem_append_right _ (isCr ▸ List.mem_cons_self))
    · cases more with
      | nil => exact absurd (List.cons.inj isMeta).1 (by decide)
      | cons letter more =>
        refine noLineEnd ⟨more, back, ?_⟩
        rw [List.append_assoc]
        exact (List.cons.inj isMeta).2.symm
  have line : signed status ++ space :: (metaText ++ (crlf ++ body)) =
      (signed status ++ space :: metaText) ++ (crlf ++ body) := by
    rw [List.append_assoc, List.cons_append]
  have blank : find (signed status ++ space :: metaText) space 0 =
      some (0 + (signed status).length) := find_eq_some rfl noBlank
  have behind : ((signed status ++ space :: metaText) ++ (crlf ++ body)).drop
      ((signed status ++ space :: metaText).length + 2) = body := by
    rw [← List.drop_drop, List.drop_left]
    rfl
  rw [parse, line, search_crlf noEarlier, Option.bind_some, List.take_left, blank, Option.bind_some,
    Nat.zero_add, List.take_left, number_signed, Option.map_some, drop_front, behind]

/-- **What is read back exactly**: a header whose meta text has no line end. -/
theorem parse_header_iff (status : Int) (metaText body : Bytes) :
    parse (signed status ++ space :: (metaText ++ (crlf ++ body))) =
        some ⟨status, metaText, body⟩ ↔
      ¬ crlf <:+: metaText :=
  ⟨fun parsed => parse_noLineEnd parsed, fun noLineEnd => parse_header status noLineEnd body⟩

end Reply

namespace CachedData

/-- `generateResponse()`. -/
def generateResponse (data : CachedData) : Bytes :=
  signed data.response ++ space :: (data.metaText ++ (crlf ++
    if 20 ≤ data.response ∧ data.response ≤ 29 then data.body else []))

/-- **What a client reads from a cached response**: its code, its meta text, and its body where the
code is one of success; exactly if the meta text has no line end. -/
theorem parse_generate_iff (data : CachedData) :
    Reply.parse data.generateResponse =
        some ⟨data.response, data.metaText,
          if 20 ≤ data.response ∧ data.response ≤ 29 then data.body else []⟩ ↔
      ¬ crlf <:+: data.metaText :=
  Reply.parse_header_iff data.response data.metaText _

end CachedData

end GemCaps
