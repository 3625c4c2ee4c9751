/-
**Response headers** (`handler.hpp`, `stringutil.hpp`).

A `StringLiteral` is a C string that grows at its end; the text of a header is therefore the code, a
blank, the meta text up to its first NUL, and CRLF.
-/

import GemCaps.Request.Uri

namespace GemCaps

/-- The response codes the server sends. -/
def resSuccess : Nat := 20
def resRedirectPerm : Nat := 31
def resServerUnavail : Nat := 41
def resErrorCgi : Nat := 42
def resNotFound : Nat := 51
def resGone : Nat := 52

/-- `responseHeader(response, meta)`: what `buf` holds up to `length()`. -/
def responseHeader (response : Nat) (metaText : Bytes) : Bytes :=
  decimal response ++ space :: (cStr metaText ++ crlf)

example : responseHeader resNotFound (text "Illegal File") = text "51 Illegal File\r\n" := by decide

end GemCaps
