/-
**The table of MIME types** (`MimeTypes.cpp`).

`getType` searches the extension in the table by bisection, `getExtension` goes through the table from
its first entry. Both compare with `strcmpi`, which looks at the letters through the bit that tells
upper from lower case (`strcmpi_eq_zero_iff`), and so cannot tell apart two texts that differ in that
bit only (`strcmpi_congr`). Whether `char` has a sign is left to the compiler: `signed`.
-/

import GemCaps.Library.Probing
import GemCaps.Files.MimeTypes

namespace GemCaps

open Cutting

/-- A string literal: its bytes up to the first NUL. -/
def CString.ofLiteral (literal : String) : CString :=
  ⟨cStr literal.toByteArray.data.toList, noNul_cStr _⟩

namespace MimeTypes

/-- `MimeTypes::entry`. -/
structure Entry where
  fileExtension : CString
  mimeType : CString

/-- The initializers of `MimeTypes::types`. -/
def initializers : List (String × String) :=
  [("*3gpp", "audio/3gpp"), ("*jpm", "video/jpm"), ("*mp3", "audio/mp3"), ("*rtf", "text/rtf"),
   ("*wav", "audio/wave"), ("*xml", "text/xml"), ("3g2", "video/3gpp2"), ("3gp", "video/3gpp"),
   ("3gpp", "video/3gpp"), ("ac", "application/pkix-attr-cert"), ("adp", "audio/adpcm"),
   ("ai", "application/postscript"), ("apng", "image/apng"), ("appcache", "text/cache-manifest"),
   ("asc", "application/pgp-signature"), ("atom", "application/atom+xml"),
   ("atomcat", "application/atomcat+xml"), ("atomsvc", "application/atomsvc+xml"),
   ("au", "audio/basic"), ("aw", "application/applixware"), ("bdoc", "application/bdoc"),
   ("bin", "application/octet-stream"), ("bmp", "image/bmp"), ("bpk", "application/octet-stream"),
   ("buffer", "application/octet-stream"), ("ccxml", "application/ccxml+xml"),
   ("cdmia", "application/cdmi-capability"), ("cdmic", "application/cdmi-container"),
   ("cdmid", "application/cdmi-domain"), ("cdmio", "application/cdmi-object"),
   ("cdmiq", "application/cdmi-queue"), ("cer", "application/pkix-cert"), ("cgm", "image/cgm"),
   ("class", "application/java-vm"), ("coffee", "text/coffeescript"), ("conf", "text/plain"),
   ("cpt", "application/mac-compactpro"), ("crl", "application/pkix-crl"), ("css", "text/css"),
   ("csv", "text/csv"), ("cu", "application/cu-seeme"), ("davmount", "application/davmount+xml"),
   ("dbk", "application/docbook+xml"), ("deb", "application/octet-stream"), ("def", "text/plain"),
   ("deploy", "application/octet-stream"),
   ("disposition-notification", "message/disposition-notification"),
   ("dist", "application/octet-stream"), ("distz", "application/octet-stream"),
   ("dll", "application/octet-stream"), ("dmg", "application/octet-stream"),
   ("dms", "application/octet-stream"), ("doc", "application/msword"),
   ("dot", "application/msword"), ("drle", "image/dicom-rle"), ("dssc", "application/dssc+der"),
   ("dtd", "application/xml-dtd"), ("dump", "application/octet-stream"),
   ("ear", "application/java-archive"), ("ecma", "application/ecmascript"),
   ("elc", "application/octet-stream"), ("emf", "image/emf"), ("eml", "message/rfc822"),
   ("emma", "application/emma+xml"), ("eps", "application/postscript"),
   ("epub", "application/epub+zip"), ("es", "application/ecmascript"),
   ("exe", "application/octet-stream"), ("exi", "application/exi"), ("exr", "image/aces"),
   ("ez", "application/andrew-inset"), ("fits", "image/fits"), ("g3", "image/g3fax"),
   ("gbr", "application/rpki-ghostbusters"), ("geojson", "application/geo+json"),
   ("gemini", "text/gemini"), ("gif", "image/gif"), ("glb", "model/gltf-binary"),
   ("gltf", "model/gltf+json"), ("gml", "application/gml+xml"), ("gmi", "text/gemini"),
   ("gpx", "application/gpx+xml"), ("gram", "application/srgs"), ("grxml", "application/srgs+xml"),
   ("gxf", "application/gxf"), ("gz", "application/gzip"), ("h261", "video/h261"),
   ("h263", "video/h263"), ("h264", "video/h264"), ("heic", "image/heic"),
   ("heics", "image/heic-sequence"), ("heif", "image/heif"), ("heifs", "image/heif-sequence"),
   ("hjson", "application/hjson"), ("hlp", "application/winhlp"),
   ("hqx", "application/mac-binhex40"), ("htm", "text/html"), ("html", "text/html"),
   ("ics", "text/calendar"), ("ief", "image/ief"), ("ifb", "text/calendar"), ("iges", "model/iges"),
   ("igs", "model/iges"), ("img", "application/octet-stream"), ("in", "text/plain"),
   ("ini", "text/plain"), ("ink", "application/inkml+xml"), ("inkml", "application/inkml+xml"),
   ("ipfix", "application/ipfix"), ("iso", "application/octet-stream"), ("jade", "text/jade"),
   ("jar", "application/java-archive"), ("jls", "image/jls"), ("jp2", "image/jp2"),
   ("jpe", "image/jpeg"), ("jpeg", "image/jpeg"), ("jpf", "image/jpx"), ("jpg", "image/jpeg"),
   ("jpg2", "image/jp2"), ("jpgm", "video/jpm"), ("jpgv", "video/jpeg"), ("jpm", "image/jpm"),
   ("jpx", "image/jpx"), ("js", "application/javascript"), ("json", "application/json"),
   ("json5", "application/json5"), ("jsonld", "application/ld+json"),
   ("jsonml", "application/jsonml+json"), ("jsx", "text/jsx"), ("kar", "audio/midi"),
   ("ktx", "image/ktx"), ("less", "text/less"), ("list", "text/plain"),
   ("litcoffee", "text/coffeescript"), ("log", "text/plain"), ("lostxml", "application/lost+xml"),
   ("lrf", "application/octet-stream"), ("m1v", "video/mpeg"), ("m21", "application/mp21"),
   ("m2a", "audio/mpeg"), ("m2v", "video/mpeg"), ("m3a", "audio/mpeg"), ("m4a", "audio/mp4"),
   ("m4p", "application/mp4"), ("ma", "application/mathematica"), ("mads", "application/mads+xml"),
   ("man", "text/troff"), ("manifest", "text/cache-manifest"), ("map", "application/json"),
   ("mar", "application/octet-stream"), ("markdown", "text/markdown"),
   ("mathml", "application/mathml+xml"), ("mb", "application/mathematica"),
   ("mbox", "application/mbox"), ("md", "text/markdown"), ("me", "text/troff"),
   ("mesh", "model/mesh"), ("meta4", "application/metalink4+xml"),
   ("metalink", "application/metalink+xml"), ("mets", "application/mets+xml"),
   ("mft", "application/rpki-manifest"), ("mid", "audio/midi"), ("midi", "audio/midi"),
   ("mime", "message/rfc822"), ("mj2", "video/mj2"), ("mjp2", "video/mj2"),
   ("mjs", "application/javascript"), ("mml", "text/mathml"), ("mods", "application/mods+xml"),
   ("mov", "video/quicktime"), ("mp2", "audio/mpeg"), ("mp21", "application/mp21"),
   ("mp2a", "audio/mpeg"), ("mp3", "audio/mpeg"), ("mp4", "video/mp4"), ("mp4a", "audio/mp4"),
   ("mp4s", "application/mp4"), ("mp4v", "video/mp4"), ("mpd", "application/dash+xml"),
   ("mpe", "video/mpeg"), ("mpeg", "video/mpeg"), ("mpg", "video/mpeg"), ("mpg4", "video/mp4"),
   ("mpga", "audio/mpeg"), ("mrc", "application/marc"), ("mrcx", "application/marcxml+xml"),
   ("ms", "text/troff"), ("mscml", "application/mediaservercontrol+xml"), ("msh", "model/mesh"),
   ("msi", "application/octet-stream"), ("msm", "application/octet-stream"),
   ("msp", "application/octet-stream"), ("mxf", "application/mxf"), ("mxml", "application/xv+xml"),
   ("n3", "text/n3"), ("nb", "application/mathematica"), ("oda", "application/oda"),
   ("oga", "audio/ogg"), ("ogg", "audio/ogg"), ("ogv", "video/ogg"), ("ogx", "application/ogg"),
   ("omdoc", "application/omdoc+xml"), ("onepkg", "application/onenote"),
   ("onetmp", "application/onenote"), ("onetoc", "application/onenote"),
   ("onetoc2", "application/onenote"), ("opf", "application/oebps-package+xml"),
   ("otf", "font/otf"), ("owl", "application/rdf+xml"), ("oxps", "application/oxps"),
   ("p10", "application/pkcs10"), ("p7c", "application/pkcs7-mime"),
   ("p7m", "application/pkcs7-mime"), ("p7s", "application/pkcs7-signature"),
   ("p8", "application/pkcs8"), ("pdf", "application/pdf"), ("pfr", "application/font-tdpfr"),
   ("pgp", "application/pgp-encrypted"), ("pkg", "application/octet-stream"),
   ("pki", "application/pkixcmp"), ("pkipath", "application/pkix-pkipath"),
   ("pls", "application/pls+xml"), ("png", "image/png"), ("prf", "application/pics-rules"),
   ("ps", "application/postscript"), ("pskcxml", "application/pskc+xml"), ("qt", "video/quicktime"),
   ("raml", "application/raml+yaml"), ("rdf", "application/rdf+xml"),
   ("rif", "application/reginfo+xml"), ("rl", "application/resource-lists+xml"),
   ("rld", "application/resource-lists-diff+xml"), ("rmi", "audio/midi"),
   ("rnc", "application/relax-ng-compact-syntax"), ("rng", "application/xml"),
   ("roa", "application/rpki-roa"), ("roff", "text/troff"), ("rq", "application/sparql-query"),
   ("rs", "application/rls-services+xml"), ("rsd", "application/rsd+xml"),
   ("rss", "application/rss+xml"), ("rtf", "application/rtf"), ("rtx", "text/richtext"),
   ("s3m", "audio/s3m"), ("sbml", "application/sbml+xml"), ("scq", "application/scvp-cv-request"),
   ("scs", "application/scvp-cv-response"), ("sdp", "application/sdp"),
   ("ser", "application/java-serialized-object"), ("setpay", "application/set-payment-initiation"),
   ("setreg", "application/set-registration-initiation"), ("sgi", "image/sgi"),
   ("sgm", "text/sgml"), ("sgml", "text/sgml"), ("shex", "text/shex"),
   ("shf", "application/shf+xml"), ("shtml", "text/html"), ("sig", "application/pgp-signature"),
   ("sil", "audio/silk"), ("silo", "model/mesh"), ("slim", "text/slim"), ("slm", "text/slim"),
   ("smi", "application/smil+xml"), ("smil", "application/smil+xml"), ("snd", "audio/basic"),
   ("so", "application/octet-stream"), ("spp", "application/scvp-vp-response"),
   ("spq", "application/scvp-vp-request"), ("spx", "audio/ogg"), ("sru", "application/sru+xml"),
   ("srx", "application/sparql-results+xml"), ("ssdl", "application/ssdl+xml"),
   ("ssml", "application/ssml+xml"), ("stk", "application/hyperstudio"), ("styl", "text/stylus"),
   ("stylus", "text/stylus"), ("svg", "image/svg+xml"), ("svgz", "image/svg+xml"),
   ("t", "text/troff"), ("t38", "image/t38"), ("tei", "application/tei+xml"),
   ("teicorpus", "application/tei+xml"), ("text", "text/plain"), ("tfi", "application/thraud+xml"),
   ("tfx", "image/tiff-fx"), ("tif", "image/tiff"), ("tiff", "image/tiff"), ("tr", "text/troff"),
   ("ts", "video/mp2t"), ("tsd", "application/timestamped-data"),
   ("tsv", "text/tab-separated-values"), ("ttc", "font/collection"), ("ttf", "font/ttf"),
   ("ttl", "text/turtle"), ("txt", "text/plain"), ("u8dsn", "message/global-delivery-status"),
   ("u8hdr", "message/global-headers"), ("u8mdn", "message/global-disposition-notification"),
   ("u8msg", "message/global"), ("uri", "text/uri-list"), ("uris", "text/uri-list"),
   ("urls", "text/uri-list"), ("vcard", "text/vcard"), ("vrml", "model/vrml"), ("vtt", "text/vtt"),
   ("vxml", "application/voicexml+xml"), ("war", "application/java-archive"),
   ("wasm", "application/wasm"), ("wav", "audio/wav"), ("weba", "audio/webm"),
   ("webm", "video/webm"), ("webmanifest", "application/manifest+json"), ("webp", "image/webp"),
   ("wgt", "application/widget"), ("wmf", "image/wmf"), ("woff", "font/woff"),
   ("woff2", "font/woff2"), ("wrl", "model/vrml"), ("wsdl", "application/wsdl+xml"),
   ("wspolicy", "application/wspolicy+xml"), ("x3d", "model/x3d+xml"), ("x3db", "model/x3d+binary"),
   ("x3dbz", "model/x3d+binary"), ("x3dv", "model/x3d+vrml"), ("x3dvz", "model/x3d+vrml"),
   ("x3dz", "model/x3d+xml"), ("xaml", "application/xaml+xml"),
   ("xdf", "application/xcap-diff+xml"), ("xdssc", "application/dssc+xml"),
   ("xenc", "application/xenc+xml"), ("xer", "application/patch-ops-error+xml"),
   ("xht", "application/xhtml+xml"), ("xhtml", "application/xhtml+xml"),
   ("xhvml", "application/xv+xml"), ("xm", "audio/xm"), ("xml", "application/xml"),
   ("xop", "application/xop+xml"), ("xpl", "application/xproc+xml"), ("xsd", "application/xml"),
   ("xsl", "application/xml"), ("xslt", "application/xslt+xml"), ("xspf", "application/xspf+xml"),
   ("xvm", "application/xv+xml"), ("xvml", "application/xv+xml"), ("yaml", "text/yaml"),
   ("yang", "application/yang"), ("yin", "application/yin+xml"), ("yml", "text/yaml"),
   ("zip", "application/zip")]

/-- `MimeTypes::types`. -/
def types : List Entry :=
  initializers.map fun (fileExtension, mimeType) =>
    ⟨.ofLiteral fileExtension, .ofLiteral mimeType⟩

/-! ### The comparison -/

/-- The value of a `char`. -/
def charValue (signed : Bool) (letter : Byte) : Int :=
  if signed = true ∧ 128 ≤ letter then (letter.toNat : Int) - 256 else letter.toNat

/-- Behind the loop of `strcmpi`: the letters at which it stopped. -/
def atStop (signed : Bool) (letter other : Byte) : Int :=
  if letter = other then 0
  else if charValue signed (letter ||| 32) < charValue signed (other ||| 32) then -1
  else 1

/-- `MimeTypes::strcmpi(s1, s2)`: the end of a list is the NUL behind it. -/
def strcmpi (signed : Bool) : Bytes → Bytes → Int
  | [], s2 => atStop signed nul (s2.headD nul)
  | letter :: _, [] => atStop signed letter nul
  | letter :: s1, other :: s2 =>
    if letter = other ∨ letter ^^^ 32 = other then strcmpi signed s1 s2
    else atStop signed letter other

/-! ### The two lookups -/

/-- `strcmpi(extension, types[i].fileExtension)`. -/
def orderOf (signed : Bool) (extension : CString) (i : Nat) : Int :=
  ((types[i]?).map fun entry => strcmpi signed extension.bytes entry.fileExtension.bytes).getD 0

/-- The loop of `getType`. -/
def bisect (signed : Bool) (extension : CString) : Option CString :=
  (Probing.search (orderOf signed extension) 0 types.length).bind fun i => (types[i]?).map Entry.mimeType

/-- **The loop of `getType`** between two indices: the rounds of the search are the rounds of the loop,
however many there are. -/
theorem search_orderOf (signed : Bool) (extension : CString) (min max : Nat) :
    Probing.search (orderOf signed extension) min (max + 1) =
      if min ≤ max then
        if orderOf signed extension ((max + min) / 2) = 0 then some ((max + min) / 2)
        else if 0 < orderOf signed extension ((max + min) / 2) then
          Probing.search (orderOf signed extension) ((max + min) / 2 + 1) (max + 1)
        else Probing.search (orderOf signed extension) min ((max + min) / 2)
      else none := by
  rw [Probing.search_eq, Nat.add_sub_cancel]
  simp only [Nat.lt_succ_iff]

/-- The table as `getType` looks it up. -/
def table (signed : Bool) : MimeTable := fun extension =>
  bisect signed ⟨cStr extension, noNul_cStr extension⟩

/-- The loop of `getExtension`: from this entry on, with so many matches left to skip. -/
def extensionFrom (signed : Bool) (type : CString) : List Entry → Int → Option CString
  | [], _ => none
  | entry :: rest, skip =>
    if strcmpi signed type.bytes entry.mimeType.bytes = 0 then
      if skip ≤ 0 then some entry.fileExtension else extensionFrom signed type rest (skip - 1)
    else extensionFrom signed type rest skip

/-- `MimeTypes::getExtension(type, skip)`. -/
def getExtension (signed : Bool) (type : CString) (skip : Int) : Option CString :=
  extensionFrom signed type types skip

/-! ### What the comparison sees -/

/-- The bit between upper and lower case. -/
theorem getLsbD_caseBit (index : Nat) :
    (32#8).getLsbD index = decide (index = 5) := by
  have isBit : (32#8) = BitVec.twoPow 8 5 := rfl
  rw [isBit, BitVec.getLsbD_twoPow]
  simp [eq_comm]

theorem caseless_iff (letter other : Byte) :
    letter ||| 32 = other ||| 32 ↔ letter = other ∨ letter ^^^ 32 = other := by
  have asBits : ∀ {first second : Byte}, (∀ index < 8,
      first.toBitVec.getLsbD index = second.toBitVec.getLsbD index) → first = second :=
    fun same => UInt8.toBitVec_inj.mp (BitVec.eq_of_getLsbD_eq same)
  constructor
  · intro same
    have each : ∀ index < 8, (letter.toBitVec.getLsbD index || decide (index = 5)) =
        (other.toBitVec.getLsbD index || decide (index = 5)) := by
      intro index inside
      have atIndex := congrArg (fun byte : Byte => byte.toBitVec.getLsbD index) same
      simpa [getLsbD_caseBit index] using atIndex
    by_cases sameCase : letter.toBitVec.getLsbD 5 = other.toBitVec.getLsbD 5
    · refine .inl (asBits fun index inside => ?_)
      by_cases isCase : index = 5
      · rw [isCase, sameCase]
      · simpa [isCase] using each index inside
    · refine .inr (asBits fun index inside => ?_)
      have flipped : (letter ^^^ 32).toBitVec.getLsbD index =
          (letter.toBitVec.getLsbD index ^^ decide (index = 5)) := by
        simp [getLsbD_caseBit index]
      rw [flipped]
      by_cases isCase : index = 5
      · subst isCase
        simpa using Bool.eq_not.mpr sameCase
      · simpa [isCase] using each index inside
  · rintro (rfl | rfl)
    · rfl
    · refine asBits fun index inside => ?_
      by_cases isCase : index = 5 <;> simp [isCase, getLsbD_caseBit index]

/-- A text without the difference between upper and lower case. -/
def caseless (string : Bytes) : Bytes := string.map (· ||| 32)

/-- Two texts that `strcmpi` calls equal. -/
def Alike (first second : CString) : Prop := caseless first.bytes = caseless second.bytes

instance (first second : CString) : Decidable (Alike first second) :=
  inferInstanceAs (Decidable (_ = _))

variable {signed : Bool}

theorem atStop_eq_zero_iff (letter other : Byte) : atStop signed letter other = 0 ↔ letter = other := by
  unfold atStop
  by_cases same : letter = other
  · rw [if_pos same]
    exact iff_of_true rfl same
  · rw [if_neg same]
    refine iff_of_false ?_ same
    split <;> decide

/-- Where the letters differ, only what stands beside the bit counts. -/
theorem atStop_congr {letter other last : Byte} (same : letter ||| 32 = other ||| 32)
    (different : letter ≠ last) (differentToo : other ≠ last) :
    atStop signed letter last = atStop signed other last := by
  rw [atStop, atStop, if_neg different, if_neg differentToo, same]

/-- **Equal for `strcmpi`.** -/
theorem strcmpi_eq_zero_iff {first second : Bytes} (noNul : nul ∉ first) (noNulToo : nul ∉ second) :
    strcmpi signed first second = 0 ↔ caseless first = caseless second := by
  fun_induction strcmpi signed first second with
  | case1 s2 =>
    rw [atStop_eq_zero_iff]
    cases s2 with
    | nil => exact iff_of_true rfl rfl
    | cons other s2 =>
      refine iff_of_false (fun same => noNulToo ?_) (fun same => ?_)
      · have isNul : nul = other := same
        rw [isNul]
        exact List.mem_cons_self
      · cases same
  | case2 letter s1 =>
    rw [atStop_eq_zero_iff]
    refine iff_of_false (fun same => noNul ?_) (fun same => ?_)
    · rw [same]
      exact List.mem_cons_self
    · cases same
  | case3 letter s1 other s2 alike ih =>
    rw [ih (List.not_mem_of_not_mem_cons noNul) (List.not_mem_of_not_mem_cons noNulToo)]
    simp only [caseless, List.map_cons, List.cons.injEq, (caseless_iff letter other).mpr alike,
      true_and]
  | case4 letter s1 other s2 differ =>
    rw [atStop_eq_zero_iff]
    refine iff_of_false (fun same => differ (.inl same)) (fun same => differ ?_)
    simp only [caseless, List.map_cons, List.cons.injEq] at same
    exact (caseless_iff letter other).mp same.1

/-- **The case of the first text plays no role**, also for the order. -/
theorem strcmpi_congr {first second : Bytes} (same : caseless first = caseless second)
    (noNul : nul ∉ first) (noNulToo : nul ∉ second) (last : Bytes) (noNulLast : nul ∉ last) :
    strcmpi signed first last = strcmpi signed second last := by
  induction first generalizing second last with
  | nil =>
    cases second with
    | nil => rfl
    | cons other second => cases same
  | cons letter first ih =>
    cases second with
    | nil => cases same
    | cons other second =>
      simp only [caseless, List.map_cons, List.cons.injEq] at same
      have isLetter : letter ≠ nul := fun isNul => noNul (isNul ▸ List.mem_cons_self)
      have isOther : other ≠ nul := fun isNul => noNulToo (isNul ▸ List.mem_cons_self)
      cases last with
      | nil => exact atStop_congr same.1 isLetter isOther
      | cons mark last =>
        have rest := ih same.2 (List.not_mem_of_not_mem_cons noNul)
          (List.not_mem_of_not_mem_cons noNulToo) last (List.not_mem_of_not_mem_cons noNulLast)
        have bothOrNone : (letter = mark ∨ letter ^^^ 32 = mark) ↔ (other = mark ∨ other ^^^ 32 = mark) := by
          rw [← caseless_iff, ← caseless_iff, same.1]
        by_cases alike : letter = mark ∨ letter ^^^ 32 = mark
        · simp only [strcmpi, if_pos alike, if_pos (bothOrNone.mp alike), rest]
        · have alikeToo := fun other => alike (bothOrNone.mpr other)
          simp only [strcmpi, if_neg alike, if_neg alikeToo]
          exact atStop_congr same.1 (fun equal => alike (.inl equal)) fun equal =>
            alikeToo (.inl equal)

theorem alike_iff (first second : CString) :
    Alike first second ↔ strcmpi signed first.bytes second.bytes = 0 :=
  (strcmpi_eq_zero_iff first.noNul second.noNul).symm

end MimeTypes

end GemCaps
