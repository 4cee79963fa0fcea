import SignalProtocol.Platform.Text

/-! # URLs

The parser of the URL forms that the SDK uses, and the codec of form queries. Regular expressions
are predicates on code units. -/

namespace SignalProtocol

def invalidUrl : ProtocolError := .error "Invalid URL"

structure ParsedUrl where
  protocol : JsString
  hostname : JsString
  port : JsString
  host : JsString
  pathname : JsString
  /-- Empty, or `?` and a query that is not empty. -/
  search : JsString

namespace Url

def units (text : String) : JsString := JsString.ofString text

def unit (character : Char) : UInt16 := UInt16.ofNat character.toNat

def isLower (code : UInt16) : Bool := unit 'a' ≤ code ∧ code ≤ unit 'z'

def isUpper (code : UInt16) : Bool := unit 'A' ≤ code ∧ code ≤ unit 'Z'

def isDigit (code : UInt16) : Bool := unit '0' ≤ code ∧ code ≤ unit '9'

def isAlphanumeric (code : UInt16) : Bool := isLower code || isUpper code || isDigit code

def isPrintable (code : UInt16) : Bool := 0x21 ≤ code ∧ code ≤ 0x7e

def isSchemeUnit (code : UInt16) : Bool := isAlphanumeric code || code ∈ units "+.-"

def isPathUnit (code : UInt16) : Bool := isAlphanumeric code || code ∈ units "-._~!$&'()*+,;=:@/"

def isQueryUnit (code : UInt16) : Bool := isAlphanumeric code || code ∈ units "-._~!$&()*+,;=:@/?"

def isLabelUnit (code : UInt16) : Bool := isLower code || isDigit code || code ∈ units "_-"

def isOpaqueHostUnit (code : UInt16) : Bool := isAlphanumeric code || code ∈ units "._~-"

def hexValue (code : UInt16) : Option ℕ :=
  if isDigit code then some (code.toNat - 0x30)
  else if unit 'a' ≤ code ∧ code ≤ unit 'f' then some (code.toNat - 0x57)
  else if unit 'A' ≤ code ∧ code ≤ unit 'F' then some (code.toNat - 0x37)
  else none

def isEscaped (inClass : UInt16 → Bool) : JsString → Bool
  | [] => true
  | code :: rest =>
    if code = unit '%' then
      match rest with
      | first :: second :: rest =>
        (hexValue first).isSome && (hexValue second).isSome && isEscaped inClass rest
      | _ => false
    else inClass code && isEscaped inClass rest

def lowercase (text : JsString) : JsString :=
  text.map fun code => if isUpper code then code + 0x20 else code

/-- `split` with a separator of one code unit. -/
def split (separator : UInt16) (text : JsString) : List JsString := text.splitOn separator

def defaultPorts : List (JsString × JsString) :=
  [(units "http:", units "80"), (units "https:", units "443"), (units "ws:", units "80"),
    (units "wss:", units "443")]

def defaultPort (protocol : JsString) : Option JsString := defaultPorts.lookup protocol

def decimalValue (digits : JsString) : ℕ :=
  digits.foldl (fun value code => value * 10 + (code.toNat - 0x30)) 0

/-- `0`, or at most `count` further digits after one that is not zero. -/
def isCanonicalDecimal (count : ℕ) (digits : JsString) : Bool :=
  digits = units "0" ∨
    digits ≠ [] ∧ digits.all isDigit ∧ digits.head? ≠ some (unit '0') ∧ digits.length ≤ count + 1

def isNumericLabel (label : JsString) : Bool :=
  label ≠ [] ∧ label.all isDigit ∨
    label.take 2 = units "0x" ∧ (label.drop 2).all fun code => isDigit code ||
      (unit 'a' ≤ code && code ≤ unit 'f')

def isIpv4Part (label : JsString) : Bool :=
  isCanonicalDecimal 2 label ∧ decimalValue label ≤ 255

def parseIpv6Piece (piece : JsString) : Option ℕ :=
  if piece ≠ [] ∧ piece.length ≤ 4 ∧ piece.all (fun code => (hexValue code).isSome && !isUpper code)
  then some (piece.foldl (fun value code => value * 16 + (hexValue code).getD 0) 0)
  else none

def parseIpv6Pieces (part : JsString) : Option (List ℕ) :=
  if part = [] then some [] else (split (unit ':') part).mapM parseIpv6Piece

/-- The pieces before the first `::`, and those after it. A second one is refused. -/
def splitDoubleColon : JsString → JsString × Option JsString
  | [] => ([], none)
  | [code] => ([code], none)
  | first :: second :: rest =>
    if first = unit ':' ∧ second = unit ':' then ([], some rest)
    else
      let later := splitDoubleColon (second :: rest)
      (first :: later.1, later.2)

def longestZeroRun (address : List ℕ) : Option (ℕ × ℕ) :=
  (List.range address.length).foldl (fun best start =>
    let length := ((address.drop start).takeWhile (· = 0)).length
    if (best.map Prod.snd).getD 1 < length then some (start, length) else best) none

def hexPieces (pieces : List ℕ) : JsString :=
  [unit ':'].intercalate (pieces.map fun piece => units (String.ofList (Nat.toDigits 16 piece)))

def serializeIpv6 (address : List ℕ) : JsString :=
  match longestZeroRun address with
  | none => hexPieces address
  | some (start, length) =>
    hexPieces (address.take start) ++ units "::" ++ hexPieces (address.drop (start + length))

def parseIpv6 (text : JsString) : Option (List ℕ) :=
  match splitDoubleColon text with
  | (head, none) => parseIpv6Pieces head
  | (head, some tail) => do
      let head ← parseIpv6Pieces head
      let tail ← parseIpv6Pieces tail
      if 8 ≤ head.length + tail.length then none
      else some (head ++ List.replicate (8 - head.length - tail.length) 0 ++ tail)

def ipv6Host (raw : JsString) : Except ProtocolError JsString :=
  let text := (raw.drop 1).dropLast
  match parseIpv6 text with
  | none => throw invalidUrl
  | some address =>
    if address.length ≠ 8 ∨ serializeIpv6 address ≠ text then throw invalidUrl else pure raw

def specialHost (raw : JsString) : Except ProtocolError JsString :=
  if raw.head? = some (unit '[') then ipv6Host raw
  else
    let host := lowercase raw
    let labels := split (unit '.') host
    if labels.any fun label =>
        label = [] || !label.all isLabelUnit || label.take 4 = units "xn--" then throw invalidUrl
    -- A host whose last label is a number is an IPv4 address.
    else if isNumericLabel (labels.getLastD []) ∧
        ¬ (labels.length = 4 ∧ labels.all isIpv4Part) then throw invalidUrl
    else pure host

def opaqueHost (raw : JsString) : Except ProtocolError JsString :=
  if raw ≠ [] ∧ raw.all isOpaqueHostUnit then pure raw else throw invalidUrl

def parsePort (raw : Option JsString) (protocol : JsString) : Except ProtocolError JsString :=
  match raw with
  | none => pure []
  | some port =>
    if ¬ isCanonicalDecimal 4 port ∨ 65535 < decimalValue port then throw invalidUrl
    else if defaultPort protocol = some port then pure []
    else pure port

/-- `AUTHORITY`: a host, in brackets or without any, and what follows its colon. -/
def splitAuthority (authority : JsString) : Option (JsString × Option JsString) :=
  let host :=
    if authority.head? = some (unit '[') then
      authority.takeWhile (· ≠ unit ']') ++ [unit ']']
    else authority.takeWhile fun code => code ∉ units ":[]"
  if host.isPrefixOf authority then
    match authority.drop host.length with
    | [] => some (host, none)
    | code :: port => if code = unit ':' then some (host, some port) else none
  else none

/-- `DOT_SEGMENT`: one or two dots, each of them plain or escaped. -/
def isDotSegment (segment : JsString) : Bool :=
  lowercase segment ∈ [units ".", units "..", units "%2e", units ".%2e", units "%2e.",
    units "%2e%2e"]

def isPath (path : JsString) : Bool :=
  (path = [] || path.head? = some (unit '/')) && isEscaped isPathUnit path

def isQuery (query : JsString) : Bool := query ≠ [] && isEscaped isQueryUnit query

/-- The scheme in lowercase with its colon, and what follows `://`. -/
def splitScheme (input : JsString) : Except ProtocolError (JsString × JsString) :=
  let scheme := input.takeWhile isSchemeUnit
  let rest := input.dropWhile isSchemeUnit
  let startsWithLetter := scheme.head?.any fun code => isLower code || isUpper code
  if startsWithLetter ∧ rest.take 3 = units "://" then
    pure (lowercase scheme ++ units ":", rest.drop 3)
  else throw invalidUrl

def parseSearch : Option JsString → Except ProtocolError JsString
  | none => pure []
  | some query => if isQuery query then pure (unit '?' :: query) else throw invalidUrl

def parsePath (special : Bool) (path : JsString) : Except ProtocolError JsString :=
  if ¬ isPath path ∨ (split (unit '/') path).any isDotSegment then throw invalidUrl
  else pure (if special ∧ path = [] then units "/" else path)

def parseHost (protocol authority : JsString) :
    Except ProtocolError (JsString × JsString) :=
  match splitAuthority authority with
  | none => throw invalidUrl
  | some (raw, port) =>
    if raw = [] then throw invalidUrl
    else do
      let hostname ← if (defaultPort protocol).isSome then specialHost raw else opaqueHost raw
      let port ← parsePort port protocol
      pure (hostname, port)

def splitAtUnit (ends : UInt16 → Bool) (text : JsString) : JsString × JsString :=
  (text.takeWhile fun code => !ends code, text.dropWhile fun code => !ends code)

def parseUrl (input : JsString) : Except ProtocolError ParsedUrl :=
  if ¬ input.all isPrintable ∨ unit '#' ∈ input ∨ unit '\\' ∈ input then throw invalidUrl
  else do
    let scheme ← splitScheme input
    let protocol := scheme.1
    if protocol = units "file:" ∨ protocol = units "ftp:" then throw invalidUrl
    else do
      let authority := splitAtUnit (fun code => code = unit '/' || code = unit '?') scheme.2
      let path := splitAtUnit (fun code => code = unit '?') authority.2
      let address ← parseHost protocol authority.1
      let pathname ← parsePath (defaultPort protocol).isSome path.1
      let search ← parseSearch (path.2.head?.map fun _ => path.2.tail)
      pure {
        protocol
        hostname := address.1
        port := address.2
        host := if address.2 = [] then address.1 else address.1 ++ unit ':' :: address.2
        pathname
        search }

/-- `parseInt` of the digits after a percent sign. -/
def escapedByte (first second : UInt16) : UInt8 :=
  UInt8.ofNat ((hexValue first).getD 0 * 16 + (hexValue second).getD 0)

def formBytes : JsString → Bytes
  | [] => []
  | code :: rest =>
    if code = unit '%' then
      match rest with
      | first :: second :: rest => escapedByte first second :: formBytes rest
      | rest => 0 :: formBytes rest
    else (if code = unit '+' then 0x20 else UInt8.ofNat code.toNat) :: formBytes rest

/-- `utf8Decode` with `fatal`: bytes that do not encode the text that they decode to are
refused. -/
def utf8DecodeFatal (bytes : Bytes) : Except ProtocolError JsString :=
  let chars := utf8DecodeLoop none bytes
  if chars.flatMap String.utf8EncodeChar = bytes then pure (JsString.ofChars chars)
  else throw invalidUrl

def decodeFormComponent (text : JsString) : Except ProtocolError JsString :=
  let bytes := formBytes text
  if bytes.take 3 = [0xef, 0xbb, 0xbf] then throw invalidUrl else utf8DecodeFatal bytes

def decodePair (pair : JsString) : Except ProtocolError (JsString × JsString) := do
  let parts := splitAtUnit (fun code => code = unit '=') pair
  let key ← decodeFormComponent parts.1
  let value ← decodeFormComponent parts.2.tail
  pure (key, value)

def queryValues (url : ParsedUrl) (name : JsString) : Except ProtocolError (List JsString) := do
  let pairs ← ((split (unit '&') url.search.tail).filter (· ≠ [])).mapM decodePair
  pure ((pairs.filter fun pair => pair.1 = name).map Prod.snd)

/-- The units that `encodeFormComponent` keeps: `encodeURIComponent` without `!'()~`. -/
def isFormUnit (code : ℕ) : Bool :=
  code < 0x80 && (isAlphanumeric (UInt16.ofNat code) || UInt16.ofNat code ∈ units "-_.*")

def upperHexDigit (value : ℕ) : UInt16 :=
  UInt16.ofNat (if value < 10 then 0x30 + value else 0x37 + value)

def percentByte (byte : UInt8) : JsString :=
  [unit '%', upperHexDigit (byte.toNat / 16), upperHexDigit (byte.toNat % 16)]

def encodeFormByte (byte : UInt8) : JsString :=
  if byte = 0x20 then [unit '+']
  else if isFormUnit byte.toNat then [UInt16.ofNat byte.toNat]
  else percentByte byte

def encodeFormComponent (text : JsString) : JsString :=
  (JsString.encode text).flatMap encodeFormByte

def encodeQuery (entries : List (JsString × JsString)) : JsString :=
  [unit '&'].intercalate (entries.map fun entry =>
    encodeFormComponent entry.1 ++ unit '=' :: encodeFormComponent entry.2)

end Url

end SignalProtocol
