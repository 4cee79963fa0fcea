import Mathlib.Tactic.Common
import SignalProtocol.Basic

/-! # Text of bytes

The UTF-8 decoder of the platform layer, the encoder of `TextEncoder`, and base64. -/

namespace SignalProtocol

def replacementCharacter : Char := Char.ofNat 0xfffd

/-- A sequence that misses continuation bytes: the code point so far, the bytes that are missing,
and the bounds of the next byte. -/
structure Utf8Pending where
  codePoint : ℕ
  missing : ℕ
  lower : ℕ
  upper : ℕ

def utf8Start (byte : ℕ) : List Char × Option Utf8Pending :=
  if byte ≤ 0x7f then ([Char.ofNat byte], none)
  else if 0xc2 ≤ byte ∧ byte ≤ 0xdf then ([], some ⟨byte &&& 0x1f, 1, 0x80, 0xbf⟩)
  else if 0xe0 ≤ byte ∧ byte ≤ 0xef then
    ([], some ⟨byte &&& 0x0f, 2, if byte = 0xe0 then 0xa0 else 0x80,
      if byte = 0xed then 0x9f else 0xbf⟩)
  else if 0xf0 ≤ byte ∧ byte ≤ 0xf4 then
    ([], some ⟨byte &&& 0x07, 3, if byte = 0xf0 then 0x90 else 0x80,
      if byte = 0xf4 then 0x8f else 0xbf⟩)
  else ([replacementCharacter], none)

def utf8Step (byte : ℕ) : Option Utf8Pending → List Char × Option Utf8Pending
  | none => utf8Start byte
  | some pending =>
    if byte < pending.lower ∨ pending.upper < byte then
      let restart := utf8Start byte
      (replacementCharacter :: restart.1, restart.2)
    else
      let codePoint := pending.codePoint <<< 6 ||| (byte &&& 0x3f)
      if pending.missing = 1 then ([Char.ofNat codePoint], none)
      else ([], some ⟨codePoint, pending.missing - 1, 0x80, 0xbf⟩)

def utf8DecodeLoop : Option Utf8Pending → Bytes → List Char
  | none, [] => []
  | some _, [] => [replacementCharacter]
  | pending, byte :: rest =>
    (utf8Step byte.toNat pending).1 ++ utf8DecodeLoop (utf8Step byte.toNat pending).2 rest

/-- `utf8Decode` without `fatal`: a leading byte order mark goes. -/
def utf8Decode : Bytes → String
  | 0xef :: 0xbb :: 0xbf :: rest => String.ofList (utf8DecodeLoop none rest)
  | bytes => String.ofList (utf8DecodeLoop none bytes)

def stringToBytes (str : String) : Bytes := str.toList.flatMap String.utf8EncodeChar

def base64Alphabet : List Char :=
  "ABCDEFGHIJKLMNOPQRSTUVWXYZabcdefghijklmnopqrstuvwxyz0123456789+/".toList

def base64Digit (value shift : ℕ) : Char := base64Alphabet.getD ((value >>> shift) % 64) 'A'

def base64Chars : Bytes → List Char
  | [] => []
  | [first] =>
    let value := first.toNat <<< 16
    [base64Digit value 18, base64Digit value 12, '=', '=']
  | [first, second] =>
    let value := first.toNat <<< 16 ||| second.toNat <<< 8
    [base64Digit value 18, base64Digit value 12, base64Digit value 6, '=']
  | first :: second :: third :: rest =>
    let value := first.toNat <<< 16 ||| second.toNat <<< 8 ||| third.toNat
    base64Digit value 18 :: base64Digit value 12 :: base64Digit value 6 :: base64Digit value 0 ::
      base64Chars rest

def bytesToBase64 (bytes : Bytes) : String := String.ofList (base64Chars bytes)

/-! ## Strings of the source language

A string is a list of UTF-16 code units. A surrogate need not have its partner. -/

abbrev JsString := List UInt16

namespace JsString

def isHighSurrogate (unit : UInt16) : Bool := 0xd800 ≤ unit.toNat ∧ unit.toNat ≤ 0xdbff

def isLowSurrogate (unit : UInt16) : Bool := 0xdc00 ≤ unit.toNat ∧ unit.toNat ≤ 0xdfff

def ofChar (char : Char) : JsString :=
  if char.toNat ≤ 0xffff then [UInt16.ofNat char.toNat]
  else [UInt16.ofNat (0xd800 + (char.toNat - 0x10000) / 0x400),
    UInt16.ofNat (0xdc00 + (char.toNat - 0x10000) % 0x400)]

def ofChars (chars : List Char) : JsString := chars.flatMap ofChar

def ofString (text : String) : JsString := ofChars text.toList

def charOfUnit (unit : UInt16) : Char :=
  if isHighSurrogate unit ∨ isLowSurrogate unit then replacementCharacter
  else Char.ofNat unit.toNat

def toChars : JsString → List Char
  | [] => []
  | [unit] => [charOfUnit unit]
  | first :: second :: rest =>
    if isHighSurrogate first ∧ isLowSurrogate second then
      Char.ofNat (0x10000 + (first.toNat - 0xd800) * 0x400 + (second.toNat - 0xdc00)) ::
        toChars rest
    else charOfUnit first :: toChars (second :: rest)

def toWellFormed (str : JsString) : JsString := ofChars (toChars str)

def encode (str : JsString) : Bytes := (toChars str).flatMap String.utf8EncodeChar

def isWhitespace (unit : UInt16) : Bool :=
  unit ∈ ([0x09, 0x0a, 0x0b, 0x0c, 0x0d, 0x20, 0xa0, 0x1680, 0x2000, 0x2001, 0x2002, 0x2003, 0x2004,
    0x2005, 0x2006, 0x2007, 0x2008, 0x2009, 0x200a, 0x2028, 0x2029, 0x202f, 0x205f, 0x3000,
    0xfeff] : List UInt16)

end JsString

end SignalProtocol

/-! ## Base64

The decoder of base64 and the conversions to and from its URL-safe form. The encoder is
`bytesToBase64`. -/

namespace SignalProtocol

def paddingUnit : UInt16 := 0x3d

def base64Lookup (code : ℕ) : Option ℕ :=
  if code < 256 then (base64Alphabet.map Char.toNat).idxOf? code else none

def decodeBase64Char (character : UInt16) (index : ℕ) : Except ProtocolError ℕ :=
  match base64Lookup character.toNat with
  | some value => pure value
  | none => throw (.error s!"Invalid base64 character at offset {index}")

def base64Padding (normalized : JsString) : ℕ :=
  if normalized.reverse.take 2 = [paddingUnit, paddingUnit] then 2
  else if normalized.reverse.take 1 = [paddingUnit] then 1
  else 0

def decodeBase64Padded (character : UInt16) (index : ℕ) : Except ProtocolError ℕ :=
  if character = paddingUnit then pure 0 else decodeBase64Char character index

def base64ChunkBytes (padding : ℕ) (isFinalChunk : Bool)
    (firstValue secondValue thirdValue fourthValue : ℕ) : Except ProtocolError Bytes :=
  if isFinalChunk ∧ padding = 2 ∧ secondValue &&& 0x0f ≠ 0 then
    throw (.error "Invalid base64 padding bits")
  else if isFinalChunk ∧ padding = 1 ∧ thirdValue &&& 0x03 ≠ 0 then
    throw (.error "Invalid base64 padding bits")
  else
    let value := firstValue <<< 18 ||| secondValue <<< 12 ||| thirdValue <<< 6 ||| fourthValue
    pure [UInt8.ofNat (value >>> 16 &&& 0xff), UInt8.ofNat (value >>> 8 &&& 0xff),
      UInt8.ofNat (value &&& 0xff)]

def decodeBase64Chunk (padding inputOffset : ℕ) (isFinalChunk : Bool)
    (first second third fourth : UInt16) : Except ProtocolError Bytes :=
  if first = paddingUnit ∨ second = paddingUnit then throw (.error "Invalid base64 padding")
  else if ¬ isFinalChunk ∧ (third = paddingUnit ∨ fourth = paddingUnit) then
    throw (.error "Invalid base64 padding")
  else if third = paddingUnit ∧ fourth ≠ paddingUnit then
    throw (.error "Invalid base64 padding")
  else if third = paddingUnit ∧ padding ≠ 2 then throw (.error "Invalid base64 padding")
  else if fourth = paddingUnit ∧ padding = 0 then throw (.error "Invalid base64 padding")
  else do
    let firstValue ← decodeBase64Char first inputOffset
    let secondValue ← decodeBase64Char second (inputOffset + 1)
    let thirdValue ← decodeBase64Padded third (inputOffset + 2)
    let fourthValue ← decodeBase64Padded fourth (inputOffset + 3)
    base64ChunkBytes padding isFinalChunk firstValue secondValue thirdValue fourthValue

def decodeBase64Chunks (padding : ℕ) : ℕ → ℕ → JsString → Except ProtocolError Bytes
  | inputOffset, left, first :: second :: third :: fourth :: rest => do
      let bytes ← decodeBase64Chunk padding inputOffset rest.isEmpty first second third fourth
      let later ← decodeBase64Chunks padding (inputOffset + 4) (left - 3) rest
      pure (bytes.take left ++ later)
  | _, _, _ => pure []

def normalizeBase64 (base64 : JsString) : JsString :=
  base64.filter fun unit => !JsString.isWhitespace unit

def base64ToBytes (base64 : JsString) : Except ProtocolError Bytes :=
  let normalized := normalizeBase64 base64
  if normalized = [] then pure []
  else if normalized.length % 4 ≠ 0 then throw (.error "Invalid base64 string length")
  else
    let padding := base64Padding normalized
    decodeBase64Chunks padding 0 (normalized.length / 4 * 3 - padding) normalized

def stripBase64Padding (base64 : JsString) : JsString :=
  (base64.reverse.dropWhile (· = paddingUnit)).reverse

def urlSafeUnit (unit : UInt16) : UInt16 :=
  if unit = 0x2b then 0x2d else if unit = 0x2f then 0x5f else unit

def standardUnit (unit : UInt16) : UInt16 :=
  if unit = 0x2d then 0x2b else if unit = 0x5f then 0x2f else unit

def base64ToUrlSafe (base64 : JsString) : JsString := stripBase64Padding (base64.map urlSafeUnit)

def bytesToUrlSafeBase64 (bytes : Bytes) : JsString :=
  stripBase64Padding ((JsString.ofString (bytesToBase64 bytes)).map urlSafeUnit)

def urlSafeToBase64 (urlSafe : JsString) : JsString :=
  let base64 := urlSafe.map standardUnit
  if base64.length % 4 = 2 then base64 ++ [paddingUnit, paddingUnit]
  else if base64.length % 4 = 3 then base64 ++ [paddingUnit]
  else base64

end SignalProtocol
