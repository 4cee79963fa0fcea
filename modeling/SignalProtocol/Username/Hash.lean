import SignalProtocol.KeyValue.Keys
import SignalProtocol.Platform.Url

/-! # Usernames

A username is a nickname and a discriminator behind a dot, and two scalars of its hash are the
nickname as a number and the discriminator. -/

namespace SignalProtocol.Username

open JoinedText Url

def maxNicknameLength : ℕ := 48
def minNicknameLength : ℕ := 3
def maxDiscriminator : ℤ := 999999999

/-- The order of the Ristretto group. -/
def groupOrder : ℕ := 2 ^ 252 + 27742317777372353535851937790883648493

/-- `String(value)` of a safe integer. -/
def numberText : ℤ → JsString
  | .ofNat value => (KeyValue.decimal value).map unit
  | .negSucc value => unit '-' :: (KeyValue.decimal (value + 1)).map unit

/-- `parseInt(text, 10)`, and `none` for `NaN`. -/
def parseInt (text : JsString) : Option ℤ :=
  let trimmed := text.dropWhile JsString.isWhitespace
  let signed := trimmed.head? = some (unit '-') ∨ trimmed.head? = some (unit '+')
  let digits := (if signed then trimmed.tail else trimmed).takeWhile isDigit
  if digits = [] then none
  else if trimmed.head? = some (unit '-') then some (-decimalValue digits)
  else some (decimalValue digits)

def isNicknameUnit (code : UInt16) : Bool := isAlphanumeric code || code = unit '_'

def validateNickname (nickname : JsString) : Except JsString Unit := do
  if nickname.length < minNicknameLength then
    throw (units "Nickname too short: " ++ numberText nickname.length ++ units " chars (minimum 3)")
  if maxNicknameLength < nickname.length then
    throw (units "Nickname too long: " ++ numberText nickname.length ++ units " chars (maximum 48)")
  if nickname.head?.any isDigit then throw (units "Nickname cannot start with a digit")
  if !nickname.all isNicknameUnit then
    throw (units "Nickname can only contain letters, digits, and underscores")

/-- Every number that reaches it is an integer. -/
def validateDiscriminator (discriminator : ℤ) : Except JsString Unit := do
  if discriminator < 1 then
    throw (units "Invalid discriminator: must be a positive integer, got " ++
      numberText discriminator)
  if maxDiscriminator < discriminator then
    throw (units "Discriminator too large: " ++ numberText discriminator ++
      units " (maximum 999999999)")

/-- `parseUsername` behind its split at the last dot. -/
def parseParts (username nickname discStr : JsString) : Except JsString (JsString × ℤ) := do
  if discStr = [] then
    throw (units "Invalid username format: empty discriminator in \"" ++ username ++ units "\"")
  let some discriminator := parseInt discStr
    | throw (units "Invalid discriminator: \"" ++ discStr ++ units "\" is not a number")
  validateNickname nickname
  validateDiscriminator discriminator
  if discStr.length < 2 then
    throw (units "Invalid discriminator: must be at least 2 digits (\"" ++ discStr ++ units "\")")
  if 3 ≤ discStr.length ∧ discStr.head? = some (unit '0') then
    throw (units "Invalid discriminator: leading zeros not allowed for 3+ digit values (\"" ++
      discStr ++ units "\")")
  return (nickname, discriminator)

def parseUsername (username : JsString) : Except JsString (JsString × ℤ) := do
  if unit '.' ∉ username then
    throw (units "Invalid username format: missing dot separator in \"" ++ username ++ units "\"")
  let discStr := afterLast (unit '.') username
  parseParts username (username.take (username.length - discStr.length - 1)) discStr

def discriminatorText (discriminator : ℤ) : JsString :=
  if discriminator < 10 then unit '0' :: numberText discriminator else numberText discriminator

def formatUsername (nickname : JsString) (discriminator : ℤ) : JsString :=
  nickname ++ unit '.' :: discriminatorText discriminator

def charToByte (code : UInt16) : Except JsString ℕ :=
  if code = unit '_' then .ok 1
  else if isLower code then .ok (code.toNat - 0x61 + 2)
  else if isDigit code then .ok (code.toNat - 0x30 + 28)
  else .error (units "Invalid nickname character: '" ++ code :: units "'")

/-- The sum of the loop, which starts at the last byte. -/
def hornerSum (bytes : List ℕ) : ℕ := bytes.foldr (fun byte scalar => scalar * 37 + byte) 0

def toBase37Sum (nickname : JsString) : Except JsString ℕ := do
  let bytes ← (lowercase nickname).mapM charToByte
  let first :: rest := bytes | throw (units "Cannot convert undefined to a BigInt")
  return hornerSum rest * 27 + first

def toBase37Scalar (nickname : JsString) : Except JsString ℕ :=
  (· % groupOrder) <$> toBase37Sum nickname

structure UsernameScalars where
  s0 : ℕ
  s1 : ℕ
  s2 : ℕ

/-- The message of `usernameShaScalar`. -/
def usernameBytes (nickname : JsString) (discriminator : ℤ) : Bytes :=
  JsString.encode (lowercase nickname) ++ List.replicate 5 0 ++
    [24, 16, 8, 0].map fun shift : ℕ => UInt8.ofNat (discriminator.toNat >>> shift)

/-- `shaScalar` is SHA-512 with the reduction of its digest. -/
def usernameScalars (shaScalar : Bytes → ℕ) (nickname : JsString) (discriminator : ℤ) :
    Except JsString UsernameScalars := do
  validateNickname nickname
  validateDiscriminator discriminator
  return ⟨shaScalar (usernameBytes nickname discriminator), ← toBase37Scalar nickname,
    discriminator.toNat % groupOrder⟩

end SignalProtocol.Username
