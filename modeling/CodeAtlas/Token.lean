import CodeAtlas.Json.Access
import CodeAtlas.Json.Reader
import CodeAtlas.Settings
import CodeAtlas.Text.Utf8
import CodeAtlas.Token.Base64
import CodeAtlas.Token.Digest

/-!
# Tokens

A token is a header, a payload of claims and a signature, each in base 64, with points between. Its
claims count only if the signature is right and the claims about time hold.

Two readers share the first steps. `Token.claims` says what is wrong with a token; `Token.holder`
only tells an expired token from any other bad one, and knows fewer claims.
-/

namespace CodeAtlas.Token

structure Parts where
  header : List (String × Json)
  payload : List UInt8
  signed : List UInt8
  signature : List UInt8

/-- What is wrong with a token. -/
inductive Flaw where
  | segments
  | headerEncoding (fault : Text.Utf8.Located)
  | headerSource (source : List Char) (cause : Json.ReadError)
  | headerShape
  | payloadPadding
  | signaturePadding
  | noAlgorithm
  | algorithm
  | signature
  | payloadEncoding (fault : Text.Utf8.Located)
  | payloadSource (source : List Char) (cause : Json.ReadError)
  | payloadShape
  /-- A claim about time, by its name and its key, is no whole number. -/
  | notWhole (name key : String)
  | early
  | expired
  | audienceShape
  | audience
  | subject
  | identifier
  | accessHash
  /-- A claim about time has a value that cannot be a number at all. -/
  | access (why : Json.AccessError)
  deriving Repr

def Flaw.message : Flaw → String
  | .segments => "Not enough segments"
  | .headerEncoding fault => "Invalid header string: " ++ fault.message
  | .headerSource source cause => "Invalid header string: " ++ cause.message source
  | .headerShape => "Invalid header string: must be a json object"
  | .payloadPadding => "Invalid payload padding"
  | .signaturePadding => "Invalid crypto padding"
  | .noAlgorithm => "No algorithm was specified in the JWS header."
  | .algorithm => "The specified alg value is not allowed"
  | .signature => "Signature verification failed."
  | .payloadEncoding fault => "Invalid payload string: " ++ fault.message
  | .payloadSource source cause => "Invalid payload string: " ++ cause.message source
  | .payloadShape => "Invalid payload string: must be a json object"
  | .notWhole name key => s!"{name} claim ({key}) must be an integer."
  | .early => "The token is not yet valid (nbf)"
  | .expired => "Signature has expired."
  | .audienceShape => "Invalid claim format in token"
  | .audience => "Invalid audience"
  | .subject => "Subject must be a string."
  | .identifier => "JWT ID must be a string."
  | .accessHash => "No access_token provided to compare against at_hash claim."
  | .access why => why.message

/-! ## Reading -/

def splitFirst (bytes : List UInt8) : Option (List UInt8 × List UInt8) :=
  let point := '.'.toNat.toUInt8
  let before := bytes.takeWhile (· != point)
  if before.length < bytes.length then some (before, bytes.drop (before.length + 1)) else none

def splitLast (bytes : List UInt8) : Option (List UInt8 × List UInt8) :=
  (splitFirst bytes.reverse).map fun (after, before) => (before.reverse, after.reverse)

/-- Bytes without the mark that tells their encoding. -/
def dropMark (bytes : List UInt8) : List UInt8 :=
  match bytes with
  | 0xef :: 0xbb :: 0xbf :: rest => rest
  | _ => bytes

/-- Reads the fields of a JSON object from bytes; each way to fail has a flaw of its own. -/
def readObject (bytes : List UInt8) (encoding : Text.Utf8.Located → Flaw)
    (source : List Char → Json.ReadError → Flaw) (shape : Flaw) :
    Except Flaw (List (String × Json)) := do
  let text ← (Text.Utf8.decode bytes).mapError encoding
  match ← (Json.read text).mapError (source text) with
  | .object fields => .ok fields
  | _ => .error shape

/-- Reads the parts of a token, which may have marks on its objects or not. -/
def parts (isMarked : Bool) (token : String) : Except Flaw Parts := do
  let bytes := Text.Utf8.encode token.toList
  let some (signed, third) := splitLast bytes | .error .segments
  let some (first, second) := splitFirst signed | .error .segments
  let some header := Base64.decode first | .error .segments
  let header ← readObject (if isMarked then dropMark header else header) .headerEncoding
    .headerSource .headerShape
  let some payload := Base64.decode second | .error .payloadPadding
  let some signature := Base64.decode third | .error .signaturePadding
  return ⟨header, if isMarked then dropMark payload else payload, signed, signature⟩

/-- Whether the signature of a token is right. -/
def Parts.isSigned (p : Parts) : Bool :=
  Digest.authenticate (Text.Utf8.encode Settings.tokenSecret.toList) p.signed == p.signature

/-- The claims of a token whose signature is right. -/
def Parts.claims (p : Parts) : Except Flaw (List (String × Json)) := do
  let algorithm := (p.header.lookup "alg").getD .null
  if !algorithm.isTruthy then .error .noAlgorithm
  if !algorithm.same (.text Settings.tokenAlgorithm) then .error .algorithm
  if !p.isSigned then .error .signature
  readObject p.payload .payloadEncoding .payloadSource .payloadShape

/-! ## Claims -/

/-- The whole number of a claim about time, if there is the claim. -/
def timeOf (claims : List (String × Json)) (name key : String) : Except Flaw (Option Int) :=
  match claims.lookup key with
  | none => .ok none
  | some v =>
    match v.whole? with
    | .error why => .error (.access why)
    | .ok none => .error (.notWhole name key)
    | .ok (some n) => .ok (some n)

/-- Checks the claims about time: when the token was made, from when it holds, and until when. -/
def checkTimes (now : Int) (claims : List (String × Json)) : Except Flaw Unit := do
  let _ ← timeOf claims "Issued At" "iat"
  if let some n ← timeOf claims "Not Before" "nbf" then
    if now < n then .error .early
  if let some n ← timeOf claims "Expiration Time" "exp" then
    if n < now then .error .expired

def isText : Json → Bool
  | .text _ => true
  | _ => false

/-- Checks that a token is meant for nobody in particular, and that its other claims are texts. -/
def checkOthers (claims : List (String × Json)) : Except Flaw Unit := do
  match claims.lookup "aud" with
  | none => .ok ()
  | some (.text _) => .error .audience
  | some (.array items) => .error (if items.all isText then .audience else .audienceShape)
  | some _ => .error .audienceShape
  if (claims.lookup "sub").any (!isText ·) then .error .subject
  if (claims.lookup "jti").any (!isText ·) then .error .identifier
  if (claims.lookup "at_hash").isSome then .error .accessHash

def claims (now : Int) (token : String) : Except Flaw (List (String × Json)) := do
  let p ← parts false token
  let claims ← p.claims
  checkTimes now claims
  checkOthers claims
  return claims

/-- Why a token does not show who holds it. -/
inductive Rejection where
  | expired
  | invalid
  | access (why : Json.AccessError)
  deriving DecidableEq, Repr

def Rejection.ofFlaw : Flaw → Rejection
  | .expired => .expired
  | .access why => .access why
  | _ => .invalid

/-- The claims of a token's holder. A token that is meant for somebody in particular is rejected. -/
def holder (now : Int) (token : String) : Except Rejection (List (String × Json)) :=
  Except.mapError Rejection.ofFlaw do
    let p ← parts true token
    let claims ← p.claims
    checkTimes now claims
    if (claims.lookup "aud").any Json.isTruthy then .error .audience
    return claims

end CodeAtlas.Token
