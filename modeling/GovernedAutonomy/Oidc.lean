import GovernedAutonomy.Canonical
import GovernedAutonomy.Policy
import GovernedAutonomy.Python.Doubles
import GovernedAutonomy.Python.Encodings
import GovernedAutonomy.Python.Segments

namespace GovernedAutonomy

open Python

def identityValidationError (message : Str) : Exc :=
  .custom "IdentityValidationError" true message .none

-- isinstance(v, (int, float)) and not isinstance(v, bool) and math.isfinite(v), with the number
def finiteNumber : PyVal → Result (Option ℚ)
  | .int i =>
      match double i with
      | some _ => .ok (some i)
      | none => .error (.builtin .overflowError)
  | .float (.finite neg m) => .ok (some (if neg then -m.value else m.value))
  | _ => .ok none

-- float(v)
def toDouble : PyVal → Result ℚ
  | .int i =>
      match double i with
      | some x => .ok x
      | none => .error (.builtin .overflowError)
  | .float (.finite neg m) => .ok (if neg then -m.value else m.value)
  | _ => .error (.builtin .typeError)

def isAscii (s : Str) : Bool := s.all (fun p => decide (p.val < 128))

-- the library that makes public keys and checks signatures with them
structure Cryptography (Key : Type) where
  rsaKey : Nat → Nat → Result Key
  ecKey : Str → List UInt8 → Result Key
  ed25519Key : List UInt8 → Result Key
  verifyPkcs1 : Key → Str → List UInt8 → Str → Result Unit
  verifyEcdsa : Key → Str → Nat → Nat → Str → Result Unit
  verifyEd25519 : Key → List UInt8 → Str → Result Unit

-- what the JWKS provider answers to get_jwks, to refresh where it has one, and to get_jwks again
structure JWKSAnswers where
  first : Result PyVal
  refresh : Option (Result Unit) := none
  second : Result PyVal

structure OIDCValidator where
  issuer : Str
  audience : List Str
  algorithms : List Str
  tenantId : Option Str := none
  complete : issuer ≠ [] ∧ audience ≠ [] ∧ algorithms ≠ []

structure ExternalIdentity where
  subject : Str
  issuer : Str
  claims : PyDict

structure ParsedToken where
  header : PyDict
  claims : PyDict
  signingInput : Str
  signature : List UInt8

namespace Oidc

-- _signing_keys_by_id
def privateJwkFields : List String := ["d", "p", "q", "dp", "dq", "qi", "oth", "k"]

def publicKeyItem : PyVal → Result PyDict
  | .dict item =>
      if privateJwkFields.any (fun name => PyDict.has item name) then
        .error (identityValidationError (lit "JWKS must contain public keys only"))
      else .ok item
  | _ => .error (identityValidationError (lit "JWKS must contain public keys only"))

def isVerifying (item : PyDict) : Bool :=
  ((PyDict.get item "use").getD (.str "sig")).eq (.str "sig") &&
    (match item.getD "key_ops" with
    | .none => true
    | .list ops => ops.any (fun op => op.eq (.str "verify"))
    | _ => false)

def addSigningKey (keys : List (Str × PyDict)) (value : PyVal) : Result (List (Str × PyDict)) := do
  let item ← publicKeyItem value
  if isVerifying item then
    match item.getD "kid" with
    | .str (c :: s) =>
        if Dict.has keys (c :: s) then
          .error (identityValidationError (lit "JWKS contains duplicate signing key ids"))
        else .ok (Dict.set keys (c :: s) item)
    | _ => .error (identityValidationError (lit "JWKS signing key is missing a key id"))
  else .ok keys

def signingKeysById (jwks : PyDict) : Result (List (Str × PyDict)) :=
  match jwks.getD "keys" with
  | .list rawKeys => rawKeys.foldlM addSigningKey []
  | _ => .error (identityValidationError (lit "JWKS document is invalid"))

def keysOf (answer : Result PyVal) : Result (List (Str × PyDict)) := do
  let jwks ← answer
  match jwks with
  | .dict jwks => signingKeysById jwks
  | _ => .error (identityValidationError (lit "JWKS document is invalid"))

-- providers may refresh their cache on rotation
def signingKey (jwks : JWKSAnswers) (kid : Str) : Result (Option PyDict) := do
  let keys ← keysOf jwks.first
  match Dict.get keys kid with
  | some jwk => .ok (some jwk)
  | none => do
      jwks.refresh.getD (.ok ())
      let keys ← keysOf jwks.second
      .ok (Dict.get keys kid)

-- _b64 of a claim of a key, that need not be a text
def b64Member (jwk : PyDict) (name : String) : Result (List UInt8) :=
  match jwk.get name with
  | none => .error (.builtin .keyError)
  | some (.str s) => b64decode s
  | some _ => .error (.builtin .typeError)

def isInvalidKey (e : Exc) : Bool :=
  e.isValueError || e.isTypeError || (match e with
    | .builtin .keyError => true
    | _ => false)

def bigEndian (bytes : List UInt8) : Nat := bytes.foldl (fun n b => n * 256 + b.toNat) 0

section

variable {Key : Type} (C : Cryptography Key) (P : Primitives)

def curves : List String := ["P-256", "P-384", "P-521"]

-- the kinds of keys that _jwk_key makes
def knownKey (jwk : PyDict) : Result (Option Key) :=
  if (jwk.getD "kty").eq (.str "RSA") then do
    let e ← b64Member jwk "e"
    let n ← b64Member jwk "n"
    let key ← C.rsaKey (bigEndian e) (bigEndian n)
    .ok (some key)
  else if (jwk.getD "kty").eq (.str "EC") then
    match jwk.getD "crv" with
    | .str crv =>
        if curves.any (fun name => crv = lit name) then do
          let x ← b64Member jwk "x"
          let y ← b64Member jwk "y"
          let key ← C.ecKey crv (4 :: (x ++ y))
          .ok (some key)
        else .ok none
    | crv => if crv.hashable then .ok none else .error (.builtin .typeError)
  else if (jwk.getD "kty").eq (.str "OKP") ∧ (jwk.getD "crv").eq (.str "Ed25519") then do
    let x ← b64Member jwk "x"
    let key ← C.ed25519Key x
    .ok (some key)
  else .ok none

def jwkKey (jwk : PyDict) : Result Key := do
  let key ← reraise isInvalidKey (identityValidationError (lit "invalid JWK")) (knownKey C jwk)
  match key with
  | some key => .ok key
  | none => .error (identityValidationError (lit "unsupported JWK key type"))

def digestOf (family : String) (alg : Str) : Result Str :=
  match ["256", "384", "512"].find? (fun bits => alg = lit (family ++ bits)) with
  | some bits => .ok (lit ("SHA" ++ bits))
  | none => .error (.builtin .keyError)

def isInvalidSignature (e : Exc) : Bool :=
  isInvalidKey e || (match e with
    | .custom cls _ _ _ => decide (cls = "InvalidSignature")
    | _ => false)

def verify (alg : Str) (key : Key) (signature : List UInt8) (signingInput : Str) : Result Unit :=
  if startsWith alg "RS" then do
    let digest ← digestOf "RS" alg
    C.verifyPkcs1 key digest signature signingInput
  else if startsWith alg "ES" then do
    raiseIf (signature.length % 2 ≠ 0) (identityValidationError (lit "invalid ECDSA signature"))
    let digest ← digestOf "ES" alg
    C.verifyEcdsa key digest (bigEndian (signature.take (signature.length / 2)))
      (bigEndian (signature.drop (signature.length / 2))) signingInput
  else if alg = lit "EdDSA" then C.verifyEd25519 key signature signingInput
  else .error (identityValidationError (lit "unsupported JWT algorithm"))

def malformedJwt : Exc := identityValidationError (lit "malformed JWT")

def dot : CodePoint := ofChar '.'

def loadsSegment (segment : Str) : Result PyVal := do
  let raw ← b64decode segment
  P.loadsBytes raw

def splitToken (token : Str) : Result (PyVal × PyVal × Str × List UInt8) :=
  match token.splitOn dot with
  | [headerRaw, payloadRaw, signatureRaw] => do
      let header ← loadsSegment P headerRaw
      let claims ← loadsSegment P payloadRaw
      let signingInput := headerRaw ++ dot :: payloadRaw
      raiseIf (isAscii signingInput = false) (.builtin .unicodeEncodeError)
      let signature ← b64decode signatureRaw
      .ok (header, claims, signingInput, signature)
  | _ => .error (.valueError (lit "token does not have three parts"))

def parseToken (token : Str) : Result ParsedToken := do
  let (header, claims, signingInput, signature) ←
    reraise (fun e => e.isValueError || e.isTypeError) malformedJwt (splitToken P token)
  match header, claims with
  | .dict header, .dict claims => .ok ⟨header, claims, signingInput, signature⟩
  | _, _ => .error (identityValidationError (lit "JWT objects are invalid"))

end

end Oidc

namespace OIDCValidator

open Oidc

variable (V : OIDCValidator)

def checkHeader (header : PyDict) : Result (Str × Str) :=
  let untrusted := identityValidationError (lit "JWT algorithm or key id is not trusted")
  match header.getD "alg", header.getD "kid" with
  | .str alg, .str (c :: kid) =>
      if alg ≠ lit "none" ∧ alg ∈ V.algorithms then .ok (alg, c :: kid) else .error untrusted
  | _, _ => .error untrusted

def checkSubject (claims : PyDict) : Result Str :=
  let invalid := identityValidationError (lit "issuer or subject claim is invalid")
  if (claims.getD "iss").eq (.str V.issuer) then
    match claims.getD "sub" with
    | .str (c :: s) => .ok (c :: s)
    | _ => .error invalid
  else .error invalid

def checkTenant (claims : PyDict) : Result Unit :=
  match V.tenantId with
  | none => .ok ()
  | some tenantId =>
      if (claims.getD "tid").eq (.str tenantId) then .ok ()
      else .error (identityValidationError (lit "tenant claim is invalid"))

-- secrets.compare_digest takes ASCII texts only
def checkNonce (claims : PyDict) (nonce : Option Str) : Result Unit :=
  match nonce with
  | none => .ok ()
  | some nonce =>
      match claims.getD "nonce" with
      | .str s =>
          if isAscii s ∧ isAscii nonce then
            if s = nonce then .ok () else .error (identityValidationError (lit "token nonce is invalid"))
          else .error (.builtin .typeError)
      | _ => .error (identityValidationError (lit "token nonce is invalid"))

def isAudience (value : PyVal) : Bool := V.audience.any (fun name => value.eq (.str name))

def checkAudience (claims : PyDict) : Result Unit :=
  let invalid := identityValidationError (lit "audience claim is invalid")
  match claims.getD "aud" with
  | .str s => if V.isAudience (.str s) then .ok () else .error invalid
  | .list xs => if xs.any V.isAudience then .ok () else .error invalid
  | _ => .error invalid

def checkExpiry (claims : PyDict) (now : ℚ) : Result Unit := do
  let exp ← finiteNumber (claims.getD "exp")
  raiseIf (¬ exp.any (fun exp => now < exp))
    (identityValidationError (lit "token is expired or has no expiry"))

def checkNotBefore (claims : PyDict) (now : ℚ) : Result Unit :=
  match claims.get "nbf" with
  | none => .ok ()
  | some value => do
      let notBefore ← finiteNumber value
      raiseIf (¬ notBefore.any (fun notBefore => notBefore ≤ now))
        (identityValidationError (lit "token is not yet valid"))

-- now + 30 is a sum of doubles
def checkIssuedAt (claims : PyDict) (now : ℚ) : Result Unit :=
  match claims.get "iat" with
  | none => .ok ()
  | some value => do
      let issuedAt ← finiteNumber value
      raiseIf (¬ issuedAt.any (fun issuedAt => (double (now + 30)).all (issuedAt ≤ ·)))
        (identityValidationError (lit "token issued-at is invalid"))

def checkSignature {Key : Type} (C : Cryptography Key) (jwks : JWKSAnswers) (alg kid : Str)
    (signature : List UInt8) (signingInput : Str) : Result Unit := do
  let jwk ← signingKey jwks kid
  match jwk with
  | none => .error (identityValidationError (lit "signing key is not trusted"))
  | some jwk => do
      raiseIf (((PyDict.get jwk "alg").getD (.str alg)).eq (.str alg) = false)
        (identityValidationError (lit "signing key is not trusted"))
      let key ← jwkKey C jwk
      reraise isInvalidSignature (identityValidationError (lit "JWT signature is invalid"))
        (Oidc.verify C alg key signature signingInput)

-- the clock is read once, before the provider is asked
def validate {Key : Type} (C : Cryptography Key) (P : Primitives) (token : Str)
    (nonce : Option Str) (now : ℚ) (jwks : JWKSAnswers) : Result ExternalIdentity := do
  raiseIf (token = []) (identityValidationError (lit "token must be a non-empty string"))
  let parsed ← parseToken P token
  let (alg, kid) ← V.checkHeader parsed.header
  let subject ← V.checkSubject parsed.claims
  V.checkTenant parsed.claims
  checkNonce parsed.claims nonce
  V.checkAudience parsed.claims
  checkExpiry parsed.claims now
  checkNotBefore parsed.claims now
  checkIssuedAt parsed.claims now
  checkSignature C jwks alg kid parsed.signature parsed.signingInput
  .ok ⟨subject, V.issuer, parsed.claims⟩

end OIDCValidator

end GovernedAutonomy
