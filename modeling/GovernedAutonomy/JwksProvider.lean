import GovernedAutonomy.OidcOutcomes
import GovernedAutonomy.Protocol.Calls
import GovernedAutonomy.Python.Copy
import GovernedAutonomy.Python.Same
import Mathlib.Logic.Function.Basic

namespace GovernedAutonomy

open Python Protocol

def maxJwksBytes : Nat := 1024 * 1024

-- what an endpoint answers to a request
inductive EndpointResponse where
  | failed
  | served (body : List UInt8)

namespace EndpointResponse

variable (P : Primitives)

-- a body is read up to one byte past the limit
def document (subject service : String) (limit : Nat) : EndpointResponse → Result PyVal
  | .failed => .error (identityValidationError (lit (service ++ " is unavailable")))
  | .served body =>
      if limit < (body.take (limit + 1)).length then
        .error (identityValidationError (lit (subject ++ " exceeds the maximum size")))
      else
        reraise (fun _ => true)
          (identityValidationError (lit (service ++ " is unavailable")))
          (P.loadsBytes (body.take (limit + 1)))

def jwks (response : EndpointResponse) : Result PyVal :=
  response.document P "JWKS document" "JWKS endpoint" maxJwksBytes

end EndpointResponse

structure UrlJWKSProvider where
  url : Str
  cacheSeconds : ℤ := 300
  timeoutSeconds : ℤ := 5
  secure : startsWith url "https://" = true
  positive : 0 < cacheSeconds ∧ 0 < timeoutSeconds

namespace UrlJWKSProvider

-- __init__
def create (url : Str) (cacheSeconds timeoutSeconds : ℤ) : Result UrlJWKSProvider :=
  if hsecure : startsWith url "https://" = true then
    if hpositive : 0 < cacheSeconds ∧ 0 < timeoutSeconds then
      .ok { url, cacheSeconds, timeoutSeconds, secure := hsecure, positive := hpositive }
    else .error (.valueError (lit "JWKS cache and timeout must be positive"))
  else .error (.valueError (lit "JWKS URL must use HTTPS"))

end UrlJWKSProvider

-- what a provider keeps of the documents it has fetched
structure JwksCache where
  jwks : Option PyDict := none
  expiresAt : ℚ := 0
  lastRotatedAt : ℚ := 0
  keyFingerprint : Option Str := none

structure FetchedKeys where
  document : PyDict
  fingerprint : Str

namespace Oidc

variable (P : Primitives)

def fingerprintStyle : Style := ⟨true, false⟩

def keysValue (keys : List (Str × PyDict)) : PyVal :=
  .dict (keys.map (fun key => (.str key.1, .dict key.2)))

def fingerprint (keys : List (Str × PyDict)) : Result Str := do
  let text ← P.dumps fingerprintStyle (keysValue keys)
  match encode text with
  | some bytes => .ok (hexdigest P bytes)
  | none => .error (.builtin .unicodeEncodeError)

-- the checks of _refresh_locked on the document it has read
def fetchedKeys (value : PyVal) : Result FetchedKeys := do
  let document ← (match value with
    | .dict document => .ok document
    | _ => .error (identityValidationError (lit "JWKS document is invalid")))
  let keys ← signingKeysById document
  let digest ← fingerprint P keys
  .ok ⟨document, digest⟩

def fetched (response : EndpointResponse) : Result FetchedKeys := do
  let value ← response.jwks P
  fetchedKeys P value

end Oidc

namespace JwksCache

variable (cache : JwksCache)

-- the document that get_jwks copies without a request
def live (now : Reading) : Option PyDict :=
  if cache.expiresAt ≤ now.seconds then none else cache.jwks

-- _refresh_locked, once a document has passed its checks: a new rotation is noted first
def rotate (got : FetchedKeys) (wall : Reading) : JwksCache :=
  { cache with
    lastRotatedAt :=
      if cache.keyFingerprint.any (fun known => got.fingerprint ≠ known) then wall.seconds
      else cache.lastRotatedAt }

def store (provider : UrlJWKSProvider) (got : FetchedKeys) (now wall : Reading) : JwksCache :=
  { cache.rotate got wall with
    jwks := some got.document
    expiresAt := now.plus provider.cacheSeconds
    keyFingerprint := some got.fingerprint }

end JwksCache

structure AdmittedToken where
  parsed : ParsedToken
  alg : Str
  kid : Str
  subject : Str

namespace OIDCValidator

open Oidc

variable (V : OIDCValidator) (P : Primitives)

-- the checks of validate before it asks the provider
def admitToken (token : Str) (nonce : Option Str) (now : ℚ) : Result AdmittedToken := do
  raiseIf (token = []) (identityValidationError (lit "token must be a non-empty string"))
  let parsed ← parseToken P token
  let (alg, kid) ← V.checkHeader parsed.header
  let subject ← V.checkSubject parsed.claims
  V.checkTenant parsed.claims
  checkNonce parsed.claims nonce
  V.checkAudience parsed.claims
  checkExpiry parsed.claims now
  checkNotBefore parsed.claims now
  checkIssuedAt parsed.claims now
  .ok ⟨parsed, alg, kid, subject⟩

end OIDCValidator

-- a validation that asks the provider, and the reading of the provider's clock when it began
structure OpenValidation where
  token : Str
  nonce : Option Str
  now : ℚ
  kid : Str
  began : Reading

-- the questions of a validation, with the document that the first was answered
inductive KeyQuestion where
  | first
  | refresh (first : PyDict)
  | second (first : PyDict)

-- the thread that fetches or stores holds the lock of the provider
inductive ValidationPhase where
  | idle
  | waiting (v : OpenValidation) (question : KeyQuestion)
  | fetching (v : OpenValidation) (question : KeyQuestion)
  | storing (v : OpenValidation) (question : KeyQuestion) (body : List UInt8) (got : FetchedKeys)

inductive JwksEvent where
  | stored (body : List UInt8) (document : PyDict) (now : Reading)
  -- nested too deeply to be copied
  | dropped (body : List UInt8) (document : PyDict)
  | concluded (v : OpenValidation) (answers : JWKSAnswers) (outcome : Result ExternalIdentity)
      (now : Reading)

inductive JwksMove (ι : Type) where
  | tick (now : Reading)
  | validate (i : ι) (token : Str) (nonce : Option Str) (now : ℚ)
  | acquire (i : ι)
  | respond (i : ι) (response : EndpointResponse)
  | store (i : ι) (wall : Reading)

-- threads that validate tokens with the keys of one provider
structure JwksWorld (ι : Type) where
  clock : Reading
  cache : JwksCache := {}
  holder : Option ι := none
  phase : ι → ValidationPhase := fun _ => .idle
  trace : List JwksEvent := []

-- in the place of an answer that validate does not ask for
def JWKSAnswers.unasked : Result PyVal := .error (identityValidationError [])

namespace JwksWorld

open Oidc

variable {ι Key : Type} [DecidableEq ι] (P : Primitives) (V : OIDCValidator)
  (C : Cryptography Key) (provider : UrlJWKSProvider) (w : JwksWorld ι)

def opened (clock : Reading) : JwksWorld ι := { clock }

def goTo (i : ι) (phase : ValidationPhase) : JwksWorld ι :=
  { w with phase := Function.update w.phase i phase }

def release : JwksWorld ι := { w with holder := none }

def log (event : JwksEvent) : JwksWorld ι := { w with trace := w.trace ++ [event] }

def conclude (i : ι) (v : OpenValidation) (answers : JWKSAnswers) : JwksWorld ι :=
  (w.log (.concluded v answers (V.validate C P v.token v.nonce v.now answers) w.clock)).goTo i .idle

-- what validate does once the provider has returned
def answered (i : ι) (v : OpenValidation) (document : PyDict) : KeyQuestion → JwksWorld ι
  | .first =>
      match signingKeysById document with
      | .error _ => w.conclude P V C i v ⟨.ok (.dict document), none, JWKSAnswers.unasked⟩
      | .ok keys =>
          if Dict.has keys v.kid then
            w.conclude P V C i v ⟨.ok (.dict document), none, JWKSAnswers.unasked⟩
          else w.goTo i (.waiting v (.refresh document))
  | .refresh first => w.goTo i (.waiting v (.second first))
  | .second first =>
      w.conclude P V C i v ⟨.ok (.dict first), some (.ok ()), .ok (.dict document)⟩

-- what validate does once the provider has raised
def raised (i : ι) (v : OpenValidation) (e : Exc) : KeyQuestion → JwksWorld ι
  | .first => w.conclude P V C i v ⟨.error e, none, JWKSAnswers.unasked⟩
  | .refresh first =>
      w.conclude P V C i v ⟨.ok (.dict first), some (.error e), JWKSAnswers.unasked⟩
  | .second first => w.conclude P V C i v ⟨.ok (.dict first), some (.ok ()), .error e⟩

def fetch (i : ι) (v : OpenValidation) (question : KeyQuestion) : JwksWorld ι :=
  { w with holder := some i }.goTo i (.fetching v question)

-- get_jwks, once it has the lock
def getJwks (i : ι) (v : OpenValidation) (question : KeyQuestion) : JwksWorld ι :=
  match w.cache.live w.clock with
  | none => w.fetch i v question
  | some document =>
      match P.deepcopy document with
      | .error e => w.raised P V C i v e question
      | .ok document => w.answered P V C i v document question

def ask (i : ι) (v : OpenValidation) : KeyQuestion → JwksWorld ι
  | .first => w.getJwks P V C i v .first
  | .refresh first => w.fetch i v (.refresh first)
  | .second first => w.getJwks P V C i v (.second first)

def receive (i : ι) (v : OpenValidation) (question : KeyQuestion) (response : EndpointResponse) :
    JwksWorld ι :=
  match fetched P response with
  | .error e => w.release.raised P V C i v e question
  | .ok got =>
      match response with
      | .served body => w.goTo i (.storing v question body got)
      | .failed => w

def keep (i : ι) (v : OpenValidation) (question : KeyQuestion) (body : List UInt8)
    (got : FetchedKeys) (wall : Reading) : JwksWorld ι :=
  match P.deepcopy got.document with
  | .error e =>
      let kept := { w with cache := w.cache.rotate got wall, holder := none }
      (kept.log (.dropped body got.document)).raised P V C i v e question
  | .ok document =>
      let kept := { w with cache := w.cache.store provider got w.clock wall, holder := none }
      (kept.log (.stored body document w.clock)).answered P V C i v document question

def step : JwksMove ι → JwksWorld ι
  | .tick now => if w.clock ≤ now then { w with clock := now } else w
  | .validate i token nonce now =>
      match w.phase i, V.admitToken P token nonce now with
      | .idle, .ok admitted =>
          w.goTo i (.waiting ⟨token, nonce, now, admitted.kid, w.clock⟩ .first)
      | _, _ => w
  | .acquire i =>
      match w.holder, w.phase i with
      | none, .waiting v question => w.ask P V C i v question
      | _, _ => w
  | .respond i response =>
      match w.phase i with
      | .fetching v question => w.receive P V C i v question response
      | _ => w
  | .store i wall =>
      match w.phase i with
      | .storing v question body got => w.keep P V C provider i v question body got wall
      | _ => w

end JwksWorld

namespace JwksEvent

variable {Key : Type} (P : Primitives) (V : OIDCValidator) (C : Cryptography Key)
  (provider : UrlJWKSProvider)

-- at some moment of a validation the document had been in the cache for less than its lifetime
def Current (before : List JwksEvent) (v : OpenValidation) (now : Reading) (document : PyDict) :
    Prop :=
  ∃ body stored asked, .stored body document stored ∈ before ∧ stored ≤ asked ∧ v.began ≤ asked ∧
    asked ≤ now ∧ asked.seconds < stored.seconds + provider.cacheSeconds

-- a document that the endpoint served whole, of public keys with ids of their own
structure Served (body : List UInt8) (document : PyDict) : Prop where
  bounded : body.length ≤ maxJwksBytes
  read : P.loadsBytes body = .ok (.dict document)
  keys : ∃ keys, Oidc.signingKeysById document = .ok keys

structure Followed (before : List JwksEvent) (v : OpenValidation) (answers : JWKSAnswers)
    (outcome : Result ExternalIdentity) (now : Reading) : Prop where
  documents : ∀ document,
    answers.first = .ok (.dict document) ∨ answers.second = .ok (.dict document) →
      Current provider before v now document
  missing : Oidc.signingKey answers v.kid = .ok none → ∃ body document stored,
    answers.second = .ok (.dict document) ∧ .stored body document stored ∈ before ∧
      v.began ≤ stored
  accepted : ∀ identity, outcome = .ok identity →
    V.Accepts C P v.token v.nonce v.now answers identity

-- what an event may say after the ones before it
def Justified (before : List JwksEvent) : JwksEvent → Prop
  | .stored body document _ => Served P body document
  | .dropped body document => Served P body document ∧ ¬ P.Copyable document
  | .concluded v answers outcome now => Followed P V C provider before v answers outcome now

def AllJustified (trace : List JwksEvent) : Prop :=
  Calls.Each (fun before event => before ++ [event]) (Justified P V C provider) [] trace

end JwksEvent

end GovernedAutonomy
