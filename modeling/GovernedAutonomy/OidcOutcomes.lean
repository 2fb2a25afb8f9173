import GovernedAutonomy.OneTimeTokens
import GovernedAutonomy.Python.Raises

namespace GovernedAutonomy

open Python

inductive KeyKind where
  | rsa
  | ec
  | ed25519

namespace Cryptography

def raisesOnKey (e : Exc) : Bool := e.isValueError || e.isTypeError

def raisesOnSignature (e : Exc) : Bool :=
  raisesOnKey e || (match e with
    | .custom cls _ _ _ => decide (cls = "InvalidSignature")
    | _ => false)

-- a library that raises what it documents, and passes a signature under a key of its kind only
structure Documented {Key : Type} (C : Cryptography Key) (kind : Key → KeyKind) : Prop where
  rsaKey : ∀ e n, OnlyRaises raisesOnKey (C.rsaKey e n)
  ecKey : ∀ curve point, OnlyRaises raisesOnKey (C.ecKey curve point)
  ed25519Key : ∀ raw, OnlyRaises raisesOnKey (C.ed25519Key raw)
  rsaKey_kind : ∀ {e n key}, C.rsaKey e n = .ok key → kind key = .rsa
  ecKey_kind : ∀ {curve point key}, C.ecKey curve point = .ok key → kind key = .ec
  ed25519Key_kind : ∀ {raw key}, C.ed25519Key raw = .ok key → kind key = .ed25519
  pkcs1 : ∀ key digest signature text,
    OnlyRaises raisesOnSignature (C.verifyPkcs1 key digest signature text)
  ecdsa : ∀ key digest r s text, OnlyRaises raisesOnSignature (C.verifyEcdsa key digest r s text)
  ed25519 : ∀ key signature text, OnlyRaises raisesOnSignature (C.verifyEd25519 key signature text)
  pkcs1_kind : ∀ {key digest signature text},
    C.verifyPkcs1 key digest signature text = .ok () → kind key = .rsa
  ecdsa_kind : ∀ {key digest r s text}, C.verifyEcdsa key digest r s text = .ok () → kind key = .ec
  ed25519_kind : ∀ {key signature text},
    C.verifyEd25519 key signature text = .ok () → kind key = .ed25519

end Cryptography

def isIdentityError : Exc → Bool
  | .custom cls _ _ _ => decide (cls = "IdentityValidationError")
  | _ => false

-- a provider that returns its documents, or raises as the providers of this module do
structure JWKSAnswers.Answer (jwks : JWKSAnswers) : Prop where
  first : OnlyRaises isIdentityError jwks.first
  refresh : OnlyRaises isIdentityError (jwks.refresh.getD (.ok ()))
  second : OnlyRaises isIdentityError jwks.second

namespace Oidc

section Statement

variable {Key : Type} (C : Cryptography Key) (P : Primitives)

structure Reads (token : Str) (parsed : ParsedToken) : Prop where
  parts : ∃ headerRaw payloadRaw signatureRaw,
    token.splitOn dot = [headerRaw, payloadRaw, signatureRaw] ∧
      loadsSegment P headerRaw = .ok (.dict parsed.header) ∧
      loadsSegment P payloadRaw = .ok (.dict parsed.claims) ∧
      parsed.signingInput = headerRaw ++ dot :: payloadRaw ∧
      isAscii parsed.signingInput = true ∧
      b64decode signatureRaw = .ok parsed.signature

-- a segment whose JSON is nested too deeply for the interpreter
def TooDeep (segment : Str) : Prop := loadsSegment P segment = .error (.builtin .recursionError)

-- an integer that no double stands for
def TooBig (v : PyVal) : Prop := ∃ i, v = .int i ∧ double i = none

-- the number that a finite int or float is; a boolean is none
def number? : PyVal → Option ℚ
  | .int i => some i
  | .float (.finite neg m) => some (if neg then -m.value else m.value)
  | _ => none

def Unexpired (claims : PyDict) (now : ℚ) : Prop :=
  ∃ exp, number? (claims.getD "exp") = some exp ∧ now < exp

def Begun (claims : PyDict) (now : ℚ) : Prop :=
  ∀ v, claims.get "nbf" = some v → ∃ notBefore, number? v = some notBefore ∧ notBefore ≤ now

def Answers (claims : PyDict) (nonce : Option Str) : Prop :=
  ∀ n, nonce = some n → claims.getD "nonce" = .str n

-- secrets.compare_digest can be asked
def Comparable (claims : PyDict) (nonce : Option Str) : Prop :=
  ∀ n s, nonce = some n → claims.getD "nonce" = .str s → isAscii s = true ∧ isAscii n = true

-- a public key of the provider's document, with this key id, and for this algorithm if for one
structure Published (jwks : JWKSAnswers) (alg kid : Str) (jwk : PyDict) : Prop where
  listed : ∃ (document : PyDict) (keys : List PyVal),
    (jwks.first = .ok (.dict document) ∨ jwks.second = .ok (.dict document)) ∧
    PyDict.getD document "keys" = .list keys ∧ .dict jwk ∈ keys
  isPublic : ∀ name ∈ privateJwkFields, PyDict.has jwk name = false
  has_kid : PyDict.getD jwk "kid" = .str kid
  has_alg : ∀ v, PyDict.get jwk "alg" = some v → v = .str alg

def digestSizes : List String := ["256", "384", "512"]

-- the signature is one of the key, by an algorithm of the kind of the key
inductive Verified (jwk : PyDict) : Str → List UInt8 → Str → Prop
  | rsa {bits : String} {e n : List UInt8} {key : Key} {signature : List UInt8} {text : Str} :
      bits ∈ digestSizes → PyDict.getD jwk "kty" = .str "RSA" →
      b64Member jwk "e" = .ok e → b64Member jwk "n" = .ok n →
      C.rsaKey (bigEndian e) (bigEndian n) = .ok key →
      C.verifyPkcs1 key (lit ("SHA" ++ bits)) signature text = .ok () →
      Verified jwk (lit ("RS" ++ bits)) signature text
  | ecdsa {bits : String} {curve : Str} {x y : List UInt8} {key : Key} {r s : List UInt8}
      {text : Str} :
      bits ∈ digestSizes → PyDict.getD jwk "kty" = .str "EC" → PyDict.getD jwk "crv" = .str curve →
      b64Member jwk "x" = .ok x → b64Member jwk "y" = .ok y →
      C.ecKey curve (4 :: (x ++ y)) = .ok key → r.length = s.length →
      C.verifyEcdsa key (lit ("SHA" ++ bits)) (bigEndian r) (bigEndian s) text = .ok () →
      Verified jwk (lit ("ES" ++ bits)) (r ++ s) text
  | ed25519 {x : List UInt8} {key : Key} {signature : List UInt8} {text : Str} :
      PyDict.getD jwk "kty" = .str "OKP" → PyDict.getD jwk "crv" = .str "Ed25519" →
      b64Member jwk "x" = .ok x → C.ed25519Key x = .ok key →
      C.verifyEd25519 key signature text = .ok () →
      Verified jwk (lit "EdDSA") signature text

end Statement

end Oidc

namespace OIDCValidator

open Oidc

section Statement

variable {Key : Type} (V : OIDCValidator) (C : Cryptography Key) (P : Primitives)

structure Trusts (header : PyDict) (alg kid : Str) : Prop where
  names_alg : header.getD "alg" = .str alg
  names_kid : header.getD "kid" = .str kid
  nonempty : kid ≠ []
  permitted : alg ≠ lit "none" ∧ alg ∈ V.algorithms

structure Names (claims : PyDict) (subject : Str) : Prop where
  iss : claims.getD "iss" = .str V.issuer
  sub : claims.getD "sub" = .str subject
  nonempty : subject ≠ []
  tenant : ∀ tenantId, V.tenantId = some tenantId → claims.getD "tid" = .str tenantId

def IsFor (claims : PyDict) : Prop :=
  ∃ name ∈ V.audience, claims.getD "aud" = .str name ∨
    ∃ xs, claims.getD "aud" = .list xs ∧ .str name ∈ xs

structure Accepts (token : Str) (nonce : Option Str) (now : ℚ) (jwks : JWKSAnswers)
    (identity : ExternalIdentity) : Prop where
  issuer : identity.issuer = V.issuer
  names : V.Names identity.claims identity.subject
  isFor : V.IsFor identity.claims
  answers : Answers identity.claims nonce
  unexpired : Unexpired identity.claims now
  begun : Begun identity.claims now
  signed : ∃ parsed alg kid jwk, Reads P token parsed ∧ parsed.claims = identity.claims ∧
    V.Trusts parsed.header alg kid ∧ Published jwks alg kid jwk ∧
    Verified C jwk alg parsed.signature parsed.signingInput

def FailsClosed (token : Str) (nonce : Option Str) (now : ℚ) (jwks : JWKSAnswers) : Prop :=
  match V.validate C P token nonce now jwks with
  | .ok identity => V.Accepts C P token nonce now jwks identity
  | .error e => isIdentityError e = true

-- a value of the token or the nonce that raises something else on the way to its check
inductive Escapes (token : Str) (nonce : Option Str) (now : ℚ) : Prop
  | header {headerRaw payloadRaw signatureRaw : Str} :
      token.splitOn dot = [headerRaw, payloadRaw, signatureRaw] → TooDeep P headerRaw →
      Escapes token nonce now
  | payload {headerRaw payloadRaw signatureRaw : Str} {header : PyVal} :
      token.splitOn dot = [headerRaw, payloadRaw, signatureRaw] →
      loadsSegment P headerRaw = .ok header → TooDeep P payloadRaw → Escapes token nonce now
  | nonce {parsed : ParsedToken} {alg kid subject : Str} :
      Reads P token parsed → V.Trusts parsed.header alg kid → V.Names parsed.claims subject →
      ¬ Comparable parsed.claims nonce → Escapes token nonce now
  | expiry {parsed : ParsedToken} {alg kid subject : Str} :
      Reads P token parsed → V.Trusts parsed.header alg kid → V.Names parsed.claims subject →
      Comparable parsed.claims nonce → Answers parsed.claims nonce → V.IsFor parsed.claims →
      TooBig (parsed.claims.getD "exp") → Escapes token nonce now
  | notBefore {parsed : ParsedToken} {alg kid subject : Str} {v : PyVal} :
      Reads P token parsed → V.Trusts parsed.header alg kid → V.Names parsed.claims subject →
      Comparable parsed.claims nonce → Answers parsed.claims nonce → V.IsFor parsed.claims →
      Unexpired parsed.claims now → ¬ TooBig (parsed.claims.getD "exp") →
      parsed.claims.get "nbf" = some v → TooBig v → Escapes token nonce now
  | issuedAt {parsed : ParsedToken} {alg kid subject : Str} {v : PyVal} :
      Reads P token parsed → V.Trusts parsed.header alg kid → V.Names parsed.claims subject →
      Comparable parsed.claims nonce → Answers parsed.claims nonce → V.IsFor parsed.claims →
      Unexpired parsed.claims now → ¬ TooBig (parsed.claims.getD "exp") →
      Begun parsed.claims now → (∀ v, parsed.claims.get "nbf" = some v → ¬ TooBig v) →
      parsed.claims.get "iat" = some v → TooBig v → Escapes token nonce now

end Statement

end OIDCValidator

namespace Oidc

section Reading

variable {P : Primitives} {token : Str}

theorem onlyRaises_a2bBase64 (s : Str) : ∀ st : Base64State,
    OnlyRaises Exc.isValueError (a2bBase64 st s) := by
  induction s with
  | nil =>
      intro st
      rw [a2bBase64]
      split_ifs
      · exact onlyRaises_ok _
      · exact onlyRaises_error rfl
      · exact onlyRaises_error rfl
  | cons p rest ih =>
      intro st
      rw [a2bBase64]
      split_ifs
      · exact ih _
      · exact onlyRaises_ok _
      · exact ih _
      · split
        · exact ih _
        · split
          · exact ih _
          · exact ih _
          · exact ih _
          · exact ih _

theorem onlyRaises_b64decode (value : Str) : OnlyRaises Exc.isValueError (b64decode value) := by
  rw [b64decode]
  split_ifs
  · exact onlyRaises_a2bBase64 _ _
  · exact onlyRaises_error rfl

-- json.loads raises a ValueError, but for its recursion
theorem loadsSegment_error {segment : Str} {e : Exc} (h : loadsSegment P segment = .error e) :
    e.isValueError = true ∨ TooDeep P segment := by
  have hsegment := h
  rw [loadsSegment, bind_eq_error] at h
  rcases h with h | ⟨raw, -, h⟩
  · exact .inl (onlyRaises_b64decode segment e h)
  · rw [Interpreter.loadsBytes] at h
    split at h
    · cases h
      exact .inl rfl
    · rw [Interpreter.loads] at h
      split at h
      · cases h
      · cases h
        exact .inl rfl
      · cases h
        exact .inl rfl
      · cases h
        exact .inr hsegment

theorem reads_of_parseToken {parsed : ParsedToken} (h : parseToken P token = .ok parsed) :
    Reads P token parsed := by
  rw [parseToken, bind_eq_ok] at h
  obtain ⟨⟨header, claims, signingInput, signature⟩, hsplit, h⟩ := h
  rw [reraise_eq_ok, splitToken] at hsplit
  split at hsplit
  · rename_i headerRaw payloadRaw signatureRaw htoken
    simp only [bind_eq_ok, raiseIf_eq_ok, Bool.not_eq_false] at hsplit
    obtain ⟨header', hheader, claims', hclaims, -, hascii, signature', hsignature, hparts⟩ := hsplit
    cases hparts
    dsimp only at h
    split at h
    · cases h
      exact ⟨_, _, _, htoken, hheader, hclaims, rfl, hascii, hsignature⟩
    · cases h
  · cases hsplit

theorem parseToken_of_reads {parsed : ParsedToken} (h : Reads P token parsed) :
    parseToken P token = .ok parsed := by
  obtain ⟨headerRaw, payloadRaw, signatureRaw, htoken, hheader, hclaims, hinput, hascii,
    hsignature⟩ := h.parts
  have hsplit : splitToken P token =
      .ok (.dict parsed.header, .dict parsed.claims, parsed.signingInput, parsed.signature) := by
    rw [splitToken, htoken]
    simp only [hheader, hclaims, ← hinput, hsignature, bind, Except.bind]
    rw [raiseIf_of_not (by simp [hascii])]
  rw [parseToken, hsplit]
  rfl

theorem splitToken_error {e : Exc} (h : splitToken P token = .error e) :
    e.isValueError = true ∨ ∃ headerRaw payloadRaw signatureRaw,
      token.splitOn dot = [headerRaw, payloadRaw, signatureRaw] ∧
        (TooDeep P headerRaw ∨
          (∃ header, loadsSegment P headerRaw = .ok header) ∧ TooDeep P payloadRaw) := by
  rw [splitToken] at h
  split at h
  · rename_i headerRaw payloadRaw signatureRaw htoken
    rcases bind_eq_error.mp h with h | ⟨header, hheader, h⟩
    · exact (loadsSegment_error h).imp_right fun hdeep => ⟨_, _, _, htoken, .inl hdeep⟩
    · rcases bind_eq_error.mp h with h | ⟨claims, -, h⟩
      · exact (loadsSegment_error h).imp_right fun hdeep =>
          ⟨_, _, _, htoken, .inr ⟨⟨header, hheader⟩, hdeep⟩⟩
      · left
        rcases bind_eq_error.mp h with h | ⟨-, -, h⟩
        · exact onlyRaises_raiseIf rfl e h
        · rcases bind_eq_error.mp h with h | ⟨signature, -, h⟩
          · exact onlyRaises_b64decode _ e h
          · cases h
  · cases h
    exact .inl rfl

end Reading

end Oidc

namespace OIDCValidator

open Oidc

section Checks

variable {V : OIDCValidator} {claims header : PyDict} {now : ℚ} {nonce : Option Str}

theorem checkHeader_eq_ok {alg kid : Str} :
    V.checkHeader header = .ok (alg, kid) ↔ V.Trusts header alg kid := by
  constructor
  · intro h
    rw [checkHeader] at h
    split at h
    · rename_i alg' c kid' halg hkid
      split_ifs at h with hpermitted
      cases h
      exact ⟨halg, hkid, List.cons_ne_nil _ _, hpermitted⟩
    · cases h
  · rintro ⟨halg, hkid, hnonempty, hpermitted⟩
    obtain ⟨c, kid', rfl⟩ := List.exists_cons_of_ne_nil hnonempty
    rw [checkHeader, halg, hkid]
    exact if_pos hpermitted

theorem checkHeader_raises : OnlyRaises isIdentityError (V.checkHeader header) := by
  rw [checkHeader]
  split
  · split_ifs
    · exact onlyRaises_ok _
    · exact onlyRaises_error rfl
  · exact onlyRaises_error rfl

theorem checkSubject_eq_ok {subject : Str} : V.checkSubject claims = .ok subject ↔
    claims.getD "iss" = .str V.issuer ∧ claims.getD "sub" = .str subject ∧ subject ≠ [] := by
  rw [checkSubject]
  by_cases hiss : claims.getD "iss" = .str V.issuer
  · rw [if_pos (PyVal.eq_str_right.mpr hiss)]
    constructor
    · intro h
      split at h
      · rename_i c s hsub
        cases h
        exact ⟨hiss, hsub, List.cons_ne_nil _ _⟩
      · cases h
    · rintro ⟨-, hsub, hnonempty⟩
      obtain ⟨c, s, rfl⟩ := List.exists_cons_of_ne_nil hnonempty
      rw [hsub]
  · rw [if_neg (fun h => hiss (PyVal.eq_str_right.mp h))]
    constructor
    · intro h
      cases h
    · rintro ⟨h, -⟩
      exact absurd h hiss

theorem checkSubject_raises : OnlyRaises isIdentityError (V.checkSubject claims) := by
  rw [checkSubject]
  split
  · split
    · exact onlyRaises_ok _
    · exact onlyRaises_error rfl
  · exact onlyRaises_error rfl

theorem checkTenant_eq_ok : V.checkTenant claims = .ok () ↔
    ∀ tenantId, V.tenantId = some tenantId → claims.getD "tid" = .str tenantId := by
  rw [checkTenant]
  cases V.tenantId with
  | none => simp
  | some tenantId =>
      dsimp only
      by_cases htid : claims.getD "tid" = .str tenantId
      · rw [if_pos (PyVal.eq_str_right.mpr htid)]
        simp [htid]
      · rw [if_neg (fun h => htid (PyVal.eq_str_right.mp h))]
        simp [htid]

theorem checkTenant_raises : OnlyRaises isIdentityError (V.checkTenant claims) := by
  rw [checkTenant]
  split
  · exact onlyRaises_ok _
  · split
    · exact onlyRaises_ok _
    · exact onlyRaises_error rfl

theorem names_iff {subject : Str} : V.Names claims subject ↔
    V.checkSubject claims = .ok subject ∧ V.checkTenant claims = .ok () := by
  rw [checkSubject_eq_ok, checkTenant_eq_ok]
  exact ⟨fun h => ⟨⟨h.iss, h.sub, h.nonempty⟩, h.tenant⟩,
    fun ⟨⟨hiss, hsub, hnonempty⟩, htenant⟩ => ⟨hiss, hsub, hnonempty, htenant⟩⟩

theorem checkNonce_eq_ok :
    checkNonce claims nonce = .ok () ↔ Answers claims nonce ∧ Comparable claims nonce := by
  cases nonce with
  | none => simp [checkNonce, Answers, Comparable]
  | some n =>
      rw [checkNonce]
      split
      · rename_i s hs
        by_cases hascii : isAscii s = true ∧ isAscii n = true
        · rw [if_pos hascii]
          by_cases hsn : s = n
          · subst hsn
            simp [Answers, Comparable, hs, hascii]
          · simp [Answers, hs, hsn]
        · rw [if_neg hascii]
          simp [Comparable, hs, hascii]
      · rename_i hother
        have hn : claims.getD "nonce" ≠ .str n := hother n
        simp [Answers, hn]

theorem checkNonce_raises (h : Comparable claims nonce) :
    OnlyRaises isIdentityError (checkNonce claims nonce) := by
  cases nonce with
  | none => exact onlyRaises_ok _
  | some n =>
      rw [checkNonce]
      split
      · rename_i s hs
        rw [if_pos (h n s rfl hs)]
        split_ifs
        · exact onlyRaises_ok _
        · exact onlyRaises_error rfl
      · exact onlyRaises_error rfl

theorem checkNonce_escapes (h : ¬ Comparable claims nonce) :
    checkNonce claims nonce = .error (.builtin .typeError) := by
  simp only [Comparable, not_forall] at h
  obtain ⟨n, s, rfl, hs, hascii⟩ := h
  rw [checkNonce, hs]
  exact if_neg hascii

theorem isAudience_iff {v : PyVal} : V.isAudience v = true ↔ ∃ name ∈ V.audience, v = .str name := by
  simp only [isAudience, List.any_eq_true, PyVal.eq_str_right]

theorem checkAudience_eq_ok : V.checkAudience claims = .ok () ↔ V.IsFor claims := by
  rw [checkAudience, IsFor]
  generalize claims.getD "aud" = audience
  cases audience with
  | str s =>
      by_cases haudience : V.isAudience (.str s) = true
      · obtain ⟨name, hname, h⟩ := isAudience_iff.mp haudience
        exact iff_of_true (if_pos haudience) ⟨name, hname, .inl h⟩
      · apply iff_of_false
        · simp [haudience]
        · rintro ⟨name, hname, h | ⟨xs, h, -⟩⟩
          · exact haudience (isAudience_iff.mpr ⟨name, hname, h⟩)
          · cases h
  | list xs =>
      by_cases haudience : xs.any V.isAudience = true
      · obtain ⟨x, hx, h⟩ := List.any_eq_true.mp haudience
        obtain ⟨name, hname, rfl⟩ := isAudience_iff.mp h
        exact iff_of_true (if_pos haudience) ⟨name, hname, .inr ⟨xs, rfl, hx⟩⟩
      · apply iff_of_false
        · dsimp only
          rw [if_neg haudience]
          rintro ⟨⟩
        · rintro ⟨name, hname, h | ⟨xs', h, hmem⟩⟩
          · cases h
          · cases h
            exact haudience
              (List.any_eq_true.mpr ⟨_, hmem, isAudience_iff.mpr ⟨name, hname, rfl⟩⟩)
  | _ => simp

theorem checkAudience_raises : OnlyRaises isIdentityError (V.checkAudience claims) := by
  rw [checkAudience]
  split
  · split_ifs
    · exact onlyRaises_ok _
    · exact onlyRaises_error rfl
  · split_ifs
    · exact onlyRaises_ok _
    · exact onlyRaises_error rfl
  · exact onlyRaises_error rfl

theorem finiteNumber_of_tooBig {v : PyVal} (h : TooBig v) :
    finiteNumber v = .error (.builtin .overflowError) := by
  obtain ⟨i, rfl, hi⟩ := h
  simp only [finiteNumber, hi]

theorem finiteNumber_of_not_tooBig {v : PyVal} (h : ¬ TooBig v) :
    finiteNumber v = .ok (number? v) := by
  cases v with
  | int i =>
      cases hi : double i with
      | none => exact absurd ⟨i, rfl, hi⟩ h
      | some x => simp only [finiteNumber, hi, number?]
  | float f =>
      cases f with
      | finite neg m => rfl
      | _ => rfl
  | _ => rfl

theorem checkExpiry_eq (h : ¬ TooBig (claims.getD "exp")) :
    checkExpiry claims now = raiseIf (¬ (number? (claims.getD "exp")).any (fun exp => now < exp))
      (identityValidationError (lit "token is expired or has no expiry")) := by
  rw [checkExpiry, finiteNumber_of_not_tooBig h]
  rfl

theorem checkExpiry_eq_ok (h : ¬ TooBig (claims.getD "exp")) :
    checkExpiry claims now = .ok () ↔ Unexpired claims now := by
  rw [checkExpiry_eq h, raiseIf_eq_ok, not_not, Option.any_eq_true, Unexpired]
  simp only [decide_eq_true_eq]

theorem checkNotBefore_eq {v : PyVal} (hv : claims.get "nbf" = some v) (h : ¬ TooBig v) :
    checkNotBefore claims now = raiseIf (¬ (number? v).any (fun notBefore => notBefore ≤ now))
      (identityValidationError (lit "token is not yet valid")) := by
  rw [checkNotBefore, hv]
  dsimp only
  rw [finiteNumber_of_not_tooBig h]
  rfl

theorem checkNotBefore_eq_ok (h : ∀ v, claims.get "nbf" = some v → ¬ TooBig v) :
    checkNotBefore claims now = .ok () ↔ Begun claims now := by
  rw [Begun]
  cases hv : claims.get "nbf" with
  | none => simp [checkNotBefore, hv]
  | some v =>
      rw [checkNotBefore_eq hv (h v hv), raiseIf_eq_ok, not_not, Option.any_eq_true]
      simp only [decide_eq_true_eq, Option.some.injEq, forall_eq']

theorem checkNotBefore_raises (h : ∀ v, claims.get "nbf" = some v → ¬ TooBig v) :
    OnlyRaises isIdentityError (checkNotBefore claims now) := by
  cases hv : claims.get "nbf" with
  | none =>
      rw [checkNotBefore, hv]
      exact onlyRaises_ok _
  | some v =>
      rw [checkNotBefore_eq hv (h v hv)]
      exact onlyRaises_raiseIf rfl

theorem checkIssuedAt_raises (h : ∀ v, claims.get "iat" = some v → ¬ TooBig v) :
    OnlyRaises isIdentityError (checkIssuedAt claims now) := by
  rw [checkIssuedAt]
  cases hv : claims.get "iat" with
  | none => exact onlyRaises_ok _
  | some v =>
      dsimp only
      rw [finiteNumber_of_not_tooBig (h v hv)]
      exact onlyRaises_raiseIf rfl

end Checks

end OIDCValidator

namespace Oidc

section Keys

variable {Key : Type} {kind : Key → KeyKind} {C : Cryptography Key}

theorem raisesOnKey_le {e : Exc} (h : Cryptography.raisesOnKey e = true) : isInvalidKey e = true := by
  unfold isInvalidKey
  exact Bool.or_eq_true_iff.mpr (.inl h)

theorem raisesOnSignature_le {e : Exc} (h : Cryptography.raisesOnSignature e = true) :
    isInvalidSignature e = true := by
  unfold isInvalidSignature
  exact Bool.or_eq_true_iff.mpr ((Bool.or_eq_true_iff.mp h).imp_left raisesOnKey_le)

theorem isInvalidKey_of_isValueError {e : Exc} (h : e.isValueError = true) :
    isInvalidKey e = true := raisesOnKey_le (Bool.or_eq_true_iff.mpr (.inl h))

theorem b64Member_raises (jwk : PyDict) (name : String) :
    OnlyRaises isInvalidKey (b64Member jwk name) := by
  rw [b64Member]
  split
  · exact onlyRaises_error rfl
  · exact (onlyRaises_b64decode _).mono fun _ => isInvalidKey_of_isValueError
  · exact onlyRaises_error rfl

theorem knownKey_raises (hC : C.Documented kind) (jwk : PyDict) :
    OnlyRaises isInvalidKey (knownKey C jwk) := by
  rw [knownKey]
  split_ifs
  · refine (b64Member_raises jwk "e").bind fun e => (b64Member_raises jwk "n").bind fun n => ?_
    refine OnlyRaises.bind ?_ fun _ => onlyRaises_ok _
    exact (hC.rsaKey _ _).mono fun _ => raisesOnKey_le
  · split
    · split_ifs
      · refine (b64Member_raises jwk "x").bind fun x => (b64Member_raises jwk "y").bind fun y => ?_
        refine OnlyRaises.bind ?_ fun _ => onlyRaises_ok _
        exact (hC.ecKey _ _).mono fun _ => raisesOnKey_le
      · exact onlyRaises_ok _
    · split_ifs
      · exact onlyRaises_ok _
      · exact onlyRaises_error rfl
  · refine (b64Member_raises jwk "x").bind fun x => ?_
    refine OnlyRaises.bind ?_ fun _ => onlyRaises_ok _
    exact (hC.ed25519Key _).mono fun _ => raisesOnKey_le
  · exact onlyRaises_ok _

theorem jwkKey_raises (hC : C.Documented kind) (jwk : PyDict) :
    OnlyRaises isIdentityError (jwkKey C jwk) := by
  rw [jwkKey]
  refine (onlyRaises_reraise rfl (knownKey_raises hC jwk)).bind fun key => ?_
  cases key with
  | none => exact onlyRaises_error rfl
  | some key => exact onlyRaises_ok _

theorem digestOf_raises (family : String) (alg : Str) :
    OnlyRaises isInvalidSignature (digestOf family alg) := by
  rw [digestOf]
  split
  · exact onlyRaises_ok _
  · exact onlyRaises_error rfl

theorem verify_raises (hC : C.Documented kind) (alg : Str) (key : Key) (signature : List UInt8)
    (text : Str) : OnlyRaises isInvalidSignature (verify C alg key signature text) := by
  rw [verify]
  split_ifs
  · refine (digestOf_raises "RS" alg).bind fun digest => ?_
    exact (hC.pkcs1 _ _ _ _).mono fun _ => raisesOnSignature_le
  · refine (onlyRaises_raiseIf rfl).bind fun _ => (digestOf_raises "ES" alg).bind fun digest => ?_
    exact (hC.ecdsa _ _ _ _ _).mono fun _ => raisesOnSignature_le
  · exact (hC.ed25519 _ _ _).mono fun _ => raisesOnSignature_le
  · exact onlyRaises_error rfl

theorem addSigningKey_raises (keys : List (Str × PyDict)) (value : PyVal) :
    OnlyRaises isIdentityError (addSigningKey keys value) := by
  have hitem : OnlyRaises isIdentityError (publicKeyItem value) := by
    rw [publicKeyItem.eq_def]
    split
    · split_ifs
      · exact onlyRaises_error rfl
      · exact onlyRaises_ok _
    · exact onlyRaises_error rfl
  rw [addSigningKey]
  refine hitem.bind fun item => ?_
  split_ifs
  · split
    · split_ifs
      · exact onlyRaises_error rfl
      · exact onlyRaises_ok _
    · exact onlyRaises_error rfl
  · exact onlyRaises_ok _

theorem signingKeysById_raises (jwks : PyDict) :
    OnlyRaises isIdentityError (signingKeysById jwks) := by
  rw [signingKeysById]
  split
  · exact onlyRaises_foldlM addSigningKey_raises _ _
  · exact onlyRaises_error rfl

theorem keysOf_raises {answer : Result PyVal} (h : OnlyRaises isIdentityError answer) :
    OnlyRaises isIdentityError (keysOf answer) := by
  rw [keysOf]
  refine h.bind fun jwks => ?_
  split
  · exact signingKeysById_raises _
  · exact onlyRaises_error rfl

theorem signingKey_raises {jwks : JWKSAnswers} (hjwks : jwks.Answer) (kid : Str) :
    OnlyRaises isIdentityError (signingKey jwks kid) := by
  rw [signingKey]
  refine (keysOf_raises hjwks.first).bind fun keys => ?_
  split
  · exact onlyRaises_ok _
  · refine hjwks.refresh.bind fun _ => (keysOf_raises hjwks.second).bind fun _ => ?_
    exact onlyRaises_ok _

theorem checkSignature_raises (hC : C.Documented kind) {jwks : JWKSAnswers} (hjwks : jwks.Answer)
    (alg kid : Str) (signature : List UInt8) (text : Str) :
    OnlyRaises isIdentityError (OIDCValidator.checkSignature C jwks alg kid signature text) := by
  rw [OIDCValidator.checkSignature]
  refine (signingKey_raises hjwks kid).bind fun jwk => ?_
  cases jwk with
  | none => exact onlyRaises_error rfl
  | some jwk =>
      refine (onlyRaises_raiseIf rfl).bind fun _ => (jwkKey_raises hC jwk).bind fun key => ?_
      exact onlyRaises_reraise rfl (verify_raises hC alg key signature text)

-- what is known of an item that _signing_keys_by_id has taken
def Listed (values : List PyVal) (keys : List (Str × PyDict)) : Prop :=
  ∀ kid jwk, Dict.get keys kid = some jwk → .dict jwk ∈ values ∧
    (∀ name ∈ privateJwkFields, PyDict.has jwk name = false) ∧
    PyDict.getD jwk "kid" = .str kid

theorem listed_append {values : List PyVal} {keys : List (Str × PyDict)}
    (h : Listed values keys) (value : PyVal) : Listed (values ++ [value]) keys :=
  fun kid jwk hjwk => (h kid jwk hjwk).imp_left (List.mem_append_left _)

theorem publicKeyItem_eq_ok {value : PyVal} {item : PyDict} (h : publicKeyItem value = .ok item) :
    value = .dict item ∧ ∀ name ∈ privateJwkFields, PyDict.has item name = false := by
  rw [publicKeyItem.eq_def] at h
  split at h
  · split_ifs at h with hprivate
    cases h
    refine ⟨rfl, fun name hname => Bool.eq_false_iff.mpr fun hhas => hprivate ?_⟩
    exact List.any_eq_true.mpr ⟨name, hname, hhas⟩
  · cases h

theorem listed_addSigningKey (values : List PyVal) (keys : List (Str × PyDict)) (value : PyVal)
    (keys' : List (Str × PyDict)) (hkeys : Listed values keys)
    (h : addSigningKey keys value = .ok keys') : Listed (values ++ [value]) keys' := by
  rw [addSigningKey, bind_eq_ok] at h
  obtain ⟨item, hitem, h⟩ := h
  obtain ⟨rfl, hpublic⟩ := publicKeyItem_eq_ok hitem
  split_ifs at h
  · split at h
    · rename_i c s hkid
      split_ifs at h
      cases h
      intro kid jwk hjwk
      rw [Dict.get_set] at hjwk
      split_ifs at hjwk with hsame
      · cases hjwk
        obtain rfl := of_decide_eq_true hsame
        exact ⟨List.mem_append_right _ List.mem_cons_self, hpublic, hkid⟩
      · exact listed_append hkeys (.dict item) kid jwk hjwk
    · cases h
  · cases h
    exact listed_append hkeys _

theorem listed_keysOf {answer : Result PyVal} {keys : List (Str × PyDict)}
    (h : keysOf answer = .ok keys) : ∃ (document : PyDict) (values : List PyVal),
      answer = .ok (.dict document) ∧ document.getD "keys" = .list values ∧ Listed values keys := by
  rw [keysOf, bind_eq_ok] at h
  obtain ⟨jwks, hanswer, h⟩ := h
  split at h
  · rename_i document
    rw [signingKeysById] at h
    split at h
    · rename_i values hvalues
      refine ⟨document, values, hanswer, hvalues, ?_⟩
      have hnil : Listed [] [] := by
        intro kid jwk hjwk
        cases hjwk
      exact foldlM_invariant listed_addSigningKey values hnil h
    · cases h
  · cases h

theorem published_of_signingKey {jwks : JWKSAnswers} {alg kid : Str} {jwk : PyDict}
    (h : signingKey jwks kid = .ok (some jwk))
    (halg : ((PyDict.get jwk "alg").getD (.str alg)).eq (.str alg) = true) :
    Published jwks alg kid jwk := by
  have halg' : ∀ v, PyDict.get jwk "alg" = some v → v = .str alg := by
    intro v hv
    rw [hv] at halg
    exact PyVal.eq_str_right.mp halg
  rw [signingKey, bind_eq_ok] at h
  obtain ⟨keys, hkeys, h⟩ := h
  split at h
  · rename_i jwk' hjwk
    cases h
    obtain ⟨document, values, hanswer, hvalues, hlisted⟩ := listed_keysOf hkeys
    obtain ⟨hmem, hpublic, hkid⟩ := hlisted kid jwk hjwk
    exact ⟨⟨document, values, .inl hanswer, hvalues, hmem⟩, hpublic, hkid, halg'⟩
  · simp only [bind_eq_ok] at h
    obtain ⟨-, -, keys, hkeys, h⟩ := h
    obtain ⟨document, values, hanswer, hvalues, hlisted⟩ := listed_keysOf hkeys
    obtain ⟨hmem, hpublic, hkid⟩ := hlisted kid jwk (Except.ok.inj h)
    exact ⟨⟨document, values, .inr hanswer, hvalues, hmem⟩, hpublic, hkid, halg'⟩

theorem digestOf_eq_ok {family : String} {alg digest : Str} (h : digestOf family alg = .ok digest) :
    ∃ bits ∈ digestSizes, alg = lit (family ++ bits) ∧ digest = lit ("SHA" ++ bits) := by
  rw [digestOf] at h
  split at h
  · rename_i bits hbits
    cases h
    exact ⟨bits, List.mem_of_find?_eq_some hbits, by simpa using List.find?_some hbits, rfl⟩
  · cases h

theorem raisedKey {x : Result Key} {key : Key}
    (h : (x >>= fun key => .ok (some key)) = .ok (some key)) : x = .ok key := by
  obtain ⟨key', hkey, h⟩ := bind_eq_ok.mp h
  cases h
  exact hkey

inductive MadeFrom (C : Cryptography Key) (jwk : PyDict) (key : Key) : Prop
  | rsa {e n : List UInt8} : PyDict.getD jwk "kty" = .str "RSA" →
      b64Member jwk "e" = .ok e → b64Member jwk "n" = .ok n →
      C.rsaKey (bigEndian e) (bigEndian n) = .ok key → MadeFrom C jwk key
  | ec {curve : Str} {x y : List UInt8} : PyDict.getD jwk "kty" = .str "EC" →
      PyDict.getD jwk "crv" = .str curve → b64Member jwk "x" = .ok x → b64Member jwk "y" = .ok y →
      C.ecKey curve (4 :: (x ++ y)) = .ok key → MadeFrom C jwk key
  | ed25519 {x : List UInt8} : PyDict.getD jwk "kty" = .str "OKP" →
      PyDict.getD jwk "crv" = .str "Ed25519" → b64Member jwk "x" = .ok x →
      C.ed25519Key x = .ok key → MadeFrom C jwk key

theorem madeFrom_of_knownKey {jwk : PyDict} {key : Key} (h : knownKey C jwk = .ok (some key)) :
    MadeFrom C jwk key := by
  rw [knownKey] at h
  split_ifs at h with hrsa hec hokp
  · obtain ⟨e, he, h⟩ := bind_eq_ok.mp h
    obtain ⟨n, hn, h⟩ := bind_eq_ok.mp h
    exact .rsa (PyVal.eq_str_right.mp hrsa) he hn (raisedKey h)
  · split at h
    · rename_i curve hcurve
      split_ifs at h
      · obtain ⟨x, hx, h⟩ := bind_eq_ok.mp h
        obtain ⟨y, hy, h⟩ := bind_eq_ok.mp h
        exact .ec (PyVal.eq_str_right.mp hec) hcurve hx hy (raisedKey h)
      · cases h
    · split_ifs at h
      · cases h
  · obtain ⟨x, hx, h⟩ := bind_eq_ok.mp h
    exact .ed25519 (PyVal.eq_str_right.mp hokp.1) (PyVal.eq_str_right.mp hokp.2) hx (raisedKey h)
  · cases h

-- a key is of the kind of the branch of _jwk_key that has made it
theorem verified_of_verify (hC : C.Documented kind) {jwk : PyDict} {key : Key} {alg : Str}
    {signature : List UInt8} {text : Str} (hkey : MadeFrom C jwk key)
    (h : verify C alg key signature text = .ok ()) : Verified C jwk alg signature text := by
  rw [verify] at h
  split_ifs at h with hrs hes hed
  · obtain ⟨digest, hdigest, h⟩ := bind_eq_ok.mp h
    obtain ⟨bits, hbits, rfl, rfl⟩ := digestOf_eq_ok hdigest
    have hkind := hC.pkcs1_kind h
    cases hkey with
    | rsa hkty he hn hkey => exact .rsa hbits hkty he hn hkey h
    | ec _ _ _ _ hkey => cases (hC.ecKey_kind hkey).symm.trans hkind
    | ed25519 _ _ _ hkey => cases (hC.ed25519Key_kind hkey).symm.trans hkind
  · simp only [bind_eq_ok, raiseIf_eq_ok, not_not] at h
    obtain ⟨-, heven, digest, hdigest, h⟩ := h
    obtain ⟨bits, hbits, rfl, rfl⟩ := digestOf_eq_ok hdigest
    have hkind := hC.ecdsa_kind h
    cases hkey with
    | rsa _ _ _ hkey => cases (hC.rsaKey_kind hkey).symm.trans hkind
    | ec hkty hcrv hx hy hkey =>
        have hhalves : (signature.take (signature.length / 2)).length =
            (signature.drop (signature.length / 2)).length := by
          simp only [List.length_take, List.length_drop]
          omega
        rw [← List.take_append_drop (signature.length / 2) signature]
        exact .ecdsa hbits hkty hcrv hx hy hkey hhalves h
    | ed25519 _ _ _ hkey => cases (hC.ed25519Key_kind hkey).symm.trans hkind
  · subst hed
    have hkind := hC.ed25519_kind h
    cases hkey with
    | rsa _ _ _ hkey => cases (hC.rsaKey_kind hkey).symm.trans hkind
    | ec _ _ _ _ hkey => cases (hC.ecKey_kind hkey).symm.trans hkind
    | ed25519 hkty hcrv hx hkey => exact .ed25519 hkty hcrv hx hkey h

theorem signed_of_checkSignature (hC : C.Documented kind) {jwks : JWKSAnswers} {alg kid : Str}
    {signature : List UInt8} {text : Str}
    (h : OIDCValidator.checkSignature C jwks alg kid signature text = .ok ()) :
    ∃ jwk, Published jwks alg kid jwk ∧ Verified C jwk alg signature text := by
  rw [OIDCValidator.checkSignature, bind_eq_ok] at h
  obtain ⟨jwk, hjwk, h⟩ := h
  cases jwk with
  | none => cases h
  | some jwk =>
      simp only [bind_eq_ok, raiseIf_eq_ok, reraise_eq_ok, Bool.not_eq_false] at h
      obtain ⟨-, halg, key, hkey, hverify⟩ := h
      rw [jwkKey, bind_eq_ok] at hkey
      obtain ⟨key', hknown, hkey⟩ := hkey
      cases key' with
      | none => cases hkey
      | some key' =>
          cases hkey
          have hmade := madeFrom_of_knownKey (reraise_eq_ok.mp hknown)
          exact ⟨jwk, published_of_signingKey hjwk halg, verified_of_verify hC hmade hverify⟩

end Keys

end Oidc

namespace OIDCValidator

open Oidc

section Main

variable {Key : Type} {kind : Key → KeyKind} (V : OIDCValidator) (C : Cryptography Key)
  (P : Primitives) {token : Str} {nonce : Option Str} {now : ℚ} {jwks : JWKSAnswers}

theorem accepts_of_validate (hC : C.Documented kind)
    (hfinite : ¬ V.Escapes P token nonce now) {identity : ExternalIdentity}
    (h : V.validate C P token nonce now jwks = .ok identity) :
    V.Accepts C P token nonce now jwks identity := by
  rw [validate] at h
  simp only [bind_eq_ok] at h
  obtain ⟨_, -, parsed, hparsed, ⟨alg, kid⟩, hheader, subject, hsubject, _, htenant, _, hnonce, _,
    haudience, _, hexpiry, _, hnotBefore, _, -, _, hsignature, h⟩ := h
  cases h
  have hreads := reads_of_parseToken hparsed
  have htrusts := checkHeader_eq_ok.mp hheader
  have hnames := names_iff.mpr ⟨hsubject, htenant⟩
  obtain ⟨hanswers, hcomparable⟩ := checkNonce_eq_ok.mp hnonce
  have hisFor := checkAudience_eq_ok.mp haudience
  have hexp : ¬ TooBig (parsed.claims.getD "exp") := fun hbig =>
    hfinite (.expiry hreads htrusts hnames hcomparable hanswers hisFor hbig)
  have hunexpired := (checkExpiry_eq_ok hexp).mp hexpiry
  have hnbf : ∀ v, parsed.claims.get "nbf" = some v → ¬ TooBig v := fun v hv hbig =>
    hfinite (.notBefore hreads htrusts hnames hcomparable hanswers hisFor hunexpired hexp hv hbig)
  obtain ⟨jwk, hpublished, hverified⟩ := signed_of_checkSignature hC hsignature
  exact ⟨rfl, hnames, hisFor, hanswers, hunexpired, (checkNotBefore_eq_ok hnbf).mp hnotBefore,
    parsed, alg, kid, jwk, hreads, rfl, htrusts, hpublished, hverified⟩

theorem parseToken_raises (hfinite : ¬ V.Escapes P token nonce now) :
    OnlyRaises isIdentityError (parseToken P token) := by
  rw [parseToken]
  refine OnlyRaises.bind (onlyRaises_reraise rfl fun e he => ?_) fun parts => ?_
  · rcases splitToken_error he with h | ⟨headerRaw, payloadRaw, signatureRaw, htoken, h | h⟩
    · exact Bool.or_eq_true_iff.mpr (.inl h)
    · exact absurd (.header htoken h) hfinite
    · obtain ⟨⟨header, hheader⟩, hdeep⟩ := h
      exact absurd (.payload htoken hheader hdeep) hfinite
  · dsimp only
    split
    · exact onlyRaises_ok _
    · exact onlyRaises_error rfl

theorem validate_raises (hC : C.Documented kind) (hjwks : jwks.Answer)
    (hfinite : ¬ V.Escapes P token nonce now) :
    OnlyRaises isIdentityError (V.validate C P token nonce now jwks) := by
  rw [validate]
  refine (onlyRaises_raiseIf rfl).bind fun _ => ?_
  refine (V.parseToken_raises P hfinite).bind_of_ok fun parsed hparsed => ?_
  have hreads := reads_of_parseToken hparsed
  refine checkHeader_raises.bind_of_ok fun ⟨alg, kid⟩ hheader => ?_
  have htrusts := checkHeader_eq_ok.mp hheader
  refine checkSubject_raises.bind_of_ok fun subject hsubject => ?_
  refine checkTenant_raises.bind_of_ok fun _ htenant => ?_
  have hnames := names_iff.mpr ⟨hsubject, htenant⟩
  have hcomparable : Comparable parsed.claims nonce := by
    by_contra h
    exact hfinite (.nonce hreads htrusts hnames h)
  refine (checkNonce_raises hcomparable).bind_of_ok fun _ hnonce => ?_
  have hanswers := (checkNonce_eq_ok.mp hnonce).1
  refine checkAudience_raises.bind_of_ok fun _ haudience => ?_
  have hisFor := checkAudience_eq_ok.mp haudience
  have hexp : ¬ TooBig (parsed.claims.getD "exp") := fun hbig =>
    hfinite (.expiry hreads htrusts hnames hcomparable hanswers hisFor hbig)
  refine OnlyRaises.bind_of_ok ?_ fun _ hexpiry => ?_
  · rw [checkExpiry_eq hexp]
    exact onlyRaises_raiseIf rfl
  have hunexpired := (checkExpiry_eq_ok hexp).mp hexpiry
  have hnbf : ∀ v, parsed.claims.get "nbf" = some v → ¬ TooBig v := fun v hv hbig =>
    hfinite (.notBefore hreads htrusts hnames hcomparable hanswers hisFor hunexpired hexp hv hbig)
  refine (checkNotBefore_raises hnbf).bind_of_ok fun _ hnotBefore => ?_
  have hbegun := (checkNotBefore_eq_ok hnbf).mp hnotBefore
  have hiat : ∀ v, parsed.claims.get "iat" = some v → ¬ TooBig v := fun v hv hbig =>
    hfinite (.issuedAt hreads htrusts hnames hcomparable hanswers hisFor hunexpired hexp hbegun
      hnbf hv hbig)
  refine (checkIssuedAt_raises hiat).bind fun _ => ?_
  exact (checkSignature_raises hC hjwks _ _ _ _).bind fun _ => onlyRaises_ok _

theorem validate_eq {parsed : ParsedToken} {alg kid subject : Str} (hreads : Reads P token parsed)
    (htrusts : V.Trusts parsed.header alg kid) (hnames : V.Names parsed.claims subject) :
    V.validate C P token nonce now jwks = (do
      checkNonce parsed.claims nonce
      V.checkAudience parsed.claims
      checkExpiry parsed.claims now
      checkNotBefore parsed.claims now
      checkIssuedAt parsed.claims now
      checkSignature C jwks alg kid parsed.signature parsed.signingInput
      .ok ⟨subject, V.issuer, parsed.claims⟩) := by
  have hnonempty : token ≠ [] := by
    rintro rfl
    obtain ⟨headerRaw, payloadRaw, signatureRaw, htoken, -⟩ := hreads.parts
    cases htoken
  obtain ⟨hsubject, htenant⟩ := names_iff.mp hnames
  rw [validate, raiseIf_of_not hnonempty, parseToken_of_reads hreads]
  simp only [bind, Except.bind, checkHeader_eq_ok.mpr htrusts, hsubject, htenant]

theorem validate_of_splitToken (h : splitToken P token = .error (.builtin .recursionError)) :
    V.validate C P token nonce now jwks = .error (.builtin .recursionError) := by
  have hnonempty : token ≠ [] := by
    rintro rfl
    cases h
  rw [validate, raiseIf_of_not hnonempty, parseToken, h]
  rfl

theorem validate_escapes (h : V.Escapes P token nonce now) :
    ∃ e, V.validate C P token nonce now jwks = .error e ∧ isIdentityError e = false := by
  cases h with
  | header htoken hdeep =>
      refine ⟨.builtin .recursionError, ?_, rfl⟩
      have hsplit : splitToken P token = .error (.builtin .recursionError) := by
        rw [splitToken, htoken]
        dsimp only
        rw [hdeep]
        rfl
      exact V.validate_of_splitToken C P hsplit
  | payload htoken hheader hdeep =>
      refine ⟨.builtin .recursionError, ?_, rfl⟩
      have hsplit : splitToken P token = .error (.builtin .recursionError) := by
        rw [splitToken, htoken]
        dsimp only
        rw [hheader, hdeep]
        rfl
      exact V.validate_of_splitToken C P hsplit
  | nonce hreads htrusts hnames hincomparable =>
      refine ⟨.builtin .typeError, ?_, rfl⟩
      rw [V.validate_eq C P hreads htrusts hnames, checkNonce_escapes hincomparable]
      rfl
  | expiry hreads htrusts hnames hcomparable hanswers hisFor hbig =>
      refine ⟨.builtin .overflowError, ?_, rfl⟩
      rw [V.validate_eq C P hreads htrusts hnames, checkNonce_eq_ok.mpr ⟨hanswers, hcomparable⟩,
        checkAudience_eq_ok.mpr hisFor, checkExpiry, finiteNumber_of_tooBig hbig]
      rfl
  | notBefore hreads htrusts hnames hcomparable hanswers hisFor hunexpired hexp hv hbig =>
      refine ⟨.builtin .overflowError, ?_, rfl⟩
      rw [V.validate_eq C P hreads htrusts hnames, checkNonce_eq_ok.mpr ⟨hanswers, hcomparable⟩,
        checkAudience_eq_ok.mpr hisFor, (checkExpiry_eq_ok hexp).mpr hunexpired, checkNotBefore, hv]
      dsimp only
      rw [finiteNumber_of_tooBig hbig]
      rfl
  | issuedAt hreads htrusts hnames hcomparable hanswers hisFor hunexpired hexp hbegun hnbf hv
      hbig =>
      refine ⟨.builtin .overflowError, ?_, rfl⟩
      rw [V.validate_eq C P hreads htrusts hnames, checkNonce_eq_ok.mpr ⟨hanswers, hcomparable⟩,
        checkAudience_eq_ok.mpr hisFor, (checkExpiry_eq_ok hexp).mpr hunexpired,
        (checkNotBefore_eq_ok hnbf).mpr hbegun, checkIssuedAt, hv]
      dsimp only
      rw [finiteNumber_of_tooBig hbig]
      rfl

theorem fails_closed_iff (hC : C.Documented kind) (hjwks : jwks.Answer) :
    V.FailsClosed C P token nonce now jwks ↔ ¬ V.Escapes P token nonce now := by
  constructor
  · intro h hescapes
    obtain ⟨e, he, hother⟩ : ∃ e, V.validate C P token nonce now jwks = .error e ∧
        isIdentityError e = false := V.validate_escapes C P hescapes
    rw [FailsClosed, he] at h
    exact absurd h (Bool.eq_false_iff.mp hother)
  · intro h
    rw [FailsClosed]
    cases hvalidate : V.validate C P token nonce now jwks with
    | error e => exact V.validate_raises C P hC hjwks h e hvalidate
    | ok identity => exact V.accepts_of_validate C P hC h hvalidate

end Main

end OIDCValidator

section Overflow

open OIDCValidator

theorem issuerCryptography_documented : issuerCryptography.Documented (fun _ => .ed25519) where
  rsaKey _ _ := onlyRaises_error rfl
  ecKey _ _ := onlyRaises_error rfl
  ed25519Key raw := by
    rw [issuerCryptography]
    dsimp only
    split_ifs
    · exact onlyRaises_ok _
    · exact onlyRaises_error rfl
  rsaKey_kind h := by cases h
  ecKey_kind h := by cases h
  ed25519Key_kind _ := rfl
  pkcs1 _ _ _ _ := onlyRaises_error rfl
  ecdsa _ _ _ _ _ := onlyRaises_error rfl
  ed25519 key signature text := by
    rw [issuerCryptography]
    dsimp only
    split_ifs
    · exact onlyRaises_ok _
    · exact onlyRaises_error rfl
  pkcs1_kind h := by cases h
  ecdsa_kind h := by cases h
  ed25519_kind _ := rfl

theorem issuerKeys_answer : issuerKeys.Answer where
  first := onlyRaises_ok _
  refresh := onlyRaises_ok _
  second := onlyRaises_error rfl

theorem fails_closed_iff_issued : gasValidator.FailsClosed issuerCryptography sizePrimitives
    firstToken none 5 issuerKeys ↔ ¬ gasValidator.Escapes sizePrimitives firstToken none 5 :=
  fails_closed_iff gasValidator issuerCryptography sizePrimitives issuerCryptography_documented
    issuerKeys_answer

-- anyone can write an expiry of 310 digits into a token
def distantClaims : Str :=
  lit "\x7b\"iss\":\"https://id\",\"sub\":\"u\",\"aud\":\"gas\",\"exp\":1" ++
    List.replicate 309 (ofChar '0') ++ lit "\x7d"

def distantToken : Str :=
  lit "eyJhbGciOiJFZERTQSIsImtpZCI6ImsifQ." ++
    b64encode (distantClaims.map (fun p => UInt8.ofNat p.val)) ++ lit ".AA"

def escaped (outcome : Result ExternalIdentity) : Bool :=
  match outcome with
  | .ok _ => false
  | .error e => !isIdentityError e

theorem not_failsClosed_of_escaped {Key : Type} {V : OIDCValidator} {C : Cryptography Key}
    {P : Primitives} {token : Str} {nonce : Option Str} {now : ℚ} {jwks : JWKSAnswers}
    (h : escaped (V.validate C P token nonce now jwks) = true) :
    ¬ V.FailsClosed C P token nonce now jwks := by
  rw [FailsClosed]
  cases hvalidate : V.validate C P token nonce now jwks with
  | error e =>
      rw [hvalidate, escaped, Bool.not_eq_true'] at h
      exact Bool.eq_false_iff.mp h
  | ok identity =>
      rw [hvalidate] at h
      cases h

theorem overflow_escapes : ¬ gasValidator.FailsClosed issuerCryptography sizePrimitives
    distantToken none 5 issuerKeys :=
  not_failsClosed_of_escaped (by decide +kernel)

end Overflow

end GovernedAutonomy
