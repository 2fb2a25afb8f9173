import GovernedAutonomy.Governance
import GovernedAutonomy.KeyRotation

namespace GovernedAutonomy

open Python Protocol

def maxOidcMetadataBytes : Nat := 1024 * 1024

structure OIDCDiscoveryDocument where
  issuer : Str
  jwksUri : Str
  authorizationEndpoint : Option Str := none
  tokenEndpoint : Option Str := none
  supportedSigningAlgorithms : List Str := []

namespace Oidc

section Discover

variable (P : Primitives)

-- issuer.rstrip("/") + "/.well-known/openid-configuration"
def discoveryUrl (issuer : Str) : Str :=
  (issuer.reverse.dropWhile (fun p => p = ofChar '/')).reverse ++
    lit "/.well-known/openid-configuration"

def metadata (response : EndpointResponse) : Result PyVal :=
  response.document P "OIDC discovery document" "OIDC discovery endpoint" maxOidcMetadataBytes

def endpointMember (document : PyDict) (name : String) : Result (Option Str) :=
  let invalid := identityValidationError (lit ("OIDC discovery document has an invalid " ++ name))
  match document.getD name with
  | .none => .ok none
  | .str s => if startsWith s "https://" then .ok (some s) else .error invalid
  | _ => .error invalid

def invalidAlgorithms : Exc := identityValidationError
  (lit "OIDC discovery document has an invalid supported signing algorithms list")

def algorithmName : PyVal → Result Str
  | .str (c :: s) => if c :: s = lit "none" then .error invalidAlgorithms else .ok (c :: s)
  | _ => .error invalidAlgorithms

def supportedAlgorithms (document : PyDict) : Result (List Str) :=
  match document.getD "id_token_signing_alg_values_supported" with
  | .none => .ok []
  | .list values => do
      let names ← values.mapM algorithmName
      raiseIf (names = []) (identityValidationError
        (lit "OIDC discovery document has no supported signing algorithms"))
      .ok (unique names)
  | _ => .error invalidAlgorithms

def discoveryDocument (issuer : Str) (value : PyVal) : Result OIDCDiscoveryDocument := do
  let document : PyDict ← (match value with
    | .dict document => .ok document
    | _ => .error (identityValidationError (lit "OIDC discovery document is invalid")))
  raiseIf (¬ (document.getD "issuer").eq (.str issuer))
    (identityValidationError (lit "OIDC discovery document issuer mismatch"))
  let missing :=
    identityValidationError (lit "OIDC discovery document is missing a valid jwks_uri")
  let jwksUri ← (match document.getD "jwks_uri" with
    | .str s => if startsWith s "https://" then .ok s else .error missing
    | _ => .error missing)
  let authorizationEndpoint ← endpointMember document "authorization_endpoint"
  let tokenEndpoint ← endpointMember document "token_endpoint"
  let supported ← supportedAlgorithms document
  .ok ⟨issuer, jwksUri, authorizationEndpoint, tokenEndpoint, supported⟩

-- the endpoint is what answers a request for a URL
def discoverOidcConfiguration (endpoint : Str → EndpointResponse) (issuer : Str)
    (timeoutSeconds : ℤ) : Result OIDCDiscoveryDocument := do
  raiseIf (¬ startsWith issuer "https://") (.valueError (lit "OIDC issuer must use HTTPS"))
  raiseIf (timeoutSeconds ≤ 0) (.valueError (lit "timeout_seconds must be positive"))
  let value ← metadata P (endpoint (discoveryUrl issuer))
  discoveryDocument issuer value

end Discover

end Oidc

namespace OIDCValidator

-- __init__; a single audience stands for the list of it
def create (issuer : Str) (audience algorithms : List Str) (tenantId : Option Str) :
    Result OIDCValidator :=
  if hrequired : issuer ≠ [] ∧ algorithms ≠ [] then
    if haudience : audience ≠ [] then
      .ok ⟨issuer, audience, algorithms, tenantId, hrequired.1, haudience, hrequired.2⟩
    else .error (.valueError (lit "audience is required"))
  else .error (.valueError (lit "issuer and algorithms are required"))

end OIDCValidator

namespace Oidc

variable (P : Primitives)

def acceptedAlgorithms (algorithms supported : List Str) : Result (List Str) :=
  if supported = [] then .ok algorithms
  else
    match algorithms.filter (fun algorithm => algorithm ∈ supported) with
    | [] => .error (identityValidationError
        (lit "OIDC provider has no signing algorithm allowed by this validator"))
    | accepted => .ok accepted

def oidcValidatorFromDiscovery (endpoint : Str → EndpointResponse) (issuer : Str)
    (audience : List Str) (tenantId : Option Str) (discovery : Option OIDCDiscoveryDocument)
    (algorithms : List Str) (cacheSeconds timeoutSeconds : ℤ) :
    Result (OIDCValidator × UrlJWKSProvider) := do
  let discovery ← (match discovery with
    | some discovery => .ok discovery
    | none => discoverOidcConfiguration P endpoint issuer timeoutSeconds)
  let accepted ← acceptedAlgorithms algorithms discovery.supportedSigningAlgorithms
  let provider ← UrlJWKSProvider.create discovery.jwksUri cacheSeconds timeoutSeconds
  let validator ← OIDCValidator.create issuer audience accepted tenantId
  .ok (validator, provider)

end Oidc

namespace Oidc

section Outcome

variable {P : Primitives} {endpoint : Str → EndpointResponse} {issuer : Str}
  {timeoutSeconds : ℤ} {discovery : OIDCDiscoveryDocument} {document : PyDict}

-- what a document says of the algorithms a provider signs with
def Advertises (document : PyDict) (algorithm : Str) : Prop :=
  ∀ values, document.getD "id_token_signing_alg_values_supported" = .list values →
    .str algorithm ∈ values

-- the metadata that the issuer's endpoint served, and what was taken of it
structure ServedMetadata (P : Primitives) (endpoint : Str → EndpointResponse) (issuer : Str)
    (discovery : OIDCDiscoveryDocument) (document : PyDict) : Prop where
  secure : startsWith issuer "https://" = true
  served : ∃ body, endpoint (discoveryUrl issuer) = .served body ∧
    body.length ≤ maxOidcMetadataBytes ∧ P.loadsBytes body = .ok (.dict document)
  names : document.getD "issuer" = .str issuer
  jwksUri : document.getD "jwks_uri" = .str discovery.jwksUri
  issuer : discovery.issuer = issuer
  supported : ∀ algorithm ∈ discovery.supportedSigningAlgorithms,
    algorithm ≠ lit "none" ∧ Advertises document algorithm
  unlisted : discovery.supportedSigningAlgorithms = [] →
    ∀ values, document.getD "id_token_signing_alg_values_supported" ≠ .list values

theorem algorithmName_eq_ok {value : PyVal} {name : Str} (h : algorithmName value = .ok name) :
    value = .str name ∧ name ≠ lit "none" := by
  rw [algorithmName.eq_def] at h
  split at h
  · split_ifs at h with hnone
    cases h
    exact ⟨rfl, hnone⟩
  · cases h

theorem supportedAlgorithms_eq_ok {names : List Str}
    (h : supportedAlgorithms document = .ok names) :
    (∀ name ∈ names, name ≠ lit "none" ∧ Advertises document name) ∧
      (names = [] → ∀ values,
        document.getD "id_token_signing_alg_values_supported" ≠ .list values) := by
  rw [supportedAlgorithms] at h
  split at h
  · next hnone =>
      obtain rfl := Except.ok.inj h
      refine ⟨fun _ h => absurd h List.not_mem_nil, fun _ values hvalues => ?_⟩
      rw [hnone] at hvalues
      cases hvalues
  · next values hvalues =>
      obtain ⟨listed, hlisted, h⟩ := bind_eq_ok.mp h
      obtain ⟨_, hne, h⟩ := bind_eq_ok.mp h
      obtain rfl := Except.ok.inj h
      refine ⟨fun name hname => ?_, fun hempty => absurd ?_ (raiseIf_eq_ok.mp hne)⟩
      · obtain ⟨value, hvalue, halgorithm⟩ := mem_of_mapM_eq_ok hlisted (mem_unique.mp hname)
        obtain ⟨rfl, hnone⟩ := algorithmName_eq_ok halgorithm
        refine ⟨hnone, fun values' hvalues' => ?_⟩
        rw [hvalues] at hvalues'
        cases hvalues'
        exact hvalue
      · cases listed with
        | nil => rfl
        | cons name listed => cases hempty
  · cases h

theorem discoverOidcConfiguration_eq_ok
    (h : discoverOidcConfiguration P endpoint issuer timeoutSeconds = .ok discovery) :
    ∃ document, ServedMetadata P endpoint issuer discovery document := by
  obtain ⟨_, hsecure, h⟩ := bind_eq_ok.mp h
  obtain ⟨_, -, h⟩ := bind_eq_ok.mp h
  obtain ⟨value, hvalue, h⟩ := bind_eq_ok.mp h
  obtain ⟨body, hbody, hbounded, hread⟩ := document_eq_ok hvalue
  obtain ⟨document, hdocument, h⟩ := bind_eq_ok.mp h
  split at hdocument
  · obtain rfl := Except.ok.inj hdocument
    obtain ⟨_, hissuer, h⟩ := bind_eq_ok.mp h
    obtain ⟨jwksUri, hjwksUri, h⟩ := bind_eq_ok.mp h
    obtain ⟨_, -, h⟩ := bind_eq_ok.mp h
    obtain ⟨_, -, h⟩ := bind_eq_ok.mp h
    obtain ⟨supported, hsupported, h⟩ := bind_eq_ok.mp h
    obtain rfl := Except.ok.inj h
    obtain ⟨hadvertised, hunlisted⟩ := supportedAlgorithms_eq_ok hsupported
    split at hjwksUri
    · next s hs =>
        split_ifs at hjwksUri
        obtain rfl := Except.ok.inj hjwksUri
        exact ⟨_, not_not.mp (raiseIf_eq_ok.mp hsecure), ⟨body, hbody, hbounded, hread⟩,
          PyVal.eq_str_right.mp (not_not.mp (raiseIf_eq_ok.mp hissuer)), hs, rfl, hadvertised,
          hunlisted⟩
    · cases hjwksUri
  · cases hdocument

end Outcome

end Oidc

namespace Oidc

section Discovered

variable {P : Primitives} {endpoint : Str → EndpointResponse} {issuer : Str}
  {audience algorithms : List Str} {tenantId : Option Str} {cacheSeconds timeoutSeconds : ℤ}
  {V : OIDCValidator} {provider : UrlJWKSProvider}

theorem acceptedAlgorithms_eq_ok {supported accepted : List Str}
    (h : acceptedAlgorithms algorithms supported = .ok accepted) :
    ∀ algorithm ∈ accepted, algorithm ∈ algorithms ∧ (supported ≠ [] → algorithm ∈ supported) := by
  rw [acceptedAlgorithms] at h
  split_ifs at h with hsupported
  · obtain rfl := Except.ok.inj h
    exact fun _ halgorithm => ⟨halgorithm, fun hne => absurd hsupported hne⟩
  · split at h
    · cases h
    · obtain rfl := Except.ok.inj h
      intro algorithm halgorithm
      obtain ⟨hmem, hlisted⟩ := List.mem_filter.mp halgorithm
      exact ⟨hmem, fun _ => of_decide_eq_true hlisted⟩

theorem provider_of_create {url : Str}
    (h : UrlJWKSProvider.create url cacheSeconds timeoutSeconds = .ok provider) :
    provider.url = url ∧ provider.cacheSeconds = cacheSeconds := by
  rw [UrlJWKSProvider.create] at h
  split_ifs at h
  obtain rfl := Except.ok.inj h
  exact ⟨rfl, rfl⟩

theorem validator_of_create
    (h : OIDCValidator.create issuer audience algorithms tenantId = .ok V) :
    V.issuer = issuer ∧ V.audience = audience ∧ V.algorithms = algorithms ∧
      V.tenantId = tenantId := by
  rw [OIDCValidator.create] at h
  split_ifs at h
  obtain rfl := Except.ok.inj h
  exact ⟨rfl, rfl, rfl, rfl⟩

-- a validator and a provider of keys that are made of what the issuer has published
structure Discovered (P : Primitives) (endpoint : Str → EndpointResponse) (issuer : Str)
    (audience algorithms : List Str) (tenantId : Option Str) (V : OIDCValidator)
    (provider : UrlJWKSProvider) (document : PyDict) : Prop where
  metadata : ∃ discovery, ServedMetadata P endpoint issuer discovery document ∧
    provider.url = discovery.jwksUri
  issuer : V.issuer = issuer
  audience : V.audience = audience
  tenant : V.tenantId = tenantId
  algorithms : ∀ algorithm ∈ V.algorithms, algorithm ∈ algorithms ∧ Advertises document algorithm

theorem oidcValidatorFromDiscovery_eq_ok
    (h : oidcValidatorFromDiscovery P endpoint issuer audience tenantId none algorithms cacheSeconds
      timeoutSeconds = .ok (V, provider)) :
    ∃ document, Discovered P endpoint issuer audience algorithms tenantId V provider document := by
  obtain ⟨discovery, hdiscovery, h⟩ := bind_eq_ok.mp h
  obtain ⟨accepted, haccepted, h⟩ := bind_eq_ok.mp h
  obtain ⟨provider', hprovider, h⟩ := bind_eq_ok.mp h
  obtain ⟨V', hV, h⟩ := bind_eq_ok.mp h
  obtain ⟨rfl, rfl⟩ := Prod.mk.inj (Except.ok.inj h)
  obtain ⟨document, hserved⟩ := discoverOidcConfiguration_eq_ok hdiscovery
  obtain ⟨hurl, -⟩ := provider_of_create hprovider
  obtain ⟨hissuer, haudience, halgorithms, htenant⟩ := validator_of_create hV
  refine ⟨document, ⟨discovery, hserved, hurl⟩, hissuer, haudience, htenant, ?_⟩
  intro algorithm halgorithm
  rw [halgorithms] at halgorithm
  obtain ⟨hmem, hlisted⟩ := acceptedAlgorithms_eq_ok haccepted algorithm halgorithm
  refine ⟨hmem, ?_⟩
  by_cases hempty : discovery.supportedSigningAlgorithms = []
  · exact fun values hvalues => absurd hvalues (hserved.unlisted hempty values)
  · exact (hserved.supported algorithm (hlisted hempty)).2

-- what an accepted token says of itself
structure TokenOf (P : Primitives) (issuer : Str) (audience algorithms : List Str)
    (document : PyDict) (token : Str) : Prop where
  signed : ∃ parsed alg, Reads P token parsed ∧ parsed.header.getD "alg" = .str alg ∧
    alg ∈ algorithms ∧ alg ≠ lit "none" ∧ Advertises document alg ∧
    parsed.claims.getD "iss" = .str issuer ∧
    ∃ name ∈ audience, parsed.claims.getD "aud" = .str name ∨
      ∃ names, parsed.claims.getD "aud" = .list names ∧ .str name ∈ names

end Discovered

end Oidc

namespace JwksWorld

open Oidc JwksEvent

theorem concluded_of_mem {Key : Type} {P : Primitives} {V : OIDCValidator}
    {C : Cryptography Key} {provider : UrlJWKSProvider} {trace : List JwksEvent}
    {v : OpenValidation} {answers : JWKSAnswers} {identity : ExternalIdentity} {now : Reading}
    (h : AllJustified P V C provider trace)
    (hmem : JwksEvent.concluded v answers (.ok identity) now ∈ trace) :
    V.Accepts C P v.token v.nonce v.now answers identity := by
  obtain ⟨before, after, htrace⟩ := List.append_of_mem hmem
  have hfollowed := Calls.each_iff.mp h before _ after htrace
  exact hfollowed.accepted identity rfl

theorem discovered_keys_followed {ι Key : Type} [DecidableEq ι] {kind : Key → KeyKind}
    (P : Primitives) (C : Cryptography Key) (hC : C.Documented kind)
    (endpoint : Str → EndpointResponse) (issuer : Str) (audience algorithms : List Str)
    (tenantId : Option Str) (cacheSeconds timeoutSeconds : ℤ) (V : OIDCValidator)
    (provider : UrlJWKSProvider)
    (h : oidcValidatorFromDiscovery P endpoint issuer audience tenantId none algorithms cacheSeconds
      timeoutSeconds = .ok (V, provider)) :
    ∃ document, Discovered P endpoint issuer audience algorithms tenantId V provider document ∧
      ∀ (clock : Reading) (moves : List (JwksMove ι)),
        KeysFollowed P V C provider (Calls.run (step P V C provider) (opened clock) moves) ∧
          ∀ v answers identity now, JwksEvent.concluded v answers (.ok identity) now ∈
            (Calls.run (step P V C provider) (opened clock) moves).trace →
              TokenOf P issuer audience algorithms document v.token := by
  obtain ⟨document, hdiscovered⟩ := oidcValidatorFromDiscovery_eq_ok h
  refine ⟨document, hdiscovered, fun clock moves => ?_⟩
  have hfollowed := (sound_run P V C hC provider clock moves).keysFollowed
  refine ⟨hfollowed, fun v answers identity now hmem => ?_⟩
  have haccepts := concluded_of_mem hfollowed.justified hmem
  obtain ⟨parsed, alg, kid, jwk, hreads, hclaims, htrusts, -, -⟩ := haccepts.signed
  obtain ⟨hne, halg⟩ := htrusts.permitted
  obtain ⟨hpermitted, hadvertised⟩ := hdiscovered.algorithms alg halg
  refine ⟨parsed, alg, hreads, htrusts.names_alg, hpermitted, hne, hadvertised, ?_, ?_⟩
  · rw [hclaims, ← hdiscovered.issuer]
    exact haccepts.names.iss
  · rw [hclaims, ← hdiscovered.audience]
    exact haccepts.isFor

end JwksWorld

namespace JwksWorld

open Oidc

def issuerMetadata (url : Str) : EndpointResponse :=
  if url = lit "https://id/.well-known/openid-configuration" then
    keysBody ("\x7b\"issuer\":\"https://id\",\"jwks_uri\":\"https://id/keys\"," ++
      "\"id_token_signing_alg_values_supported\":[\"RS256\",\"EdDSA\"]\x7d")
  else .failed

def issuerDiscovery : Result (OIDCValidator × UrlJWKSProvider) :=
  oidcValidatorFromDiscovery sizePrimitives issuerMetadata "https://id" ["gas"] none none
    ["ES256", "EdDSA"] 300 5

theorem issuerDiscovery_isOk : ∃ made, issuerDiscovery = .ok made :=
  exists_of_toOption (by decide +kernel)

theorem discovered_keys_followed_issuer : ∃ V provider, issuerDiscovery = .ok (V, provider) ∧
    ∃ document, Discovered sizePrimitives issuerMetadata "https://id" ["gas"] ["ES256", "EdDSA"]
      none V provider document ∧
      ∀ (clock : Reading) (moves : List (JwksMove Bool)),
        KeysFollowed sizePrimitives V issuerCryptography provider
            (Calls.run (step sizePrimitives V issuerCryptography provider) (opened clock) moves) ∧
          ∀ v answers identity now, JwksEvent.concluded v answers (.ok identity) now ∈
            (Calls.run (step sizePrimitives V issuerCryptography provider) (opened clock)
              moves).trace →
              TokenOf sizePrimitives "https://id" ["gas"] ["ES256", "EdDSA"] document v.token := by
  obtain ⟨⟨V, provider⟩, hmade⟩ := issuerDiscovery_isOk
  exact ⟨V, provider, hmade, discovered_keys_followed sizePrimitives issuerCryptography
    issuerCryptography_documented issuerMetadata "https://id" ["gas"] ["ES256", "EdDSA"] none 300 5
    V provider hmade⟩

end JwksWorld

end GovernedAutonomy
