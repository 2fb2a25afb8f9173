import GovernedAutonomy.Platform

namespace GovernedAutonomy

open Python

namespace Bootstrap

-- lambda request: request["content"]
def contentAction (request : PyDict) : HandlerOutcome :=
  match request.get "content" with
  | some content => .returned content
  | none => .raised "KeyError" (.ok "'content'")

def jobAction (request : PyDict) : HandlerOutcome :=
  match request.get "image", request.get "command" with
  | some image, some command =>
      .returned (.dict (PyDict.ofFields [("image", image), ("command", command)]))
  | some _, none => .raised "KeyError" (.ok "'command'")
  | none, _ => .raised "KeyError" (.ok "'image'")

def demoActions : List (Str × (PyDict → HandlerOutcome)) :=
  [(lit "write_file", contentAction), (lit "run_job", jobAction)]

def filesPolicy : Policy where
  policyId := "demo-files-v1"
  allowedActions := ["write_file"]
  requiredFields := [("write_file", ["path", "content"])]
  exactFields := [("write_file", [("path", .str "out.txt")])]

def jobsPolicy : Policy where
  policyId := "demo-jobs-v1"
  allowedActions := ["run_job"]
  requiredFields := [("run_job", ["image", "command"])]
  exactFields := []

def demoRegistry : PolicyRegistry where
  policies := [("demo-files-v1", filesPolicy), ("demo-jobs-v1", jobsPolicy)]
  versions := [("demo-files-v1", 1), ("demo-jobs-v1", 1)]

-- the composition both builders make, around an issuer and the keys that are trusted
def composed (issuer : Signer) (trustStore : TrustStore)
    (meshSourceRegistry : Option GovernanceSourceRegistry) : GovernedService where
  issuer := { issuer, meshSourceRegistry }
  boundary := { keySource := .trustStore trustStore, policyRegistry := some demoRegistry }
  policies := demoRegistry
  actions := demoActions
  meshSourceRegistry := meshSourceRegistry

def buildDemoService (issuer : Signer) (publicKey : PublicKey)
    (meshSourceRegistry : Option GovernanceSourceRegistry) : Result GovernedService := do
  let trustStore ← TrustStore.empty.add issuer.keyId publicKey
  .ok (composed issuer trustStore meshSourceRegistry)

inductive RuntimeMode where
  | memory
  | postgres (database : TrustStore)

-- a store that earlier runs may have left the issuer's key in
def trusting (database : TrustStore) (issuer : Signer) (publicKey : PublicKey) :
    Result TrustStore :=
  if (database.resolve issuer.keyId).isNone then database.add issuer.keyId publicKey
  else .ok database

def buildRuntimeService (mode : RuntimeMode) (issuer : Signer) (publicKey : PublicKey) :
    Result GovernedService :=
  match mode with
  | .memory => buildDemoService issuer publicKey none
  | .postgres database => do
      let trustStore ← trusting database issuer publicKey
      .ok (composed issuer trustStore none)

end Bootstrap

namespace GovernedService

variable (service : GovernedService)

-- what the constructor of a platform does to the service it is given
def attachRegistry (meshSourceRegistry : Option GovernanceSourceRegistry) : GovernedService :=
  match meshSourceRegistry with
  | none => service
  | some registry =>
      { service with
        meshSourceRegistry := some registry
        issuer := { service.issuer with
          meshSourceRegistry := service.issuer.meshSourceRegistry.or (some registry) } }

-- ControlPlane.register_service: a registry where the service has none
def registerService (given : Option GovernanceSourceRegistry) (own : GovernanceSourceRegistry) :
    GovernedService :=
  { service with
    meshSourceRegistry := service.meshSourceRegistry.or (some (given.getD own))
    issuer := { service.issuer with
      meshSourceRegistry := service.issuer.meshSourceRegistry.or (some (given.getD own)) } }

def withPolicies (policies : PolicyRegistry) : GovernedService :=
  { service with
    policies := policies
    boundary := { service.boundary with policyRegistry := some policies } }

end GovernedService

namespace Bootstrap

-- every service that the builders, the platform and the control plane compose
inductive Built : GovernedService → Prop
  | demo {issuer : Signer} {publicKey : PublicKey} {registry : Option GovernanceSourceRegistry}
      {service : GovernedService} (h : buildDemoService issuer publicKey registry = .ok service) :
      Built service
  | runtime {mode : RuntimeMode} {issuer : Signer} {publicKey : PublicKey}
      {service : GovernedService} (h : buildRuntimeService mode issuer publicKey = .ok service) :
      Built service
  | platform {service : GovernedService} (registry : Option GovernanceSourceRegistry)
      (h : Built service) : Built (service.attachRegistry registry)
  | controlPlane {service : GovernedService} (given : Option GovernanceSourceRegistry)
      (own : GovernanceSourceRegistry) (h : Built service) :
      Built (service.registerService given own)
  | policies {service : GovernedService} (policies : PolicyRegistry) (h : Built service) :
      Built (service.withPolicies policies)

theorem Built.mesh {service : GovernedService} (h : Built service) : service.issuer.mesh = none := by
  have hdemo : ∀ {issuer : Signer} {publicKey : PublicKey}
      {registry : Option GovernanceSourceRegistry} {service : GovernedService},
      buildDemoService issuer publicKey registry = .ok service → service.issuer.mesh = none := by
    intro issuer publicKey registry service h
    obtain ⟨trustStore, -, h⟩ := bind_eq_ok.mp h
    rw [← Except.ok.inj h]
    rfl
  induction h with
  | demo h => exact hdemo h
  | @runtime mode issuer publicKey service h =>
      cases mode with
      | memory => exact hdemo h
      | postgres database =>
          obtain ⟨trustStore, -, h⟩ := bind_eq_ok.mp h
          rw [← Except.ok.inj h]
          rfl
  | platform registry _ ih =>
      cases registry with
      | none => exact ih
      | some registry => exact ih
  | controlPlane given own _ ih => exact ih
  | policies policies _ ih => exact ih

end Bootstrap

end GovernedAutonomy
