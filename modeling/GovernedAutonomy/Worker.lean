import GovernedAutonomy.Python.Pattern
import GovernedAutonomy.Service
import GovernedAutonomy.Transport
import Mathlib.Data.Rat.Defs

namespace GovernedAutonomy

open Python

def runtimeError (message : String) : Exc := .custom "RuntimeError" false (lit message) .none

def timeoutError (message : String) : Exc := .custom "TimeoutError" false (lit message) .none

namespace GovernedService

variable (P : Primitives) (service : GovernedService)

def executeJson (log : ReplayLog) (now : ℤ) (text : Str) : ExecutionBoundary.Execution :=
  match GovernanceAuthorizationArtifact.fromJson P text with
  | .error e => ⟨log, false, .error e⟩
  | .ok artifact => service.execute P log now artifact

end GovernedService

namespace WorkerMain

variable (P : Primitives) (service : GovernedService)

-- the one field of a queued payload that is looked at
def artifactText : PyVal → Result Str
  | .dict payload =>
      match PyDict.getD payload "artifact" with
      | .str text => .ok text
      | _ => .error (.valueError (lit "job payload must carry a signed artifact"))
  | _ => .error (.builtin .attributeError)

def jobSpec : PyVal → Result PyDict
  | .dict spec => .ok spec
  | _ => .error (.valueError (lit "authorized action did not return a job spec"))

structure Authorized where
  log : ReplayLog
  invoked : Bool
  spec : Result PyDict

-- one uninterrupted call of what make_authorizer(service) returns
def authorize (log : ReplayLog) (now : ℤ) (payload : PyVal) : Authorized :=
  match artifactText payload with
  | .error e => ⟨log, false, .error e⟩
  | .ok text =>
      let execution := service.executeJson P log now text
      ⟨execution.log, execution.invoked, execution.result >>= jobSpec⟩

end WorkerMain

abbrev SecretProvider := Str → PyVal → Result (List (Str × Str))

def noSecrets : SecretProvider := fun _ _ =>
  .error (runtimeError "no secret provider configured (set VAULT_ADDR and VAULT_TOKEN)")

structure SandboxJob where
  image : Str
  command : List PyVal
  secrets : List (Str × Str)

structure RunnerCall where
  argv : List Str
  env : List (Str × Str)
  timeout : ℚ

inductive RunnerOutcome
  | completed (returncode : ℤ) (output : Str)
  | timedOut
  | raised (e : Exc)

structure SandboxResult where
  exitCode : ℤ
  output : Str

def SandboxResult.ok (result : SandboxResult) : Bool := decide (result.exitCode = 0)

structure ContainerSandbox where
  allowedImages : List Str
  allowed : allowedImages ≠ []
  runtime : Str := lit "docker"
  memory : Str := lit "128m"
  cpus : Str := lit "0.5"
  pidsLimit : ℤ := 64

namespace ContainerSandbox

variable (sandbox : ContainerSandbox)

def isEnvName : Str → Bool :=
  Pattern.word (fun p => Pattern.isLetter p || Pattern.isOneOf "_" p)
    (fun p => Pattern.isLetter p || Pattern.isAsciiDigit p || Pattern.isOneOf "_" p)

def texts : List PyVal → Option (List Str)
  | [] => some []
  | .str s :: rest => (texts rest).map (fun ss => s :: ss)
  | _ :: _ => none

def confinement : List Str :=
  [sandbox.runtime, lit "run", lit "--rm", lit "--network=none", lit "--read-only",
    lit "--cap-drop=ALL", lit "--security-opt=no-new-privileges:true",
    lit "--memory=" ++ sandbox.memory, lit "--cpus=" ++ sandbox.cpus,
    lit "--pids-limit=" ++ intRepr sandbox.pidsLimit, lit "--user=10001:10001",
    lit "--tmpfs=/tmp:rw,noexec,nosuid,size=16m"]

def secretFlags : List Str → Result (List Str)
  | [] => .ok []
  | name :: names => do
      raiseIf (isEnvName name = false) (.valueError (lit "invalid secret name"))
      let flags ← secretFlags names
      .ok (lit "-e" :: name :: flags)

def buildCommand (job : SandboxJob) : Result (List Str) := do
  raiseIf (job.image ∉ sandbox.allowedImages) (.valueError (lit "image is not allow-listed"))
  match texts job.command with
  | some (program :: arguments) => do
      let flags ← secretFlags (job.secrets.map Prod.fst)
      .ok (sandbox.confinement ++ flags ++ job.image :: program :: arguments)
  | _ => .error (.valueError (lit "command must be a non-empty list of strings"))

def environment (secrets : List (Str × Str)) : List (Str × Str) :=
  Dict.update [(lit "PATH", lit "/usr/local/bin:/usr/bin:/bin")] secrets

def call (job : SandboxJob) (timeoutSeconds : ℚ) : Result RunnerCall := do
  let argv ← sandbox.buildCommand job
  .ok ⟨argv, environment job.secrets, timeoutSeconds⟩

-- text.replace(old, new) for a non-empty old; the number counts what a match still covers
def replaceFrom (old new : Str) : Nat → Str → Str
  | _, [] => []
  | n + 1, _ :: s => replaceFrom old new n s
  | 0, p :: s =>
      if old.isPrefixOf (p :: s) then new ++ replaceFrom old new (old.length - 1) s
      else p :: replaceFrom old new 0 s

def redact (secrets : List (Str × Str)) (text : Str) : Str :=
  secrets.foldl (fun text secret =>
    if secret.2 = [] then text else replaceFrom secret.2 (lit "[REDACTED]") 0 text) text

def report (secrets : List (Str × Str)) : RunnerOutcome → Result SandboxResult
  | .completed returncode output => .ok ⟨returncode, (redact secrets output).take 4096⟩
  | .timedOut => .error (timeoutError "sandbox execution timed out")
  | .raised e => .error e

end ContainerSandbox

structure WorkerRuntime where
  service : GovernedService
  secrets : SecretProvider
  sandbox : ContainerSandbox
  timeoutSeconds : ℚ := 30

namespace WorkerRuntime

variable (P : Primitives) (worker : WorkerRuntime)

def fetchSecrets (spec : PyDict) : Result (List (Str × Str)) :=
  let required := (spec.get "required_secrets").getD (.list [])
  if required.truthy then
    match spec.getD "policy_id" with
    | .str policyId => worker.secrets policyId required
    | _ => .error (.valueError (lit "policy_id is required when secrets are requested"))
  else .ok []

def job (spec : PyDict) : Result SandboxJob :=
  match spec.getD "image", spec.getD "command" with
  | .str image, .list command => do
      let secrets ← worker.fetchSecrets spec
      .ok ⟨image, command, secrets⟩
  | _, _ => .error (.valueError (lit "job requires image and command"))

-- what the runner is called with, from the spec that the authorizer returned
def prepare (spec : PyDict) : Result (SandboxJob × RunnerCall) := do
  let job ← worker.job spec
  let call ← worker.sandbox.call job worker.timeoutSeconds
  .ok (job, call)

def finish (result : SandboxResult) : Result Unit :=
  raiseIf (result.ok = false)
    (.custom "RuntimeError" false (lit "execution failed with exit code " ++ intRepr result.exitCode)
      .none)

structure Handled where
  log : ReplayLog
  invoked : Bool
  call : Option RunnerCall
  result : Result Unit

-- one uninterrupted run of _handle
def handle (log : ReplayLog) (now : ℤ) (runner : RunnerCall → RunnerOutcome) (payload : PyVal) :
    Handled :=
  let authorized := WorkerMain.authorize P worker.service log now payload
  match authorized.spec with
  | .error _ => ⟨authorized.log, authorized.invoked, none, .error (runtimeError "job not authorized")⟩
  | .ok spec =>
      match worker.prepare spec with
      | .error e => ⟨authorized.log, authorized.invoked, none, .error e⟩
      | .ok (job, call) =>
          ⟨authorized.log, authorized.invoked, some call,
            ContainerSandbox.report job.secrets (runner call) >>= finish⟩

section Specification

variable {P worker} {log : ReplayLog} {now : ℤ} {runner : RunnerCall → RunnerOutcome}
  {payload payload' : PyVal} {spec : PyDict} {job : SandboxJob} {call : RunnerCall}

theorem handle_congr (h : WorkerMain.artifactText payload = WorkerMain.artifactText payload') :
    worker.handle P log now runner payload = worker.handle P log now runner payload' := by
  simp only [handle, WorkerMain.authorize, h]

-- where all that a container is started with comes from
structure Prepares (worker : WorkerRuntime) (spec : PyDict) (job : SandboxJob)
    (call : RunnerCall) : Prop where
  image : spec.getD "image" = .str job.image
  allowed : job.image ∈ worker.sandbox.allowedImages
  command : spec.getD "command" = .list job.command
  secrets : worker.fetchSecrets spec = .ok job.secrets
  argv : ∃ program arguments flags, job.command = (program :: arguments).map PyVal.str ∧
    ContainerSandbox.secretFlags (job.secrets.map Prod.fst) = .ok flags ∧
    call.argv = worker.sandbox.confinement ++ flags ++ job.image :: program :: arguments
  env : call.env = ContainerSandbox.environment job.secrets
  timeout : call.timeout = worker.timeoutSeconds

theorem job_eq_ok : worker.job spec = .ok job ↔
    spec.getD "image" = .str job.image ∧ spec.getD "command" = .list job.command ∧
      worker.fetchSecrets spec = .ok job.secrets := by
  unfold WorkerRuntime.job
  split
  · rename_i image command himage hcommand
    simp only [bind_eq_ok, himage, hcommand, PyVal.str.injEq, PyVal.list.injEq]
    constructor
    · rintro ⟨secrets, hsecrets, h⟩
      obtain rfl := Except.ok.inj h
      exact ⟨rfl, rfl, hsecrets⟩
    · rintro ⟨rfl, rfl, hsecrets⟩
      exact ⟨job.secrets, hsecrets, rfl⟩
  · rename_i h
    constructor
    · intro hjob
      cases hjob
    · rintro ⟨himage, hcommand, -⟩
      exact absurd hcommand (h _ _ himage)

theorem texts_eq_some {xs : List PyVal} {ss : List Str} :
    ContainerSandbox.texts xs = some ss ↔ xs = ss.map PyVal.str := by
  induction xs generalizing ss with
  | nil => cases ss <;> simp [ContainerSandbox.texts]
  | cons x xs ih =>
      cases x with
      | str s =>
          cases ss with
          | nil => simp [ContainerSandbox.texts]
          | cons t ss =>
              simp only [ContainerSandbox.texts, Option.map_eq_some_iff, ih, List.map_cons,
                List.cons.injEq, PyVal.str.injEq]
              constructor
              · rintro ⟨ss', rfl, rfl, rfl⟩
                exact ⟨rfl, rfl⟩
              · rintro ⟨rfl, rfl⟩
                exact ⟨ss, rfl, rfl, rfl⟩
      | _ => cases ss <;> simp [ContainerSandbox.texts]

theorem prepares_of_prepare (h : worker.prepare spec = .ok (job, call)) :
    Prepares worker spec job call := by
  simp only [prepare, ContainerSandbox.call, ContainerSandbox.buildCommand, bind_eq_ok,
    raiseIf_eq_ok, not_not] at h
  obtain ⟨job', hjob, call', ⟨argv, ⟨-, hallowed, hargv⟩, hcall⟩, h⟩ := h
  obtain ⟨rfl, rfl⟩ := Prod.mk.inj (Except.ok.inj h)
  obtain rfl := Except.ok.inj hcall
  obtain ⟨himage, hcommand, hsecrets⟩ := job_eq_ok.mp hjob
  refine ⟨himage, hallowed, hcommand, hsecrets, ?_, rfl, rfl⟩
  split at hargv
  · rename_i program arguments htexts
    obtain ⟨flags, hflags, hargv⟩ := bind_eq_ok.mp hargv
    exact ⟨program, arguments, flags, texts_eq_some.mp htexts, hflags, (Except.ok.inj hargv).symm⟩
  · cases hargv

-- a run of _handle that gets as far as the runner
structure Reaches (P : Primitives) (worker : WorkerRuntime) (log : ReplayLog) (now : ℤ)
    (payload : PyVal) (artifact : Artifact) (action : PyDict → HandlerOutcome) (spec : PyDict)
    (recorded : ReplayLog) : Prop where
  presented : ∃ text, WorkerMain.artifactText payload = .ok text ∧
    GovernanceAuthorizationArtifact.fromJson P text = .ok artifact
  handler : worker.service.handler artifact = .ok action
  valid : ExecutionBoundary.validate P worker.service.boundary log now artifact = .ok ()
  returned : action artifact.actionRequest = .returned (.dict spec)
  recorded : ExecutionBoundary.record P (ExecutionBoundary.claimed log artifact) artifact
    (.returned (.dict spec)) = .ok recorded

theorem jobSpec_eq_ok {v : PyVal} : WorkerMain.jobSpec v = .ok spec ↔ v = .dict spec := by
  unfold WorkerMain.jobSpec
  split
  · simp
  · rename_i h
    constructor
    · intro hspec
      cases hspec
    · intro hspec
      exact absurd hspec (h spec)

theorem authorize_eq_ok
    (h : (WorkerMain.authorize P worker.service log now payload).spec = .ok spec) :
    ∃ artifact action recorded,
      Reaches P worker log now payload artifact action spec recorded := by
  unfold WorkerMain.authorize at h
  cases htext : WorkerMain.artifactText payload with
  | error e => simp [htext] at h
  | ok text =>
      simp only [htext, GovernedService.executeJson, GovernedService.execute] at h
      cases hread : GovernanceAuthorizationArtifact.fromJson P text with
      | error e => simp [hread, bind, Except.bind] at h
      | ok artifact =>
          simp only [hread] at h
          cases haction : worker.service.handler artifact with
          | error e => simp [haction, bind, Except.bind] at h
          | ok action =>
              simp only [haction, bind_eq_ok, jobSpec_eq_ok] at h
              obtain ⟨v, hv, rfl⟩ := h
              cases hvalid : ExecutionBoundary.validate P worker.service.boundary log now
                  artifact with
              | error e => simp [ExecutionBoundary.execute, hvalid] at hv
              | ok u =>
                  rw [ExecutionBoundary.execute_of_validate hvalid] at hv
                  split at hv
                  · cases hv
                  · rename_i recorded hrecord
                    cases houtcome : action artifact.actionRequest with
                    | raised errorType text => simp [houtcome, ExecutionBoundary.reported] at hv
                    | returned result =>
                        simp only [houtcome, ExecutionBoundary.reported, Except.ok.injEq] at hv
                        subst hv
                        exact ⟨artifact, action, recorded, ⟨text, htext, hread⟩, haction, hvalid,
                          houtcome, houtcome ▸ hrecord⟩

theorem handle_call (h : (worker.handle P log now runner payload).call = some call) :
    ∃ artifact action spec recorded job,
      Reaches P worker log now payload artifact action spec recorded ∧
        worker.prepare spec = .ok (job, call) := by
  unfold handle at h
  cases hspec : (WorkerMain.authorize P worker.service log now payload).spec with
  | error e => simp [hspec] at h
  | ok spec =>
      obtain ⟨artifact, action, recorded, hreaches⟩ := authorize_eq_ok hspec
      simp only [hspec] at h
      split at h
      · cases h
      · rename_i job call' hprepare
        obtain rfl := Option.some.inj h
        exact ⟨artifact, action, spec, recorded, job, hreaches, hprepare⟩

end Specification

end WorkerRuntime

end GovernedAutonomy
