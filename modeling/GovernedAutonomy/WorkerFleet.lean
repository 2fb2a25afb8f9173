import GovernedAutonomy.Barrier
import GovernedAutonomy.Executable
import GovernedAutonomy.Jobs
import GovernedAutonomy.Outcome
import GovernedAutonomy.Protocol.Roster
import GovernedAutonomy.Worker

namespace GovernedAutonomy

open Python Protocol

namespace Fleet

-- where one run of _handle is; what it leaves at the barrier stays when it is over
inductive Stage where
  | received
  | authorizing (artifact : Artifact) (action : PyDict → HandlerOutcome) (phase : Barrier.Phase)
  | authorized (artifact : Artifact) (spec : PyDict)
  | ended (call : Option Barrier.Call)

structure Run where
  worker : Nat
  payload : PyVal
  stage : Stage

structure Execution where
  worker : Nat
  artifact : Artifact
  spec : PyDict
  call : RunnerCall

-- replicas over one queue and one replay log; what they hold may change between any two steps
structure World where
  log : ReplayLog
  workers : Nat → WorkerRuntime
  now : Nat → ℤ
  queue : JobWorld Nat
  runs : List Run := []
  invocations : List (Nat × Artifact) := []
  executions : List Execution := []

def Run.call (r : Run) : Option Barrier.Call :=
  match r.stage with
  | .received => none
  | .authorizing artifact _ phase => some ⟨r.worker, artifact, phase⟩
  | .authorized artifact _ => some ⟨r.worker, artifact, .ended true⟩
  | .ended call => call

def stopped (call : Barrier.Call) : Barrier.Call := { call with phase := .ended call.phase.invoked }

def settled (worker : Nat) (artifact : Artifact) : HandlerOutcome → Stage
  | .returned (.dict spec) => .authorized artifact spec
  | _ => .ended (some ⟨worker, artifact, .ended true⟩)

def World.boundary (w : World) (worker : Nat) : ExecutionBoundary :=
  (w.workers worker).service.boundary

def World.passes (P : Primitives) (w : World) (worker : Nat) (artifact : Artifact)
    (check : ExecutionBoundary.Check) : Prop :=
  check.run P (w.boundary worker) w.log (w.now worker) artifact = .ok ()

variable {M : Type} (P : Primitives) (store : JobTable → JobPhase → M → JobOutcome)

inductive Step : World → World → Prop
  | environment {w : World} {log : ReplayLog} {workers : Nat → WorkerRuntime} {now : Nat → ℤ}
      (h : Barrier.Grows w.log log) : Step w { w with log := log, workers := workers, now := now }
  -- any move of the store: claims, retries, reclaimed leases, enqueued copies of a job
  | queue {w : World} (call : Nat × M) : Step w { w with queue := w.queue.step store call }
  | tamper {w : World} (table : JobTable) :
      Step w { w with queue := { w.queue with table := table } }
  | deliver {w : World} {worker : Nat} {attempt : Option ℤ} {row : JobRow} {job : Job}
      (hholding : w.queue.phase worker = .holding row.jobId attempt)
      (hrow : row ∈ w.queue.table.rows) (hjob : row.job P = .ok job) :
      Step w { w with runs := ⟨worker, job.payload, .received⟩ :: w.runs }
  | present {w : World} {before after : List Run} {worker : Nat} {payload : PyVal} {text : Str}
      {artifact : Artifact} {action : PyDict → HandlerOutcome}
      (hrun : w.runs = before ++ ⟨worker, payload, .received⟩ :: after)
      (htext : WorkerMain.artifactText payload = .ok text)
      (hread : GovernanceAuthorizationArtifact.fromJson P text = .ok artifact)
      (haction : (w.workers worker).service.handler artifact = .ok action) :
      Step w { w with runs :=
        ⟨worker, payload, .authorizing artifact action (.checking ExecutionBoundary.Check.all)⟩ ::
          (before ++ after) }
  | pass {w : World} {before after : List Run} {worker : Nat} {payload : PyVal}
      {artifact : Artifact} {action : PyDict → HandlerOutcome} {check : ExecutionBoundary.Check}
      {todo : List ExecutionBoundary.Check}
      (hrun : w.runs =
        before ++ ⟨worker, payload, .authorizing artifact action (.checking (check :: todo))⟩ :: after)
      (h : w.passes P worker artifact check) :
      Step w { w with runs :=
        before ++ ⟨worker, payload, .authorizing artifact action (.checking todo)⟩ :: after }
  | claim {w : World} {before after : List Run} {worker : Nat} {payload : PyVal}
      {artifact : Artifact} {action : PyDict → HandlerOutcome} {log : ReplayLog}
      (hrun : w.runs =
        before ++ ⟨worker, payload, .authorizing artifact action (.checking [])⟩ :: after)
      (h : ExecutionBoundary.claim w.log artifact = .ok log) :
      Step w { w with log := log, runs :=
        before ++ ⟨worker, payload, .authorizing artifact action .claimed⟩ :: after }
  | invoke {w : World} {before after : List Run} {worker : Nat} {payload : PyVal}
      {artifact : Artifact} {action : PyDict → HandlerOutcome}
      (hrun : w.runs =
        before ++ ⟨worker, payload, .authorizing artifact action .claimed⟩ :: after) :
      Step w { w with
        runs := before ++ ⟨worker, payload, .authorizing artifact action .running⟩ :: after
        invocations := (worker, artifact) :: w.invocations }
  | finish {w : World} {before after : List Run} {worker : Nat} {payload : PyVal}
      {artifact : Artifact} {action : PyDict → HandlerOutcome} {log : ReplayLog}
      (hrun : w.runs =
        before ++ ⟨worker, payload, .authorizing artifact action .running⟩ :: after)
      (h : ExecutionBoundary.record P w.log artifact (action artifact.actionRequest) = .ok log) :
      Step w { w with log := log, runs := before ++
        ⟨worker, payload, settled worker artifact (action artifact.actionRequest)⟩ :: after }
  -- from here on the container runs
  | execute {w : World} {before after : List Run} {worker : Nat} {payload : PyVal}
      {artifact : Artifact} {spec : PyDict} {job : SandboxJob} {call : RunnerCall}
      (hrun : w.runs = before ++ ⟨worker, payload, .authorized artifact spec⟩ :: after)
      (h : (w.workers worker).prepare spec = .ok (job, call)) :
      Step w { w with
        runs := before ++
          ⟨worker, payload, .ended (some ⟨worker, artifact, .ended true⟩)⟩ :: after
        executions := ⟨worker, artifact, spec, call⟩ :: w.executions }
  -- an exception, the death of the thread or of the whole replica
  | stop {w : World} {before after : List Run} {r : Run} (hrun : w.runs = before ++ r :: after) :
      Step w { w with runs :=
        before ++ { r with stage := .ended (r.call.map stopped) } :: after }

def Initial (w : World) : Prop := w.runs = [] ∧ w.invocations = [] ∧ w.executions = []

def World.barrier (w : World) : Barrier.World where
  log := w.log
  boundaries := w.boundary
  now := w.now
  calls := w.runs.filterMap Run.call
  invocations := w.invocations

theorem settled_call (worker : Nat) (payload : PyVal) (artifact : Artifact)
    (outcome : HandlerOutcome) :
    (⟨worker, payload, settled worker artifact outcome⟩ : Run).call =
      some ⟨worker, artifact, .ended true⟩ := by
  unfold settled
  split <;> rfl

variable {P store} {w w' : World} {past : List World}

theorem Step.idle (w : Barrier.World) : Barrier.Step P w w :=
  .environment ⟨List.prefix_rfl, fun _ hn => hn⟩

theorem barrier_calls {before after : List Run} {r : Run} {c : Barrier.Call}
    (hrun : w.runs = before ++ r :: after) (hc : r.call = some c) :
    w.barrier.calls = before.filterMap Run.call ++ c :: after.filterMap Run.call := by
  rw [World.barrier, hrun, Roster.filterMap_some hc]

theorem moved {log : ReplayLog} {invocations : List (Nat × Artifact)} {before after : List Run}
    {r : Run} {c : Barrier.Call} (hc : r.call = some c)
    (h : Barrier.Step P w.barrier { w.barrier with
      log := log, invocations := invocations,
      calls := before.filterMap Run.call ++ c :: after.filterMap Run.call }) :
    Barrier.Step P w.barrier { w.barrier with
      log := log, invocations := invocations,
      calls := (before ++ r :: after).filterMap Run.call } := by
  rw [Roster.filterMap_some hc]
  exact h

theorem kept {before after : List Run} {r r' : Run} (hrun : w.runs = before ++ r :: after)
    (hc : r'.call = r.call) : Barrier.Step P w.barrier { w.barrier with
      calls := (before ++ r' :: after).filterMap Run.call } := by
  rw [Roster.filterMap_replace hc, ← hrun]
  exact Step.idle _

-- the replicas use the barrier as its own calls do
theorem Step.barrier (h : Step P store w w') : Barrier.Step P w.barrier w'.barrier := by
  cases h with
  | environment h => exact .environment h
  | queue call => exact Step.idle _
  | tamper table => exact Step.idle _
  | deliver hholding hrow hjob => exact Step.idle _
  | @present before after worker payload text artifact action hrun htext hread haction =>
      have hcalls : w.barrier.calls = (before ++ after).filterMap Run.call := by
        rw [World.barrier, hrun, Roster.filterMap_middle, List.filterMap_append]
        rfl
      have hstep : Barrier.Step P w.barrier { w.barrier with
          calls := ⟨worker, artifact, .checking ExecutionBoundary.Check.all⟩ ::
            w.barrier.calls } := .submit
      rw [hcalls] at hstep
      exact hstep
  | pass hrun hpass => exact moved rfl (.pass (barrier_calls hrun rfl) hpass)
  | claim hrun h => exact moved rfl (.claim (barrier_calls hrun rfl) h)
  | invoke hrun => exact moved rfl (.invoke (barrier_calls hrun rfl))
  | finish hrun h => exact moved (settled_call _ _ _ _) (.finish (barrier_calls hrun rfl) h)
  | execute hrun h => exact kept hrun rfl
  | @stop before after r hrun =>
      cases hcall : r.call with
      | none => exact kept hrun hcall.symm
      | some c => exact moved rfl (.abort (barrier_calls hrun hcall))

theorem barrier_trace (h : Trace Initial (Step P store) (w :: past)) :
    Trace Barrier.Initial (Barrier.Step P) (w.barrier :: past.map World.barrier) := by
  refine Trace.rule (I := fun w past =>
    Trace Barrier.Initial (Barrier.Step P) (w.barrier :: past.map World.barrier)) ?_ ?_ h
  · rintro w ⟨hruns, hinvocations, -⟩
    exact .start ⟨by rw [World.barrier, hruns]; rfl, hinvocations⟩
  · intro w past w' _ ih hs
    exact ih.next hs.barrier

def heldNonce (r : Run) : Option Str :=
  match r.stage with
  | .authorizing artifact _ .claimed => some artifact.nonce
  | .authorizing artifact _ .running => some artifact.nonce
  | .authorized artifact _ => some artifact.nonce
  | _ => none

def ledger (w : World) : ClaimOnce.Ledger Str where
  claimed := {n | n ∈ w.log.usedNonces}
  held := w.runs.filterMap heldNonce
  started := w.executions.map (fun e => e.artifact.nonce)

theorem ledger_same {before after : List Run} {r r' : Run} (hrun : w.runs = before ++ r :: after)
    (h : heldNonce r' = heldNonce r) :
    ClaimOnce.Step (ledger w) { ledger w with held := (before ++ r' :: after).filterMap heldNonce } :=
    by
  refine .drop ?_
  rw [Roster.filterMap_replace h, ← hrun]
  exact List.Subperm.refl _

theorem ledger_drop {before after : List Run} {r r' : Run} (hrun : w.runs = before ++ r :: after)
    (h : heldNonce r' = none) :
    ClaimOnce.Step (ledger w) { ledger w with held := (before ++ r' :: after).filterMap heldNonce } :=
    by
  refine .drop ?_
  rw [ledger, hrun, Roster.filterMap_middle, Roster.filterMap_middle, h]
  exact (List.Sublist.append_left (List.sublist_append_right _ _) _).subperm

theorem heldNonce_settled (worker : Nat) (payload : PyVal) (artifact : Artifact)
    (outcome : HandlerOutcome) :
    heldNonce ⟨worker, payload, settled worker artifact outcome⟩ = some artifact.nonce ∨
      heldNonce ⟨worker, payload, settled worker artifact outcome⟩ = none := by
  unfold settled
  split
  · exact Or.inl rfl
  · exact Or.inr rfl

theorem ledger_step (h : Step P store w w') : ClaimOnce.Step (ledger w) (ledger w') := by
  cases h with
  | environment h => exact .grow fun n hn => h.usedNonces n hn
  | queue call => exact .grow (le_refl _)
  | tamper table => exact .grow (le_refl _)
  | deliver hholding hrow hjob => exact .grow (le_refl _)
  | @present before after worker payload text artifact action hrun htext hread haction =>
      refine .drop (List.Perm.subperm (.of_eq ?_))
      change (before ++ after).filterMap heldNonce = w.runs.filterMap heldNonce
      rw [hrun, Roster.filterMap_middle, List.filterMap_append]
      rfl
  | pass hrun hpass => exact ledger_same hrun rfl
  | @claim before after worker payload artifact action log hrun h =>
      obtain ⟨hunused, rfl⟩ := ExecutionBoundary.claim_eq_ok.mp h
      have hunused : artifact.nonce ∉ (ledger w).claimed := by
        simpa [ReplayLog.nonceUsed, ledger] using hunused
      have hclaimed : {n | n ∈ artifact.nonce :: w.log.usedNonces} =
          insert artifact.nonce (ledger w).claimed := by
        ext n
        simp [ledger]
      have hheld : ((before ++ ⟨worker, payload, .authorizing artifact action .claimed⟩ ::
          after).filterMap heldNonce).Perm (artifact.nonce :: (ledger w).held) := by
        rw [ledger, hrun, Roster.filterMap_middle, Roster.filterMap_middle]
        exact List.perm_middle
      have hstep := ClaimOnce.Step.claim (l := ledger w) hunused hheld
      rw [← hclaimed] at hstep
      exact hstep
  | invoke hrun => exact ledger_same hrun rfl
  | @finish before after worker payload artifact action log hrun h =>
      obtain ⟨-, hused⟩ := Barrier.record_log P h
      have hstep := (heldNonce_settled worker payload artifact
        (action artifact.actionRequest)).elim (ledger_same hrun) (ledger_drop hrun)
      simp only [ledger, hused] at hstep ⊢
      exact hstep
  | execute hrun h =>
      refine .start ?_
      rw [ledger, hrun, Roster.filterMap_middle, Roster.filterMap_middle]
      exact List.perm_middle
  | @stop before after r hrun => exact ledger_drop hrun rfl

theorem ledger_invariant (h : Trace Initial (Step P store) (w :: past)) :
    ClaimOnce.Invariant (ledger w) := by
  refine Trace.invariant (I := fun w => ClaimOnce.Invariant (ledger w)) ?_ ?_ h
  · rintro w ⟨hruns, -, hexecutions⟩
    have hempty : ClaimOnce.Step ClaimOnce.empty (ledger w) := by
      rw [ledger, hruns, hexecutions]
      exact .grow (Set.empty_subset _)
    exact ClaimOnce.invariant_step ClaimOnce.invariant_empty hempty
  · intro w w' hw hs
    exact ClaimOnce.invariant_step hw (ledger_step hs)

def Offered (past : List World) (worker : Nat) (artifact : Artifact)
    (action : PyDict → HandlerOutcome) : Prop :=
  ∃ v ∈ past, (v.workers worker).service.handler artifact = .ok action

def Returned (past : List World) (worker : Nat) (artifact : Artifact) (spec : PyDict) : Prop :=
  ∃ action, Offered past worker artifact action ∧
    action artifact.actionRequest = .returned (.dict spec)

def Backed (past : List World) (r : Run) : Prop :=
  match r.stage with
  | .authorizing artifact action _ => Offered past r.worker artifact action
  | .authorized artifact spec => Returned past r.worker artifact spec
  | _ => True

def Invoked (invocations : List (Nat × Artifact)) (r : Run) : Prop :=
  match r.stage with
  | .authorizing artifact _ .running => (r.worker, artifact) ∈ invocations
  | .authorized artifact _ => (r.worker, artifact) ∈ invocations
  | _ => True

structure Served (past : List World) (invocations : List (Nat × Artifact)) (r : Run) : Prop where
  backed : Backed past r
  invoked : Invoked invocations r

structure Sourced (past : List World) (invocations : List (Nat × Artifact)) (e : Execution) :
    Prop where
  invoked : (e.worker, e.artifact) ∈ invocations
  returned : Returned past e.worker e.artifact e.spec
  prepared : ∃ v ∈ past, ∃ job, (v.workers e.worker).prepare e.spec = .ok (job, e.call)

structure Evidence (w : World) (past : List World) : Prop where
  runs : ∀ r ∈ w.runs, Served past w.invocations r
  executions : ∀ e ∈ w.executions, Sourced past w.invocations e

theorem Offered.mono {worker : Nat} {artifact : Artifact} {action : PyDict → HandlerOutcome}
    (w : World) (h : Offered past worker artifact action) :
    Offered (w :: past) worker artifact action := by
  obtain ⟨v, hv, haction⟩ := h
  exact ⟨v, List.mem_cons_of_mem _ hv, haction⟩

theorem Returned.mono {worker : Nat} {artifact : Artifact} {spec : PyDict} (w : World)
    (h : Returned past worker artifact spec) : Returned (w :: past) worker artifact spec := by
  obtain ⟨action, hoffered, hspec⟩ := h
  exact ⟨action, hoffered.mono w, hspec⟩

theorem Served.mono {invocations invocations' : List (Nat × Artifact)} {r : Run} (w : World)
    (h : Served past invocations r) (hgrows : invocations ⊆ invocations') :
    Served (w :: past) invocations' r := by
  obtain ⟨hbacked, hinvoked⟩ := h
  obtain ⟨worker, payload, stage⟩ := r
  cases stage with
  | received => exact ⟨trivial, trivial⟩
  | authorizing artifact action phase =>
      refine ⟨Offered.mono w hbacked, ?_⟩
      cases phase with
      | running => exact hgrows hinvoked
      | _ => trivial
  | authorized artifact spec => exact ⟨Returned.mono w hbacked, hgrows hinvoked⟩
  | ended call => exact ⟨trivial, trivial⟩

theorem Sourced.mono {invocations invocations' : List (Nat × Artifact)} {e : Execution}
    (w : World) (h : Sourced past invocations e) (hgrows : invocations ⊆ invocations') :
    Sourced (w :: past) invocations' e := by
  obtain ⟨v, hv, hprepared⟩ := h.prepared
  exact ⟨hgrows h.invoked, h.returned.mono w, v, List.mem_cons_of_mem _ hv, hprepared⟩

theorem served_settled {invocations : List (Nat × Artifact)} {worker : Nat} {payload : PyVal}
    {artifact : Artifact} {action : PyDict → HandlerOutcome}
    (h : Served past invocations ⟨worker, payload, .authorizing artifact action .running⟩) :
    Served past invocations
      ⟨worker, payload, settled worker artifact (action artifact.actionRequest)⟩ := by
  unfold settled
  split
  · rename_i spec hspec
    exact ⟨⟨action, h.backed, hspec⟩, h.invoked⟩
  · exact ⟨trivial, trivial⟩

theorem evidence_step (hw : Evidence w past) (h : Step P store w w') : Evidence w' (w :: past) := by
  obtain ⟨hruns, hexecutions⟩ := hw
  have hserved : ∀ r ∈ w.runs, Served (w :: past) w.invocations r :=
    fun r hr => (hruns r hr).mono w (List.Subset.refl _)
  have hsourced : ∀ e ∈ w.executions, Sourced (w :: past) w.invocations e :=
    fun e he => (hexecutions e he).mono w (List.Subset.refl _)
  have hreplace : ∀ {before after : List Run} {r r' : Run}, w.runs = before ++ r :: after →
      (Served (w :: past) w.invocations r → Served (w :: past) w.invocations r') →
        ∀ r ∈ before ++ r' :: after, Served (w :: past) w.invocations r :=
    fun hrun hnew => Roster.forall_replace (hrun ▸ hserved) (fun _ h => h) hnew
  cases h with
  | environment h => exact ⟨hserved, hsourced⟩
  | queue call => exact ⟨hserved, hsourced⟩
  | tamper table => exact ⟨hserved, hsourced⟩
  | deliver hholding hrow hjob =>
      exact ⟨List.forall_mem_cons.mpr ⟨⟨trivial, trivial⟩, hserved⟩, hsourced⟩
  | present hrun htext hread haction =>
      rw [hrun, List.forall_mem_append, List.forall_mem_cons] at hserved
      refine ⟨List.forall_mem_cons.mpr ⟨⟨⟨w, List.mem_cons_self, haction⟩, trivial⟩, ?_⟩, hsourced⟩
      exact List.forall_mem_append.mpr ⟨hserved.1, hserved.2.2⟩
  | pass hrun hpass => exact ⟨hreplace hrun fun h => ⟨h.backed, trivial⟩, hsourced⟩
  | claim hrun h => exact ⟨hreplace hrun fun h => ⟨h.backed, trivial⟩, hsourced⟩
  | @invoke before after worker payload artifact action hrun =>
      have hgrows := List.subset_cons_self (worker, artifact) w.invocations
      refine ⟨Roster.forall_replace (hrun ▸ hruns) (fun _ h => h.mono w hgrows) fun h => ?_,
        fun e he => (hexecutions e he).mono w hgrows⟩
      exact ⟨Offered.mono w h.backed, List.mem_cons_self⟩
  | finish hrun h => exact ⟨hreplace hrun served_settled, hsourced⟩
  | @execute before after worker payload artifact spec job call hrun h =>
      have hauthorized := hserved ⟨worker, payload, .authorized artifact spec⟩
        (hrun ▸ List.mem_append_right _ List.mem_cons_self)
      refine ⟨hreplace hrun fun _ => ⟨trivial, trivial⟩, List.forall_mem_cons.mpr ⟨?_, hsourced⟩⟩
      exact ⟨hauthorized.invoked, hauthorized.backed, w, List.mem_cons_self, job, h⟩
  | stop hrun => exact ⟨hreplace hrun fun _ => ⟨trivial, trivial⟩, hsourced⟩

theorem evidence (h : Trace Initial (Step P store) (w :: past)) : Evidence w past := by
  refine Trace.rule (I := Evidence) ?_ ?_ h
  · rintro w ⟨hruns, hinvocations, hexecutions⟩
    exact ⟨by simp [hruns], by simp [hexecutions]⟩
  · intro w past w' _ hw hs
    exact evidence_step hw hs

theorem runs_checks {i : Nat} {payload : PyVal} {artifact : Artifact}
    {action : PyDict → HandlerOutcome} {todo : List ExecutionBoundary.Check} {rest : List Run}
    (h : Trace Initial (Step P store) (w :: past))
    (hruns : w.runs = ⟨i, payload, .authorizing artifact action (.checking todo)⟩ :: rest)
    (hpass : ∀ check, w.passes P i artifact check) :
    ∃ past', Trace Initial (Step P store)
      ({ w with runs := ⟨i, payload, .authorizing artifact action (.checking [])⟩ :: rest } ::
        past') := by
  induction todo generalizing w past with
  | nil => exact ⟨past, by rw [← hruns]; exact h⟩
  | cons check todo ih =>
      have hstep : Step P store w { w with
          runs := [] ++ ⟨i, payload, .authorizing artifact action (.checking todo)⟩ :: rest } :=
        .pass hruns (hpass check)
      obtain ⟨past', hpast⟩ := ih (h.next hstep) rfl hpass
      exact ⟨past', hpast⟩

theorem runs_reaches {i : Nat} {payload : PyVal} {rest : List Run} {artifact : Artifact}
    {action : PyDict → HandlerOutcome} {spec : PyDict} {recorded : ReplayLog} {job : SandboxJob}
    {call : RunnerCall} (h : Trace Initial (Step P store) (w :: past))
    (hruns : w.runs = ⟨i, payload, .received⟩ :: rest)
    (hreaches : WorkerRuntime.Reaches P (w.workers i) w.log (w.now i) payload artifact action spec
      recorded)
    (hprepare : (w.workers i).prepare spec = .ok (job, call)) :
    ∃ w' past', Trace Initial (Step P store) (w' :: past') ∧
      (⟨i, artifact, spec, call⟩ : Execution) ∈ w'.executions := by
  obtain ⟨text, htext, hread⟩ := hreaches.presented
  have hhead : ∀ r : Run, r :: rest = [] ++ r :: rest := fun _ => rfl
  have hpresented := h.next (.present (hruns.trans (hhead _)) htext hread hreaches.handler)
  obtain ⟨past', hchecked⟩ := runs_checks hpresented rfl
    (ExecutionBoundary.validate_eq_ok.mp hreaches.valid)
  have hclaimed := hchecked.next (.claim (hhead _)
    (ExecutionBoundary.claim_of_validate hreaches.valid))
  have hinvoked := hclaimed.next (.invoke rfl)
  have hfinished := hinvoked.next (.finish rfl (hreaches.returned ▸ hreaches.recorded))
  rw [hreaches.returned] at hfinished
  have hexecuted := hfinished.next (.execute rfl hprepare)
  exact ⟨_, _, hexecuted, List.mem_cons_self⟩

-- an uninterrupted run of _handle is one of the runs of the fleet
theorem runs_handle {i : Nat} {payload : PyVal} {rest : List Run} {call : RunnerCall}
    {runner : RunnerCall → RunnerOutcome} (h : Trace Initial (Step P store) (w :: past))
    (hruns : w.runs = ⟨i, payload, .received⟩ :: rest)
    (hcall : ((w.workers i).handle P w.log (w.now i) runner payload).call = some call) :
    ∃ w' past' artifact spec, Trace Initial (Step P store) (w' :: past') ∧
      (⟨i, artifact, spec, call⟩ : Execution) ∈ w'.executions := by
  obtain ⟨artifact, action, spec, recorded, job, hreaches, hprepare⟩ :=
    WorkerRuntime.handle_call hcall
  obtain ⟨w', past', htrace, hexecuted⟩ := runs_reaches h hruns hreaches hprepare
  exact ⟨w', past', artifact, spec, htrace, hexecuted⟩

-- the worker reads its artifacts from JSON, which gives them a whole number to expire at
def Dated (artifact : Artifact) : Prop := ∃ e, artifact.expiresAt = .int e

def DatedRun (r : Run) : Prop := ∀ c, r.call = some c → Dated c.artifact

structure AllDated (w : World) : Prop where
  runs : ∀ r ∈ w.runs, DatedRun r
  invocations : ∀ i ∈ w.invocations, Dated i.2

theorem dated_step (hw : AllDated w) (h : Step P store w w') : AllDated w' := by
  obtain ⟨hruns, hinvocations⟩ := hw
  have hreplace : ∀ {before after : List Run} {r r' : Run}, w.runs = before ++ r :: after →
      (DatedRun r → DatedRun r') → ∀ r ∈ before ++ r' :: after, DatedRun r :=
    fun hrun hnew => Roster.forall_replace (hrun ▸ hruns) (fun _ h => h) hnew
  -- the run is at another stage of the same call
  have hsame : ∀ {before after : List Run} {r r' : Run} {c c' : Barrier.Call},
      w.runs = before ++ r :: after → r.call = some c → r'.call = some c' →
        c'.artifact = c.artifact → ∀ r ∈ before ++ r' :: after, DatedRun r := by
    intro before after r r' c c' hrun hc hc' hartifact
    refine hreplace hrun fun hdated d hd => ?_
    obtain rfl := Option.some.inj (hc'.symm.trans hd)
    rw [hartifact]
    exact hdated c hc
  cases h with
  | environment h => exact ⟨hruns, hinvocations⟩
  | queue call => exact ⟨hruns, hinvocations⟩
  | tamper table => exact ⟨hruns, hinvocations⟩
  | deliver hholding hrow hjob =>
      refine ⟨List.forall_mem_cons.mpr ⟨?_, hruns⟩, hinvocations⟩
      intro c hc
      cases hc
  | present hrun htext hread haction =>
      rw [hrun, List.forall_mem_append, List.forall_mem_cons] at hruns
      refine ⟨List.forall_mem_cons.mpr ⟨?_, List.forall_mem_append.mpr ⟨hruns.1, hruns.2.2⟩⟩,
        hinvocations⟩
      intro c hc
      obtain rfl := Option.some.inj hc
      exact GovernanceAuthorizationArtifact.fromJson_expiresAt hread
  | pass hrun hpass => exact ⟨hsame hrun rfl rfl rfl, hinvocations⟩
  | claim hrun h => exact ⟨hsame hrun rfl rfl rfl, hinvocations⟩
  | invoke hrun =>
      refine ⟨hsame hrun rfl rfl rfl, List.forall_mem_cons.mpr ⟨?_, hinvocations⟩⟩
      exact hruns _ (hrun ▸ List.mem_append_right _ List.mem_cons_self) _ rfl
  | finish hrun h => exact ⟨hsame hrun rfl (settled_call _ _ _ _) rfl, hinvocations⟩
  | execute hrun h => exact ⟨hsame hrun rfl rfl rfl, hinvocations⟩
  | @stop before after r hrun =>
      refine ⟨hreplace hrun fun hdated d hd => ?_, hinvocations⟩
      obtain ⟨c, hc, rfl⟩ := Option.map_eq_some_iff.mp hd
      exact hdated c hc

theorem dated (h : Trace Initial (Step P store) (w :: past)) : AllDated w := by
  refine Trace.invariant (I := AllDated) ?_ ?_ h
  · rintro w ⟨hruns, hinvocations, -⟩
    exact ⟨by simp [hruns], by simp [hinvocations]⟩
  · intro w w' hw hs
    exact dated_step hw hs

def Accepted (P : Primitives) (past : List World) (worker : Nat) (artifact : Artifact) : Prop :=
  ∀ check : ExecutionBoundary.Check, ∃ v ∈ past,
    check.Holds P (v.boundary worker) v.log (v.now worker) artifact

theorem accepted (h : Trace Initial (Step P store) (w :: past)) {i : Nat × Artifact}
    (hi : i ∈ w.invocations) : Accepted P past i.1 i.2 := by
  intro check
  have hall : check ∈ ExecutionBoundary.Check.all := by cases check <;> decide
  obtain ⟨v', hv', hpass, -⟩ := (Barrier.evidence P (barrier_trace h)).invocations i hi check hall
  obtain ⟨v, hv, rfl⟩ := List.mem_map.mp hv'
  obtain ⟨e, he⟩ := (dated h).invocations i hi
  exact ⟨v, hv, ExecutionBoundary.Check.holds_of_run hpass (by simp [he])⟩

-- in the run up to the first world that has a call of the runner, the past is all that preceded it
theorem worker_runs_once (h : Trace Initial (Step P store) (w :: past)) :
    (w.executions.map (fun e => e.artifact.nonce)).Nodup ∧
    (∀ e ∈ w.executions, w.log.nonceUsed e.artifact.nonce = true ∧
      Accepted P past e.worker e.artifact ∧ Returned past e.worker e.artifact e.spec ∧
      ∃ v ∈ past, ∃ job, WorkerRuntime.Prepares (v.workers e.worker) e.spec job e.call) ∧
    ∀ (worker : WorkerRuntime) (log : ReplayLog) (now : ℤ) (runner : RunnerCall → RunnerOutcome)
      (payload payload' : PyDict), payload.getD "artifact" = payload'.getD "artifact" →
        worker.handle P log now runner (.dict payload) =
          worker.handle P log now runner (.dict payload') := by
  have hledger := ledger_invariant h
  refine ⟨ClaimOnce.started_nodup hledger, ?_, ?_⟩
  · intro e he
    obtain ⟨hinvoked, hreturned, v, hv, job, hprepared⟩ := (evidence h).executions e he
    have hclaimed := ClaimOnce.started_claimed hledger e.artifact.nonce
      (List.mem_map.mpr ⟨e, he, rfl⟩)
    refine ⟨by simpa [ReplayLog.nonceUsed, ledger] using hclaimed, accepted h hinvoked, hreturned,
      v, hv, job, WorkerRuntime.prepares_of_prepare hprepared⟩
  · intro worker log now runner payload payload' hsame
    exact WorkerRuntime.handle_congr (by simp only [WorkerMain.artifactText, hsame])

def demoSpec : PyDict := PyDict.ofFields [("image", .str "job"), ("command", .list [.str "run"])]

def demoWorker : WorkerRuntime where
  service := {
    issuer := { issuer := Demo.signer }
    boundary := Demo.boundary
    policies := {}
    actions := [("send_email", fun _ => .returned (.dict demoSpec))] }
  secrets := noSecrets
  sandbox := { allowedImages := ["job"], allowed := List.cons_ne_nil _ _ }

theorem demoSpec_prepared : ∃ prepared, demoWorker.prepare demoSpec = .ok prepared :=
  exists_of_toOption (by decide +kernel)

theorem demoSpec_auditable :
    ExecutionBoundary.Auditable referencePrimitives (.returned (.dict demoSpec)) := by
  obtain ⟨bytes, hbytes, hsmall⟩ := isOk_of_any
    (show (canonicalJson referencePrimitives (.dict demoSpec)).toOption.any
      (fun bytes => decide (bytes.utf8ByteSize ≤ 4096)) = true by decide +kernel)
  simp only [ExecutionBoundary.Auditable, ExecutionBoundary.AuditableResult, hbytes,
    of_decide_eq_true hsmall, if_true]
  simp only [demoSpec, PyVal.encodable_ofFields, PyVal.encodable_list, PyVal.encodable_str,
    List.forall_mem_cons]
  exact ⟨by decide, Json.clean_lit _, ⟨by decide, Json.clean_lit _, List.forall_mem_nil _⟩, List.forall_mem_nil _⟩

theorem demo_presented {log : ReplayLog} {artifact : Artifact}
    (hstart : Demo.start = .ok (log, artifact)) :
    ∃ text decoded, Json.Clean text ∧
      GovernanceAuthorizationArtifact.fromJson referencePrimitives text = .ok decoded ∧
        GovernanceAuthorizationArtifact.Alike artifact decoded := by
  obtain ⟨payload, frame, hpayload, -, rfl⟩ := Demo.authorize_eq_ok hstart
  have hrequest : (PyVal.dict Demo.request).IsJson :=
    PyVal.isJson_ofFields (by simp) (by simp [PyVal.IsJson])
  have hdecision : (PyVal.dict Demo.decision).IsJson :=
    PyVal.isJson_ofFields (by simp) (by simp [PyVal.IsJson, PyVal.IsJsonItems])
  have hsigned : (Demo.signed Demo.signer (.int 300) "n-1" payload).unsignedPayload referencePrimitives =
      .ok payload := hpayload
  have haddressed : (Demo.signed Demo.signer (.int 300) "n-1" payload).Addressed :=
    ⟨show lit "n-1" ≠ [] by decide, show Demo.frameId "n-1" ≠ [] by decide,
      show lit "issuer-1" ≠ [] by decide, show lit "c2ln" ≠ [] by decide⟩
  obtain ⟨text, decoded, htext, hread, halike⟩ := GovernanceAuthorizationArtifact.fromJson_toJson
    hrequest hdecision rfl hsigned (Json.clean_lit _) haddressed
  refine ⟨text, decoded, ?_, hread, halike⟩
  obtain ⟨t, -, ht⟩ := bind_eq_ok.mp htext
  rw [← Except.ok.inj ht]
  exact fun p hp => Json.not_surrogate_of_printable (Json.render_printable rfl t p hp)

def demoPayload (text : Str) : Json := .obj [(lit "artifact", .str text)]

def demoRow (text : Str) : JobRow where
  jobId := "job-1"
  idempotencyKey := "key-1"
  payload := (demoPayload text).render jobStyle
  status := .running
  attempts := 1
  maxAttempts := 3
  availableAt := 0

theorem demoRow_job {text : Str} (htext : Json.Clean text) : ∃ job,
    (demoRow text).job referencePrimitives = .ok job ∧
      WorkerMain.artifactText job.payload = .ok text := by
  have hloads : referencePrimitives.loads (demoRow text).payload = .ok (.ofTree (demoPayload text)) :=
    ReplayFrame.loads_render (v := .dict (PyDict.ofFields [("artifact", .str text)])) rfl (le_refl _)
      rfl ⟨Json.clean_lit _, htext, trivial⟩
  exact ⟨_, bind_eq_ok.mpr ⟨_, hloads, rfl⟩, rfl⟩

def demoWorld (log : ReplayLog) (table : JobTable) : World where
  log := log
  workers := fun _ => demoWorker
  now := fun _ => 0
  queue := { table := table, phase := fun _ => .holding "job-1" (some 1) }

theorem demo_reaches {log : ReplayLog} {artifact decoded : Artifact} {payload : PyVal}
    (hstart : Demo.start = .ok (log, artifact))
    (halike : GovernanceAuthorizationArtifact.Alike artifact decoded)
    (hpresented : ∃ text, WorkerMain.artifactText payload = .ok text ∧
      GovernanceAuthorizationArtifact.fromJson referencePrimitives text = .ok decoded) :
    ∃ action recorded, WorkerRuntime.Reaches referencePrimitives demoWorker log 0 payload decoded
      action demoSpec recorded := by
  have hrequest : artifact.actionRequest.getD "action" = .str "send_email" := by
    obtain ⟨payload, frame, -, -, rfl⟩ := Demo.authorize_eq_ok hstart
    simp [Demo.request, PyDict.getD]
  have hnamed : ∃ name, artifact.actionRequest.getD "action" = .str name := ⟨_, hrequest⟩
  have haction : decoded.actionRequest.getD "action" = .str "send_email" := by
    have hname := halike.actionRequest.getD (lit "action")
    rw [hrequest] at hname
    exact hname.str
  have hhandler : demoWorker.service.handler decoded =
      .ok (fun _ => .returned (.dict demoSpec)) := by
    rw [GovernedService.handler, haction]
    rfl
  have hvalid := ExecutionBoundary.validate_alike halike hnamed (Demo.start_validates hstart)
  obtain ⟨recorded, hrecord⟩ := (ExecutionBoundary.record_isOk
    (ExecutionBoundary.sealable_of_validate (ExecutionBoundary.demo_sound hstart) hvalid)).mpr
    demoSpec_auditable
  exact ⟨_, recorded, hpresented, hhandler, hvalid, rfl, hrecord⟩

theorem worker_runs_once_demo : ∃ (w : World) (past : List World) (e : Execution),
    e ∈ w.executions ∧ (w.executions.map (fun e => e.artifact.nonce)).Nodup ∧
      Accepted referencePrimitives past e.worker e.artifact ∧
        Returned past e.worker e.artifact e.spec := by
  obtain ⟨log, artifact, hstart⟩ := Demo.start_isOk
  obtain ⟨text, decoded, hclean, hread, halike⟩ := demo_presented hstart
  obtain ⟨job, hjob, htext⟩ := demoRow_job hclean
  obtain ⟨action, recorded, hreaches⟩ := demo_reaches hstart halike ⟨text, htext, hread⟩
  obtain ⟨prepared, hprepared⟩ := demoSpec_prepared
  let table : JobTable := ⟨[demoRow text], List.nodup_singleton _, List.nodup_singleton _⟩
  have hinitial : Initial (demoWorld log table) := ⟨rfl, rfl, rfl⟩
  have hdelivered : Step referencePrimitives (SQLiteJobStore.act referencePrimitives)
      (demoWorld log table) { demoWorld log table with runs := [⟨0, job.payload, .received⟩] } :=
    .deliver rfl List.mem_cons_self hjob
  obtain ⟨w, past, htrace, hexecuted⟩ :=
    runs_reaches ((Trace.start hinitial).next hdelivered) rfl hreaches hprepared
  obtain ⟨hnodup, hexecutions, -⟩ := worker_runs_once htrace
  obtain ⟨-, haccepted, hreturned, -⟩ := hexecutions _ hexecuted
  exact ⟨w, past, _, hexecuted, hnodup, haccepted, hreturned⟩

end Fleet

end GovernedAutonomy
