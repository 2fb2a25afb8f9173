import GovernedAutonomy.Demo
import GovernedAutonomy.Protocol.ClaimOnce
import GovernedAutonomy.Protocol.Roster
import GovernedAutonomy.Protocol.Trace

namespace GovernedAutonomy

open Python Protocol

namespace Barrier

inductive Phase where
  | checking (todo : List ExecutionBoundary.Check)
  | claimed
  | running
  | ended (invoked : Bool)

def Phase.invoked : Phase → Bool
  | .running => true
  | .ended invoked => invoked
  | _ => false

structure Call where
  boundary : Nat
  artifact : Artifact
  phase : Phase

-- boundaries are named by numbers; what they consult may change between any two steps
structure World where
  log : ReplayLog
  boundaries : Nat → ExecutionBoundary
  now : Nat → ℤ
  calls : List Call
  invocations : List (Nat × Artifact)

variable (P : Primitives)

def World.passes (w : World) (boundary : Nat) (artifact : Artifact)
    (check : ExecutionBoundary.Check) : Prop :=
  check.run P (w.boundaries boundary) w.log (w.now boundary) artifact = .ok ()

structure Grows (log log' : ReplayLog) : Prop where
  frames : log.frames <+: log'.frames
  usedNonces : ∀ n ∈ log.usedNonces, n ∈ log'.usedNonces

inductive Step : World → World → Prop
  -- other users of the log append and claim; keys, registries, clocks change at will
  | environment {w : World} {log : ReplayLog} {boundaries : Nat → ExecutionBoundary}
      {now : Nat → ℤ} (h : Grows w.log log) :
      Step w { w with log := log, boundaries := boundaries, now := now }
  | submit {w : World} {boundary : Nat} {artifact : Artifact} :
      Step w { w with calls := ⟨boundary, artifact, .checking ExecutionBoundary.Check.all⟩ :: w.calls }
  | pass {w : World} {before after : List Call} {b : Nat} {a : Artifact}
      {check : ExecutionBoundary.Check} {todo : List ExecutionBoundary.Check}
      (hcall : w.calls = before ++ ⟨b, a, .checking (check :: todo)⟩ :: after)
      (h : w.passes P b a check) :
      Step w { w with calls := before ++ ⟨b, a, .checking todo⟩ :: after }
  | claim {w : World} {before after : List Call} {b : Nat} {a : Artifact} {log : ReplayLog}
      (hcall : w.calls = before ++ ⟨b, a, .checking []⟩ :: after)
      (h : ExecutionBoundary.claim w.log a = .ok log) :
      Step w { w with log := log, calls := before ++ ⟨b, a, .claimed⟩ :: after }
  | invoke {w : World} {before after : List Call} {b : Nat} {a : Artifact}
      (hcall : w.calls = before ++ ⟨b, a, .claimed⟩ :: after) :
      Step w { w with
        calls := before ++ ⟨b, a, .running⟩ :: after, invocations := (b, a) :: w.invocations }
  | finish {w : World} {before after : List Call} {b : Nat} {a : Artifact}
      {outcome : HandlerOutcome} {log : ReplayLog}
      (hcall : w.calls = before ++ ⟨b, a, .running⟩ :: after)
      (h : ExecutionBoundary.record P w.log a outcome = .ok log) :
      Step w { w with log := log, calls := before ++ ⟨b, a, .ended true⟩ :: after }
  -- a failed check, a refused claim, an exception or a killed thread ends a call anywhere
  | abort {w : World} {before after : List Call} {c : Call}
      (hcall : w.calls = before ++ c :: after) :
      Step w { w with calls := before ++ { c with phase := .ended c.phase.invoked } :: after }

def Initial (w : World) : Prop := w.calls = [] ∧ w.invocations = []

def heldNonce (c : Call) : Option Str :=
  match c.phase with
  | .claimed => some c.artifact.nonce
  | _ => none

def ledger (w : World) : ClaimOnce.Ledger Str where
  claimed := {n | n ∈ w.log.usedNonces}
  held := w.calls.filterMap heldNonce
  started := w.invocations.map (fun i => i.2.nonce)

theorem record_log {log log' : ReplayLog} {a : Artifact} {outcome : HandlerOutcome}
    (h : ExecutionBoundary.record P log a outcome = .ok log') :
    log.frames <+: log'.frames ∧ log'.usedNonces = log.usedNonces := by
  simp only [ExecutionBoundary.record, bind_eq_ok] at h
  obtain ⟨event, -, ⟨log'', frame⟩, happend, h⟩ := h
  obtain rfl := Except.ok.inj h
  obtain ⟨-, rfl⟩ := (ReplayLog.append_eq_ok P).mp happend
  exact ⟨List.prefix_append _ _, rfl⟩

theorem ledger_step {w w' : World} (h : Step P w w') :
    ClaimOnce.Step (ledger w) (ledger w') := by
  cases h with
  | environment h => exact .grow fun n hn => h.usedNonces n hn
  | submit => exact .grow (le_refl _)
  | @pass before after b a check todo hcall h =>
      have hheld : (ledger w).held = (before ++ ⟨b, a, .checking todo⟩ :: after).filterMap
          heldNonce := by
        rw [ledger, hcall, Roster.filterMap_middle, Roster.filterMap_middle]
        rfl
      exact .drop (List.Perm.subperm (.of_eq hheld.symm))
  | @claim before after b a log hcall h =>
      obtain ⟨hunused, rfl⟩ := ExecutionBoundary.claim_eq_ok.mp h
      have hunused : a.nonce ∉ (ledger w).claimed := by
        simpa [ReplayLog.nonceUsed, ledger] using hunused
      have hclaimed : {n | n ∈ a.nonce :: w.log.usedNonces} =
          insert a.nonce (ledger w).claimed := by
        ext n
        simp [ledger]
      have hheld : ((before ++ ⟨b, a, .claimed⟩ :: after).filterMap heldNonce).Perm
          (a.nonce :: (ledger w).held) := by
        rw [ledger, hcall, Roster.filterMap_middle, Roster.filterMap_middle]
        exact List.perm_middle
      have hstep := ClaimOnce.Step.claim (l := ledger w) hunused hheld
      rw [← hclaimed] at hstep
      exact hstep
  | @invoke before after b a hcall =>
      refine .start ?_
      rw [ledger, hcall, Roster.filterMap_middle, Roster.filterMap_middle]
      exact List.perm_middle
  | @finish before after b a outcome log hcall h =>
      obtain ⟨-, hused⟩ := record_log P h
      have hheld : (before ++ ⟨b, a, .ended true⟩ :: after).filterMap heldNonce =
          (ledger w).held := by
        rw [ledger, hcall, Roster.filterMap_middle, Roster.filterMap_middle]
        rfl
      have hstep := ClaimOnce.Step.grow (l := ledger w) (le_refl (ledger w).claimed)
      simp only [ledger, hused] at hstep ⊢
      rw [hheld]
      exact hstep
  | @abort before after c hcall =>
      refine .drop ?_
      rw [ledger, hcall, Roster.filterMap_middle, Roster.filterMap_middle]
      exact (List.Sublist.append_left (List.sublist_append_right _ _) _).subperm

theorem ledger_invariant {w : World} {past : List World}
    (h : Trace Initial (Step P) (w :: past)) : ClaimOnce.Invariant (ledger w) := by
  refine Trace.invariant (I := fun w => ClaimOnce.Invariant (ledger w)) ?_ ?_ h
  · rintro w ⟨hcalls, hinvocations⟩
    have hempty : ClaimOnce.Step ClaimOnce.empty (ledger w) := by
      rw [ledger, hcalls, hinvocations]
      exact .grow (Set.empty_subset _)
    exact ClaimOnce.invariant_step ClaimOnce.invariant_empty hempty
  · intro w w' hw hs
    exact ClaimOnce.invariant_step hw (ledger_step P hs)

theorem invocations_nodup {w : World} {past : List World}
    (h : Trace Initial (Step P) (w :: past)) :
    (w.invocations.map (fun i => i.2.nonce)).Nodup :=
  ClaimOnce.started_nodup (ledger_invariant P h)

theorem log_step {w w' : World} (h : Step P w w') : Grows w.log w'.log := by
  cases h with
  | environment h => exact h
  | claim hcall h =>
      obtain ⟨-, rfl⟩ := ExecutionBoundary.claim_eq_ok.mp h
      exact ⟨List.prefix_rfl, fun n hn => List.mem_cons_of_mem _ hn⟩
  | finish hcall h =>
      obtain ⟨hframes, hused⟩ := record_log P h
      exact ⟨hframes, fun n hn => hused ▸ hn⟩
  | _ => exact ⟨List.prefix_rfl, fun n hn => hn⟩

theorem claimed_forever {w : World} {past : List World}
    (h : Trace Initial (Step P) (w :: past)) {n : Str} :
    ∀ v ∈ past, v.log.nonceUsed n = true → w.log.nonceUsed n = true := by
  refine Trace.stable (A := fun w => w.log.nonceUsed n = true) ?_ h
  intro w w' hw hs
  simp only [ReplayLog.nonceUsed, List.contains_iff_mem] at hw ⊢
  exact (log_step P hs).usedNonces n hw

-- the check was made, and passed, while the call was at it
def PassedIn (past : List World) (b : Nat) (a : Artifact) (check : ExecutionBoundary.Check) :
    Prop :=
  ∃ v ∈ past, v.passes P b a check ∧
    ∃ todo, (⟨b, a, .checking (check :: todo)⟩ : Call) ∈ v.calls

def Progress (past : List World) (c : Call) : Prop :=
  match c.phase with
  | .checking todo => ∃ done, done ++ todo = ExecutionBoundary.Check.all ∧
      ∀ check ∈ done, PassedIn P past c.boundary c.artifact check
  | .ended false => True
  | _ => ∀ check ∈ ExecutionBoundary.Check.all, PassedIn P past c.boundary c.artifact check

structure Evidence (w : World) (past : List World) : Prop where
  calls : ∀ c ∈ w.calls, Progress P past c
  invocations : ∀ i ∈ w.invocations, ∀ check ∈ ExecutionBoundary.Check.all,
    PassedIn P past i.1 i.2 check

theorem PassedIn.mono {past : List World} {b : Nat} {a : Artifact}
    {check : ExecutionBoundary.Check} (w : World) (h : PassedIn P past b a check) :
    PassedIn P (w :: past) b a check := by
  obtain ⟨v, hv, hpass⟩ := h
  exact ⟨v, List.mem_cons_of_mem _ hv, hpass⟩

theorem Progress.mono {past : List World} {c : Call} (w : World) (h : Progress P past c) :
    Progress P (w :: past) c := by
  obtain ⟨b, a, phase⟩ := c
  cases phase with
  | checking todo =>
      obtain ⟨done, hdone, hpass⟩ := h
      exact ⟨done, hdone, fun check hc => (hpass check hc).mono P w⟩
  | ended invoked =>
      cases invoked with
      | false => trivial
      | true => exact fun check hc => (h check hc).mono P w
  | claimed | running => exact fun check hc => (h check hc).mono P w

theorem progress_replace {w : World} {past : List World} {before after : List Call}
    {c c' : Call} (h : ∀ c ∈ w.calls, Progress P past c)
    (hcall : w.calls = before ++ c :: after)
    (hc' : Progress P past c → Progress P (w :: past) c') :
    ∀ d ∈ before ++ c' :: after, Progress P (w :: past) d :=
  Roster.forall_replace (hcall ▸ h) (fun _ hd => hd.mono P w) hc'

theorem progress_pass {w : World} {past : List World} {before after : List Call} {b : Nat}
    {a : Artifact} {check : ExecutionBoundary.Check} {todo : List ExecutionBoundary.Check}
    (hcall : w.calls = before ++ ⟨b, a, .checking (check :: todo)⟩ :: after)
    (hpass : w.passes P b a check) (h : Progress P past ⟨b, a, .checking (check :: todo)⟩) :
    Progress P (w :: past) ⟨b, a, .checking todo⟩ := by
  obtain ⟨done, hdone, hpassed⟩ := h
  refine ⟨done ++ [check], by rw [← hdone, List.append_assoc]; rfl, ?_⟩
  intro k hk
  rcases List.mem_append.mp hk with hk | hk
  · exact (hpassed k hk).mono P w
  · obtain rfl := List.mem_singleton.mp hk
    exact ⟨w, List.mem_cons_self, hpass, todo, by simp [hcall]⟩

theorem progress_abort {w : World} {past : List World} {c : Call} (h : Progress P past c) :
    Progress P (w :: past) { c with phase := .ended c.phase.invoked } := by
  have h := h.mono P w
  obtain ⟨b, a, phase⟩ := c
  cases phase with
  | ended invoked => exact h
  | running => exact h
  | checking todo => trivial
  | claimed => trivial

theorem evidence_step {w w' : World} {past : List World} (hw : Evidence P w past)
    (h : Step P w w') : Evidence P w' (w :: past) := by
  obtain ⟨hcalls, hinvocations⟩ := hw
  have hkeep : ∀ c ∈ w.calls, Progress P (w :: past) c := fun c hc => (hcalls c hc).mono P w
  have hold : ∀ i ∈ w.invocations, ∀ check ∈ ExecutionBoundary.Check.all,
      PassedIn P (w :: past) i.1 i.2 check :=
    fun i hi check hc => (hinvocations i hi check hc).mono P w
  cases h with
  | environment h => exact ⟨hkeep, hold⟩
  | submit =>
      refine ⟨?_, hold⟩
      intro c hc
      rcases List.mem_cons.mp hc with rfl | hc
      · exact ⟨[], rfl, by simp⟩
      · exact hkeep c hc
  | pass hcall hpass =>
      exact ⟨progress_replace P hcalls hcall (progress_pass P hcall hpass), hold⟩
  | claim hcall h =>
      refine ⟨progress_replace P hcalls hcall ?_, hold⟩
      rintro ⟨done, hdone, hpassed⟩ check hc
      rw [List.append_nil] at hdone
      exact (hpassed check (hdone ▸ hc)).mono P w
  | invoke hcall =>
      have hc := hcalls _ (hcall ▸ List.mem_append_right _ List.mem_cons_self)
      refine ⟨progress_replace P hcalls hcall (fun h => h.mono P w), ?_⟩
      intro i hi
      rcases List.mem_cons.mp hi with rfl | hi
      · exact fun check hcheck => (hc check hcheck).mono P w
      · exact hold i hi
  | finish hcall h => exact ⟨progress_replace P hcalls hcall (fun h => h.mono P w), hold⟩
  | abort hcall => exact ⟨progress_replace P hcalls hcall (progress_abort P), hold⟩

theorem evidence {w : World} {past : List World} (h : Trace Initial (Step P) (w :: past)) :
    Evidence P w past := by
  refine Trace.rule (I := Evidence P) ?_ ?_ h
  · rintro w ⟨hcalls, hinvocations⟩
    exact ⟨by simp [hcalls], by simp [hinvocations]⟩
  · intro w past w' _ hw hs
    exact evidence_step P hw hs

theorem claimNonce_of_used {log : ReplayLog} {n : Str} (h : log.nonceUsed n = true)
    (log' : ReplayLog) : log.claimNonce n ≠ .ok log' := by
  rw [ReplayLog.claimNonce, if_pos h]
  simp

-- each nonce is spent once and for good
structure Once (w : World) (past : List World) : Prop where
  invoked : (w.invocations.map (fun i => i.2.nonce)).Nodup
  spent : ∀ i ∈ w.invocations, w.log.nonceUsed i.2.nonce = true
  forever : ∀ v ∈ past, ∀ n, v.log.nonceUsed n = true → ∀ log', w.log.claimNonce n ≠ .ok log'

-- what each check stands for was so while the call was at it
def Guarded (past : List World) (i : Nat × Artifact) : Prop :=
  ∀ check : ExecutionBoundary.Check, ∃ v ∈ past,
    check.Holds P (v.boundaries i.1) v.log (v.now i.1) i.2 ∧
      ∃ todo, (⟨i.1, i.2, .checking (check :: todo)⟩ : Call) ∈ v.calls

theorem once {w : World} {past : List World} (h : Trace Initial (Step P) (w :: past)) :
    Once w past := by
  have hledger := ledger_invariant P h
  refine ⟨invocations_nodup P h, ?_, ?_⟩
  · intro i hi
    have := ClaimOnce.started_claimed hledger i.2.nonce (List.mem_map.mpr ⟨i, hi, rfl⟩)
    simpa [ReplayLog.nonceUsed, ledger] using this
  · intro v hv n hn
    exact claimNonce_of_used (claimed_forever P h v hv hn)

-- no clock is earlier than a NaN
theorem not_guarded_of_nan {past : List World} {i : Nat × Artifact}
    (hnan : i.2.expiresAt = .float .nan) : ¬ Guarded P past i := by
  intro h
  obtain ⟨v, -, ⟨x, hx, -⟩, -⟩ := h .expiry
  rw [hnan] at hx
  cases hx

theorem execution_barrier {w : World} {past : List World}
    (h : Trace Initial (Step P) (w :: past)) :
    Once w past ∧
      ∀ i ∈ w.invocations, (Guarded P past i ↔ i.2.expiresAt ≠ .float .nan) := by
  refine ⟨once P h, ?_⟩
  intro i hi
  constructor
  · intro hguarded hnan
    exact not_guarded_of_nan P hnan hguarded
  · intro hexpires check
    have hall : check ∈ ExecutionBoundary.Check.all := by cases check <;> decide
    obtain ⟨v, hv, hpass, htodo⟩ := (evidence P h).invocations i hi check hall
    exact ⟨v, hv, ExecutionBoundary.Check.holds_of_run hpass hexpires, htodo⟩

theorem runs_checks {w : World} {past : List World} {b : Nat} {a : Artifact}
    {todo : List ExecutionBoundary.Check} {rest : List Call}
    (h : Trace Initial (Step P) (w :: past))
    (hcalls : w.calls = ⟨b, a, .checking todo⟩ :: rest)
    (hpass : ∀ check, w.passes P b a check) :
    ∃ past', Trace Initial (Step P)
      ({ w with calls := ⟨b, a, .checking []⟩ :: rest } :: past') := by
  induction todo generalizing w past with
  | nil => exact ⟨past, by rw [← hcalls]; exact h⟩
  | cons check todo ih =>
      have hstep : Step P w { w with calls := [] ++ ⟨b, a, .checking todo⟩ :: rest } :=
        .pass hcalls (hpass check)
      obtain ⟨past', hpast⟩ := ih (h.next hstep) rfl hpass
      exact ⟨past', hpast⟩

theorem runs_to_invocation {w : World} {past : List World} {b : Nat} {a : Artifact}
    (h : Trace Initial (Step P) (w :: past))
    (hvalid : ExecutionBoundary.validate P (w.boundaries b) w.log (w.now b) a = .ok ()) :
    ∃ w' past', Trace Initial (Step P) (w' :: past') ∧ (b, a) ∈ w'.invocations := by
  have hpass := ExecutionBoundary.validate_eq_ok.mp hvalid
  have hclaim := ExecutionBoundary.claim_of_validate hvalid
  have hsubmit : Step P w { w with
      calls := ⟨b, a, .checking ExecutionBoundary.Check.all⟩ :: w.calls } := .submit
  obtain ⟨past', hchecked⟩ := runs_checks P (h.next hsubmit) rfl hpass
  have hclaimed := hchecked.next (@Step.claim P _ [] w.calls b a _ rfl hclaim)
  exact ⟨_, _, hclaimed.next (@Step.invoke P _ [] w.calls b a rfl), List.mem_cons_self⟩

def demoWorld (log : ReplayLog) : World where
  log := log
  boundaries := fun _ => Demo.boundary
  now := fun _ => 0
  calls := []
  invocations := []

-- the demo's artifact, with an expiry of one's own
theorem demo_invoked {log : ReplayLog} {artifact : Artifact} {expiresAt : PyVal}
    (hstart : Demo.startUntil expiresAt = .ok (log, artifact))
    (hlater : ExecutionBoundary.checkExpiry 0 artifact = .ok ()) : ∃ w past,
      Trace Initial (Step referencePrimitives) (w :: past) ∧ (0, artifact) ∈ w.invocations := by
  have htrace : Trace Initial (Step referencePrimitives) [demoWorld log] := .start ⟨rfl, rfl⟩
  exact runs_to_invocation referencePrimitives htrace (Demo.startUntil_validates hstart hlater)

theorem execution_barrier_demo : ∃ (w : World) (past : List World) (artifact : Artifact),
    (0, artifact) ∈ w.invocations ∧ Once w past ∧
      (Guarded referencePrimitives past (0, artifact) ↔ artifact.expiresAt ≠ .float .nan) := by
  obtain ⟨log, artifact, hstart⟩ := Demo.start_isOk
  obtain ⟨w, past, htrace, hmem⟩ := demo_invoked hstart (Demo.start_unexpired hstart)
  obtain ⟨honce, hall⟩ := execution_barrier referencePrimitives htrace
  exact ⟨w, past, artifact, hmem, honce, hall (0, artifact) hmem⟩

theorem barrier_passes_nan : ¬ ∀ (P : Primitives) (w : World) (past : List World),
    Trace Initial (Step P) (w :: past) → ∀ i ∈ w.invocations, Guarded P past i := by
  intro h
  obtain ⟨log, artifact, hstart⟩ := Demo.startUntil_isOk (PyVal.encodable_float .nan)
  have hnan : artifact.expiresAt = .float .nan := by
    obtain ⟨payload, frame, -, -, rfl⟩ := Demo.authorize_eq_ok hstart
    rfl
  obtain ⟨w, past, htrace, hmem⟩ :=
    demo_invoked hstart (ExecutionBoundary.checkExpiry_eq_ok.mpr (.inr hnan))
  exact not_guarded_of_nan referencePrimitives hnan
    (h referencePrimitives w past htrace (0, artifact) hmem)

end Barrier

end GovernedAutonomy
