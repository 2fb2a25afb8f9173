import GovernedAutonomy.Concurrency

namespace GovernedAutonomy

open Python Protocol

-- a database step of another store that uses the connection of a replica
inductive StoreStep
  | statement (fails : Bool)
  | commit
  | rollback

namespace PostgresTrustStore

-- the SELECT finds a key that is not revoked, or the upsert follows
def add (taken : Bool) : List StoreStep :=
  if taken then [.statement false, .rollback] else [.statement false, .statement false, .commit]

def revoke (known : Bool) : List StoreStep :=
  [.statement false, if known then .commit else .rollback]

end PostgresTrustStore

namespace PostgresJobStore

def run (fails : Bool) : List StoreStep :=
  [.statement fails, if fails then .rollback else .commit]

end PostgresJobStore

inductive SharedMove (ι : Type)
  | replica (move : ClusterMove ι)
  | store (i : ι) (step : StoreStep)

namespace Cluster

variable {ι : Type} [DecidableEq ι] (P : Primitives) (server : PostgresServer)

def storeStep (c : Cluster ι) (i : ι) : StoreStep → Cluster ι
  | .statement false => c
  | .statement true =>
      match (c.replicas i).connection with
      | .usable => c.abort i
      | _ => c
  | .commit => c.commit i
  | .rollback => c.rollback i

def sharedStep (c : Cluster ι) : SharedMove ι → Cluster ι
  | .replica move => c.step P server move
  | .store i step => c.storeStep i step

def LosslessMove : SharedMove ι → Prop
  | .replica move => Lossless P server move
  | .store _ _ => True

-- no store ends the transaction of an append before the INSERT, or undoes it after
def Spares (c : Cluster ι) (i : ι) : StoreStep → Prop
  | .statement false => True
  | .statement true =>
      (c.replicas i).connection ≠ .usable ∨ (c.replicas i).phase.isInserted = false
  | .commit => (c.replicas i).connection = .dropped ∨ (c.replicas i).phase.isLocked = false
  | .rollback => (c.replicas i).connection = .dropped ∨
      (c.replicas i).phase.isLocked = false ∧ (c.replicas i).phase.isInserted = false

def Undisturbed (c : Cluster ι) : SharedMove ι → Prop
  | .replica move => Lossless P server move
  | .store i step => c.Spares i step

variable {P server} {c : Cluster ι} {i : ι}

theorem Sound.storeStep (h : c.Sound P server) {step : StoreStep} (hstep : c.Spares i step) :
    (c.storeStep i step).Sound P server := by
  cases step with
  | statement fails =>
      cases fails with
      | false => exact h
      | true =>
          rw [Cluster.storeStep]
          split
          · rename_i husable
            have hinserted := hstep.resolve_left (not_not.mpr husable)
            refine h.moves (Moves.abort h.ledger) ?_
            rw [abort_self]
            exact (h.ready i).reconnect (fun _ => by simp) (by simp [hinserted])
          · exact h
  | commit => exact h.commit hstep
  | rollback => exact h.rollback hstep

theorem Sound.sharedStep (h : c.Sound P server) {move : SharedMove ι}
    (hmove : c.Undisturbed P server move) : (c.sharedStep P server move).Sound P server := by
  cases move with
  | replica move => exact h.step hmove
  | store i step => exact h.storeStep hmove

theorem shared_connection_keeps_chain {moves : List (SharedMove ι)}
    (h : Calls.Each (sharedStep P server) (Undisturbed P server) {} moves) :
    (Calls.run (sharedStep P server) {} moves).Intact P := by
  have hsound := Calls.stable (fun c move hmove hc => hc.sharedStep hmove) h sound_empty
  exact hsound.intact

def advances (i : Bool) (n : ℕ) : List (SharedMove Bool) := List.replicate n (.replica (.advance i))

-- a key is revoked before the append has the lock, and the other process stores a job meanwhile
def sparedAppend : List (SharedMove Bool) :=
  (PostgresTrustStore.revoke true).map (.store true) ++
    [.replica (.call true (.append "f-1" [])), .replica (.advance true)] ++
      (PostgresJobStore.run false).map (.store false) ++ advances true 4

theorem shared_connection_keeps_chain_spared :
    (Calls.run (sharedStep referencePrimitives ⟨some⟩) {} sparedAppend).Intact
      referencePrimitives := by
  refine shared_connection_keeps_chain ?_
  simp only [sparedAppend, PostgresTrustStore.revoke, PostgresJobStore.run, advances, if_true,
    Bool.false_eq_true, if_false, List.map_cons, List.map_nil, List.cons_append, List.nil_append,
    List.replicate]
  refine ⟨trivial, Or.inr rfl, ReplayLog.keeps_empty, trivial, trivial, Or.inr rfl, trivial, trivial,
    trivial, trivial, trivial⟩

-- revoke commits after the lock is taken and before the frame is inserted
def revokedAppend : List (SharedMove Bool) :=
  [.replica (.call true (.append "f-1" [])), .replica (.call false (.append "f-2" []))] ++
    advances true 3 ++ (PostgresTrustStore.revoke true).map (.store true) ++ advances false 5 ++
      advances true 2

-- add finds the key after the frame is inserted, and rolls back
def refusedAppend : List (SharedMove Bool) :=
  [.replica (.call true (.append "f-1" []))] ++ advances true 4 ++
    (PostgresTrustStore.add true).map (.store true) ++ advances true 1

theorem lossless_of_empty (moves : List (SharedMove Bool))
    (h : ∀ move ∈ moves, ∀ i frameId event,
      move = .replica (.call i (.append frameId event)) → event = []) :
    ∀ move ∈ moves, LosslessMove sizePrimitives ⟨some⟩ move := by
  intro move hmove
  unfold LosslessMove Lossless
  split
  · split
    · obtain rfl := h _ hmove _ _ _ rfl
      exact ReplayLog.keeps_nil (exists_of_toOption (by decide +kernel))
    · trivial
  · trivial

theorem shared_connection_breaks_chain :
    (¬ ∀ (P : Primitives) (server : PostgresServer) (moves : List (SharedMove Bool)),
      (∀ move ∈ moves, LosslessMove P server move) →
        (Calls.run (sharedStep P server) {} moves).Unbroken P) ∧
    ¬ ∀ (P : Primitives) (server : PostgresServer) (moves : List (SharedMove Bool)),
      (∀ move ∈ moves, LosslessMove P server move) →
        ∀ frame ∈ (Calls.run (sharedStep P server) {} moves).returned,
          (Calls.run (sharedStep P server) {} moves).StoredOnce P frame := by
  refine ⟨?_, ?_⟩
  · intro h
    obtain ⟨db, hdb, -⟩ := h sizePrimitives ⟨some⟩ revokedAppend
      (lossless_of_empty _ (by simp [revokedAppend, advances, PostgresTrustStore.revoke]))
    have hbroken : (PostgresReplayLog.connect sizePrimitives (Calls.run
        (sharedStep sizePrimitives ⟨some⟩) {} revokedAppend).tables).toOption.isNone = true := by
      decide +kernel
    rw [hdb] at hbroken
    cases hbroken
  · intro h
    have hstored := h sizePrimitives ⟨some⟩ refusedAppend
      (lossless_of_empty _ (by simp [refusedAppend, advances, PostgresTrustStore.add]))
    have hreturned : (Calls.run (sharedStep sizePrimitives ⟨some⟩) {}
        refusedAppend).returned.length = 1 := by decide +kernel
    have hrows : (Calls.run (sharedStep sizePrimitives ⟨some⟩) {}
        refusedAppend).tables.replayFrames.length = 0 := by decide +kernel
    obtain ⟨frame, hframe⟩ := List.length_eq_one_iff.mp hreturned
    obtain ⟨row, -, hrow⟩ := hstored frame (by rw [hframe]; exact List.mem_singleton_self frame)
    rw [List.length_eq_zero_iff.mp hrows] at hrow
    cases hrow

end Cluster

end GovernedAutonomy
