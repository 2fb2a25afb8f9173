import GovernedAutonomy.Interleaving

set_option linter.unusedSectionVars false

namespace GovernedAutonomy

open Python Protocol

open PostgresReplayLog (Row)

namespace Cluster

variable {ι : Type} [DecidableEq ι] {P : Primitives} {server : PostgresServer} {c c' : Cluster ι}
  {i : ι} {nonce : Str}

-- what the COMMIT of a claim relies on
def Claims (t : Guarded ι Str) (i : ι) (replica : Replica) : Prop :=
  ∀ nonce, replica.phase = .claimCommit nonce → replica.connection = .dropped ∨
    replica.connection = .usable ∧ (⟨nonce, some i⟩ : Inserted ι Str) ∈ t.rows

structure ClaimsOnce (c : Cluster ι) : Prop where
  rows : c.nonces.values.Nodup
  claimed : c.claimed.Nodup
  committed : ∀ nonce ∈ c.claimed, nonce ∈ c.nonces.committed
  claims : ∀ i, Claims c.nonces i (c.replicas i)

structure NonceMoves (i : ι) (c c' : Cluster ι) : Prop where
  nonces : Guarded.Steps i c.nonces c'.nonces
  others : ∀ j, i ≠ j → c'.replicas j = c.replicas j
  claimed : c'.claimed = c.claimed

theorem claims_empty : ({} : Cluster ι).ClaimsOnce := ⟨.nil, .nil, by simp, fun _ _ h => by cases h⟩

theorem ClaimsOnce.moves (h : c.ClaimsOnce) (hmoves : NonceMoves i c c')
    (hself : Claims c'.nonces i (c'.replicas i)) : c'.ClaimsOnce := by
  refine ⟨hmoves.nonces.nodup h.rows, ?_, ?_, ?_⟩
  · rw [hmoves.claimed]
    exact h.claimed
  · rw [hmoves.claimed]
    exact fun nonce hnonce => hmoves.nonces.committed nonce (h.committed nonce hnonce)
  · intro j
    by_cases hne : i = j
    · subst hne
      exact hself
    · rw [hmoves.others j hne]
      intro nonce hphase
      exact (h.claims j nonce hphase).imp_right
        (And.imp_right (hmoves.nonces.inserted j nonce hne))

namespace NonceMoves

theorem refl : NonceMoves i c c := ⟨Guarded.Steps.refl _, fun _ _ => rfl, rfl⟩

theorem setReplica (h : NonceMoves i c c') (replica : Replica) :
    NonceMoves i c (c'.setReplica i replica) :=
  ⟨h.nonces, fun j hne => (setReplica_other replica hne).trans (h.others j hne), h.claimed⟩

theorem goTo (h : NonceMoves i c c') (phase : Phase) : NonceMoves i c (c'.goTo i phase) :=
  h.setReplica _

theorem withFrames (t : Guarded ι FrameRow) : NonceMoves i c { c with frames := t } :=
  ⟨Guarded.Steps.refl _, fun _ _ => rfl, rfl⟩

theorem withNonces {t : Guarded ι Str} (h : Guarded.Steps i c.nonces t) :
    NonceMoves i c { c with nonces := t } := ⟨h, fun _ _ => rfl, rfl⟩

theorem discard : NonceMoves i c (c.discard i) := ⟨Guarded.Steps.rollback, fun _ _ => rfl, rfl⟩

theorem abort : NonceMoves i c (c.abort i) := discard.setReplica _

theorem drop : NonceMoves i c (c.drop i) := discard.setReplica _

theorem rollback : NonceMoves i c (c.rollback i) := by
  unfold Cluster.rollback
  cases (c.replicas i).connection with
  | usable => exact discard.setReplica _
  | aborted => exact discard.setReplica _
  | dropped => exact refl

theorem commit : NonceMoves i c (c.commit i) := by
  unfold Cluster.commit
  cases (c.replicas i).connection with
  | usable => exact ⟨Guarded.Steps.commit, fun _ _ => rfl, rfl⟩
  | aborted => exact discard.setReplica _
  | dropped => exact refl

theorem trans {c'' : Cluster ι} (h : NonceMoves i c c') (h' : NonceMoves i c' c'') :
    NonceMoves i c c'' :=
  ⟨⟨fun hrows => h'.nonces.nodup (h.nonces.nodup hrows),
    fun j nonce hne hrow => h'.nonces.inserted j nonce hne (h.nonces.inserted j nonce hne hrow),
    fun nonce hnonce => h'.nonces.committed nonce (h.nonces.committed nonce hnonce)⟩,
    fun j hne => (h'.others j hne).trans (h.others j hne), h'.claimed.trans h.claimed⟩

end NonceMoves

theorem claims_of_ne {t : Guarded ι Str} {replica : Replica}
    (h : ∀ nonce, replica.phase ≠ .claimCommit nonce) : Claims t i replica :=
  fun nonce hphase => absurd hphase (h nonce)

-- a replica that goes to another step than the COMMIT of a claim
theorem ClaimsOnce.goTo (h : c.ClaimsOnce) (hmoves : NonceMoves i c c') {phase : Phase}
    (hphase : ∀ nonce, phase ≠ .claimCommit nonce) : (c'.goTo i phase).ClaimsOnce := by
  refine h.moves (hmoves.goTo phase) ?_
  rw [goTo_self]
  exact claims_of_ne hphase

theorem raised_ne (phase : Phase) (nonce : Str) : phase.raised ≠ .claimCommit nonce := by
  cases phase <;> simp [Phase.raised]

theorem ClaimsOnce.select (h : c.ClaimsOnce) {log : ReplayLog} {phase : Phase}
    (hphase : ∀ nonce, phase ≠ .claimCommit nonce) :
    (c.setReplica i { c.replicas i with log := log, phase := phase }).ClaimsOnce := by
  refine h.moves (NonceMoves.refl.setReplica _) ?_
  rw [setReplica_self]
  exact claims_of_ne hphase

theorem ClaimsOnce.selectFrames (h : c.ClaimsOnce) {phase : Phase}
    (hphase : ∀ nonce, phase ≠ .claimCommit nonce) : (c.selectFrames P i phase).ClaimsOnce := by
  unfold Cluster.selectFrames
  split
  · exact h.goTo NonceMoves.refl (by simp)
  · exact h.select hphase

theorem sealFrame_ne (frameId : Str) (event : PyDict) (nonce : Str) :
    c.sealFrame P i frameId event ≠ .claimCommit nonce := by
  unfold sealFrame
  split <;> simp

theorem ClaimsOnce.insertFrame (h : c.ClaimsOnce) (frame : ReplayFrame) :
    (c.insertFrame P server i frame).ClaimsOnce := by
  unfold Cluster.insertFrame insertRow
  split
  · exact h.goTo NonceMoves.refl (by simp)
  · split
    · exact h.goTo NonceMoves.abort (by simp)
    · split
      · exact h.goTo NonceMoves.abort (by simp)
      · split
        · exact h
        · exact h.goTo (NonceMoves.withFrames _) (by simp)

theorem ClaimsOnce.insertNonce (h : c.ClaimsOnce) (nonce : Str)
    (husable : (c.replicas i).connection = .usable) : (c.insertNonce i nonce).ClaimsOnce := by
  unfold Cluster.insertNonce
  split
  · exact h.goTo NonceMoves.abort (by simp)
  · split
    · exact h
    · rename_i hfresh
      refine h.moves ((NonceMoves.withNonces (Guarded.Steps.insert hfresh)).goTo _) ?_
      rw [goTo_self]
      rintro _ ⟨⟩
      exact Or.inr ⟨husable, Guarded.inserted_insert⟩

theorem ClaimsOnce.execute (h : c.ClaimsOnce) (husable : (c.replicas i).connection = .usable) :
    (c.execute P server i (c.replicas i).phase).ClaimsOnce := by
  cases hphase : (c.replicas i).phase with
  | appendLock frameId event =>
      rw [Cluster.execute]
      split
      · exact h.goTo (NonceMoves.withFrames _) (by simp)
      · exact h
  | appendFrames frameId event => exact h.selectFrames (by simp)
  | appendNonces frameId event => exact h.select (sealFrame_ne frameId event)
  | appendInsert frame => exact h.insertFrame frame
  | claimLock nonce =>
      rw [Cluster.execute]
      split
      · exact h.goTo (NonceMoves.withNonces Guarded.Steps.acquire) (by simp)
      · exact h
  | claimInsert nonce => exact h.insertNonce nonce husable
  | readFrames => exact h.selectFrames (by simp)
  | readNonces => exact h.select (by simp)
  | _ => exact h

theorem ClaimsOnce.accept (h : c.ClaimsOnce) (call : PostgresCall) :
    (c.accept i call).ClaimsOnce := by
  unfold Cluster.accept
  split
  · exact h.goTo NonceMoves.refl (by simp)
  · split
    · exact h
    · exact h.goTo NonceMoves.refl (by simp)
  · exact h.goTo NonceMoves.refl (by simp)
  · exact h

-- a nonce that is claimed now was in an open transaction, and so was not claimed before
theorem ClaimsOnce.returnNonce (h : c.ClaimsOnce)
    (hphase : (c.replicas i).phase = .claimCommit nonce)
    (hconnection : (c.replicas i).connection ≠ .dropped) :
    ((c.commit i).returnNonce i nonce).ClaimsOnce := by
  obtain ⟨husable, hrow⟩ := (h.claims i nonce hphase).resolve_left hconnection
  have hfresh : nonce ∉ c.nonces.committed :=
    Guarded.not_mem_committed id (by rw [List.map_id]; exact h.rows) hrow
  have hmoves := NonceMoves.commit (c := c) (i := i)
  have hcommitted : nonce ∈ (c.commit i).nonces.committed := by
    rw [Cluster.commit, husable]
    exact Guarded.mem_committed_commit_of_inserted hrow
  refine ⟨hmoves.nonces.nodup h.rows, ?_, ?_, ?_⟩
  · show (nonce :: (c.commit i).claimed).Nodup
    rw [hmoves.claimed]
    exact List.nodup_cons.mpr ⟨fun hmem => hfresh (h.committed nonce hmem), h.claimed⟩
  · show ∀ nonce' ∈ nonce :: (c.commit i).claimed, nonce' ∈ (c.commit i).nonces.committed
    rw [hmoves.claimed]
    exact List.forall_mem_cons.mpr
      ⟨hcommitted, fun nonce' hmem => hmoves.nonces.committed nonce' (h.committed nonce' hmem)⟩
  · intro j
    by_cases hne : i = j
    · subst hne
      rw [Cluster.returnNonce, setReplica_self]
      exact claims_of_ne (by simp)
    · rw [Cluster.returnNonce, setReplica_other _ hne]
      intro nonce' hphase'
      rw [hmoves.others j hne] at hphase' ⊢
      exact (h.claims j nonce' hphase').imp_right
        (And.imp_right (hmoves.nonces.inserted j nonce' hne))

theorem ClaimsOnce.returnFrame (h : c.ClaimsOnce) (hmoves : NonceMoves i c c') (frame : ReplayFrame) :
    (c'.returnFrame i frame).ClaimsOnce := by
  have hreturns : NonceMoves i c (c'.returnFrame i frame) :=
    ⟨hmoves.nonces, fun j hne => (setReplica_other _ hne).trans (hmoves.others j hne),
      hmoves.claimed⟩
  refine h.moves hreturns ?_
  rw [Cluster.returnFrame, setReplica_self]
  exact claims_of_ne (by simp)

theorem ClaimsOnce.advance (h : c.ClaimsOnce) : (c.advance P server i).ClaimsOnce := by
  have hexecute : (if (c.replicas i).connection = .usable then
      c.execute P server i (c.replicas i).phase
      else c.goTo i (c.replicas i).phase.raised).ClaimsOnce := by
    split
    · rename_i husable
      exact h.execute husable
    · exact h.goTo NonceMoves.refl (raised_ne _)
  unfold Cluster.advance
  cases hphase : (c.replicas i).phase with
  | rollback => exact h.goTo NonceMoves.rollback (by simp)
  | appendCommit frame =>
      by_cases hdropped : (c.replicas i).connection = .dropped
      · simp only [if_pos hdropped]
        exact h.goTo NonceMoves.refl (by simp)
      · simp only [if_neg hdropped]
        exact h.returnFrame NonceMoves.commit frame
  | claimCommit nonce =>
      by_cases hdropped : (c.replicas i).connection = .dropped
      · simp only [if_pos hdropped]
        exact h.goTo NonceMoves.refl (by simp)
      · simp only [if_neg hdropped]
        exact h.returnNonce hphase hdropped
  | _ =>
      rw [hphase] at hexecute
      exact hexecute

theorem ClaimsOnce.step (h : c.ClaimsOnce) (move : ClusterMove ι) :
    (c.step P server move).ClaimsOnce := by
  cases move with
  | call i call => exact h.accept call
  | advance i => exact h.advance
  | fail i =>
      rw [Cluster.step]
      split
      · exact h
      · exact h.goTo NonceMoves.abort (raised_ne _)
      · exact h
  | drop i =>
      refine h.moves NonceMoves.drop ?_
      rw [Cluster.step, drop_self]
      exact fun _ _ => Or.inl rfl
  | commitAndDrop i =>
      rw [Cluster.step]
      split
      · exact h.goTo (NonceMoves.commit.trans NonceMoves.drop) (by simp)
      · exact h.goTo (NonceMoves.commit.trans NonceMoves.drop) (by simp)
      · exact h

theorem claimsOnce_run (moves : List (ClusterMove ι)) :
    (Calls.run (step P server) {} moves).ClaimsOnce :=
  Calls.always (fun _ move h => h.step move) moves claims_empty

theorem sound_run {moves : List (ClusterMove ι)} (h : ∀ move ∈ moves, Lossless P server move) :
    (Calls.run (step P server) {} moves).Sound P server := by
  have heach : Calls.Each (step P server) (fun _ => Lossless P server) {} moves := by
    rw [Calls.each_iff]
    rintro before move after rfl
    exact h move (by simp)
  exact Calls.stable (fun _ _ hmove hc => hc.step hmove) heach sound_empty

-- over every interleaving of the steps of any number of replicas
theorem replicas_keep_chain {moves : List (ClusterMove ι)}
    (h : ∀ move ∈ moves, Lossless P server move) :
    (Calls.run (step P server) {} moves).Intact P ∧
      (Calls.run (step P server) {} moves).claimed.Nodup :=
  ⟨(sound_run h).intact, (claimsOnce_run moves).claimed⟩

-- the second replica waits for the lock, and claims a nonce that the first one has
def twoAppends : List (ClusterMove Bool) :=
  [.call true (.append "f-1" []), .call false (.append "f-2" []), .advance true, .advance false,
    .advance true, .advance true, .advance true, .advance false, .advance true, .advance false,
    .advance false, .advance false, .advance false, .advance false,
    .call true (.claimNonce "n-1"), .call false (.claimNonce "n-1"), .advance true, .advance true,
    .advance true, .advance false, .advance false, .advance false]

theorem replicas_keep_chain_two :
    (Calls.run (step referencePrimitives ⟨some⟩) {} twoAppends).Intact referencePrimitives ∧
      (Calls.run (step referencePrimitives ⟨some⟩) {} twoAppends).claimed.Nodup := by
  refine replicas_keep_chain ?_
  simp [twoAppends, Lossless, ReplayLog.keeps_empty]

end Cluster

end GovernedAutonomy
