import GovernedAutonomy.Replicas

namespace GovernedAutonomy

open Python Protocol

namespace PostgresReplayLog

variable {P : Primitives} {frame : ReplayFrame} {row : FrameRow} {rows : List FrameRow}

theorem Row.frameId (h : Row P frame row) : row.frameId = frame.frameId :=
  congrArg (fun stamp => stamp.1) h.stamp

theorem Row.frameHash (h : Row P frame row) : row.frameHash = frame.frameHash :=
  congrArg (fun stamp => stamp.2.2) h.stamp

theorem tip_rows {frames : List ReplayFrame} (h : List.Forall₂ (Row P) frames rows) (head : Str) :
    HashChain.tip FrameRow.frameHash head rows =
      HashChain.tip ReplayFrame.frameHash head frames := by
  induction h generalizing head with
  | nil => rfl
  | cons hrow _ ih => rw [HashChain.tip_cons, HashChain.tip_cons, ih, hrow.frameHash]

-- the rows of a chain of frames
def Chained (P : Primitives) (rows : List FrameRow) : Prop :=
  ∃ frames, List.Forall₂ (Row P) frames rows ∧
    HashChain.Linked (ReplayFrame.Seals P) ReplayFrame.frameHash [] frames

def rowTip (rows : List FrameRow) : Str := HashChain.tip FrameRow.frameHash [] rows

theorem chained_nil : Chained P [] := ⟨[], .nil, trivial⟩

theorem Chained.snoc (h : Chained P rows) (hseals : ReplayFrame.Seals P (rowTip rows) frame)
    (hrow : Row P frame row) : Chained P (rows ++ [row]) := by
  obtain ⟨frames, hrows, hlinked⟩ := h
  rw [rowTip, tip_rows hrows] at hseals
  exact ⟨frames ++ [frame], List.rel_append hrows (.cons hrow .nil),
    (HashChain.linked_snoc _ _).mpr ⟨hlinked, hseals⟩⟩

theorem Chained.connects (h : Chained P rows) (nonces : List Str) :
    ∃ db, connect P ⟨rows, nonces⟩ = .ok db ∧ db.log.verifyChain P = .ok true := by
  obtain ⟨frames, hrows, hlinked⟩ := h
  have hsound : (⟨⟨frames, nonces⟩, ⟨rows, nonces⟩, .idle⟩ : PostgresReplayLog).Sound P :=
    ⟨hlinked, hrows, rfl⟩
  exact hsound.recovers

theorem Chained.reads (h : Chained P rows) :
    ∃ frames, SQLiteReplayLog.readRows P rows = .ok frames ∧ List.Forall₂ (Row P) frames rows := by
  obtain ⟨frames, hrows, -⟩ := h
  obtain ⟨frames', hread, -, hrows'⟩ := readRows_rows hrows
  exact ⟨frames', hread, hrows'⟩

end PostgresReplayLog

open PostgresReplayLog (Keeps Row Chained rowTip)

-- the table of frames between two steps
structure Ledger {ι : Type} [DecidableEq ι] (P : Primitives) (t : Guarded ι FrameRow) : Prop where
  guards : t.Guards
  ids : (t.values.map FrameRow.frameId).Nodup
  values : Chained P t.values
  committed : Chained P t.committed

-- a step of one connection, as the table and the other connections see it
structure Follows {ι : Type} [DecidableEq ι] (P : Primitives) (i : ι) (t t' : Guarded ι FrameRow) :
    Prop where
  ledger : Ledger P t'
  beside : ∀ j, i ≠ j → Guarded.Beside j t t'
  committed : ∀ row ∈ t.committed, row ∈ t'.committed

namespace Ledger

variable {ι : Type} [DecidableEq ι] {P : Primitives} {t : Guarded ι FrameRow} {i : ι}
  {row : FrameRow}

theorem empty : Ledger P ({} : Guarded ι FrameRow) :=
  ⟨Guarded.Guards.empty, .nil, PostgresReplayLog.chained_nil, PostgresReplayLog.chained_nil⟩

theorem follows (h : Ledger P t) (i : ι) : Follows P i t t :=
  ⟨h, fun _ _ => Guarded.Beside.refl t, fun _ hrow => hrow⟩

theorem acquire (h : Ledger P t) (hfree : t.IsFree i) : Follows P i t (t.acquire i) :=
  ⟨⟨h.guards.acquire hfree, h.ids, h.values, h.committed⟩,
    fun _ hne => Guarded.Beside.acquire hne hfree, fun _ hrow => hrow⟩

theorem insert (h : Ledger P t) (hi : t.holder = some i)
    (hfresh : row.frameId ∉ t.values.map FrameRow.frameId)
    (hchained : Chained P (t.values ++ [row])) : Follows P i t (t.insert i row) := by
  refine ⟨⟨h.guards.insert hi, ?_, ?_, ?_⟩, fun _ hne => Guarded.Beside.insert hne hi, ?_⟩
  · exact Guarded.nodup_insert _ h.ids hfresh
  · rwa [Guarded.values_insert]
  · rw [Guarded.committed_insert]
    exact h.committed
  · intro row' hrow'
    rwa [Guarded.committed_insert]

theorem commit (h : Ledger P t) (i : ι) : Follows P i t (t.commit i) := by
  refine ⟨⟨h.guards.commit, ?_, ?_, ?_⟩, fun _ hne => Guarded.Beside.commit hne, ?_⟩
  · rw [Guarded.values_commit]
    exact h.ids
  · rw [Guarded.values_commit]
    exact h.values
  · by_cases hi : t.holder = some i
    · rw [h.guards.committed_commit hi]
      exact h.values
    · rw [h.guards.commit_eq hi]
      exact h.committed
  · exact fun _ hrow => Guarded.mem_committed_commit hrow

theorem rollback (h : Ledger P t) (i : ι) : Follows P i t (t.rollback i) := by
  refine ⟨⟨h.guards.rollback, ?_, ?_, ?_⟩, fun _ hne => Guarded.Beside.rollback h.guards hne, ?_⟩
  · exact h.ids.sublist (Guarded.values_rollback_sublist.map _)
  · by_cases hi : t.holder = some i
    · rw [h.guards.values_rollback hi]
      exact h.committed
    · rw [h.guards.rollback_eq hi]
      exact h.values
  · rw [Guarded.committed_rollback]
    exact h.committed
  · intro row hrow
    rwa [Guarded.committed_rollback]

end Ledger

-- what the step that a replica is at relies on
def Ready {ι : Type} [DecidableEq ι] (P : Primitives) (server : PostgresServer)
    (t : Guarded ι FrameRow) (i : ι) (replica : Replica) : Prop :=
  match replica.phase with
  | .appendLock _ event => Keeps P server event
  | .appendFrames _ event =>
      Keeps P server event ∧ (replica.connection = .usable → t.holder = some i)
  | .appendNonces _ event =>
      Keeps P server event ∧ (replica.connection = .usable →
        t.holder = some i ∧ List.Forall₂ (Row P) replica.log.frames t.values)
  | .appendInsert frame =>
      Keeps P server frame.event ∧ (replica.connection = .usable →
        t.holder = some i ∧ ReplayFrame.Seals P (rowTip t.values) frame)
  | .appendCommit frame =>
      replica.connection = .dropped ∨ replica.connection = .usable ∧
        ∃ row, Row P frame row ∧ (row ∈ t.committed ∨ (⟨row, some i⟩ : Inserted ι FrameRow) ∈ t.rows)
  | _ => True

namespace Ready

variable {ι : Type} [DecidableEq ι] {P : Primitives} {server : PostgresServer}
  {t t' : Guarded ι FrameRow} {i j : ι} {replica : Replica}

theorem beside (h : Ready P server t j replica) (hfollows : Follows P i t t') (hne : i ≠ j) :
    Ready P server t' j replica := by
  have hbeside := hfollows.beside j hne
  unfold Ready at h ⊢
  cases hphase : replica.phase with
  | appendFrames frameId event =>
      rw [hphase] at h
      exact ⟨h.1, fun husable => (hbeside.holder (h.2 husable)).1⟩
  | appendNonces frameId event =>
      rw [hphase] at h
      refine ⟨h.1, ?_⟩
      intro husable
      obtain ⟨hholder, hvalues⟩ := hbeside.holder (h.2 husable).1
      exact ⟨hholder, hvalues ▸ (h.2 husable).2⟩
  | appendInsert frame =>
      rw [hphase] at h
      refine ⟨h.1, ?_⟩
      intro husable
      obtain ⟨hholder, hvalues⟩ := hbeside.holder (h.2 husable).1
      exact ⟨hholder, hvalues ▸ (h.2 husable).2⟩
  | appendCommit frame =>
      rw [hphase] at h
      refine h.imp_right (And.imp_right ?_)
      rintro ⟨row, hrow, hstored⟩
      exact ⟨row, hrow, hstored.imp (hfollows.committed row) (hbeside.inserted row)⟩
  | appendLock frameId event =>
      rw [hphase] at h
      exact h
  | _ => trivial

theorem of_raised (phase : Phase) : Ready P server t i { replica with phase := phase.raised } := by
  cases phase <;> trivial

-- when the transaction ends or fails under a replica, its next statement may have to fail too
theorem reconnect (h : Ready P server t i replica) {status : ConnectionStatus}
    (hlocked : replica.phase.isLocked = true → status ≠ .usable)
    (hinserted : replica.phase.isInserted = true → status = .dropped) :
    Ready P server t' i { replica with connection := status } := by
  unfold Ready at h ⊢
  cases hphase : replica.phase with
  | appendLock frameId event =>
      rw [hphase] at h
      exact h
  | appendFrames frameId event =>
      rw [hphase] at h hlocked
      exact ⟨h.1, fun husable => absurd husable (hlocked rfl)⟩
  | appendNonces frameId event =>
      rw [hphase] at h hlocked
      exact ⟨h.1, fun husable => absurd husable (hlocked rfl)⟩
  | appendInsert frame =>
      rw [hphase] at h hlocked
      exact ⟨h.1, fun husable => absurd husable (hlocked rfl)⟩
  | appendCommit frame =>
      rw [hphase] at hinserted
      exact Or.inl (hinserted rfl)
  | _ => trivial

end Ready

namespace Cluster

variable {ι : Type} [DecidableEq ι] {P : Primitives} {server : PostgresServer} {c c' : Cluster ι}
  {i : ι}

structure Sound (P : Primitives) (server : PostgresServer) (c : Cluster ι) : Prop where
  ledger : Ledger P c.frames
  ready : ∀ i, Ready P server c.frames i (c.replicas i)
  returned : ∀ frame ∈ c.returned, ∃ row ∈ c.frames.committed, Row P frame row

-- a step of one replica, as far as the others are concerned
structure Moves (P : Primitives) (i : ι) (c c' : Cluster ι) : Prop where
  frames : Follows P i c.frames c'.frames
  others : ∀ j, i ≠ j → c'.replicas j = c.replicas j
  returned : c'.returned = c.returned

theorem Sound.moves (h : c.Sound P server) (hmoves : Moves P i c c')
    (hself : Ready P server c'.frames i (c'.replicas i)) : c'.Sound P server := by
  refine ⟨hmoves.frames.ledger, ?_, ?_⟩
  · intro j
    by_cases hne : i = j
    · subst hne
      exact hself
    · rw [hmoves.others j hne]
      exact (h.ready j).beside hmoves.frames hne
  · rw [hmoves.returned]
    intro frame hframe
    obtain ⟨row, hrow, hstored⟩ := h.returned frame hframe
    exact ⟨row, hmoves.frames.committed row hrow, hstored⟩

@[simp]
theorem setReplica_self (replica : Replica) : (c.setReplica i replica).replicas i = replica :=
  Function.update_self _ _ _

theorem setReplica_other (replica : Replica) {j : ι} (hne : i ≠ j) :
    (c.setReplica i replica).replicas j = c.replicas j := Function.update_of_ne hne.symm _ _

@[simp]
theorem goTo_self (phase : Phase) :
    (c.goTo i phase).replicas i = { c.replicas i with phase := phase } := setReplica_self _

@[simp]
theorem abort_self : (c.abort i).replicas i = { c.replicas i with connection := .aborted } :=
  setReplica_self _

@[simp]
theorem drop_self : (c.drop i).replicas i = { c.replicas i with connection := .dropped } :=
  setReplica_self _

namespace Moves

theorem refl (h : Ledger P c.frames) : Moves P i c c := ⟨h.follows i, fun _ _ => rfl, rfl⟩

theorem setReplica (h : Moves P i c c') (replica : Replica) :
    Moves P i c (c'.setReplica i replica) :=
  ⟨h.frames, fun j hne => (setReplica_other replica hne).trans (h.others j hne), h.returned⟩

theorem goTo (h : Moves P i c c') (phase : Phase) : Moves P i c (c'.goTo i phase) := h.setReplica _

theorem withFrames {t : Guarded ι FrameRow} (h : Follows P i c.frames t) :
    Moves P i c { c with frames := t } := ⟨h, fun _ _ => rfl, rfl⟩

theorem withNonces (h : Ledger P c.frames) (t : Guarded ι Str) :
    Moves P i c { c with nonces := t } := ⟨h.follows i, fun _ _ => rfl, rfl⟩

theorem discard (h : Ledger P c.frames) : Moves P i c (c.discard i) :=
  ⟨h.rollback i, fun _ _ => rfl, rfl⟩

theorem abort (h : Ledger P c.frames) : Moves P i c (c.abort i) := (discard h).setReplica _

theorem drop (h : Ledger P c.frames) : Moves P i c (c.drop i) := (discard h).setReplica _

theorem rollback (h : Ledger P c.frames) : Moves P i c (c.rollback i) := by
  unfold Cluster.rollback
  cases (c.replicas i).connection with
  | usable => exact (discard h).setReplica _
  | aborted => exact (discard h).setReplica _
  | dropped => exact refl h

theorem commit (h : Ledger P c.frames) : Moves P i c (c.commit i) := by
  unfold Cluster.commit
  cases (c.replicas i).connection with
  | usable => exact ⟨h.commit i, fun _ _ => rfl, rfl⟩
  | aborted => exact (discard h).setReplica _
  | dropped => exact refl h

end Moves

-- where an exception leads to nothing is relied on
theorem Sound.raise (h : c.Sound P server) (hmoves : Moves P i c c') (phase : Phase) :
    (c'.goTo i phase.raised).Sound P server := by
  refine h.moves (hmoves.goTo _) ?_
  rw [goTo_self]
  exact Ready.of_raised phase

theorem sound_empty : ({} : Cluster ι).Sound P server := ⟨Ledger.empty, fun _ => trivial, by simp⟩

variable {frameId : Str} {event : PyDict} {frame : ReplayFrame}

theorem Sound.accept (h : c.Sound P server) {call : PostgresCall}
    (hkeeps : ∀ frameId event, call = .append frameId event → Keeps P server event) :
    (c.accept i call).Sound P server := by
  unfold Cluster.accept
  split
  · refine h.moves ((Moves.refl h.ledger).goTo _) ?_
    rw [goTo_self]
    exact hkeeps _ _ rfl
  · split
    · exact h
    · refine h.moves ((Moves.refl h.ledger).goTo _) ?_
      rw [goTo_self]
      trivial
  · refine h.moves ((Moves.refl h.ledger).goTo _) ?_
    rw [goTo_self]
    trivial
  · exact h

theorem Sound.appendLock (h : c.Sound P server)
    (hphase : (c.replicas i).phase = .appendLock frameId event) :
    (c.execute P server i (.appendLock frameId event)).Sound P server := by
  have hready := h.ready i
  unfold Ready at hready
  rw [hphase] at hready
  rw [execute]
  split
  · rename_i hfree
    refine h.moves ((Moves.withFrames (h.ledger.acquire hfree)).goTo _) ?_
    rw [goTo_self]
    exact ⟨hready, fun _ => rfl⟩
  · exact h

theorem Sound.appendFrames (h : c.Sound P server) (husable : (c.replicas i).connection = .usable)
    (hphase : (c.replicas i).phase = .appendFrames frameId event) :
    (c.execute P server i (.appendFrames frameId event)).Sound P server := by
  have hready := h.ready i
  unfold Ready at hready
  rw [hphase] at hready
  obtain ⟨hkeeps, hholder⟩ := hready
  obtain ⟨frames, hread, hrows⟩ := h.ledger.values.reads
  rw [execute, selectFrames, h.ledger.guards.seen_eq (hholder husable), hread]
  refine h.moves ((Moves.refl h.ledger).setReplica _) ?_
  rw [setReplica_self]
  exact ⟨hkeeps, fun _ => ⟨hholder husable, hrows⟩⟩

theorem Sound.appendNonces (h : c.Sound P server) (husable : (c.replicas i).connection = .usable)
    (hphase : (c.replicas i).phase = .appendNonces frameId event) :
    (c.execute P server i (.appendNonces frameId event)).Sound P server := by
  have hready := h.ready i
  unfold Ready at hready
  rw [hphase] at hready
  obtain ⟨hkeeps, hlog⟩ := hready
  obtain ⟨hholder, hrows⟩ := hlog husable
  rw [execute, selectNonces]
  refine h.moves ((Moves.refl h.ledger).setReplica _) ?_
  rw [setReplica_self, sealFrame]
  cases hcreate : ReplayFrame.create P frameId (c.replicas i).log.headHash event with
  | error e => trivial
  | ok frame =>
      have hseals := ReplayFrame.seals_of_create P hcreate
      obtain ⟨-, -, hevent, -⟩ := (ReplayFrame.create_eq_ok P).mp hcreate
      refine ⟨hevent ▸ hkeeps, fun _ => ⟨hholder, ?_⟩⟩
      show ReplayFrame.Seals P (rowTip c.frames.values) frame
      rw [rowTip, PostgresReplayLog.tip_rows hrows]
      exact hseals

theorem Sound.appendInsert (h : c.Sound P server) (husable : (c.replicas i).connection = .usable)
    (hphase : (c.replicas i).phase = .appendInsert frame) :
    (c.execute P server i (.appendInsert frame)).Sound P server := by
  have hready := h.ready i
  unfold Ready at hready
  rw [hphase] at hready
  obtain ⟨hkeeps, hlog⟩ := hready
  obtain ⟨hholder, hseals⟩ := hlog husable
  rw [execute, insertFrame]
  cases htext : P.dumps SQLiteReplayLog.rowStyle (.dict frame.event) with
  | error e => exact h.raise (Moves.refl h.ledger) (.appendInsert frame)
  | ok text =>
      cases hstored : server.jsonbText text with
      | none =>
          simp only [hstored]
          exact h.raise (Moves.abort h.ledger) (.appendInsert frame)
      | some stored =>
          simp only [hstored, insertRow]
          split
          · exact h.raise (Moves.abort h.ledger) (.appendInsert frame)
          · split
            · exact h
            · rename_i hfresh
              have hrow : Row P frame
                  ⟨frame.frameId, frame.previousHash, stored, frame.frameHash⟩ :=
                ⟨rfl, hkeeps text stored htext hstored⟩
              have hchained := h.ledger.values.snoc hseals hrow
              refine h.moves ((Moves.withFrames (h.ledger.insert hholder hfresh hchained)).goTo _) ?_
              rw [goTo_self]
              exact Or.inr ⟨husable, _, hrow, Or.inr Guarded.inserted_insert⟩

-- a call that reads, or that claims a nonce, leaves the frames alone
theorem Sound.execute (h : c.Sound P server) (husable : (c.replicas i).connection = .usable) :
    (c.execute P server i (c.replicas i).phase).Sound P server := by
  cases hphase : (c.replicas i).phase with
  | appendLock frameId event => exact h.appendLock hphase
  | appendFrames frameId event => exact h.appendFrames husable hphase
  | appendNonces frameId event => exact h.appendNonces husable hphase
  | appendInsert frame => exact h.appendInsert husable hphase
  | claimLock nonce =>
      rw [Cluster.execute]
      split
      · refine h.moves ((Moves.withNonces h.ledger _).goTo _) ?_
        rw [goTo_self]
        trivial
      · exact h
  | claimInsert nonce =>
      rw [Cluster.execute, insertNonce]
      split
      · exact h.raise (Moves.abort h.ledger) (.claimInsert nonce)
      · split
        · exact h
        · refine h.moves ((Moves.withNonces h.ledger _).goTo _) ?_
          rw [goTo_self]
          trivial
  | readFrames =>
      rw [Cluster.execute, selectFrames]
      split
      · exact h.raise (Moves.refl h.ledger) .idle
      · refine h.moves ((Moves.refl h.ledger).setReplica _) ?_
        rw [setReplica_self]
        trivial
  | readNonces =>
      rw [Cluster.execute, selectNonces]
      refine h.moves ((Moves.refl h.ledger).setReplica _) ?_
      rw [setReplica_self]
      trivial
  | _ => exact h

-- the transaction of a replica ends, by itself or by somebody else
theorem Sound.rollback (h : c.Sound P server)
    (hphase : (c.replicas i).connection = .dropped ∨
      (c.replicas i).phase.isLocked = false ∧ (c.replicas i).phase.isInserted = false) :
    (c.rollback i).Sound P server := by
  have hreconnect : (c.replicas i).connection ≠ .dropped →
      Ready P server (c.frames.rollback i) i { c.replicas i with connection := .usable } := by
    intro hconnection
    obtain ⟨hlocked, hinserted⟩ := hphase.resolve_left hconnection
    exact (h.ready i).reconnect (by simp [hlocked]) (by simp [hinserted])
  refine h.moves (Moves.rollback h.ledger) ?_
  unfold Cluster.rollback
  cases hconnection : (c.replicas i).connection with
  | usable =>
      simp only [setConnection, setReplica_self]
      exact hreconnect (by simp [hconnection])
  | aborted =>
      simp only [setConnection, setReplica_self]
      exact hreconnect (by simp [hconnection])
  | dropped => exact h.ready i

theorem Sound.commit (h : c.Sound P server)
    (hphase : (c.replicas i).connection = .dropped ∨ (c.replicas i).phase.isLocked = false) :
    (c.commit i).Sound P server := by
  refine h.moves (Moves.commit h.ledger) ?_
  have hready := h.ready i
  unfold Cluster.commit
  cases hconnection : (c.replicas i).connection with
  | dropped => exact hready
  | aborted =>
      rw [hconnection] at hphase
      have hlocked := hphase.resolve_left nofun
      simp only [setConnection, setReplica_self]
      refine hready.reconnect (by simp [hlocked]) ?_
      intro hinserted
      unfold Ready at hready
      cases hcases : (c.replicas i).phase with
      | appendCommit frame => simp [hcases, hconnection] at hready
      | _ => simp [hcases, Phase.isInserted] at hinserted
  | usable =>
      rw [hconnection] at hphase
      have hlocked := hphase.resolve_left nofun
      show Ready P server (c.frames.commit i) i (c.replicas i)
      unfold Ready at hready ⊢
      cases hcases : (c.replicas i).phase with
      | appendFrames frameId event => simp [hcases, Phase.isLocked] at hlocked
      | appendNonces frameId event => simp [hcases, Phase.isLocked] at hlocked
      | appendInsert frame => simp [hcases, Phase.isLocked] at hlocked
      | appendCommit frame =>
          simp only [hcases] at hready
          refine hready.imp_right (And.imp_right ?_)
          rintro ⟨row, hrow, hstored⟩
          refine ⟨row, hrow, Or.inl ?_⟩
          rcases hstored with hcommitted | hinserted
          · exact Guarded.mem_committed_commit hcommitted
          · exact Guarded.mem_committed_commit_of_inserted hinserted
      | appendLock frameId event =>
          simp only [hcases] at hready
          exact hready
      | _ => trivial

theorem Sound.drop (h : c.Sound P server) : (c.drop i).Sound P server := by
  refine h.moves (Moves.drop h.ledger) ?_
  rw [drop_self]
  exact (h.ready i).reconnect (fun _ => nofun) fun _ => rfl

theorem Sound.returnFrame (h : c.Sound P server)
    (hrow : ∃ row ∈ c.frames.committed, Row P frame row) :
    (c.returnFrame i frame).Sound P server := by
  have hreturned : ({ c with returned := frame :: c.returned } : Cluster ι).Sound P server :=
    ⟨h.ledger, h.ready, List.forall_mem_cons.mpr ⟨hrow, h.returned⟩⟩
  refine hreturned.moves ((Moves.refl hreturned.ledger).setReplica _) ?_
  rw [Cluster.returnFrame, setReplica_self]
  trivial

theorem Sound.returnNonce (h : c.Sound P server) (nonce : Str) :
    (c.returnNonce i nonce).Sound P server := by
  have hclaimed : ({ c with claimed := nonce :: c.claimed } : Cluster ι).Sound P server :=
    ⟨h.ledger, h.ready, h.returned⟩
  refine hclaimed.moves ((Moves.refl hclaimed.ledger).setReplica _) ?_
  rw [Cluster.returnNonce, setReplica_self]
  trivial

-- what an append returns is committed, by the COMMIT if not before it
theorem Sound.appendCommit (h : c.Sound P server)
    (hphase : (c.replicas i).phase = .appendCommit frame)
    (hconnection : (c.replicas i).connection ≠ .dropped) :
    ((c.commit i).returnFrame i frame).Sound P server := by
  have hready := h.ready i
  unfold Ready at hready
  rw [hphase] at hready
  obtain ⟨husable, row, hrow, hstored⟩ := hready.resolve_left hconnection
  refine (h.commit (Or.inr (by rw [hphase]; rfl))).returnFrame ⟨row, ?_, hrow⟩
  rw [Cluster.commit, husable]
  rcases hstored with hcommitted | hinserted
  · exact Guarded.mem_committed_commit hcommitted
  · exact Guarded.mem_committed_commit_of_inserted hinserted

theorem Sound.advance (h : c.Sound P server) : (c.advance P server i).Sound P server := by
  have hexecute : (if (c.replicas i).connection = .usable then
      c.execute P server i (c.replicas i).phase
      else c.goTo i (c.replicas i).phase.raised).Sound P server := by
    split
    · rename_i husable
      exact h.execute husable
    · exact h.raise (Moves.refl h.ledger) _
  unfold Cluster.advance
  cases hphase : (c.replicas i).phase with
  | rollback => exact h.raise (Moves.rollback h.ledger) .idle
  | appendCommit frame =>
      by_cases hdropped : (c.replicas i).connection = .dropped
      · simp only [if_pos hdropped]
        exact h.raise (Moves.refl h.ledger) (.appendCommit frame)
      · simp only [if_neg hdropped]
        exact h.appendCommit hphase hdropped
  | claimCommit nonce =>
      by_cases hdropped : (c.replicas i).connection = .dropped
      · simp only [if_pos hdropped]
        exact h.raise (Moves.refl h.ledger) (.claimCommit nonce)
      · simp only [if_neg hdropped]
        exact (h.commit (Or.inr (by rw [hphase]; rfl))).returnNonce nonce
  | _ =>
      rw [hphase] at hexecute
      exact hexecute

-- the events that the jsonb column gives back as they are
def Lossless (P : Primitives) (server : PostgresServer) : ClusterMove ι → Prop
  | .call _ (.append _ event) => Keeps P server event
  | _ => True

theorem Sound.step (h : c.Sound P server) {move : ClusterMove ι}
    (hmove : Lossless P server move) : (c.step P server move).Sound P server := by
  cases move with
  | call i call =>
      refine h.accept ?_
      rintro frameId event rfl
      exact hmove
  | advance i => exact h.advance
  | fail i =>
      rw [Cluster.step]
      split
      · exact h
      · exact h.raise (Moves.abort h.ledger) _
      · exact h
  | drop i => exact h.drop
  | commitAndDrop i =>
      rw [Cluster.step]
      split
      · rename_i frame hphase _
        have hcommit := h.commit (i := i) (Or.inr (by rw [hphase]; rfl))
        exact hcommit.raise (Moves.drop hcommit.ledger) (.appendCommit frame)
      · rename_i nonce hphase _
        have hcommit := h.commit (i := i) (Or.inr (by rw [hphase]; rfl))
        exact hcommit.raise (Moves.drop hcommit.ledger) (.claimCommit nonce)
      · exact h

def Unbroken (P : Primitives) (c : Cluster ι) : Prop :=
  ∃ db, PostgresReplayLog.connect P c.tables = .ok db ∧ db.log.verifyChain P = .ok true

-- the frame is in the table, and no other row has its id
def StoredOnce (P : Primitives) (c : Cluster ι) (frame : ReplayFrame) : Prop :=
  ∃ row, Row P frame row ∧
    c.tables.replayFrames.filter (fun row => row.frameId = frame.frameId) = [row]

structure Intact (P : Primitives) (c : Cluster ι) : Prop where
  unbroken : c.Unbroken P
  stored : ∀ frame ∈ c.returned, c.StoredOnce P frame

theorem filter_eq_singleton {A B : Type} [DecidableEq B] {key : A → B} {l : List A} {a : A}
    (hnodup : (l.map key).Nodup) (h : a ∈ l) : l.filter (fun b => key b = key a) = [a] := by
  induction l with
  | nil => cases h
  | cons b l ih =>
      rw [List.map_cons, List.nodup_cons] at hnodup
      obtain ⟨hb, hl⟩ := hnodup
      rcases List.mem_cons.mp h with rfl | ha
      · rw [List.filter_cons_of_pos (by simp), List.filter_eq_nil_iff.mpr]
        intro b hmem hkey
        exact hb (of_decide_eq_true hkey ▸ List.mem_map_of_mem hmem)
      · rw [List.filter_cons_of_neg, ih hl ha]
        intro hkey
        exact hb (of_decide_eq_true hkey ▸ List.mem_map_of_mem ha)

theorem Sound.intact (h : c.Sound P server) : c.Intact P := by
  refine ⟨h.ledger.committed.connects _, ?_⟩
  intro frame hframe
  obtain ⟨row, hrow, hstored⟩ := h.returned frame hframe
  have hids := h.ledger.ids.sublist (Guarded.committed_sublist.map _)
  refine ⟨row, hstored, ?_⟩
  rw [← hstored.frameId]
  exact filter_eq_singleton hids hrow

end Cluster

end GovernedAutonomy
