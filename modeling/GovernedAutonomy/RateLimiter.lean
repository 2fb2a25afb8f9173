import GovernedAutonomy.Protocol.Calls
import GovernedAutonomy.Python.Text
import Mathlib.Data.Finset.Card
import Mathlib.Data.Int.Order.Basic

namespace GovernedAutonomy

open Python Protocol

set_option linter.unusedSectionVars false

structure PostgresRateLimiter where
  limit : ℤ
  windowSeconds : ℤ
  namespaceText : Str
  limit_pos : 0 < limit
  windowSeconds_pos : 0 < windowSeconds
  namespaceText_ne : namespaceText ≠ []

namespace PostgresRateLimiter

variable (limiter : PostgresRateLimiter)

-- timestamps are whole microseconds
def window : ℤ := 1000000 * limiter.windowSeconds

def lockText (client : Str) : Str := limiter.namespaceText ++ lit ":" ++ client

end PostgresRateLimiter

-- one call of allow, and the connection its limiter was given
structure AllowCall (κ : Type) where
  limiter : PostgresRateLimiter
  connection : κ
  client : Str

-- a row of gas_rate_limit_hits; the ticket is the call that inserted it
structure RateHit (ι : Type) where
  ticket : ι
  namespaceText : Str
  clientKey : Str
  observedAt : ℤ
deriving DecidableEq

-- a transaction that is open on a connection
structure RateTransaction (ι : Type) where
  stamp : ℤ
  locks : Finset ℤ
  doomed : Finset (RateHit ι)
  added : Finset (RateHit ι)

inductive AllowPhase where
  | idle
  | waiting
  | locked
  | purged
  | counted (allowed : Bool)
  | inserted (observedAt : ℤ)
  | answered (allowed : Bool) (observedAt : ℤ)
deriving DecidableEq

namespace AllowPhase

def InFlight : AllowPhase → Prop
  | .idle => False
  | .answered _ _ => False
  | _ => True

-- the call has its lock
def Holds : AllowPhase → Prop
  | .idle => False
  | .waiting => False
  | .answered _ _ => False
  | _ => True

-- the call has still to count
def Undecided : AllowPhase → Prop
  | .idle => True
  | .waiting => True
  | .locked => True
  | .purged => True
  | _ => False

-- nothing is left to do but to commit
def Closes : AllowPhase → Prop
  | .counted allowed => allowed = false
  | .inserted _ => True
  | _ => False

instance : DecidablePred InFlight
  | .idle => .isFalse id
  | .waiting => .isTrue trivial
  | .locked => .isTrue trivial
  | .purged => .isTrue trivial
  | .counted _ => .isTrue trivial
  | .inserted _ => .isTrue trivial
  | .answered _ _ => .isFalse id

instance : DecidablePred Undecided
  | .idle => .isTrue trivial
  | .waiting => .isTrue trivial
  | .locked => .isTrue trivial
  | .purged => .isTrue trivial
  | .counted _ => .isFalse id
  | .inserted _ => .isFalse id
  | .answered _ _ => .isFalse id

instance : DecidablePred Closes
  | .idle => .isFalse id
  | .waiting => .isFalse id
  | .locked => .isFalse id
  | .purged => .isFalse id
  | .counted allowed => inferInstanceAs (Decidable (allowed = false))
  | .inserted _ => .isTrue trivial
  | .answered _ _ => .isFalse id

theorem Holds.inFlight {phase : AllowPhase} (h : phase.Holds) : phase.InFlight := by
  cases phase <;> first | exact h.elim | trivial

theorem Closes.holds {phase : AllowPhase} (h : phase.Closes) : phase.Holds := by
  cases phase <;> first | exact h.elim | trivial

end AllowPhase

-- statements that the server has answered, or how a call ended
inductive AllowMove (ι : Type) where
  | tick (microseconds : ℕ)
  | start (call : ι)
  | lock (call : ι)
  | purge (call : ι)
  | count (call : ι)
  | insert (call : ι)
  | commit (call : ι) (acknowledged : Bool)
  | fail (call : ι)

namespace AllowMove

variable {ι : Type}

def call : AllowMove ι → Option ι
  | .tick _ => none
  | .start i => some i
  | .lock i => some i
  | .purge i => some i
  | .count i => some i
  | .insert i => some i
  | .commit i _ => some i
  | .fail i => some i

end AllowMove

structure RateWorld (ι κ : Type) where
  clock : ℤ := 0
  rows : Finset (RateHit ι) := ∅
  session : κ → Option (RateTransaction ι) := fun _ => none
  phase : ι → AllowPhase := fun _ => .idle

namespace RateWorld

variable {ι κ : Type} [DecidableEq ι] [DecidableEq κ]

section Steps

-- hashtext, and what is called
variable (hash : Str → ℤ) (calls : ι → AllowCall κ) (w : RateWorld ι κ)

def lockOf (i : ι) : ℤ := hash ((calls i).limiter.lockText (calls i).client)

-- the first statement on a connection begins a transaction
def opened (i : ι) : RateTransaction ι :=
  (w.session (calls i).connection).getD ⟨w.clock, ∅, ∅, ∅⟩

def cutoff (i : ι) : ℤ := (w.opened calls i).stamp - (calls i).limiter.window

def proceed (i : ι) (transaction : Option (RateTransaction ι)) (phase : AllowPhase) :
    RateWorld ι κ :=
  { w with
    session := Function.update w.session (calls i).connection transaction
    phase := Function.update w.phase i phase }

def hit (i : ι) (observedAt : ℤ) : RateHit ι :=
  ⟨i, (calls i).limiter.namespaceText, (calls i).client, observedAt⟩

def Matches (i : ι) (row : RateHit ι) : Prop :=
  row.namespaceText = (calls i).limiter.namespaceText ∧ row.clientKey = (calls i).client

instance (i : ι) : DecidablePred (Matches calls i) := fun _ => inferInstanceAs (Decidable (_ ∧ _))

def expired (i : ι) : Finset (RateHit ι) :=
  w.rows.filter (fun row => row.observedAt < w.cutoff calls i)

def visible (i : ι) : Finset (RateHit ι) :=
  (w.rows \ (w.opened calls i).doomed) ∪ (w.opened calls i).added

def allowed (i : ι) : Bool :=
  decide (((w.visible calls i).filter (Matches calls i)).card < (calls i).limiter.limit)

def start (i : ι) : RateWorld ι κ :=
  if (calls i).client = [] then
    { w with phase := Function.update w.phase i (.answered false w.clock) }
  else w.proceed calls i (some (w.opened calls i)) .waiting

def lock (i : ι) : RateWorld ι κ :=
  w.proceed calls i
    (some { w.opened calls i with
      locks := insert (lockOf hash calls i) (w.opened calls i).locks })
    .locked

-- the rows a DELETE has taken stay visible to the others until it commits
def purge (i : ι) : RateWorld ι κ :=
  w.proceed calls i
    (some { w.opened calls i with doomed := (w.opened calls i).doomed ∪ w.expired calls i })
    .purged

def count (i : ι) : RateWorld ι κ :=
  w.proceed calls i (some (w.opened calls i)) (.counted (w.allowed calls i))

def insertHit (i : ι) : RateWorld ι κ :=
  w.proceed calls i
    (some { w.opened calls i with
      added := insert (hit calls i (w.opened calls i).stamp) (w.opened calls i).added })
    (.inserted (w.opened calls i).stamp)

-- a commit whose acknowledgement is lost is answered like one that failed
def settled (phase : AllowPhase) (acknowledged : Bool) (clock : ℤ) : AllowPhase :=
  match phase with
  | .inserted observedAt => .answered acknowledged observedAt
  | _ => .answered false clock

def commit (i : ι) (acknowledged : Bool) : RateWorld ι κ :=
  { w.proceed calls i none (settled (w.phase i) acknowledged w.clock) with
    rows := w.visible calls i }

def fail (i : ι) : RateWorld ι κ := w.proceed calls i none (.answered false w.clock)

def step (w : RateWorld ι κ) : AllowMove ι → RateWorld ι κ
  | .tick microseconds => { w with clock := w.clock + microseconds }
  | .start i => w.start calls i
  | .lock i => w.lock hash calls i
  | .purge i => w.purge calls i
  | .count i => w.count calls i
  | .insert i => w.insertHit calls i
  | .commit i acknowledged => w.commit calls i acknowledged
  | .fail i => w.fail calls i

-- which moves the server and the code of the call let happen
def Enabled (w : RateWorld ι κ) : AllowMove ι → Prop
  | .tick _ => True
  | .start i => w.phase i = .idle
  | .lock i => w.phase i = .waiting ∧ ∀ k ≠ (calls i).connection,
      ∀ transaction ∈ w.session k, lockOf hash calls i ∉ transaction.locks
  | .purge i => w.phase i = .locked
  | .count i => w.phase i = .purged
  | .insert i => w.phase i = .counted true
  | .commit i _ => (w.phase i).Closes
  | .fail i => (w.phase i).InFlight

-- a connection serves one call at a time
def TakesTurns (w : RateWorld ι κ) : AllowMove ι → Prop
  | .start i => ∀ j, (calls j).connection = (calls i).connection → ¬ (w.phase j).InFlight
  | _ => True

-- where the window of a call ends: a call that has not begun will not begin before now
def horizon (i : ι) : ℤ :=
  match w.phase i with
  | .idle => w.clock - (calls i).limiter.window
  | _ => w.cutoff calls i

-- no call that has still to count counts the row
def Spent (row : RateHit ι) : Prop :=
  ∀ i, Matches calls i row → (w.phase i).Undecided → row.observedAt < w.horizon calls i

-- a DELETE takes rows that have left the windows of all calls they count for
def SparesWindows (w : RateWorld ι κ) : AllowMove ι → Prop
  | .purge i => ∀ row ∈ w.expired calls i, w.Spent calls row
  | _ => True

end Steps

variable {hash : Str → ℤ} {calls : ι → AllowCall κ} {w : RateWorld ι κ} {i j : ι}

section Proceed

variable {transaction : Option (RateTransaction ι)} {t : RateTransaction ι} {phase : AllowPhase}

@[simp]
theorem proceed_phase_self : (w.proceed calls i transaction phase).phase i = phase :=
  Function.update_self ..

theorem proceed_phase_of_ne (h : j ≠ i) :
    (w.proceed calls i transaction phase).phase j = w.phase j := Function.update_of_ne h ..

@[simp]
theorem proceed_session_self :
    (w.proceed calls i transaction phase).session (calls i).connection = transaction :=
  Function.update_self ..

theorem proceed_session_of_ne {k : κ} (h : k ≠ (calls i).connection) :
    (w.proceed calls i transaction phase).session k = w.session k := Function.update_of_ne h ..

@[simp]
theorem proceed_rows : (w.proceed calls i transaction phase).rows = w.rows := rfl

@[simp]
theorem proceed_clock : (w.proceed calls i transaction phase).clock = w.clock := rfl

theorem opened_of_session (h : w.session (calls i).connection = some t) :
    w.opened calls i = t := by
  rw [opened, h, Option.getD_some]

theorem opened_of_none (h : w.session (calls i).connection = none) :
    w.opened calls i = ⟨w.clock, ∅, ∅, ∅⟩ := by
  rw [opened, h, Option.getD_none]

end Proceed

-- what an unfinished call can rely on in the transaction of its connection
structure Local (hash : Str → ℤ) (calls : ι → AllowCall κ) (rows : Finset (RateHit ι)) (i : ι)
    (phase : AllowPhase) (t : RateTransaction ι) : Prop where
  locked : phase.Holds → lockOf hash calls i ∈ t.locks
  swept : phase = .purged → ∀ row ∈ rows, Matches calls i row →
    row.observedAt < t.stamp - (calls i).limiter.window → row ∈ t.doomed
  unwritten : (∀ observedAt, phase ≠ .inserted observedAt) → t.added = ∅
  written : ∀ observedAt, phase = .inserted observedAt →
    t.added = {hit calls i observedAt} ∧ t.stamp = observedAt

structure Orderly (hash : Str → ℤ) (calls : ι → AllowCall κ) (w : RateWorld ι κ) : Prop where
  underway : ∀ i, (w.phase i).InFlight → ∃ t, w.session (calls i).connection = some t ∧
    Local hash calls w.rows i (w.phase i) t
  served : ∀ k t, w.session k = some t → ∃ i, (calls i).connection = k ∧ (w.phase i).InFlight
  alone : ∀ i j, (w.phase i).InFlight → (w.phase j).InFlight →
    (calls i).connection = (calls j).connection → i = j
  exclusive : ∀ i j, (w.phase i).Holds → (w.phase j).Holds →
    lockOf hash calls i = lockOf hash calls j → i = j

theorem orderly_init : Orderly hash calls ({} : RateWorld ι κ) where
  underway _ h := False.elim h
  served _ _ h := absurd h (by simp)
  alone _ _ h := False.elim h
  exclusive _ _ h := False.elim h

theorem lockOf_of_matches {row : RateHit ι} (hi : Matches calls i row)
    (hj : Matches calls j row) : lockOf hash calls i = lockOf hash calls j := by
  rw [lockOf, lockOf, PostgresRateLimiter.lockText, PostgresRateLimiter.lockText, ← hi.1, ← hi.2,
    hj.1, hj.2]

theorem settled_answered (phase : AllowPhase) (acknowledged : Bool) (clock : ℤ) :
    ∃ allowed observedAt, settled phase acknowledged clock = .answered allowed observedAt := by
  cases phase <;> exact ⟨_, _, rfl⟩

theorem ne_of_inFlight {allowed : Bool} {observedAt : ℤ}
    (h : (Function.update w.phase i (.answered allowed observedAt) j).InFlight) :
    j ≠ i ∧ (w.phase j).InFlight := by
  by_cases hne : j = i
  · subst hne
    rw [Function.update_self] at h
    exact h.elim
  · rw [Function.update_of_ne hne] at h
    exact ⟨hne, h⟩

theorem ne_of_holds {allowed : Bool} {observedAt : ℤ}
    (h : (Function.update w.phase i (.answered allowed observedAt) j).Holds) :
    j ≠ i ∧ (w.phase j).Holds := by
  obtain ⟨hne, -⟩ := ne_of_inFlight h.inFlight
  rw [Function.update_of_ne hne] at h
  exact ⟨hne, h⟩

namespace Orderly

-- the connection of a call that is under way, or about to begin, is no other call's
theorem apart (h : Orderly hash calls w)
    (hturn : (w.phase i).InFlight ∨
      ∀ j, (calls j).connection = (calls i).connection → ¬ (w.phase j).InFlight)
    (hj : (w.phase j).InFlight) (hne : j ≠ i) : (calls j).connection ≠ (calls i).connection := by
  intro hconnection
  rcases hturn with hi | hidle
  · exact hne (h.alone j i hj hi hconnection)
  · exact hidle j hconnection hj

theorem proceed {t : RateTransaction ι} {phase : AllowPhase} (h : Orderly hash calls w)
    (hturn : (w.phase i).InFlight ∨
      ∀ j, (calls j).connection = (calls i).connection → ¬ (w.phase j).InFlight)
    (hphase : phase.InFlight) (hlocal : Local hash calls w.rows i phase t)
    (hlock : phase.Holds → ∀ j ≠ i, (w.phase j).Holds → lockOf hash calls j ≠ lockOf hash calls i) :
    Orderly hash calls (w.proceed calls i (some t) phase) := by
  constructor
  · intro j hj
    by_cases hne : j = i
    · subst hne
      rw [proceed_phase_self]
      exact ⟨t, proceed_session_self, hlocal⟩
    · rw [proceed_phase_of_ne hne] at hj ⊢
      rw [proceed_session_of_ne (h.apart hturn hj hne)]
      exact h.underway j hj
  · intro k t' hk
    by_cases hconnection : k = (calls i).connection
    · exact ⟨i, hconnection.symm, by rwa [proceed_phase_self]⟩
    · rw [proceed_session_of_ne hconnection] at hk
      obtain ⟨j, hj, hflight⟩ := h.served k t' hk
      refine ⟨j, hj, ?_⟩
      rwa [proceed_phase_of_ne (by rintro rfl; exact hconnection hj.symm)]
  · intro j j' hj hj' hconnection
    by_cases hne : j = i
    · by_cases hne' : j' = i
      · rw [hne, hne']
      · rw [proceed_phase_of_ne hne'] at hj'
        exact absurd (hne ▸ hconnection.symm) (h.apart hturn hj' hne')
    · rw [proceed_phase_of_ne hne] at hj
      by_cases hne' : j' = i
      · exact absurd (hne' ▸ hconnection) (h.apart hturn hj hne)
      · rw [proceed_phase_of_ne hne'] at hj'
        exact h.alone j j' hj hj' hconnection
  · intro j j' hj hj' heq
    by_cases hne : j = i
    · by_cases hne' : j' = i
      · rw [hne, hne']
      · rw [hne, proceed_phase_self] at hj
        rw [proceed_phase_of_ne hne'] at hj'
        exact absurd (hne ▸ heq.symm) (hlock hj j' hne' hj')
    · rw [proceed_phase_of_ne hne] at hj
      by_cases hne' : j' = i
      · rw [hne', proceed_phase_self] at hj'
        exact absurd (hne' ▸ heq) (hlock hj' j hne hj)
      · rw [proceed_phase_of_ne hne'] at hj'
        exact h.exclusive j j' hj hj' heq

-- a call that ends: its transaction is over, and the others see the rows it leaves
theorem finish {allowed : Bool} {observedAt : ℤ} {rows : Finset (RateHit ι)}
    (h : Orderly hash calls w) (hi : (w.phase i).InFlight)
    (hrows : ∀ j ≠ i, w.phase j = .purged → ∀ row ∈ rows, Matches calls j row → row ∈ w.rows) :
    Orderly hash calls
      { w.proceed calls i none (.answered allowed observedAt) with rows := rows } := by
  constructor
  · intro j hj
    obtain ⟨hne, hj⟩ := ne_of_inFlight hj
    obtain ⟨t, ht, hlocal⟩ := h.underway j hj
    refine ⟨t, (Function.update_of_ne (h.apart (Or.inl hi) hj hne) ..).trans ht, ?_⟩
    change Local hash calls rows j (Function.update w.phase i _ j) t
    rw [Function.update_of_ne hne]
    refine ⟨hlocal.locked, ?_, hlocal.unwritten, hlocal.written⟩
    intro hpurged row hrow hmatches
    exact hlocal.swept hpurged row (hrows j hne hpurged row hrow hmatches) hmatches
  · intro k t' hk
    have hconnection : k ≠ (calls i).connection := by
      rintro rfl
      exact absurd ((Function.update_self ..).symm.trans hk) (by simp)
    obtain ⟨j, hj, hflight⟩ :=
      h.served k t' ((Function.update_of_ne hconnection ..).symm.trans hk)
    refine ⟨j, hj, ?_⟩
    have hne : j ≠ i := by
      rintro rfl
      exact hconnection hj.symm
    change (Function.update w.phase i _ j).InFlight
    rwa [Function.update_of_ne hne]
  · intro j j' hj hj' hconnection
    exact h.alone j j' (ne_of_inFlight hj).2 (ne_of_inFlight hj').2 hconnection
  · intro j j' hj hj' heq
    exact h.exclusive j j' (ne_of_holds hj).2 (ne_of_holds hj').2 heq

-- allow without a client is answered before any statement
theorem skip {allowed : Bool} {observedAt : ℤ} (h : Orderly hash calls w)
    (hi : ¬ (w.phase i).InFlight) :
    Orderly hash calls
      { w with phase := Function.update w.phase i (.answered allowed observedAt) } := by
  constructor
  · intro j hj
    obtain ⟨hne, hj⟩ := ne_of_inFlight hj
    obtain ⟨t, ht, hlocal⟩ := h.underway j hj
    refine ⟨t, ht, ?_⟩
    change Local hash calls w.rows j (Function.update w.phase i _ j) t
    rwa [Function.update_of_ne hne]
  · intro k t hk
    obtain ⟨j, hj, hflight⟩ := h.served k t hk
    refine ⟨j, hj, ?_⟩
    have hne : j ≠ i := by
      rintro rfl
      exact hi hflight
    change (Function.update w.phase i _ j).InFlight
    rwa [Function.update_of_ne hne]
  · intro j j' hj hj' hconnection
    exact h.alone j j' (ne_of_inFlight hj).2 (ne_of_inFlight hj').2 hconnection
  · intro j j' hj hj' heq
    exact h.exclusive j j' (ne_of_holds hj).2 (ne_of_holds hj').2 heq

theorem opened_eq (h : Orderly hash calls w) (hi : (w.phase i).InFlight) :
    w.session (calls i).connection = some (w.opened calls i) := by
  obtain ⟨t, ht, -⟩ := h.underway i hi
  rw [ht, opened_of_session ht]

theorem localOf (h : Orderly hash calls w) (hi : (w.phase i).InFlight) :
    Local hash calls w.rows i (w.phase i) (w.opened calls i) := by
  obtain ⟨t, ht, hlocal⟩ := h.underway i hi
  rwa [opened_of_session ht]

-- nobody's transaction is open on a connection that no call uses
theorem opened_of_turn (h : Orderly hash calls w)
    (hturn : ∀ j, (calls j).connection = (calls i).connection → ¬ (w.phase j).InFlight) :
    w.opened calls i = ⟨w.clock, ∅, ∅, ∅⟩ := by
  apply opened_of_none
  rw [Option.eq_none_iff_forall_ne_some]
  intro t ht
  obtain ⟨j, hj, hflight⟩ := h.served _ t ht
  exact hturn j hj hflight

-- a step of a call that already has its lock
theorem advance {t : RateTransaction ι} {phase : AllowPhase} (h : Orderly hash calls w)
    (hi : (w.phase i).Holds) (hphase : phase.InFlight) (hlocal : Local hash calls w.rows i phase t) :
    Orderly hash calls (w.proceed calls i (some t) phase) := by
  apply h.proceed (Or.inl hi.inFlight) hphase hlocal
  intro _ j hne hj heq
  exact hne (h.exclusive j i hj hi heq)

theorem settle {observedAt : ℤ} {allowed : Bool} (h : Orderly hash calls w)
    (hi : (w.phase i).Holds) :
    Orderly hash calls
      { w.proceed calls i none (.answered allowed observedAt) with rows := w.visible calls i } := by
  apply h.finish hi.inFlight
  intro j hne hpurged row hrow hmatches
  rw [visible, Finset.mem_union, Finset.mem_sdiff] at hrow
  rcases hrow with ⟨hrow, -⟩ | hadded
  · exact hrow
  · exfalso
    have hlocal := h.localOf hi.inFlight
    by_cases hwritten : ∃ at', w.phase i = .inserted at'
    · obtain ⟨at', hphase⟩ := hwritten
      rw [(hlocal.written at' hphase).1, Finset.mem_singleton] at hadded
      have hself : Matches calls i row := by
        rw [hadded]
        exact ⟨rfl, rfl⟩
      have hj : (w.phase j).Holds := by rw [hpurged]; trivial
      exact hne (h.exclusive j i hj hi (lockOf_of_matches hmatches hself))
    · rw [hlocal.unwritten (fun at' hphase => hwritten ⟨at', hphase⟩)] at hadded
      cases hadded

theorem step (h : Orderly hash calls w) {move : AllowMove ι} (henabled : w.Enabled hash calls move)
    (hturn : w.TakesTurns calls move) : Orderly hash calls (w.step hash calls move) := by
  cases move with
  | tick microseconds => exact ⟨h.underway, h.served, h.alone, h.exclusive⟩
  | start i =>
      change Orderly hash calls (w.start calls i)
      unfold start
      split
      · exact h.skip (by rw [show w.phase i = _ from henabled]; exact id)
      · refine h.proceed (Or.inr hturn) trivial ?_ (fun hholds => hholds.elim)
        rw [h.opened_of_turn hturn]
        exact ⟨fun hholds => hholds.elim, (fun hpurged => by cases hpurged), fun _ => rfl,
          (fun at' hinserted => by cases hinserted)⟩
  | lock i =>
      obtain ⟨hphase, hfree⟩ := henabled
      have hflight : (w.phase i).InFlight := by rw [hphase]; trivial
      have hlocal := h.localOf hflight
      change Orderly hash calls (w.proceed calls i _ .locked)
      refine h.proceed (Or.inl hflight) trivial ?_ ?_
      · refine ⟨fun _ => Finset.mem_insert_self .., (fun hpurged => by cases hpurged), fun _ => ?_,
          (fun at' hinserted => by cases hinserted)⟩
        exact hlocal.unwritten (by rw [hphase]; simp)
      · intro _ j hne hj heq
        have hapart := h.apart (Or.inl hflight) hj.inFlight hne
        refine hfree _ hapart _ (h.opened_eq hj.inFlight) ?_
        rw [← heq]
        exact (h.localOf hj.inFlight).locked hj
  | purge i =>
      have hholds : (w.phase i).Holds := by rw [show w.phase i = _ from henabled]; trivial
      have hlocal := h.localOf hholds.inFlight
      change Orderly hash calls (w.proceed calls i _ .purged)
      refine h.advance hholds trivial ?_
      refine ⟨fun _ => hlocal.locked hholds, ?_, ?_, (fun at' hinserted => by cases hinserted)⟩
      · intro _ row hrow _ hold
        exact Finset.mem_union_right _ (Finset.mem_filter.mpr ⟨hrow, hold⟩)
      · intro _
        exact hlocal.unwritten (by rw [show w.phase i = _ from henabled]; simp)
  | count i =>
      have hholds : (w.phase i).Holds := by rw [show w.phase i = _ from henabled]; trivial
      have hlocal := h.localOf hholds.inFlight
      change Orderly hash calls (w.proceed calls i _ (.counted _))
      refine h.advance hholds trivial ?_
      refine ⟨fun _ => hlocal.locked hholds, (fun hpurged => by cases hpurged), ?_,
        (fun at' hinserted => by cases hinserted)⟩
      intro _
      exact hlocal.unwritten (by rw [show w.phase i = _ from henabled]; simp)
  | insert i =>
      have hholds : (w.phase i).Holds := by rw [show w.phase i = _ from henabled]; trivial
      have hlocal := h.localOf hholds.inFlight
      change Orderly hash calls (w.proceed calls i _ (.inserted _))
      refine h.advance hholds trivial ?_
      refine ⟨fun _ => hlocal.locked hholds, (fun hpurged => by cases hpurged),
        fun hnever => absurd rfl (hnever _), ?_⟩
      intro at' hinserted
      cases hinserted
      refine ⟨?_, rfl⟩
      rw [hlocal.unwritten (by rw [show w.phase i = _ from henabled]; simp)]
      rfl
  | commit i acknowledged =>
      change Orderly hash calls (w.commit calls i acknowledged)
      obtain ⟨allowed, observedAt, hsettled⟩ := settled_answered (w.phase i) acknowledged w.clock
      rw [commit, hsettled]
      exact h.settle (henabled.holds)
  | fail i =>
      exact h.finish henabled (fun _ _ _ _ hrow _ => hrow)

end Orderly

section Windows

theorem horizon_of_idle (h : w.phase i = .idle) :
    w.horizon calls i = w.clock - (calls i).limiter.window := by
  rw [horizon, h]

theorem horizon_of_inFlight (h : (w.phase i).InFlight) : w.horizon calls i = w.cutoff calls i := by
  unfold horizon
  split
  · next hidle =>
      rw [hidle] at h
      exact h.elim
  · rfl

theorem idle_or_inFlight {phase : AllowPhase} (h : phase.Undecided) :
    phase = .idle ∨ phase.InFlight := by
  cases phase <;> first | exact h.elim | exact Or.inl rfl | exact Or.inr trivial

theorem horizon_congr {w' : RateWorld ι κ} (hphase : w'.phase i = w.phase i)
    (hclock : w'.clock = w.clock)
    (hsession : w'.session (calls i).connection = w.session (calls i).connection) :
    w'.horizon calls i = w.horizon calls i := by
  rw [horizon, horizon, hphase, hclock, cutoff, cutoff, opened, opened, hsession, hclock]

theorem horizon_self {t : RateTransaction ι} {phase : AllowPhase} (hphase : phase.InFlight) :
    (w.proceed calls i (some t) phase).horizon calls i = t.stamp - (calls i).limiter.window := by
  rw [horizon_of_inFlight (by rwa [proceed_phase_self]), cutoff,
    opened_of_session proceed_session_self]

-- a call that has still to count had still to count before, and its window ends no earlier
structure Waits (calls : ι → AllowCall κ) (w w' : RateWorld ι κ) (i : ι) : Prop where
  undecided : (w.phase i).Undecided
  horizon : w.horizon calls i ≤ w'.horizon calls i

theorem Orderly.waits_other {transaction : Option (RateTransaction ι)} {phase : AllowPhase}
    (h : Orderly hash calls w)
    (hturn : (w.phase j).InFlight ∨
      ∀ j', (calls j').connection = (calls j).connection → ¬ (w.phase j').InFlight)
    (hne : i ≠ j) (hi : ((w.proceed calls j transaction phase).phase i).Undecided) :
    Waits calls w (w.proceed calls j transaction phase) i := by
  have hphase : (w.proceed calls j transaction phase).phase i = w.phase i :=
    proceed_phase_of_ne hne
  rw [hphase] at hi
  refine ⟨hi, ?_⟩
  rcases idle_or_inFlight hi with hidle | hflight
  · rw [horizon_of_idle hidle, horizon_of_idle (hphase.trans hidle), proceed_clock]
  · have hsession : (w.proceed calls j transaction phase).session (calls i).connection = _ :=
      proceed_session_of_ne (h.apart hturn hflight hne)
    exact (horizon_congr hphase rfl hsession).ge

-- a statement of a call that leaves it undecided
theorem waits_self {t : RateTransaction ι} {phase : AllowPhase} (hphase : phase.InFlight)
    (hi : (w.phase i).Undecided) (hflight : (w.phase i).InFlight)
    (ht : t.stamp = (w.opened calls i).stamp) :
    Waits calls w (w.proceed calls i (some t) phase) i := by
  refine ⟨hi, ?_⟩
  rw [horizon_self hphase, horizon_of_inFlight hflight, cutoff, ht]

theorem Waits.refl (hi : (w.phase i).Undecided) : Waits calls w w i := ⟨hi, le_rfl⟩

theorem waits_tick {microseconds : ℕ} (hi : (w.phase i).Undecided) (h : Orderly hash calls w) :
    Waits calls w { w with clock := w.clock + microseconds } i := by
  refine ⟨hi, ?_⟩
  rcases idle_or_inFlight hi with hidle | hflight
  · rw [horizon_of_idle hidle]
    refine le_of_le_of_eq ?_ (horizon_of_idle (w := { w with clock := w.clock + microseconds })
      hidle).symm
    change w.clock - _ ≤ w.clock + microseconds - _
    omega
  · rw [horizon_of_inFlight hflight]
    refine le_of_eq (Eq.trans ?_ (horizon_of_inFlight
      (w := { w with clock := w.clock + microseconds }) hflight).symm)
    rw [cutoff, cutoff, opened_of_session (h.opened_eq hflight),
      opened_of_session (w := { w with clock := w.clock + microseconds }) (h.opened_eq hflight)]

theorem Orderly.waits_start (h : Orderly hash calls w) (hidle : w.phase j = .idle)
    (hturn : ∀ j', (calls j').connection = (calls j).connection → ¬ (w.phase j').InFlight)
    (hi : ((w.start calls j).phase i).Undecided) : Waits calls w (w.start calls j) i := by
  unfold start at hi ⊢
  split
  · next hclient =>
      rw [if_pos hclient] at hi
      change (Function.update w.phase j (.answered false w.clock) i).Undecided at hi
      have hne : i ≠ j := by
        rintro rfl
        rw [Function.update_self] at hi
        exact hi.elim
      have hphase : Function.update w.phase j (.answered false w.clock) i = w.phase i :=
        Function.update_of_ne hne ..
      rw [hphase] at hi
      have hsame : ({ w with phase := Function.update w.phase j (.answered false w.clock) } :
        RateWorld ι κ).horizon calls i = w.horizon calls i := horizon_congr hphase rfl rfl
      exact ⟨hi, hsame.ge⟩
  · next hclient =>
      rw [if_neg hclient] at hi
      by_cases hne : i = j
      · subst hne
        refine ⟨by rw [hidle]; trivial, le_of_eq ?_⟩
        have hself : (w.proceed calls i (some (w.opened calls i)) .waiting).horizon calls i = _ :=
          horizon_self trivial
        rw [hself, horizon_of_idle hidle, h.opened_of_turn hturn]
      · exact h.waits_other (Or.inr hturn) hne hi

theorem Orderly.waits_statement {t : RateTransaction ι} {phase : AllowPhase}
    (h : Orderly hash calls w) (hflight : (w.phase j).InFlight) (hphase : phase.InFlight)
    (hundecided : phase.Undecided → (w.phase j).Undecided)
    (ht : t.stamp = (w.opened calls j).stamp)
    (hi : ((w.proceed calls j (some t) phase).phase i).Undecided) :
    Waits calls w (w.proceed calls j (some t) phase) i := by
  by_cases hne : i = j
  · subst hne
    rw [proceed_phase_self] at hi
    exact waits_self hphase (hundecided hi) hflight ht
  · exact h.waits_other (Or.inl hflight) hne hi

theorem Orderly.waits_end {allowed : Bool} {observedAt : ℤ} {rows : Finset (RateHit ι)}
    (h : Orderly hash calls w) (hflight : (w.phase j).InFlight)
    (hi : (({ w.proceed calls j none (.answered allowed observedAt) with rows := rows } :
      RateWorld ι κ).phase i).Undecided) :
    Waits calls w { w.proceed calls j none (.answered allowed observedAt) with rows := rows } i := by
  have hne : i ≠ j := by
    rintro rfl
    change (Function.update w.phase i (.answered allowed observedAt) i).Undecided at hi
    rw [Function.update_self] at hi
    exact hi.elim
  have hwaits : Waits calls w (w.proceed calls j none (.answered allowed observedAt)) i :=
    h.waits_other (Or.inl hflight) hne hi
  exact ⟨hwaits.undecided, hwaits.horizon⟩

theorem Orderly.waits (h : Orderly hash calls w) {move : AllowMove ι}
    (henabled : w.Enabled hash calls move) (hturn : w.TakesTurns calls move)
    (hi : ((w.step hash calls move).phase i).Undecided) :
    Waits calls w (w.step hash calls move) i := by
  cases move with
  | tick microseconds => exact waits_tick hi h
  | start j => exact h.waits_start henabled hturn hi
  | lock j =>
      have hphase : w.phase j = .waiting := henabled.1
      exact h.waits_statement (by rw [hphase]; trivial) trivial (fun _ => by rw [hphase]; trivial)
        rfl hi
  | purge j =>
      have hphase : w.phase j = .locked := henabled
      exact h.waits_statement (by rw [hphase]; trivial) trivial (fun _ => by rw [hphase]; trivial)
        rfl hi
  | count j =>
      have hphase : w.phase j = .purged := henabled
      exact h.waits_statement (by rw [hphase]; trivial) trivial (fun _ => by rw [hphase]; trivial)
        rfl hi
  | insert j =>
      have hphase : w.phase j = .counted true := henabled
      exact h.waits_statement (by rw [hphase]; trivial) trivial (fun hu => hu.elim) rfl hi
  | commit j acknowledged =>
      change Waits calls w (w.commit calls j acknowledged) i
      change ((w.commit calls j acknowledged).phase i).Undecided at hi
      obtain ⟨allowed, observedAt, hsettled⟩ := settled_answered (w.phase j) acknowledged w.clock
      rw [commit, hsettled] at hi ⊢
      exact h.waits_end (henabled.holds).inFlight hi
  | fail j => exact h.waits_end henabled hi

-- once no call can count a row any more, none ever will
theorem Orderly.spent (h : Orderly hash calls w) {move : AllowMove ι}
    (henabled : w.Enabled hash calls move) (hturn : w.TakesTurns calls move) {row : RateHit ι}
    (hspent : w.Spent calls row) : (w.step hash calls move).Spent calls row := by
  intro i hmatches hi
  have hwaits := h.waits henabled hturn hi
  exact lt_of_lt_of_le (hspent i hmatches hwaits.undecided) hwaits.horizon

-- no row that a window still holds is gone, or is about to go
structure Kept (calls : ι → AllowCall κ) (w : RateWorld ι κ) : Prop where
  doomed : ∀ i, (w.phase i).InFlight → ∀ row ∈ (w.opened calls i).doomed, w.Spent calls row
  granted : ∀ i observedAt, w.phase i = .answered true observedAt →
    hit calls i observedAt ∈ w.rows ∨ w.Spent calls (hit calls i observedAt)

theorem kept_init : Kept calls ({} : RateWorld ι κ) where
  doomed _ h := False.elim h
  granted _ _ h := by cases h

theorem opened_proceed_of_ne {transaction : Option (RateTransaction ι)} {phase : AllowPhase}
    (h : (calls i).connection ≠ (calls j).connection) :
    (w.proceed calls j transaction phase).opened calls i = w.opened calls i := by
  rw [opened, proceed_session_of_ne h, proceed_clock, opened]

theorem Orderly.doomed_proceed {t : RateTransaction ι} {phase : AllowPhase}
    (h : Orderly hash calls w)
    (hturn : (w.phase j).InFlight ∨
      ∀ j', (calls j').connection = (calls j).connection → ¬ (w.phase j').InFlight)
    (hspent : ∀ row ∈ t.doomed, w.Spent calls row)
    (hkept : ∀ i, (w.phase i).InFlight → ∀ row ∈ (w.opened calls i).doomed, w.Spent calls row)
    (hi : ((w.proceed calls j (some t) phase).phase i).InFlight) :
    ∀ row ∈ ((w.proceed calls j (some t) phase).opened calls i).doomed, w.Spent calls row := by
  by_cases hne : i = j
  · subst hne
    rwa [opened_of_session proceed_session_self]
  · rw [proceed_phase_of_ne hne] at hi
    rw [opened_proceed_of_ne (h.apart hturn hi hne)]
    exact hkept i hi

theorem Orderly.doomed_end {allowed : Bool} {observedAt : ℤ}
    (h : Orderly hash calls w) (hflight : (w.phase j).InFlight)
    (hkept : ∀ i, (w.phase i).InFlight → ∀ row ∈ (w.opened calls i).doomed, w.Spent calls row)
    (hi : (Function.update w.phase j (.answered allowed observedAt) i).InFlight) :
    ∀ row ∈ ((w.proceed calls j none (.answered allowed observedAt)).opened calls i).doomed,
      w.Spent calls row := by
  obtain ⟨hne, hi⟩ := ne_of_inFlight hi
  rw [opened_proceed_of_ne (h.apart (Or.inl hflight) hi hne)]
  exact hkept i hi

-- the rows a step dooms, like those it finds doomed, are of no window any more
theorem Orderly.doomed_step (h : Orderly hash calls w) {move : AllowMove ι}
    (henabled : w.Enabled hash calls move) (hturn : w.TakesTurns calls move)
    (hspares : w.SparesWindows calls move)
    (hkept : ∀ i, (w.phase i).InFlight → ∀ row ∈ (w.opened calls i).doomed, w.Spent calls row)
    (hi : ((w.step hash calls move).phase i).InFlight) :
    ∀ row ∈ ((w.step hash calls move).opened calls i).doomed, w.Spent calls row := by
  cases move with
  | tick microseconds =>
      have hsession := h.opened_eq hi
      rw [show (w.step hash calls (.tick microseconds)).opened calls i = _ from
        opened_of_session hsession]
      exact hkept i hi
  | start j =>
      change ((w.start calls j).phase i).InFlight at hi
      change ∀ row ∈ ((w.start calls j).opened calls i).doomed, w.Spent calls row
      unfold start at hi ⊢
      split
      · next hclient =>
          rw [if_pos hclient] at hi
          obtain ⟨-, hi⟩ := ne_of_inFlight hi
          exact hkept i hi
      · next hclient =>
          rw [if_neg hclient] at hi
          refine h.doomed_proceed (Or.inr hturn) ?_ hkept hi
          rw [h.opened_of_turn hturn]
          exact fun row hrow => absurd hrow (Finset.notMem_empty row)
  | lock j =>
      have hflight : (w.phase j).InFlight := by rw [henabled.1]; trivial
      exact h.doomed_proceed (Or.inl hflight) (hkept j hflight) hkept hi
  | purge j =>
      have hflight : (w.phase j).InFlight := by rw [show w.phase j = _ from henabled]; trivial
      refine h.doomed_proceed (Or.inl hflight) ?_ hkept hi
      intro row hrow
      rcases Finset.mem_union.mp hrow with hrow | hrow
      · exact hkept j hflight row hrow
      · exact hspares row hrow
  | count j =>
      have hflight : (w.phase j).InFlight := by rw [show w.phase j = _ from henabled]; trivial
      exact h.doomed_proceed (Or.inl hflight) (hkept j hflight) hkept hi
  | insert j =>
      have hflight : (w.phase j).InFlight := by rw [show w.phase j = _ from henabled]; trivial
      exact h.doomed_proceed (Or.inl hflight) (hkept j hflight) hkept hi
  | commit j acknowledged =>
      change (Function.update w.phase j (settled (w.phase j) acknowledged w.clock) i).InFlight at hi
      change ∀ row ∈ ((w.proceed calls j none (settled (w.phase j) acknowledged w.clock)).opened
        calls i).doomed, w.Spent calls row
      obtain ⟨allowed, observedAt, hsettled⟩ := settled_answered (w.phase j) acknowledged w.clock
      rw [hsettled] at hi ⊢
      exact h.doomed_end (henabled.holds).inFlight hkept hi
  | fail j => exact h.doomed_end henabled hkept hi

theorem answered_update {phase : AllowPhase} {observedAt : ℤ}
    (hphase : ∀ at', phase ≠ .answered true at')
    (h : Function.update w.phase j phase i = .answered true observedAt) :
    w.phase i = .answered true observedAt := by
  by_cases hne : i = j
  · subst hne
    rw [Function.update_self] at h
    exact absurd h (hphase observedAt)
  · rwa [Function.update_of_ne hne] at h

-- a call is granted when the transaction with its hit commits
theorem answered_step {move : AllowMove ι} {observedAt : ℤ}
    (h : (w.step hash calls move).phase i = .answered true observedAt) :
    w.phase i = .answered true observedAt ∨
      ∃ acknowledged, move = .commit i acknowledged ∧ w.phase i = .inserted observedAt := by
  cases move with
  | tick microseconds => exact Or.inl h
  | start j =>
      change (w.start calls j).phase i = _ at h
      unfold start at h
      split at h
      · exact Or.inl (answered_update (by simp) h)
      · exact Or.inl (answered_update (by simp) h)
  | lock j => exact Or.inl (answered_update (by simp) h)
  | purge j => exact Or.inl (answered_update (by simp) h)
  | count j => exact Or.inl (answered_update (by simp) h)
  | insert j => exact Or.inl (answered_update (by simp) h)
  | commit j acknowledged =>
      by_cases hne : i = j
      · subst hne
        change Function.update w.phase i (settled (w.phase i) acknowledged w.clock) i = _ at h
        rw [Function.update_self] at h
        cases hphase : w.phase i <;> rw [hphase, settled] at h <;> cases h
        exact Or.inr ⟨true, rfl, rfl⟩
      · exact Or.inl ((Function.update_of_ne hne ..).symm.trans h)
  | fail j => exact Or.inl (answered_update (by simp) h)

theorem rows_step {move : AllowMove ι} (hmove : ∀ j acknowledged, move ≠ .commit j acknowledged) :
    (w.step hash calls move).rows = w.rows := by
  cases move with
  | start j =>
      change (w.start calls j).rows = _
      unfold start
      split <;> rfl
  | commit j acknowledged => exact absurd rfl (hmove j acknowledged)
  | _ => rfl

theorem Kept.step (hkept : Kept calls w) (h : Orderly hash calls w) {move : AllowMove ι}
    (henabled : w.Enabled hash calls move) (hturn : w.TakesTurns calls move)
    (hspares : w.SparesWindows calls move) : Kept calls (w.step hash calls move) := by
  constructor
  · intro i hi row hrow
    exact h.spent henabled hturn
      (h.doomed_step henabled hturn hspares hkept.doomed hi row hrow)
  · intro i observedAt hi
    by_cases hmove : ∃ j acknowledged, move = .commit j acknowledged
    · obtain ⟨j, acknowledged, rfl⟩ := hmove
      have hholds := henabled.holds
      change hit calls i observedAt ∈ w.visible calls j ∨ _
      rw [visible, Finset.mem_union, Finset.mem_sdiff]
      rcases answered_step hi with hbefore | ⟨acknowledged', hcommit, hinserted⟩
      · rcases hkept.granted i observedAt hbefore with hrow | hspent
        · by_cases hdoomed : hit calls i observedAt ∈ (w.opened calls j).doomed
          · exact Or.inr (h.spent henabled hturn (hkept.doomed j hholds.inFlight _ hdoomed))
          · exact Or.inl (Or.inl ⟨hrow, hdoomed⟩)
        · exact Or.inr (h.spent henabled hturn hspent)
      · cases hcommit
        left
        right
        rw [((h.localOf hholds.inFlight).written observedAt hinserted).1]
        exact Finset.mem_singleton_self _
    · have hrows : (w.step hash calls move).rows = w.rows :=
        rows_step (fun j acknowledged hcommit => hmove ⟨j, acknowledged, hcommit⟩)
      rw [hrows]
      rcases answered_step hi with hbefore | ⟨acknowledged, hcommit, -⟩
      · exact (hkept.granted i observedAt hbefore).imp id (h.spent henabled hturn)
      · exact absurd ⟨i, acknowledged, hcommit⟩ hmove

-- the call was let through by a count, for the time its transaction gives its hit
inductive GrantedAt (calls : ι → AllowCall κ) (w : RateWorld ι κ) (i : ι) : ℤ → Prop
  | counted : w.phase i = .counted true → GrantedAt calls w i (w.opened calls i).stamp
  | inserted {observedAt : ℤ} : w.phase i = .inserted observedAt → GrantedAt calls w i observedAt
  | answered {observedAt : ℤ} : w.phase i = .answered true observedAt →
      GrantedAt calls w i observedAt

-- a step of another call leaves a call alone
theorem phase_frame {move : AllowMove ι} (h : move.call ≠ some i) :
    (w.step hash calls move).phase i = w.phase i := by
  have hne : ∀ j, move.call = some j → i ≠ j := by
    rintro j hj rfl
    exact h hj
  cases move with
  | tick microseconds => rfl
  | start j =>
      change (w.start calls j).phase i = _
      unfold start
      split
      · exact Function.update_of_ne (hne j rfl) ..
      · exact Function.update_of_ne (hne j rfl) ..
  | lock j => exact Function.update_of_ne (hne j rfl) ..
  | purge j => exact Function.update_of_ne (hne j rfl) ..
  | count j => exact Function.update_of_ne (hne j rfl) ..
  | insert j => exact Function.update_of_ne (hne j rfl) ..
  | commit j acknowledged => exact Function.update_of_ne (hne j rfl) ..
  | fail j => exact Function.update_of_ne (hne j rfl) ..

-- the connection of a call that moves is its own
theorem turn_of_enabled {move : AllowMove ι} (henabled : w.Enabled hash calls move)
    (hturn : w.TakesTurns calls move) (hj : move.call = some j) :
    (w.phase j).InFlight ∨
      ∀ j', (calls j').connection = (calls j).connection → ¬ (w.phase j').InFlight := by
  cases move with
  | tick microseconds => cases hj
  | start i =>
      cases hj
      exact Or.inr hturn
  | lock i =>
      cases hj
      exact Or.inl (by rw [henabled.1]; trivial)
  | purge i =>
      cases hj
      exact Or.inl (by rw [show w.phase j = _ from henabled]; trivial)
  | count i =>
      cases hj
      exact Or.inl (by rw [show w.phase j = _ from henabled]; trivial)
  | insert i =>
      cases hj
      exact Or.inl (by rw [show w.phase j = _ from henabled]; trivial)
  | commit i acknowledged =>
      cases hj
      exact Or.inl (henabled.holds).inFlight
  | fail i =>
      cases hj
      exact Or.inl henabled

theorem session_frame {move : AllowMove ι} {k : κ}
    (h : ∀ j, move.call = some j → k ≠ (calls j).connection) :
    (w.step hash calls move).session k = w.session k := by
  cases move with
  | tick microseconds => rfl
  | start j =>
      change (w.start calls j).session k = _
      unfold start
      split
      · rfl
      · exact Function.update_of_ne (h j rfl) ..
  | lock j => exact Function.update_of_ne (h j rfl) ..
  | purge j => exact Function.update_of_ne (h j rfl) ..
  | count j => exact Function.update_of_ne (h j rfl) ..
  | insert j => exact Function.update_of_ne (h j rfl) ..
  | commit j acknowledged => exact Function.update_of_ne (h j rfl) ..
  | fail j => exact Function.update_of_ne (h j rfl) ..

theorem Orderly.opened_frame (h : Orderly hash calls w) {move : AllowMove ι}
    (henabled : w.Enabled hash calls move) (hturn : w.TakesTurns calls move)
    (hi : (w.phase i).InFlight) (hmove : move.call ≠ some i) :
    (w.step hash calls move).opened calls i = w.opened calls i := by
  have hsession : (w.step hash calls move).session (calls i).connection =
      w.session (calls i).connection := by
    apply session_frame
    intro j hj
    refine h.apart (turn_of_enabled henabled hturn hj) hi ?_
    rintro rfl
    exact hmove hj
  rw [opened_of_session (hsession.trans (h.opened_eq hi))]

theorem granted_proceed {transaction : Option (RateTransaction ι)} {phase : AllowPhase}
    {observedAt : ℤ} (h : GrantedAt calls (w.proceed calls i transaction phase) i observedAt) :
    phase = .counted true ∧
        observedAt = ((w.proceed calls i transaction phase).opened calls i).stamp ∨
      phase = .inserted observedAt ∨ phase = .answered true observedAt := by
  cases h with
  | counted hcounted => exact Or.inl ⟨proceed_phase_self.symm.trans hcounted, rfl⟩
  | inserted hinserted => exact Or.inr (Or.inl (proceed_phase_self.symm.trans hinserted))
  | answered hanswered => exact Or.inr (Or.inr (proceed_phase_self.symm.trans hanswered))

theorem granted_rows {rows : Finset (RateHit ι)} {observedAt : ℤ}
    (h : GrantedAt calls { w with rows := rows } i observedAt) :
    GrantedAt calls w i observedAt := by
  cases h with
  | counted hcounted => exact .counted hcounted
  | inserted hinserted => exact .inserted hinserted
  | answered hanswered => exact .answered hanswered

-- only a count grants
theorem granted_step (h : Orderly hash calls w) {move : AllowMove ι}
    (henabled : w.Enabled hash calls move) (hturn : w.TakesTurns calls move) {observedAt : ℤ}
    (hi : GrantedAt calls (w.step hash calls move) i observedAt) :
    GrantedAt calls w i observedAt ∨
      move = .count i ∧ observedAt = (w.opened calls i).stamp ∧ w.allowed calls i = true := by
  by_cases hmove : move.call = some i
  · cases move with
    | tick microseconds => cases hmove
    | start j =>
        cases hmove
        change GrantedAt calls (w.start calls i) i observedAt at hi
        unfold start at hi
        split at hi
        · cases hi with
          | counted h => exact absurd ((Function.update_self ..).symm.trans h) (by simp)
          | inserted h => exact absurd ((Function.update_self ..).symm.trans h) (by simp)
          | answered h => exact absurd ((Function.update_self ..).symm.trans h) (by simp)
        · rcases granted_proceed hi with ⟨hphase, -⟩ | hphase | hphase <;> cases hphase
    | lock j =>
        cases hmove
        rcases granted_proceed hi with ⟨hphase, -⟩ | hphase | hphase <;> cases hphase
    | purge j =>
        cases hmove
        rcases granted_proceed hi with ⟨hphase, -⟩ | hphase | hphase <;> cases hphase
    | count j =>
        cases hmove
        rcases granted_proceed hi with ⟨hphase, hstamp⟩ | hphase | hphase
        · rw [opened_of_session proceed_session_self] at hstamp
          exact Or.inr ⟨rfl, hstamp, AllowPhase.counted.inj hphase⟩
        · cases hphase
        · cases hphase
    | insert j =>
        cases hmove
        rcases granted_proceed hi with ⟨hphase, -⟩ | hphase | hphase
        · cases hphase
        · cases hphase
          exact Or.inl (.counted henabled)
        · cases hphase
    | commit j acknowledged =>
        cases hmove
        rcases granted_proceed (granted_rows hi) with ⟨hphase, -⟩ | hphase | hphase
        · cases hbefore : w.phase i <;> rw [hbefore, settled] at hphase <;> cases hphase
        · cases hbefore : w.phase i <;> rw [hbefore, settled] at hphase <;> cases hphase
        · cases hbefore : w.phase i <;> rw [hbefore, settled] at hphase <;> cases hphase
          exact Or.inl (.inserted hbefore)
    | fail j =>
        cases hmove
        rcases granted_proceed hi with ⟨hphase, -⟩ | hphase | hphase <;> cases hphase
  · have hphase : (w.step hash calls move).phase i = w.phase i := phase_frame hmove
    left
    cases hi with
    | counted hcounted =>
        rw [hphase] at hcounted
        rw [h.opened_frame henabled hturn (by rw [hcounted]; trivial) hmove]
        exact .counted hcounted
    | inserted hinserted => exact .inserted (hphase.symm.trans hinserted)
    | answered hanswered => exact .answered (hphase.symm.trans hanswered)

-- the calls of a client at one limiter that were granted within a window
def GrantedWithin (calls : ι → AllowCall κ) (w : RateWorld ι κ) (limiter : PostgresRateLimiter)
    (client : Str) (since : ℤ) (i : ι) : Prop :=
  (calls i).limiter = limiter ∧ (calls i).client = client ∧ ∃ observedAt,
    GrantedAt calls w i observedAt ∧ since ≤ observedAt ∧ observedAt ≤ since + limiter.window

def Bounded (calls : ι → AllowCall κ) (w : RateWorld ι κ) : Prop :=
  ∀ limiter client since (granted : Finset ι),
    (∀ i ∈ granted, GrantedWithin calls w limiter client since i) →
      (granted.card : ℤ) ≤ limiter.limit

theorem bounded_init : Bounded calls ({} : RateWorld ι κ) := by
  intro limiter client since granted hgranted
  have hempty : granted = ∅ := by
    rw [Finset.eq_empty_iff_forall_notMem]
    intro i hi
    obtain ⟨-, -, observedAt, hat, -⟩ := hgranted i hi
    cases hat with
    | counted h => cases h
    | inserted h => cases h
    | answered h => cases h
  rw [hempty, Finset.card_empty]
  exact limiter.limit_pos.le

-- a call that counts sees the hits of all calls granted within its window
theorem Kept.counts (hkept : Kept calls w) (h : Orderly hash calls w) (hj : w.phase j = .purged)
    (hi : (calls i).limiter = (calls j).limiter) (hclient : (calls i).client = (calls j).client)
    (hne : i ≠ j) {observedAt : ℤ} (hat : GrantedAt calls w i observedAt)
    (hwindow : w.cutoff calls j ≤ observedAt) :
    hit calls i observedAt ∈ (w.visible calls j).filter (Matches calls j) := by
  have hmatches : Matches calls j (hit calls i observedAt) := by
    rw [Matches, ← hi, ← hclient]
    exact ⟨rfl, rfl⟩
  have hself : Matches calls i (hit calls i observedAt) := ⟨rfl, rfl⟩
  have hlock : lockOf hash calls i = lockOf hash calls j := lockOf_of_matches hself hmatches
  have hholds : (w.phase j).Holds := by rw [hj]; trivial
  have hlive : ¬ w.Spent calls (hit calls i observedAt) := by
    intro hspent
    have hlt := hspent j hmatches (by rw [hj]; trivial)
    rw [horizon_of_inFlight hholds.inFlight] at hlt
    exact absurd hlt (not_lt.mpr hwindow)
  rw [Finset.mem_filter, visible, Finset.mem_union, Finset.mem_sdiff]
  refine ⟨Or.inl ?_, hmatches⟩
  cases hat with
  | counted hcounted => exact absurd (h.exclusive i j (by rw [hcounted]; trivial) hholds hlock) hne
  | inserted hinserted =>
      exact absurd (h.exclusive i j (by rw [hinserted]; trivial) hholds hlock) hne
  | answered hanswered =>
      refine ⟨(hkept.granted i _ hanswered).resolve_right hlive, ?_⟩
      intro hdoomed
      exact hlive (hkept.doomed j hholds.inFlight _ hdoomed)

theorem Bounded.step (hbounded : Bounded calls w) (hkept : Kept calls w)
    (h : Orderly hash calls w) {move : AllowMove ι} (henabled : w.Enabled hash calls move)
    (hturn : w.TakesTurns calls move) : Bounded calls (w.step hash calls move) := by
  intro limiter client since granted hgranted
  by_cases hcount : ∃ j ∈ granted, move = .count j ∧ ¬ GrantedWithin calls w limiter client since j
  · obtain ⟨j, hj, rfl, hnew⟩ := hcount
    obtain ⟨hlimiter, hclient, observedAt, hat, hsince, huntil⟩ := hgranted j hj
    rcases granted_step h henabled hturn hat with hbefore | ⟨-, rfl, hallowed⟩
    · exact absurd ⟨hlimiter, hclient, observedAt, hbefore, hsince, huntil⟩ hnew
    have hcutoff : w.cutoff calls j ≤ since := by
      rw [cutoff, hlimiter]
      omega
    have hseen : granted.erase j ⊆
        ((w.visible calls j).filter (Matches calls j)).image RateHit.ticket := by
      intro i hi
      obtain ⟨hne, hi⟩ := Finset.mem_erase.mp hi
      obtain ⟨hlimiter', hclient', at', hat', hsince', -⟩ := hgranted i hi
      rcases granted_step h henabled hturn hat' with hbefore | ⟨hcount, -⟩
      · exact Finset.mem_image_of_mem RateHit.ticket (hkept.counts h henabled
          (hlimiter'.trans hlimiter.symm) (hclient'.trans hclient.symm) hne hbefore
          (hcutoff.trans hsince'))
      · cases hcount
        exact absurd rfl hne
    have hless := of_decide_eq_true hallowed
    rw [hlimiter] at hless
    have hcard := (Finset.card_le_card hseen).trans Finset.card_image_le
    have herase := Finset.card_erase_add_one hj
    omega
  · apply hbounded limiter client since granted
    intro i hi
    by_contra hnot
    obtain ⟨hlimiter, hclient, observedAt, hat, hsince⟩ := hgranted i hi
    rcases granted_step h henabled hturn hat with hbefore | ⟨hmove, -⟩
    · exact hnot ⟨hlimiter, hclient, observedAt, hbefore, hsince⟩
    · exact hcount ⟨i, hi, hmove, hnot⟩

-- a run in which connections serve one call at a time and no DELETE reaches into a window
def Respectful (calls : ι → AllowCall κ) (w : RateWorld ι κ) (move : AllowMove ι) : Prop :=
  w.TakesTurns calls move ∧ w.SparesWindows calls move

structure Sound (hash : Str → ℤ) (calls : ι → AllowCall κ) (w : RateWorld ι κ) : Prop where
  orderly : Orderly hash calls w
  kept : Kept calls w
  bounded : Bounded calls w

theorem sound_init : Sound hash calls ({} : RateWorld ι κ) :=
  ⟨orderly_init, kept_init, bounded_init⟩

theorem Sound.step (h : Sound hash calls w) {move : AllowMove ι}
    (henabled : w.Enabled hash calls move) (hrespects : w.Respectful calls move) :
    Sound hash calls (w.step hash calls move) where
  orderly := h.orderly.step henabled hrespects.1
  kept := h.kept.step h.orderly henabled hrespects.1 hrespects.2
  bounded := h.bounded.step h.kept h.orderly henabled hrespects.1

end Windows

end RateWorld

end GovernedAutonomy
