import GovernedAutonomy.RateLimiter
import Mathlib.Data.Fintype.Basic

namespace GovernedAutonomy

open Python Protocol

set_option linter.unusedSectionVars false

namespace RateWorld

variable {ι κ : Type} [DecidableEq ι] [DecidableEq κ]

def answer (w : RateWorld ι κ) (i : ι) : Option Bool :=
  match w.phase i with
  | .answered allowed _ => some allowed
  | _ => none

-- the moves of the calls of one namespace, and the passing of time
def concerns (calls : ι → AllowCall κ) (space : Str) (move : AllowMove ι) : Bool :=
  move.call.all (fun i => decide ((calls i).limiter.namespaceText = space))

def alone (calls : ι → AllowCall κ) (space : Str) (moves : List (AllowMove ι)) :
    List (AllowMove ι) := moves.filter (concerns calls space)

variable {hash : Str → ℤ} {calls : ι → AllowCall κ} {w v : RateWorld ι κ} {i j : ι} {space : Str}

-- one transaction in the two runs
structure SameTransaction (calls : ι → AllowCall κ) (space : Str) (w : RateWorld ι κ)
    (t t' : RateTransaction ι) : Prop where
  stamp : t.stamp = t'.stamp
  locks : t.locks = t'.locks
  added : t.added = t'.added
  doomed : ∀ row ∈ t.doomed, row.namespaceText = space → w.Spent calls row
  doomed' : ∀ row ∈ t'.doomed, row.namespaceText = space → w.Spent calls row

-- a run w, and the run v that has the calls of one namespace only
structure Twin (calls : ι → AllowCall κ) (space : Str) (w v : RateWorld ι κ) : Prop where
  clock : w.clock = v.clock
  phases : ∀ i, (calls i).limiter.namespaceText = space → w.phase i = v.phase i
  foreign : ∀ i, (calls i).limiter.namespaceText ≠ space → v.phase i = .idle
  sessions : ∀ k, ∀ t' ∈ v.session k, ∃ t ∈ w.session k, SameTransaction calls space w t t'
  rows : ∀ row : RateHit ι, row.namespaceText = space → ¬ w.Spent calls row →
    (row ∈ w.rows ↔ row ∈ v.rows)

theorem twin_init : Twin calls space ({} : RateWorld ι κ) {} where
  clock := rfl
  phases _ _ := rfl
  foreign _ _ := rfl
  sessions _ _ h := absurd h (by simp)
  rows _ _ _ := Iff.rfl

theorem SameTransaction.mono {w' : RateWorld ι κ} {t t' : RateTransaction ι}
    (h : SameTransaction calls space w t t')
    (hspent : ∀ row : RateHit ι, w.Spent calls row → w'.Spent calls row) :
    SameTransaction calls space w' t t' :=
  ⟨h.stamp, h.locks, h.added, fun row hrow hspace => hspent row (h.doomed row hrow hspace),
    fun row hrow hspace => hspent row (h.doomed' row hrow hspace)⟩

namespace Twin

theorem inSpace (h : Twin calls space w v) (hi : (v.phase i).InFlight) :
    (calls i).limiter.namespaceText = space := by
  by_contra hne
  rw [h.foreign i hne] at hi
  exact hi

theorem inFlight (h : Twin calls space w v) (hi : (v.phase i).InFlight) :
    (w.phase i).InFlight := by
  rwa [h.phases i (h.inSpace hi)]

theorem enabled (h : Twin calls space w v) {move : AllowMove ι}
    (hmove : concerns calls space move = true) (henabled : w.Enabled hash calls move) :
    v.Enabled hash calls move := by
  cases move with
  | tick microseconds => trivial
  | start j =>
      have hphase := h.phases j (of_decide_eq_true hmove)
      exact hphase.symm.trans henabled
  | lock j =>
      have hphase := h.phases j (of_decide_eq_true hmove)
      refine ⟨hphase.symm.trans henabled.1, ?_⟩
      intro k hk t' ht'
      obtain ⟨t, ht, hsame⟩ := h.sessions k t' ht'
      rw [← hsame.locks]
      exact henabled.2 k hk t ht
  | purge j =>
      have hphase := h.phases j (of_decide_eq_true hmove)
      exact hphase.symm.trans henabled
  | count j =>
      have hphase := h.phases j (of_decide_eq_true hmove)
      exact hphase.symm.trans henabled
  | insert j =>
      have hphase := h.phases j (of_decide_eq_true hmove)
      exact hphase.symm.trans henabled
  | commit j acknowledged =>
      have hphase := h.phases j (of_decide_eq_true hmove)
      change (v.phase j).Closes
      rw [← hphase]
      exact henabled
  | fail j =>
      have hphase := h.phases j (of_decide_eq_true hmove)
      change (v.phase j).InFlight
      rw [← hphase]
      exact henabled

theorem takesTurns (h : Twin calls space w v) {move : AllowMove ι}
    (hturn : w.TakesTurns calls move) : v.TakesTurns calls move := by
  cases move with
  | start j =>
      intro i hconnection hi
      exact hturn i hconnection (h.inFlight hi)
  | _ => trivial

-- what a call finds on its connection
theorem opened (h : Twin calls space w v) (hw : Orderly hash calls w) (hv : Orderly hash calls v)
    (hj : (calls j).limiter.namespaceText = space)
    (hturn : (w.phase j).InFlight ∨
      ∀ i, (calls i).connection = (calls j).connection → ¬ (w.phase i).InFlight) :
    SameTransaction calls space w (w.opened calls j) (v.opened calls j) := by
  rcases hturn with hflight | hidle
  · have hflight' : (v.phase j).InFlight := by rwa [← h.phases j hj]
    obtain ⟨t, ht, hsame⟩ := h.sessions _ _ (hv.opened_eq hflight')
    rwa [opened_of_session ht]
  · have hidle' : ∀ i, (calls i).connection = (calls j).connection → ¬ (v.phase i).InFlight :=
      fun i hi hflight => hidle i hi (h.inFlight hflight)
    rw [hw.opened_of_turn hidle, hv.opened_of_turn hidle', h.clock]
    exact ⟨rfl, rfl, rfl, fun row hrow => absurd hrow (Finset.notMem_empty row),
      fun row hrow => absurd hrow (Finset.notMem_empty row)⟩

-- a window shows the same rows in both runs
theorem visible_iff (h : Twin calls space w v) {row : RateHit ι}
    (hsame : SameTransaction calls space w (w.opened calls j) (v.opened calls j))
    (hspace : row.namespaceText = space) (hlive : ¬ w.Spent calls row) :
    row ∈ w.visible calls j ↔ row ∈ v.visible calls j := by
  rw [visible, visible, Finset.mem_union, Finset.mem_union, Finset.mem_sdiff, Finset.mem_sdiff,
    hsame.added, h.rows row hspace hlive]
  have hdoomed : row ∉ (w.opened calls j).doomed := fun hrow => hlive (hsame.doomed row hrow hspace)
  have hdoomed' : row ∉ (v.opened calls j).doomed :=
    fun hrow => hlive (hsame.doomed' row hrow hspace)
  simp only [hdoomed, hdoomed', not_false_eq_true, and_true]

theorem allowed (h : Twin calls space w v) (hw : Orderly hash calls w)
    (hv : Orderly hash calls v) (hj : (calls j).limiter.namespaceText = space)
    (hphase : w.phase j = .purged)
    (hsame : SameTransaction calls space w (w.opened calls j) (v.opened calls j)) :
    w.allowed calls j = v.allowed calls j := by
  have hphase' : v.phase j = .purged := by rw [← h.phases j hj, hphase]
  have hlocal := hw.localOf (i := j) (by rw [hphase]; trivial)
  have hlocal' := hv.localOf (i := j) (by rw [hphase']; trivial)
  have hnone : (w.opened calls j).added = ∅ := hlocal.unwritten (by rw [hphase]; simp)
  have hnone' : (v.opened calls j).added = ∅ := hlocal'.unwritten (by rw [hphase']; simp)
  have hrows : (w.visible calls j).filter (Matches calls j) =
      (v.visible calls j).filter (Matches calls j) := by
    ext row
    rw [Finset.mem_filter, Finset.mem_filter]
    refine and_congr_left ?_
    intro hmatches
    by_cases hold : row.observedAt < (w.opened calls j).stamp - (calls j).limiter.window
    · have hgone : row ∉ w.visible calls j := by
        rw [visible, hnone, Finset.union_empty, Finset.mem_sdiff]
        rintro ⟨hrow, hkept⟩
        exact hkept (hlocal.swept hphase row hrow hmatches hold)
      have hgone' : row ∉ v.visible calls j := by
        rw [hsame.stamp] at hold
        rw [visible, hnone', Finset.union_empty, Finset.mem_sdiff]
        rintro ⟨hrow, hkept⟩
        exact hkept (hlocal'.swept hphase' row hrow hmatches hold)
      exact iff_of_false hgone hgone'
    · refine h.visible_iff hsame (hmatches.1.trans hj) ?_
      intro hspent
      have hlt := hspent j hmatches (by rw [hphase]; trivial)
      rw [horizon_of_inFlight (by rw [hphase]; trivial)] at hlt
      exact hold hlt
  rw [RateWorld.allowed, RateWorld.allowed, hrows]

theorem proceed (h : Twin calls space w v) (hj : (calls j).limiter.namespaceText = space)
    {transaction transaction' : Option (RateTransaction ι)} {phase : AllowPhase}
    {rows rows' : Finset (RateHit ι)}
    (hspent : ∀ row : RateHit ι, w.Spent calls row →
      ({ w.proceed calls j transaction phase with rows := rows } : RateWorld ι κ).Spent calls row)
    (hsame : ∀ t' ∈ transaction', ∃ t ∈ transaction, SameTransaction calls space w t t')
    (hrows : ∀ row : RateHit ι, row.namespaceText = space → ¬ w.Spent calls row →
      (row ∈ rows ↔ row ∈ rows')) :
    Twin calls space { w.proceed calls j transaction phase with rows := rows }
      { v.proceed calls j transaction' phase with rows := rows' } := by
  constructor
  · exact h.clock
  · intro i hi
    change Function.update w.phase j phase i = Function.update v.phase j phase i
    by_cases hne : i = j
    · rw [hne, Function.update_self, Function.update_self]
    · rw [Function.update_of_ne hne, Function.update_of_ne hne, h.phases i hi]
  · intro i hi
    have hne : i ≠ j := by
      rintro rfl
      exact hi hj
    exact (Function.update_of_ne hne ..).trans (h.foreign i hi)
  · intro k t' ht'
    change t' ∈ Function.update v.session (calls j).connection transaction' k at ht'
    change ∃ t ∈ Function.update w.session (calls j).connection transaction k, _
    by_cases hk : k = (calls j).connection
    · rw [hk, Function.update_self] at ht' ⊢
      obtain ⟨t, ht, hsame⟩ := hsame t' ht'
      exact ⟨t, ht, hsame.mono hspent⟩
    · rw [Function.update_of_ne hk] at ht' ⊢
      obtain ⟨t, ht, hsame⟩ := h.sessions k t' ht'
      exact ⟨t, ht, hsame.mono hspent⟩
  · intro row hspace hlive
    exact hrows row hspace (fun hold => hlive (hspent row hold))

theorem tick (h : Twin calls space w v) (hw : Orderly hash calls w) {microseconds : ℕ} :
    Twin calls space (w.step hash calls (.tick microseconds))
      (v.step hash calls (.tick microseconds)) := by
  have hspent : ∀ row : RateHit ι, w.Spent calls row →
      (w.step hash calls (.tick microseconds)).Spent calls row := by
    intro row hrow
    have henabled : w.Enabled hash calls (.tick microseconds) := trivial
    have hturn : w.TakesTurns calls (.tick microseconds) := trivial
    exact hw.spent henabled hturn hrow
  constructor
  · exact congrArg (· + (microseconds : ℤ)) h.clock
  · exact h.phases
  · exact h.foreign
  · intro k t' ht'
    obtain ⟨t, ht, hsame⟩ := h.sessions k t' ht'
    exact ⟨t, ht, hsame.mono hspent⟩
  · intro row hspace hlive
    exact h.rows row hspace (fun hold => hlive (hspent row hold))

theorem skip (h : Twin calls space w v) (hj : (calls j).limiter.namespaceText = space)
    {allowed : Bool} {observedAt : ℤ}
    (hspent : ∀ row : RateHit ι, w.Spent calls row →
      ({ w with phase := Function.update w.phase j (.answered allowed observedAt) } :
        RateWorld ι κ).Spent calls row) :
    Twin calls space { w with phase := Function.update w.phase j (.answered allowed observedAt) }
      { v with phase := Function.update v.phase j (.answered allowed observedAt) } := by
  constructor
  · exact h.clock
  · intro i hi
    change Function.update w.phase j _ i = Function.update v.phase j _ i
    by_cases hne : i = j
    · rw [hne, Function.update_self, Function.update_self]
    · rw [Function.update_of_ne hne, Function.update_of_ne hne, h.phases i hi]
  · intro i hi
    have hne : i ≠ j := by
      rintro rfl
      exact hi hj
    exact (Function.update_of_ne hne ..).trans (h.foreign i hi)
  · intro k t' ht'
    obtain ⟨t, ht, hsame⟩ := h.sessions k t' ht'
    exact ⟨t, ht, hsame.mono hspent⟩
  · intro row hspace hlive
    exact h.rows row hspace (fun hold => hlive (hspent row hold))

-- a move of the namespace, made in both runs
theorem own (h : Twin calls space w v) (hw : Sound hash calls w) (hv : Orderly hash calls v)
    {move : AllowMove ι} (hmove : concerns calls space move = true)
    (henabled : w.Enabled hash calls move) (hrespects : w.Respectful calls move) :
    Twin calls space (w.step hash calls move) (v.step hash calls move) := by
  have hspent : ∀ row : RateHit ι, w.Spent calls row →
      (w.step hash calls move).Spent calls row :=
    fun row hrow => hw.orderly.spent henabled hrespects.1 hrow
  have hopened : ∀ j, move.call = some j →
      SameTransaction calls space w (w.opened calls j) (v.opened calls j) := by
    intro j hj
    rw [concerns, hj] at hmove
    exact h.opened hw.orderly hv (of_decide_eq_true hmove) (turn_of_enabled henabled hrespects.1 hj)
  cases move with
  | tick microseconds => exact h.tick hw.orderly
  | start j =>
      have hj := of_decide_eq_true hmove
      change Twin calls space (w.start calls j) (v.start calls j)
      change ∀ row : RateHit ι, w.Spent calls row → (w.start calls j).Spent calls row at hspent
      unfold start at hspent ⊢
      split
      · next hclient =>
          rw [if_pos hclient] at hspent
          have hskip := h.skip hj hspent
          rw [h.clock] at hskip ⊢
          exact hskip
      · next hclient =>
          rw [if_neg hclient] at hspent
          refine h.proceed hj hspent ?_ h.rows
          rintro t' ⟨⟩
          exact ⟨_, rfl, hopened j rfl⟩
  | lock j =>
      refine h.proceed (of_decide_eq_true hmove) hspent ?_ h.rows
      rintro t' ⟨⟩
      have hsame := hopened j rfl
      exact ⟨_, rfl, hsame.stamp, congrArg (insert (lockOf hash calls j)) hsame.locks, hsame.added,
        hsame.doomed, hsame.doomed'⟩
  | purge j =>
      have hj := of_decide_eq_true hmove
      refine h.proceed hj hspent ?_ h.rows
      rintro t' ⟨⟩
      have hsame := hopened j rfl
      refine ⟨_, rfl, hsame.stamp, hsame.locks, hsame.added, ?_, ?_⟩
      · intro row hrow hspace
        rcases Finset.mem_union.mp hrow with hrow | hrow
        · exact hsame.doomed row hrow hspace
        · exact hrespects.2 row hrow
      · intro row hrow hspace
        rcases Finset.mem_union.mp hrow with hrow | hrow
        · exact hsame.doomed' row hrow hspace
        · by_contra hlive
          obtain ⟨hrow, hold⟩ := Finset.mem_filter.mp hrow
          rw [cutoff, ← hsame.stamp] at hold
          exact hlive (hrespects.2 row
            (Finset.mem_filter.mpr ⟨(h.rows row hspace hlive).mpr hrow, hold⟩))
  | count j =>
      have hj := of_decide_eq_true hmove
      change Twin calls space (w.count calls j) (v.count calls j)
      rw [count, count, ← h.allowed hw.orderly hv hj henabled (hopened j rfl)]
      refine h.proceed hj hspent ?_ h.rows
      rintro t' ⟨⟩
      exact ⟨_, rfl, hopened j rfl⟩
  | insert j =>
      have hj := of_decide_eq_true hmove
      have hsame := hopened j rfl
      change Twin calls space (w.insertHit calls j) (v.insertHit calls j)
      rw [insertHit, insertHit, ← hsame.stamp, ← hsame.added]
      refine h.proceed hj hspent ?_ h.rows
      rintro t' ⟨⟩
      exact ⟨_, rfl, hsame.stamp, hsame.locks, rfl, hsame.doomed, hsame.doomed'⟩
  | commit j acknowledged =>
      have hj := of_decide_eq_true hmove
      change Twin calls space (w.commit calls j acknowledged) (v.commit calls j acknowledged)
      rw [commit, commit, ← h.phases j hj, ← h.clock]
      refine h.proceed hj hspent ?_ ?_
      · rintro t' ⟨⟩
      · intro row hspace hlive
        exact h.visible_iff (hopened j rfl) hspace hlive
  | fail j =>
      change Twin calls space (w.fail calls j) (v.fail calls j)
      rw [fail, fail, ← h.clock]
      refine h.proceed (of_decide_eq_true hmove) hspent ?_ h.rows
      rintro t' ⟨⟩

theorem clock_step {move : AllowMove ι} (hmove : move.call ≠ none) :
    (w.step hash calls move).clock = w.clock := by
  cases move with
  | tick microseconds => exact absurd rfl hmove
  | start j =>
      change (w.start calls j).clock = _
      unfold start
      split <;> rfl
  | _ => rfl

-- a move of another namespace, which the second run does not have
theorem other (h : Twin calls space w v) (hw : Sound hash calls w) (hv : Orderly hash calls v)
    {move : AllowMove ι} (hj : move.call = some j)
    (hforeign : (calls j).limiter.namespaceText ≠ space)
    (henabled : w.Enabled hash calls move) (hrespects : w.Respectful calls move) :
    Twin calls space (w.step hash calls move) v := by
  have hspent : ∀ row : RateHit ι, w.Spent calls row →
      (w.step hash calls move).Spent calls row :=
    fun row hrow => hw.orderly.spent henabled hrespects.1 hrow
  constructor
  · rw [clock_step (by rw [hj]; simp), h.clock]
  · intro i hi
    rw [phase_frame ?_, h.phases i hi]
    rintro hcall
    obtain rfl := Option.some.inj (hj.symm.trans hcall)
    exact hforeign hi
  · exact h.foreign
  · intro k t' ht'
    obtain ⟨i, rfl, hflight⟩ := hv.served k t' ht'
    obtain ⟨t, ht, hsame⟩ := h.sessions _ t' ht'
    refine ⟨t, ?_, hsame.mono hspent⟩
    refine Eq.trans (session_frame ?_) ht
    intro j' hj'
    refine hw.orderly.apart (turn_of_enabled henabled hrespects.1 hj') (h.inFlight hflight) ?_
    rintro rfl
    obtain rfl := Option.some.inj (hj.symm.trans hj')
    exact hforeign (h.inSpace hflight)
  · intro row hspace hlive
    have hheld : ¬ w.Spent calls row := fun hold => hlive (hspent row hold)
    rw [← h.rows row hspace hheld]
    by_cases hmove : ∃ j acknowledged, move = .commit j acknowledged
    · obtain ⟨j', acknowledged, rfl⟩ := hmove
      cases hj
      change row ∈ w.visible calls j ↔ _
      have hflight : (w.phase j).InFlight := (AllowPhase.Closes.holds henabled).inFlight
      have hlocal := hw.orderly.localOf hflight
      have hkept : row ∉ (w.opened calls j).doomed :=
        fun hdoomed => hheld (hw.kept.doomed j hflight row hdoomed)
      have hadded : row ∉ (w.opened calls j).added := by
        intro hrow
        by_cases hinserted : ∃ observedAt, w.phase j = .inserted observedAt
        · obtain ⟨observedAt, hphase⟩ := hinserted
          rw [(hlocal.written observedAt hphase).1, Finset.mem_singleton] at hrow
          rw [hrow] at hspace
          exact hforeign hspace
        · rw [hlocal.unwritten (fun observedAt hphase => hinserted ⟨observedAt, hphase⟩)] at hrow
          exact absurd hrow (Finset.notMem_empty row)
      rw [visible, Finset.mem_union, Finset.mem_sdiff]
      simp only [hkept, hadded, not_false_eq_true, and_true, or_false]
    · rw [rows_step (fun j acknowledged hcommit => hmove ⟨j, acknowledged, hcommit⟩)]

end Twin

section Runs

variable {moves : List (AllowMove ι)}

-- a run and the run of one namespace in it, kept side by side
structure Paired (hash : Str → ℤ) (calls : ι → AllowCall κ) (space : Str) (w v : RateWorld ι κ) :
    Prop where
  sound : Sound hash calls w
  orderly : Orderly hash calls v
  twin : Twin calls space w v

theorem paired_step (h : Paired hash calls space w v) {move : AllowMove ι}
    (henabled : w.Enabled hash calls move) (hrespects : w.Respectful calls move) :
    if concerns calls space move then
      v.Enabled hash calls move ∧
        Paired hash calls space (w.step hash calls move) (v.step hash calls move)
    else Paired hash calls space (w.step hash calls move) v := by
  split
  · next hmove =>
      have henabled' := h.twin.enabled hmove henabled
      exact ⟨henabled', h.sound.step henabled hrespects,
        h.orderly.step henabled' (h.twin.takesTurns hrespects.1),
        h.twin.own h.sound h.orderly hmove henabled hrespects⟩
  · next hmove =>
      cases hcall : move.call with
      | none =>
          rw [concerns, hcall] at hmove
          exact absurd rfl hmove
      | some j =>
          rw [concerns, hcall, Option.all_some, decide_eq_true_eq] at hmove
          exact ⟨h.sound.step henabled hrespects, h.orderly,
            h.twin.other h.sound h.orderly hcall hmove henabled hrespects⟩

theorem paired_run (h : Paired hash calls space w v)
    (henabled : Calls.Each (step hash calls) (Enabled hash calls) w moves)
    (hrespects : Calls.Each (step hash calls) (Respectful calls) w moves) :
    Calls.Each (step hash calls) (Enabled hash calls) v (alone calls space moves) ∧
      Paired hash calls space (Calls.run (step hash calls) w moves)
        (Calls.run (step hash calls) v (alone calls space moves)) := by
  induction moves generalizing w v with
  | nil => exact ⟨trivial, h⟩
  | cons move moves ih =>
      have hstep := paired_step h henabled.1 hrespects.1
      rw [alone, List.filter_cons]
      split
      · next hmove =>
          rw [if_pos hmove] at hstep
          obtain ⟨hfirst, hpaired⟩ := hstep
          obtain ⟨hrest, hend⟩ := ih hpaired henabled.2 hrespects.2
          exact ⟨⟨hfirst, hrest⟩, hend⟩
      · next hmove =>
          rw [if_neg hmove] at hstep
          exact ih hstep henabled.2 hrespects.2

theorem Twin.answer (h : Twin calls space w v)
    (hi : (calls i).limiter.namespaceText = space) : w.answer i = v.answer i := by
  rw [RateWorld.answer, RateWorld.answer, h.phases i hi]

-- the calls of a namespace are answered as in the run that has no others
def Isolated (hash : Str → ℤ) (calls : ι → AllowCall κ) (moves : List (AllowMove ι)) : Prop :=
  ∀ space, Calls.Each (step hash calls) (Enabled hash calls) {} (alone calls space moves) ∧
    ∀ i, (calls i).limiter.namespaceText = space →
      (Calls.run (step hash calls) {} moves).answer i =
        (Calls.run (step hash calls) {} (alone calls space moves)).answer i

-- no client gets more permits of a limiter in a window than its limit
def Limited (calls : ι → AllowCall κ) (w : RateWorld ι κ) : Prop :=
  ∀ limiter client since (permits : Finset ι),
    (∀ i ∈ permits, (calls i).limiter = limiter ∧ (calls i).client = client ∧ ∃ observedAt,
      w.phase i = .answered true observedAt ∧ since ≤ observedAt ∧
        observedAt ≤ since + limiter.window) →
      (permits.card : ℤ) ≤ limiter.limit

theorem Bounded.limited (h : Bounded calls w) : Limited calls w := by
  intro limiter client since permits hpermits
  apply h limiter client since permits
  intro i hi
  obtain ⟨hlimiter, hclient, observedAt, hanswered, hwindow⟩ := hpermits i hi
  exact ⟨hlimiter, hclient, observedAt, .answered hanswered, hwindow⟩

theorem limiters_isolated (henabled : Calls.Each (step hash calls) (Enabled hash calls) {} moves)
    (hrespects : Calls.Each (step hash calls) (Respectful calls) {} moves) :
    Isolated hash calls moves ∧ Limited calls (Calls.run (step hash calls) {} moves) := by
  have hpaired : ∀ space, Paired hash calls space ({} : RateWorld ι κ) {} :=
    fun _ => ⟨sound_init, orderly_init, twin_init⟩
  constructor
  · intro space
    obtain ⟨hrun, hend⟩ := paired_run (hpaired space) henabled hrespects
    exact ⟨hrun, fun i hi => hend.twin.answer hi⟩
  · obtain ⟨-, hend⟩ := paired_run (hpaired []) henabled hrespects
    exact hend.sound.bounded.limited

end Runs

section Demo

instance [Fintype ι] (row : RateHit ι) : Decidable (w.Spent calls row) :=
  inferInstanceAs (Decidable (∀ i, Matches calls i row → (w.phase i).Undecided → _ < _))

instance [Fintype κ] : ∀ move, Decidable (w.Enabled hash calls move)
  | .tick _ => .isTrue trivial
  | .start _ => inferInstanceAs (Decidable (_ = _))
  | .lock _ => inferInstanceAs (Decidable (_ ∧ ∀ k, k ≠ _ → ∀ transaction ∈ w.session k, _))
  | .purge _ => inferInstanceAs (Decidable (_ = _))
  | .count _ => inferInstanceAs (Decidable (_ = _))
  | .insert _ => inferInstanceAs (Decidable (_ = _))
  | .commit i _ => inferInstanceAs (Decidable (w.phase i).Closes)
  | .fail i => inferInstanceAs (Decidable (w.phase i).InFlight)

instance [Fintype ι] : ∀ move, Decidable (w.TakesTurns calls move)
  | .start _ => inferInstanceAs (Decidable (∀ j, _ = _ → ¬ (w.phase j).InFlight))
  | .tick _ => .isTrue trivial
  | .lock _ => .isTrue trivial
  | .purge _ => .isTrue trivial
  | .count _ => .isTrue trivial
  | .insert _ => .isTrue trivial
  | .commit _ _ => .isTrue trivial
  | .fail _ => .isTrue trivial

instance [Fintype ι] : ∀ move, Decidable (w.SparesWindows calls move)
  | .purge i => inferInstanceAs (Decidable (∀ row ∈ w.expired calls i, w.Spent calls row))
  | .tick _ => .isTrue trivial
  | .start _ => .isTrue trivial
  | .lock _ => .isTrue trivial
  | .count _ => .isTrue trivial
  | .insert _ => .isTrue trivial
  | .commit _ _ => .isTrue trivial
  | .fail _ => .isTrue trivial

instance [Fintype ι] (move : AllowMove ι) : Decidable (w.Respectful calls move) :=
  inferInstanceAs (Decidable (_ ∧ _))

theorem wide_window_pos : (0 : ℤ) < 100 := by decide

def wideLimiter : PostgresRateLimiter where
  limit := 1
  windowSeconds := 100
  namespaceText := "http"
  limit_pos := Int.one_pos
  windowSeconds_pos := wide_window_pos
  namespaceText_ne := List.cons_ne_nil _ _

def narrowLimiter : PostgresRateLimiter where
  limit := 1
  windowSeconds := 1
  namespaceText := "worker"
  limit_pos := Int.one_pos
  windowSeconds_pos := Int.one_pos
  namespaceText_ne := List.cons_ne_nil _ _

-- two calls at the wide limiter, and one at the narrow one, each on a connection of its own
def demoCalls (i : Fin 3) : AllowCall (Fin 3) :=
  { limiter := if i = 1 then narrowLimiter else wideLimiter, connection := i, client := "c" }

def demoHash (text : Str) : ℤ := text.length

def permit (i : Fin 3) : List (AllowMove (Fin 3)) :=
  [.start i, .lock i, .purge i, .count i, .insert i, .commit i true]

def deny (i : Fin 3) : List (AllowMove (Fin 3)) :=
  [.start i, .lock i, .purge i, .count i, .commit i true]

-- the narrow limiter is called while the hit of the wide one is in its own window too
def respectfulRun : List (AllowMove (Fin 3)) :=
  permit 0 ++ .tick 500000 :: permit 1 ++ deny 2

theorem limiters_isolated_demo : Isolated demoHash demoCalls respectfulRun ∧
    Limited demoCalls (Calls.run (step demoHash demoCalls) {} respectfulRun) :=
  limiters_isolated (by decide +kernel) (by decide +kernel)

-- the narrow limiter is called after its own window, within that of the wide one
def forgetfulRun : List (AllowMove (Fin 3)) :=
  permit 0 ++ .tick 50000000 :: permit 1 ++ permit 2

theorem window_forgotten : ¬ ∀ (hash : Str → ℤ) (calls : Fin 3 → AllowCall (Fin 3)) moves,
    Calls.Each (step hash calls) (Enabled hash calls) {} moves →
      Isolated hash calls moves ∧ Limited calls (Calls.run (step hash calls) {} moves) := by
  intro h
  obtain ⟨-, hlimited⟩ := h demoHash demoCalls forgetfulRun (by decide +kernel)
  have htwo := hlimited wideLimiter (lit "c") 0 {0, 2} ?_
  · exact absurd htwo (by decide)
  · intro i hi
    rcases Finset.mem_insert.mp hi with rfl | hi
    · exact ⟨rfl, rfl, 0, by decide +kernel, by decide, by decide⟩
    · obtain rfl := Finset.mem_singleton.mp hi
      exact ⟨rfl, rfl, 50000000, by decide +kernel, by decide, by decide⟩

end Demo

end RateWorld

end GovernedAutonomy
