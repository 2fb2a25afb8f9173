import GovernedAutonomy.Evidence
import GovernedAutonomy.Protocol.Groups
import GovernedAutonomy.Python.Lookup
import Mathlib.Data.Prod.Lex

namespace GovernedAutonomy

open Python Protocol

namespace GovernanceInput

variable {P : Primitives} {a b : GovernanceInput}

-- two inputs that carry one and the same canonical decision
def SameDecision (P : Primitives) (a b : GovernanceInput) : Prop :=
  ∃ bytes, canonicalJson P (.dict a.decision) = .ok bytes ∧
    canonicalJson P (.dict b.decision) = .ok bytes

-- reasons, where present, are a list of strings
def ReasonsListed (item : GovernanceInput) : Prop :=
  ∀ value, item.decision.get "reasons" = some value → ∃ reasons, value = strList reasons

theorem sameDecision_iff (hsha : Function.Injective P.sha256) {d e : Str}
    (ha : a.digest P = .ok d) (hb : b.digest P = .ok e) : SameDecision P a b ↔ d = e := by
  obtain ⟨bytes, hbytes, had⟩ := bind_eq_ok.mp ha
  obtain ⟨bytes', hbytes', hbe⟩ := bind_eq_ok.mp hb
  obtain rfl := Except.ok.inj had
  obtain rfl := Except.ok.inj hbe
  constructor
  · rintro ⟨both, hleft, hright⟩
    rw [hbytes] at hleft
    rw [hbytes'] at hright
    rw [Except.ok.inj hleft, Except.ok.inj hright]
  · intro h
    obtain rfl := hexdigest_injective hsha h
    exact ⟨bytes, hbytes, hbytes'⟩

theorem sameDecision_tree (h : SameDecision P a b) : ∃ t,
    (PyVal.dict a.decision).toTree P.recursionLimit = .ok t ∧
      (PyVal.dict b.decision).toTree P.recursionLimit = .ok t := by
  obtain ⟨bytes, ha, hb⟩ := h
  obtain ⟨t, ht, -⟩ := (canonicalJson_eq_ok P).mp ha
  obtain ⟨u, hu, -⟩ := (canonicalJson_eq_ok P).mp hb
  obtain rfl := canonicalJson_injective P ht hu ha hb
  exact ⟨t, ht, hu⟩

theorem SameDecision.encodable (h : SameDecision P a b) :
    (PyVal.dict a.decision).Encodable P.recursionLimit := by
  obtain ⟨bytes, ha, -⟩ := h
  exact (canonicalJson_isOk P).mp ⟨bytes, ha⟩

theorem has_allow (item : GovernanceInput) : item.decision.has "allow" = true := by
  rw [PyDict.has, item.decided]
  rfl

theorem SameDecision.get (h : SameDecision P a b) (name : Str) :
    (a.decision.get name = none ∧ b.decision.get name = none) ∨ ∃ v w,
      a.decision.get name = some v ∧ b.decision.get name = some w ∧
        v.toTree (P.recursionLimit - 1) = w.toTree (P.recursionLimit - 1) := by
  obtain ⟨t, ha, hb⟩ := sameDecision_tree h
  exact PyVal.get_of_same_tree a.has_allow b.has_allow ha hb name

theorem SameDecision.symm (h : SameDecision P a b) : SameDecision P b a := by
  obtain ⟨bytes, ha, hb⟩ := h
  exact ⟨bytes, hb, ha⟩

theorem SameDecision.trans {c : GovernanceInput} (h : SameDecision P a b)
    (h' : SameDecision P b c) : SameDecision P a c := by
  obtain ⟨bytes, ha, hb⟩ := h
  obtain ⟨bytes', hb', hc⟩ := h'
  obtain rfl := Except.ok.inj (hb.symm.trans hb')
  exact ⟨bytes, ha, hc⟩

theorem SameDecision.allow (h : SameDecision P a b) : a.allow = b.allow := by
  rcases h.get "allow" with ⟨hnone, -⟩ | ⟨v, w, hv, hw, htree⟩
  · rw [a.decided] at hnone
    cases hnone
  · rw [a.decided] at hv
    rw [b.decided] at hw
    obtain rfl := Option.some.inj hv
    obtain rfl := Option.some.inj hw
    simpa [PyVal.toTree] using htree

end GovernanceInput

namespace GovernanceMesh

variable {P : Primitives} {mesh : GovernanceMesh}

section Reasons

theorem strAll_strs (reasons : List Str) : strAll P (reasons.map .str) = .ok reasons := by
  induction reasons with
  | nil => rfl
  | cons reason reasons ih =>
      rw [List.map_cons, strAll, ih]
      rfl

theorem reasonsOf_strList {decision : PyDict} {reasons : List Str}
    (h : decision.get "reasons" = some (strList reasons)) :
    reasonsOf P decision = .ok reasons := by
  rw [reasonsOf, h]
  exact strAll_strs reasons

theorem reasonsOf_none {decision : PyDict} (h : decision.get "reasons" = none) :
    reasonsOf P decision = .ok [] := by
  rw [reasonsOf, h]
  rfl

theorem toTreeItems_strs (depth : Nat) (reasons : List Str) :
    PyVal.toTreeItems depth (reasons.map .str) = .ok (reasons.map .str) := by
  induction reasons with
  | nil => rfl
  | cons reason reasons ih =>
      simp only [List.map_cons, PyVal.toTreeItems, PyVal.toTree, ih]
      rfl

theorem strList_inj {depth : Nat} {reasons reasons' : List Str} {t : Json}
    (h : (strList reasons).toTree depth = .ok t) (h' : (strList reasons').toTree depth = .ok t) :
    reasons = reasons' := by
  cases depth with
  | zero => simp [strList, PyVal.toTree] at h
  | succ depth =>
      simp only [strList, PyVal.toTree, toTreeItems_strs, bind, Except.bind] at h h'
      have hitems := Json.arr.inj ((Except.ok.inj h).trans (Except.ok.inj h').symm)
      exact List.map_injective_iff.mpr (fun _ _ hs => Json.str.inj hs) hitems

end Reasons

section Rating

variable (P) in
def rate (item : GovernanceInput) : Rated := (item, (item.digest P).toOption.getD [])

theorem rateAll_eq_ok {inputs : List GovernanceInput} {rated : List Rated} :
    rateAll P inputs = .ok rated ↔
      (∀ item ∈ inputs, item.digest P = .ok (rate P item).2) ∧ rated = inputs.map (rate P) := by
  induction inputs generalizing rated with
  | nil => simp [rateAll, eq_comm]
  | cons item items ih =>
      simp only [rateAll, bind_eq_ok, ih, List.forall_mem_cons, List.map_cons]
      constructor
      · rintro ⟨digest, hdigest, rest, ⟨hrest, rfl⟩, h⟩
        obtain rfl := Except.ok.inj h
        have hrate : rate P item = (item, digest) := by rw [rate, hdigest]; rfl
        exact ⟨⟨by rw [hrate]; exact hdigest, hrest⟩, by rw [hrate]⟩
      · rintro ⟨⟨hdigest, hrest⟩, rfl⟩
        exact ⟨_, hdigest, _, ⟨hrest, rfl⟩, rfl⟩

end Rating

section Ranking

variable {rated : List Rated}

def carrying (rated : List Rated) (digest : Str) : List Rated :=
  rated.filter (fun item => item.2 = digest)

theorem members_eq_carrying (rated : List Rated) (digest : Str) :
    Groups.members Prod.snd rated digest = carrying rated digest := by
  rw [Groups.members, carrying]
  congr 1

theorem mem_groupsOf {group : Str × List Rated} (h : group ∈ groupsOf rated) :
    group.2 = carrying rated group.1 ∧ group.2 ≠ [] := by
  rw [← members_eq_carrying]
  exact Groups.mem_groupBy h (by simp)

theorem group_mem {item : Rated} (h : item ∈ rated) :
    (item.2, carrying rated item.2) ∈ groupsOf rated := by
  obtain ⟨⟨digest, members⟩, hgroup, hsame⟩ := Groups.exists_group (f := Prod.snd) h (by simp)
  rw [same_list, decide_eq_true_eq] at hsame
  obtain rfl : digest = item.2 := hsame
  obtain rfl : members = carrying rated item.2 := (mem_groupsOf hgroup).1
  exact hgroup

theorem groupsOf_ne_nil (h : rated ≠ []) : groupsOf rated ≠ [] := by
  obtain ⟨item, hitem⟩ := List.exists_mem_of_ne_nil rated h
  exact List.ne_nil_of_mem (group_mem hitem)

theorem le_topPriority {item : Rated} (h : item ∈ rated) : item.1.priority ≤ topPriority rated :=
  le_foldl_max (fun item : Rated => item.1.priority) h

theorem exists_topPriority (h : rated ≠ []) : ∃ item ∈ rated, item.1.priority = topPriority rated :=
  foldl_max_mem (fun item : Rated => item.1.priority) 0 h fun item _ => item.1.priorityNonneg

theorem topPriority_perm {other : List Rated} (h : rated.Perm other) :
    topPriority rated = topPriority other := by
  have hle : ∀ {xs ys : List Rated}, xs.Perm ys → topPriority xs ≤ topPriority ys := fun hperm =>
    (foldl_max_le _).mpr ⟨((foldl_max_le _).mp le_rfl).1, fun item hitem =>
      le_topPriority (hperm.mem_iff.mp hitem)⟩
  exact le_antisymm (hle h) (hle h.symm)

-- the sort key of preflight as a tuple
def rankKey (group : Str × List Rated) : ℤ ×ₗ ℤ ×ₗ Str :=
  toLex (-topPriority group.2, toLex (-weightOf group.2, group.1))

theorem ranksBefore_iff (a b : Str × List Rated) :
    ranksBefore a b = true ↔ rankKey a ≤ rankKey b := by
  simp only [ranksBefore, rankKey, Prod.Lex.toLex_le_toLex, Bool.or_eq_true, Bool.and_eq_true,
    decide_eq_true_eq, neg_lt_neg_iff, neg_inj]

theorem winner?_eq_some {group : Str × List Rated} (h : winner? rated = some group) :
    group ∈ groupsOf rated ∧ ∀ other ∈ groupsOf rated, rankKey group ≤ rankKey other :=
  head?_insertionSort rankKey ranksBefore_iff h

theorem exists_winner (h : rated ≠ []) : ∃ group, winner? rated = some group :=
  head?_insertionSort_isSome (groupsOf_ne_nil h)

-- the winning group holds an input of the highest priority
theorem winner_top {group : Str × List Rated} (h : winner? rated = some group) :
    ∃ item ∈ rated, item.2 = group.1 ∧ item.1.priority = topPriority rated := by
  obtain ⟨hgroup, hbest⟩ := winner?_eq_some h
  obtain ⟨hmembers, hne⟩ := mem_groupsOf hgroup
  have hrated : rated ≠ [] := by
    rintro rfl
    cases hgroup
  obtain ⟨top, htop, hpriority⟩ := exists_topPriority hrated
  have hle : topPriority (carrying rated top.2) ≤ topPriority group.2 := by
    have hkey := hbest _ (group_mem htop)
    rw [rankKey, rankKey, Prod.Lex.toLex_le_toLex] at hkey
    rcases hkey with hlt | ⟨heq, -⟩
    · exact le_of_lt (neg_lt_neg_iff.mp hlt)
    · exact (neg_inj.mp heq).ge
  obtain ⟨item, hitem, hitemTop⟩ := exists_topPriority hne
  rw [hmembers] at hitem
  obtain ⟨hmem, hdigest⟩ := List.mem_filter.mp hitem
  have htopMem : top.1.priority ≤ topPriority (carrying rated top.2) :=
    le_topPriority (List.mem_filter.mpr ⟨htop, by simp⟩)
  refine ⟨item, hmem, of_decide_eq_true hdigest, le_antisymm (le_topPriority hmem) ?_⟩
  rw [hitemTop, ← hpriority]
  exact le_trans htopMem hle

def topInputs (rated : List Rated) : List Rated :=
  rated.filter (fun item => item.1.priority = topPriority rated)

-- two inputs of the highest priority differ
def Contested (rated : List Rated) : Prop :=
  ∃ a ∈ topInputs rated, ∃ b ∈ topInputs rated, a.2 ≠ b.2

theorem contested_iff : 1 < ((topInputs rated).map Prod.snd).dedup.length ↔ Contested rated := by
  rw [one_lt_length_dedup]
  simp only [List.mem_map, exists_exists_and_eq_and, Contested]

def conflicted : Outcome :=
  ⟨false, "conflict",
    [lit "highest-priority governance sources provide conflicting decisions"], none, []⟩

-- the outcome that the group of a lead gives, with the reasons of the lead
def ledBy (rated : List Rated) (lead : Rated) (reasons : List Str) : Outcome :=
  ⟨lead.1.allow, if lead.1.allow then "allow" else "deny", reasons, some lead.2,
    sortedStrs ((carrying rated lead.2).map (fun item => item.1.sourceId))⟩

theorem outcomeOf_contested (hne : rated ≠ []) (h : Contested rated) :
    outcomeOf P rated = .ok conflicted := by
  obtain ⟨⟨digest, members⟩, hwinner⟩ := exists_winner hne
  obtain ⟨hmembers, hsome⟩ := mem_groupsOf (winner?_eq_some hwinner).1
  cases members with
  | nil => exact absurd rfl hsome
  | cons lead members =>
      simp only [outcomeOf, hwinner]
      exact if_pos (contested_iff.mpr h)

theorem outcomeOf_uncontested (hne : rated ≠ []) (h : ¬ Contested rated) :
    ∃ lead ∈ rated, (∃ members, winner? rated = some (lead.2, lead :: members)) ∧
      (∀ item ∈ topInputs rated, item.2 = lead.2) ∧
        outcomeOf P rated = (reasonsOf P lead.1.decision).map (ledBy rated lead) := by
  obtain ⟨⟨digest, members⟩, hwinner⟩ := exists_winner hne
  obtain ⟨hmembers, hsome⟩ := mem_groupsOf (winner?_eq_some hwinner).1
  obtain ⟨item, hitem, hdigest, htop⟩ := winner_top hwinner
  cases members with
  | nil => exact absurd rfl hsome
  | cons lead members =>
      have hlead : lead ∈ carrying rated digest := hmembers ▸ List.mem_cons_self
      obtain ⟨hmem, hcarries⟩ := List.mem_filter.mp hlead
      obtain rfl : lead.2 = digest := of_decide_eq_true hcarries
      have hitemTop : item ∈ topInputs rated := List.mem_filter.mpr ⟨hitem, by simp [htop]⟩
      refine ⟨lead, hmem, ⟨members, hwinner⟩, ?_, ?_⟩
      · intro other hother
        by_contra hne
        exact h ⟨other, hother, item, hitemTop, hdigest ▸ hne⟩
      · have hquiet : ¬ 1 < ((rated.filter (fun item => item.1.priority =
            topPriority rated)).map Prod.snd).dedup.length := fun hlength =>
          h (contested_iff.mp hlength)
        simp only [outcomeOf, hwinner, if_neg hquiet]
        cases reasonsOf P lead.1.decision with
        | error e => rfl
        | ok reasons =>
            rw [Except.map, ledBy, ← hmembers]
            rfl

end Ranking

section Verdict

variable {inputs inputs' : List GovernanceInput} {item : GovernanceInput}

-- an input of maximal priority
def IsTop (inputs : List GovernanceInput) (item : GovernanceInput) : Prop :=
  item ∈ inputs ∧ ∀ other ∈ inputs, other.priority ≤ item.priority

variable (P) in
-- the inputs whose canonical decision is that of an item
def carriers (inputs : List GovernanceInput) (item : GovernanceInput) : List GovernanceInput :=
  inputs.filter (fun other => (rate P other).2 = (rate P item).2)

variable (P) in
inductive Verdict (inputs : List GovernanceInput) (decision : GovernancePreflightDecision) : Prop
  | conflict {a b : GovernanceInput} (left : IsTop inputs a) (right : IsTop inputs b)
      (differ : ¬ GovernanceInput.SameDecision P a b) (allow : decision.allow = false)
      (status : decision.status = "conflict") (selectedDigest : decision.selectedDigest = none)
      (selectedSourceIds : decision.selectedSourceIds = [])
  | ruled {top : GovernanceInput} (highest : IsTop inputs top)
      (unanimous : ∀ other, IsTop inputs other → GovernanceInput.SameDecision P other top)
      (allow : decision.allow = top.allow)
      (status : decision.status = if top.allow then "allow" else "deny")
      (selectedDigest : decision.selectedDigest = some (rate P top).2)
      (selectedSourceIds : decision.selectedSourceIds =
        sortedStrs ((carriers P inputs top).map GovernanceInput.sourceId))

theorem mem_topInputs {rated : Rated} :
    rated ∈ topInputs (inputs.map (rate P)) ↔ ∃ item, IsTop inputs item ∧ rate P item = rated := by
  rw [topInputs, List.mem_filter, decide_eq_true_eq]
  constructor
  · rintro ⟨hmem, htop⟩
    obtain ⟨item, hitem, rfl⟩ := List.mem_map.mp hmem
    refine ⟨item, ⟨hitem, fun other hother => ?_⟩, rfl⟩
    have hle : other.priority ≤ topPriority (inputs.map (rate P)) :=
      le_topPriority (List.mem_map.mpr ⟨other, hother, rfl⟩)
    exact le_of_le_of_eq hle htop.symm
  · rintro ⟨item, ⟨hitem, hhighest⟩, rfl⟩
    have hmem : rate P item ∈ inputs.map (rate P) := List.mem_map.mpr ⟨item, hitem, rfl⟩
    obtain ⟨top, htop, hpriority⟩ := exists_topPriority (List.ne_nil_of_mem hmem)
    obtain ⟨other, hother, rfl⟩ := List.mem_map.mp htop
    exact ⟨hmem, le_antisymm (le_topPriority hmem) (hpriority ▸ hhighest other hother)⟩

theorem exists_isTop (h : inputs ≠ []) : ∃ item, IsTop inputs item := by
  obtain ⟨item, hitem, htop⟩ := foldl_max_mem GovernanceInput.priority 0 h
    fun item _ => item.priorityNonneg
  refine ⟨item, hitem, fun other hother => ?_⟩
  rw [htop]
  exact le_foldl_max GovernanceInput.priority hother

theorem carriers_carrying :
    (carrying (inputs.map (rate P)) (rate P item).2).map (fun rated => rated.1.sourceId) =
      (carriers P inputs item).map GovernanceInput.sourceId := by
  rw [carrying, List.filter_map, List.map_map]
  rfl

section Digests

variable (hdigests : ∀ item ∈ inputs, item.digest P = .ok (rate P item).2)

include hdigests

theorem sameDecision_rate (hsha : Function.Injective P.sha256) {a b : GovernanceInput}
    (ha : a ∈ inputs) (hb : b ∈ inputs) :
    GovernanceInput.SameDecision P a b ↔ (rate P a).2 = (rate P b).2 :=
  GovernanceInput.sameDecision_iff hsha (hdigests a ha) (hdigests b hb)

theorem outcomeOf_cases (hsha : Function.Injective P.sha256) (hne : inputs ≠ []) :
    (∃ a b, IsTop inputs a ∧ IsTop inputs b ∧ ¬ GovernanceInput.SameDecision P a b ∧
      outcomeOf P (inputs.map (rate P)) = .ok conflicted) ∨
    ∃ lead ∈ inputs, (∀ item, IsTop inputs item → GovernanceInput.SameDecision P item lead) ∧
      outcomeOf P (inputs.map (rate P)) = (reasonsOf P lead.decision).map
        (ledBy (inputs.map (rate P)) (rate P lead)) := by
  have hrated : inputs.map (rate P) ≠ [] := by rwa [ne_eq, List.map_eq_nil_iff]
  by_cases hcontested : Contested (inputs.map (rate P))
  · left
    obtain ⟨a, ha, b, hb, hab⟩ := hcontested
    obtain ⟨x, hx, rfl⟩ := mem_topInputs.mp ha
    obtain ⟨y, hy, rfl⟩ := mem_topInputs.mp hb
    exact ⟨x, y, hx, hy, fun hsame => hab ((sameDecision_rate hdigests hsha hx.1 hy.1).mp hsame),
      outcomeOf_contested hrated ⟨_, ha, _, hb, hab⟩⟩
  · right
    obtain ⟨rated, hmem, -, htops, houtcome⟩ := outcomeOf_uncontested (P := P) hrated hcontested
    obtain ⟨lead, hlead, rfl⟩ := List.mem_map.mp hmem
    refine ⟨lead, hlead, fun item hitem => ?_, houtcome⟩
    exact (sameDecision_rate hdigests hsha hitem.1 hlead).mpr
      (htops _ (mem_topInputs.mpr ⟨item, hitem, rfl⟩))

end Digests

structure Evaluated (P : Primitives) (inputs : List GovernanceInput) (requestDigest : Str)
    (replayFrameRef : Option Str) (preflight : Preflight) (outcome : Outcome) : Prop where
  digests : ∀ item ∈ inputs, item.digest P = .ok (rate P item).2
  nonempty : inputs ≠ []
  distinct : (inputs.map GovernanceInput.sourceId).Nodup
  agreed : outcomeOf P (inputs.map (rate P)) = .ok outcome
  unsigned : preflight.unsigned = unsignedDict requestDigest replayFrameRef outcome
    ((bySource (inputs.map (rate P))).map (fun item => (item.1.sourceId, item.2)))
    (conflictsOf (topPriority (inputs.map (rate P))) (topInputs (inputs.map (rate P))))
  digest : canonicalDigest P (.dict preflight.unsigned) = .ok preflight.decision.digest
  decision : preflight.decision =
    { allow := outcome.allow, status := outcome.status, selectedDigest := outcome.selectedDigest
      selectedSourceIds := outcome.selectedSourceIds
      inputDigests := (bySource (inputs.map (rate P))).map (fun item => (item.1.sourceId, item.2))
      conflicts :=
        conflictsOf (topPriority (inputs.map (rate P))) (topInputs (inputs.map (rate P)))
      reasons := outcome.reasons, digest := preflight.decision.digest
      replayFrameRef := replayFrameRef }

theorem evaluate_eq_ok {requestDigest : Str} {replayFrameRef : Option Str} {preflight : Preflight} :
    mesh.evaluate P inputs requestDigest replayFrameRef = .ok preflight ↔
      requestDigest ≠ [] ∧ (∀ item ∈ inputs, mesh.verifySourceAttestation P item = .ok ()) ∧
        ∃ outcome, Evaluated P inputs requestDigest replayFrameRef preflight outcome := by
  simp only [evaluate, bind_eq_ok, raiseIf_eq_ok, not_not]
  constructor
  · rintro ⟨-, hdigest, -, hne, u, hattested, -, hnodup, rated, hrated, outcome, houtcome, digest,
      hcanonical, h⟩
    obtain ⟨hdigests, rfl⟩ := rateAll_eq_ok.mp hrated
    obtain rfl := Except.ok.inj h
    exact ⟨hdigest, forM_eq_ok.mp hattested, outcome, hdigests, hne, hnodup, houtcome, rfl,
      hcanonical, rfl⟩
  · rintro ⟨hdigest, hattested, outcome, h⟩
    refine ⟨(), hdigest, (), h.nonempty, (), forM_eq_ok.mpr hattested, (), h.distinct, _,
      rateAll_eq_ok.mpr ⟨h.digests, rfl⟩, outcome, h.agreed, preflight.decision.digest, ?_, ?_⟩
    · exact h.unsigned ▸ h.digest
    · obtain ⟨decision, unsigned⟩ := preflight
      exact congrArg Except.ok (congrArg₂ Preflight.mk h.decision.symm h.unsigned.symm)

theorem verdict_of_evaluate (hsha : Function.Injective P.sha256) {requestDigest : Str}
    {replayFrameRef : Option Str} {preflight : Preflight}
    (h : mesh.evaluate P inputs requestDigest replayFrameRef = .ok preflight) :
    Verdict P inputs preflight.decision := by
  obtain ⟨-, -, outcome, h⟩ := evaluate_eq_ok.mp h
  rcases outcomeOf_cases h.digests hsha h.nonempty with ⟨a, b, ha, hb, hne, hconflict⟩ |
    ⟨lead, hlead, htops, hled⟩
  · obtain rfl := Except.ok.inj (h.agreed.symm.trans hconflict)
    rw [h.decision]
    exact .conflict ha hb hne rfl rfl rfl rfl
  · obtain ⟨reasons, -, hreasons⟩ := map_eq_ok.mp (hled.symm.trans h.agreed)
    subst hreasons
    obtain ⟨top, htop⟩ := exists_isTop h.nonempty
    have hsame := htops top htop
    have hrate : (rate P top).2 = (rate P lead).2 :=
      (sameDecision_rate h.digests hsha htop.1 hlead).mp hsame
    have hallow : lead.allow = top.allow := hsame.allow.symm
    rw [h.decision]
    refine .ruled htop ?_ hallow ?_ ?_ ?_
    · intro other hother
      rw [sameDecision_rate h.digests hsha hother.1 htop.1, hrate]
      exact (sameDecision_rate h.digests hsha hother.1 hlead).mp (htops other hother)
    · exact congrArg (fun allow : Bool => if allow then "allow" else "deny") hallow
    · exact congrArg some hrate.symm
    · rw [← carriers_carrying, hrate]
      rfl

end Verdict

section Permutation

variable {inputs inputs' : List GovernanceInput}

theorem reasonsOf_sameDecision {a b : GovernanceInput} (h : GovernanceInput.SameDecision P a b)
    (ha : a.ReasonsListed) (hb : b.ReasonsListed) :
    reasonsOf P a.decision = reasonsOf P b.decision := by
  rcases h.get "reasons" with ⟨hnone, hnone'⟩ | ⟨v, w, hv, hw, htree⟩
  · rw [reasonsOf_none hnone, reasonsOf_none hnone']
  · obtain ⟨reasons, rfl⟩ := ha v hv
    obtain ⟨reasons', rfl⟩ := hb w hw
    obtain ⟨u, hu, -⟩ := PyVal.Encodable.of_get (h.encodable) hv
    rw [reasonsOf_strList hv, reasonsOf_strList hw, strList_inj hu (htree ▸ hu)]

theorem isTop_perm (hperm : inputs.Perm inputs') {item : GovernanceInput} :
    IsTop inputs item ↔ IsTop inputs' item := by
  rw [IsTop, IsTop, hperm.mem_iff]
  exact and_congr_right' (forall_congr' fun other => by rw [hperm.mem_iff])

theorem sortedStrs_perm {xs ys : List Str} (hperm : xs.Perm ys) : sortedStrs xs = sortedStrs ys :=
  insertionSort_perm id (fun _ _ => Iff.rfl) hperm fun _ _ _ _ h => h

theorem carriers_perm (hperm : inputs.Perm inputs') {a b : GovernanceInput}
    (h : (rate P a).2 = (rate P b).2) : (carriers P inputs a).Perm (carriers P inputs' b) := by
  rw [carriers, carriers, h]
  exact hperm.filter _

theorem bySource_perm {rated rated' : List Rated} (hperm : rated.Perm rated')
    (hdistinct : (rated.map (fun item => item.1.sourceId)).Nodup) :
    bySource rated = bySource rated' :=
  insertionSort_perm (fun item : Rated => item.1.sourceId) (fun _ _ => Iff.rfl) hperm
    fun _ ha _ hb h => List.inj_on_of_nodup_map hdistinct ha hb h

theorem ledBy_perm (hsha : Function.Injective P.sha256) (hperm : inputs.Perm inputs')
    (hdigests : ∀ item ∈ inputs, item.digest P = .ok (rate P item).2) {a b : GovernanceInput}
    (ha : a ∈ inputs) (hb : b ∈ inputs) (h : GovernanceInput.SameDecision P a b) :
    ledBy (inputs.map (rate P)) (rate P a) = ledBy (inputs'.map (rate P)) (rate P b) := by
  have hrate := (sameDecision_rate hdigests hsha ha hb).mp h
  funext reasons
  rw [ledBy, ledBy, carriers_carrying, carriers_carrying,
    sortedStrs_perm ((carriers_perm hperm hrate).map _), hrate]
  exact congrArg (fun allow : Bool => (⟨allow, if allow then "allow" else "deny", reasons,
    some (rate P b).2, sortedStrs ((carriers P inputs' b).map GovernanceInput.sourceId)⟩ : Outcome))
    h.allow

theorem Evaluated.perm (hsha : Function.Injective P.sha256)
    (hreasons : ∀ item ∈ inputs, item.ReasonsListed) (hperm : inputs.Perm inputs')
    {requestDigest : Str} {replayFrameRef : Option Str} {preflight : Preflight} {outcome : Outcome}
    (h : Evaluated P inputs requestDigest replayFrameRef preflight outcome) :
    Evaluated P inputs' requestDigest replayFrameRef preflight outcome := by
  have hdigests : ∀ item ∈ inputs', item.digest P = .ok (rate P item).2 := fun item hitem =>
    h.digests item (hperm.mem_iff.mpr hitem)
  have hne : inputs' ≠ [] := fun hnil => h.nonempty (List.perm_nil.mp (hnil ▸ hperm))
  have hrated : (inputs.map (rate P)).Perm (inputs'.map (rate P)) := hperm.map _
  have hids : ((inputs.map (rate P)).map (fun item => item.1.sourceId)).Nodup := by
    rw [List.map_map]
    exact h.distinct
  have htop := topPriority_perm hrated
  have hsources := bySource_perm hrated hids
  have hconflicts : conflictsOf (topPriority (inputs.map (rate P)))
      (topInputs (inputs.map (rate P))) = conflictsOf (topPriority (inputs'.map (rate P)))
        (topInputs (inputs'.map (rate P))) := by
    rw [conflictsOf, conflictsOf, topInputs, topInputs, ← htop, bySource_perm (hrated.filter _)]
    exact hids.sublist (List.filter_sublist.map _)
  refine ⟨hdigests, hne, (hperm.map _).nodup_iff.mp h.distinct, ?_, ?_, h.digest, ?_⟩
  · rw [← h.agreed]
    rcases outcomeOf_cases h.digests hsha h.nonempty with ⟨a, b, ha, hb, hdiffer, hleft⟩ |
      ⟨lead, hlead, htops, hleft⟩
    · rcases outcomeOf_cases hdigests hsha hne with ⟨-, -, -, -, -, hright⟩ |
        ⟨lead', -, htops', -⟩
      · rw [hleft, hright]
      · have hleft := htops' a ((isTop_perm hperm).mp ha)
        have hright := htops' b ((isTop_perm hperm).mp hb)
        exact absurd (hleft.trans hright.symm) hdiffer
    · rcases outcomeOf_cases hdigests hsha hne with ⟨a, b, ha, hb, hdiffer, -⟩ |
        ⟨lead', hlead', htops', hright⟩
      · have hleft := htops a ((isTop_perm hperm).mpr ha)
        have hright := htops b ((isTop_perm hperm).mpr hb)
        exact absurd (hleft.trans hright.symm) hdiffer
      · obtain ⟨top, htop⟩ := exists_isTop h.nonempty
        have hsame : GovernanceInput.SameDecision P lead lead' :=
          (htops top htop).symm.trans (htops' top ((isTop_perm hperm).mp htop))
        have hlead' := hperm.mem_iff.mpr hlead'
        rw [hleft, hright, reasonsOf_sameDecision hsame (hreasons _ hlead) (hreasons _ hlead'),
          ledBy_perm hsha hperm h.digests hlead hlead' hsame]
  · rw [h.unsigned, hsources, hconflicts]
  · rw [← hsources, ← hconflicts]
    exact h.decision

theorem evaluate_perm (hsha : Function.Injective P.sha256)
    (hreasons : ∀ item ∈ inputs, item.ReasonsListed) (hperm : inputs.Perm inputs')
    {requestDigest : Str} {replayFrameRef : Option Str} {preflight : Preflight} :
    mesh.evaluate P inputs requestDigest replayFrameRef = .ok preflight ↔
      mesh.evaluate P inputs' requestDigest replayFrameRef = .ok preflight := by
  have hreasons' : ∀ item ∈ inputs', item.ReasonsListed := fun item hitem =>
    hreasons item (hperm.mem_iff.mpr hitem)
  rw [evaluate_eq_ok, evaluate_eq_ok]
  refine and_congr_right' (and_congr ?_ (exists_congr fun outcome => ?_))
  · exact forall_congr' fun item => by rw [hperm.mem_iff]
  · exact ⟨fun h => h.perm hsha hreasons hperm, fun h => h.perm hsha hreasons' hperm.symm⟩

end Permutation

section Preflight

variable {inputs : List GovernanceInput} {requestDigest : Str} {replayFrameRef : Option Str}

variable (P mesh) in
-- preflight, with the replay log the mesh was given, if it was given one
def preflightWith (log : Option ReplayLog) (inputs : List GovernanceInput) (requestDigest : Str)
    (replayFrameRef : Option Str) : Result (Option ReplayLog × GovernancePreflightDecision) :=
  match log with
  | none => do
      let result ← mesh.evaluate P inputs requestDigest replayFrameRef
      .ok (none, result.decision)
  | some log => do
      let (log, decision) ← mesh.preflight P log inputs requestDigest replayFrameRef
      .ok (some log, decision)

theorem preflightWith_congr {log : Option ReplayLog} {inputs' : List GovernanceInput}
    (h : ∀ preflight, mesh.evaluate P inputs requestDigest replayFrameRef = .ok preflight ↔
      mesh.evaluate P inputs' requestDigest replayFrameRef = .ok preflight)
    {result : Option ReplayLog × GovernancePreflightDecision} :
    mesh.preflightWith P log inputs requestDigest replayFrameRef = .ok result ↔
      mesh.preflightWith P log inputs' requestDigest replayFrameRef = .ok result := by
  cases log with
  | none => simp only [preflightWith, bind_eq_ok, h]
  | some log => simp only [preflightWith, preflight, bind_eq_ok, h]

theorem preflightWith_eq_ok {log log' : Option ReplayLog} {decision : GovernancePreflightDecision}
    (h : mesh.preflightWith P log inputs requestDigest replayFrameRef = .ok (log', decision)) :
    ∃ preflight ref, mesh.evaluate P inputs requestDigest replayFrameRef = .ok preflight ∧
      decision = { preflight.decision with replayFrameRef := ref } := by
  cases log with
  | none =>
      obtain ⟨preflight, hevaluate, h⟩ := bind_eq_ok.mp h
      obtain ⟨-, rfl⟩ := Prod.mk.inj (Except.ok.inj h)
      exact ⟨preflight, _, hevaluate, rfl⟩
  | some log =>
      simp only [preflightWith, preflight, bind_eq_ok] at h
      obtain ⟨result, ⟨preflight, hevaluate, appended, -, hresult⟩, h⟩ := h
      obtain rfl := Except.ok.inj hresult
      obtain ⟨-, rfl⟩ := Prod.mk.inj (Except.ok.inj h)
      exact ⟨preflight, _, hevaluate, rfl⟩

theorem verdict_of_preflight (hsha : Function.Injective P.sha256) {log log' : Option ReplayLog}
    {decision : GovernancePreflightDecision}
    (h : mesh.preflightWith P log inputs requestDigest replayFrameRef = .ok (log', decision)) :
    Verdict P inputs decision := by
  obtain ⟨preflight, ref, hevaluate, rfl⟩ := preflightWith_eq_ok h
  cases verdict_of_evaluate hsha hevaluate with
  | conflict left right differ allow status selected sources =>
      exact .conflict left right differ allow status selected sources
  | ruled highest unanimous allow status selected sources =>
      exact .ruled highest unanimous allow status selected sources

theorem Verdict.allow_iff {decision : GovernancePreflightDecision} (h : Verdict P inputs decision) :
    decision.allow = true ↔
      (∀ a b, IsTop inputs a → IsTop inputs b → GovernanceInput.SameDecision P a b) ∧
        ∀ a, IsTop inputs a → a.allow = true := by
  cases h with
  | conflict left right differ allow _ _ _ =>
      rw [allow]
      exact ⟨fun hfalse => absurd hfalse (by simp),
        fun hall => absurd (hall.1 _ _ left right) differ⟩
  | ruled highest unanimous allow _ _ _ =>
      rw [allow]
      constructor
      · intro htop
        exact ⟨fun a b ha hb => (unanimous a ha).trans (unanimous b hb).symm,
          fun a ha => (unanimous a ha).allow.trans htop⟩
      · intro hall
        exact hall.2 _ highest

theorem Verdict.conflict_iff {decision : GovernancePreflightDecision}
    (h : Verdict P inputs decision) :
    decision.status = "conflict" ↔
      ∃ a b, IsTop inputs a ∧ IsTop inputs b ∧ ¬ GovernanceInput.SameDecision P a b := by
  cases h with
  | conflict left right differ _ status _ _ =>
      exact ⟨fun _ => ⟨_, _, left, right, differ⟩, fun _ => status⟩
  | ruled highest unanimous _ status _ _ =>
      rw [status]
      constructor
      · intro hstatus
        split at hstatus <;> simp at hstatus
      · rintro ⟨a, b, ha, hb, hdiffer⟩
        exact absurd ((unanimous a ha).trans (unanimous b hb).symm) hdiffer

-- the inputs of maximal priority decide all but the digest and the sources
theorem Verdict.agree {inputs' : List GovernanceInput}
    {decision decision' : GovernancePreflightDecision} (h : Verdict P inputs decision)
    (h' : Verdict P inputs' decision') (hdigests : ∀ item, IsTop inputs item →
      item.digest P = .ok (rate P item).2) (hsha : Function.Injective P.sha256)
    (htops : ∀ item, IsTop inputs item ↔ IsTop inputs' item) :
    decision.allow = decision'.allow ∧ decision.status = decision'.status ∧
      decision.selectedDigest = decision'.selectedDigest := by
  cases h with
  | conflict left right differ allow status selected _ =>
      cases h' with
      | conflict _ _ _ allow' status' selected' _ =>
          exact ⟨allow.trans allow'.symm, status.trans status'.symm, selected.trans selected'.symm⟩
      | ruled _ unanimous _ _ _ _ =>
          have hleft := unanimous _ ((htops _).mp left)
          have hright := unanimous _ ((htops _).mp right)
          exact absurd (hleft.trans hright.symm) differ
  | @ruled top highest unanimous allow status selected _ =>
      cases h' with
      | conflict left right differ _ _ _ _ =>
          have hleft := unanimous _ ((htops _).mpr left)
          have hright := unanimous _ ((htops _).mpr right)
          exact absurd (hleft.trans hright.symm) differ
      | @ruled top' highest' _ allow' status' selected' _ =>
          have htop' := (htops top').mpr highest'
          have hsame := unanimous top' htop'
          have hallow : top.allow = top'.allow := hsame.allow.symm
          have hdigest : (rate P top').2 = (rate P top).2 :=
            (GovernanceInput.sameDecision_iff hsha (hdigests _ htop') (hdigests _ highest)).mp hsame
          refine ⟨?_, ?_, ?_⟩
          · rw [allow, allow', hallow]
          · rw [status, status', hallow]
          · rw [selected, selected', hdigest]

-- inputs below some other input are not of maximal priority, with or without them
theorem isTop_of_lower {kept others : List GovernanceInput}
    (hothers : ∀ item ∈ others, ∃ higher ∈ kept, item.priority < higher.priority)
    {item : GovernanceInput} : IsTop (kept ++ others) item ↔ IsTop kept item := by
  constructor
  · rintro ⟨hmem, htop⟩
    have hkept : ∀ other ∈ kept, other.priority ≤ item.priority := fun other hother =>
      htop other (List.mem_append_left _ hother)
    rcases List.mem_append.mp hmem with hmem | hmem
    · exact ⟨hmem, hkept⟩
    · obtain ⟨higher, hhigher, hlt⟩ := hothers item hmem
      exact absurd (hkept higher hhigher) (not_le.mpr hlt)
  · rintro ⟨hmem, htop⟩
    refine ⟨List.mem_append_left _ hmem, fun other hother => ?_⟩
    rcases List.mem_append.mp hother with hother | hother
    · exact htop other hother
    · obtain ⟨higher, hhigher, hlt⟩ := hothers other hother
      exact le_trans (le_of_lt hlt) (htop higher hhigher)

theorem preflight_semantics (P : Primitives) (hsha : Function.Injective P.sha256)
    (mesh : GovernanceMesh) (log : Option ReplayLog) (inputs : List GovernanceInput)
    (requestDigest : Str) (replayFrameRef : Option Str)
    (hreasons : ∀ item ∈ inputs, item.ReasonsListed) :
    (∀ inputs', inputs.Perm inputs' → ∀ result,
      mesh.preflightWith P log inputs requestDigest replayFrameRef = .ok result ↔
        mesh.preflightWith P log inputs' requestDigest replayFrameRef = .ok result) ∧
    ∀ log' decision,
      mesh.preflightWith P log inputs requestDigest replayFrameRef = .ok (log', decision) →
      (decision.allow = true ↔
        (∀ a b, IsTop inputs a → IsTop inputs b → GovernanceInput.SameDecision P a b) ∧
          ∀ a, IsTop inputs a → a.allow = true) ∧
      (decision.status = "conflict" ↔
        ∃ a b, IsTop inputs a ∧ IsTop inputs b ∧ ¬ GovernanceInput.SameDecision P a b) ∧
      ∀ kept removed added, inputs.Perm (kept ++ removed) →
        (∀ item ∈ removed ++ added, ∃ higher ∈ kept, item.priority < higher.priority) →
        ∀ (other : GovernanceMesh) otherLog otherDigest otherRef log'' decision',
          other.preflightWith P otherLog (kept ++ added) otherDigest otherRef =
            .ok (log'', decision') →
          decision.allow = decision'.allow ∧ decision.status = decision'.status ∧
            decision.selectedDigest = decision'.selectedDigest := by
  constructor
  · intro inputs' hperm result
    exact preflightWith_congr fun preflight => evaluate_perm hsha hreasons hperm
  · intro log' decision h
    have hverdict := verdict_of_preflight hsha h
    refine ⟨hverdict.allow_iff, hverdict.conflict_iff, ?_⟩
    intro kept removed added hperm hlower other otherLog otherDigest otherRef log'' decision' h'
    obtain ⟨hremoved, hadded⟩ := List.forall_mem_append.mp hlower
    obtain ⟨preflight, ref, hevaluate, -⟩ := preflightWith_eq_ok h
    obtain ⟨-, -, outcome, hevaluated⟩ := evaluate_eq_ok.mp hevaluate
    refine hverdict.agree (verdict_of_preflight hsha h')
      (fun item hitem => hevaluated.digests item hitem.1) hsha fun item => ?_
    rw [isTop_perm hperm, isTop_of_lower hremoved, isTop_of_lower hadded]

end Preflight

section Weighting

variable {inputs : List GovernanceInput}

variable (P) in
def groupWeight (inputs : List GovernanceInput) (item : GovernanceInput) : ℤ :=
  ((carriers P inputs item).map GovernanceInput.weight).sum

variable (P) in
def groupPriority (inputs : List GovernanceInput) (item : GovernanceInput) : ℤ :=
  (carriers P inputs item).foldl (fun top other => max top other.priority) 0

variable (P) in
-- the documented order of groups: the heaviest first, then the highest priority, then the digest
def documentedKey (inputs : List GovernanceInput) (item : GovernanceInput) : ℤ ×ₗ ℤ ×ₗ Str :=
  toLex (-groupWeight P inputs item, toLex (-groupPriority P inputs item, (rate P item).2))

variable (P) in
def Documented (inputs : List GovernanceInput) (decision : GovernancePreflightDecision) : Prop :=
  ∃ lead ∈ inputs, (∀ other ∈ inputs, documentedKey P inputs lead ≤ documentedKey P inputs other) ∧
    decision.selectedDigest = some (rate P lead).2 ∧
    decision.selectedSourceIds = sortedStrs ((carriers P inputs lead).map GovernanceInput.sourceId) ∧
    decision.allow = lead.allow

theorem carriers_congr {a b : GovernanceInput} (h : (rate P a).2 = (rate P b).2) :
    carriers P inputs a = carriers P inputs b := by
  rw [carriers, carriers, h]

theorem groupPriority_le {a top : GovernanceInput} (htop : IsTop inputs top) :
    groupPriority P inputs a ≤ top.priority :=
  (foldl_max_le GovernanceInput.priority).mpr
    ⟨top.priorityNonneg, fun item hitem => htop.2 item (List.mem_filter.mp hitem).1⟩

theorem groupPriority_top {top : GovernanceInput} (htop : IsTop inputs top) :
    groupPriority P inputs top = top.priority :=
  le_antisymm (groupPriority_le htop)
    (le_foldl_max GovernanceInput.priority (List.mem_filter.mpr ⟨htop.1, by simp⟩))

-- a group of the highest priority holds an input of the highest priority
theorem exists_carrier_isTop {a top : GovernanceInput} (ha : a ∈ inputs) (htop : IsTop inputs top)
    (h : groupPriority P inputs a = top.priority) :
    ∃ item, IsTop inputs item ∧ (rate P item).2 = (rate P a).2 := by
  have hmem : a ∈ carriers P inputs a := List.mem_filter.mpr ⟨ha, by simp⟩
  obtain ⟨item, hitem, hpriority⟩ := foldl_max_mem GovernanceInput.priority 0
    (List.ne_nil_of_mem hmem) fun other _ => other.priorityNonneg
  obtain ⟨hitem, hrate⟩ := List.mem_filter.mp hitem
  refine ⟨item, ⟨hitem, fun other hother => ?_⟩, of_decide_eq_true hrate⟩
  rw [hpriority, ← groupPriority, h]
  exact htop.2 other hother

theorem documentedKey_le {a b : GovernanceInput} :
    documentedKey P inputs a ≤ documentedKey P inputs b ↔
      groupWeight P inputs b < groupWeight P inputs a ∨
        groupWeight P inputs a = groupWeight P inputs b ∧
          (groupPriority P inputs b < groupPriority P inputs a ∨
            groupPriority P inputs a = groupPriority P inputs b ∧ (rate P a).2 ≤ (rate P b).2) := by
  simp only [documentedKey, Prod.Lex.toLex_le_toLex, neg_lt_neg_iff, neg_inj]

-- the group of the top inputs is the documented winner unless another outweighs it
theorem Verdict.documented_iff {decision : GovernancePreflightDecision}
    (h : Verdict P inputs decision)
    (hdigests : ∀ item ∈ inputs, item.digest P = .ok (rate P item).2)
    (hsha : Function.Injective P.sha256)
    (hunanimous : ∀ a b, IsTop inputs a → IsTop inputs b → GovernanceInput.SameDecision P a b) :
    Documented P inputs decision ↔ ∀ top, IsTop inputs top → ∀ other ∈ inputs,
      groupWeight P inputs other ≤ groupWeight P inputs top := by
  have hrate : ∀ a b, IsTop inputs a → IsTop inputs b → (rate P a).2 = (rate P b).2 :=
    fun a b ha hb => (sameDecision_rate hdigests hsha ha.1 hb.1).mp (hunanimous a b ha hb)
  cases h with
  | conflict left right differ _ _ _ _ => exact absurd (hunanimous _ _ left right) differ
  | @ruled lead hlead _ allow _ selected sources =>
      constructor
      · rintro ⟨documented, -, hbest, hdigest, -, -⟩ top htop other hother
        have hsame : (rate P documented).2 = (rate P top).2 :=
          (Option.some.inj (hdigest.symm.trans selected)).trans (hrate lead top hlead htop)
        have hweight : groupWeight P inputs documented = groupWeight P inputs top := by
          rw [groupWeight, groupWeight, carriers_congr hsame]
        rw [← hweight]
        rcases documentedKey_le.mp (hbest other hother) with hlt | ⟨heq, -⟩
        · exact le_of_lt hlt
        · exact heq.ge
      · intro hheaviest
        refine ⟨lead, hlead.1, fun other hother => documentedKey_le.mpr ?_, selected, sources, allow⟩
        rcases lt_or_eq_of_le (hheaviest lead hlead other hother) with hlt | heq
        · exact Or.inl hlt
        · refine Or.inr ⟨heq.symm, ?_⟩
          rw [groupPriority_top hlead]
          rcases lt_or_eq_of_le (groupPriority_le (P := P) (a := other) hlead) with hlt | heq
          · exact Or.inl hlt
          · obtain ⟨item, hitem, hsame⟩ := exists_carrier_isTop hother hlead heq
            exact Or.inr ⟨heq.symm, (hrate lead item hlead hitem).trans hsame |>.le⟩

theorem weighting_documented (P : Primitives) (hsha : Function.Injective P.sha256)
    (mesh : GovernanceMesh) (log log' : Option ReplayLog) (inputs : List GovernanceInput)
    (requestDigest : Str) (replayFrameRef : Option Str) (decision : GovernancePreflightDecision)
    (hunanimous : ∀ a b, IsTop inputs a → IsTop inputs b → GovernanceInput.SameDecision P a b)
    (h : mesh.preflightWith P log inputs requestDigest replayFrameRef = .ok (log', decision)) :
    Documented P inputs decision ↔ ∀ top, IsTop inputs top → ∀ other ∈ inputs,
      groupWeight P inputs other ≤ groupWeight P inputs top := by
  obtain ⟨preflight, ref, hevaluate, -⟩ := preflightWith_eq_ok h
  obtain ⟨-, -, outcome, hevaluated⟩ := evaluate_eq_ok.mp hevaluate
  exact (verdict_of_preflight hsha h).documented_iff hevaluated.digests hsha hunanimous

theorem unsigned_nonEmpty : (none : Option Str) ≠ some [] := by simp

theorem heavy_weightPos : (0 : ℤ) < 2 := by decide

def plainInput (sourceId : String) (hne : lit sourceId ≠ []) (allow : Bool) (weight : ℤ)
    (hweight : 0 < weight) (priority : ℤ) (hpriority : 0 ≤ priority) : GovernanceInput where
  sourceId := lit sourceId
  decision := PyDict.ofFields [("allow", .bool allow)]
  weight := weight
  priority := priority
  metadata := none
  sourceSignature := none
  allow := allow
  sourceNonEmpty := hne
  weightPos := hweight
  priorityNonneg := hpriority
  decided := by rw [PyDict.get_ofFields_cons, if_pos rfl]
  signatureNonEmpty := unsigned_nonEmpty

def urgent : GovernanceInput := plainInput "a" (by decide) true 1 (by decide) 1 (by decide)

def heavy : GovernanceInput := plainInput "b" (by decide) false 2 heavy_weightPos 0 (by decide)

theorem isTop_urgent {item : GovernanceInput} (h : IsTop [urgent, heavy] item) : item = urgent := by
  obtain ⟨hmem, htop⟩ := h
  rcases List.mem_cons.mp hmem with rfl | hmem
  · rfl
  · obtain rfl := List.mem_singleton.mp hmem
    exact absurd (htop urgent List.mem_cons_self) (by decide)

theorem preflight_urgent : ∃ decision,
    ({} : GovernanceMesh).preflightWith referencePrimitives none [urgent, heavy] "r" none =
      .ok (none, decision) := by
  obtain ⟨preflight, hpreflight⟩ := exists_of_toOption
    (show (({} : GovernanceMesh).evaluate referencePrimitives [urgent, heavy] "r"
      none).toOption.isSome = true by decide +kernel)
  exact ⟨preflight.decision, by rw [preflightWith, hpreflight]; rfl⟩

theorem sameDecision_urgent :
    GovernanceInput.SameDecision referencePrimitives urgent urgent := by
  obtain ⟨bytes, hbytes⟩ := exists_of_toOption
    (show (canonicalJson referencePrimitives (.dict urgent.decision)).toOption.isSome = true by
      decide)
  exact ⟨bytes, hbytes, hbytes⟩

theorem groupWeight_urgent : groupWeight referencePrimitives [urgent, heavy] urgent <
    groupWeight referencePrimitives [urgent, heavy] heavy := by
  decide

theorem preflight_semantics_urgent : ∃ decision,
    ({} : GovernanceMesh).preflightWith referencePrimitives none [heavy, urgent] "r" none =
      .ok (none, decision) ∧ decision.allow = true := by
  obtain ⟨decision, hdecision⟩ := preflight_urgent
  have hlisted : ∀ item ∈ [urgent, heavy], item.ReasonsListed := by
    intro item hitem value hvalue
    rcases List.mem_cons.mp hitem with rfl | hitem
    · cases hvalue
    · obtain rfl := List.mem_singleton.mp hitem
      cases hvalue
  obtain ⟨hperm, hruled⟩ := preflight_semantics referencePrimitives
    referencePrimitives_sha256_injective {} none [urgent, heavy] "r" none hlisted
  refine ⟨decision, (hperm _ (List.Perm.swap heavy urgent []) _).mp hdecision,
    (hruled _ _ hdecision).1.mpr ⟨?_, ?_⟩⟩
  · intro a b ha hb
    rw [isTop_urgent ha, isTop_urgent hb]
    exact sameDecision_urgent
  · intro a ha
    rw [isTop_urgent ha]
    rfl

-- the highest-priority input is alone against a heavier one
theorem weighting_outweighed : ∃ decision,
    ({} : GovernanceMesh).preflightWith referencePrimitives none [urgent, heavy] "r" none =
      .ok (none, decision) ∧
    (∀ a b, IsTop [urgent, heavy] a → IsTop [urgent, heavy] b →
      GovernanceInput.SameDecision referencePrimitives a b) ∧
    ([urgent, heavy].map GovernanceInput.sourceId).Nodup ∧
    ¬ Documented referencePrimitives [urgent, heavy] decision := by
  obtain ⟨decision, hdecision⟩ := preflight_urgent
  have hunanimous : ∀ a b, IsTop [urgent, heavy] a → IsTop [urgent, heavy] b →
      GovernanceInput.SameDecision referencePrimitives a b := by
    intro a b ha hb
    rw [isTop_urgent ha, isTop_urgent hb]
    exact sameDecision_urgent
  have htop : IsTop [urgent, heavy] urgent := by
    refine ⟨List.mem_cons_self, ?_⟩
    rw [List.forall_mem_cons, List.forall_mem_singleton]
    exact ⟨le_rfl, by decide⟩
  obtain ⟨preflight, ref, hevaluate, -⟩ := preflightWith_eq_ok hdecision
  obtain ⟨-, -, outcome, hevaluated⟩ := evaluate_eq_ok.mp hevaluate
  refine ⟨decision, hdecision, hunanimous, by decide, fun hdocumented => ?_⟩
  have hheaviest := ((verdict_of_preflight referencePrimitives_sha256_injective
    hdecision).documented_iff hevaluated.digests referencePrimitives_sha256_injective
      hunanimous).mp hdocumented urgent htop heavy (by simp)
  exact absurd groupWeight_urgent (not_lt.mpr hheaviest)

-- two sources of one decision against a lighter one that has less priority
def leading : GovernanceInput := plainInput "c" (by decide) true 2 heavy_weightPos 1 (by decide)

def light : GovernanceInput := plainInput "d" (by decide) false 1 (by decide) 0 (by decide)

theorem isTop_leading {item : GovernanceInput} (h : IsTop [light, urgent, leading] item) :
    item = urgent ∨ item = leading := by
  obtain ⟨hmem, htop⟩ := h
  rcases List.mem_cons.mp hmem with rfl | hmem
  · exact absurd (htop urgent (by simp)) (by decide)
  · simpa using hmem

theorem sameDecision_leading {a b : GovernanceInput} (ha : IsTop [light, urgent, leading] a)
    (hb : IsTop [light, urgent, leading] b) :
    GovernanceInput.SameDecision referencePrimitives a b := by
  obtain ⟨bytes, hbytes, -⟩ := sameDecision_urgent
  have hbytesOf : ∀ {item}, IsTop [light, urgent, leading] item →
      canonicalJson referencePrimitives (.dict item.decision) = .ok bytes := by
    intro item hitem
    rcases isTop_leading hitem with rfl | rfl
    · exact hbytes
    · exact hbytes
  exact ⟨bytes, hbytesOf ha, hbytesOf hb⟩

theorem groupWeight_leading {top other : GovernanceInput}
    (htop : IsTop [light, urgent, leading] top) (hother : other ∈ [light, urgent, leading]) :
    groupWeight referencePrimitives [light, urgent, leading] other ≤
      groupWeight referencePrimitives [light, urgent, leading] top := by
  have hthree : groupWeight referencePrimitives [light, urgent, leading] top = 3 := by
    rcases isTop_leading htop with rfl | rfl
    · decide +kernel
    · decide +kernel
  have hbound : ∀ item ∈ [light, urgent, leading],
      groupWeight referencePrimitives [light, urgent, leading] item ≤ 3 := by
    decide +kernel
  exact hthree ▸ hbound other hother

theorem weighting_documented_leading : ∃ decision,
    ({} : GovernanceMesh).preflightWith referencePrimitives none [light, urgent, leading] "r" none =
      .ok (none, decision) ∧
    groupWeight referencePrimitives [light, urgent, leading] light = 1 ∧
    groupWeight referencePrimitives [light, urgent, leading] leading = 3 ∧
    Documented referencePrimitives [light, urgent, leading] decision := by
  obtain ⟨preflight, hpreflight⟩ := exists_of_toOption
    (show (({} : GovernanceMesh).evaluate referencePrimitives [light, urgent, leading] "r"
      none).toOption.isSome = true by decide +kernel)
  have hdecision : ({} : GovernanceMesh).preflightWith referencePrimitives none
      [light, urgent, leading] "r" none = .ok (none, preflight.decision) := by
    rw [preflightWith, hpreflight]
    rfl
  refine ⟨_, hdecision, by decide +kernel, by decide +kernel, (weighting_documented
    referencePrimitives referencePrimitives_sha256_injective {} none none _ "r" none _ ?_
      hdecision).mpr ?_⟩
  · intro a b ha hb
    exact sameDecision_leading ha hb
  · intro top htop other hother
    exact groupWeight_leading htop hother

end Weighting

end GovernanceMesh

end GovernedAutonomy
