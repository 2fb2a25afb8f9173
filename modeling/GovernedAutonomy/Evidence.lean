import GovernedAutonomy.Engine
import GovernedAutonomy.Python.Congruence

namespace GovernedAutonomy

open Python

namespace GovernanceMesh

variable {P : Primitives} {mesh : GovernanceMesh}

-- all that a preflight takes from an input
structure SameRating (P : Primitives) (a b : GovernanceInput) : Prop where
  sourceId : a.sourceId = b.sourceId
  weight : a.weight = b.weight
  priority : a.priority = b.priority
  allow : a.allow = b.allow
  digest : a.digest P = b.digest P
  reasons : reasonsOf P a.decision = reasonsOf P b.decision

theorem SameRating.refl (a : GovernanceInput) : SameRating P a a := ⟨rfl, rfl, rfl, rfl, rfl, rfl⟩

section Replaced

variable {g : GovernanceInput → GovernanceInput} (hg : ∀ item, SameRating P item (g item))

def replace (g : GovernanceInput → GovernanceInput) (item : Rated) : Rated := (g item.1, item.2)

theorem groupsOf_map (inputs : List Rated) :
    groupsOf (inputs.map (replace g)) =
      (groupsOf inputs).map (fun group => (group.1, group.2.map (replace g))) := by
  induction inputs using List.reverseRecOn with
  | nil => rfl
  | append_singleton inputs item ih =>
      simp only [groupsOf, List.map_append, List.map_cons, List.map_nil, List.foldl_append,
        List.foldl_cons, List.foldl_nil] at ih ⊢
      rw [ih, ← Dict.set_map, Dict.get_map]
      congr 1
      cases hgroup : Dict.get (groupsOf inputs) item.2 with
      | none => simp only [groupsOf] at hgroup; simp [hgroup, replace]
      | some group => simp only [groupsOf] at hgroup; simp [hgroup, replace]

include hg

theorem topPriority_map (inputs : List Rated) :
    topPriority (inputs.map (replace g)) = topPriority inputs := by
  rw [topPriority, topPriority, List.foldl_map]
  congr 1
  funext top item
  rw [replace, (hg item.1).priority]

theorem filter_map (p : ℤ) (inputs : List Rated) :
    (inputs.map (replace g)).filter (fun item => item.1.priority = p) =
      (inputs.filter (fun item => item.1.priority = p)).map (replace g) := by
  rw [List.filter_map]
  congr 2
  funext item
  exact decide_eq_decide.mpr (by rw [replace, (hg item.1).priority])

theorem bySource_map (inputs : List Rated) :
    bySource (inputs.map (replace g)) = (bySource inputs).map (replace g) := by
  refine (List.map_insertionSort _ _ _ _ ?_).symm
  intro a _ b _
  rw [replace, replace, (hg a.1).sourceId, (hg b.1).sourceId]

theorem conflictsOf_map (top : ℤ) (inputs : List Rated) :
    conflictsOf top (inputs.map (replace g)) = conflictsOf top inputs := by
  rw [conflictsOf, conflictsOf, bySource_map hg, List.flatMap_map]
  congr 1
  funext source
  rw [List.filter_map, List.map_map]
  simp only [Function.comp_def, replace, ← (hg source.1).sourceId, ← (hg source.1).allow,
    fun other : Rated => ((hg other.1).sourceId).symm, fun other : Rated => ((hg other.1).allow).symm]

theorem weightOf_map (members : List Rated) :
    weightOf (members.map (replace g)) = weightOf members := by
  rw [weightOf, weightOf, List.map_map]
  congr 1
  exact List.map_congr_left fun item _ => ((hg item.1).weight).symm

theorem winner?_map (inputs : List Rated) :
    winner? (inputs.map (replace g)) =
      (winner? inputs).map (fun group => (group.1, group.2.map (replace g))) := by
  rw [winner?, winner?, groupsOf_map, ← List.head?_map]
  refine congrArg List.head? (List.map_insertionSort _ (fun a b => ranksBefore a b = true) _ _ ?_).symm
  intro a _ b _
  simp only [ranksBefore, topPriority_map hg, weightOf_map hg]

theorem outcomeOf_map (inputs : List Rated) :
    outcomeOf P (inputs.map (replace g)) = outcomeOf P inputs := by
  have hdigests (members : List Rated) :
      (members.map (replace g)).map Prod.snd = members.map Prod.snd := by
    rw [List.map_map]
    rfl
  have hsources (members : List Rated) :
      (members.map (replace g)).map (fun item => item.1.sourceId) =
        members.map (fun item => item.1.sourceId) := by
    rw [List.map_map]
    exact List.map_congr_left fun item _ => ((hg item.1).sourceId).symm
  simp only [outcomeOf, topPriority_map hg, filter_map hg, hdigests, winner?_map hg]
  cases winner? inputs with
  | none => rfl
  | some group =>
      obtain ⟨digest, members⟩ := group
      cases members with
      | nil => rfl
      | cons lead members =>
          simp only [Option.map_some, List.map_cons, ← (hg lead.1).reasons, ← (hg lead.1).allow,
            ← (hg lead.1).sourceId, replace, ← hsources members]

theorem rateAll_map (inputs : List GovernanceInput) :
    rateAll P (inputs.map g) = (rateAll P inputs).map (List.map (replace g)) := by
  induction inputs with
  | nil => rfl
  | cons item items ih =>
      rw [List.map_cons, rateAll, rateAll, ih, ← (hg item).digest]
      cases item.digest P with
      | error e => rfl
      | ok digest => cases rateAll P items <;> rfl

end Replaced

theorem untrusted_attests (item : GovernanceInput) :
    ({} : GovernanceMesh).verifySourceAttestation P item = .ok () := rfl

theorem forM_ok {A : Type} {f : A → Result Unit} (inputs : List A) (h : ∀ a, f a = .ok ()) :
    inputs.forM f = .ok () := by
  induction inputs with
  | nil => rfl
  | cons a inputs ih =>
      show (do f a; inputs.forM f) = .ok ()
      rw [h a]
      exact ih

-- without sources to attest them, two lists of inputs are told apart by their ratings only
theorem evaluate_congr {inputs inputs' : List GovernanceInput}
    (h : List.Forall₂ (SameRating P) inputs inputs') (requestDigest : Str)
    (replayFrameRef : Option Str) :
    ({} : GovernanceMesh).evaluate P inputs requestDigest replayFrameRef =
      ({} : GovernanceMesh).evaluate P inputs' requestDigest replayFrameRef := by
  have hsources : inputs.map GovernanceInput.sourceId = inputs'.map GovernanceInput.sourceId := by
    rw [← List.forall₂_eq_eq_eq, List.forall₂_map_left_iff, List.forall₂_map_right_iff]
    exact h.imp fun _ _ hsame => hsame.sourceId
  have hnil : inputs = [] ↔ inputs' = [] := by
    rw [← List.length_eq_zero_iff, ← List.length_eq_zero_iff, h.length_eq]
  simp only [evaluate, forM_ok inputs untrusted_attests, forM_ok inputs' untrusted_attests,
    hsources, hnil]
  by_cases hnodup : (inputs'.map GovernanceInput.sourceId).Nodup
  · have hinputs : inputs.Nodup := List.Nodup.of_map _ (hsources ▸ hnodup)
    obtain ⟨g, rfl, hg⟩ := exists_map_of_forall₂ SameRating.refl hinputs h
    rw [rateAll_map hg]
    cases rateAll P inputs with
    | error e => rfl
    | ok rated =>
        have hinputs : (bySource (rated.map (replace g))).map (fun item => (item.1.sourceId, item.2)) =
            (bySource rated).map (fun item => (item.1.sourceId, item.2)) := by
          rw [bySource_map hg, List.map_map]
          refine List.map_congr_left fun item _ => ?_
          rw [Function.comp_apply, replace, ← (hg item.1).sourceId]
        simp only [Except.map, bind, Except.bind, topPriority_map hg, filter_map hg,
          conflictsOf_map hg, outcomeOf_map hg, hinputs]
  · simp only [raiseIf, hnodup, not_false_eq_true, if_true, bind, Except.bind]

-- attestation has no part in the outcome
theorem evaluate_untrusted {inputs : List GovernanceInput} {requestDigest : Str}
    {replayFrameRef : Option Str} {preflight : Preflight}
    (h : mesh.evaluate P inputs requestDigest replayFrameRef = .ok preflight) :
    ({} : GovernanceMesh).evaluate P inputs requestDigest replayFrameRef = .ok preflight := by
  simp only [evaluate, bind_eq_ok] at h ⊢
  obtain ⟨u, hdigest, u', hinputs, u'', -, h⟩ := h
  exact ⟨u, hdigest, u', hinputs, (), forM_ok inputs untrusted_attests, h⟩

theorem evaluate_inputs {inputs : List GovernanceInput} {requestDigest : Str}
    {replayFrameRef : Option Str} {preflight : Preflight}
    (h : mesh.evaluate P inputs requestDigest replayFrameRef = .ok preflight) :
    (∀ item ∈ inputs, ∃ digest, item.digest P = .ok digest) ∧
      preflight.decision.replayFrameRef = replayFrameRef ∧ preflight.decision.digest ≠ [] := by
  simp only [evaluate, bind_eq_ok] at h
  obtain ⟨-, -, -, -, -, -, -, -, rated, hrated, outcome, -, digest, hdigest, h⟩ := h
  obtain rfl := Except.ok.inj h
  refine ⟨?_, rfl, (canonicalDigest_eq_ok hdigest).1⟩
  clear hdigest h
  induction inputs generalizing rated with
  | nil => simp
  | cons item items ih =>
      obtain ⟨d, hd, rest, hrest, -⟩ := bind_eq_ok.mp hrated |>.imp fun _ h => h.imp id bind_eq_ok.mp
      exact List.forall_mem_cons.mpr ⟨⟨d, hd⟩, ih rest hrest⟩

end GovernanceMesh

namespace GovernanceInput

variable {P : Primitives} {item : GovernanceInput}

-- an input as it comes back from the object that to_dict makes of it
def rebuilt (item : GovernanceInput) : GovernanceInput :=
  { item with metadata := some (item.metadata.getD []) }

theorem sameRating_rebuilt (item : GovernanceInput) :
    GovernanceMesh.SameRating P item item.rebuilt := ⟨rfl, rfl, rfl, rfl, rfl, rfl⟩

theorem sourceIdOf_str {s : Str} (h : s ≠ []) : sourceIdOf (.str s) = .ok ⟨s, h⟩ := by
  cases s with
  | nil => exact absurd rfl h
  | cons c s => rfl

theorem decisionOf_dict {d : PyDict} (hne : d ≠ []) {bytes : String}
    (h : canonicalJson P (.dict d) = .ok bytes) : decisionOf P (.dict d) = .ok d := by
  cases d with
  | nil => exact absurd rfl hne
  | cons m d => rw [decisionOf, h]

theorem allowOf_decided {decision : PyDict} {allow : Bool}
    (h : decision.get "allow" = some (.bool allow)) : allowOf decision = .ok ⟨allow, h⟩ := by
  revert h
  unfold allowOf
  generalize decision.get (lit "allow") = value
  rintro rfl
  rfl

theorem sourceSignatureOf_optStrVal {signature : Option Str} (h : signature ≠ some []) :
    sourceSignatureOf (GovernanceMesh.optStrVal signature) = .ok ⟨signature, h⟩ := by
  cases signature with
  | none => rfl
  | some s =>
      cases s with
      | nil => exact absurd rfl h
      | cons c s => rfl

theorem decision_ne_nil (item : GovernanceInput) : item.decision ≠ [] := by
  intro hnil
  have hallow := item.decided
  rw [hnil] at hallow
  cases hallow

theorem postInit_rebuilt {bytes : String} (h : canonicalJson P (.dict item.decision) = .ok bytes) :
    postInit P (.str item.sourceId) (.dict item.decision) (.int item.weight) (.int item.priority)
      (.dict (item.metadata.getD [])) (GovernanceMesh.optStrVal item.sourceSignature) =
        .ok item.rebuilt := by
  simp only [postInit, sourceIdOf_str item.sourceNonEmpty, decisionOf_dict item.decision_ne_nil h,
    weightOf, item.weightPos, priorityOf, item.priorityNonneg, dif_pos, metadataOf,
    sourceSignatureOf_optStrVal item.signatureNonEmpty]
  simp only [bind, Except.bind, allowOf_decided item.decided]
  rfl

-- the object that to_dict makes of an input, whether it is signed or not
structure Describes (d : PyDict) (item : GovernanceInput) (digest : Str) : Prop where
  only : d.hasOnly (inputKeys ++ ["source_signature"]) = true
  all : d.hasAll inputKeys = true
  sourceId : d.getD "source_id" = .str item.sourceId
  decision : d.getD "decision" = .dict item.decision
  weight : d.getD "weight" = .int item.weight
  priority : d.getD "priority" = .int item.priority
  metadata : d.getD "metadata" = .dict (item.metadata.getD [])
  digest : d.getD "decision_digest" = .str digest
  signature : d.getD "source_signature" = GovernanceMesh.optStrVal item.sourceSignature

-- its fields, ahead of the signature
def fieldsOf (item : GovernanceInput) (digest : Str) : List (String × PyVal) :=
  [("source_id", .str item.sourceId), ("decision", .dict item.decision),
    ("weight", .int item.weight), ("priority", .int item.priority),
    ("metadata", .dict (item.metadata.getD [])), ("decision_digest", .str digest)]

theorem describes_fieldsOf {digest : Str} {rest : List (String × PyVal)}
    (honly : ∀ m ∈ rest, m.1 = "source_signature")
    (hsignature : (PyDict.ofFields rest).getD "source_signature" =
      GovernanceMesh.optStrVal item.sourceSignature) :
    Describes (PyDict.ofFields (fieldsOf item digest ++ rest)) item digest := by
  simp only [fieldsOf, List.cons_append, List.nil_append]
  refine ⟨?_, ?_, ?_, ?_, ?_, ?_, ?_, ?_, ?_⟩
  · rw [PyVal.hasOnly_ofFields]
    intro m hm
    have hname : m.1 ∈ inputKeys ∨ m ∈ rest := by
      simp only [List.mem_cons] at hm
      rcases hm with rfl | rfl | rfl | rfl | rfl | rfl | hm
      · exact Or.inl (by simp [inputKeys])
      · exact Or.inl (by simp [inputKeys])
      · exact Or.inl (by simp [inputKeys])
      · exact Or.inl (by simp [inputKeys])
      · exact Or.inl (by simp [inputKeys])
      · exact Or.inl (by simp [inputKeys])
      · exact Or.inr hm
    rcases hname with hname | hm
    · exact List.mem_append_left _ hname
    · rw [honly m hm]
      exact List.mem_append_right _ List.mem_cons_self
  · simp [PyDict.hasAll, PyDict.has, inputKeys]
  · simp [PyDict.getD]
  · simp [PyDict.getD]
  · simp [PyDict.getD]
  · simp [PyDict.getD]
  · simp [PyDict.getD]
  · simp [PyDict.getD]
  · rw [← hsignature]
    simp [PyDict.getD]

theorem describes_toDict {d : PyDict} (h : item.toDict P = .ok d) :
    ∃ digest, item.digest P = .ok digest ∧ Describes d item digest := by
  obtain ⟨digest, hdigest, h⟩ := bind_eq_ok.mp h
  refine ⟨digest, hdigest, ?_⟩
  cases hsignature : item.sourceSignature with
  | none =>
      rw [hsignature] at h
      obtain rfl := Except.ok.inj h
      have hfields : Describes (PyDict.ofFields (fieldsOf item digest ++ [])) item digest :=
        describes_fieldsOf (by simp) (by rw [hsignature]; rfl)
      exact hfields
  | some signature =>
      rw [hsignature] at h
      obtain rfl := Except.ok.inj h
      have hfields : Describes (PyDict.ofFields (fieldsOf item digest ++
          [("source_signature", .str signature)])) item digest :=
        describes_fieldsOf (by simp) (by rw [hsignature]; simp [PyDict.getD, GovernanceMesh.optStrVal])
      exact hfields

theorem fromDict_toDict {d : PyDict} (h : item.toDict P = .ok d) :
    fromDict P (.dict d) = .ok item.rebuilt := by
  obtain ⟨digest, hdigest, hd⟩ := describes_toDict h
  obtain ⟨bytes, hbytes, -⟩ := bind_eq_ok.mp hdigest
  have hrebuilt : item.rebuilt.digest P = .ok digest := hdigest
  simp only [fromDict, hd.only, hd.all, hd.sourceId, hd.decision, hd.weight, hd.priority,
    hd.metadata, hd.signature, hd.digest, postInit_rebuilt hbytes]
  simp only [bind, Except.bind, hrebuilt]
  simp [raiseIf, PyVal.eq]

theorem toDict_ne_nil {inputs : List GovernanceInput} {items : List PyDict}
    (h : inputs.mapM (toDict P) = .ok items) (hne : inputs ≠ []) : items ≠ [] := by
  cases inputs with
  | nil => exact absurd rfl hne
  | cons item inputs =>
      simp only [List.mapM_cons, bind_eq_ok] at h
      obtain ⟨d, -, rest, -, h⟩ := h
      obtain rfl := Except.ok.inj h
      exact List.cons_ne_nil d rest

end GovernanceInput

namespace ExecutionBoundary

variable {P : Primitives}

theorem rebuildInputs_toDict {inputs : List GovernanceInput} {items : List PyDict}
    (h : inputs.mapM (GovernanceInput.toDict P) = .ok items) :
    rebuildInputs P (items.map .dict) = .ok (inputs.map GovernanceInput.rebuilt) := by
  induction inputs generalizing items with
  | nil =>
      obtain rfl := Except.ok.inj h
      rfl
  | cons item inputs ih =>
      simp only [List.mapM_cons, bind_eq_ok] at h
      obtain ⟨d, hd, rest, hrest, h⟩ := h
      obtain rfl := Except.ok.inj h
      simp only [List.map_cons, rebuildInputs, GovernanceInput.fromDict_toDict hd, ih hrest]
      rfl

-- the inputs in the log lead to the outcome that the issuer signed
theorem reconstruct_toDict {mesh : GovernanceMesh} {inputs : List GovernanceInput}
    {items : List PyDict} {requestDigest : Str} {preflight : GovernanceMesh.Preflight}
    (hitems : inputs.mapM (GovernanceInput.toDict P) = .ok items)
    (h : mesh.evaluate P inputs requestDigest none = .ok preflight) :
    reconstruct P (items.map .dict) requestDigest = .ok preflight.decision := by
  have hsame : List.Forall₂ (GovernanceMesh.SameRating P) inputs
      (inputs.map GovernanceInput.rebuilt) := by
    rw [List.forall₂_map_right_iff]
    exact List.forall₂_same.mpr fun item _ => GovernanceInput.sameRating_rebuilt item
  have hrebuilt : ({} : GovernanceMesh).evaluate P (inputs.map GovernanceInput.rebuilt)
      requestDigest none = .ok preflight := by
    rw [← GovernanceMesh.evaluate_congr hsame]
    exact GovernanceMesh.evaluate_untrusted h
  simp only [reconstruct, rebuildInputs_toDict hitems, bind, Except.bind, hrebuilt]
  rfl

end ExecutionBoundary

end GovernedAutonomy
