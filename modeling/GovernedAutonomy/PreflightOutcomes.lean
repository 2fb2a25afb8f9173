import GovernedAutonomy.Denial
import GovernedAutonomy.Python.Wording

namespace GovernedAutonomy

open Python

section Raising

variable {α β : Type} {p q : Exc → Bool} {x : Result α}

theorem onlyRaises_bind_iff {f : α → Result β} :
    OnlyRaises p (x >>= f) ↔ OnlyRaises p x ∧ ∀ a, x = .ok a → OnlyRaises p (f a) := by
  constructor
  · intro h
    exact ⟨fun e he => h e (bind_eq_error.mpr (Or.inl he)),
      fun a ha e he => h e (bind_eq_error.mpr (Or.inr ⟨a, ha, he⟩))⟩
  · rintro ⟨hx, hf⟩
    exact hx.bind_of_ok hf

theorem onlyRaises_iff_isOk (hx : OnlyRaises q x) (hpq : ∀ e, q e = true → p e = false) :
    OnlyRaises p x ↔ ∃ a, x = .ok a := by
  refine ⟨fun h => ?_, onlyRaises_of_isOk⟩
  cases x with
  | ok a => exact ⟨a, rfl⟩
  | error e =>
    have hyes := h e rfl
    rw [hpq e (hx e rfl)] at hyes
    cases hyes

theorem onlyRaises_forM_iff {f : α → Result Unit} {inputs : List α} :
    OnlyRaises p (inputs.forM f) ↔ ∀ before a after, inputs = before ++ a :: after →
      (∀ b ∈ before, f b = .ok ()) → OnlyRaises p (f a) := by
  induction inputs with
  | nil =>
    refine iff_of_true (onlyRaises_ok ()) ?_
    intro before a after h
    exact absurd h.symm (by simp)
  | cons i inputs ih =>
    rw [show (i :: inputs).forM f = (f i >>= fun _ => inputs.forM f) from rfl,
      onlyRaises_bind_iff]
    constructor
    · rintro ⟨hi, hrest⟩ before a after h hbefore
      cases before with
      | nil =>
        obtain ⟨rfl, -⟩ := List.cons.inj h
        exact hi
      | cons b before =>
        obtain ⟨rfl, htail⟩ := List.cons.inj h
        obtain ⟨hb, hbefore⟩ := List.forall_mem_cons.mp hbefore
        exact ih.mp (hrest () hb) before a after htail hbefore
    · intro h
      refine ⟨h [] i inputs rfl (fun b hb => absurd hb List.not_mem_nil), fun _ hi => ?_⟩
      refine ih.mpr fun before a after heq hbefore => ?_
      exact h (i :: before) a after (congrArg (List.cons i) heq)
        (List.forall_mem_cons.mpr ⟨hi, hbefore⟩)

end Raising

def isMeshError : Exc → Bool
  | .custom cls _ _ _ => decide (cls = "GovernanceMeshError")
  | _ => false

theorem onlyMesh_plain {α : Type} {x : Result α} (hx : OnlyRaises Exc.isPlain x) :
    OnlyRaises isMeshError x ↔ ∃ a, x = .ok a := by
  refine onlyRaises_iff_isOk hx ?_
  intro e he
  cases e with
  | custom cls _ _ _ => cases he
  | _ => rfl

theorem onlyMesh_raiseIf {c : Prop} [Decidable c] (message : Str) :
    OnlyRaises isMeshError (raiseIf c (governanceMeshError message)) :=
  onlyRaises_raiseIf rfl

namespace GovernanceInput

variable (P : Primitives)

-- what an input is made of can be written so many levels below the document it stands in
structure Writable (item : GovernanceInput) (depth : Nat) : Prop where
  sourceId : Json.Clean item.sourceId
  decision : (PyVal.dict item.decision).Encodable depth
  weight : (digits item.weight.natAbs).length ≤ maxStrDigits
  priority : (digits item.priority.natAbs).length ≤ maxStrDigits
  metadata : (PyVal.dict (item.metadata.getD [])).Encodable depth

theorem attestationPayload_isOk {item : GovernanceInput} :
    (∃ payload, item.attestationPayload P = .ok payload) ↔
      0 < P.recursionLimit ∧ item.Writable (P.recursionLimit - 1) := by
  rw [attestationPayload, canonicalJson_isOk, PyVal.encodable_ofFields]
  simp only [List.forall_mem_cons, PyVal.encodable_str, PyVal.encodable_int, List.not_mem_nil,
    IsEmpty.forall_iff, implies_true, and_true]
  refine and_congr_right fun _ => ⟨?_, ?_⟩
  · rintro ⟨hsource, hdecision, hweight, hpriority, hmetadata⟩
    exact ⟨hsource, hdecision, hweight, hpriority, hmetadata⟩
  · intro h
    exact ⟨h.sourceId, h.decision, h.weight, h.priority, h.metadata⟩

end GovernanceInput

namespace GovernanceMesh

section Attestation

variable (P : Primitives) (mesh : GovernanceMesh)

-- a source that the mesh has a key for has signed
def Signed (item : GovernanceInput) : Prop :=
  (mesh.trustedSources.isEmpty && mesh.trustStore.isNone && mesh.sourceRegistry.isNone) = false ∧
    (mesh.attestationKey item.sourceId).isSome ∧ item.sourceSignature.isSome

-- the payload of every signed input that is come to can be written
def Attests (inputs : List GovernanceInput) : Prop :=
  ∀ before item after, inputs = before ++ item :: after →
    (∀ other ∈ before, mesh.verifySourceAttestation P other = .ok ()) → mesh.Signed item →
      0 < P.recursionLimit ∧ item.Writable (P.recursionLimit - 1)

variable {P mesh} {inputs : List GovernanceInput}

theorem onlyMesh_attestation {item : GovernanceInput} :
    OnlyRaises isMeshError (mesh.verifySourceAttestation P item) ↔
      (mesh.Signed item → 0 < P.recursionLimit ∧ item.Writable (P.recursionLimit - 1)) := by
  rw [← GovernanceInput.attestationPayload_isOk]
  unfold verifySourceAttestation
  split
  · rename_i hopen
    refine iff_of_true (onlyRaises_ok ()) fun hsigned => ?_
    exact absurd (hopen.symm.trans hsigned.1) Bool.noConfusion
  · rename_i hclosed
    simp only
    split
    · rename_i key signature hkey hsignature
      have hpayload : OnlyRaises Exc.isPlain (item.attestationPayload P) := onlyRaises_canonicalJson _
      have hsigned : mesh.Signed item :=
        ⟨Bool.eq_false_of_not_eq_true hclosed, by rw [hkey]; rfl, by rw [hsignature]; rfl⟩
      rw [onlyRaises_bind_iff, onlyMesh_plain hpayload]
      exact ⟨fun h _ => h.1, fun h => ⟨h hsigned, fun _ _ => onlyMesh_raiseIf _⟩⟩
    · rename_i hnone
      refine iff_of_true (onlyRaises_error rfl) fun hsigned => ?_
      obtain ⟨key, hkey⟩ := Option.isSome_iff_exists.mp hsigned.2.1
      obtain ⟨signature, hsignature⟩ := Option.isSome_iff_exists.mp hsigned.2.2
      exact absurd hsignature (hnone key signature hkey)

theorem onlyMesh_attestations :
    OnlyRaises isMeshError (inputs.forM (mesh.verifySourceAttestation P)) ↔
      mesh.Attests P inputs := by
  rw [onlyRaises_forM_iff]
  exact forall₅_congr fun before item after _ _ => onlyMesh_attestation

end Attestation

section Reasons

variable {P : Primitives}

-- what the reasons of a decision may be for preflight to go through them
def Iterable : PyVal → Bool
  | .list _ => true
  | .tuple _ => true
  | .str _ => true
  | .dict _ => true
  | _ => false

theorem iterate_isOk {value : PyVal} : (∃ xs, iterate value = .ok xs) ↔ Iterable value = true := by
  cases value with
  | list xs => exact iff_of_true ⟨_, rfl⟩ rfl
  | tuple xs => exact iff_of_true ⟨_, rfl⟩ rfl
  | str s => exact iff_of_true ⟨_, rfl⟩ rfl
  | dict ms => exact iff_of_true ⟨_, rfl⟩ rfl
  | _ =>
    refine iff_of_false ?_ (by simp [Iterable])
    rintro ⟨xs, h⟩
    cases h

-- each part of a writable value has a clean text
theorem iterate_texts {value : PyVal} {depth : Nat} (h : value.Encodable depth)
    {values : List PyVal} (hvalues : iterate value = .ok values) :
    ∀ v ∈ values, ∃ text, P.str v = .ok text ∧ Json.Clean text := by
  have hdeep : ∀ {v : PyVal} {d : Nat}, v.Encodable d → ∃ text, P.str v = .ok text ∧ Json.Clean text := by
    intro v d hv
    obtain ⟨text, htext⟩ := hv.str_isOk P.toInterpreter
    exact ⟨text, htext, Interpreter.clean_str hv htext⟩
  intro v hv
  cases value with
  | list xs =>
    obtain rfl := Except.ok.inj hvalues
    exact hdeep ((PyVal.encodable_list.mp h).2 v hv)
  | tuple xs =>
    obtain rfl := Except.ok.inj hvalues
    exact hdeep ((PyVal.encodable_tuple.mp h).2 v hv)
  | str s =>
    obtain rfl := Except.ok.inj hvalues
    obtain ⟨c, hc, rfl⟩ := List.mem_map.mp hv
    exact ⟨[c], rfl, Json.clean_cons (PyVal.encodable_str.mp h c hc) Json.clean_nil⟩
  | dict ms =>
    obtain rfl := Except.ok.inj hvalues
    obtain ⟨⟨k, w⟩, hm, rfl⟩ := List.mem_map.mp hv
    obtain ⟨⟨text, htext, hclean⟩, -⟩ := (PyVal.encodable_dict.mp h).2.2 _ hm
    cases k with
    | str s =>
      obtain rfl := Except.ok.inj htext
      exact ⟨s, rfl, hclean⟩
    | int i => exact ⟨text, htext, hclean⟩
    | bool b => exact ⟨_, rfl, Interpreter.clean_reprBool b⟩
    | float f => exact ⟨_, rfl, Interpreter.clean_reprFloat f⟩
    | none => exact ⟨_, rfl, Json.clean_lit _⟩
    | other id => cases htext
  | _ => cases hvalues

theorem strAll_texts {values : List PyVal}
    (h : ∀ v ∈ values, ∃ text, P.str v = .ok text ∧ Json.Clean text) :
    ∃ texts, strAll P values = .ok texts ∧ ∀ text ∈ texts, Json.Clean text := by
  induction values with
  | nil => exact ⟨[], rfl, fun text ht => absurd ht List.not_mem_nil⟩
  | cons v values ih =>
    obtain ⟨⟨text, htext, hclean⟩, hvalues⟩ := List.forall_mem_cons.mp h
    obtain ⟨texts, htexts, hall⟩ := ih hvalues
    refine ⟨text :: texts, ?_, List.forall_mem_cons.mpr ⟨hclean, hall⟩⟩
    simp only [strAll, htext, htexts, bind, Except.bind]

def ReasonsIterable (decision : PyDict) : Prop :=
  ∀ value, decision.get "reasons" = some value → Iterable value = true

theorem reasonsOf_texts {decision : PyDict} {depth : Nat}
    (h : (PyVal.dict decision).Encodable depth) (hreasons : ReasonsIterable decision) :
    ∃ reasons, reasonsOf P decision = .ok reasons ∧ ∀ r ∈ reasons, Json.Clean r := by
  have hvalues : ∃ values, iterate ((decision.get "reasons").getD (.tuple [])) = .ok values ∧
      ∀ v ∈ values, ∃ text, P.str v = .ok text ∧ Json.Clean text := by
    cases hget : decision.get (lit "reasons") with
    | none => exact ⟨[], rfl, fun v hv => absurd hv List.not_mem_nil⟩
    | some value =>
      obtain ⟨values, hok⟩ := iterate_isOk.mpr (hreasons value hget)
      exact ⟨values, hok, iterate_texts (h.of_get hget) hok⟩
  obtain ⟨values, hok, htexts⟩ := hvalues
  obtain ⟨texts, hall, hclean⟩ := strAll_texts htexts
  exact ⟨texts, by rw [reasonsOf, hok]; exact hall, hclean⟩

theorem reasonsIterable_of_ok {decision : PyDict} {reasons : List Str}
    (h : reasonsOf P decision = .ok reasons) : ReasonsIterable decision := by
  intro value hvalue
  obtain ⟨values, hvalues, -⟩ := bind_eq_ok.mp h
  rw [hvalue] at hvalues
  exact iterate_isOk.mp ⟨values, hvalues⟩

end Reasons

section Conflicts

variable {P : Primitives} {inputs : List GovernanceInput} {top : ℤ} {rated : List Rated}

def conflictOf (top : ℤ) (source other : Rated) : PyDict :=
  PyDict.ofFields
    [("source_ids", strList [source.1.sourceId, other.1.sourceId]),
      ("left_digest", .str source.2), ("right_digest", .str other.2),
      ("left_allow", .bool source.1.allow), ("right_allow", .bool other.1.allow),
      ("priority", .int top)]

theorem mem_bySource {item : Rated} : item ∈ bySource rated ↔ item ∈ rated :=
  List.mem_insertionSort _

theorem mem_conflictsOf {conflict : PyDict} : conflict ∈ conflictsOf top rated ↔
    ∃ source ∈ rated, ∃ other ∈ rated, source.1.sourceId < other.1.sourceId ∧
      source.2 ≠ other.2 ∧ conflict = conflictOf top source other := by
  simp only [conflictsOf, List.mem_flatMap, List.mem_map, List.mem_filter, mem_bySource,
    decide_eq_true_eq]
  constructor
  · rintro ⟨source, hsource, other, ⟨hother, hlt, hne⟩, rfl⟩
    exact ⟨source, hsource, other, hother, hlt, hne, rfl⟩
  · rintro ⟨source, hsource, other, hother, hlt, hne, rfl⟩
    exact ⟨source, hsource, other, ⟨hother, hlt, hne⟩, rfl⟩

theorem encodable_conflictOf {source other : Rated} {depth : Nat}
    (hsource : Json.Clean source.1.sourceId ∧ Json.Clean source.2)
    (hother : Json.Clean other.1.sourceId ∧ Json.Clean other.2) :
    (PyVal.dict (conflictOf top source other)).Encodable depth ↔
      2 ≤ depth ∧ (digits top.natAbs).length ≤ maxStrDigits := by
  rw [conflictOf, PyVal.encodable_ofFields]
  simp only [List.forall_mem_cons, encodable_strList, PyVal.encodable_str, PyVal.encodable_bool,
    PyVal.encodable_int]
  constructor
  · rintro ⟨-, ⟨hdepth, -⟩, -, -, -, -, hdigits, -⟩
    exact ⟨by omega, hdigits⟩
  · rintro ⟨hdepth, hdigits⟩
    exact ⟨by omega, ⟨by omega, hsource.1, hother.1, by simp⟩, hsource.2, hother.2, trivial,
      trivial, hdigits, by simp⟩

theorem clean_rate (item : GovernanceInput) : Json.Clean (rate P item).2 := by
  rw [rate]
  cases hdigest : item.digest P with
  | error e => exact Json.clean_nil
  | ok digest =>
    obtain ⟨bytes, -, hbytes⟩ := bind_eq_ok.mp hdigest
    obtain rfl := Except.ok.inj hbytes
    exact clean_hexdigest bytes

-- where the top inputs differ, some conflict is reported
theorem conflict_of_contested (hdistinct : (inputs.map GovernanceInput.sourceId).Nodup)
    (h : Contested (inputs.map (rate P))) :
    ∃ source ∈ inputs, ∃ other ∈ inputs, conflictOf top (rate P source) (rate P other) ∈
      conflictsOf top (topInputs (inputs.map (rate P))) := by
  obtain ⟨a, ha, b, hb, hne⟩ := h
  obtain ⟨x, hx, rfl⟩ := List.mem_map.mp (List.mem_filter.mp ha).1
  obtain ⟨y, hy, rfl⟩ := List.mem_map.mp (List.mem_filter.mp hb).1
  have hids : x.sourceId ≠ y.sourceId := by
    intro hsame
    obtain rfl := List.inj_on_of_nodup_map hdistinct hx hy hsame
    exact hne rfl
  rcases lt_or_gt_of_ne hids with hlt | hgt
  · exact ⟨x, hx, y, hy, mem_conflictsOf.mpr ⟨_, ha, _, hb, hlt, hne, rfl⟩⟩
  · exact ⟨y, hy, x, hx, mem_conflictsOf.mpr ⟨_, hb, _, ha, hgt, hne.symm, rfl⟩⟩

theorem encodable_conflicts (hdistinct : (inputs.map GovernanceInput.sourceId).Nodup)
    (hsources : ∀ item ∈ inputs, Json.Clean item.sourceId) {depth : Nat} :
    (∀ conflict ∈ conflictsOf top (topInputs (inputs.map (rate P))),
      (PyVal.dict conflict).Encodable depth) ↔
        (Contested (inputs.map (rate P)) →
          2 ≤ depth ∧ (digits top.natAbs).length ≤ maxStrDigits) := by
  have hclean : ∀ item ∈ inputs, Json.Clean (rate P item).1.sourceId ∧
      Json.Clean (rate P item).2 := fun item hitem => ⟨hsources item hitem, clean_rate item⟩
  constructor
  · intro hall hcontested
    obtain ⟨source, hsource, other, hother, hmem⟩ := conflict_of_contested hdistinct hcontested
    exact (encodable_conflictOf (hclean source hsource) (hclean other hother)).mp (hall _ hmem)
  · intro h conflict hconflict
    obtain ⟨a, ha, b, hb, -, hne, rfl⟩ := mem_conflictsOf.mp hconflict
    obtain ⟨x, hx, rfl⟩ := List.mem_map.mp (List.mem_filter.mp ha).1
    obtain ⟨y, hy, rfl⟩ := List.mem_map.mp (List.mem_filter.mp hb).1
    exact (encodable_conflictOf (hclean x hx) (hclean y hy)).mpr (h ⟨_, ha, _, hb, hne⟩)

end Conflicts

section Conclusion

variable (P : Primitives) (inputs : List GovernanceInput) (requestDigest : Str)

-- the first input of the winning group
def lead? : Option GovernanceInput :=
  (winner? (inputs.map (rate P))).bind (fun group => group.2.head?.map Prod.fst)

-- what preflight makes of verified inputs can be written so many levels deep
structure Conclusive (depth : Nat) : Prop where
  room : 2 ≤ depth
  requestDigest : Json.Clean requestDigest
  sources : ∀ item ∈ inputs, Json.Clean item.sourceId
  contested : Contested (inputs.map (rate P)) → 4 ≤ depth ∧
    (digits (topPriority (inputs.map (rate P))).natAbs).length ≤ maxStrDigits
  settled : ¬ Contested (inputs.map (rate P)) →
    ∀ lead, lead? P inputs = some lead → ReasonsIterable lead.decision

variable {P inputs requestDigest}

theorem outcomeOf_lead (hne : inputs ≠ []) (h : ¬ Contested (inputs.map (rate P))) :
    ∃ lead ∈ inputs, lead? P inputs = some lead ∧ outcomeOf P (inputs.map (rate P)) =
      (reasonsOf P lead.decision).map (ledBy (inputs.map (rate P)) (rate P lead)) := by
  have hrated : inputs.map (rate P) ≠ [] := by rwa [ne_eq, List.map_eq_nil_iff]
  obtain ⟨rated, hmem, ⟨members, hwinner⟩, -, houtcome⟩ :=
    outcomeOf_uncontested (P := P) hrated h
  obtain ⟨lead, hlead, rfl⟩ := List.mem_map.mp hmem
  exact ⟨lead, hlead, by rw [lead?, hwinner]; rfl, houtcome⟩

theorem clean_optStrVal {s : Option Str} {depth : Nat} :
    (optStrVal s).Encodable depth ↔ ∀ text, s = some text → Json.Clean text := by
  cases s with
  | none => simp [optStrVal]
  | some text => simp [optStrVal, PyVal.encodable_str]

variable (inputs) in
-- what an outcome says, apart from the conflicts
structure Spelled (outcome : Outcome) : Prop where
  reasons : ∀ r ∈ outcome.reasons, Json.Clean r
  selectedDigest : ∀ text, outcome.selectedDigest = some text → Json.Clean text
  selectedSourceIds : ∀ s ∈ outcome.selectedSourceIds, ∃ item ∈ inputs, item.sourceId = s

theorem spelled_ledBy {lead : GovernanceInput} {reasons : List Str}
    (hreasons : ∀ r ∈ reasons, Json.Clean r) :
    Spelled inputs (ledBy (inputs.map (rate P)) (rate P lead) reasons) := by
  refine ⟨hreasons, fun text htext => ?_, fun s hs => ?_⟩
  · obtain rfl := Option.some.inj htext
    exact clean_rate lead
  · have hmem := (List.mem_insertionSort _).mp hs
    rw [carriers_carrying] at hmem
    obtain ⟨item, hitem, rfl⟩ := List.mem_map.mp hmem
    exact ⟨item, (List.mem_filter.mp hitem).1, rfl⟩

theorem spelled_conflicted : Spelled inputs conflicted := by
  refine ⟨fun r hr => ?_, fun text htext => ?_, fun s hs => absurd hs List.not_mem_nil⟩
  · rw [List.mem_singleton.mp hr]
    exact Json.clean_lit _
  · cases htext

def evidenceOf (P : Primitives) (inputs : List GovernanceInput) (requestDigest : Str)
    (outcome : Outcome) : PyDict :=
  unsignedDict requestDigest none outcome
    ((bySource (inputs.map (rate P))).map (fun item => (item.1.sourceId, item.2)))
    (conflictsOf (topPriority (inputs.map (rate P))) (topInputs (inputs.map (rate P))))

theorem encodable_evidence (hdistinct : (inputs.map GovernanceInput.sourceId).Nodup)
    {outcome : Outcome} (hspelled : Spelled inputs outcome) {depth : Nat} :
    (PyVal.dict (evidenceOf P inputs requestDigest outcome)).Encodable depth ↔
      2 ≤ depth ∧ Json.Clean requestDigest ∧ (∀ item ∈ inputs, Json.Clean item.sourceId) ∧
        (Contested (inputs.map (rate P)) → 4 ≤ depth ∧
          (digits (topPriority (inputs.map (rate P))).natAbs).length ≤ maxStrDigits) := by
  have hsources : (∀ item ∈ bySource (inputs.map (rate P)), Json.Clean item.1.sourceId ∧
      Json.Clean item.2) ↔ ∀ item ∈ inputs, Json.Clean item.sourceId := by
    constructor
    · intro h item hitem
      exact (h (rate P item) (mem_bySource.mpr (List.mem_map_of_mem hitem))).1
    · intro h item hitem
      obtain ⟨x, hx, rfl⟩ := List.mem_map.mp (mem_bySource.mp hitem)
      exact ⟨h x hx, clean_rate x⟩
  rw [evidenceOf, unsignedDict, PyVal.encodable_ofFields]
  simp only [List.forall_mem_cons, encodable_strList, PyVal.encodable_str, PyVal.encodable_bool,
    clean_optStrVal, encodable_strDict, PyVal.encodable_list, List.forall_mem_map, hsources]
  constructor
  · rintro ⟨-, hdigest, -, -, -, -, ⟨hdepth, hclean⟩, ⟨-, hconflicts⟩, -⟩
    refine ⟨by omega, hdigest, hclean, fun hcontested => ?_⟩
    obtain ⟨hroom, hdigits⟩ := (encodable_conflicts hdistinct hclean).mp hconflicts hcontested
    exact ⟨by omega, hdigits⟩
  · rintro ⟨hdepth, hdigest, hclean, hcontested⟩
    have hroom : 0 < depth - 1 := by omega
    have hids : ∀ s ∈ outcome.selectedSourceIds, Json.Clean s := by
      intro s hs
      obtain ⟨item, hitem, rfl⟩ := hspelled.selectedSourceIds s hs
      exact hclean item hitem
    have hconflicts : ∀ conflict ∈ conflictsOf (topPriority (inputs.map (rate P)))
        (topInputs (inputs.map (rate P))), (PyVal.dict conflict).Encodable (depth - 1 - 1) := by
      refine (encodable_conflicts hdistinct hclean).mpr fun h => ⟨?_, (hcontested h).2⟩
      have hlevels := (hcontested h).1
      omega
    exact ⟨by omega, hdigest, trivial, Json.clean_lit _, hspelled.selectedDigest, ⟨hroom, hids⟩,
      ⟨hroom, hclean⟩, ⟨hroom, hconflicts⟩, ⟨hroom, hspelled.reasons⟩, by simp, by simp⟩

section Accepted

variable (hdigests : ∀ item ∈ inputs, item.digest P = .ok (rate P item).2) (hne : inputs ≠ [])

include hdigests hne

theorem exists_outcome (h : ¬ Contested (inputs.map (rate P)) →
    ∀ lead, lead? P inputs = some lead → ReasonsIterable lead.decision) :
    ∃ outcome, outcomeOf P (inputs.map (rate P)) = .ok outcome := by
  by_cases hcontested : Contested (inputs.map (rate P))
  · have hrated : inputs.map (rate P) ≠ [] := by rwa [ne_eq, List.map_eq_nil_iff]
    exact ⟨conflicted, outcomeOf_contested hrated hcontested⟩
  · obtain ⟨lead, hlead, hfirst, houtcome⟩ := outcomeOf_lead hne hcontested
    have hencodable := (canonicalDigest_isOk P).mp ⟨_, hdigests lead hlead⟩
    obtain ⟨reasons, hreasons, -⟩ := reasonsOf_texts hencodable (h hcontested lead hfirst)
    exact ⟨_, by rw [houtcome, hreasons]; rfl⟩

theorem outcome_spelled {outcome : Outcome}
    (h : outcomeOf P (inputs.map (rate P)) = .ok outcome) : Spelled inputs outcome ∧
      (¬ Contested (inputs.map (rate P)) →
        ∀ lead, lead? P inputs = some lead → ReasonsIterable lead.decision) := by
  by_cases hcontested : Contested (inputs.map (rate P))
  · have hrated : inputs.map (rate P) ≠ [] := by rwa [ne_eq, List.map_eq_nil_iff]
    obtain rfl := Except.ok.inj ((outcomeOf_contested hrated hcontested).symm.trans h)
    exact ⟨spelled_conflicted, fun hnot => absurd hcontested hnot⟩
  · obtain ⟨lead, hlead, hfirst, houtcome⟩ := outcomeOf_lead hne hcontested
    have hencodable := (canonicalDigest_isOk P).mp ⟨_, hdigests lead hlead⟩
    obtain ⟨reasons, hreasons, rfl⟩ := map_eq_ok.mp (houtcome.symm.trans h)
    have hiterable := reasonsIterable_of_ok hreasons
    obtain ⟨texts, htexts, hclean⟩ := reasonsOf_texts hencodable hiterable
    obtain rfl := Except.ok.inj (hreasons.symm.trans htexts)
    refine ⟨spelled_ledBy hclean, fun _ other hother => ?_⟩
    obtain rfl := Option.some.inj (hfirst.symm.trans hother)
    exact hiterable

theorem conclusive_iff (hdistinct : (inputs.map GovernanceInput.sourceId).Nodup) {depth : Nat} :
    Conclusive P inputs requestDigest depth ↔
      ∃ outcome, outcomeOf P (inputs.map (rate P)) = .ok outcome ∧
        (PyVal.dict (evidenceOf P inputs requestDigest outcome)).Encodable depth := by
  constructor
  · intro h
    obtain ⟨outcome, houtcome⟩ := exists_outcome hdigests hne h.settled
    refine ⟨outcome, houtcome, ?_⟩
    exact (encodable_evidence hdistinct (outcome_spelled hdigests hne houtcome).1).mpr
      ⟨h.room, h.requestDigest, h.sources, h.contested⟩
  · rintro ⟨outcome, houtcome, hencodable⟩
    obtain ⟨hspelled, hsettled⟩ := outcome_spelled hdigests hne houtcome
    obtain ⟨hroom, hdigest, hsources, hcontested⟩ := (encodable_evidence hdistinct hspelled).mp hencodable
    exact ⟨hroom, hdigest, hsources, hcontested, hsettled⟩

end Accepted

end Conclusion

section Totality

variable (P : Primitives) (mesh : GovernanceMesh) (inputs : List GovernanceInput)
  (requestDigest : Str)

def Verified : Prop := ∀ item ∈ inputs, mesh.verifySourceAttestation P item = .ok ()

-- preflight has nothing to raise but its own error; its log, if any, takes two more levels
def Composed (recorded : Bool) : Prop :=
  requestDigest ≠ [] → inputs ≠ [] → mesh.Attests P inputs ∧
    (mesh.Verified P inputs → (inputs.map GovernanceInput.sourceId).Nodup →
      Conclusive P inputs requestDigest
        (if recorded then P.recursionLimit - 2 else P.recursionLimit))

variable {P mesh inputs requestDigest}

theorem Conclusive.mono {depth depth' : Nat} (h : Conclusive P inputs requestDigest depth)
    (hle : depth ≤ depth') : Conclusive P inputs requestDigest depth' where
  room := h.room.trans hle
  requestDigest := h.requestDigest
  sources := h.sources
  contested := fun hcontested => ⟨(h.contested hcontested).1.trans hle, (h.contested hcontested).2⟩
  settled := h.settled

section Accepted

variable (hdigests : ∀ item ∈ inputs, item.digest P = .ok (rate P item).2)

include hdigests

theorem onlyMesh_outcome (hne : inputs ≠ [])
    (hdistinct : (inputs.map GovernanceInput.sourceId).Nodup) :
    (OnlyRaises isMeshError (outcomeOf P (inputs.map (rate P))) ∧
      ∀ outcome, outcomeOf P (inputs.map (rate P)) = .ok outcome → OnlyRaises isMeshError
        (canonicalDigest P (.dict (evidenceOf P inputs requestDigest outcome)))) ↔
      Conclusive P inputs requestDigest P.recursionLimit := by
  have hplain := onlyRaises_outcomeOf (rateAll_eq_ok.mpr ⟨hdigests, rfl⟩)
  rw [conclusive_iff hdigests hne hdistinct, onlyMesh_plain hplain]
  constructor
  · rintro ⟨⟨outcome, houtcome⟩, hall⟩
    have hdigest := (onlyMesh_plain (onlyRaises_canonicalDigest _)).mp (hall outcome houtcome)
    exact ⟨outcome, houtcome, (canonicalDigest_isOk P).mp hdigest⟩
  · rintro ⟨outcome, houtcome, hencodable⟩
    refine ⟨⟨outcome, houtcome⟩, fun other hother => ?_⟩
    obtain rfl := Except.ok.inj (houtcome.symm.trans hother)
    exact onlyRaises_of_isOk ((canonicalDigest_isOk P).mpr hencodable)

theorem onlyMesh_evaluate : OnlyRaises isMeshError (mesh.evaluate P inputs requestDigest none) ↔
    mesh.Composed P inputs requestDigest false := by
  have hrated : ∀ rated, rateAll P inputs = .ok rated ↔ rated = inputs.map (rate P) := fun rated =>
    rateAll_eq_ok.trans (and_iff_right hdigests)
  have hverify : ∀ u, inputs.forM (mesh.verifySourceAttestation P) = .ok u ↔
      mesh.Verified P inputs := fun _ => forM_eq_ok
  simp only [evaluate, onlyRaises_bind_iff, onlyMesh_raiseIf, true_and, raiseIf_eq_ok,
    onlyMesh_attestations, hverify, hrated, forall_const, not_not]
  refine forall₂_congr fun hdigest hne => and_congr_right fun _ => ?_
  refine forall₂_congr fun hverified hdistinct => ?_
  have hall : OnlyRaises isMeshError (rateAll P inputs) :=
    onlyRaises_of_isOk ⟨_, (hrated _).mpr rfl⟩
  rw [and_iff_right hall]
  refine Iff.trans ?_ (onlyMesh_outcome hdigests hne hdistinct)
  constructor
  · intro h
    exact ⟨(h _ rfl).1, fun outcome houtcome => ((h _ rfl).2 outcome houtcome).1⟩
  · rintro ⟨houtcome, hcanonical⟩ rated rfl
    exact ⟨houtcome, fun outcome hok => ⟨hcanonical outcome hok, fun _ _ => onlyRaises_ok _⟩⟩

theorem evaluate_isOk : (∃ preflight, mesh.evaluate P inputs requestDigest none = .ok preflight) ↔
    requestDigest ≠ [] ∧ inputs ≠ [] ∧ mesh.Verified P inputs ∧
      (inputs.map GovernanceInput.sourceId).Nodup ∧
        Conclusive P inputs requestDigest P.recursionLimit := by
  constructor
  · rintro ⟨preflight, h⟩
    obtain ⟨hdigest, hverified, outcome, hevaluated⟩ := evaluate_eq_ok.mp h
    refine ⟨hdigest, hevaluated.nonempty, hverified, hevaluated.distinct, ?_⟩
    refine (conclusive_iff hdigests hevaluated.nonempty hevaluated.distinct).mpr
      ⟨outcome, hevaluated.agreed,
        (canonicalDigest_isOk P).mp ⟨preflight.decision.digest, ?_⟩⟩
    have hunsigned : preflight.unsigned = evidenceOf P inputs requestDigest outcome :=
      hevaluated.unsigned
    rw [← hunsigned]
    exact hevaluated.digest
  · rintro ⟨hdigest, hne, hverified, hdistinct, hconclusive⟩
    obtain ⟨outcome, houtcome, hencodable⟩ :=
      (conclusive_iff hdigests hne hdistinct).mp hconclusive
    obtain ⟨digest, hcanonical⟩ := (canonicalDigest_isOk P).mpr hencodable
    let preflight : Preflight :=
      { decision :=
          { allow := outcome.allow, status := outcome.status
            selectedDigest := outcome.selectedDigest
            selectedSourceIds := outcome.selectedSourceIds
            inputDigests :=
              (bySource (inputs.map (rate P))).map (fun item => (item.1.sourceId, item.2))
            conflicts := conflictsOf (topPriority (inputs.map (rate P)))
              (topInputs (inputs.map (rate P)))
            reasons := outcome.reasons, digest := digest, replayFrameRef := none }
        unsigned := evidenceOf P inputs requestDigest outcome }
    exact ⟨preflight, evaluate_eq_ok.mpr ⟨hdigest, hverified, outcome,
      ⟨hdigests, hne, hdistinct, houtcome, rfl, hcanonical, rfl⟩⟩⟩

-- once the inputs are ruled on, the log takes the event when there are two more levels
theorem recorded_isOk {log : ReplayLog} (hlog : log.Linked P) {preflight : Preflight}
    (h : mesh.evaluate P inputs requestDigest none = .ok preflight) :
    (∃ result, log.append P (frameRef preflight) (preflightEvent requestDigest preflight) =
      .ok result) ↔ Conclusive P inputs requestDigest (P.recursionLimit - 2) := by
  obtain ⟨-, -, outcome, hevaluated⟩ := evaluate_eq_ok.mp h
  have hunsigned : preflight.unsigned = evidenceOf P inputs requestDigest outcome :=
    hevaluated.unsigned
  have hdigest : Json.Clean preflight.decision.digest := by
    obtain ⟨bytes, -, hbytes⟩ := bind_eq_ok.mp hevaluated.digest
    rw [← Except.ok.inj hbytes]
    exact clean_hexdigest bytes
  have hframe : Json.Clean (frameRef preflight) := by
    rw [frameRef, hevaluated.decision]
    exact Json.clean_append (Json.clean_lit _) hdigest
  have hevidence : Conclusive P inputs requestDigest (P.recursionLimit - 2) ↔
      (PyVal.dict preflight.unsigned).Encodable (P.recursionLimit - 2) := by
    rw [hunsigned, conclusive_iff hdigests hevaluated.nonempty hevaluated.distinct]
    constructor
    · rintro ⟨other, hother, hencodable⟩
      obtain rfl := Except.ok.inj (hevaluated.agreed.symm.trans hother)
      exact hencodable
    · intro hencodable
      exact ⟨outcome, hevaluated.agreed, hencodable⟩
  rw [ReplayLog.append_isOk, ReplayFrame.create_isOk, preflightEvent, PyVal.encodable_ofFields,
    hevidence, show P.recursionLimit - 1 - 1 = P.recursionLimit - 2 by omega]
  simp only [List.forall_mem_cons, PyVal.encodable_str]
  constructor
  · rintro ⟨-, -, -, -, -, -, -, hencodable, -⟩
    exact hencodable
  · intro hencodable
    have hconclusive := hevidence.mpr hencodable
    have hroom := hconclusive.room
    exact ⟨by omega, hframe, ReplayLog.clean_headHash P hlog, by omega, Json.clean_lit _,
      hconclusive.requestDigest, hdigest, hencodable, by simp⟩

theorem onlyMesh_preflight {log : ReplayLog} (hlog : log.Linked P) :
    OnlyRaises isMeshError (mesh.preflight P log inputs requestDigest none) ↔
      mesh.Composed P inputs requestDigest true := by
  rw [preflight, onlyRaises_bind_iff, onlyMesh_evaluate hdigests]
  have happend : ∀ result, mesh.evaluate P inputs requestDigest none = .ok result →
      (OnlyRaises isMeshError (log.append P (frameRef result)
        (preflightEvent requestDigest result) >>= fun appended =>
          (.ok (appended.1, { result.decision with replayFrameRef := some (frameRef result) }) :
            Result (ReplayLog × GovernancePreflightDecision))) ↔
        Conclusive P inputs requestDigest (P.recursionLimit - 2)) := by
    intro result hresult
    rw [onlyRaises_bind_iff, onlyMesh_plain (ReplayLog.onlyRaises_append _ _ _),
      recorded_isOk hdigests hlog hresult]
    exact and_iff_left fun _ _ => onlyRaises_ok _
  constructor
  · rintro ⟨hcomposed, hrecorded⟩ hdigest hne
    obtain ⟨hattests, hconclusive⟩ := hcomposed hdigest hne
    refine ⟨hattests, fun hverified hdistinct => ?_⟩
    obtain ⟨result, hresult⟩ := (evaluate_isOk hdigests).mpr
      ⟨hdigest, hne, hverified, hdistinct, hconclusive hverified hdistinct⟩
    exact (happend result hresult).mp (hrecorded result hresult)
  · intro hcomposed
    constructor
    · intro hdigest hne
      refine ⟨(hcomposed hdigest hne).1, fun hverified hdistinct => ?_⟩
      exact ((hcomposed hdigest hne).2 hverified hdistinct).mono (Nat.sub_le _ _)
    · intro result hresult
      obtain ⟨hdigest, hne, hverified, hdistinct, -⟩ := (evaluate_isOk hdigests).mp ⟨_, hresult⟩
      exact (happend result hresult).mpr ((hcomposed hdigest hne).2 hverified hdistinct)

theorem onlyMesh_preflightWith {log : Option ReplayLog} (hlog : ∀ l, log = some l → l.Linked P) :
    OnlyRaises isMeshError (mesh.preflightWith P log inputs requestDigest none) ↔
      mesh.Composed P inputs requestDigest log.isSome := by
  cases log with
  | none =>
    rw [preflightWith, onlyRaises_bind_iff, onlyMesh_evaluate hdigests]
    exact and_iff_left fun _ _ => onlyRaises_ok _
  | some log =>
    rw [preflightWith, onlyRaises_bind_iff, onlyMesh_preflight hdigests (hlog log rfl)]
    exact and_iff_left fun _ _ => onlyRaises_ok _

end Accepted

end Totality

end GovernanceMesh

end GovernedAutonomy
