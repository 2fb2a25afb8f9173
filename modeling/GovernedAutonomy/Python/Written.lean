import GovernedAutonomy.Python.Congruence

namespace Python

namespace PyVal

mutual
-- what dumps can write: no lone surrogates, no number of too many digits, no nesting beyond depth
def Writable : Nat → PyVal → Prop
  | _, .int i => (digits i.natAbs).length ≤ maxStrDigits
  | _, .str s => Json.Clean s
  | 0, .list _ => False
  | depth + 1, .list xs => WritableItems depth xs
  | 0, .tuple _ => False
  | depth + 1, .tuple xs => WritableItems depth xs
  | 0, .dict _ => False
  | depth + 1, .dict ms => WritableMembers depth ms
  | _, .object _ => False
  | _, .cycle => False
  | _, _ => True

def WritableItems : Nat → List PyVal → Prop
  | _, [] => True
  | depth, x :: xs => Writable depth x ∧ WritableItems depth xs

def WritableMembers : Nat → List (PyKey × PyVal) → Prop
  | _, [] => True
  | depth, (k, v) :: ms => WritableKey k ∧ Writable depth v ∧ WritableMembers depth ms
end

mutual
-- a value without a NaN
def Finite : PyVal → Prop
  | .float f => f.value? ≠ Option.none
  | .list xs => FiniteItems xs
  | .tuple xs => FiniteItems xs
  | .dict ms => FiniteMembers ms
  | _ => True

def FiniteItems : List PyVal → Prop
  | [] => True
  | x :: xs => Finite x ∧ FiniteItems xs

def FiniteMembers : List (PyKey × PyVal) → Prop
  | [] => True
  | (_, v) :: ms => Finite v ∧ FiniteMembers ms
end

theorem writableItems_iff {depth : Nat} {xs : List PyVal} :
    WritableItems depth xs ↔ ∀ x ∈ xs, x.Writable depth := by
  induction xs with
  | nil => simp [WritableItems]
  | cons x xs ih => simp [WritableItems, ih]

theorem writableMembers_iff {depth : Nat} {ms : List (PyKey × PyVal)} :
    WritableMembers depth ms ↔ ∀ m ∈ ms, WritableKey m.1 ∧ m.2.Writable depth := by
  induction ms with
  | nil => simp [WritableMembers]
  | cons m ms ih => simp [WritableMembers, ih, and_assoc]

theorem finiteItems_iff {xs : List PyVal} : FiniteItems xs ↔ ∀ x ∈ xs, x.Finite := by
  induction xs with
  | nil => simp [FiniteItems]
  | cons x xs ih => simp [FiniteItems, ih]

theorem finiteMembers_iff {ms : List (PyKey × PyVal)} :
    FiniteMembers ms ↔ ∀ m ∈ ms, m.2.Finite := by
  induction ms with
  | nil => simp [FiniteMembers]
  | cons m ms ih => simp [FiniteMembers, ih]

theorem encodable_iff_writable {v : PyVal} :
    ∀ {depth : Nat}, v.IsJson → (v.Encodable depth ↔ v.Writable depth) := by
  induction v using PyVal.induct with
  | none => simp [Writable]
  | bool b => simp [Writable]
  | int i => simp [Writable]
  | float f => simp [Writable]
  | str s => simp [Writable]
  | tuple xs ih => exact fun h => h.elim
  | object id => exact fun h => h.elim
  | cycle => exact fun h => h.elim
  | list xs ih =>
      intro depth hjson
      have hxs := isJsonItems_iff.mp hjson
      cases depth with
      | zero => simp [encodable_list, Writable]
      | succ depth =>
          rw [encodable_list, Writable, writableItems_iff, Nat.add_sub_cancel,
            and_iff_right (Nat.succ_pos depth)]
          exact forall₂_congr fun x hx => ih x hx (hxs x hx)
  | dict ms ih =>
      intro depth hjson
      obtain ⟨hkeys, -, hms⟩ := hjson
      have hms := isJsonMembers_iff.mp hms
      have hsortable : SortableKeys (ms.map Prod.fst) := by
        refine Or.inr (Or.inl fun k hk => ?_)
        obtain ⟨m, hm, rfl⟩ := List.mem_map.mp hk
        exact hkeys m hm
      cases depth with
      | zero => simp [encodable_dict, Writable]
      | succ depth =>
          rw [encodable_dict, Writable, writableMembers_iff, Nat.add_sub_cancel,
            and_iff_right (Nat.succ_pos depth), and_iff_right hsortable]
          exact forall₂_congr fun m hm => and_congr_right fun _ => ih m hm (hms m hm)

theorem eq_self {v : PyVal} (hjson : v.IsJson) (hfinite : v.Finite) : v.eq v = true := by
  induction v using PyVal.induct with
  | none => rfl
  | bool b => simp [eq, numEq, number?]
  | int i => simp [eq, numEq, number?]
  | float f =>
      rw [Finite] at hfinite
      simp [eq, numEq, number?, Option.isSome_iff_ne_none, hfinite]
  | str s => simp [eq]
  | tuple xs ih => cases hjson
  | object id => cases hjson
  | cycle => cases hjson
  | list xs ih =>
      have hxs := isJsonItems_iff.mp hjson
      have hall := finiteItems_iff.mp hfinite
      rw [eq, eqItems_iff, List.forall₂_same]
      exact fun x hx => ih x hx (hxs x hx) (hall x hx)
  | dict ms ih =>
      obtain ⟨hkeys, hdistinct, hms⟩ := hjson
      have hms := isJsonMembers_iff.mp hms
      have hall := finiteMembers_iff.mp hfinite
      rw [eq, Bool.and_eq_true, eqMembers_iff]
      refine ⟨by simp, fun m hm => ⟨m.2, ?_, ih m hm (hms m hm) (hall m hm)⟩⟩
      obtain ⟨s, hs⟩ := exists_str (hkeys m hm)
      exact Dict.get_of_mem hdistinct hm (by simp [hs])

-- the value that is read back
theorem alike_ofTree {v : PyVal} {depth : Nat} {t : Json} (hv : v.IsJson)
    (ht : v.toTree depth = .ok t) : Alike v (ofTree t) :=
  Alike.of_toTree hv (ofTree_isJson t) ht
    (toTree_ofTree (toTree_readable ht) (toTree_ascending hv.strKeyed ht))

theorem Alike.eq_self {v w : PyVal} (h : Alike v w) (hfinite : v.Finite) : w.eq v = true := by
  rw [← h.eq v]
  exact PyVal.eq_self h.left hfinite

-- two dicts of one list of names are alike just where their members are, one by one
theorem alike_ofFields_iff {fields fields' : List (String × PyVal)}
    (hnames : (fields.map Prod.fst).Nodup) (hsame : fields.map Prod.fst = fields'.map Prod.fst) :
    Alike (.dict (PyDict.ofFields fields)) (.dict (PyDict.ofFields fields')) ↔
      List.Forall₂ (fun a b => a.1 = b.1 ∧ Alike a.2 b.2) fields fields' := by
  refine ⟨fun h => ?_, alike_ofFields hnames⟩
  have hget : ∀ {fields : List (String × PyVal)}, (PyVal.dict (PyDict.ofFields fields)).IsJson →
      ∀ m ∈ fields, (PyDict.ofFields fields).get (lit m.1) = some m.2 := by
    intro fields hjson m hm
    exact Dict.get_of_mem hjson.2.1 (List.mem_map.mpr ⟨m, hm, rfl⟩) (by simp)
  have hnamed : List.Forall₂ (fun a b : String × PyVal => a.1 = b.1) fields fields' := by
    have heq : List.Forall₂ (· = ·) (fields.map Prod.fst) (fields'.map Prod.fst) := by
      rw [List.forall₂_eq_eq_eq]
      exact hsame
    exact List.forall₂_map_right_iff.mp (List.forall₂_map_left_iff.mp heq)
  refine forall₂_imp_of_mem hnamed fun a ha b hb hab => ⟨hab, ?_⟩
  have hrel := h.rel (lit a.1)
  rw [hget h.left a ha, hab, hget h.right b hb] at hrel
  cases hrel with
  | some halike => exact halike

theorem toTreeItems_eq {depth : Nat} {xs ys : List PyVal}
    (h : List.Forall₂ (fun x y => x.toTree depth = y.toTree depth) xs ys) :
    toTreeItems depth xs = toTreeItems depth ys := by
  induction h with
  | nil => rfl
  | cons hhead _ ih => rw [toTreeItems, toTreeItems, hhead, ih]

-- what sorting makes of the entries of a dict does not depend on their order
theorem sortEntries_eq {α : Type} {es fs : List (PyKey × α)} (hs : ∀ e ∈ es, e.1.isStr = true)
    (hd : Dict.Distinct es) (h : es.Perm fs) : sortEntries es = sortEntries fs := by
  have hs' : ∀ e ∈ fs, e.1.isStr = true := fun e he => hs e (h.mem_iff.mpr he)
  have hok : ∀ {es : List (PyKey × α)}, (∀ e ∈ es, e.1.isStr = true) →
      sortEntries es = .ok (es.insertionSort keyLe) := by
    intro es hs
    rw [sortEntries, if_pos (Or.inr (Or.inl (List.all_eq_true.mpr hs)))]
  rw [hok hs, hok hs']
  have hperm : (es.insertionSort keyLe).Perm (fs.insertionSort keyLe) :=
    ((List.perm_insertionSort keyLe es).trans h).trans (List.perm_insertionSort keyLe fs).symm
  refine congrArg Except.ok (hperm.eq_of_pairwise ?_ (sortEntries_str_pairwise hs (hok hs))
    (sortEntries_str_pairwise hs' (hok hs')))
  intro a b ha hb hab hba
  have ha := (List.perm_insertionSort keyLe es).mem_iff.mp ha
  have hb := h.mem_iff.mpr ((List.perm_insertionSort keyLe fs).mem_iff.mp hb)
  obtain ⟨s, hsa⟩ := exists_str (hs a ha)
  obtain ⟨t, htb⟩ := exists_str (hs b hb)
  obtain ⟨k, x⟩ := a
  obtain ⟨k', y⟩ := b
  obtain rfl := hsa
  obtain rfl := htb
  obtain rfl := le_antisymm (keyLe_str.mp hab) (keyLe_str.mp hba)
  have hget := Dict.get_of_mem hd ha (k := .str s) (by simp)
  rw [Dict.get_of_mem hd hb (k := .str s) (by simp)] at hget
  exact congrArg (Prod.mk _) (Option.some.inj hget).symm

theorem nodup_entries {α : Type} {d : PyDict} (hs : ∀ m ∈ d, m.1.isStr = true)
    (hd : Dict.Distinct d) (f : PyVal → α) : (d.map fun m => (m.1, f m.2)).Nodup := by
  refine List.pairwise_map.mpr (List.Pairwise.imp_of_mem (fun {a b} ha _ hab heq => ?_) hd)
  obtain ⟨s, hs⟩ := exists_str (hs a ha)
  rw [← (Prod.mk.inj heq).1, hs] at hab
  simp at hab

-- json.dumps fails alike on both, or writes the same text
theorem Same.toTree_eq {v : PyVal} : ∀ {w : PyVal}, v.IsJson → w.IsJson → Same v w →
    ∀ depth, v.toTree depth = w.toTree depth := by
  induction v using PyVal.induct with
  | none => intro w _ _ h depth; cases w <;> first | rfl | cases h
  | bool b => intro w _ _ h depth; cases w <;> first | exact congrArg _ (congrArg _ h) | cases h
  | int i =>
      intro w _ _ h depth
      cases w with
      | int j => rw [show i = j from h]
      | _ => cases h
  | float f =>
      intro w _ _ h depth
      cases w with
      | float g => rw [show f = g from h]
      | _ => cases h
  | str s =>
      intro w _ _ h depth
      cases w with
      | str t => rw [show s = t from h]
      | _ => cases h
  | tuple xs ih => intro w hv; cases hv
  | object id => intro w hv; cases hv
  | cycle => intro w hv; cases hv
  | list xs ih =>
      intro w hv hw h depth
      cases w with
      | list ys =>
          have hxs := isJsonItems_iff.mp hv
          have hys := isJsonItems_iff.mp hw
          cases depth with
          | zero => rfl
          | succ d =>
              rw [PyVal.toTree, PyVal.toTree]
              refine congrArg (fun r => r >>= _) (toTreeItems_eq ?_)
              refine forall₂_imp_of_mem (sameItems_iff.mp h) fun x hx y hy hxy => ?_
              exact ih x hx (hxs x hx) (hys y hy) hxy d
      | _ => cases h
  | dict ms ih =>
      intro w hv hw h depth
      cases w with
      | dict ns =>
          cases depth with
          | zero => rfl
          | succ d =>
              obtain ⟨hkeys, hms, hmsJson⟩ := hv
              obtain ⟨hkeys', hns, hnsJson⟩ := hw
              have hmsJson := isJsonMembers_iff.mp hmsJson
              have hnsJson := isJsonMembers_iff.mp hnsJson
              rw [PyVal.toTree, PyVal.toTree, toTreeEntries_eq_map, toTreeEntries_eq_map]
              have hsort : sortEntries (ms.map fun m => (m.1, m.2.toTree d)) =
                  sortEntries (ns.map fun m => (m.1, m.2.toTree d)) := by
                refine sortEntries_eq ?_ ?_ ?_
                · intro e he
                  obtain ⟨m, hm, rfl⟩ := List.mem_map.mp he
                  exact hkeys m hm
                · exact List.pairwise_map.mpr hms
                · refine (List.perm_ext_iff_of_nodup (nodup_entries hkeys hms _)
                    (nodup_entries hkeys' hns _)).mpr fun e => ?_
                  constructor
                  · intro he
                    obtain ⟨⟨k, x⟩, hm, rfl⟩ := List.mem_map.mp he
                    obtain ⟨s, rfl⟩ := exists_str (hkeys _ hm)
                    obtain ⟨y, hy, hxy⟩ := sameMembers_iff.mp h.1 _ hm
                    have hn := mem_of_get_str hy
                    refine List.mem_map.mpr ⟨_, hn, ?_⟩
                    exact congrArg (Prod.mk _)
                      (ih _ hm (hmsJson _ hm) (hnsJson _ hn) hxy d).symm
                  · intro he
                    obtain ⟨⟨k, y⟩, hn, rfl⟩ := List.mem_map.mp he
                    obtain ⟨s, rfl⟩ := exists_str (hkeys' _ hn)
                    obtain ⟨x, hm, hxy⟩ := h.1.back hns h.2 hn
                    refine List.mem_map.mpr ⟨_, hm, ?_⟩
                    exact congrArg (Prod.mk _) (ih _ hm (hmsJson _ hm) (hnsJson _ hn) hxy d)
              rw [hsort]
      | _ => cases h

theorem Alike.toTree_eq {v w : PyVal} (h : Alike v w) (depth : Nat) :
    v.toTree depth = w.toTree depth := h.same.toTree_eq h.left h.right depth

end PyVal

end Python
