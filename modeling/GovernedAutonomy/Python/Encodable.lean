import GovernedAutonomy.Python.Content
import GovernedAutonomy.Python.Display

namespace Python

def SortableKeys (ks : List PyKey) : Prop :=
  ks.length ≤ 1 ∨ (∀ k ∈ ks, k.isStr = true) ∨ ∀ k ∈ ks, k.isNumber = true

theorem SortableKeys.sublist {ks ls : List PyKey} (h : SortableKeys ks) (hs : ls.Sublist ks) :
    SortableKeys ls := by
  rcases h with h | h | h
  · exact Or.inl (le_trans hs.length_le h)
  · exact Or.inr (Or.inl fun k hk => h k (hs.subset hk))
  · exact Or.inr (Or.inr fun k hk => h k (hs.subset hk))

def WritableKey (k : PyKey) : Prop := ∃ s, k.text = .ok s ∧ Json.Clean s

section Sorting

variable {α : Type}

theorem sortEntries_isOk {es : List (PyKey × α)} :
    (∃ fs, sortEntries es = .ok fs) ↔ SortableKeys (es.map Prod.fst) := by
  have hcond : (es.length ≤ 1 ∨ es.all (fun e => e.1.isStr) ∨ es.all (fun e => e.1.isNumber)) ↔
      SortableKeys (es.map Prod.fst) := by
    simp [SortableKeys]
  unfold sortEntries
  split
  · rename_i h
    exact ⟨fun _ => hcond.mp h, fun _ => ⟨_, rfl⟩⟩
  · rename_i h
    refine ⟨?_, fun hs => absurd (hcond.mpr hs) h⟩
    rintro ⟨fs, hfs⟩
    cases hfs

theorem collect_isOk {es : List (PyKey × Result α)} :
    (∃ js, collect es = .ok js) ↔ ∀ e ∈ es, (∃ t, e.1.text = .ok t) ∧ ∃ j, e.2 = .ok j := by
  induction es with
  | nil => simp [collect]
  | cons e es ih =>
      obtain ⟨k, r⟩ := e
      rw [List.forall_mem_cons, ← ih]
      constructor
      · rintro ⟨js, h⟩
        simp only [collect, bind_eq_ok] at h
        obtain ⟨t, ht, j, hj, rest, hrest, -⟩ := h
        exact ⟨⟨⟨t, ht⟩, j, hj⟩, rest, hrest⟩
      · rintro ⟨⟨⟨t, ht⟩, j, hj⟩, rest, hrest⟩
        refine ⟨(t, j) :: rest, ?_⟩
        simp only [collect, bind_eq_ok]
        exact ⟨t, ht, j, hj, rest, hrest, rfl⟩

end Sorting

namespace PyVal

def Encodable (depth : Nat) (v : PyVal) : Prop :=
  ∃ t, v.toTree depth = .ok t ∧ t.EachStr Json.Clean

variable {depth : Nat}

@[simp]
theorem encodable_none : Encodable depth .none := ⟨.null, by simp [toTree], trivial⟩

@[simp]
theorem encodable_bool (b : Bool) : Encodable depth (.bool b) := ⟨.bool b, by simp [toTree], trivial⟩

@[simp]
theorem encodable_float (f : PyFloat) : Encodable depth (.float f) :=
  ⟨.float f, by simp [toTree], trivial⟩

@[simp]
theorem encodable_str {s : Str} : Encodable depth (.str s) ↔ Json.Clean s := by
  simp [Encodable, toTree, Json.EachStr]

theorem intText_isOk {i : ℤ} :
    (∃ s, intText i = .ok s) ↔ (digits i.natAbs).length ≤ maxStrDigits := by
  unfold intText
  split
  · rename_i h
    simpa using h
  · rename_i h
    simpa using h

@[simp]
theorem encodable_int {i : ℤ} :
    Encodable depth (.int i) ↔ (digits i.natAbs).length ≤ maxStrDigits := by
  rw [← intText_isOk]
  constructor
  · rintro ⟨t, ht, -⟩
    simp only [toTree, bind_eq_ok] at ht
    obtain ⟨s, hs, -⟩ := ht
    exact ⟨s, hs⟩
  · rintro ⟨s, hs⟩
    refine ⟨.int i, ?_, trivial⟩
    rw [toTree, hs]
    rfl

@[simp]
theorem not_encodable_object {id : Nat} : ¬ Encodable depth (.object id) := by
  simp [Encodable, toTree]

@[simp]
theorem not_encodable_cycle : ¬ Encodable depth .cycle := by
  cases depth <;> simp [Encodable, toTree]

theorem toTreeItems_congr {depth depth' : Nat} {xs : List PyVal} {js : List Json}
    (h : ∀ x ∈ xs, ∀ j, x.toTree depth = .ok j → x.toTree depth' = .ok j)
    (hjs : toTreeItems depth xs = .ok js) : toTreeItems depth' xs = .ok js := by
  induction xs generalizing js with
  | nil => exact hjs
  | cons x xs ih =>
      simp only [toTreeItems, bind_eq_ok] at hjs ⊢
      obtain ⟨j, hj, rest, hrest, hjs⟩ := hjs
      exact ⟨j, h x List.mem_cons_self j hj, rest,
        ih (fun y hy => h y (List.mem_cons_of_mem _ hy)) hrest, hjs⟩

theorem toTreeItems_encodable {xs : List PyVal} :
    (∃ js, toTreeItems depth xs = .ok js ∧ Json.EachStrItems Json.Clean js) ↔
      ∀ x ∈ xs, x.Encodable depth := by
  induction xs with
  | nil => simp [toTreeItems, Json.EachStrItems]
  | cons x xs ih =>
      rw [List.forall_mem_cons, ← ih]
      constructor
      · rintro ⟨js, h, hc⟩
        simp only [toTreeItems, bind_eq_ok] at h
        obtain ⟨j, hj, rest, hrest, h⟩ := h
        obtain rfl := Except.ok.inj h
        exact ⟨⟨j, hj, hc.1⟩, rest, hrest, hc.2⟩
      · rintro ⟨⟨j, hj, hjc⟩, rest, hrest, hc⟩
        refine ⟨j :: rest, ?_, hjc, hc⟩
        simp only [toTreeItems, bind_eq_ok]
        exact ⟨j, hj, rest, hrest, rfl⟩

theorem encodable_items {v : PyVal} (xs : List PyVal) (hv : v = .list xs ∨ v = .tuple xs) :
    Encodable depth v ↔ 0 < depth ∧ ∀ x ∈ xs, x.Encodable (depth - 1) := by
  rw [← toTreeItems_encodable]
  constructor
  · rintro ⟨t, ht, hc⟩
    obtain ⟨d, js, rfl, rfl, hjs⟩ := toTree_items xs hv ht
    exact ⟨Nat.succ_pos d, js, hjs, hc⟩
  · rintro ⟨hpos, js, hjs, hc⟩
    obtain ⟨d, rfl⟩ := Nat.exists_eq_succ_of_ne_zero (Nat.ne_of_gt hpos)
    refine ⟨.arr js, ?_, hc⟩
    rcases hv with rfl | rfl
    · simp only [toTree, bind_eq_ok]
      exact ⟨js, hjs, rfl⟩
    · simp only [toTree, bind_eq_ok]
      exact ⟨js, hjs, rfl⟩

theorem encodable_list {xs : List PyVal} :
    Encodable depth (.list xs) ↔ 0 < depth ∧ ∀ x ∈ xs, x.Encodable (depth - 1) :=
  encodable_items xs (Or.inl rfl)

theorem encodable_tuple {xs : List PyVal} :
    Encodable depth (.tuple xs) ↔ 0 < depth ∧ ∀ x ∈ xs, x.Encodable (depth - 1) :=
  encodable_items xs (Or.inr rfl)

theorem encodable_dict {ms : List (PyKey × PyVal)} :
    Encodable depth (.dict ms) ↔ 0 < depth ∧ SortableKeys (ms.map Prod.fst) ∧
      ∀ m ∈ ms, WritableKey m.1 ∧ m.2.Encodable (depth - 1) := by
  constructor
  · rintro ⟨t, ht, hc⟩
    obtain ⟨d, es, js, rfl, rfl, hes, hjs⟩ := toTree_dict ht
    refine ⟨Nat.succ_pos d, ?_, ?_⟩
    · have := sortEntries_isOk.mp ⟨es, hes⟩
      rwa [List.map_map] at this
    · intro m hm
      have hmem : (m.1, m.2.toTree d) ∈ es :=
        (sortEntries_perm hes).mem_iff.mpr (List.mem_map.mpr ⟨m, hm, rfl⟩)
      obtain ⟨⟨s, hs⟩, j, hj⟩ := collect_isOk.mp ⟨js, hjs⟩ _ hmem
      have hin := collect_mem_of_entry hjs hmem hs hj
      obtain ⟨hk, hv⟩ := Json.eachStrMembers_iff.mp hc _ hin
      exact ⟨⟨s, hs, hk⟩, j, hj, hv⟩
  · rintro ⟨hpos, hsort, hms⟩
    obtain ⟨d, rfl⟩ := Nat.exists_eq_succ_of_ne_zero (Nat.ne_of_gt hpos)
    obtain ⟨es, hes⟩ := (@sortEntries_isOk _ (ms.map (fun m => (m.1, m.2.toTree d)))).mpr
      (by rwa [List.map_map])
    have hperm := sortEntries_perm hes
    obtain ⟨js, hjs⟩ : ∃ js, collect es = .ok js := by
      refine collect_isOk.mpr ?_
      intro e he
      obtain ⟨m, hm, rfl⟩ := List.mem_map.mp (hperm.mem_iff.mp he)
      obtain ⟨⟨s, hs, -⟩, j, hj, -⟩ := hms m hm
      exact ⟨⟨s, hs⟩, j, hj⟩
    refine ⟨.obj js, ?_, Json.eachStrMembers_iff.mpr ?_⟩
    · simp only [toTree, bind_eq_ok, toTreeEntries_eq_map]
      exact ⟨es, hes, js, hjs, rfl⟩
    · intro j hj
      obtain ⟨m, hm, hmj, htext⟩ := toTree_members hes hjs j hj
      obtain ⟨⟨s, hs, hclean⟩, t, ht, hc⟩ := hms m hm
      rw [hs] at htext
      rw [show m.2.toTree d = .ok t from ht] at hmj
      obtain rfl := Except.ok.inj htext
      obtain rfl := Except.ok.inj hmj
      exact ⟨hclean, hc⟩

theorem Encodable.mono {v : PyVal} : ∀ {d d' : Nat}, v.Encodable d → d ≤ d' → v.Encodable d' := by
  induction v using induct with
  | none | bool b | float f =>
      intros
      simp
  | str s | int i =>
      intro d d' h _
      simpa using h
  | list xs ih =>
      intro d d' h hd
      rw [encodable_list] at h ⊢
      exact ⟨by omega, fun x hx => ih x hx (h.2 x hx) (by omega)⟩
  | tuple xs ih =>
      intro d d' h hd
      rw [encodable_tuple] at h ⊢
      exact ⟨by omega, fun x hx => ih x hx (h.2 x hx) (by omega)⟩
  | dict ms ih =>
      intro d d' h hd
      rw [encodable_dict] at h ⊢
      exact ⟨by omega, h.2.1, fun m hm => ⟨(h.2.2 m hm).1, ih m hm (h.2.2 m hm).2 (by omega)⟩⟩
  | object id =>
      intro d d' h _
      exact absurd h not_encodable_object
  | cycle =>
      intro d d' h _
      exact absurd h not_encodable_cycle

theorem toTree_mono {v : PyVal} : ∀ {d d' : Nat} {t : Json}, v.toTree d = .ok t → d ≤ d' →
    v.toTree d' = .ok t := by
  induction v using induct with
  | none | bool b | float f | str s | int i =>
      intro d d' t h _
      simpa only [toTree] using h
  | list xs ih | tuple xs ih =>
      intro d d' t h hd
      obtain ⟨c, js, rfl, rfl, hjs⟩ := toTree_items xs (by simp) h
      obtain ⟨c', rfl⟩ := Nat.exists_eq_add_one_of_ne_zero (n := d') (by omega)
      have hsame : toTreeItems c' xs = .ok js := by
        refine toTreeItems_congr ?_ hjs
        intro x hx j hj
        exact ih x hx hj (by omega)
      simp only [toTree, hsame]
      rfl
  | dict ms ih =>
      intro d d' t h hd
      obtain ⟨c, es, js, rfl, rfl, hes, hjs⟩ := toTree_dict h
      obtain ⟨c', rfl⟩ := Nat.exists_eq_add_one_of_ne_zero (n := d') (by omega)
      have hsame : ms.map (fun m => (m.1, m.2.toTree c')) = ms.map (fun m => (m.1, m.2.toTree c)) := by
        refine List.map_congr_left ?_
        intro m hm
        have hmem : (m.1, m.2.toTree c) ∈ es :=
          (sortEntries_perm hes).mem_iff.mpr (List.mem_map.mpr ⟨m, hm, rfl⟩)
        obtain ⟨-, j, hj⟩ := collect_isOk.mp ⟨js, hjs⟩ _ hmem
        simp only [ih m hm hj (show c ≤ c' by omega), show m.2.toTree c = .ok j from hj]
      simp only [toTree, toTreeEntries_eq_map, hsame, hes, hjs, bind, Except.bind]
  | object id =>
      intro d d' t h _
      simp [toTree] at h
  | cycle =>
      intro d d' t h _
      cases d <;> simp [toTree] at h

theorem Encodable.sublist {ms ns : List (PyKey × PyVal)} (h : (PyVal.dict ms).Encodable depth)
    (hs : ns.Sublist ms) : (PyVal.dict ns).Encodable depth := by
  rw [encodable_dict] at h ⊢
  exact ⟨h.1, h.2.1.sublist (hs.map Prod.fst), fun m hm => h.2.2 m (hs.subset hm)⟩

theorem Encodable.of_mem {ms : List (PyKey × PyVal)} (h : (PyVal.dict ms).Encodable depth)
    {m : PyKey × PyVal} (hm : m ∈ ms) : m.2.Encodable (depth - 1) :=
  ((encodable_dict.mp h).2.2 m hm).2

theorem Encodable.of_get {d : PyDict} (h : (PyVal.dict d).Encodable depth) {name : Str}
    {v : PyVal} (hv : d.get name = some v) : v.Encodable (depth - 1) := by
  obtain ⟨k, hmem, -⟩ := Dict.get_eq_some hv
  exact h.of_mem hmem

theorem sortableKeys_str {V : Type} (d : List (Str × V)) (f : V → PyVal) :
    SortableKeys ((d.map (fun m => (PyKey.str m.1, f m.2))).map Prod.fst) := by
  refine Or.inr (Or.inl ?_)
  intro k hk
  rw [List.map_map] at hk
  obtain ⟨m, -, rfl⟩ := List.mem_map.mp hk
  rfl

theorem encodable_ofFields {fields : List (String × PyVal)} :
    Encodable depth (.dict (PyDict.ofFields fields)) ↔
      0 < depth ∧ ∀ m ∈ fields, m.2.Encodable (depth - 1) := by
  rw [encodable_dict]
  have hsort : SortableKeys ((PyDict.ofFields fields).map Prod.fst) := by
    refine Or.inr (Or.inl ?_)
    intro k hk
    rw [PyDict.ofFields, List.map_map] at hk
    obtain ⟨m, -, rfl⟩ := List.mem_map.mp hk
    rfl
  constructor
  · rintro ⟨hpos, -, hms⟩
    refine ⟨hpos, ?_⟩
    intro m hm
    exact (hms (.str (lit m.1), m.2) (List.mem_map.mpr ⟨m, hm, rfl⟩)).2
  · rintro ⟨hpos, hms⟩
    refine ⟨hpos, hsort, ?_⟩
    intro m hm
    obtain ⟨n, hn, rfl⟩ := List.mem_map.mp hm
    exact ⟨⟨lit n.1, rfl, fun p hp => not_isSurrogate_of_mem_lit hp⟩, hms n hn⟩

-- the members of an encoded dict with string keys are its entries
theorem mem_of_toTree_dict {depth : Nat} {ms : List (PyKey × PyVal)} {js : List (Str × Json)}
    (hstr : ∀ m ∈ ms, m.1.isStr = true) (h : (PyVal.dict ms).toTree depth = .ok (.obj js)) {s : Str}
    {j : Json} : (s, j) ∈ js ↔ ∃ v, (.str s, v) ∈ ms ∧ v.toTree (depth - 1) = .ok j := by
  obtain ⟨d, es, js', rfl, heq, hes, hjs⟩ := toTree_dict h
  obtain rfl := Json.obj.inj heq
  constructor
  · intro hmem
    obtain ⟨⟨k, v⟩, hm, hv, hk⟩ := toTree_members hes hjs (s, j) hmem
    have hkey := hstr _ hm
    cases k with
    | str s' =>
        obtain rfl := Except.ok.inj hk
        exact ⟨v, hm, hv⟩
    | _ => simp [PyKey.isStr] at hkey
  · rintro ⟨v, hm, hv⟩
    exact collect_mem_of_entry hjs
      ((sortEntries_perm hes).mem_iff.mpr (List.mem_map.mpr ⟨_, hm, rfl⟩)) rfl hv

theorem mem_of_same_tree {depth : Nat} {ms ns : List (PyKey × PyVal)} {t : Json}
    (hms : ∀ m ∈ ms, m.1.isStr = true) (hns : ∀ n ∈ ns, n.1.isStr = true)
    (h : (PyVal.dict ms).toTree depth = .ok t) (h' : (PyVal.dict ns).toTree depth = .ok t) {s : Str}
    {v : PyVal} (hmem : (.str s, v) ∈ ms) :
    ∃ w j, (.str s, w) ∈ ns ∧ v.toTree (depth - 1) = .ok j ∧ w.toTree (depth - 1) = .ok j := by
  obtain ⟨d, es, js, rfl, rfl, hes, hjs⟩ := toTree_dict h
  have hentry : (PyKey.str s, v.toTree d) ∈ es :=
    (sortEntries_perm hes).mem_iff.mpr (List.mem_map.mpr ⟨_, hmem, rfl⟩)
  obtain ⟨-, j, hj⟩ := collect_isOk.mp ⟨js, hjs⟩ _ hentry
  obtain ⟨w, hw, hwj⟩ := (mem_of_toTree_dict hns h').mp
    ((mem_of_toTree_dict hms h).mpr ⟨v, hmem, hj⟩)
  exact ⟨w, j, hw, hj, hwj⟩

theorem set_ofFields {fields : List (String × PyVal)} {name : String}
    (h : name ∉ fields.map Prod.fst) (v : PyVal) :
    PyDict.set (PyDict.ofFields fields) (lit name) v = PyDict.ofFields (fields ++ [(name, v)]) := by
  rw [PyDict.set, PyDict.ofFields, PyDict.ofFields, List.map_append]
  refine Dict.set_of_not_has ?_ v
  intro m hm
  obtain ⟨n, hn, rfl⟩ := List.mem_map.mp hm
  rw [same_str, decide_eq_false_iff_not, lit_inj]
  rintro rfl
  exact h (List.mem_map.mpr ⟨n, hn, rfl⟩)

theorem isStr_ofFields {fields : List (String × PyVal)} :
    ∀ m ∈ PyDict.ofFields fields, m.1.isStr = true := by
  intro m hm
  obtain ⟨n, -, rfl⟩ := List.mem_map.mp hm
  rfl

section Display

variable (I : Interpreter)

theorem reprItems_isOk {xs : List PyVal} (h : ∀ x ∈ xs, ∃ s, I.repr x = .ok s) :
    ∃ s, I.reprItems xs = .ok s := by
  induction xs with
  | nil => exact ⟨[], rfl⟩
  | cons x xs ih =>
      obtain ⟨s, hs⟩ := h x List.mem_cons_self
      obtain ⟨t, ht⟩ := ih (fun y hy => h y (List.mem_cons_of_mem _ hy))
      simp only [Interpreter.reprItems, hs, ht]
      exact ⟨_, rfl⟩

theorem reprKey_isOk {k : PyKey} (h : WritableKey k) : ∃ s, I.reprKey k = .ok s := by
  obtain ⟨s, hs, -⟩ := h
  cases k with
  | int i => exact ⟨s, hs⟩
  | other id => cases hs
  | _ => exact ⟨_, rfl⟩

theorem reprMembers_isOk {ms : List (PyKey × PyVal)}
    (h : ∀ m ∈ ms, WritableKey m.1 ∧ ∃ s, I.repr m.2 = .ok s) :
    ∃ s, I.reprMembers ms = .ok s := by
  induction ms with
  | nil => exact ⟨[], rfl⟩
  | cons m ms ih =>
      obtain ⟨k, v⟩ := m
      obtain ⟨hk, s, hs⟩ := h (k, v) List.mem_cons_self
      obtain ⟨u, hu⟩ := reprKey_isOk I hk
      obtain ⟨t, ht⟩ := ih (fun n hn => h n (List.mem_cons_of_mem _ hn))
      simp only [Interpreter.reprMembers, hu, hs, ht]
      exact ⟨_, rfl⟩

theorem Encodable.repr_isOk {v : PyVal} : ∀ {d : Nat}, v.Encodable d → ∃ s, I.repr v = .ok s := by
  induction v using induct with
  | none | bool b | float f | str s =>
      intros
      simp only [Interpreter.repr]
      exact ⟨_, rfl⟩
  | int i =>
      intro d h
      simp only [Interpreter.repr]
      exact intText_isOk.mpr (encodable_int.mp h)
  | list xs ih =>
      intro d h
      obtain ⟨s, hs⟩ := reprItems_isOk I (fun x hx => ih x hx ((encodable_list.mp h).2 x hx))
      simp only [Interpreter.repr, hs]
      exact ⟨_, rfl⟩
  | tuple xs ih =>
      intro d h
      obtain ⟨s, hs⟩ := reprItems_isOk I (fun x hx => ih x hx ((encodable_tuple.mp h).2 x hx))
      simp only [Interpreter.repr, hs]
      exact ⟨_, rfl⟩
  | dict ms ih =>
      intro d h
      have hms := (encodable_dict.mp h).2.2
      obtain ⟨s, hs⟩ := reprMembers_isOk I
        (fun m hm => ⟨(hms m hm).1, ih m hm (hms m hm).2⟩)
      simp only [Interpreter.repr, hs]
      exact ⟨_, rfl⟩
  | object id =>
      intro d h
      exact absurd h not_encodable_object
  | cycle =>
      intro d h
      exact absurd h not_encodable_cycle

theorem Encodable.str_isOk {v : PyVal} {d : Nat} (h : v.Encodable d) :
    ∃ s, I.str v = .ok s := by
  cases v with
  | str s => exact ⟨s, rfl⟩
  | _ => exact h.repr_isOk I

end Display

end PyVal

end Python
