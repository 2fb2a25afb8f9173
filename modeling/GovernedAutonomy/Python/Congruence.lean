import GovernedAutonomy.Python.Same

namespace Python

-- two computations that fail alike, or return values that are related
inductive Agree {α β : Type} (R : α → β → Prop) : Result α → Result β → Prop where
  | error (e : Exc) : Agree R (.error e) (.error e)
  | ok {a : α} {b : β} (h : R a b) : Agree R (.ok a) (.ok b)

namespace Agree

variable {α β γ δ : Type} {R : α → β → Prop} {S : γ → δ → Prop}

theorem bind {x : Result α} {y : Result β} {f : α → Result γ} {g : β → Result δ}
    (h : Agree R x y) (hf : ∀ a b, R a b → Agree S (f a) (g b)) : Agree S (x >>= f) (y >>= g) := by
  cases h with
  | error e => exact .error e
  | ok hab => exact hf _ _ hab

theorem bind_same {x : Result α} {f : α → Result γ} {g : α → Result δ}
    (hf : ∀ a, Agree S (f a) (g a)) : Agree S (x >>= f) (x >>= g) := by
  cases x with
  | error e => exact .error e
  | ok a => exact hf a

theorem cases {x : Result α} {y : Result β} (h : Agree R x y) :
    (∃ e, x = .error e ∧ y = .error e) ∨ ∃ a b, x = .ok a ∧ y = .ok b ∧ R a b := by
  cases h with
  | error e => exact Or.inl ⟨e, rfl, rfl⟩
  | ok hab => exact Or.inr ⟨_, _, rfl, rfl, hab⟩

end Agree

theorem exists_of_forall₂_left {α β : Type} {R : α → β → Prop} {xs : List α} {ys : List β}
    (h : List.Forall₂ R xs ys) {x : α} (hx : x ∈ xs) : ∃ y ∈ ys, R x y := by
  induction h with
  | nil => cases hx
  | cons hhead _ ih =>
      rcases List.mem_cons.mp hx with rfl | hx
      · exact ⟨_, List.mem_cons_self, hhead⟩
      · obtain ⟨y, hy, hxy⟩ := ih hx
        exact ⟨y, List.mem_cons_of_mem _ hy, hxy⟩

namespace PyVal

-- two JSON values that differ in the order of the members of their dicts at most
structure Alike (v w : PyVal) : Prop where
  left : v.IsJson
  right : w.IsJson
  same : Same v w

theorem Alike.of_toTree {v w : PyVal} {depth : Nat} {t : Json} (hv : v.IsJson) (hw : w.IsJson)
    (h : v.toTree depth = .ok t) (h' : w.toTree depth = .ok t) : Alike v w :=
  ⟨hv, hw, Same.of_toTree hv hw h h'⟩

theorem Alike.toTree {v w : PyVal} {depth : Nat} {t : Json} (h : Alike v w)
    (ht : v.toTree depth = .ok t) : w.toTree depth = .ok t := Same.toTree h.left h.right h.same ht

theorem alike_none : Alike .none .none := ⟨trivial, trivial, trivial⟩

theorem Same.symm {v : PyVal} : ∀ {w : PyVal}, v.IsJson → w.IsJson → Same v w → Same w v := by
  induction v using PyVal.induct with
  | none => intro w _ _ h; cases w <;> trivial
  | bool b => intro w _ _ h; cases w <;> first | exact Eq.symm h | cases h
  | int i => intro w _ _ h; cases w <;> first | exact Eq.symm h | cases h
  | float f => intro w _ _ h; cases w <;> first | exact Eq.symm h | cases h
  | str s => intro w _ _ h; cases w <;> first | exact Eq.symm h | cases h
  | tuple xs ih => intro w hv; cases hv
  | object id => intro w hv; cases hv
  | cycle => intro w hv; cases hv
  | list xs ih =>
      intro w hv hw h
      cases w with
      | list ys =>
          have hxs := isJsonItems_iff.mp hv
          have hys := isJsonItems_iff.mp hw
          refine sameItems_iff.mpr (List.Forall₂.flip ?_)
          refine forall₂_imp_of_mem (sameItems_iff.mp h) ?_
          intro x hx y hy hxy
          exact ih x hx (hxs x hx) (hys y hy) hxy
      | _ => cases h
  | dict ms ih =>
      intro w hv hw h
      cases w with
      | dict ns =>
          obtain ⟨-, hms, hmsJson⟩ := hv
          obtain ⟨hkeys, hns, hnsJson⟩ := hw
          obtain ⟨hsame, hall⟩ := h
          refine ⟨sameMembers_iff.mpr ?_, ?_⟩
          · intro n hn
            obtain ⟨s, hs⟩ := exists_str (hkeys n hn)
            obtain ⟨k, y⟩ := n
            obtain rfl := hs
            obtain ⟨x, hx, hxy⟩ := hsame.back hns hall hn
            refine ⟨x, Dict.get_of_mem hms hx (by simp), ?_⟩
            exact ih _ hx (isJsonMembers_iff.mp hmsJson _ hx) (isJsonMembers_iff.mp hnsJson _ hn) hxy
          · intro m hm
            obtain ⟨w, hw, -⟩ := sameMembers_iff.mp hsame m hm
            rw [Dict.has, hw]
            rfl
      | _ => cases h

theorem Same.refl {v : PyVal} (hv : v.IsJson) : Same v v := by
  induction v using PyVal.induct with
  | none => trivial
  | bool b => rfl
  | int i => rfl
  | float f => rfl
  | str s => rfl
  | tuple xs ih => cases hv
  | object id => cases hv
  | cycle => cases hv
  | list xs ih =>
      have hxs := isJsonItems_iff.mp hv
      exact sameItems_iff.mpr (List.forall₂_same.mpr fun x hx => ih x hx (hxs x hx))
  | dict ms ih =>
      obtain ⟨hkeys, hdistinct, hms⟩ := hv
      have hget : ∀ m ∈ ms, Dict.get ms m.1 = some m.2 := by
        intro m hm
        obtain ⟨s, hs⟩ := exists_str (hkeys m hm)
        refine Dict.get_of_mem hdistinct hm ?_
        rw [hs]
        simp
      refine ⟨sameMembers_iff.mpr fun m hm => ⟨m.2, hget m hm, ?_⟩, ?_⟩
      · exact ih m hm (isJsonMembers_iff.mp hms m hm)
      · intro m hm
        rw [Dict.has, hget m hm]
        rfl

theorem alike_refl {v : PyVal} (hv : v.IsJson) : Alike v v := ⟨hv, hv, Same.refl hv⟩

theorem Alike.symm {v w : PyVal} (h : Alike v w) : Alike w v :=
  ⟨h.right, h.left, h.same.symm h.left h.right⟩

theorem Alike.items {xs ys : List PyVal} (h : Alike (.list xs) (.list ys)) :
    List.Forall₂ Alike xs ys := by
  have hxs := isJsonItems_iff.mp h.left
  have hys := isJsonItems_iff.mp h.right
  refine forall₂_imp_of_mem (sameItems_iff.mp h.same) ?_
  intro x hx y hy hxy
  exact ⟨hxs x hx, hys y hy, hxy⟩

theorem Alike.list {xs : List PyVal} {w : PyVal} (h : Alike (.list xs) w) :
    ∃ ys, w = .list ys ∧ List.Forall₂ Alike xs ys := by
  obtain ⟨hv, hw, hsame⟩ := h
  cases w with
  | list ys => exact ⟨ys, rfl, Alike.items ⟨hv, hw, hsame⟩⟩
  | _ => cases hsame

theorem Alike.dict {d : PyDict} {w : PyVal} (h : Alike (.dict d) w) :
    ∃ e, w = .dict e ∧ Alike (.dict d) (.dict e) := by
  obtain ⟨hv, hw, hsame⟩ := h
  cases w with
  | dict e => exact ⟨e, rfl, hv, hw, hsame⟩
  | _ => cases hsame

section Members

variable {d e : PyDict} (h : Alike (.dict d) (.dict e)) (name : Str)

include h

theorem Alike.get_some {v : PyVal} (hv : d.get name = some v) :
    ∃ w, e.get name = some w ∧ Alike v w := by
  obtain ⟨⟨-, hd, hdJson⟩, ⟨-, he, heJson⟩, hsame, -⟩ := h
  have hmem := mem_of_get_str hv
  obtain ⟨w, hw, hvw⟩ := hsame.forth hmem
  exact ⟨w, Dict.get_of_mem he hw (by simp), isJsonMembers_iff.mp hdJson _ hmem,
    isJsonMembers_iff.mp heJson _ hw, hvw⟩

theorem Alike.get : (d.get name = Option.none ∧ e.get name = Option.none) ∨
    ∃ v w, d.get name = some v ∧ e.get name = some w ∧ Alike v w := by
  cases hv : d.get name with
  | some v =>
      obtain ⟨w, hw, hvw⟩ := h.get_some name hv
      exact Or.inr ⟨v, w, rfl, hw, hvw⟩
  | none =>
      cases hw : e.get name with
      | none => exact Or.inl ⟨rfl, rfl⟩
      | some w =>
          obtain ⟨v, hv', -⟩ := h.symm.get_some name hw
          rw [hv] at hv'
          cases hv'

theorem Alike.getD : Alike (d.getD name) (e.getD name) := by
  unfold PyDict.getD
  rcases h.get name with ⟨hd, he⟩ | ⟨v, w, hd, he, hvw⟩
  · rw [hd, he]
    exact alike_none
  · rw [hd, he]
    exact hvw

theorem Alike.has : d.has name = e.has name := by
  unfold PyDict.has
  rcases h.get name with ⟨hd, he⟩ | ⟨v, w, hd, he, -⟩
  · rw [hd, he]
  · rw [hd, he]
    rfl

omit name

theorem Alike.hasAll (names : List String) : d.hasAll names = e.hasAll names := by
  unfold PyDict.hasAll
  congr 1
  funext name
  exact h.has (lit name)

theorem Alike.hasOnly_imp (names : List String) (hd : d.hasOnly names = true) :
    e.hasOnly names = true := by
  obtain ⟨-, ⟨hkeys, he, -⟩, hsame, hall⟩ := h
  unfold PyDict.hasOnly at hd ⊢
  rw [List.all_eq_true] at hd ⊢
  intro n hn
  obtain ⟨s, hs⟩ := exists_str (hkeys n hn)
  obtain ⟨k, y⟩ := n
  obtain rfl := hs
  obtain ⟨x, hx, -⟩ := hsame.back he hall hn
  simpa using hd _ hx

theorem Alike.hasOnly (names : List String) : d.hasOnly names = e.hasOnly names :=
  Bool.eq_iff_iff.mpr ⟨h.hasOnly_imp names, h.symm.hasOnly_imp names⟩

theorem Alike.length_le : d.length ≤ e.length := by
  obtain ⟨⟨hdKeys, hd, -⟩, -, hsame, -⟩ := h
  have hnodup : (d.map Prod.fst).Nodup := by
    refine List.pairwise_map.mpr ?_
    refine List.Pairwise.imp_of_mem ?_ hd
    rintro a b ha - hab heq
    obtain ⟨s, hs⟩ := exists_str (hdKeys a ha)
    rw [← heq, hs, same_str, decide_eq_false_iff_not] at hab
    exact hab rfl
  have hsub : d.map Prod.fst ⊆ e.map Prod.fst := by
    intro k hk
    obtain ⟨m, hm, rfl⟩ := List.mem_map.mp hk
    obtain ⟨s, hs⟩ := exists_str (hdKeys m hm)
    obtain ⟨k, x⟩ := m
    obtain rfl := hs
    obtain ⟨y, hy, -⟩ := hsame.forth hm
    exact List.mem_map.mpr ⟨_, hy, rfl⟩
  have hle := (List.subperm_of_subset hnodup hsub).length_le
  rwa [List.length_map, List.length_map] at hle

theorem Alike.length : d.length = e.length := le_antisymm h.length_le h.symm.length_le

end Members

theorem eqItems_iff {xs ys : List PyVal} :
    eqItems xs ys = true ↔ List.Forall₂ (fun x y => x.eq y = true) xs ys := by
  induction xs generalizing ys with
  | nil => cases ys <;> simp [eqItems]
  | cons x xs ih => cases ys <;> simp [eqItems, ih]

theorem eqMembers_iff {ms ns : List (PyKey × PyVal)} :
    eqMembers ms ns = true ↔ ∀ m ∈ ms, ∃ w, Dict.get ns m.1 = some w ∧ m.2.eq w = true := by
  induction ms with
  | nil => simp [eqMembers]
  | cons m ms ih =>
      rw [eqMembers, Bool.and_eq_true, ih, List.forall_mem_cons]
      cases Dict.get ns m.1 <;> simp

theorem Same.eq_imp {v : PyVal} : ∀ {w x : PyVal}, Alike v w → v.eq x = true → w.eq x = true := by
  induction v using PyVal.induct with
  | none | bool b | int i | float f | str s =>
      intro w x h hx
      have hsame := h.same
      cases w <;> simp_all [Same]
  | tuple xs ih => intro w x h; cases h.left
  | object id => intro w x h; cases h.left
  | cycle => intro w x h; cases h.left
  | list xs ih =>
      intro w x h hx
      obtain ⟨ys, rfl, hys⟩ := h.list
      cases x with
      | list zs =>
          rw [eq, eqItems_iff] at hx ⊢
          clear h
          induction hys generalizing zs with
          | nil => exact hx
          | cons hxy hys ihs =>
              cases hx with
              | cons hhead htail =>
                  refine .cons (ih _ List.mem_cons_self hxy hhead) (ihs ?_ _ htail)
                  intro x hx
                  exact ih x (List.mem_cons_of_mem _ hx)
      | _ => cases hx
  | dict ms ih =>
      intro w x h hx
      obtain ⟨ns, rfl, -⟩ := h.dict
      cases x with
      | dict es =>
          rw [eq, Bool.and_eq_true, decide_eq_true_eq, eqMembers_iff] at hx ⊢
          refine ⟨h.length.symm.trans hx.1, ?_⟩
          intro n hn
          obtain ⟨-, hms, hmsJson⟩ := h.left
          obtain ⟨hkeys, hns, hnsJson⟩ := h.right
          obtain ⟨s, hs⟩ := exists_str (hkeys n hn)
          obtain ⟨k, y⟩ := n
          obtain rfl := hs
          obtain ⟨x, hxm, hxy⟩ := h.same.1.back hns h.same.2 hn
          obtain ⟨z, hz, hxz⟩ := hx.2 _ hxm
          exact ⟨z, hz, ih _ hxm ⟨isJsonMembers_iff.mp hmsJson _ hxm,
            isJsonMembers_iff.mp hnsJson _ hn, hxy⟩ hxz⟩
      | _ => cases hx

theorem Alike.eq {v w : PyVal} (h : Alike v w) (x : PyVal) : v.eq x = w.eq x :=
  Bool.eq_iff_iff.mpr ⟨Same.eq_imp h, Same.eq_imp h.symm⟩

theorem eq_list_right {x : PyVal} {ys : List PyVal} (h : x.eq (.list ys) = true) :
    ∃ xs, x = .list xs := by
  cases x with
  | list xs => exact ⟨xs, rfl⟩
  | float f => cases hf : f.value? <;> simp [eq, numEq, number?, hf] at h
  | _ => simp [eq, numEq, number?] at h

theorem eq_dict_right {x : PyVal} {ns : List (PyKey × PyVal)} (h : x.eq (.dict ns) = true) :
    ∃ ms, x = .dict ms := by
  cases x with
  | dict ms => exact ⟨ms, rfl⟩
  | float f => cases hf : f.value? <;> simp [eq, numEq, number?, hf] at h
  | _ => simp [eq, numEq, number?] at h

theorem Same.eq_imp_right {v : PyVal} :
    ∀ {w x : PyVal}, Alike v w → x.eq v = true → x.eq w = true := by
  induction v using PyVal.induct with
  | none | bool b | int i | float f | str s =>
      intro w x h hx
      have hsame := h.same
      cases w <;> simp_all [Same]
  | tuple xs ih => intro w x h; cases h.left
  | object id => intro w x h; cases h.left
  | cycle => intro w x h; cases h.left
  | list xs ih =>
      intro w x h hx
      obtain ⟨ys, rfl, hys⟩ := h.list
      obtain ⟨zs, rfl⟩ := eq_list_right hx
      rw [eq, eqItems_iff] at hx ⊢
      clear h
      induction hys generalizing zs with
      | nil => exact hx
      | cons hxy hys ihs =>
          cases hx with
          | cons hhead htail =>
              refine .cons (ih _ List.mem_cons_self hxy hhead) (ihs ?_ _ htail)
              intro x hx
              exact ih x (List.mem_cons_of_mem _ hx)
  | dict ms ih =>
      intro w x h hx
      obtain ⟨ns, rfl, -⟩ := h.dict
      obtain ⟨es, rfl⟩ := eq_dict_right hx
      rw [eq, Bool.and_eq_true, decide_eq_true_eq, eqMembers_iff] at hx ⊢
      refine ⟨hx.1.trans h.length, ?_⟩
      intro m hm
      obtain ⟨-, hms, hmsJson⟩ := h.left
      obtain ⟨y, hy, hmy⟩ := hx.2 m hm
      obtain ⟨k, hyk, hkey⟩ := Dict.get_eq_some hy
      obtain ⟨z, hz, hyz⟩ := sameMembers_iff.mp h.same.1 _ hyk
      refine ⟨z, by rw [← Dict.get_congr ns hkey, hz], ih _ hyk ⟨?_, ?_, hyz⟩ hmy⟩
      · exact isJsonMembers_iff.mp hmsJson _ hyk
      · obtain ⟨k', hzk, -⟩ := Dict.get_eq_some hz
        exact isJsonMembers_iff.mp h.right.2.2 _ hzk

theorem Alike.eq_right {v w : PyVal} (h : Alike v w) (x : PyVal) : x.eq v = x.eq w :=
  Bool.eq_iff_iff.mpr ⟨Same.eq_imp_right h, Same.eq_imp_right h.symm⟩

-- only containers can differ at all
theorem Alike.cases {v w : PyVal} (h : Alike v w) : v = w ∨
    (∃ xs ys, v = .list xs ∧ w = .list ys ∧ List.Forall₂ Alike xs ys) ∨
      ∃ d e, v = .dict d ∧ w = .dict e ∧ Alike (.dict d) (.dict e) := by
  cases v with
  | list xs =>
      obtain ⟨ys, rfl, hys⟩ := h.list
      exact Or.inr (Or.inl ⟨xs, ys, rfl, rfl, hys⟩)
  | dict d =>
      obtain ⟨e, rfl, he⟩ := h.dict
      exact Or.inr (Or.inr ⟨d, e, rfl, rfl, he⟩)
  | tuple xs | object id | cycle => cases h.left
  | none | bool b | int i | float f | str s =>
      have hsame := h.same
      cases w <;> simp_all [Same]

theorem Alike.str {s : Str} {w : PyVal} (h : Alike (.str s) w) : w = .str s := by
  rcases h.cases with rfl | ⟨xs, ys, hxs, -⟩ | ⟨d, e, hd, -⟩
  · rfl
  · cases hxs
  · cases hd

theorem alike_str (s : Str) : Alike (.str s) (.str s) := ⟨trivial, trivial, rfl⟩

theorem alike_int (i : ℤ) : Alike (.int i) (.int i) := ⟨trivial, trivial, rfl⟩

section Building

variable {d e : PyDict}

theorem alike_dict (hd : (PyVal.dict d).IsJson) (he : (PyVal.dict e).IsJson)
    (h : ∀ name, (d.get name = Option.none ∧ e.get name = Option.none) ∨
      ∃ v w, d.get name = some v ∧ e.get name = some w ∧ Alike v w) :
    Alike (.dict d) (.dict e) := by
  refine ⟨hd, he, sameMembers_iff.mpr ?_, ?_⟩
  · intro m hm
    obtain ⟨s, hs⟩ := exists_str (hd.1 m hm)
    obtain ⟨k, x⟩ := m
    obtain rfl := hs
    have hx : d.get s = some x := Dict.get_of_mem hd.2.1 hm (by simp)
    rcases h s with ⟨hnone, -⟩ | ⟨v, w, hv, hw, hvw⟩
    · rw [hx] at hnone
      cases hnone
    · rw [hx] at hv
      obtain rfl := Option.some.inj hv
      exact ⟨w, hw, hvw.same⟩
  · intro n hn
    obtain ⟨s, hs⟩ := exists_str (he.1 n hn)
    obtain ⟨k, y⟩ := n
    obtain rfl := hs
    have hy : e.get s = some y := Dict.get_of_mem he.2.1 hn (by simp)
    rcases h s with ⟨-, hnone⟩ | ⟨v, w, hv, -, -⟩
    · rw [hy] at hnone
      cases hnone
    · exact Option.isSome_iff_exists.mpr ⟨v, hv⟩

theorem Alike.rel (h : Alike (.dict d) (.dict e)) (name : Str) :
    Option.Rel Alike (d.get name) (e.get name) := by
  rcases h.get name with ⟨hd, he⟩ | ⟨v, w, hv, hw, hvw⟩
  · rw [hd, he]
    exact .none
  · rw [hv, hw]
    exact .some hvw

theorem isJson_erase (hd : (PyVal.dict d).IsJson) (k : PyKey) :
    (PyVal.dict (Dict.erase d k)).IsJson := by
  obtain ⟨hkeys, hdistinct, hjson⟩ := hd
  refine ⟨?_, List.Pairwise.filter _ hdistinct, isJsonMembers_iff.mpr ?_⟩
  · intro m hm
    exact hkeys m (List.mem_of_mem_filter hm)
  · intro m hm
    exact isJsonMembers_iff.mp hjson m (List.mem_of_mem_filter hm)

theorem Alike.erase (h : Alike (.dict d) (.dict e)) (k : Str) :
    Alike (.dict (Dict.erase d (.str k))) (.dict (Dict.erase e (.str k))) := by
  refine alike_dict (isJson_erase h.left _) (isJson_erase h.right _) ?_
  intro name
  simp only [PyDict.get, Dict.get_erase, same_str, decide_eq_true_eq]
  split
  · exact Or.inl ⟨rfl, rfl⟩
  · exact h.get name

theorem hasOnly_ofFields {fields : List (String × PyVal)} {allowed : List String} :
    (PyDict.ofFields fields).hasOnly allowed = true ↔ ∀ m ∈ fields, m.1 ∈ allowed := by
  simp [PyDict.hasOnly, PyDict.ofFields, lit_inj]

theorem isJson_ofFields {fields : List (String × PyVal)} (hnames : (fields.map Prod.fst).Nodup)
    (h : ∀ m ∈ fields, m.2.IsJson) : (PyVal.dict (PyDict.ofFields fields)).IsJson := by
  refine ⟨?_, ?_, isJsonMembers_iff.mpr ?_⟩
  · intro m hm
    obtain ⟨n, -, rfl⟩ := List.mem_map.mp hm
    rfl
  · refine List.pairwise_map.mpr ((List.pairwise_map.mp hnames).imp ?_)
    intro a b hab
    simpa [lit_inj] using hab
  · intro m hm
    obtain ⟨n, hn, rfl⟩ := List.mem_map.mp hm
    exact h n hn

-- the same fields in the same order, with values that are alike
theorem alike_ofFields {fields fields' : List (String × PyVal)}
    (hnames : (fields.map Prod.fst).Nodup)
    (h : List.Forall₂ (fun a b => a.1 = b.1 ∧ Alike a.2 b.2) fields fields') :
    Alike (.dict (PyDict.ofFields fields)) (.dict (PyDict.ofFields fields')) := by
  have hsame : fields.map Prod.fst = fields'.map Prod.fst := by
    clear hnames
    induction h with
    | nil => rfl
    | cons hhead _ ih => rw [List.map_cons, List.map_cons, hhead.1, ih]
  refine alike_dict (isJson_ofFields hnames ?_) (isJson_ofFields (hsame ▸ hnames) ?_) ?_
  · intro m hm
    obtain ⟨n, -, hmn⟩ := exists_of_forall₂_left h hm
    exact hmn.2.left
  · intro n hn
    obtain ⟨m, -, hmn⟩ := exists_of_forall₂_left h.flip hn
    exact hmn.2.right
  · clear hnames hsame
    intro name
    induction h with
    | nil => exact Or.inl ⟨rfl, rfl⟩
    | @cons a b fields fields' hhead _ ih =>
        obtain ⟨key, v⟩ := a
        obtain ⟨key', w⟩ := b
        obtain ⟨rfl, hvw⟩ := hhead
        simp only [PyDict.ofFields, List.map_cons, PyDict.get_cons_str] at ih ⊢
        split
        · exact Or.inr ⟨v, w, rfl, rfl, hvw⟩
        · exact ih

theorem isJson_set {name : Str} {v : PyVal} (hd : (PyVal.dict d).IsJson)
    (hv : v.IsJson) : (PyVal.dict (d.set name v)).IsJson := by
  obtain ⟨hkeys, hdistinct, hmembers⟩ := hd
  have hmembers := isJsonMembers_iff.mp hmembers
  refine ⟨?_, Dict.distinct_set hdistinct _ _, isJsonMembers_iff.mpr ?_⟩
  · intro m hm
    rcases Dict.mem_set hm with hm | ⟨-, hk | ⟨w, hw⟩⟩
    · exact hkeys m hm
    · rw [hk]
      rfl
    · exact hkeys (m.1, w) hw
  · intro m hm
    rcases Dict.mem_set hm with hm | ⟨hm, -⟩
    · exact hmembers m hm
    · rw [hm]
      exact hv

theorem isJson_getD (hd : (PyVal.dict d).IsJson) (name : Str) :
    (d.getD name).IsJson := by
  cases hget : d.get name with
  | none =>
      rw [PyDict.getD_of_get_none hget]
      trivial
  | some v =>
      rw [PyDict.getD_of_get hget]
      obtain ⟨k, hmem, -⟩ := Dict.get_eq_some hget
      exact isJsonMembers_iff.mp hd.2.2 _ hmem

end Building

end PyVal

end Python
