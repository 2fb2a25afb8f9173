import GovernedAutonomy.Python.Value

namespace Python

open Keyed

namespace Dict

variable {K V : Type*} [Keyed K]

theorem distinct_of_perm {d e : List (K × V)} (hd : Distinct d) (h : d.Perm e) : Distinct e := by
  have hsymm : ∀ {a b : K × V}, same a.1 b.1 = false → same b.1 a.1 = false := by
    intro a b hab
    rwa [same_comm]
  exact (h.pairwise_iff hsymm).mp hd

theorem distinct_filter {d : List (K × V)} (hd : Distinct d) (p : K × V → Bool) :
    Distinct (d.filter p) := List.Pairwise.filter p hd

theorem get_perm {d e : List (K × V)} (hd : Distinct d) (h : d.Perm e) (k : K) :
    get d k = get e k := by
  cases he : get e k with
  | none =>
      refine get_eq_none.mpr ?_
      intro m hm
      exact get_eq_none.mp he m (h.mem_iff.mp hm)
  | some v =>
      obtain ⟨k', hmem, hk⟩ := get_eq_some he
      exact get_of_mem hd (h.mem_iff.mpr hmem) hk

-- dicts that answer every key alike hold the same entries
theorem perm_of_get [Exact K] {d e : List (K × V)} (hd : Distinct d) (he : Distinct e)
    (h : ∀ k, get d k = get e k) : d.Perm e := by
  have hself : ∀ k : K, same k k = true := fun k => (Exact.same_iff k k).mpr rfl
  have hnodup : ∀ {f : List (K × V)}, Distinct f → f.Nodup := by
    intro f hf
    apply hf.imp
    rintro m _ hm rfl
    rw [hself] at hm
    cases hm
  apply (List.perm_ext_iff_of_nodup (hnodup hd) (hnodup he)).mpr
  intro m
  constructor
  · intro hm
    exact mem_of_get ((h m.1).symm.trans (get_of_mem hd hm (hself m.1)))
  · intro hm
    exact mem_of_get ((h m.1).trans (get_of_mem he hm (hself m.1)))

theorem set_perm {d e : List (K × V)} (hd : Distinct d) (h : d.Perm e) (k : K) (v : V) :
    (set d k v).Perm (set e k v) := by
  induction h with
  | nil => exact .refl _
  | cons m hperm ih =>
      have hrest := ih (List.pairwise_cons.mp hd).2
      rw [set, set]
      split
      · exact hperm.cons _
      · exact hrest.cons _
  | swap m n l =>
      have hmn : same n.1 m.1 = false := (List.pairwise_cons.mp hd).1 m List.mem_cons_self
      simp only [set]
      split
      · rename_i hn
        rw [if_neg]
        · exact .swap _ _ _
        · intro hm
          rw [same_trans hn (same_symm hm)] at hmn
          cases hmn
      · split
        · exact .swap _ _ _
        · exact .swap _ _ _
  | trans h₁ _ ih₁ ih₂ => exact (ih₁ hd).trans (ih₂ (distinct_of_perm hd h₁))

theorem update_perm {d e : List (K × V)} (hd : Distinct d) (h : d.Perm e) (u : List (K × V)) :
    (update d u).Perm (update e u) := by
  induction u generalizing d e with
  | nil => exact h
  | cons m u ih => exact ih (distinct_set hd m.1 m.2) (set_perm hd h m.1 m.2)

section Parts

variable {p : K → Bool}

-- a set of keys that does not tell two spellings of one key apart
def Respects (p : K → Bool) : Prop := ∀ {a b : K}, same a b = true → p a = p b

def part (p : K → Bool) (d : List (K × V)) : List (K × V) := d.filter (fun m => p m.1)

theorem part_set (hp : Respects p) (d : List (K × V)) (k : K) (v : V) :
    part p (set d k v) = if p k then set (part p d) k v else part p d := by
  induction d with
  | nil => cases hk : p k <;> simp [part, set, hk]
  | cons m d ih =>
      rw [set]
      split
      · rename_i hsame
        have hm : p m.1 = p k := hp hsame
        cases hk : p k with
        | true => simp [part, set, hm, hk, hsame]
        | false => simp [part, hm, hk]
      · rename_i hsame
        simp only [part, List.filter_cons] at ih ⊢
        rw [ih]
        cases hk : p k with
        | true => cases hm : p m.1 <;> simp [set, hsame]
        | false => simp

theorem part_update (hp : Respects p) (d u : List (K × V)) :
    part p (update d u) = update (part p d) (part p u) := by
  induction u generalizing d with
  | nil => rfl
  | cons m u ih =>
      rw [update, List.foldl_cons, ← update, ih, part_set hp]
      cases hm : p m.1 with
      | true => simp [part, hm, update]
      | false => simp [part, hm]

omit [Keyed K] in
theorem perm_of_parts {d e : List (K × V)} (h : (part p d).Perm (part p e))
    (hrest : (part (fun k => !p k) d).Perm (part (fun k => !p k) e)) : d.Perm e := by
  have hd := List.filter_append_perm (fun m : K × V => p m.1) d
  have he := List.filter_append_perm (fun m : K × V => p m.1) e
  exact hd.symm.trans ((h.append hrest).trans he)

end Parts

-- what is read after an update depends on what was there only where the update is silent
theorem get_update_eq_iff {d e u : List (K × V)} {k : K} :
    get (update d u) k = get (update e u) k ↔ (get u k = none → get d k = get e k) := by
  have hnone : get u.reverse k = none ↔ get u k = none := by
    simp only [get_eq_none, List.mem_reverse]
  rw [get_update, get_update, ← hnone]
  cases get u.reverse k <;> simp

theorem erase_set (d : List (K × V)) {k : K} (hk : same k k = true) (v : V) :
    erase (set d k v) k = erase d k := by
  induction d with
  | nil => simp [set, erase, hk]
  | cons m d ih =>
      rw [set]
      split
      · rename_i h
        simp [erase, h]
      · rename_i h
        simpa [erase, h] using ih

section Layers

def overlay (d : List (K × V)) (layers : List (List (K × V))) : List (K × V) :=
  layers.foldl update d

theorem distinct_overlay {d : List (K × V)} (hd : Distinct d) (layers : List (List (K × V))) :
    Distinct (overlay d layers) := by
  induction layers generalizing d with
  | nil => exact hd
  | cons layer layers ih => exact ih (distinct_update hd layer)

theorem overlay_perm {d e : List (K × V)} (hd : Distinct d) (h : d.Perm e)
    (layers : List (List (K × V))) : (overlay d layers).Perm (overlay e layers) := by
  induction layers generalizing d e with
  | nil => exact h
  | cons layer layers ih => exact ih (distinct_update hd layer) (update_perm hd h layer)

theorem part_overlay {p : K → Bool} (hp : Respects p) (d : List (K × V))
    (layers : List (List (K × V))) :
    part p (overlay d layers) = overlay (part p d) (layers.map (part p)) := by
  induction layers generalizing d with
  | nil => rfl
  | cons layer layers ih =>
      rw [overlay, List.foldl_cons, ← overlay, ih, part_update hp]
      rfl

theorem get_overlay_eq_iff {d e : List (K × V)} {layers : List (List (K × V))} {k : K} :
    get (overlay d layers) k = get (overlay e layers) k ↔
      ((∀ layer ∈ layers, get layer k = none) → get d k = get e k) := by
  induction layers generalizing d e with
  | nil => simp [overlay]
  | cons layer layers ih =>
      rw [overlay, overlay, List.foldl_cons, List.foldl_cons, ← overlay, ← overlay, ih,
        get_update_eq_iff, List.forall_mem_cons]
      exact ⟨fun h hall => h hall.2 hall.1, fun h hrest hlayer => h ⟨hlayer, hrest⟩⟩

end Layers

end Dict

namespace PyDict

def isNamed (names : List Str) (key : PyKey) : Bool := names.any (fun name => same key (.str name))

theorem isNamed_iff {names : List Str} {key : PyKey} :
    isNamed names key = true ↔ ∃ name ∈ names, key = .str name := by
  simp only [isNamed, List.any_eq_true, same_str_right]

theorem respects_isNamed (names : List Str) : Dict.Respects (isNamed names) := by
  intro a b h
  have hall : ∀ name, same a (.str name) = same b (.str name) := fun name => same_congr h _
  simp only [isNamed, hall]

theorem mem_iff_get {d : PyDict} (hd : Dict.Distinct d) {name : Str} {v : PyVal} :
    (.str name, v) ∈ d ↔ d.get name = some v := by
  constructor
  · intro h
    exact Dict.get_of_mem hd h (by simp)
  · exact mem_of_get_str

theorem nodup_named {d : PyDict} (hd : Dict.Distinct d) (names : List Str) :
    (Dict.part (isNamed names) d).Nodup := by
  have hpart : (Dict.part (isNamed names) d).Pairwise (fun a b => same a.1 b.1 = false) :=
    Dict.distinct_filter hd _
  refine List.Pairwise.imp_of_mem ?_ hpart
  intro a b ha _ hab heq
  obtain ⟨name, -, hname⟩ := isNamed_iff.mp (List.mem_filter.mp ha).2
  rw [← heq, hname, same_str] at hab
  simp at hab

-- entries with named keys are the same set as soon as they read the same
theorem perm_named {d e : PyDict} (hd : Dict.Distinct d) (he : Dict.Distinct e)
    {names : List Str} (h : ∀ name ∈ names, d.get name = e.get name) :
    (Dict.part (isNamed names) d).Perm (Dict.part (isNamed names) e) := by
  refine (List.perm_ext_iff_of_nodup (nodup_named hd names) (nodup_named he names)).mpr ?_
  rintro ⟨k, v⟩
  simp only [Dict.part, List.mem_filter]
  refine and_congr_left ?_
  intro hk
  obtain ⟨name, hname, rfl⟩ := isNamed_iff.mp hk
  rw [mem_iff_get hd, mem_iff_get he, h name hname]

theorem perm_iff {d e : PyDict} (hd : Dict.Distinct d) (he : Dict.Distinct e) (names : List Str)
    (hrest : (Dict.part (fun k => !isNamed names k) d).Perm
      (Dict.part (fun k => !isNamed names k) e)) :
    d.Perm e ↔ ∀ name ∈ names, d.get name = e.get name := by
  constructor
  · intro h name _
    exact Dict.get_perm hd h _
  · intro h
    exact Dict.perm_of_parts (perm_named hd he h) hrest

-- laying the same entries over two dicts hides where they differ just where a layer speaks
theorem overlay_perm_iff {d e : PyDict} (hd : Dict.Distinct d) (he : Dict.Distinct e)
    (names : List Str)
    (hrest : (Dict.part (fun k => !isNamed names k) d).Perm
      (Dict.part (fun k => !isNamed names k) e)) (layers : List PyDict) :
    (Dict.overlay d layers).Perm (Dict.overlay e layers) ↔
      ∀ name ∈ names, (∀ layer ∈ layers, PyDict.get layer name = none) →
        d.get name = e.get name := by
  have hother : Dict.Respects (fun k => !isNamed names k) := by
    intro a b h
    simp only [respects_isNamed names h]
  have hlayers : (Dict.part (fun k => !isNamed names k) (Dict.overlay d layers)).Perm
      (Dict.part (fun k => !isNamed names k) (Dict.overlay e layers)) := by
    rw [Dict.part_overlay hother, Dict.part_overlay hother]
    exact Dict.overlay_perm (Dict.distinct_filter hd _) hrest _
  rw [perm_iff (Dict.distinct_overlay hd layers) (Dict.distinct_overlay he layers) names hlayers]
  exact forall₂_congr (fun name _ => Dict.get_overlay_eq_iff)

end PyDict

end Python
