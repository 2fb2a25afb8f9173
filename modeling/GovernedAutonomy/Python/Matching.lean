import GovernedAutonomy.Python.Reordered
import GovernedAutonomy.Python.Same

namespace Python

namespace Dict

variable {K V W : Type*} [Keyed K]

-- two dicts with the same keys, and with related values under each
structure Match (R : V → W → Prop) (d : List (K × V)) (e : List (K × W)) : Prop where
  forth : ∀ k v, get d k = some v → ∃ w, get e k = some w ∧ R v w
  back : ∀ k w, get e k = some w → ∃ v, get d k = some v ∧ R v w

variable {R : V → W → Prop} {d : List (K × V)} {e : List (K × W)}

theorem match_eq {d e : List (K × V)} : Match Eq d e ↔ ∀ k, get d k = get e k := by
  constructor
  · intro h k
    refine Option.ext fun v => ?_
    constructor
    · intro hv
      obtain ⟨w, hw, rfl⟩ := h.forth k v hv
      exact hw
    · intro hv
      obtain ⟨w, hw, rfl⟩ := h.back k v hv
      exact hw
  · intro h
    exact ⟨fun k v hv => ⟨v, (h k).symm.trans hv, rfl⟩, fun k v hv => ⟨v, (h k).trans hv, rfl⟩⟩

theorem Match.refl {R : V → V → Prop} (h : ∀ v, R v v) (d : List (K × V)) : Match R d d :=
  ⟨fun _ v hv => ⟨v, hv, h v⟩, fun _ v hv => ⟨v, hv, h v⟩⟩

theorem Match.imp {S : V → W → Prop} (h : Match R d e)
    (hRS : ∀ k v w, get d k = some v → get e k = some w → R v w → S v w) : Match S d e := by
  constructor
  · intro k v hv
    obtain ⟨w, hw, hvw⟩ := h.forth k v hv
    exact ⟨w, hw, hRS k v w hv hw hvw⟩
  · intro k w hw
    obtain ⟨v, hv, hvw⟩ := h.back k w hw
    exact ⟨v, hv, hRS k v w hv hw hvw⟩

theorem Match.symm (h : Match R d e) : Match (fun w v => R v w) e d := ⟨h.back, h.forth⟩

variable [Exact K]

theorem mem_iff_get (hd : Distinct d) {k : K} {v : V} : (k, v) ∈ d ↔ get d k = some v :=
  ⟨fun hm => get_of_mem hd hm ((Exact.same_iff k k).mpr rfl), mem_of_get⟩

theorem Match.mem (h : Match R d e) (hd : Distinct d) {m : K × V} (hm : m ∈ d) :
    ∃ w, (m.1, w) ∈ e ∧ R m.2 w := by
  obtain ⟨w, hw, hvw⟩ := h.forth _ _ ((mem_iff_get hd).mp hm)
  exact ⟨w, mem_of_get hw, hvw⟩

theorem Match.eq_nil (h : Match R d []) : d = [] := by
  cases d with
  | nil => rfl
  | cons m d =>
      have hget : get (m :: d) m.1 = some m.2 := by
        rw [get_cons, if_pos ((Exact.same_iff _ _).mpr rfl)]
      obtain ⟨w, hw, -⟩ := h.forth _ _ hget
      cases hw

theorem Match.isEmpty (h : Match R d e) : d.isEmpty = e.isEmpty := by
  cases d with
  | nil =>
      rw [h.symm.eq_nil]
      rfl
  | cons m d =>
      cases e with
      | nil => cases h.eq_nil
      | cons n e => rfl

theorem nodup_keys (hd : Distinct d) (p : K × V → Bool) : ((d.filter p).map Prod.fst).Nodup := by
  refine List.pairwise_map.mpr ((distinct_filter hd p).imp ?_)
  intro a b hab heq
  rw [(Exact.same_iff a.1 b.1).mpr heq] at hab
  cases hab

-- tests that cannot tell related values apart select the same keys
theorem Match.keys_perm (h : Match R d e) (hd : Distinct d) (he : Distinct e) {p : K × V → Bool}
    {q : K × W → Bool} (hpq : ∀ k v w, R v w → p (k, v) = q (k, w)) :
    ((d.filter p).map Prod.fst).Perm ((e.filter q).map Prod.fst) := by
  refine (List.perm_ext_iff_of_nodup (nodup_keys hd p) (nodup_keys he q)).mpr ?_
  intro k
  simp only [List.mem_map, List.mem_filter, Prod.exists, exists_and_right, exists_eq_right]
  constructor
  · rintro ⟨v, hm, hp⟩
    obtain ⟨w, hw, hvw⟩ := h.mem hd hm
    exact ⟨w, hw, by rw [← hpq k v w hvw, hp]⟩
  · rintro ⟨w, hm, hq⟩
    obtain ⟨v, hv, hvw⟩ := h.symm.mem he hm
    exact ⟨v, hv, by rw [hpq k v w hvw, hq]⟩

end Dict

namespace PyVal

-- two values that are written as one and the same document
def Cowritten (v w : PyVal) : Prop := ∃ depth t, v.toTree depth = .ok t ∧ w.toTree depth = .ok t

theorem Cowritten.symm {v w : PyVal} (h : Cowritten v w) : Cowritten w v := by
  obtain ⟨depth, t, hv, hw⟩ := h
  exact ⟨depth, t, hw, hv⟩

theorem cowritten_str {s t : Str} (h : Cowritten (.str s) (.str t)) : s = t := by
  obtain ⟨depth, tree, hs, ht⟩ := h
  simp only [toTree, Except.ok.injEq] at hs ht
  rw [← ht] at hs
  exact Json.str.inj hs

theorem cowritten_int {i j : ℤ} (h : Cowritten (.int i) (.int j)) : i = j := by
  obtain ⟨depth, tree, hi, hj⟩ := h
  simp only [toTree, bind_eq_ok, Except.ok.injEq] at hi hj
  obtain ⟨-, -, hi⟩ := hi
  obtain ⟨-, -, hj⟩ := hj
  rw [← hj] at hi
  exact Json.int.inj hi

theorem cowritten_float {f g : PyFloat} (h : Cowritten (.float f) (.float g)) : f = g := by
  obtain ⟨depth, tree, hf, hg⟩ := h
  simp only [toTree, Except.ok.injEq] at hf hg
  rw [← hg] at hf
  exact Json.float.inj hf

theorem not_cowritten_int_float {i : ℤ} {f : PyFloat} : ¬ Cowritten (.int i) (.float f) := by
  rintro ⟨depth, tree, hi, hf⟩
  simp only [toTree, bind_eq_ok, Except.ok.injEq] at hi hf
  obtain ⟨-, -, hi⟩ := hi
  rw [← hi] at hf
  cases hf

theorem cowritten_strs {ss ts : List Str}
    (h : Cowritten (.list (ss.map .str)) (.list (ts.map .str))) : ss = ts := by
  obtain ⟨depth, t, hs, ht⟩ := h
  obtain ⟨d, js, rfl, rfl, hss⟩ := toTree_items (ss.map .str) (by simp) hs
  obtain ⟨d', js', hd, hjs, hts⟩ := toTree_items (ts.map .str) (by simp) ht
  obtain rfl := Nat.succ.inj hd
  obtain rfl := Json.arr.inj hjs
  have hitems : ∀ {ss : List Str} {js : List Json},
      toTreeItems d (ss.map .str) = .ok js → js = ss.map .str := by
    intro ss
    induction ss with
    | nil =>
        intro js h
        exact (Except.ok.inj h).symm
    | cons s ss ih =>
        intro js h
        simp only [List.map_cons, toTreeItems, bind_eq_ok, toTree, Except.ok.injEq] at h
        obtain ⟨j, rfl, rest, hrest, rfl⟩ := h
        rw [ih hrest, List.map_cons]
  have hmaps := (hitems hss).symm.trans (hitems hts)
  exact List.map_injective_iff.mpr (fun _ _ h => Json.str.inj h) hmaps

theorem Cowritten.get {d e : PyDict} (h : Cowritten (.dict d) (.dict e))
    (hd : ∀ m ∈ d, m.1.isStr = true) (he : ∀ m ∈ e, m.1.isStr = true) (hdistinct : Dict.Distinct e)
    {s : Str} {v : PyVal} (hv : d.get s = some v) :
    ∃ w, e.get s = some w ∧ Cowritten v w := by
  obtain ⟨depth, t, hdt, het⟩ := h
  obtain ⟨w, j, hw, hvj, hwj⟩ := mem_of_same_tree hd he hdt het (mem_of_get_str hv)
  exact ⟨w, Dict.get_of_mem hdistinct hw (by simp), _, j, hvj, hwj⟩

end PyVal

end Python
