import GovernedAutonomy.Python.Encodable

namespace Python

theorem PyKey.lt_irrefl_str (s : Str) : PyKey.lt (.str s) (.str s) = false := by
  simp [PyKey.lt]

section Sorting

variable {α : Type}

-- the sort is stable: the first entry of a key stays the first
theorem get_orderedInsert {s : Str} {e : PyKey × α} {es : List (PyKey × α)}
    (hes : ∀ m ∈ es, m.1.isStr = true) :
    Dict.get (es.orderedInsert keyLe e) (.str s) = Dict.get (e :: es) (.str s) := by
  induction es with
  | nil => rfl
  | cons m es ih =>
      rw [List.orderedInsert_cons]
      split
      · rfl
      · rename_i hlt
        rw [Dict.get_cons m, ih fun n hn => hes n (List.mem_cons_of_mem _ hn), Dict.get_cons e,
          Dict.get_cons e, Dict.get_cons m]
        by_cases hem : Keyed.same e.1 (PyKey.str s) = true
        · by_cases hmm : Keyed.same m.1 (PyKey.str s) = true
          · rw [same_str_right] at hem hmm
            refine absurd ?_ hlt
            rw [keyLe, hem, hmm]
            exact PyKey.lt_irrefl_str s
          · simp only [hem, if_true, hmm, if_false, Bool.false_eq_true]
        · simp only [hem, if_false, Bool.false_eq_true]

theorem get_insertionSort {s : Str} {es : List (PyKey × α)} (hes : ∀ m ∈ es, m.1.isStr = true) :
    Dict.get (es.insertionSort keyLe) (.str s) = Dict.get es (.str s) := by
  induction es with
  | nil => rfl
  | cons m es ih =>
      obtain ⟨hm, hrest⟩ := List.forall_mem_cons.mp hes
      rw [List.insertionSort_cons, get_orderedInsert, Dict.get_cons, ih hrest, ← Dict.get_cons]
      intro n hn
      exact hrest n ((List.mem_insertionSort _).mp hn)

-- one string key leaves the sort no key of another type
theorem isStr_of_sortable {ks : List PyKey} (h : SortableKeys ks) {s : Str} (hs : .str s ∈ ks) :
    ∀ k ∈ ks, k.isStr = true := by
  rcases h with hlength | hstr | hnumber
  · intro k hk
    have hone : ks = [.str s] := by
      cases ks with
      | nil => cases hs
      | cons k' ks =>
          obtain rfl : ks = [] := List.length_eq_zero_iff.mp (by simpa using hlength)
          rw [List.mem_singleton.mp hs]
    rw [hone, List.mem_singleton] at hk
    rw [hk]
    rfl
  · exact hstr
  · exact absurd (hnumber _ hs) (by simp [PyKey.isNumber])

theorem get_collect {es : List (PyKey × Result α)} {js : List (Str × α)} {s : Str}
    (hes : ∀ m ∈ es, m.1.isStr = true) (h : collect es = .ok js) :
    Dict.get es (.str s) = (Dict.get js s).map .ok := by
  induction es generalizing js with
  | nil =>
      obtain rfl := Except.ok.inj h
      rfl
  | cons m es ih =>
      obtain ⟨hm, hrest⟩ := List.forall_mem_cons.mp hes
      obtain ⟨k, r⟩ := m
      cases k with
      | str s' =>
          obtain ⟨t, ht, j, rfl, rest, hjs, h⟩ := by simpa only [collect, bind_eq_ok] using h
          obtain rfl := Except.ok.inj ht
          obtain rfl := Except.ok.inj h
          rw [Dict.get_cons, Dict.get_cons, same_str, same_list, ih hrest hjs]
          split <;> rfl
      | _ => simp [PyKey.isStr] at hm

end Sorting

namespace PyVal

-- an entry of a dict with a string key is read off its tree
theorem get_toTree {depth : Nat} {d : PyDict} {t : Json} {name : Str} (hname : d.has name = true)
    (h : (PyVal.dict d).toTree depth = .ok t) :
    ∃ js, t = .obj js ∧ ∀ s, (d.get s).map (fun v => v.toTree (depth - 1)) =
      (Dict.get js s).map .ok := by
  obtain ⟨depth, es, js, rfl, rfl, hes, hjs⟩ := toTree_dict h
  refine ⟨js, rfl, fun s => ?_⟩
  have hsortable := sortEntries_isOk.mp ⟨es, hes⟩
  rw [List.map_map] at hsortable
  obtain ⟨v, hv⟩ := Option.isSome_iff_exists.mp hname
  have hstr : ∀ m ∈ d.map (fun m => (m.1, m.2.toTree depth)), m.1.isStr = true := by
    intro m hm
    obtain ⟨n, hn, rfl⟩ := List.mem_map.mp hm
    exact isStr_of_sortable hsortable (List.mem_map.mpr ⟨_, mem_of_get_str hv, rfl⟩) _
      (List.mem_map.mpr ⟨n, hn, rfl⟩)
  have hsorted : es = (d.map (fun m => (m.1, m.2.toTree depth))).insertionSort keyLe := by
    unfold sortEntries at hes
    split at hes
    · exact (Except.ok.inj hes).symm
    · cases hes
  rw [← get_collect (fun m hm => hstr m ((sortEntries_perm hes).mem_iff.mp hm)) hjs, hsorted,
    get_insertionSort hstr, Dict.get_map]
  rfl

-- two dicts written alike hold the same entries, up to how those are written
theorem get_of_same_tree {depth : Nat} {d e : PyDict} {t : Json} {name : Str}
    (hd : d.has name = true) (he : e.has name = true) (h : (PyVal.dict d).toTree depth = .ok t)
    (h' : (PyVal.dict e).toTree depth = .ok t) (s : Str) :
    (d.get s = Option.none ∧ e.get s = Option.none) ∨ ∃ v w, d.get s = some v ∧ e.get s = some w ∧
      v.toTree (depth - 1) = w.toTree (depth - 1) := by
  obtain ⟨js, rfl, hjs⟩ := get_toTree hd h
  obtain ⟨ks, hobj, hks⟩ := get_toTree he h'
  obtain rfl := Json.obj.inj hobj
  have hget := (hjs s).trans (hks s).symm
  cases hv : d.get s with
  | none =>
      rw [hv] at hget
      exact Or.inl ⟨rfl, Option.map_eq_none_iff.mp hget.symm⟩
  | some v =>
      rw [hv] at hget
      obtain ⟨w, hw, htree⟩ := Option.map_eq_some_iff.mp hget.symm
      exact Or.inr ⟨v, w, rfl, hw, htree.symm⟩

end PyVal

end Python
