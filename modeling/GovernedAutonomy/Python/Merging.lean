import GovernedAutonomy.Python.Congruence
import GovernedAutonomy.Python.Matching

namespace Python

section Deduplicated

variable {α β : Type} [DecidableEq β] {xs ys : List β}

theorem eraseDups_filter (p : β → Bool) (xs : List β) :
    (xs.filter p).eraseDups = xs.eraseDups.filter p := by
  induction xs generalizing p with
  | nil => rfl
  | cons x xs ih =>
      rw [List.eraseDups_cons, ih, List.filter_cons, List.filter_cons]
      split
      · rw [List.eraseDups_cons, List.filter_filter, List.filter_filter, ih]
        simp only [Bool.and_comm]
      · rename_i hx
        rw [ih, List.filter_filter]
        refine List.filter_congr fun y _ => ?_
        by_cases hy : y = x
        · subst hy
          simpa using hx
        · simp [hy]

theorem nodup_eraseDups (xs : List β) : xs.eraseDups.Nodup := by
  induction xs with
  | nil => exact List.nodup_nil
  | cons x xs ih =>
      rw [List.eraseDups_cons, eraseDups_filter]
      exact List.nodup_cons.mpr ⟨by simp, ih.filter _⟩

theorem eraseDups_of_nodup (h : xs.Nodup) : xs.eraseDups = xs := by
  induction xs with
  | nil => rfl
  | cons x xs ih =>
      obtain ⟨hx, hxs⟩ := List.nodup_cons.mp h
      rw [List.eraseDups_cons, eraseDups_filter, ih hxs, List.filter_eq_self.mpr]
      intro y hy
      simpa using ne_of_mem_of_not_mem hy hx

@[simp]
theorem eraseDups_eraseDups (xs : List β) : xs.eraseDups.eraseDups = xs.eraseDups :=
  eraseDups_of_nodup (nodup_eraseDups xs)

end Deduplicated

-- the value that the last of several sources has
def lastSome {α β : Type} (f : α → Option β) (xs : List α) : Option β := xs.reverse.findSome? f

section Last

variable {α β : Type} {f : α → Option β} {xs : List α} {x : α} {y : β}

@[simp]
theorem lastSome_nil : lastSome f [] = none := rfl

theorem lastSome_concat : lastSome f (xs ++ [x]) = (f x).or (lastSome f xs) := by
  rw [lastSome, List.reverse_append, List.findSome?_append]
  simp [lastSome]

theorem lastSome_eq_none : lastSome f xs = none ↔ ∀ x ∈ xs, f x = none := by
  rw [lastSome, List.findSome?_eq_none_iff]
  simp only [List.mem_reverse]

theorem lastSome_map {γ : Type} {g : γ → α} {zs : List γ} :
    lastSome f (zs.map g) = lastSome (fun z => f (g z)) zs := by
  rw [lastSome, ← List.map_reverse, List.findSome?_map]
  rfl

theorem lastSome_congr {g : α → Option β} (h : ∀ x ∈ xs, f x = g x) :
    lastSome f xs = lastSome g xs := by
  induction xs using List.reverseRecOn with
  | nil => rfl
  | append_singleton xs x ih =>
      obtain ⟨hxs, hx⟩ := List.forall_mem_append.mp h
      rw [lastSome_concat, lastSome_concat, ih hxs, hx x (List.mem_singleton_self x)]

theorem exists_lastSome (hx : x ∈ xs) (h : f x = some y) : ∃ z, lastSome f xs = some z := by
  cases hlast : lastSome f xs with
  | none =>
      rw [lastSome_eq_none.mp hlast x hx] at h
      cases h
  | some z => exact ⟨z, rfl⟩

-- the source that counts, with none after it
theorem lastSome_eq_some (h : lastSome f xs = some y) :
    ∃ before x after, xs = before ++ x :: after ∧ f x = some y ∧ ∀ z ∈ after, f z = none := by
  obtain ⟨after, x, before, hxs, hx, hafter⟩ := List.findSome?_eq_some_iff.mp h
  refine ⟨before.reverse, x, after.reverse, ?_, hx, fun z hz => hafter z (List.mem_reverse.mp hz)⟩
  simpa using congrArg List.reverse hxs

theorem mem_of_lastSome (h : lastSome f xs = some y) : ∃ x ∈ xs, f x = some y := by
  obtain ⟨before, x, after, rfl, hx, -⟩ := lastSome_eq_some h
  exact ⟨x, by simp, hx⟩

end Last

namespace Dict

variable {K V α : Type} [Keyed K]

-- {**d, **f(x), **f(y)}
theorem get_updates {f : α → List (K × V)} {xs : List α} (h : ∀ x ∈ xs, Distinct (f x))
    (d : List (K × V)) (k : K) : get (xs.foldl (fun acc x => update acc (f x)) d) k =
      (lastSome (fun x => get (f x) k) xs).or (get d k) := by
  induction xs using List.reverseRecOn with
  | nil => rfl
  | append_singleton xs x ih =>
      obtain ⟨hxs, hx⟩ := List.forall_mem_append.mp h
      rw [List.foldl_append, List.foldl_cons, List.foldl_nil,
        get_update_of_distinct _ (hx x (List.mem_singleton_self x)), ih hxs, lastSome_concat,
        Option.or_assoc]

theorem distinct_updates {f : α → List (K × V)} (xs : List α) {d : List (K × V)}
    (hd : Distinct d) : Distinct (xs.foldl (fun acc x => update acc (f x)) d) := by
  induction xs generalizing d with
  | nil => exact hd
  | cons x xs ih => exact ih (distinct_update hd (f x))

end Dict

namespace PyVal

theorem eq_number {v w : PyVal} {q : PyFloat.Extended} (h : v.number? = some q) :
    v.eq w = true ↔ w.number? = some q := by
  have hnum : numEq v w = true ↔ w.number? = some q := by
    rw [numEq, h, Option.isSome_some, Bool.true_and, decide_eq_true_eq]
    exact eq_comm
  cases v with
  | int i | bool b | float f => rwa [eq]
  | _ => cases h

theorem eq_list {xs : List PyVal} {w : PyVal} :
    (PyVal.list xs).eq w = true ↔ ∃ ys, w = .list ys ∧
      List.Forall₂ (fun x y => x.eq y = true) xs ys := by
  cases w with
  | list ys => simp [eq, eqItems_iff]
  | _ => simp [eq]

theorem eq_tuple {xs : List PyVal} {w : PyVal} :
    (PyVal.tuple xs).eq w = true ↔ ∃ ys, w = .tuple ys ∧
      List.Forall₂ (fun x y => x.eq y = true) xs ys := by
  cases w with
  | tuple ys => simp [eq, eqItems_iff]
  | _ => simp [eq]

theorem eq_dict {ms : List (PyKey × PyVal)} {w : PyVal} :
    (PyVal.dict ms).eq w = true ↔ ∃ ns, w = .dict ns ∧ ms.length = ns.length ∧
      ∀ m ∈ ms, ∃ w, Dict.get ns m.1 = some w ∧ m.2.eq w = true := by
  cases w with
  | dict ns => simp [eq, eqMembers_iff]
  | _ => simp [eq]

theorem forall₂_trans {α : Type} {R : α → α → Prop} {xs ys zs : List α}
    (h : ∀ x ∈ xs, ∀ y z, R x y → R y z → R x z) (hxy : List.Forall₂ R xs ys)
    (hyz : List.Forall₂ R ys zs) : List.Forall₂ R xs zs := by
  induction hxy generalizing zs with
  | nil => exact hyz
  | cons hhead _ ih =>
      cases hyz with
      | cons hhead' htail' =>
          refine .cons (h _ List.mem_cons_self _ _ hhead hhead') (ih ?_ htail')
          exact fun x hx => h x (List.mem_cons_of_mem _ hx)

theorem eq_trans {v : PyVal} : ∀ {w x : PyVal}, v.eq w = true → w.eq x = true →
    v.eq x = true := by
  have hnumber : ∀ {v w x : PyVal} {q : PyFloat.Extended}, v.number? = some q →
      v.eq w = true → w.eq x = true → v.eq x = true := by
    intro v w x q hv hvw hwx
    exact (eq_number hv).mpr ((eq_number ((eq_number hv).mp hvw)).mp hwx)
  induction v using PyVal.induct with
  | none =>
      intro w x hvw hwx
      obtain rfl : w = .none := by
        cases w with
        | none => rfl
        | _ => cases hvw
      exact hwx
  | object id =>
      intro w x hvw hwx
      cases w with
      | object id' =>
          obtain rfl : id = id' := by simpa [eq] using hvw
          exact hwx
      | _ => cases hvw
  | cycle =>
      intro w x hvw
      cases hvw
  | bool b | int i => exact hnumber rfl
  | float f =>
      intro w x hvw hwx
      cases hf : f.value? with
      | none => simp [eq, numEq, number?, hf] at hvw
      | some q => exact hnumber (v := .float f) hf hvw hwx
  | str s =>
      intro w x hvw hwx
      rw [eq_str_left.mp hvw] at hwx
      exact hwx
  | list xs ih =>
      intro w x hvw hwx
      obtain ⟨ys, rfl, hxy⟩ := eq_list.mp hvw
      obtain ⟨zs, rfl, hyz⟩ := eq_list.mp hwx
      exact eq_list.mpr ⟨zs, rfl, forall₂_trans (fun x hx y z => ih x hx) hxy hyz⟩
  | tuple xs ih =>
      intro w x hvw hwx
      obtain ⟨ys, rfl, hxy⟩ := eq_tuple.mp hvw
      obtain ⟨zs, rfl, hyz⟩ := eq_tuple.mp hwx
      exact eq_tuple.mpr ⟨zs, rfl, forall₂_trans (fun x hx y z => ih x hx) hxy hyz⟩
  | dict ms ih =>
      intro w x hvw hwx
      obtain ⟨ns, rfl, hlength, hms⟩ := eq_dict.mp hvw
      obtain ⟨es, rfl, hlength', hns⟩ := eq_dict.mp hwx
      refine eq_dict.mpr ⟨es, rfl, hlength.trans hlength', fun m hm => ?_⟩
      obtain ⟨y, hy, hmy⟩ := hms m hm
      obtain ⟨k, hn, hk⟩ := Dict.get_eq_some hy
      obtain ⟨z, hz, hyz⟩ := hns _ hn
      rw [Dict.get_congr es hk] at hz
      exact ⟨z, hz, ih m hm hmy hyz⟩

end PyVal

end Python
