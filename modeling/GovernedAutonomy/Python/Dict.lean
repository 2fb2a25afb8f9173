import Mathlib.Data.List.Basic

namespace Python

class Keyed (K : Type*) where
  same : K → K → Bool
  same_symm : ∀ {a b}, same a b = true → same b a = true
  same_trans : ∀ {a b c}, same a b = true → same b c = true → same a c = true

open Keyed

variable {K V : Type*} [Keyed K]

theorem same_comm (a b : K) : same a b = same b a := by
  rw [Bool.eq_iff_iff]
  exact ⟨same_symm, same_symm⟩

theorem same_congr {a b : K} (h : same a b = true) (c : K) : same a c = same b c := by
  rw [Bool.eq_iff_iff]
  exact ⟨same_trans (same_symm h), same_trans h⟩

instance {α : Type*} [DecidableEq α] : Keyed (List α) where
  same a b := decide (a = b)
  same_symm h := by simpa using (of_decide_eq_true h).symm
  same_trans h h' := by simpa using (of_decide_eq_true h).trans (of_decide_eq_true h')

@[simp]
theorem same_list {α : Type*} [DecidableEq α] (a b : List α) : same a b = decide (a = b) := rfl

-- keys of which no two different ones are the same
class Exact (K : Type*) [Keyed K] : Prop where
  same_iff : ∀ a b : K, same a b = true ↔ a = b

instance {α : Type*} [DecidableEq α] : Exact (List α) := ⟨fun _ _ => decide_eq_true_iff⟩

namespace Dict

def get (d : List (K × V)) (k : K) : Option V :=
  match d with
  | [] => none
  | m :: d => if same m.1 k then some m.2 else get d k

def set (d : List (K × V)) (k : K) (v : V) : List (K × V) :=
  match d with
  | [] => [(k, v)]
  | m :: d => if same m.1 k then (m.1, v) :: d else m :: set d k v

def has (d : List (K × V)) (k : K) : Bool := (get d k).isSome

def erase (d : List (K × V)) (k : K) : List (K × V) := d.filter (fun m => !same m.1 k)

-- later entries win, and a key keeps the place of its first insertion
def update (d e : List (K × V)) : List (K × V) := e.foldl (fun acc m => set acc m.1 m.2) d

def Distinct (d : List (K × V)) : Prop := d.Pairwise (fun a b => same a.1 b.1 = false)

@[simp]
theorem get_nil (k : K) : get ([] : List (K × V)) k = none := rfl

theorem get_cons (m : K × V) (d : List (K × V)) (k : K) :
    get (m :: d) k = if same m.1 k then some m.2 else get d k := rfl

theorem get_congr (d : List (K × V)) {k k' : K} (h : same k k' = true) : get d k = get d k' := by
  induction d with
  | nil => rfl
  | cons m d ih => rw [get_cons, get_cons, same_comm, same_congr h, same_comm k', ih]

theorem get_set (d : List (K × V)) (k k' : K) (v : V) :
    get (set d k v) k' = if same k k' then some v else get d k' := by
  induction d with
  | nil => rfl
  | cons m d ih =>
      rw [set]
      split
      · rename_i h
        rw [get_cons, get_cons, same_congr h]
        split <;> rfl
      · rename_i h
        rw [get_cons, get_cons, ih]
        split
        · rename_i hm
          rw [if_neg]
          intro hk
          exact h (same_trans hm (same_symm hk))
        · rfl

theorem get_map {W : Type*} (f : V → W) (d : List (K × V)) (k : K) :
    get (d.map (fun m => (m.1, f m.2))) k = (get d k).map f := by
  induction d with
  | nil => rfl
  | cons m d ih =>
      rw [List.map_cons, get_cons, get_cons, ih]
      split <;> rfl

theorem set_map {W : Type*} (f : V → W) (d : List (K × V)) (k : K) (v : V) :
    set (d.map (fun m => (m.1, f m.2))) k (f v) =
      (set d k v).map (fun m => (m.1, f m.2)) := by
  induction d with
  | nil => rfl
  | cons m d ih =>
      rw [List.map_cons, set, set, ih]
      split <;> rfl

theorem get_append (d e : List (K × V)) (k : K) :
    get (d ++ e) k = (get d k).or (get e k) := by
  induction d with
  | nil => rfl
  | cons m d ih =>
      rw [List.cons_append, get_cons, get_cons, ih]
      split <;> rfl

theorem get_update (d e : List (K × V)) (k : K) :
    get (update d e) k = (get e.reverse k).or (get d k) := by
  induction e generalizing d with
  | nil => rfl
  | cons m e ih =>
      rw [update, List.foldl_cons, ← update, ih, get_set, List.reverse_cons, get_append, get_cons]
      cases get e.reverse k <;> simp only [Option.or, get_nil]
      split <;> rfl

theorem get_set_eq [DecidableEq K] [Exact K] (d : List (K × V)) (k k' : K) (v : V) :
    get (set d k v) k' = if k = k' then some v else get d k' := by
  rw [get_set]
  exact if_congr (Exact.same_iff k k') rfl rfl

theorem has_set_eq [DecidableEq K] [Exact K] (d : List (K × V)) (k k' : K) (v : V) :
    has (set d k v) k' = (decide (k = k') || has d k') := by
  rw [has, get_set_eq, has]
  by_cases h : k = k' <;> simp [h]

theorem get_eq_none {d : List (K × V)} {k : K} :
    get d k = none ↔ ∀ m ∈ d, same m.1 k = false := by
  induction d with
  | nil => simp
  | cons m d ih =>
      rw [get_cons]
      cases h : same m.1 k <;> simp [h, ih]

theorem get_eq_some {d : List (K × V)} {k : K} {v : V} (h : get d k = some v) :
    ∃ k', (k', v) ∈ d ∧ same k' k = true := by
  induction d with
  | nil => cases h
  | cons m d ih =>
      rw [get_cons] at h
      split at h
      · rename_i hk
        obtain rfl := Option.some.inj h
        exact ⟨m.1, List.mem_cons_self, hk⟩
      · obtain ⟨k', hmem, hk⟩ := ih h
        exact ⟨k', List.mem_cons_of_mem _ hmem, hk⟩

theorem mem_of_get [Exact K] {d : List (K × V)} {k : K} {v : V} (h : get d k = some v) :
    (k, v) ∈ d := by
  obtain ⟨k', hmem, hsame⟩ := get_eq_some h
  exact (Exact.same_iff k' k).mp hsame ▸ hmem

theorem get_of_mem {d : List (K × V)} (hd : Distinct d) {m : K × V} (hm : m ∈ d) {k : K}
    (hk : same m.1 k = true) : get d k = some m.2 := by
  induction d with
  | nil => cases hm
  | cons n d ih =>
      obtain ⟨hn, hd⟩ := List.pairwise_cons.mp hd
      rcases List.mem_cons.mp hm with rfl | hm
      · rw [get_cons, if_pos hk]
      · rw [get_cons, if_neg]
        · exact ih hd hm
        · intro hnk
          have := same_trans hnk (same_symm hk)
          rw [hn m hm] at this
          cases this

theorem get_reverse {d : List (K × V)} (h : Distinct d) (k : K) : get d.reverse k = get d k := by
  cases hr : get d.reverse k with
  | none =>
      refine (get_eq_none.mpr ?_).symm
      intro m hm
      exact get_eq_none.mp hr m (List.mem_reverse.mpr hm)
  | some v =>
      obtain ⟨k', hmem, hk⟩ := get_eq_some hr
      exact (get_of_mem h (List.mem_reverse.mp hmem) hk).symm

theorem get_update_of_distinct (d : List (K × V)) {e : List (K × V)} (h : Distinct e) (k : K) :
    get (update d e) k = (get e k).or (get d k) := by
  rw [get_update, get_reverse h]

theorem get_erase (d : List (K × V)) (k k' : K) :
    get (erase d k) k' = if same k k' then none else get d k' := by
  induction d with
  | nil => simp [erase]
  | cons m d ih =>
      rw [erase, List.filter_cons, ← erase]
      cases hm : same m.1 k with
      | true =>
          simp only [Bool.not_true, Bool.false_eq_true, if_false, ih, get_cons, same_congr hm]
          split <;> rfl
      | false =>
          simp only [Bool.not_false, if_true, get_cons, ih]
          split
          · rename_i hk
            rw [if_neg]
            intro h
            rw [same_trans hk (same_symm h)] at hm
            cases hm
          · rfl

theorem mem_set {d : List (K × V)} {k : K} {v : V} {m : K × V} (h : m ∈ set d k v) :
    m ∈ d ∨ m.2 = v ∧ (m.1 = k ∨ ∃ w, (m.1, w) ∈ d) := by
  induction d with
  | nil =>
      rw [set, List.mem_singleton] at h
      subst h
      exact Or.inr ⟨rfl, Or.inl rfl⟩
  | cons n d ih =>
      rw [set] at h
      split at h
      · rcases List.mem_cons.mp h with rfl | h
        · exact Or.inr ⟨rfl, Or.inr ⟨n.2, List.mem_cons_self⟩⟩
        · exact Or.inl (List.mem_cons_of_mem _ h)
      · rcases List.mem_cons.mp h with rfl | h
        · exact Or.inl List.mem_cons_self
        · rcases ih h with h | ⟨hv, h | ⟨w, hw⟩⟩
          · exact Or.inl (List.mem_cons_of_mem _ h)
          · exact Or.inr ⟨hv, Or.inl h⟩
          · exact Or.inr ⟨hv, Or.inr ⟨w, List.mem_cons_of_mem _ hw⟩⟩

theorem mem_set_exact [Exact K] {d : List (K × V)} {k : K} {v : V}
    {m : K × V} (h : m ∈ set d k v) : m ∈ d ∨ m = (k, v) := by
  induction d with
  | nil => exact .inr (List.mem_singleton.mp h)
  | cons n d ih =>
      rw [set] at h
      split at h
      · next hsame =>
          rcases List.mem_cons.mp h with rfl | h
          · exact .inr (by rw [(Exact.same_iff n.1 k).mp hsame])
          · exact .inl (List.mem_cons_of_mem _ h)
      · rcases List.mem_cons.mp h with rfl | h
        · exact .inl List.mem_cons_self
        · rcases ih h with h | h
          · exact .inl (List.mem_cons_of_mem _ h)
          · exact .inr h

theorem mem_update_exact [Exact K] {d e : List (K × V)} {m : K × V} (h : m ∈ update d e) :
    m ∈ d ∨ m ∈ e := by
  induction e generalizing d with
  | nil => exact .inl h
  | cons n e ih =>
      rcases ih h with hm | hm
      · rcases mem_set_exact hm with hm | rfl
        · exact .inl hm
        · exact .inr List.mem_cons_self
      · exact .inr (List.mem_cons_of_mem _ hm)

theorem set_of_not_has {d : List (K × V)} {k : K} (h : ∀ m ∈ d, same m.1 k = false) (v : V) :
    set d k v = d ++ [(k, v)] := by
  induction d with
  | nil => rfl
  | cons m d ih =>
      rw [set, if_neg (by simp [h m]), ih (fun n hn => h n (List.mem_cons_of_mem _ hn))]
      rfl

theorem set_eq_self {d : List (K × V)} {k : K} {v : V} : set d k v = d ↔ get d k = some v := by
  induction d with
  | nil => simp [set]
  | cons m d ih =>
      rw [set, get_cons]
      split
      · rw [List.cons.injEq, Option.some.injEq]
        constructor
        · rintro ⟨hm, -⟩
          exact congrArg Prod.snd hm.symm
        · rintro rfl
          exact ⟨rfl, rfl⟩
      · rw [List.cons.injEq, and_iff_right rfl]
        exact ih

theorem update_append_of_distinct {d e : List (K × V)} (h : Distinct (d ++ e)) :
    update d e = d ++ e := by
  induction e generalizing d with
  | nil => simp [update]
  | cons m e ih =>
      have hm : ∀ n ∈ d, same n.1 m.1 = false := by
        intro n hn
        exact (List.pairwise_append.mp h).2.2 n hn m List.mem_cons_self
      have hd : Distinct ((d ++ [m]) ++ e) := by simpa using h
      rw [update, List.foldl_cons, ← update, set_of_not_has hm, ih hd, List.append_assoc]
      rfl

theorem update_nil_of_distinct {e : List (K × V)} (h : Distinct e) : update [] e = e :=
  update_append_of_distinct h

theorem length_set (d : List (K × V)) (k : K) (v : V) :
    (set d k v).length = if has d k = true then d.length else d.length + 1 := by
  induction d with
  | nil => rfl
  | cons m d ih =>
      rw [set, has, get_cons]
      split
      · rfl
      · rw [List.length_cons, ih, has]
        split <;> rfl

theorem distinct_set {d : List (K × V)} (h : Distinct d) (k : K) (v : V) :
    Distinct (set d k v) := by
  induction d with
  | nil => simp [set, Distinct]
  | cons m d ih =>
      obtain ⟨hm, hd⟩ := List.pairwise_cons.mp h
      rw [set]
      split
      · exact List.pairwise_cons.mpr ⟨hm, hd⟩
      · rename_i hk
        refine List.pairwise_cons.mpr ⟨?_, ih hd⟩
        intro n hn
        rcases mem_set hn with hn | ⟨-, hn | ⟨w, hw⟩⟩
        · exact hm n hn
        · rw [hn]
          simpa using hk
        · exact hm (n.1, w) hw

theorem distinct_update {d : List (K × V)} (h : Distinct d) (e : List (K × V)) :
    Distinct (update d e) := by
  induction e generalizing d with
  | nil => exact h
  | cons m e ih => exact ih (distinct_set h m.1 m.2)

end Dict

end Python
