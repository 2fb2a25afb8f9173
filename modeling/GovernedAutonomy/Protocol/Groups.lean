import GovernedAutonomy.Python.Dict
import Mathlib.Algebra.Order.Group.Int
import Mathlib.Data.Finset.Card
import Mathlib.Data.List.Induction
import Mathlib.Data.List.Sort

namespace Protocol

open Python Keyed

namespace Groups

variable {K A : Type} [Keyed K] (f : A → K)

-- one group for each key, in the order in which the keys first occur
def groupBy (xs : List A) : List (K × List A) :=
  xs.foldl (fun groups x => Dict.set groups (f x) ((Dict.get groups (f x)).getD [] ++ [x])) []

def members (xs : List A) (k : K) : List A := xs.filter (fun x => same (f x) k)

theorem groupBy_snoc (xs : List A) (x : A) :
    groupBy f (xs ++ [x]) =
      Dict.set (groupBy f xs) (f x) ((Dict.get (groupBy f xs) (f x)).getD [] ++ [x]) := by
  simp [groupBy]

theorem members_snoc (xs : List A) (x : A) (k : K) :
    members f (xs ++ [x]) k = members f xs k ++ if same (f x) k then [x] else [] := by
  rw [members, members, List.filter_append]
  congr 1
  cases h : same (f x) k <;> simp [h]

theorem getD_groupBy (xs : List A) (k : K) :
    (Dict.get (groupBy f xs) k).getD [] = members f xs k := by
  induction xs using List.reverseRecOn with
  | nil => rfl
  | append_singleton xs x ih =>
      rw [groupBy_snoc, members_snoc, Dict.get_set]
      split
      · rename_i hk
        rw [Option.getD_some, Dict.get_congr _ hk, ih]
      · rw [ih, List.append_nil]

theorem distinct_groupBy (xs : List A) : Dict.Distinct (groupBy f xs) := by
  induction xs using List.reverseRecOn with
  | nil => exact List.Pairwise.nil
  | append_singleton xs x ih =>
      rw [groupBy_snoc]
      exact Dict.distinct_set ih _ _

theorem get_groupBy_ne_nil {xs : List A} {k : K} {group : List A}
    (h : Dict.get (groupBy f xs) k = some group) : group ≠ [] := by
  induction xs using List.reverseRecOn with
  | nil => cases h
  | append_singleton xs x ih =>
      rw [groupBy_snoc, Dict.get_set] at h
      split at h
      · obtain rfl := Option.some.inj h
        exact List.append_ne_nil_of_right_ne_nil _ (List.cons_ne_nil x [])
      · exact ih h

variable {f}

theorem mem_groupBy {xs : List A} {group : K × List A} (h : group ∈ groupBy f xs)
    (hk : same group.1 group.1 = true) : group.2 = members f xs group.1 ∧ group.2 ≠ [] := by
  have hget : Dict.get (groupBy f xs) group.1 = some group.2 :=
    Dict.get_of_mem (distinct_groupBy f xs) h hk
  have hgetD := getD_groupBy f xs group.1
  rw [hget, Option.getD_some] at hgetD
  exact ⟨hgetD, get_groupBy_ne_nil f hget⟩

theorem exists_group {xs : List A} {x : A} (h : x ∈ xs) (hk : same (f x) (f x) = true) :
    ∃ group ∈ groupBy f xs, same group.1 (f x) = true := by
  have hmem : x ∈ members f xs (f x) := List.mem_filter.mpr ⟨h, hk⟩
  rw [← getD_groupBy] at hmem
  cases hget : Dict.get (groupBy f xs) (f x) with
  | none =>
      rw [hget] at hmem
      cases hmem
  | some group =>
      obtain ⟨k, hgroup, hsame⟩ := Dict.get_eq_some hget
      exact ⟨(k, group), hgroup, hsame⟩

end Groups

section Ordering

variable {A B : Type} [LinearOrder B] {r : A → A → Prop} [DecidableRel r] (key : A → B)

-- what stands first after sorting by a key has the least key
theorem head?_insertionSort (hr : ∀ a b, r a b ↔ key a ≤ key b) {xs : List A} {a : A}
    (h : (xs.insertionSort r).head? = some a) : a ∈ xs ∧ ∀ b ∈ xs, key a ≤ key b := by
  have htotal : Std.Total r := ⟨fun a b => by rw [hr, hr]; exact le_total _ _⟩
  have htrans : IsTrans A r := ⟨fun a b c hab hbc => by
    rw [hr] at hab hbc ⊢
    exact le_trans hab hbc⟩
  obtain ⟨rest, hsorted⟩ := List.head?_eq_some_iff.mp h
  have hpairwise := List.pairwise_insertionSort r xs
  rw [hsorted] at hpairwise
  refine ⟨(List.mem_insertionSort r).mp (hsorted ▸ List.mem_cons_self), ?_⟩
  intro b hb
  have hmem : b ∈ a :: rest := hsorted ▸ (List.mem_insertionSort r).mpr hb
  rcases List.mem_cons.mp hmem with rfl | hmem
  · exact le_rfl
  · exact (hr a b).mp ((List.pairwise_cons.mp hpairwise).1 b hmem)

theorem head?_insertionSort_isSome {xs : List A} (h : xs ≠ []) :
    ∃ a, (xs.insertionSort r).head? = some a := by
  cases hsorted : xs.insertionSort r with
  | nil =>
      have hlength := List.length_insertionSort r xs
      rw [hsorted] at hlength
      exact absurd (List.length_eq_zero_iff.mp hlength.symm) h
  | cons a rest => exact ⟨a, rfl⟩

-- two lists of the same elements sort to the same list when the keys tell them apart
theorem insertionSort_perm (hr : ∀ a b, r a b ↔ key a ≤ key b) {xs ys : List A}
    (hperm : xs.Perm ys) (hkeys : ∀ a ∈ xs, ∀ b ∈ xs, key a = key b → a = b) :
    xs.insertionSort r = ys.insertionSort r := by
  have htotal : Std.Total r := ⟨fun a b => by rw [hr, hr]; exact le_total _ _⟩
  have htrans : IsTrans A r := ⟨fun a b c hab hbc => by
    rw [hr] at hab hbc ⊢
    exact le_trans hab hbc⟩
  have hsorted : (xs.insertionSort r).Perm (ys.insertionSort r) :=
    (List.perm_insertionSort r xs).trans (hperm.trans (List.perm_insertionSort r ys).symm)
  refine hsorted.eq_of_pairwise ?_ (List.pairwise_insertionSort r xs)
    (List.pairwise_insertionSort r ys)
  intro a b ha hb hab hba
  have ha := (List.mem_insertionSort r).mp ha
  have hb := hperm.mem_iff.mpr ((List.mem_insertionSort r).mp hb)
  exact hkeys a ha b hb (le_antisymm ((hr a b).mp hab) ((hr b a).mp hba))

end Ordering

theorem one_lt_length_dedup {A : Type} [DecidableEq A] {xs : List A} :
    1 < xs.dedup.length ↔ ∃ a ∈ xs, ∃ b ∈ xs, a ≠ b := by
  rw [← List.card_toFinset, Finset.one_lt_card]
  simp only [List.mem_toFinset]

section Greatest

variable {A : Type} (f : A → ℤ)

theorem foldl_max_le {xs : List A} {start bound : ℤ} :
    xs.foldl (fun top x => max top (f x)) start ≤ bound ↔
      start ≤ bound ∧ ∀ x ∈ xs, f x ≤ bound := by
  induction xs generalizing start with
  | nil => simp
  | cons x xs ih => simp [ih, and_assoc]

theorem le_foldl_max {xs : List A} {start : ℤ} {x : A} (hx : x ∈ xs) :
    f x ≤ xs.foldl (fun top x => max top (f x)) start :=
  ((foldl_max_le f).mp le_rfl).2 x hx

theorem foldl_max_mem {xs : List A} (start : ℤ) (hne : xs ≠ []) (hstart : ∀ x ∈ xs, start ≤ f x) :
    ∃ x ∈ xs, f x = xs.foldl (fun top x => max top (f x)) start := by
  induction xs using List.reverseRecOn with
  | nil => exact absurd rfl hne
  | append_singleton xs x ih =>
      rw [List.foldl_append, List.foldl_cons, List.foldl_nil]
      rcases le_total (xs.foldl (fun top x => max top (f x)) start) (f x) with hle | hle
      · exact ⟨x, by simp, (max_eq_right hle).symm⟩
      · rw [max_eq_left hle]
        by_cases hxs : xs = []
        · subst hxs
          exact ⟨x, by simp, le_antisymm hle (hstart x (by simp))⟩
        · obtain ⟨y, hy, hfy⟩ := ih hxs (fun y hy => hstart y (List.mem_append_left _ hy))
          exact ⟨y, List.mem_append_left _ hy, hfy⟩

end Greatest

end Protocol
