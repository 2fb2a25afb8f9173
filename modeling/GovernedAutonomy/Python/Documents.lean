import GovernedAutonomy.Python.Dumps
import GovernedAutonomy.Python.RoundTrip

namespace Python

namespace Json

section Induction

set_option linter.unusedSectionVars false

variable {P : Json → Prop} (null : P .null) (bool : ∀ b, P (.bool b)) (int : ∀ i, P (.int i))
  (float : ∀ f, P (.float f)) (str : ∀ s, P (.str s))
  (arr : ∀ xs, (∀ x ∈ xs, P x) → P (.arr xs)) (obj : ∀ ms, (∀ m ∈ ms, P m.2) → P (.obj ms))

include null bool int float str arr obj

mutual
theorem induct : ∀ t : Json, P t
  | .null => null
  | .bool b => bool b
  | .int i => int i
  | .float f => float f
  | .str s => str s
  | .arr xs => arr xs (induct_items xs)
  | .obj ms => obj ms (induct_members ms)

theorem induct_items : ∀ xs : List Json, ∀ x ∈ xs, P x
  | [], x, hx => by cases hx
  | y :: ys, x, hx => by
      rcases List.mem_cons.mp hx with h | h
      · exact h ▸ induct y
      · exact induct_items ys x h

theorem induct_members : ∀ ms : List (Str × Json), ∀ m ∈ ms, P m.2
  | [], m, hm => by cases hm
  | (k, v) :: ms, m, hm => by
      rcases List.mem_cons.mp hm with h | h
      · exact h ▸ induct v
      · exact induct_members ms m h
end

end Induction

mutual
def Ascending : Json → Prop
  | .arr xs => AscendingItems xs
  | .obj ms => ms.Pairwise (fun a b => a.1 < b.1) ∧ AscendingMembers ms
  | _ => True

def AscendingItems : List Json → Prop
  | [] => True
  | x :: xs => Ascending x ∧ AscendingItems xs

def AscendingMembers : List (Str × Json) → Prop
  | [] => True
  | (_, v) :: ms => Ascending v ∧ AscendingMembers ms
end

mutual
def decideAscending : (t : Json) → Decidable t.Ascending
  | .null => .isTrue trivial
  | .bool _ => .isTrue trivial
  | .int _ => .isTrue trivial
  | .float _ => .isTrue trivial
  | .str _ => .isTrue trivial
  | .arr xs => decideAscendingItems xs
  | .obj ms => @instDecidableAnd _ _ inferInstance (decideAscendingMembers ms)

def decideAscendingItems : (xs : List Json) → Decidable (AscendingItems xs)
  | [] => .isTrue trivial
  | x :: xs => @instDecidableAnd _ _ (decideAscending x) (decideAscendingItems xs)

def decideAscendingMembers : (ms : List (Str × Json)) → Decidable (AscendingMembers ms)
  | [] => .isTrue trivial
  | (_, v) :: ms => @instDecidableAnd _ _ (decideAscending v) (decideAscendingMembers ms)
end

instance (t : Json) : Decidable t.Ascending := decideAscending t

theorem ascendingItems_iff {xs : List Json} : AscendingItems xs ↔ ∀ x ∈ xs, x.Ascending := by
  induction xs with
  | nil => simp [AscendingItems]
  | cons x xs ih => simp [AscendingItems, ih]

theorem ascendingMembers_iff {ms : List (Str × Json)} :
    AscendingMembers ms ↔ ∀ m ∈ ms, m.2.Ascending := by
  induction ms with
  | nil => simp [AscendingMembers]
  | cons m ms ih => simp [AscendingMembers, ih]

theorem readableItems_iff {ascii : Bool} {depth : Nat} {xs : List Json} :
    ReadableItems ascii depth xs ↔ ∀ x ∈ xs, x.Readable ascii depth := by
  induction xs with
  | nil => simp [ReadableItems]
  | cons x xs ih => simp [ReadableItems, ih]

theorem readableMembers_iff {ascii : Bool} {depth : Nat} {ms : List (Str × Json)} :
    ReadableMembers ascii depth ms ↔
      ∀ m ∈ ms, Joinable ascii m.1 ∧ m.2.Readable ascii depth := by
  induction ms with
  | nil => simp [ReadableMembers]
  | cons m ms ih => simp [ReadableMembers, ih, and_assoc]

end Json

namespace PyVal

section Induction

set_option linter.unusedSectionVars false

variable {P : PyVal → Prop} (none : P .none) (bool : ∀ b, P (.bool b)) (int : ∀ i, P (.int i))
  (float : ∀ f, P (.float f)) (str : ∀ s, P (.str s))
  (list : ∀ xs, (∀ x ∈ xs, P x) → P (.list xs)) (tuple : ∀ xs, (∀ x ∈ xs, P x) → P (.tuple xs))
  (dict : ∀ ms, (∀ m ∈ ms, P m.2) → P (.dict ms)) (object : ∀ id, P (.object id))
  (cycle : P .cycle)

include none bool int float str list tuple dict object cycle

mutual
theorem induct : ∀ v : PyVal, P v
  | .none => none
  | .bool b => bool b
  | .int i => int i
  | .float f => float f
  | .str s => str s
  | .list xs => list xs (induct_items xs)
  | .tuple xs => tuple xs (induct_items xs)
  | .dict ms => dict ms (induct_members ms)
  | .object id => object id
  | .cycle => cycle

theorem induct_items : ∀ xs : List PyVal, ∀ x ∈ xs, P x
  | [], x, hx => by cases hx
  | y :: ys, x, hx => by
      rcases List.mem_cons.mp hx with h | h
      · exact h ▸ induct y
      · exact induct_items ys x h

theorem induct_members : ∀ ms : List (PyKey × PyVal), ∀ m ∈ ms, P m.2
  | [], m, hm => by cases hm
  | (k, v) :: ms, m, hm => by
      rcases List.mem_cons.mp hm with h | h
      · exact h ▸ induct v
      · exact induct_members ms m h
end

end Induction

mutual
def StrKeyed : PyVal → Prop
  | .list xs => StrKeyedItems xs
  | .tuple xs => StrKeyedItems xs
  | .dict ms =>
      (∀ m ∈ ms, m.1.isStr = true) ∧ Dict.Distinct ms ∧ StrKeyedMembers ms
  | _ => True

def StrKeyedItems : List PyVal → Prop
  | [] => True
  | x :: xs => StrKeyed x ∧ StrKeyedItems xs

def StrKeyedMembers : List (PyKey × PyVal) → Prop
  | [] => True
  | (_, v) :: ms => StrKeyed v ∧ StrKeyedMembers ms
end

theorem strKeyedItems_iff {xs : List PyVal} : StrKeyedItems xs ↔ ∀ x ∈ xs, x.StrKeyed := by
  induction xs with
  | nil => simp [StrKeyedItems]
  | cons x xs ih => simp [StrKeyedItems, ih]

theorem strKeyedMembers_iff {ms : List (PyKey × PyVal)} :
    StrKeyedMembers ms ↔ ∀ m ∈ ms, m.2.StrKeyed := by
  induction ms with
  | nil => simp [StrKeyedMembers]
  | cons m ms ih => simp [StrKeyedMembers, ih]

theorem toTreeEntries_eq_map (depth : Nat) (ms : List (PyKey × PyVal)) :
    toTreeEntries depth ms = ms.map (fun m => (m.1, m.2.toTree depth)) := by
  induction ms with
  | nil => rfl
  | cons m ms ih => simp [toTreeEntries, ih]

theorem ofTreeMembers_eq_map (ms : List (Str × Json)) :
    ofTreeMembers ms = ms.map (fun m => (.str m.1, ofTree m.2)) := by
  induction ms with
  | nil => rfl
  | cons m ms ih => simp [ofTreeMembers, ih]

end PyVal

section Sorting

variable {α : Type}

theorem sortEntries_perm {es fs : List (PyKey × α)} (h : sortEntries es = .ok fs) :
    fs.Perm es := by
  unfold sortEntries at h
  split at h
  · obtain rfl := Except.ok.inj h
    exact List.perm_insertionSort keyLe es
  · cases h

theorem sortEntries_of_pairwise {es : List (PyKey × α)} (hs : ∀ e ∈ es, e.1.isStr = true)
    (h : es.Pairwise keyLe) : sortEntries es = .ok es := by
  rw [sortEntries, if_pos (Or.inr (Or.inl (List.all_eq_true.mpr hs))), h.insertionSort_eq]

theorem exists_str_entries {es : List (PyKey × α)} (h : ∀ e ∈ es, e.1.isStr = true) :
    ∃ ss : List (Str × α), es = ss.map (fun s => (.str s.1, s.2)) := by
  induction es with
  | nil => exact ⟨[], rfl⟩
  | cons e es ih =>
      obtain ⟨ss, rfl⟩ := ih (fun e' he => h e' (List.mem_cons_of_mem _ he))
      obtain ⟨k, a⟩ := e
      cases k with
      | str s => exact ⟨(s, a) :: ss, rfl⟩
      | _ => exact absurd (h _ List.mem_cons_self) (by simp [PyKey.isStr])

theorem keyLe_str {s t : Str} {a b : α} : keyLe (.str s, a) (.str t, b) ↔ s ≤ t := by
  simp [keyLe, PyKey.lt]

theorem sortEntries_str_pairwise {es fs : List (PyKey × α)} (hs : ∀ e ∈ es, e.1.isStr = true)
    (h : sortEntries es = .ok fs) : fs.Pairwise keyLe := by
  obtain ⟨ss, rfl⟩ := exists_str_entries hs
  rw [sortEntries, if_pos (Or.inr (Or.inl (List.all_eq_true.mpr hs)))] at h
  obtain rfl := Except.ok.inj h
  rw [← List.map_insertionSort (r := fun a b : Str × α => a.1 ≤ b.1)]
  · rw [List.pairwise_map]
    have : IsTrans (Str × α) (fun a b => a.1 ≤ b.1) := ⟨fun _ _ _ h h' => le_trans h h'⟩
    have : Std.Total (fun a b : Str × α => a.1 ≤ b.1) := ⟨fun a b => le_total a.1 b.1⟩
    refine (List.pairwise_insertionSort (fun a b : Str × α => a.1 ≤ b.1) ss).imp ?_
    intro a b hab
    exact keyLe_str.mpr hab
  · intro a _ b _
    exact keyLe_str.symm

theorem collect_keys {es : List (PyKey × Result α)} {js : List (Str × α)}
    (hs : ∀ e ∈ es, e.1.isStr = true) (h : collect es = .ok js) :
    js.map (fun j => (PyKey.str j.1, (Except.ok j.2 : Result α))) = es := by
  induction es generalizing js with
  | nil =>
      obtain rfl := Except.ok.inj h
      rfl
  | cons e es ih =>
      obtain ⟨k, r⟩ := e
      simp only [collect, bind_eq_ok] at h
      obtain ⟨t, ht, j, hj, rest, hrest, h⟩ := h
      obtain rfl := Except.ok.inj h
      cases k with
      | str s =>
          obtain rfl := Except.ok.inj ht
          rw [List.map_cons, ih (fun e he => hs e (List.mem_cons_of_mem _ he)) hrest, ← hj]
      | _ => exact absurd (hs _ List.mem_cons_self) (by simp [PyKey.isStr])

theorem collect_mem {es : List (PyKey × Result α)} {js : List (Str × α)}
    (h : collect es = .ok js) : ∀ j ∈ js, ∃ k, (k, .ok j.2) ∈ es ∧ k.text = .ok j.1 := by
  induction es generalizing js with
  | nil =>
      obtain rfl := Except.ok.inj h
      simp
  | cons e es ih =>
      obtain ⟨k, r⟩ := e
      simp only [collect, bind_eq_ok] at h
      obtain ⟨t, ht, j, rfl, rest, hrest, h⟩ := h
      obtain rfl := Except.ok.inj h
      intro i hi
      rcases List.mem_cons.mp hi with rfl | hi
      · exact ⟨k, List.mem_cons_self, ht⟩
      · obtain ⟨k', hmem, hk⟩ := ih hrest i hi
        exact ⟨k', List.mem_cons_of_mem _ hmem, hk⟩

theorem collect_mem_of_entry {es : List (PyKey × Result α)} {js : List (Str × α)} {k : PyKey}
    {r : Result α} {s : Str} {j : α} (h : collect es = .ok js) (hmem : (k, r) ∈ es)
    (hs : k.text = .ok s) (hj : r = .ok j) : (s, j) ∈ js := by
  induction es generalizing js with
  | nil => cases hmem
  | cons e es ih =>
      obtain ⟨k', r'⟩ := e
      simp only [collect, bind_eq_ok] at h
      obtain ⟨t, ht, i, hi, rest, hrest, h⟩ := h
      obtain rfl := Except.ok.inj h
      rcases List.mem_cons.mp hmem with heq | hmem
      · obtain ⟨rfl, rfl⟩ := Prod.mk.inj heq
        rw [hs] at ht
        rw [hj] at hi
        obtain rfl := Except.ok.inj ht
        obtain rfl := Except.ok.inj hi
        exact List.mem_cons_self
      · exact List.mem_cons_of_mem _ (ih hrest hmem)

end Sorting

namespace PyVal

attribute [local simp] toTree toTreeItems ofTree ofTreeItems ofTreeMembers StrKeyed

theorem toTreeItems_mem {depth : Nat} {xs : List PyVal} {js : List Json}
    (h : toTreeItems depth xs = .ok js) : ∀ j ∈ js, ∃ x ∈ xs, x.toTree depth = .ok j := by
  induction xs generalizing js with
  | nil =>
      obtain rfl := Except.ok.inj h
      simp
  | cons x xs ih =>
      simp only [toTreeItems, bind_eq_ok] at h
      obtain ⟨j, hj, rest, hrest, h⟩ := h
      obtain rfl := Except.ok.inj h
      intro i hi
      rcases List.mem_cons.mp hi with rfl | hi
      · exact ⟨x, List.mem_cons_self, hj⟩
      · obtain ⟨y, hy, hyi⟩ := ih hrest i hi
        exact ⟨y, List.mem_cons_of_mem _ hy, hyi⟩

theorem toTree_items (xs : List PyVal) {depth : Nat} {t : Json} {v : PyVal}
    (hv : v = .list xs ∨ v = .tuple xs) (h : v.toTree depth = .ok t) :
    ∃ d js, depth = d + 1 ∧ t = .arr js ∧ toTreeItems d xs = .ok js := by
  rcases hv with rfl | rfl
  all_goals
    cases depth with
    | zero => cases h
    | succ d =>
        simp only [toTree, bind_eq_ok] at h
        obtain ⟨js, hjs, h⟩ := h
        exact ⟨d, js, rfl, (Except.ok.inj h).symm, hjs⟩

theorem toTree_dict {depth : Nat} {ms : List (PyKey × PyVal)} {t : Json}
    (h : (PyVal.dict ms).toTree depth = .ok t) :
    ∃ d es js, depth = d + 1 ∧ t = .obj js ∧
      sortEntries (ms.map (fun m => (m.1, m.2.toTree d))) = .ok es ∧ collect es = .ok js := by
  cases depth with
  | zero => cases h
  | succ d =>
      simp only [toTree, bind_eq_ok, toTreeEntries_eq_map] at h
      obtain ⟨es, hes, js, hjs, h⟩ := h
      exact ⟨d, es, js, rfl, (Except.ok.inj h).symm, hes, hjs⟩

theorem intText_ok {i : ℤ} {s : Str} (h : intText i = .ok s) :
    (digits i.natAbs).length ≤ maxStrDigits := by
  unfold intText at h
  split at h
  · cases h
  · omega

theorem toTree_members {d : Nat} {ms : List (PyKey × PyVal)} {es : List (PyKey × Result Json)}
    {js : List (Str × Json)} (hes : sortEntries (ms.map (fun m => (m.1, m.2.toTree d))) = .ok es)
    (hjs : collect es = .ok js) :
    ∀ j ∈ js, ∃ m ∈ ms, m.2.toTree d = .ok j.2 ∧ m.1.text = .ok j.1 := by
  intro j hj
  obtain ⟨k, hmem, hk⟩ := collect_mem hjs j hj
  obtain ⟨m, hm, heq⟩ := List.mem_map.mp ((sortEntries_perm hes).mem_iff.mp hmem)
  obtain ⟨rfl, h⟩ := Prod.mk.inj heq
  exact ⟨m, hm, h, hk⟩

theorem toTree_readable {v : PyVal} :
    ∀ {depth : Nat} {t : Json}, v.toTree depth = .ok t → t.Readable false depth := by
  induction v using induct with
  | none | bool b | float f =>
      intro depth t h
      obtain rfl := Except.ok.inj (by simpa only [toTree] using h)
      simp [Json.Readable]
  | str s =>
      intro depth t h
      obtain rfl := Except.ok.inj (by simpa only [toTree] using h)
      simp [Json.Readable, Joinable]
  | int i =>
      intro depth t h
      simp only [toTree, bind_eq_ok] at h
      obtain ⟨s, hs, h⟩ := h
      obtain rfl := Except.ok.inj h
      simpa [Json.Readable] using intText_ok hs
  | list xs ih | tuple xs ih =>
      intro depth t h
      obtain ⟨d, js, rfl, rfl, hjs⟩ := toTree_items xs (by simp) h
      rw [Json.Readable, Json.readableItems_iff]
      intro j hj
      obtain ⟨x, hx, hxj⟩ := toTreeItems_mem hjs j hj
      exact ih x hx hxj
  | dict ms ih =>
      intro depth t h
      obtain ⟨d, es, js, rfl, rfl, hes, hjs⟩ := toTree_dict h
      rw [Json.Readable, Json.readableMembers_iff]
      intro j hj
      obtain ⟨m, hm, hmj, -⟩ := toTree_members hes hjs j hj
      exact ⟨by simp [Joinable], ih m hm hmj⟩
  | object id =>
      intro depth t h
      simp at h
  | cycle =>
      intro depth t h
      cases depth <;> simp at h

theorem toTree_ascending {v : PyVal} (hv : v.StrKeyed) :
    ∀ {depth : Nat} {t : Json}, v.toTree depth = .ok t → t.Ascending := by
  induction v using induct with
  | none | bool b | float f | str s =>
      intro depth t h
      obtain rfl := Except.ok.inj (by simpa only [toTree] using h)
      simp [Json.Ascending]
  | int i =>
      intro depth t h
      simp only [toTree, bind_eq_ok] at h
      obtain ⟨s, hs, h⟩ := h
      obtain rfl := Except.ok.inj h
      simp [Json.Ascending]
  | list xs ih | tuple xs ih =>
      intro depth t h
      obtain ⟨d, js, rfl, rfl, hjs⟩ := toTree_items xs (by simp) h
      rw [Json.Ascending, Json.ascendingItems_iff]
      intro j hj
      obtain ⟨x, hx, hxj⟩ := toTreeItems_mem hjs j hj
      exact ih x hx (strKeyedItems_iff.mp hv x hx) hxj
  | dict ms ih =>
      intro depth t h
      obtain ⟨d, es, js, rfl, rfl, hes, hjs⟩ := toTree_dict h
      obtain ⟨hkeys, hdis, hms⟩ := hv
      have hperm := sortEntries_perm hes
      have hstr : ∀ e ∈ es, e.1.isStr = true := by
        intro e he
        obtain ⟨m, hm, rfl⟩ := List.mem_map.mp (hperm.mem_iff.mp he)
        exact hkeys m hm
      have hsorted := sortEntries_str_pairwise
        (fun e he => hstr e (hperm.mem_iff.mpr he)) hes
      have hdistinct : es.Pairwise (fun a b => Keyed.same a.1 b.1 = false) := by
        have hmap : Dict.Distinct (ms.map (fun m => (m.1, m.2.toTree d))) :=
          List.pairwise_map.mpr hdis
        exact hperm.symm.pairwise hmap (fun h => by rwa [same_comm])
      have hkeysOf := collect_keys hstr hjs
      rw [← hkeysOf, List.pairwise_map] at hsorted hdistinct
      refine ⟨?_, Json.ascendingMembers_iff.mpr ?_⟩
      · refine (hsorted.and hdistinct).imp ?_
        rintro a b ⟨hab, hne⟩
        refine lt_of_le_of_ne (keyLe_str.mp hab) ?_
        simpa using hne
      · intro j hj
        obtain ⟨m, hm, hmj, -⟩ := toTree_members hes hjs j hj
        exact ih m hm (strKeyedMembers_iff.mp hms m hm) hmj
  | object id =>
      intro depth t h
      simp at h
  | cycle =>
      intro depth t h
      cases depth <;> simp at h

theorem isStr_ofTreeMembers {ms : List (Str × Json)} :
    ∀ m ∈ ofTreeMembers ms, m.1.isStr = true := by
  intro m hm
  rw [ofTreeMembers_eq_map] at hm
  obtain ⟨n, -, rfl⟩ := List.mem_map.mp hm
  rfl

theorem mem_update {V : Type} {d e : List (PyKey × V)} {m : PyKey × V}
    (h : m ∈ Dict.update d e) :
    (∃ w, (m.1, w) ∈ d ++ e) ∧ ∃ k, (k, m.2) ∈ d ++ e := by
  induction e generalizing d with
  | nil =>
      have h : m ∈ d := h
      exact ⟨⟨m.2, by simpa using h⟩, ⟨m.1, by simpa using h⟩⟩
  | cons n e ih =>
      obtain ⟨⟨w, hw⟩, k, hk⟩ := ih h
      refine ⟨?_, ?_⟩
      · rcases List.mem_append.mp hw with hw | hw
        · rcases Dict.mem_set hw with hw | ⟨-, hw | ⟨w', hw⟩⟩
          · exact ⟨w, List.mem_append_left _ hw⟩
          · exact ⟨n.2, List.mem_append_right _ (by rw [hw]; exact List.mem_cons_self)⟩
          · exact ⟨w', List.mem_append_left _ hw⟩
        · exact ⟨w, List.mem_append_right _ (List.mem_cons_of_mem _ hw)⟩
      · rcases List.mem_append.mp hk with hk | hk
        · rcases Dict.mem_set hk with hk | ⟨hv, -⟩
          · exact ⟨k, List.mem_append_left _ hk⟩
          · exact ⟨n.1, List.mem_append_right _ (by rw [hv]; exact List.mem_cons_self)⟩
        · exact ⟨k, List.mem_append_right _ (List.mem_cons_of_mem _ hk)⟩

theorem ofTree_strKeyed (t : Json) : (ofTree t).StrKeyed := by
  induction t using Json.induct with
  | null | bool b | int i | float f | str s => simp
  | arr xs ih =>
      have hmap : ofTreeItems xs = xs.map ofTree := by
        clear ih
        induction xs with
        | nil => rfl
        | cons x xs ihx => simp [ihx]
      rw [ofTree, StrKeyed, strKeyedItems_iff, hmap]
      intro v hv
      obtain ⟨x, hx, rfl⟩ := List.mem_map.mp hv
      exact ih x hx
  | obj ms ih =>
      rw [ofTree, StrKeyed, strKeyedMembers_iff]
      refine ⟨?_, Dict.distinct_update List.Pairwise.nil _, ?_⟩
      · intro m hm
        obtain ⟨⟨w, hw⟩, -⟩ := mem_update hm
        exact isStr_ofTreeMembers (m.1, w) hw
      · intro m hm
        obtain ⟨-, k, hk⟩ := mem_update hm
        rw [List.nil_append, ofTreeMembers_eq_map] at hk
        obtain ⟨n, hn, heq⟩ := List.mem_map.mp hk
        obtain ⟨-, h⟩ := Prod.mk.inj heq
        rw [← h]
        exact ih n hn

theorem toTreeItems_ofTree {depth : Nat} {xs : List Json}
    (h : ∀ x ∈ xs, (ofTree x).toTree depth = .ok x) :
    toTreeItems depth (ofTreeItems xs) = .ok xs := by
  induction xs with
  | nil => rfl
  | cons x xs ih =>
      rw [ofTreeItems, toTreeItems, h x List.mem_cons_self,
        ih (fun y hy => h y (List.mem_cons_of_mem _ hy))]
      rfl

theorem collect_ofTree {depth : Nat} {ms : List (Str × Json)}
    (h : ∀ m ∈ ms, (ofTree m.2).toTree depth = .ok m.2) :
    collect (toTreeEntries depth (ofTreeMembers ms)) = .ok ms := by
  induction ms with
  | nil => rfl
  | cons m ms ih =>
      obtain ⟨k, v⟩ := m
      rw [ofTreeMembers, toTreeEntries, collect, h (k, v) List.mem_cons_self,
        ih (fun n hn => h n (List.mem_cons_of_mem _ hn))]
      rfl

theorem distinct_ofTreeMembers {ms : List (Str × Json)}
    (h : ms.Pairwise (fun a b => a.1 < b.1)) : Dict.Distinct (ofTreeMembers ms) := by
  rw [ofTreeMembers_eq_map, Dict.Distinct, List.pairwise_map]
  refine h.imp ?_
  intro a b hab
  simpa using ne_of_lt hab

theorem toTree_ofTree {ascii : Bool} {t : Json} :
    ∀ {depth : Nat}, t.Readable ascii depth → t.Ascending → (ofTree t).toTree depth = .ok t := by
  induction t using Json.induct with
  | null | bool b | float f | str s =>
      intros
      simp
  | int i =>
      intro depth hr _
      have hlen : ¬ maxStrDigits < (digits i.natAbs).length := Nat.not_lt.mpr hr
      rw [ofTree, toTree, intText, if_neg hlen]
      rfl
  | arr xs ih =>
      intro depth hr ha
      cases depth with
      | zero => exact absurd hr (by simp [Json.Readable])
      | succ d =>
          have hr := Json.readableItems_iff.mp hr
          have ha := Json.ascendingItems_iff.mp ha
          rw [ofTree, toTree, toTreeItems_ofTree (fun x hx => ih x hx (hr x hx) (ha x hx))]
          rfl
  | obj ms ih =>
      intro depth hr ha
      cases depth with
      | zero => exact absurd hr (by simp [Json.Readable])
      | succ d =>
          have hr := Json.readableMembers_iff.mp hr
          have hms := Json.ascendingMembers_iff.mp ha.2
          have hsorted : (toTreeEntries d (ofTreeMembers ms)).Pairwise keyLe := by
            rw [toTreeEntries_eq_map, ofTreeMembers_eq_map, List.map_map, List.pairwise_map]
            refine ha.1.imp ?_
            intro a b hab
            exact keyLe_str.mpr (le_of_lt hab)
          have hstr : ∀ e ∈ toTreeEntries d (ofTreeMembers ms), e.1.isStr = true := by
            intro e he
            rw [toTreeEntries_eq_map] at he
            obtain ⟨m, hm, rfl⟩ := List.mem_map.mp he
            exact isStr_ofTreeMembers m hm
          rw [ofTree, Dict.update_nil_of_distinct (distinct_ofTreeMembers ha.1), toTree]
          simp only [sortEntries_of_pairwise hstr hsorted, bind, Except.bind,
            collect_ofTree (fun m hm => ih m hm (hr m hm).2 (hms m hm))]

theorem toTree_ofTree_iff {ascii : Bool} {t : Json} {depth : Nat} (hr : t.Readable ascii depth) :
    (ofTree t).toTree depth = .ok t ↔ t.Ascending :=
  ⟨toTree_ascending (ofTree_strKeyed t), toTree_ofTree hr⟩

end PyVal

end Python
