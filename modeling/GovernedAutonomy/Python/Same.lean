import GovernedAutonomy.Python.Documents
import GovernedAutonomy.Python.Encodable

namespace Python

-- two lists that are related member by member are related by a function, where the first has no
-- member twice
theorem exists_map_of_forall₂ {A : Type*} {R : A → A → Prop} (hrefl : ∀ a, R a a) {xs ys : List A}
    (hnodup : xs.Nodup) (h : List.Forall₂ R xs ys) : ∃ g : A → A, ys = xs.map g ∧ ∀ a, R a (g a) := by
  classical
  induction h with
  | nil => exact ⟨id, rfl, hrefl⟩
  | @cons x y xs ys hxy _ ih =>
      obtain ⟨hx, hxs⟩ := List.nodup_cons.mp hnodup
      obtain ⟨g, rfl, hg⟩ := ih hxs
      refine ⟨Function.update g x y, ?_, ?_⟩
      · rw [List.map_cons, Function.update_self]
        congr 1
        refine List.map_congr_left fun a ha => ?_
        rw [Function.update_of_ne]
        rintro rfl
        exact hx ha
      · intro a
        by_cases ha : a = x
        · subst ha
          rw [Function.update_self]
          exact hxy
        · rw [Function.update_of_ne ha]
          exact hg a

theorem forall₂_imp_of_mem {α β : Type} {R S : α → β → Prop} {xs : List α} {ys : List β}
    (h : List.Forall₂ R xs ys) (hsub : ∀ x ∈ xs, ∀ y ∈ ys, R x y → S x y) :
    List.Forall₂ S xs ys := by
  induction h with
  | nil => exact .nil
  | cons hhead _ ih =>
      refine .cons (hsub _ List.mem_cons_self _ List.mem_cons_self hhead) (ih ?_)
      intro x hx y hy
      exact hsub x (List.mem_cons_of_mem _ hx) y (List.mem_cons_of_mem _ hy)

namespace PyVal

mutual
-- what json.loads can return
def IsJson : PyVal → Prop
  | .list xs => IsJsonItems xs
  | .dict ms => (∀ m ∈ ms, m.1.isStr = true) ∧ Dict.Distinct ms ∧ IsJsonMembers ms
  | .tuple _ => False
  | .object _ => False
  | .cycle => False
  | _ => True

def IsJsonItems : List PyVal → Prop
  | [] => True
  | x :: xs => IsJson x ∧ IsJsonItems xs

def IsJsonMembers : List (PyKey × PyVal) → Prop
  | [] => True
  | (_, v) :: ms => IsJson v ∧ IsJsonMembers ms
end

mutual
-- one value, up to the order of the members of its dicts
def Same : PyVal → PyVal → Prop
  | .none, .none => True
  | .bool b, .bool c => b = c
  | .int i, .int j => i = j
  | .float f, .float g => f = g
  | .str s, .str t => s = t
  | .list xs, .list ys => SameItems xs ys
  | .dict ms, .dict ns => SameMembers ms ns ∧ ∀ n ∈ ns, Dict.has ms n.1 = true
  | _, _ => False

def SameItems : List PyVal → List PyVal → Prop
  | [], [] => True
  | x :: xs, y :: ys => Same x y ∧ SameItems xs ys
  | _, _ => False

def SameMembers : List (PyKey × PyVal) → List (PyKey × PyVal) → Prop
  | [], _ => True
  | (k, v) :: ms, ns => (∃ w, Dict.get ns k = some w ∧ Same v w) ∧ SameMembers ms ns
end

theorem isJsonItems_iff {xs : List PyVal} : IsJsonItems xs ↔ ∀ x ∈ xs, x.IsJson := by
  induction xs with
  | nil => exact iff_of_true trivial (List.forall_mem_nil _)
  | cons x xs ih =>
      rw [List.forall_mem_cons, ← ih]
      rfl

theorem isJsonMembers_iff {ms : List (PyKey × PyVal)} :
    IsJsonMembers ms ↔ ∀ m ∈ ms, m.2.IsJson := by
  induction ms with
  | nil => exact iff_of_true trivial (List.forall_mem_nil _)
  | cons m ms ih =>
      rw [List.forall_mem_cons, ← ih]
      rfl

theorem sameItems_iff {xs ys : List PyVal} : SameItems xs ys ↔ List.Forall₂ Same xs ys := by
  induction xs generalizing ys with
  | nil =>
      cases ys with
      | nil => exact iff_of_true trivial .nil
      | cons y ys => exact iff_of_false id nofun
  | cons x xs ih =>
      cases ys with
      | nil => exact iff_of_false id nofun
      | cons y ys =>
          rw [List.forall₂_cons, ← ih]
          rfl

theorem sameMembers_iff {ms ns : List (PyKey × PyVal)} :
    SameMembers ms ns ↔ ∀ m ∈ ms, ∃ w, Dict.get ns m.1 = some w ∧ Same m.2 w := by
  induction ms with
  | nil => exact iff_of_true trivial (List.forall_mem_nil _)
  | cons m ms ih =>
      rw [List.forall_mem_cons, ← ih]
      rfl

theorem IsJson.strKeyed {v : PyVal} (h : v.IsJson) : v.StrKeyed := by
  induction v using PyVal.induct with
  | none | bool b | int i | float f | str s => simp [StrKeyed]
  | tuple xs ih => cases h
  | object id => cases h
  | cycle => cases h
  | list xs ih =>
      have hxs := isJsonItems_iff.mp h
      exact strKeyedItems_iff.mpr (fun x hx => ih x hx (hxs x hx))
  | dict ms ih =>
      obtain ⟨hkeys, hdistinct, hms⟩ := h
      have hms := isJsonMembers_iff.mp hms
      exact ⟨hkeys, hdistinct, strKeyedMembers_iff.mpr (fun m hm => ih m hm (hms m hm))⟩

theorem ofTree_isJson (t : Json) : (ofTree t).IsJson := by
  induction t using Json.induct with
  | null | bool b | int i | float f | str s => simp [ofTree, IsJson]
  | arr xs ih =>
      have hmap : ofTreeItems xs = xs.map ofTree := by
        clear ih
        induction xs with
        | nil => rfl
        | cons x xs ihx => simp [ofTreeItems, ihx]
      rw [ofTree, IsJson, isJsonItems_iff, hmap]
      intro v hv
      obtain ⟨x, hx, rfl⟩ := List.mem_map.mp hv
      exact ih x hx
  | obj ms ih =>
      obtain ⟨hkeys, hdistinct, -⟩ := ofTree_strKeyed (.obj ms)
      refine ⟨hkeys, hdistinct, isJsonMembers_iff.mpr ?_⟩
      intro m hm
      obtain ⟨-, k, hk⟩ := mem_update hm
      rw [List.nil_append, ofTreeMembers_eq_map] at hk
      obtain ⟨n, hn, heq⟩ := List.mem_map.mp hk
      rw [← (Prod.mk.inj heq).2]
      exact ih n hn

theorem forall₂_same_of_toTree {depth : Nat} {xs ys : List PyVal} {js : List Json}
    (ih : ∀ x ∈ xs, ∀ y ∈ ys, ∀ {t}, x.toTree depth = .ok t → y.toTree depth = .ok t → Same x y)
    (hx : toTreeItems depth xs = .ok js) (hy : toTreeItems depth ys = .ok js) :
    List.Forall₂ Same xs ys := by
  induction xs generalizing ys js with
  | nil =>
      obtain rfl := Except.ok.inj hx
      cases ys with
      | nil => exact .nil
      | cons y ys =>
          simp only [toTreeItems, bind_eq_ok] at hy
          obtain ⟨j, -, rest, -, hy⟩ := hy
          cases hy
  | cons x xs ihxs =>
      simp only [toTreeItems, bind_eq_ok] at hx
      obtain ⟨j, hj, rest, hrest, hx⟩ := hx
      obtain rfl := Except.ok.inj hx
      cases ys with
      | nil => cases hy
      | cons y ys =>
          simp only [toTreeItems, bind_eq_ok] at hy
          obtain ⟨j', hj', rest', hrest', hy⟩ := hy
          obtain ⟨rfl, rfl⟩ := List.cons.inj (Except.ok.inj hy)
          refine .cons (ih x List.mem_cons_self y List.mem_cons_self hj hj') (ihxs ?_ hrest hrest')
          intro a ha b hb
          exact ih a (List.mem_cons_of_mem _ ha) b (List.mem_cons_of_mem _ hb)

theorem exists_str {k : PyKey} (h : k.isStr = true) : ∃ s, k = .str s := by
  cases k with
  | str s => exact ⟨s, rfl⟩
  | _ => cases h

theorem toTree_eq_arr {depth : Nat} {w : PyVal} {js : List Json} (hw : w.IsJson)
    (h : w.toTree depth = .ok (.arr js)) : ∃ ys, w = .list ys := by
  cases w with
  | list ys => exact ⟨ys, rfl⟩
  | tuple xs | object id | cycle => cases hw
  | dict ms =>
      obtain ⟨-, -, js', -, h, -, -⟩ := toTree_dict h
      cases h
  | none | bool b | float f | str s => cases (Except.ok.inj (by simpa only [toTree] using h))
  | int i =>
      simp only [toTree, bind_eq_ok] at h
      obtain ⟨s, -, h⟩ := h
      cases h

theorem toTree_eq_obj {depth : Nat} {w : PyVal} {js : List (Str × Json)} (hw : w.IsJson)
    (h : w.toTree depth = .ok (.obj js)) : ∃ ns, w = .dict ns := by
  cases w with
  | dict ns => exact ⟨ns, rfl⟩
  | tuple xs | object id | cycle => cases hw
  | list xs =>
      obtain ⟨-, js', -, h, -⟩ := toTree_items xs (by simp) h
      cases h
  | none | bool b | float f | str s => cases (Except.ok.inj (by simpa only [toTree] using h))
  | int i =>
      simp only [toTree, bind_eq_ok] at h
      obtain ⟨s, -, h⟩ := h
      cases h

theorem same_of_scalar {depth : Nat} {v w : PyVal} (hw : w.IsJson) {t : Json}
    (hv : (v = .none ∧ t = .null) ∨ (∃ b, v = .bool b ∧ t = .bool b) ∨
      (∃ i, v = .int i ∧ t = .int i) ∨ (∃ f, v = .float f ∧ t = .float f) ∨
        ∃ s, v = .str s ∧ t = .str s)
    (h : w.toTree depth = .ok t) : Same v w := by
  cases w with
  | tuple xs | object id | cycle => cases hw
  | list xs =>
      obtain ⟨-, js, -, rfl, -⟩ := toTree_items xs (by simp) h
      simp at hv
  | dict ms =>
      obtain ⟨-, -, js, -, rfl, -, -⟩ := toTree_dict h
      simp at hv
  | none | bool b | float f | str s =>
      obtain rfl := Except.ok.inj (by simpa only [toTree] using h)
      simp at hv
      subst hv
      simp [Same]
  | int i =>
      simp only [toTree, bind_eq_ok] at h
      obtain ⟨s, -, h⟩ := h
      obtain rfl := Except.ok.inj h
      simp at hv
      subst hv
      simp [Same]

theorem Same.of_toTree {v : PyVal} : ∀ {depth : Nat} {t : Json} {w : PyVal}, v.IsJson → w.IsJson →
    v.toTree depth = .ok t → w.toTree depth = .ok t → Same v w := by
  induction v using PyVal.induct with
  | none | bool b | float f | str s =>
      intro depth t w _ hw hv h
      obtain rfl := Except.ok.inj (by simpa only [toTree] using hv)
      exact same_of_scalar hw (by simp) h
  | int i =>
      intro depth t w _ hw hv h
      simp only [toTree, bind_eq_ok] at hv
      obtain ⟨s, hs, hv⟩ := hv
      obtain rfl := Except.ok.inj hv
      exact same_of_scalar hw (by simp) h
  | tuple xs ih =>
      intro depth t w hv
      cases hv
  | object id =>
      intro depth t w hv
      cases hv
  | cycle =>
      intro depth t w hv
      cases hv
  | list xs ih =>
      intro depth t w hjson hw hv h
      obtain ⟨d, js, rfl, rfl, hxs⟩ := toTree_items xs (by simp) hv
      obtain ⟨ys, rfl⟩ := toTree_eq_arr hw h
      obtain ⟨d', js', hd, hjs, hys⟩ := toTree_items ys (by simp) h
      obtain rfl := Nat.succ.inj hd
      obtain rfl := Json.arr.inj hjs
      have hxj := isJsonItems_iff.mp hjson
      have hyj := isJsonItems_iff.mp hw
      rw [Same, sameItems_iff]
      refine forall₂_same_of_toTree ?_ hxs hys
      intro x hx y hy t htx hty
      exact ih x hx (hxj x hx) (hyj y hy) htx hty
  | dict ms ih =>
      intro depth t w hjson hw hv h
      obtain ⟨d, es, js, rfl, rfl, -, -⟩ := toTree_dict hv
      obtain ⟨ns, rfl⟩ := toTree_eq_obj hw h
      obtain ⟨hkeys, hdistinct, hms⟩ := hjson
      obtain ⟨hkeys', hdistinct', hns⟩ := hw
      have hms := isJsonMembers_iff.mp hms
      have hns := isJsonMembers_iff.mp hns
      rw [Same, sameMembers_iff]
      constructor
      · rintro ⟨k, x⟩ hm
        obtain ⟨s, rfl⟩ := exists_str (hkeys _ hm)
        obtain ⟨y, j, hy, hxj, hyj⟩ := mem_of_same_tree hkeys hkeys' hv h hm
        refine ⟨y, Dict.get_of_mem hdistinct' hy (by simp), ?_⟩
        exact ih _ hm (hms _ hm) (hns _ hy) hxj hyj
      · rintro ⟨k, y⟩ hn
        obtain ⟨s, rfl⟩ := exists_str (hkeys' _ hn)
        obtain ⟨x, -, hx, -, -⟩ := mem_of_same_tree hkeys' hkeys h hv hn
        rw [Dict.has, Dict.get_of_mem hdistinct hx (by simp)]
        rfl

theorem Same.toTreeItems {depth : Nat} {xs ys : List PyVal} {js : List Json}
    (ih : ∀ x ∈ xs, ∀ y, Same x y → y ∈ ys → ∀ {t}, x.toTree depth = .ok t →
      y.toTree depth = .ok t)
    (hsame : List.Forall₂ Same xs ys) (hx : PyVal.toTreeItems depth xs = .ok js) :
    PyVal.toTreeItems depth ys = .ok js := by
  induction hsame generalizing js with
  | nil => exact hx
  | @cons x y xs ys hxy _ ihxs =>
      simp only [PyVal.toTreeItems, bind_eq_ok] at hx ⊢
      obtain ⟨j, hj, rest, hrest, hx⟩ := hx
      refine ⟨j, ih x List.mem_cons_self y hxy List.mem_cons_self hj, rest, ihxs ?_ hrest, hx⟩
      intro a ha b hab hb
      exact ih a (List.mem_cons_of_mem _ ha) b hab (List.mem_cons_of_mem _ hb)

theorem members_eq_of_mem_iff {js ks : List (Str × Json)}
    (hj : js.Pairwise (fun a b => a.1 < b.1)) (hk : ks.Pairwise (fun a b => a.1 < b.1))
    (h : ∀ m, m ∈ js ↔ m ∈ ks) : js = ks := by
  have hnodup : ∀ {l : List (Str × Json)}, l.Pairwise (fun a b => a.1 < b.1) → l.Nodup := by
    intro l hl
    refine hl.imp ?_
    rintro a b hab rfl
    exact lt_irrefl _ hab
  have hperm := (List.perm_ext_iff_of_nodup (hnodup hj) (hnodup hk)).mpr h
  refine hperm.eq_of_pairwise ?_ hj hk
  intro a b _ _ hab hba
  exact absurd hab (lt_asymm hba)

theorem SameMembers.forth {ms ns : List (PyKey × PyVal)} (h : SameMembers ms ns) {s : Str}
    {x : PyVal} (hx : (.str s, x) ∈ ms) : ∃ y, (.str s, y) ∈ ns ∧ Same x y := by
  obtain ⟨y, hy, hxy⟩ := sameMembers_iff.mp h _ hx
  exact ⟨y, mem_of_get_str hy, hxy⟩

theorem SameMembers.back {ms ns : List (PyKey × PyVal)} (h : SameMembers ms ns)
    (hns : Dict.Distinct ns) (hall : ∀ n ∈ ns, Dict.has ms n.1 = true) {s : Str} {y : PyVal}
    (hy : (.str s, y) ∈ ns) : ∃ x, (.str s, x) ∈ ms ∧ Same x y := by
  obtain ⟨x, hx⟩ := Option.isSome_iff_exists.mp (hall _ hy)
  have hm := mem_of_get_str hx
  obtain ⟨y', hy', hxy⟩ := sameMembers_iff.mp h _ hm
  obtain rfl := Option.some.inj ((Dict.get_of_mem hns hy (by simp)).symm.trans hy')
  exact ⟨x, hm, hxy⟩

theorem toTree_dict_isOk {depth : Nat} {ms : List (PyKey × PyVal)}
    (hkeys : ∀ m ∈ ms, m.1.isStr = true) (h : ∀ m ∈ ms, ∃ j, m.2.toTree depth = .ok j) :
    ∃ js, (PyVal.dict ms).toTree (depth + 1) = .ok (.obj js) := by
  have hsort : SortableKeys ((ms.map (fun m => (m.1, m.2.toTree depth))).map Prod.fst) :=
    Or.inr (Or.inl (by simpa using fun k v hm => hkeys (k, v) hm))
  obtain ⟨es, hes⟩ := sortEntries_isOk.mpr hsort
  have hentries : ∀ e ∈ es, (∃ t, e.1.text = .ok t) ∧ ∃ j, e.2 = .ok j := by
    intro e he
    obtain ⟨m, hm, rfl⟩ := List.mem_map.mp ((sortEntries_perm hes).mem_iff.mp he)
    obtain ⟨s, hs⟩ := exists_str (hkeys _ hm)
    exact ⟨⟨s, congrArg PyKey.text hs⟩, h m hm⟩
  obtain ⟨js, hjs⟩ := collect_isOk.mpr hentries
  exact ⟨js, by simp only [PyVal.toTree, toTreeEntries_eq_map, hes, hjs, bind, Except.bind]⟩

theorem exists_toTree_of_mem {depth : Nat} {ms : List (PyKey × PyVal)} {js : List (Str × Json)}
    (h : (PyVal.dict ms).toTree (depth + 1) = .ok (.obj js)) {m : PyKey × PyVal} (hm : m ∈ ms) :
    ∃ j, m.2.toTree depth = .ok j := by
  obtain ⟨d, es, js', hd, -, hes, hjs⟩ := toTree_dict h
  obtain rfl := Nat.succ.inj hd
  have hentry : (m.1, m.2.toTree depth) ∈ es :=
    (sortEntries_perm hes).mem_iff.mpr (List.mem_map.mpr ⟨m, hm, rfl⟩)
  exact (collect_isOk.mp ⟨js', hjs⟩ _ hentry).2

theorem Same.toTree {v : PyVal} : ∀ {depth : Nat} {t : Json} {w : PyVal}, v.IsJson → w.IsJson →
    Same v w → v.toTree depth = .ok t → w.toTree depth = .ok t := by
  induction v using PyVal.induct with
  | none | bool b | float f | str s | int i =>
      intro depth t w _ _ hsame h
      cases w <;> simp_all [Same]
  | tuple xs ih =>
      intro depth t w hv
      cases hv
  | object id =>
      intro depth t w hv
      cases hv
  | cycle =>
      intro depth t w hv
      cases hv
  | list xs ih =>
      intro depth t w hv hw hsame h
      obtain ⟨d, js, rfl, rfl, hxs⟩ := toTree_items xs (by simp) h
      cases w with
      | list ys =>
          have hxj := isJsonItems_iff.mp hv
          have hyj := isJsonItems_iff.mp hw
          have hys : PyVal.toTreeItems d ys = .ok js := by
            refine Same.toTreeItems ?_ (sameItems_iff.mp hsame) hxs
            intro x hx y hxy hy t ht
            exact ih x hx (hxj x hx) (hyj y hy) hxy ht
          simp only [PyVal.toTree, hys]
          rfl
      | _ => cases hsame
  | dict ms ih =>
      intro depth t w hv hw hsame h
      have hasc := toTree_ascending hv.strKeyed h
      obtain ⟨d, es, js, rfl, rfl, hes, hjs⟩ := toTree_dict h
      cases w with
      | dict ns =>
          have hkeys := hv.1
          have hkeys' := hw.1
          have hdistinct' := hw.2.1
          have hms := isJsonMembers_iff.mp hv.2.2
          have hns := isJsonMembers_iff.mp hw.2.2
          obtain ⟨hmembers, hall⟩ := hsame
          have hentry : ∀ {s x y}, (.str s, x) ∈ ms → (.str s, y) ∈ ns → Same x y → ∀ {j},
              x.toTree d = .ok j → y.toTree d = .ok j := by
            intro s x y hm hn hxy j hj
            exact ih _ hm (hms _ hm) (hns _ hn) hxy hj
          have hencodes : ∀ n ∈ ns, ∃ j, n.2.toTree d = .ok j := by
            rintro ⟨k, y⟩ hn
            obtain ⟨s, rfl⟩ := exists_str (hkeys' _ hn)
            obtain ⟨x, hm, hxy⟩ := hmembers.back hdistinct' hall hn
            obtain ⟨j, hj⟩ := exists_toTree_of_mem h hm
            exact ⟨j, hentry hm hn hxy hj⟩
          obtain ⟨js', hjs'⟩ := toTree_dict_isOk hkeys' hencodes
          have hasc' := toTree_ascending hw.strKeyed hjs'
          -- both objects are sorted by their keys, so equal members make them equal
          have hsamejs : js = js' := by
            refine members_eq_of_mem_iff hasc.1 hasc'.1 ?_
            rintro ⟨s, j⟩
            rw [mem_of_toTree_dict hkeys h, mem_of_toTree_dict hkeys' hjs']
            constructor
            · rintro ⟨x, hm, hxj⟩
              obtain ⟨y, hn, hxy⟩ := hmembers.forth hm
              exact ⟨y, hn, hentry hm hn hxy hxj⟩
            · rintro ⟨y, hn, hyj⟩
              obtain ⟨x, hm, hxy⟩ := hmembers.back hdistinct' hall hn
              obtain ⟨i, hi⟩ := exists_toTree_of_mem h hm
              obtain rfl := Except.ok.inj ((hentry hm hn hxy hi).symm.trans hyj)
              exact ⟨x, hm, hi⟩
          rw [hjs', hsamejs]
      | _ => cases hsame

theorem toTreeItems_lower {d e : Nat} {ascii : Bool} {xs : List PyVal} {js : List Json}
    (h : ∀ x ∈ xs, ∀ {j : Json}, x.toTree d = .ok j → j.Readable ascii e → x.toTree e = .ok j)
    (hjs : toTreeItems d xs = .ok js) (hr : ∀ j ∈ js, j.Readable ascii e) :
    toTreeItems e xs = .ok js := by
  induction xs generalizing js with
  | nil => exact hjs
  | cons x xs ih =>
      simp only [toTreeItems, bind_eq_ok] at hjs ⊢
      obtain ⟨j, hj, rest, hrest, hjs⟩ := hjs
      obtain rfl := Except.ok.inj hjs
      obtain ⟨hhead, htail⟩ := List.forall_mem_cons.mp hr
      refine ⟨j, h x List.mem_cons_self hj hhead, rest, ih ?_ hrest htail, rfl⟩
      intro y hy i hi hread
      exact h y (List.mem_cons_of_mem _ hy) hi hread

-- encoding does not look below the depth that its result has
theorem toTree_lower {v : PyVal} : ∀ {d e : Nat} {t : Json} {ascii : Bool}, v.toTree d = .ok t →
    t.Readable ascii e → v.toTree e = .ok t := by
  induction v using PyVal.induct with
  | none | bool b | float f | str s | int i =>
      intro d e t ascii h _
      simpa only [toTree] using h
  | list xs ih | tuple xs ih =>
      intro d e t ascii h hr
      obtain ⟨c, js, rfl, rfl, hjs⟩ := toTree_items xs (by simp) h
      cases e with
      | zero => exact absurd hr (by simp [Json.Readable])
      | succ e =>
          have hr := Json.readableItems_iff.mp hr
          have hsame : toTreeItems e xs = .ok js := by
            refine toTreeItems_lower ?_ hjs hr
            intro x hx j hj hread
            exact ih x hx hj hread
          simp only [toTree, hsame]
          rfl
  | dict ms ih =>
      intro d e t ascii h hr
      obtain ⟨c, es, js, rfl, rfl, hes, hjs⟩ := toTree_dict h
      cases e with
      | zero => exact absurd hr (by simp [Json.Readable])
      | succ e =>
          have hr := Json.readableMembers_iff.mp hr
          have hsame : ms.map (fun m => (m.1, m.2.toTree e)) =
              ms.map (fun m => (m.1, m.2.toTree c)) := by
            refine List.map_congr_left ?_
            intro m hm
            have hmem : (m.1, m.2.toTree c) ∈ es :=
              (sortEntries_perm hes).mem_iff.mpr (List.mem_map.mpr ⟨m, hm, rfl⟩)
            obtain ⟨⟨s, hs⟩, j, hj⟩ := collect_isOk.mp ⟨js, hjs⟩ _ hmem
            have hread := (hr _ (collect_mem_of_entry hjs hmem hs hj)).2
            simp only [ih m hm hj hread, show m.2.toTree c = .ok j from hj]
          simp only [toTree, toTreeEntries_eq_map, hsame, hes, hjs, bind, Except.bind]
  | object id =>
      intro d e t ascii h _
      simp [toTree] at h
  | cycle =>
      intro d e t ascii h _
      cases d <;> simp [toTree] at h

end PyVal

end Python
