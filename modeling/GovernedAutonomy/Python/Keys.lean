import GovernedAutonomy.Python.Ordering

namespace Python

namespace Dict

variable {K V W : Type*} [Keyed K]

theorem has_set (d : List (K × V)) (k k' : K) (v : V) :
    has (set d k v) k' = (Keyed.same k k' || has d k') := by
  rw [has, get_set, has]
  cases Keyed.same k k' <;> rfl

theorem keys_set_congr {d : List (K × V)} {e : List (K × W)}
    (h : d.map Prod.fst = e.map Prod.fst) (k : K) (v : V) (w : W) :
    (set d k v).map Prod.fst = (set e k w).map Prod.fst := by
  induction d generalizing e with
  | nil =>
      cases e with
      | nil => rfl
      | cons n e => cases h
  | cons m d ih =>
      cases e with
      | nil => cases h
      | cons n e =>
          obtain ⟨hkey, hrest⟩ := List.cons.inj h
          rw [set, set, ← hkey]
          split
          · rw [List.map_cons, List.map_cons, hrest]
          · rw [List.map_cons, List.map_cons, hkey, ih hrest]

-- a key that is there keeps its place
theorem keys_set_of_has {d : List (K × V)} {k : K} (h : has d k = true) (v : V) :
    (set d k v).map Prod.fst = d.map Prod.fst := by
  induction d with
  | nil => cases h
  | cons m d ih =>
      rw [set]
      split
      · rfl
      · rename_i hkey
        rw [has, get_cons, if_neg hkey] at h
        rw [List.map_cons, List.map_cons, ih h]

end Dict

namespace PyVal

-- equal numbers are one key of a dict, as they are of one written in JSON, and tuples of equal
-- items are; the NaN that json.loads gives is one object and so one key
inductive Class where
  | str (s : Str)
  | num (x : PyFloat.Extended)
  | nan
  | none
  | object (id : Nat)
  | nil
  | cons (head tail : Class)
deriving DecidableEq

mutual
def classOf : PyVal → Option Class
  | .str s => some (.str s)
  | .int i => some (.num (intValue i))
  | .bool b => some (.num (intValue (boolInt b)))
  | .float f => some (f.value?.elim .nan .num)
  | .none => some .none
  | .object id => some (.object id)
  | .tuple xs => classOfItems xs
  | _ => Option.none

def classOfItems : List PyVal → Option Class
  | [] => some .nil
  | x :: xs => do
      let head ← classOf x
      let tail ← classOfItems xs
      some (.cons head tail)
end

instance : Keyed PyVal where
  same a b := a.classOf.isSome && decide (a.classOf = b.classOf)
  same_symm h := by
    simp only [Bool.and_eq_true, decide_eq_true_eq] at h ⊢
    exact ⟨h.2 ▸ h.1, h.2.symm⟩
  same_trans h h' := by
    simp only [Bool.and_eq_true, decide_eq_true_eq] at h h' ⊢
    exact ⟨h.1, h.2.trans h'.2⟩

theorem same_iff {a b : PyVal} :
    Keyed.same a b = true ↔ a.classOf.isSome = true ∧ a.classOf = b.classOf := by
  simp [Keyed.same]

mutual
-- what has a class is what can be hashed
theorem isSome_classOf : ∀ v : PyVal, v.classOf.isSome = v.hashable
  | .tuple xs => by rw [classOf, hashable, isSome_classOfItems]
  | .str _ | .int _ | .bool _ | .float _ | .none | .object _ | .list _ | .dict _ | .cycle => by
      simp [classOf, hashable]

theorem isSome_classOfItems : ∀ xs : List PyVal, (classOfItems xs).isSome = hashableItems xs
  | [] => rfl
  | x :: xs => by
      rw [classOfItems, hashableItems, ← isSome_classOf x, ← isSome_classOfItems xs]
      cases classOf x with
      | none => rfl
      | some head => cases classOfItems xs <;> rfl
end

theorem same_self {v : PyVal} : Keyed.same v v = v.hashable := by
  simp [Keyed.same, isSome_classOf]

theorem hashable_of_same {a b : PyVal} (h : Keyed.same a b = true) :
    a.hashable = true ∧ b.hashable = true := by
  obtain ⟨hsome, heq⟩ := same_iff.mp h
  exact ⟨by rwa [← isSome_classOf], by rwa [← isSome_classOf, ← heq]⟩

theorem same_str_right {v : PyVal} {s : Str} : Keyed.same v (.str s) = true ↔ v = .str s := by
  rw [same_iff]
  constructor
  · rintro ⟨-, h⟩
    cases v with
    | str t => exact congrArg PyVal.str (Class.str.inj (Option.some.inj h))
    | float f => cases hf : f.value? <;> simp [classOf, hf] at h
    | tuple xs =>
        cases xs with
        | nil => simp [classOf, classOfItems] at h
        | cons x xs =>
            cases hx : classOf x <;> cases hxs : classOfItems xs <;>
              simp [classOf, classOfItems, hx, hxs] at h
    | _ => simp [classOf] at h
  · rintro rfl
    exact ⟨rfl, rfl⟩

theorem same_str_left {v : PyVal} {s : Str} : Keyed.same (.str s) v = true ↔ v = .str s := by
  rw [same_comm, same_str_right]

@[simp]
theorem same_str_str (s t : Str) :
    Keyed.same (PyVal.str s) (.str t) = decide (s = t) := by
  rw [Bool.eq_iff_iff, same_str_right, decide_eq_true_iff, str.injEq]

section Dicts

variable {V : Type} {d d' : List (PyVal × V)} {key : PyVal} {v : V} {o : Option V}

-- d.get(key)
def find (d : List (PyVal × V)) (key : PyVal) : Result (Option V) :=
  if key.hashable = true then .ok (Dict.get d key) else .error (.builtin .typeError)

-- d[key] = v
def store (d : List (PyVal × V)) (key : PyVal) (v : V) : Result (List (PyVal × V)) :=
  if key.hashable = true then .ok (Dict.set d key v) else .error (.builtin .typeError)

theorem find_eq_ok : find d key = .ok o ↔ key.hashable = true ∧ o = Dict.get d key := by
  unfold find
  split
  · rename_i h
    rw [Except.ok.injEq, and_iff_right h]
    exact eq_comm
  · rename_i h
    simp [h]

theorem store_eq_ok : store d key v = .ok d' ↔ key.hashable = true ∧ d' = Dict.set d key v := by
  unfold store
  split
  · rename_i h
    rw [Except.ok.injEq, and_iff_right h]
    exact eq_comm
  · rename_i h
    simp [h]

theorem hashable_of_get (h : Dict.get d key = some v) : key.hashable = true := by
  obtain ⟨k, -, hsame⟩ := Dict.get_eq_some h
  exact (hashable_of_same hsame).2

@[simp]
theorem find_str (d : List (PyVal × V)) (s : Str) : find d (.str s) = .ok (Dict.get d (.str s)) := rfl

@[simp]
theorem store_str (d : List (PyVal × V)) (s : Str) (v : V) :
    store d (.str s) v = .ok (Dict.set d (.str s) v) := rfl

end Dicts

section Sorting

variable {γ : Type} {key : γ → PyVal}

-- keys that sorted() takes
def Sortable (ks : List PyVal) : Prop := ∃ ls, sortedByKey id ks = .ok ls

theorem map_insertByKey (x : γ) (ys : List γ) :
    (insertByKey key x ys).map (List.map key) = insertByKey id (key x) (ys.map key) := by
  induction ys with
  | nil => rfl
  | cons y ys ih =>
      rw [insertByKey, List.map_cons, insertByKey, id, id]
      cases (key y).less (key x) with
      | error e => rfl
      | ok below =>
          cases below with
          | false => rfl
          | true =>
              simp only [bind, Except.bind, if_pos, ← ih]
              cases insertByKey key x ys <;> rfl

theorem map_sortedByKey (xs : List γ) :
    (sortedByKey key xs).map (List.map key) = sortedByKey id (xs.map key) := by
  induction xs with
  | nil => rfl
  | cons x xs ih =>
      rw [sortedByKey, List.map_cons, sortedByKey, ← ih]
      cases sortedByKey key xs with
      | error e => rfl
      | ok rest => exact map_insertByKey x rest

theorem sortable_iff {xs : List γ} :
    Sortable (xs.map key) ↔ ∃ zs, sortedByKey key xs = .ok zs := by
  rw [Sortable, ← map_sortedByKey]
  constructor
  · rintro ⟨ls, h⟩
    obtain ⟨zs, hzs, -⟩ := map_eq_ok.mp h
    exact ⟨zs, hzs⟩
  · rintro ⟨zs, h⟩
    exact ⟨zs.map key, by rw [h]; rfl⟩

def isStr : PyVal → Bool
  | .str _ => true
  | _ => false

theorem isStr_of_isNumber {v : PyVal} (h : v.isNumber = true) : v.isStr = false := by
  cases v <;> first | rfl | cases h

-- a string compares with strings only
theorem isStr_of_less {v w : PyVal} {b : Bool} (h : v.less w = .ok b) : v.isStr = w.isStr := by
  unfold less at h
  split at h
  · rfl
  · rfl
  · rfl
  · split at h
    · rename_i hnumbers
      rw [Bool.and_eq_true] at hnumbers
      rw [isStr_of_isNumber hnumbers.1, isStr_of_isNumber hnumbers.2]
    · cases h

theorem isStr_of_insertByKey {x : γ} {ys zs : List γ} (h : insertByKey key x ys = .ok zs)
    (hys : ∀ a ∈ ys, ∀ b ∈ ys, (key a).isStr = (key b).isStr) :
    ∀ y ∈ ys, (key y).isStr = (key x).isStr := by
  cases ys with
  | nil => simp
  | cons y ys =>
      obtain ⟨below, hbelow, -⟩ := bind_eq_ok.mp h
      intro y' hy'
      exact (hys y' hy' y List.mem_cons_self).trans (isStr_of_less hbelow)

-- what can be sorted is strings throughout, or no string
theorem isStr_of_sortedByKey {xs zs : List γ} (h : sortedByKey key xs = .ok zs) :
    ∀ a ∈ xs, ∀ b ∈ xs, (key a).isStr = (key b).isStr := by
  induction xs generalizing zs with
  | nil => simp
  | cons x xs ih =>
      obtain ⟨rest, hrest, hinsert⟩ := bind_eq_ok.mp h
      have hperm := sortedByKey_perm hrest
      have hxs := ih hrest
      have hx : ∀ y ∈ xs, (key y).isStr = (key x).isStr := fun y hy =>
        isStr_of_insertByKey hinsert
          (fun a ha b hb => hxs a (hperm.mem_iff.mp ha) b (hperm.mem_iff.mp hb)) y
            (hperm.mem_iff.mpr hy)
      intro a ha b hb
      rcases List.mem_cons.mp ha with ha | ha
      · rcases List.mem_cons.mp hb with hb | hb
        · rw [ha, hb]
        · rw [ha, hx b hb]
      · rcases List.mem_cons.mp hb with hb | hb
        · rw [hb, hx a ha]
        · exact hxs a ha b hb

end Sorting

-- the key as json.dumps meets it in a dict: a tuple is none that it writes
def toKey : PyVal → PyKey
  | .str s => .str s
  | .int i => .int i
  | .bool b => .bool b
  | .float f => .float f
  | .none => .none
  | .object id => .other id
  | _ => .other 0

end PyVal

end Python
