import Mathlib.Data.List.Nodup

namespace Protocol

-- rows of which no two have the same key
structure Table {R K : Type*} (key : R → K) where
  rows : List R
  distinct : (rows.map key).Nodup

namespace Table

variable {R K : Type*} [DecidableEq K] {key : R → K}

def empty : Table key := ⟨[], List.nodup_nil⟩

def find (t : Table key) (k : K) : Option R := t.rows.find? (fun r => decide (key r = k))

-- INSERT .. ON CONFLICT (key): the row that is there is written anew, in its place
def upsert (t : Table key) (conflict : R → R) (h : ∀ r, key (conflict r) = key r) (row : R) :
    Table key :=
  if hold : key row ∈ t.rows.map key then
    { rows := t.rows.map (fun r => if key r = key row then conflict r else r)
      distinct := by
        have hkeys : (t.rows.map (fun r => if key r = key row then conflict r else r)).map key =
            t.rows.map key := by
          rw [List.map_map]
          refine List.map_congr_left fun r _ => ?_
          rw [Function.comp_apply]
          split
          · exact h r
          · rfl
        rw [hkeys]
        exact t.distinct }
  else
    { rows := t.rows ++ [row]
      distinct := by
        rw [List.map_append, List.nodup_append]
        refine ⟨t.distinct, List.nodup_singleton _, ?_⟩
        intro k hk k' hk' heq
        obtain rfl := List.mem_singleton.mp hk'
        exact hold (heq ▸ hk) }

variable {t : Table key} {conflict : R → R} {h : ∀ r, key (conflict r) = key r} {row r : R} {k : K}

@[simp]
theorem find_empty : (empty : Table key).find k = none := rfl

theorem find_eq_none : t.find k = none ↔ k ∉ t.rows.map key := by
  rw [find, List.find?_eq_none, List.mem_map]
  simp

theorem find_eq_some : t.find k = some r ↔ r ∈ t.rows ∧ key r = k := by
  constructor
  · intro hfind
    exact ⟨List.mem_of_find?_eq_some hfind, by simpa using List.find?_some hfind⟩
  · rintro ⟨hmem, rfl⟩
    cases hfind : t.find (key r) with
    | none => exact absurd (List.mem_map_of_mem hmem) (find_eq_none.mp hfind)
    | some r' =>
        have hkey : key r' = key r := by simpa using List.find?_some hfind
        exact congrArg some
          (List.inj_on_of_nodup_map t.distinct (List.mem_of_find?_eq_some hfind) hmem hkey)

theorem find_upsert : (t.upsert conflict h row).find k =
    if key row = k then some ((t.find k).elim row conflict) else t.find k := by
  rw [upsert]
  split
  · next hold =>
      cases hfind : t.find k with
      | none =>
          have hne : key row ≠ k := fun heq => find_eq_none.mp hfind (heq ▸ hold)
          rw [if_neg hne, find_eq_none]
          intro hmem
          rw [List.map_map] at hmem
          obtain ⟨r, hr, hk⟩ := List.mem_map.mp hmem
          refine find_eq_none.mp hfind (List.mem_map.mpr ⟨r, hr, ?_⟩)
          rw [← hk, Function.comp_apply]
          split
          · exact (h r).symm
          · rfl
      | some r =>
          obtain ⟨hr, rfl⟩ := find_eq_some.mp hfind
          split
          · next heq =>
              refine find_eq_some.mpr ⟨List.mem_map.mpr ⟨r, hr, if_pos heq.symm⟩, h r⟩
          · next hne =>
              exact find_eq_some.mpr ⟨List.mem_map.mpr ⟨r, hr, if_neg (Ne.symm hne)⟩, rfl⟩
  · next hnew =>
      by_cases hk : key row = k
      · subst hk
        rw [if_pos rfl, find_eq_none.mpr hnew]
        exact find_eq_some.mpr ⟨by simp, rfl⟩
      · rw [if_neg hk]
        simp [find, hk]

-- INSERT .. ON CONFLICT (key) DO NOTHING
theorem find_insert (t : Table key) (row : R) (k : K) :
    (t.upsert id (fun _ => rfl) row).find k =
      if key row = k then some ((t.find k).getD row) else t.find k := by
  rw [find_upsert]
  cases t.find k <;> rfl

theorem mem_rows : r ∈ t.rows ↔ t.find (key r) = some r := by
  rw [find_eq_some, and_iff_left rfl]

end Table

end Protocol
