import Mathlib.Data.List.Forall2
import Mathlib.Data.List.Induction

namespace HashChain

variable {H B : Type} (seals : H → B → Prop) (hash : B → H)

def tip (h : H) (bs : List B) : H := bs.foldl (fun _ b => hash b) h

def Linked : H → List B → Prop
  | _, [] => True
  | h, b :: bs => seals h b ∧ Linked (hash b) bs

@[simp]
theorem tip_nil (h : H) : tip hash h [] = h := rfl

@[simp]
theorem tip_cons (h : H) (b : B) (bs : List B) : tip hash h (b :: bs) = tip hash (hash b) bs := rfl

@[simp]
theorem tip_snoc (h : H) (bs : List B) (b : B) : tip hash h (bs ++ [b]) = hash b := by
  simp [tip]

theorem tip_map {f : B → B} (hf : ∀ b, hash (f b) = hash b) (h : H) (bs : List B) :
    tip hash h (bs.map f) = tip hash h bs := by
  induction bs generalizing h with
  | nil => rfl
  | cons b bs ih => rw [List.map_cons, tip_cons, tip_cons, ih, hf]

theorem linked_append {h : H} {bs cs : List B} :
    Linked seals hash h (bs ++ cs) ↔
      Linked seals hash h bs ∧ Linked seals hash (tip hash h bs) cs := by
  induction bs generalizing h with
  | nil => simp [Linked]
  | cons b bs ih => simp [Linked, ih, and_assoc]

theorem linked_snoc {h : H} {bs : List B} {b : B} :
    Linked seals hash h (bs ++ [b]) ↔ Linked seals hash h bs ∧ seals (tip hash h bs) b := by
  simp [linked_append, Linked]

theorem linked_of_prefix {h : H} {bs cs : List B} (hpre : bs <+: cs)
    (hc : Linked seals hash h cs) : Linked seals hash h bs := by
  obtain ⟨ds, rfl⟩ := hpre
  exact ((linked_append seals hash).mp hc).1

theorem seals_of_mem {h : H} {bs : List B} (hb : Linked seals hash h bs) {b : B} (hmem : b ∈ bs) :
    ∃ h', seals h' b := by
  induction bs generalizing h with
  | nil => cases hmem
  | cons c bs ih =>
      rcases List.mem_cons.mp hmem with rfl | hmem
      · exact ⟨h, hb.1⟩
      · exact ih hb.2 hmem

-- a tip that no other content and no other past can have fixes everything before it
theorem linked_determined {R : B → B → Prop} {g : H} (hgenesis : ∀ h b, seals h b → hash b ≠ g)
    {bs cs : List B}
    (hinj : ∀ b ∈ bs, ∀ c ∈ cs, ∀ h h', seals h b → seals h' c → hash b = hash c → h = h' ∧ R b c)
    (hb : Linked seals hash g bs) (hc : Linked seals hash g cs)
    (htip : tip hash g bs = tip hash g cs) : List.Forall₂ R bs cs := by
  induction bs using List.reverseRecOn generalizing cs with
  | nil =>
      cases cs using List.reverseRecOn with
      | nil => exact .nil
      | append_singleton cs c =>
          rw [tip_nil, tip_snoc] at htip
          exact absurd htip.symm (hgenesis _ c ((linked_snoc seals hash).mp hc).2)
  | append_singleton bs b ih =>
      obtain ⟨hbs, hsb⟩ := (linked_snoc seals hash).mp hb
      cases cs using List.reverseRecOn with
      | nil =>
          rw [tip_nil, tip_snoc] at htip
          exact absurd htip (hgenesis _ b hsb)
      | append_singleton cs c =>
          obtain ⟨hcs, hsc⟩ := (linked_snoc seals hash).mp hc
          rw [tip_snoc, tip_snoc] at htip
          obtain ⟨hprev, hr⟩ := hinj b (by simp) c (by simp) _ _ hsb hsc htip
          have hrest : List.Forall₂ R bs cs := by
            refine ih ?_ hbs hcs hprev
            intro a ha d hd
            exact hinj a (List.mem_append_left _ ha) d (List.mem_append_left _ hd)
          exact List.rel_append hrest (.cons hr .nil)

end HashChain
