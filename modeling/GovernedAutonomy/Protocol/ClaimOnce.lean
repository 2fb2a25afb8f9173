import Mathlib.Data.List.Perm.Basic
import Mathlib.Data.List.Perm.Subperm
import Mathlib.Data.Set.Insert
import Mathlib.Logic.Relation

namespace Protocol

namespace ClaimOnce

variable {N : Type*}

-- tokens that were claimed, those a holder may still use, and those already used
structure Ledger (N : Type*) where
  claimed : Set N
  held : List N
  started : List N

inductive Step : Ledger N → Ledger N → Prop
  | grow {l : Ledger N} {claimed : Set N} (h : l.claimed ⊆ claimed) :
      Step l { l with claimed := claimed }
  | claim {l : Ledger N} {n : N} {held : List N} (hn : n ∉ l.claimed) (h : held.Perm (n :: l.held)) :
      Step l { l with claimed := insert n l.claimed, held := held }
  | start {l : Ledger N} {n : N} {held : List N} (h : l.held.Perm (n :: held)) :
      Step l { l with held := held, started := n :: l.started }
  | drop {l : Ledger N} {held : List N} (h : held.Subperm l.held) :
      Step l { l with held := held }
  | crash {l : Ledger N} {claimed : Set N} (h : ∀ n ∈ l.started, n ∈ claimed) :
      Step l { l with claimed := claimed, held := [] }

structure Invariant (l : Ledger N) : Prop where
  nodup : (l.held ++ l.started).Nodup
  claimed : ∀ n ∈ l.held ++ l.started, n ∈ l.claimed

def empty : Ledger N := ⟨∅, [], []⟩

theorem invariant_empty : Invariant (empty : Ledger N) := ⟨List.nodup_nil, by simp [empty]⟩

theorem invariant_step {l l' : Ledger N} (hl : Invariant l) (hs : Step l l') : Invariant l' := by
  obtain ⟨hnodup, hclaimed⟩ := hl
  cases hs with
  | grow h => exact ⟨hnodup, fun n hn => h (hclaimed n hn)⟩
  | @claim n held hn h =>
      have hperm : (held ++ l.started).Perm (n :: (l.held ++ l.started)) := h.append_right _
      refine ⟨hperm.nodup_iff.mpr (List.nodup_cons.mpr ⟨fun hmem => hn (hclaimed n hmem), hnodup⟩),
        ?_⟩
      intro m hm
      rcases List.mem_cons.mp (hperm.mem_iff.mp hm) with rfl | hm
      · exact Set.mem_insert m _
      · exact Set.mem_insert_of_mem n (hclaimed m hm)
  | @start n held h =>
      have hperm : (held ++ n :: l.started).Perm (l.held ++ l.started) :=
        List.perm_middle.trans (h.symm.append_right l.started)
      exact ⟨hperm.nodup_iff.mpr hnodup, fun m hm => hclaimed m (hperm.mem_iff.mp hm)⟩
  | @drop held h =>
      have hsub : (held ++ l.started).Subperm (l.held ++ l.started) :=
        (List.subperm_append_right _).mpr h
      refine ⟨?_, fun m hm => hclaimed m (hsub.subset hm)⟩
      obtain ⟨js, hperm, hjs⟩ := hsub
      exact hperm.nodup_iff.mp (hjs.nodup hnodup)
  | crash h =>
      exact ⟨(List.nodup_append.mp hnodup).2.1, fun m hm => h m hm⟩

theorem started_nodup {l : Ledger N} (hl : Invariant l) : l.started.Nodup :=
  (List.nodup_append.mp hl.nodup).2.1

theorem started_claimed {l : Ledger N} (hl : Invariant l) : ∀ n ∈ l.started, n ∈ l.claimed :=
  fun n hn => hl.claimed n (List.mem_append_right _ hn)

end ClaimOnce

end Protocol
