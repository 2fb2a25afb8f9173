import GovernedAutonomy.Protocol.Calls

namespace Protocol

namespace Observe

variable {S T C O : Type*}

def step (serve : S → C → S × O) (s : S) (c : C) : S := (serve s c).1

-- what the caller of a machine gets to see
def run (serve : S → C → S × O) : S → List C → List O
  | _, [] => []
  | s, c :: cs => (serve s c).2 :: run serve (step serve s c) cs

-- two machines in related states that agree on a call stay related
structure Agrees (serve : S → C → S × O) (serve' : T → C → T × O) (R : S → T → Prop) (s : S)
    (t : T) (c : C) : Prop where
  answer : (serve s c).2 = (serve' t c).2
  related : R (step serve s c) (step serve' t c)

variable {serve : S → C → S × O} {serve' : T → C → T × O} {R : S → T → Prop} {ok : S → C → Prop}

theorem run_eq (hagrees : ∀ s t c, R s t → ok s c → Agrees serve serve' R s t c) {s : S} {t : T}
    {cs : List C} (h : Calls.Each (step serve) ok s cs) (hst : R s t) :
    run serve s cs = run serve' t cs := by
  induction cs generalizing s t with
  | nil => rfl
  | cons c cs ih =>
      obtain ⟨hok, hrest⟩ := h
      obtain ⟨hanswer, hrelated⟩ := hagrees s t c hst hok
      rw [run, run, hanswer, ih hrest hrelated]

-- the machines are told apart by the first call on which they disagree
theorem run_eq_iff (hagrees : ∀ s t c, R s t → ok s c → Agrees serve serve' R s t c)
    (hdiffers : ∀ s t c, R s t → ¬ ok s c → (serve s c).2 ≠ (serve' t c).2) {s : S} {t : T}
    {cs : List C} (hst : R s t) :
    run serve s cs = run serve' t cs ↔ Calls.Each (step serve) ok s cs := by
  refine ⟨?_, fun h => run_eq hagrees h hst⟩
  induction cs generalizing s t with
  | nil => exact fun _ => trivial
  | cons c cs ih =>
      intro h
      obtain ⟨hhead, htail⟩ := List.cons.inj h
      have hok : ok s c := by
        by_contra hnot
        exact hdiffers s t c hst hnot hhead
      exact ⟨hok, ih (hagrees s t c hst hok).related htail⟩

end Observe

end Protocol
