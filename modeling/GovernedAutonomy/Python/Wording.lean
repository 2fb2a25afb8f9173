import GovernedAutonomy.Python.Encodable

namespace Python

theorem Json.clean_nil : Json.Clean [] := fun _ hp => absurd hp List.not_mem_nil

theorem Json.clean_cons {p : CodePoint} {s : Str} (hp : isSurrogate p = false)
    (hs : Json.Clean s) : Json.Clean (p :: s) := by
  intro q hq
  rcases List.mem_cons.mp hq with rfl | hq
  · exact hp
  · exact hs q hq

theorem Json.Clean.of_subset {s t : Str} (ht : Json.Clean t) (h : s ⊆ t) : Json.Clean s :=
  fun p hp => ht p (h hp)

theorem not_isSurrogate_ofChar (c : Char) : isSurrogate (ofChar c) = false := by
  have hmem : ofChar c ∈ lit (String.ofList [c]) := by
    rw [lit, String.toList_ofList]
    exact List.mem_singleton_self _
  exact not_isSurrogate_of_mem_lit hmem

theorem clean_chars (cs : List Char) : Json.Clean (cs.map ofChar) := by
  intro p hp
  obtain ⟨c, -, rfl⟩ := List.mem_map.mp hp
  exact not_isSurrogate_ofChar c

theorem clean_digits (n : Nat) : Json.Clean (digits n) := clean_chars _

theorem clean_intRepr (i : ℤ) : Json.Clean (intRepr i) := by
  cases i with
  | ofNat n => exact clean_digits n
  | negSucc n => exact Json.clean_append (Json.clean_lit _) (clean_digits _)

theorem clean_of_intText {i : ℤ} {s : Str} (h : intText i = .ok s) : Json.Clean s := by
  unfold intText at h
  split at h
  · cases h
  · obtain rfl := Except.ok.inj h
    exact clean_intRepr i

theorem clean_ite {p : Prop} [Decidable p] {s t : Str} (hs : Json.Clean s) (ht : Json.Clean t) :
    Json.Clean (if p then s else t) := by
  split
  · exact hs
  · exact ht

theorem clean_replicate (n : Nat) (c : Char) : Json.Clean (List.replicate n (ofChar c)) := by
  intro p hp
  rw [List.eq_of_mem_replicate hp]
  exact not_isSurrogate_ofChar c

theorem clean_exponentRepr (e : ℤ) : Json.Clean (exponentRepr e) :=
  Json.clean_append (Json.clean_append (Json.clean_append (Json.clean_lit _)
    (clean_ite (Json.clean_lit _) (Json.clean_lit _))) (clean_ite (Json.clean_lit _) Json.clean_nil))
      (clean_digits _)

theorem clean_magnitudeRepr (m : Nat) (e : ℤ) : Json.Clean (magnitudeRepr m e) := by
  have htake : ∀ n, Json.Clean ((digits m).take n) := fun n =>
    (clean_digits m).of_subset (List.take_subset n _)
  have hdrop : ∀ n, Json.Clean ((digits m).drop n) := fun n =>
    (clean_digits m).of_subset (List.drop_subset n _)
  unfold magnitudeRepr
  refine clean_ite ?_ (clean_ite ?_ (clean_ite ?_ ?_))
  · exact Json.clean_append (Json.clean_append (htake 1) (clean_ite Json.clean_nil
      (Json.clean_append (Json.clean_lit _) (hdrop 1)))) (clean_exponentRepr _)
  · exact Json.clean_append (Json.clean_append (Json.clean_lit _) (clean_replicate _ _))
      (clean_digits m)
  · exact Json.clean_append (Json.clean_append (clean_digits m) (clean_replicate _ _))
      (Json.clean_lit _)
  · exact Json.clean_append (Json.clean_append (htake _) (Json.clean_lit _)) (hdrop _)

namespace Interpreter

variable {I : Interpreter}

theorem clean_hexPad (width n : Nat) : Json.Clean (hexPad width n) := by
  induction width generalizing n with
  | zero => exact Json.clean_nil
  | succ width ih =>
    exact Json.clean_append (ih _) (clean_chars [Nat.digitChar (n % 16)])

-- what is not printed as it stands is written in ASCII
theorem clean_reprPoint {mark p : CodePoint} (hp : isSurrogate p = false) :
    Json.Clean (I.reprPoint mark p) := by
  have hself : Json.Clean [p] := Json.clean_cons hp Json.clean_nil
  have hescape : ∀ s width, Json.Clean (lit s ++ hexPad width p.val) := fun s width =>
    Json.clean_append (Json.clean_lit s) (clean_hexPad width _)
  unfold reprPoint
  exact clean_ite (Json.clean_cons (not_isSurrogate_ofChar _) hself) (clean_ite (Json.clean_lit _)
    (clean_ite (Json.clean_lit _) (clean_ite (Json.clean_lit _) (clean_ite (hescape _ _)
      (clean_ite hself (clean_ite (hescape _ _) (clean_ite (hescape _ _) (hescape _ _))))))))

theorem clean_reprStr {s : Str} (h : Json.Clean s) : Json.Clean (I.reprStr s) := by
  unfold reprStr
  have hmark : Json.Clean [if ofChar '\'' ∈ s ∧ ofChar '"' ∉ s then ofChar '"' else ofChar '\''] := by
    refine Json.clean_cons ?_ Json.clean_nil
    split <;> exact not_isSurrogate_ofChar _
  refine Json.clean_append (Json.clean_append hmark ?_) hmark
  intro p hp
  obtain ⟨q, hq, hp⟩ := List.mem_flatMap.mp hp
  exact clean_reprPoint (h q hq) p hp

theorem clean_reprFloat (f : PyFloat) : Json.Clean (reprFloat f) := by
  cases f with
  | nan => exact Json.clean_lit _
  | inf neg => exact clean_ite (Json.clean_lit _) (Json.clean_lit _)
  | finite neg m =>
    exact Json.clean_append (clean_ite (Json.clean_lit _) Json.clean_nil) (clean_magnitudeRepr _ _)

theorem clean_reprBool (b : Bool) : Json.Clean (reprBool b) :=
  clean_ite (Json.clean_lit _) (Json.clean_lit _)

theorem clean_reprKey {k : PyKey} {s : Str} (hk : WritableKey k) (h : I.reprKey k = .ok s) :
    Json.Clean s := by
  obtain ⟨text, htext, hclean⟩ := hk
  cases k with
  | str t =>
    obtain rfl := Except.ok.inj h
    obtain rfl := Except.ok.inj htext
    exact clean_reprStr hclean
  | int i => exact clean_of_intText h
  | bool b =>
    obtain rfl := Except.ok.inj h
    exact clean_reprBool b
  | float f =>
    obtain rfl := Except.ok.inj h
    exact clean_reprFloat f
  | none =>
    obtain rfl := Except.ok.inj h
    exact Json.clean_lit _
  | other id => cases htext

theorem clean_reprItems {xs : List PyVal} {s : Str}
    (hxs : ∀ x ∈ xs, ∀ t, I.repr x = .ok t → Json.Clean t) (h : I.reprItems xs = .ok s) :
    Json.Clean s := by
  induction xs generalizing s with
  | nil =>
    obtain rfl := Except.ok.inj h
    exact Json.clean_nil
  | cons x xs ih =>
    obtain ⟨hx, hxs⟩ := List.forall_mem_cons.mp hxs
    simp only [reprItems, bind_eq_ok] at h
    obtain ⟨head, hhead, rest, hrest, h⟩ := h
    obtain rfl := Except.ok.inj h
    exact Json.clean_append (hx _ hhead) (clean_ite Json.clean_nil
      (Json.clean_append (Json.clean_lit _) (ih hxs hrest)))

theorem clean_reprMembers {ms : List (PyKey × PyVal)} {s : Str}
    (hms : ∀ m ∈ ms, WritableKey m.1 ∧ ∀ t, I.repr m.2 = .ok t → Json.Clean t)
    (h : I.reprMembers ms = .ok s) : Json.Clean s := by
  induction ms generalizing s with
  | nil =>
    obtain rfl := Except.ok.inj h
    exact Json.clean_nil
  | cons m ms ih =>
    obtain ⟨k, v⟩ := m
    obtain ⟨⟨hkey, hvalue⟩, hms⟩ := List.forall_mem_cons.mp hms
    simp only [reprMembers, bind_eq_ok] at h
    obtain ⟨key, hk, value, hv, rest, hrest, h⟩ := h
    obtain rfl := Except.ok.inj h
    exact Json.clean_append (Json.clean_append (Json.clean_append (clean_reprKey hkey hk)
      (Json.clean_lit _)) (hvalue _ hv)) (clean_ite Json.clean_nil
        (Json.clean_append (Json.clean_lit _) (ih hms hrest)))

-- what can be written in a canonical document is displayed without lone surrogates
theorem clean_repr {v : PyVal} : ∀ {d : Nat} {s : Str}, v.Encodable d → I.repr v = .ok s →
    Json.Clean s := by
  induction v using PyVal.induct with
  | none =>
    intro d s _ h
    simp only [repr] at h
    exact Except.ok.inj h ▸ Json.clean_lit _
  | bool b =>
    intro d s _ h
    simp only [repr] at h
    exact Except.ok.inj h ▸ clean_reprBool b
  | float f =>
    intro d s _ h
    simp only [repr] at h
    exact Except.ok.inj h ▸ clean_reprFloat f
  | str t =>
    intro d s henc h
    simp only [repr] at h
    exact Except.ok.inj h ▸ clean_reprStr (PyVal.encodable_str.mp henc)
  | int i =>
    intro d s _ h
    simp only [repr] at h
    exact clean_of_intText h
  | list xs ih =>
    intro d s henc h
    simp only [repr, bind_eq_ok] at h
    obtain ⟨body, hbody, h⟩ := h
    have hxs := (PyVal.encodable_list.mp henc).2
    have hclean := clean_reprItems (fun x hx _ => ih x hx (hxs x hx)) hbody
    exact Except.ok.inj h ▸ Json.clean_append (Json.clean_append (Json.clean_lit _) hclean)
      (Json.clean_lit _)
  | tuple xs ih =>
    intro d s henc h
    simp only [repr, bind_eq_ok] at h
    obtain ⟨body, hbody, h⟩ := h
    have hxs := (PyVal.encodable_tuple.mp henc).2
    have hclean := clean_reprItems (fun x hx _ => ih x hx (hxs x hx)) hbody
    exact Except.ok.inj h ▸ Json.clean_append (Json.clean_append (Json.clean_lit _) hclean)
      (clean_ite (Json.clean_lit _) (Json.clean_lit _))
  | dict ms ih =>
    intro d s henc h
    simp only [repr, bind_eq_ok] at h
    obtain ⟨body, hbody, h⟩ := h
    have hms := (PyVal.encodable_dict.mp henc).2.2
    have hclean := clean_reprMembers (fun m hm => ⟨(hms m hm).1, fun _ => ih m hm (hms m hm).2⟩)
      hbody
    exact Except.ok.inj h ▸ Json.clean_append (Json.clean_append (Json.clean_lit _) hclean)
      (Json.clean_lit _)
  | object id =>
    intro d s henc
    exact absurd henc PyVal.not_encodable_object
  | cycle =>
    intro d s henc
    exact absurd henc PyVal.not_encodable_cycle

theorem clean_str {v : PyVal} {d : Nat} {s : Str} (henc : v.Encodable d) (h : I.str v = .ok s) :
    Json.Clean s := by
  cases v with
  | str t =>
    obtain rfl := Except.ok.inj h
    exact PyVal.encodable_str.mp henc
  | _ => exact clean_repr (I := I) henc h

end Interpreter

end Python
