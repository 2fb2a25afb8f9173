import GovernedAutonomy.Python.Documents

namespace Python

def Printable (p : CodePoint) : Prop := 0x20 ≤ p.val ∧ p.val ≤ 0x7E

instance (p : CodePoint) : Decidable (Printable p) := inferInstanceAs (Decidable (_ ∧ _))

theorem printable_lit {s : String} (h : (lit s).all (fun p => decide (Printable p)) = true) :
    ∀ p ∈ lit s, Printable p := by
  intro p hp
  simpa using List.all_eq_true.mp h p hp

theorem printable_of_isDigit {p : CodePoint} (h : isDigit p = true) : Printable p := by
  simp only [isDigit, decide_eq_true_eq] at h
  exact ⟨by omega, by omega⟩

theorem printable_digits (n : Nat) : ∀ p ∈ digits n, Printable p :=
  fun _ hp => printable_of_isDigit (allDigits_digits n _ hp)

theorem printable_signText (neg : Bool) : ∀ p ∈ signText neg, Printable p := by
  cases neg with
  | true => exact printable_lit (by decide)
  | false => simp [signText]

theorem printable_intRepr (i : ℤ) : ∀ p ∈ intRepr i, Printable p := by
  obtain ⟨neg, n, -, -, htext⟩ := intRepr_eq i
  intro p hp
  rw [htext] at hp
  rcases List.mem_append.mp hp with hp | hp
  · exact printable_signText neg p hp
  · exact printable_digits n p hp

theorem printable_exponentText (e : Option ℤ) : ∀ p ∈ exponentText e, Printable p := by
  cases e with
  | none => simp [exponentText]
  | some e =>
      intro p hp
      simp only [exponentText, exponentRepr, List.mem_append] at hp
      rcases hp with ((hp | hp) | hp) | hp
      · exact printable_lit (by decide) p hp
      · split at hp
        · exact printable_lit (by decide) p hp
        · exact printable_lit (by decide) p hp
      · split at hp
        · exact printable_lit (by decide) p hp
        · cases hp
      · exact printable_digits _ p hp

theorem printable_floatText (f : PyFloat) : ∀ p ∈ floatText f, Printable p := by
  cases f with
  | nan => exact printable_lit (by decide)
  | inf neg =>
      cases neg with
      | true => exact printable_lit (by decide)
      | false => exact printable_lit (by decide)
  | finite neg m =>
      obtain ⟨whole, frac, exp, htext, hw, hf, -⟩ :=
        magnitudeRepr_shape (e := m.exp) (magnitude_zero_exp m)
      intro p hp
      rw [floatText, htext] at hp
      rcases List.mem_append.mp hp with hp | hp
      · exact printable_signText neg p hp
      rcases List.mem_append.mp hp with hp | hp
      · exact printable_of_isDigit (hw.1 p hp)
      rcases List.mem_append.mp hp with hp | hp
      · unfold fractionText at hp
        split at hp
        · cases hp
        · rcases List.mem_append.mp hp with hp | hp
          · exact printable_lit (by decide) p hp
          · exact printable_of_isDigit (hf p hp)
      · exact printable_exponentText exp p hp

theorem printable_hexDigit (n : Nat) : Printable (hexDigit n) := by
  have h : ∀ d < 16, Printable (ofChar (Nat.digitChar d)) := by decide
  exact h (n % 16) (Nat.mod_lt n (by decide))

theorem printable_unicodeEscape (n : Nat) : ∀ p ∈ unicodeEscape n, Printable p := by
  intro p hp
  rcases List.mem_append.mp hp with hp | hp
  · exact printable_lit (by decide) p hp
  · simp only [List.mem_cons, List.not_mem_nil, or_false] at hp
    rcases hp with rfl | rfl | rfl | rfl <;> exact printable_hexDigit _

-- what is written for one code point: ASCII text, or in the other style the point itself
theorem mem_escapePoint {ascii : Bool} {p q : CodePoint} (h : q ∈ escapePoint ascii p) :
    Printable q ∨ ascii = false ∧ q = p := by
  unfold escapePoint at h
  split at h
  · exact Or.inl (printable_lit (by decide) q h)
  split at h
  · exact Or.inl (printable_lit (by decide) q h)
  split at h
  · exact Or.inl (printable_lit (by decide) q h)
  split at h
  · exact Or.inl (printable_lit (by decide) q h)
  split at h
  · exact Or.inl (printable_lit (by decide) q h)
  split at h
  · exact Or.inl (printable_lit (by decide) q h)
  split at h
  · exact Or.inl (printable_lit (by decide) q h)
  split at h
  · exact Or.inl (printable_unicodeEscape _ q h)
  split at h
  · split at h
    · exact Or.inl (printable_unicodeEscape _ q h)
    · rcases List.mem_append.mp h with h | h
      · exact Or.inl (printable_unicodeEscape _ q h)
      · exact Or.inl (printable_unicodeEscape _ q h)
  · rename_i hlow hhigh
    obtain rfl := List.mem_singleton.mp h
    cases ascii with
    | true => exact Or.inl ⟨by omega, by simpa using hhigh⟩
    | false => exact Or.inr ⟨rfl, rfl⟩

theorem surrogate_mem_escapePoint {p : CodePoint} (h : isSurrogate p = true) :
    p ∈ escapePoint false p := by
  simp only [isSurrogate, decide_eq_true_eq] at h
  have hne : ∀ c : Char, c.toNat < 0xD800 → p ≠ ofChar c := by
    rintro c hc rfl
    exact absurd h.1 (Nat.not_le.mpr hc)
  unfold escapePoint
  rw [if_neg (hne _ (by decide)), if_neg (hne _ (by decide)), if_neg (hne _ (by decide)),
    if_neg (hne _ (by decide)), if_neg (hne _ (by decide)), if_neg (by omega), if_neg (by omega),
    if_neg (by omega), if_neg (by simp)]
  exact List.mem_singleton.mpr rfl

namespace Json

mutual
def EachStr (P : Str → Prop) : Json → Prop
  | .str s => P s
  | .arr xs => EachStrItems P xs
  | .obj ms => EachStrMembers P ms
  | _ => True

def EachStrItems (P : Str → Prop) : List Json → Prop
  | [] => True
  | x :: xs => EachStr P x ∧ EachStrItems P xs

def EachStrMembers (P : Str → Prop) : List (Str × Json) → Prop
  | [] => True
  | (k, v) :: ms => P k ∧ EachStr P v ∧ EachStrMembers P ms
end

theorem eachStrItems_iff {P : Str → Prop} {xs : List Json} :
    EachStrItems P xs ↔ ∀ x ∈ xs, x.EachStr P := by
  induction xs with
  | nil => simp [EachStrItems]
  | cons x xs ih => simp [EachStrItems, ih]

theorem eachStrMembers_iff {P : Str → Prop} {ms : List (Str × Json)} :
    EachStrMembers P ms ↔ ∀ m ∈ ms, P m.1 ∧ m.2.EachStr P := by
  induction ms with
  | nil => simp [EachStrMembers]
  | cons m ms ih => simp [EachStrMembers, ih, and_assoc]

section Content

variable {sty : Style} {Q : CodePoint → Prop} (hQ : ∀ p, Printable p → Q p)

include hQ

theorem comma_forall : ∀ p ∈ sty.comma, Q p := by
  intro p hp
  refine hQ p ?_
  unfold Style.comma at hp
  split at hp
  · exact printable_lit (by decide) p hp
  · exact printable_lit (by decide) p hp

theorem colon_forall : ∀ p ∈ sty.colon, Q p := by
  intro p hp
  refine hQ p ?_
  unfold Style.colon at hp
  split at hp
  · exact printable_lit (by decide) p hp
  · exact printable_lit (by decide) p hp

theorem lit_forall {s : String} (h : (lit s).all (fun p => decide (Printable p)) = true) :
    ∀ p ∈ lit s, Q p :=
  fun p hp => hQ p (printable_lit h p hp)

theorem quote_forall {s : Str} :
    (∀ p ∈ quote sty.ascii s, Q p) ↔ ∀ p ∈ s.flatMap (escapePoint sty.ascii), Q p := by
  have hmark := lit_forall hQ (s := "\"") (by decide)
  simp only [quote, List.forall_mem_append]
  exact ⟨fun h => h.1.2, fun h => ⟨⟨hmark, h⟩, hmark⟩⟩

theorem renderItems_forall {xs : List Json} :
    (∀ p ∈ renderItems sty xs, Q p) ↔ ∀ x ∈ xs, ∀ p ∈ x.render sty, Q p := by
  induction xs with
  | nil => simp [renderItems]
  | cons x xs ih =>
      simp only [renderItems, List.forall_mem_append, ih, List.forall_mem_cons]
      exact ⟨fun h => ⟨h.1.2, h.2⟩, fun h => ⟨⟨comma_forall hQ, h.1⟩, h.2⟩⟩

theorem renderMembers_forall {ms : List (Str × Json)} :
    (∀ p ∈ renderMembers sty ms, Q p) ↔
      ∀ m ∈ ms, (∀ p ∈ quote sty.ascii m.1, Q p) ∧ ∀ p ∈ m.2.render sty, Q p := by
  induction ms with
  | nil => simp [renderMembers]
  | cons m ms ih =>
      obtain ⟨k, v⟩ := m
      simp only [renderMembers, List.forall_mem_append, ih, List.forall_mem_cons]
      exact ⟨fun h => ⟨⟨h.1.1.1.2, h.1.2⟩, h.2⟩,
        fun h => ⟨⟨⟨⟨comma_forall hQ, h.1.1⟩, colon_forall hQ⟩, h.1.2⟩, h.2⟩⟩

theorem render_arr_forall {xs : List Json} :
    (∀ p ∈ (Json.arr xs).render sty, Q p) ↔ ∀ x ∈ xs, ∀ p ∈ x.render sty, Q p := by
  have hopen := lit_forall hQ (s := "[") (by decide)
  have hclose := lit_forall hQ (s := "]") (by decide)
  cases xs with
  | nil => simpa [render] using lit_forall hQ (s := "[]") (by decide)
  | cons x xs =>
      simp only [render, List.forall_mem_append, renderItems_forall hQ, List.forall_mem_cons]
      exact ⟨fun h => ⟨h.1.1.2, h.1.2⟩, fun h => ⟨⟨⟨hopen, h.1⟩, h.2⟩, hclose⟩⟩

theorem render_obj_forall {ms : List (Str × Json)} :
    (∀ p ∈ (Json.obj ms).render sty, Q p) ↔
      ∀ m ∈ ms, (∀ p ∈ quote sty.ascii m.1, Q p) ∧ ∀ p ∈ m.2.render sty, Q p := by
  have hopen := lit_forall hQ (s := "\x7b") (by decide)
  have hclose := lit_forall hQ (s := "\x7d") (by decide)
  cases ms with
  | nil => simpa [render] using lit_forall hQ (s := "\x7b\x7d") (by decide)
  | cons m ms =>
      obtain ⟨k, v⟩ := m
      simp only [render, List.forall_mem_append, renderMembers_forall hQ, List.forall_mem_cons]
      exact ⟨fun h => ⟨⟨h.1.1.1.1.2, h.1.1.2⟩, h.1.2⟩,
        fun h => ⟨⟨⟨⟨⟨hopen, h.1.1⟩, colon_forall hQ⟩, h.1.2⟩, h.2⟩, hclose⟩⟩

theorem render_forall {t : Json} :
    (∀ p ∈ t.render sty, Q p) ↔
      t.EachStr (fun s => ∀ p ∈ s.flatMap (escapePoint sty.ascii), Q p) := by
  induction t using induct with
  | null => simpa [render, EachStr] using lit_forall hQ (s := "null") (by decide)
  | bool b =>
      cases b with
      | true => simpa [render, EachStr] using lit_forall hQ (s := "true") (by decide)
      | false => simpa [render, EachStr] using lit_forall hQ (s := "false") (by decide)
  | int i => simpa [render, EachStr] using fun p hp => hQ p (printable_intRepr i p hp)
  | float f => simpa [render, EachStr] using fun p hp => hQ p (printable_floatText f p hp)
  | str s => rw [render, quote_forall hQ, EachStr]
  | arr xs ih =>
      rw [render_arr_forall hQ, EachStr, eachStrItems_iff]
      exact forall₂_congr ih
  | obj ms ih =>
      rw [render_obj_forall hQ, EachStr, eachStrMembers_iff]
      refine forall₂_congr ?_
      intro m hm
      rw [quote_forall hQ, ih m hm]

end Content

def Clean (s : Str) : Prop := ∀ p ∈ s, isSurrogate p = false

theorem clean_append {s t : Str} (hs : Clean s) (ht : Clean t) : Clean (s ++ t) := by
  intro p hp
  rcases List.mem_append.mp hp with hp | hp
  · exact hs p hp
  · exact ht p hp

theorem clean_lit (s : String) : Clean (lit s) := fun _ hp => not_isSurrogate_of_mem_lit hp

theorem eachStr_congr {P Q : Str → Prop} (h : ∀ s, P s ↔ Q s) {t : Json} :
    t.EachStr P ↔ t.EachStr Q := by
  rw [show P = Q from funext fun s => propext (h s)]

theorem not_surrogate_of_printable {p : CodePoint} (h : Printable p) : isSurrogate p = false := by
  simp only [isSurrogate, decide_eq_false_iff_not]
  have := h.2
  omega

theorem render_printable {sty : Style} (h : sty.ascii = true) (t : Json) :
    ∀ p ∈ t.render sty, Printable p := by
  rw [render_forall (Q := Printable) (fun _ hp => hp),
    eachStr_congr (Q := fun _ => True)]
  · induction t using induct with
    | null | bool b | int i | float f | str s => trivial
    | arr xs ih => exact eachStrItems_iff.mpr ih
    | obj ms ih => exact eachStrMembers_iff.mpr fun m hm => ⟨trivial, ih m hm⟩
  · intro s
    simp only [iff_true]
    intro p hp
    obtain ⟨q, -, hq⟩ := List.mem_flatMap.mp hp
    rcases mem_escapePoint hq with hq | ⟨hf, -⟩
    · exact hq
    · rw [h] at hf
      cases hf

theorem escaped_clean {s : Str} :
    (∀ p ∈ s.flatMap (escapePoint false), isSurrogate p = false) ↔ Clean s := by
  constructor
  · intro h p hp
    by_contra hs
    rw [Bool.not_eq_false] at hs
    have := h p (List.mem_flatMap.mpr ⟨p, hp, surrogate_mem_escapePoint hs⟩)
    rw [hs] at this
    cases this
  · intro h p hp
    obtain ⟨q, hq, hpq⟩ := List.mem_flatMap.mp hp
    rcases mem_escapePoint hpq with hp | ⟨-, rfl⟩
    · exact not_surrogate_of_printable hp
    · exact h p hq

theorem encode_render (sty : Style) (h : sty.ascii = false) (t : Json) :
    (encode (t.render sty)).isSome = true ↔ t.EachStr Clean := by
  rw [encode_isSome, List.all_eq_true]
  simp only [Bool.not_eq_true']
  rw [render_forall (Q := fun p => isSurrogate p = false)
    (fun _ hp => not_surrogate_of_printable hp), h]
  exact eachStr_congr fun _ => escaped_clean

theorem readable_ascii {t : Json} :
    ∀ {depth : Nat}, t.Readable false depth → t.EachStr Clean → t.Readable true depth := by
  induction t using induct with
  | null | bool b | int i | float f =>
      intro depth h _
      exact h
  | str s =>
      intro depth _ h
      exact fun _ => h
  | arr xs ih =>
      intro depth hr hc
      cases depth with
      | zero => exact hr
      | succ d =>
          have hr := readableItems_iff.mp hr
          have hc := eachStrItems_iff.mp hc
          exact readableItems_iff.mpr fun x hx => ih x hx (hr x hx) (hc x hx)
  | obj ms ih =>
      intro depth hr hc
      cases depth with
      | zero => exact hr
      | succ d =>
          have hr := readableMembers_iff.mp hr
          have hc := eachStrMembers_iff.mp hc
          exact readableMembers_iff.mpr fun m hm =>
            ⟨fun _ => (hc m hm).1, ih m hm (hr m hm).2 (hc m hm).2⟩

end Json

end Python
