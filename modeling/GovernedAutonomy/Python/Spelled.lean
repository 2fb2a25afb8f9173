import GovernedAutonomy.Python.Content
import GovernedAutonomy.Python.Exception
import GovernedAutonomy.Python.Surrogates

namespace Python

namespace Json.Clean

variable {s t : Str}

theorem subset (h : Clean s) (ht : t ⊆ s) : Clean t := fun p hp => h p (ht hp)

theorem tail {p : CodePoint} (h : Clean (p :: s)) : Clean s :=
  h.subset (List.subset_cons_self p s)

theorem skipSpace (h : Clean s) : Clean (skipSpace s) :=
  h.subset (List.dropWhile_sublist _).subset

end Json.Clean

theorem shortEscape_clean {q n : CodePoint} (h : shortEscape? q = some n) :
    isSurrogate n = false := by
  unfold shortEscape? at h
  split at h
  · rename_i hq
    obtain rfl := Option.some.inj h
    rcases hq with rfl | rfl | rfl <;> decide
  · repeat' split at h
    all_goals first
      | (obtain rfl := Option.some.inj h; decide)
      | cases h

-- what stands in a string without an escape is no surrogate
theorem scanUnits_clean {s : Str} : ∀ {us t}, scanUnits s = some (us, t) → Json.Clean s →
    Json.Clean t ∧ ∀ u ∈ us, u.2 = false → isSurrogate u.1 = false := by
  induction s using scanUnits.induct with
  | case1 =>
      intro us t h
      cases h
  | case2 rest =>
      intro us t h hs
      rw [scanUnits.eq_def] at h
      simp only [if_true, Option.some.injEq, Prod.mk.injEq] at h
      obtain ⟨rfl, rfl⟩ := h
      exact ⟨hs.tail, by simp⟩
  | case3 hne =>
      intro us t h
      rw [scanUnits.eq_def] at h
      simp only [if_neg hne, if_true] at h
      cases h
  | case4 a b c d rest hne ih =>
      intro us t h hs
      rw [scanUnits, if_neg hne, if_pos rfl] at h
      simp only [if_true, Option.bind_eq_bind, Option.bind_eq_some_iff, Option.some.injEq,
        Prod.mk.injEq] at h
      obtain ⟨n, -, ⟨us', t'⟩, hrest, rfl, rfl⟩ := h
      obtain ⟨ht, hus⟩ := ih hrest hs.tail.tail.tail.tail.tail.tail
      exact ⟨ht, List.forall_mem_cons.mpr ⟨by simp, hus⟩⟩
  | case5 rest hshort hne =>
      intro us t h
      rw [scanUnits, if_neg hne, if_pos rfl, if_pos rfl] at h
      · cases h
      · exact hshort
  | case6 q rest hq hne ih =>
      intro us t h hs
      rw [scanUnits.eq_def] at h
      simp only [if_neg hne, if_true, if_neg hq, Option.bind_eq_bind, Option.bind_eq_some_iff, Option.some.injEq,
        Prod.mk.injEq] at h
      obtain ⟨n, hn, ⟨us', t'⟩, hrest, rfl, rfl⟩ := h
      obtain ⟨ht, hus⟩ := ih hrest hs.tail.tail
      exact ⟨ht, List.forall_mem_cons.mpr ⟨fun _ => shortEscape_clean hn, hus⟩⟩
  | case7 p rest hquote hescape hcontrol =>
      intro us t h
      rw [scanUnits.eq_def] at h
      simp only [if_neg hquote, if_neg hescape, if_pos hcontrol] at h
      cases h
  | case8 p rest hquote hescape hcontrol ih =>
      intro us t h hs
      rw [scanUnits.eq_def] at h
      simp only [if_neg hquote, if_neg hescape, if_neg hcontrol, Option.bind_eq_bind, Option.bind_eq_some_iff, Option.some.injEq,
        Prod.mk.injEq] at h
      obtain ⟨⟨us', t'⟩, hrest, rfl, rfl⟩ := h
      obtain ⟨ht, hus⟩ := ih hrest hs.tail
      exact ⟨ht, List.forall_mem_cons.mpr ⟨fun _ => hs p List.mem_cons_self, hus⟩⟩

theorem scanString_clean {s t u : Str} (h : scanString s = .ok (u, t)) (hs : Json.Clean s) :
    Unpaired u ∧ Json.Clean t := by
  unfold scanString at h
  split at h
  · rename_i us rest hunits
    obtain ⟨rfl, rfl⟩ := Prod.mk.inj (Except.ok.inj h)
    obtain ⟨ht, hus⟩ := scanUnits_clean hunits hs
    exact ⟨unpaired_joinPairs hus, ht⟩
  · cases h

theorem takeSign_subset (minus : CodePoint) (s : Str) : (takeSign minus s).2 ⊆ s := by
  cases s with
  | nil => exact List.Subset.refl _
  | cons p s =>
      rw [takeSign]
      split
      · exact List.subset_cons_self p s
      · exact List.Subset.refl _

theorem dropDigits_subset (s : Str) : s.dropWhile isDigit ⊆ s := (List.dropWhile_sublist _).subset

theorem takeInteger_subset {s whole t : Str} (h : takeInteger s = some (whole, t)) : t ⊆ s := by
  unfold takeInteger at h
  split at h
  · cases h
  · rename_i p rest
    split at h
    · obtain ⟨-, rfl⟩ := Prod.mk.inj (Option.some.inj h)
      exact List.subset_cons_self p rest
    · split at h
      · obtain ⟨-, rfl⟩ := Prod.mk.inj (Option.some.inj h)
        exact dropDigits_subset _
      · cases h

theorem takeFraction_subset (s : Str) : (takeFraction s).2 ⊆ s := by
  cases s with
  | nil => exact List.Subset.refl _
  | cons p s =>
      rw [takeFraction]
      split
      · exact List.Subset.trans (dropDigits_subset s) (List.subset_cons_self p s)
      · exact List.Subset.refl _

theorem takeExponent_subset (s : Str) : (takeExponent s).2 ⊆ s := by
  cases s with
  | nil => exact List.Subset.refl _
  | cons p s =>
      rw [takeExponent]
      split
      · have hsign := takeSign_subset (ofChar '-') s
        have hplus := takeSign_subset (ofChar '+') s
        generalize takeSign (ofChar '-') s = sign at hsign ⊢
        obtain ⟨neg, unsigned⟩ := sign
        have hbody : (if neg then unsigned else (takeSign (ofChar '+') s).2) ⊆ p :: s := by
          refine List.Subset.trans ?_ (List.subset_cons_self p s)
          split
          · exact hsign
          · exact hplus
        dsimp only
        generalize (if neg then unsigned else (takeSign (ofChar '+') s).2) = body at hbody ⊢
        split
        · exact List.Subset.trans (dropDigits_subset body) hbody
        · exact List.Subset.refl _
      · exact List.Subset.refl _

theorem stripPrefix_subset {w s t : Str} (h : stripPrefix w s = some t) : t ⊆ s := by
  induction w generalizing s with
  | nil =>
      obtain rfl := Option.some.inj h
      exact List.Subset.refl _
  | cons p w ih =>
      cases s with
      | nil => cases h
      | cons q s =>
          rw [stripPrefix] at h
          split at h
          · exact List.Subset.trans (ih h) (List.subset_cons_self q s)
          · cases h

theorem parseNumber_subset {s t : Str} {j : Json} (h : parseNumber s = .ok (j, t)) :
    t ⊆ s ∧ j.EachStr Unpaired := by
  unfold parseNumber at h
  have hsign := takeSign_subset (ofChar '-') s
  generalize takeSign (ofChar '-') s = sign at h hsign
  obtain ⟨neg, body⟩ := sign
  dsimp only at h hsign
  split at h
  · cases h
  · rename_i whole r hwhole
    have hr := takeInteger_subset hwhole
    have hfrac := takeFraction_subset r
    generalize takeFraction r = fraction at h hfrac
    obtain ⟨frac, r'⟩ := fraction
    dsimp only at h hfrac
    have hexp := takeExponent_subset r'
    generalize takeExponent r' = exponent at h hexp
    obtain ⟨exp, r''⟩ := exponent
    dsimp only at h hexp
    have hall : r'' ⊆ s :=
      List.Subset.trans hexp (List.Subset.trans hfrac (List.Subset.trans hr hsign))
    split at h
    · split at h
      · cases h
      · obtain ⟨rfl, rfl⟩ := Prod.mk.inj (Except.ok.inj h)
        exact ⟨hall, trivial⟩
    · obtain ⟨rfl, rfl⟩ := Prod.mk.inj (Except.ok.inj h)
      exact ⟨hall, trivial⟩

theorem parseScalar_subset {s t : Str} {j : Json} (h : parseScalar s = .ok (j, t)) :
    t ⊆ s ∧ j.EachStr Unpaired := by
  unfold parseScalar at h
  split at h
  · rename_i r hr
    obtain rfl := Except.ok.inj h
    obtain ⟨w, hw, hstrip⟩ := List.exists_of_findSome?_eq_some hr
    obtain ⟨t', ht', heq⟩ := Option.map_eq_some_iff.mp hstrip
    obtain ⟨rfl, rfl⟩ := Prod.mk.inj heq
    refine ⟨stripPrefix_subset ht', ?_⟩
    simp only [keywords, List.mem_cons, List.not_mem_nil, or_false] at hw
    rcases hw with rfl | rfl | rfl | rfl | rfl | rfl <;> trivial
  · exact parseNumber_subset h

-- the induction is on the fuel that the three readers share
theorem parse_spelled : ∀ fuel : Nat,
    (∀ depth s j t, parseValue depth fuel s = .ok (j, t) → Json.Clean s → j.EachStr Unpaired ∧ Json.Clean t) ∧
    (∀ depth s xs t, parseItems depth fuel s = .ok (xs, t) → Json.Clean s →
      Json.EachStrItems Unpaired xs ∧ Json.Clean t) ∧
    (∀ depth s ms t, parseMembers depth fuel s = .ok (ms, t) → Json.Clean s →
      Json.EachStrMembers Unpaired ms ∧ Json.Clean t) := by
  intro fuel
  induction fuel with
  | zero =>
      refine ⟨?_, ?_, ?_⟩
      · intro depth s j t h
        rw [parseValue] at h
        cases h
      · intro depth s xs t h
        rw [parseItems] at h
        cases h
      · intro depth s ms t h
        rw [parseMembers] at h
        cases h
  | succ fuel ih =>
      obtain ⟨hvalue, hitems, hmembers⟩ := ih
      refine ⟨?_, ?_, ?_⟩
      · intro depth s j t h hs
        cases s with
        | nil =>
            rw [parseValue] at h
            cases h
        | cons p rest =>
            have hrest := hs.tail
            rw [parseValue.eq_def] at h
            dsimp only at h
            split at h
            · obtain ⟨⟨u, t'⟩, hscan, h⟩ := bind_eq_ok.mp h
              obtain ⟨rfl, rfl⟩ := Prod.mk.inj (Except.ok.inj h)
              exact scanString_clean hscan hrest
            · split at h
              · cases depth with
                | zero => cases h
                | succ depth =>
                    dsimp only at h
                    split at h
                    · obtain ⟨rfl, rfl⟩ := Prod.mk.inj (Except.ok.inj h)
                      exact ⟨trivial, hrest.skipSpace.subset (List.tail_sublist _).subset⟩
                    · obtain ⟨⟨xs, t'⟩, hxs, h⟩ := bind_eq_ok.mp h
                      obtain ⟨rfl, rfl⟩ := Prod.mk.inj (Except.ok.inj h)
                      exact hitems depth _ _ _ hxs hrest.skipSpace
              · split at h
                · cases depth with
                  | zero => cases h
                  | succ depth =>
                      dsimp only at h
                      split at h
                      · obtain ⟨rfl, rfl⟩ := Prod.mk.inj (Except.ok.inj h)
                        exact ⟨trivial, hrest.skipSpace.subset (List.tail_sublist _).subset⟩
                      · obtain ⟨⟨ms, t'⟩, hms, h⟩ := bind_eq_ok.mp h
                        obtain ⟨rfl, rfl⟩ := Prod.mk.inj (Except.ok.inj h)
                        exact hmembers depth _ _ _ hms hrest.skipSpace
                · obtain ⟨hsub, hj⟩ := parseScalar_subset h
                  exact ⟨hj, hs.subset hsub⟩
      · intro depth s xs t h hs
        rw [parseItems] at h
        obtain ⟨⟨x, t'⟩, hx, h⟩ := bind_eq_ok.mp h
        obtain ⟨hspelled, ht'⟩ := hvalue depth _ _ _ hx hs
        have hnext := ht'.skipSpace
        dsimp only at h
        split at h
        · cases h
        · rename_i q u hskip
          rw [hskip] at hnext
          split at h
          · obtain ⟨rfl, rfl⟩ := Prod.mk.inj (Except.ok.inj h)
            exact ⟨⟨hspelled, trivial⟩, hnext.tail⟩
          · split at h
            · obtain ⟨⟨ys, v⟩, hys, h⟩ := bind_eq_ok.mp h
              obtain ⟨rfl, rfl⟩ := Prod.mk.inj (Except.ok.inj h)
              obtain ⟨hspelleds, hv⟩ := hitems depth _ _ _ hys hnext.tail.skipSpace
              exact ⟨⟨hspelled, hspelleds⟩, hv⟩
            · cases h
      · intro depth s ms t h hs
        cases s with
        | nil =>
            rw [parseMembers] at h
            cases h
        | cons p rest =>
            rw [parseMembers] at h
            split at h
            · obtain ⟨⟨k, t'⟩, hk, h⟩ := bind_eq_ok.mp h
              obtain ⟨hkey, ht'⟩ := scanString_clean hk hs.tail
              have hcolon := ht'.skipSpace
              dsimp only at h
              split at h
              · cases h
              · rename_i c u hskip
                rw [hskip] at hcolon
                split at h
                · obtain ⟨⟨x, r⟩, hx, h⟩ := bind_eq_ok.mp h
                  obtain ⟨hspelled, hr⟩ := hvalue depth _ _ _ hx hcolon.tail.skipSpace
                  have hnext := hr.skipSpace
                  dsimp only at h
                  split at h
                  · cases h
                  · rename_i q w hskip'
                    rw [hskip'] at hnext
                    split at h
                    · obtain ⟨rfl, rfl⟩ := Prod.mk.inj (Except.ok.inj h)
                      exact ⟨⟨hkey, hspelled, trivial⟩, hnext.tail⟩
                    · split at h
                      · obtain ⟨⟨rest', v⟩, hrest, h⟩ := bind_eq_ok.mp h
                        obtain ⟨rfl, rfl⟩ := Prod.mk.inj (Except.ok.inj h)
                        obtain ⟨hspelleds, hv⟩ := hmembers depth _ _ _ hrest hnext.tail.skipSpace
                        exact ⟨⟨hkey, hspelled, hspelleds⟩, hv⟩
                      · cases h
                · cases h
            · cases h

theorem parseDocument_spelled {depth : Nat} {s : Str} {j : Json}
    (h : parseDocument depth s = .ok j) (hs : Json.Clean s) : j.EachStr Unpaired := by
  obtain ⟨⟨j', t⟩, hvalue, h⟩ := bind_eq_ok.mp h
  dsimp only at h
  split at h
  · obtain rfl := Except.ok.inj h
    exact ((parse_spelled _).1 depth _ _ _ hvalue hs.skipSpace).1
  · cases h

namespace Json

theorem hearItems_self {ascii : Bool} {xs : List Json} (h : ∀ x ∈ xs, x.hear ascii = x) :
    hearItems ascii xs = xs := by
  induction xs with
  | nil => rfl
  | cons x xs ih =>
      obtain ⟨hx, hxs⟩ := List.forall_mem_cons.mp h
      rw [hearItems, hx, ih hxs]

theorem hearMembers_self {ascii : Bool} {ms : List (Str × Json)}
    (h : ∀ m ∈ ms, heard ascii m.1 = m.1 ∧ m.2.hear ascii = m.2) : hearMembers ascii ms = ms := by
  induction ms with
  | nil => rfl
  | cons m ms ih =>
      obtain ⟨⟨hkey, hvalue⟩, hms⟩ := List.forall_mem_cons.mp h
      rw [hearMembers, hkey, hvalue, ih hms]

theorem hear_self {t : Json} (h : t.EachStr Unpaired) : t.hear true = t := by
  induction t using induct with
  | null | bool b | int i | float f => rfl
  | str s => rw [hear, heard_eq_iff.mpr h]
  | arr xs ih =>
      have hall := eachStrItems_iff.mp h
      rw [hear, hearItems_self fun x hx => ih x hx (hall x hx)]
  | obj ms ih =>
      have hall := eachStrMembers_iff.mp h
      rw [hear, hearMembers_self fun m hm =>
        ⟨heard_eq_iff.mpr (hall m hm).1, ih m hm (hall m hm).2⟩]

end Json

theorem Json.Clean.unpaired {s : Str} (h : Json.Clean s) : Unpaired s :=
  heard_eq_iff.mp (heard_eq fun _ => h)

end Python
