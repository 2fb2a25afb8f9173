import GovernedAutonomy.Python.Numerals
import GovernedAutonomy.Python.Strings

namespace Python

namespace Json

mutual
def Readable (ascii : Bool) : Nat → Json → Prop
  | _, .null => True
  | _, .bool _ => True
  | _, .int i => (digits i.natAbs).length ≤ maxStrDigits
  | _, .float _ => True
  | _, .str s => Joinable ascii s
  | 0, .arr _ => False
  | depth + 1, .arr xs => ReadableItems ascii depth xs
  | 0, .obj _ => False
  | depth + 1, .obj ms => ReadableMembers ascii depth ms

def ReadableItems (ascii : Bool) : Nat → List Json → Prop
  | _, [] => True
  | depth, x :: xs => Readable ascii depth x ∧ ReadableItems ascii depth xs

def ReadableMembers (ascii : Bool) : Nat → List (Str × Json) → Prop
  | _, [] => True
  | depth, (k, v) :: ms =>
      Joinable ascii k ∧ Readable ascii depth v ∧ ReadableMembers ascii depth ms
end

mutual
def steps : Json → Nat
  | .null => 1
  | .bool _ => 1
  | .int _ => 1
  | .float _ => 1
  | .str _ => 1
  | .arr xs => 1 + stepsItems xs
  | .obj ms => 1 + stepsMembers ms

def stepsItems : List Json → Nat
  | [] => 0
  | x :: xs => 1 + steps x + stepsItems xs

def stepsMembers : List (Str × Json) → Nat
  | [] => 0
  | (_, v) :: ms => 1 + steps v + stepsMembers ms
end

end Json

theorem ne_of_isDigit {p : CodePoint} {c : Char} (h : isDigit p = true)
    (hc : ¬ (48 ≤ c.toNat ∧ c.toNat ≤ 57)) : p ≠ ofChar c := by
  rintro rfl
  simp only [isDigit, decide_eq_true_eq] at h
  exact hc h

def NumberText (s : Str) : Prop := ∃ neg d t, s = signText neg ++ d :: t ∧ isDigit d = true

theorem numberText_of_whole {whole : Str} (h : Whole whole) (neg : Bool) (t : Str) :
    NumberText (signText neg ++ (whole ++ t)) := by
  obtain ⟨hall, hne, -⟩ := h
  cases whole with
  | nil => exact absurd rfl hne
  | cons d w => exact ⟨neg, d, w ++ t, rfl, hall d (by simp)⟩

def Opens (s : Str) : Prop :=
  ∃ p t, s = p :: t ∧ isSpace p = false ∧ p ≠ ofChar ']'

theorem NumberText.head {s : Str} (h : NumberText s) :
    ∃ p t, s = p :: t ∧ isSpace p = false ∧ p ≠ ofChar ']' ∧ p ≠ ofChar '"' ∧ p ≠ ofChar '[' ∧
      p ≠ ofChar '{' := by
  obtain ⟨neg, d, t, rfl, hd⟩ := h
  cases neg with
  | true => exact ⟨ofChar '-', d :: t, rfl, by decide⟩
  | false =>
      refine ⟨d, t, rfl, ?_, ne_of_isDigit hd (by decide), ne_of_isDigit hd (by decide),
        ne_of_isDigit hd (by decide), ne_of_isDigit hd (by decide)⟩
      simp [isSpace, ne_of_isDigit (c := ' ') hd (by decide),
        ne_of_isDigit (c := '\t') hd (by decide), ne_of_isDigit (c := '\n') hd (by decide),
        ne_of_isDigit (c := '\r') hd (by decide)]

theorem stripPrefix_ne {p q : CodePoint} (h : p ≠ q) (ps s : Str) :
    stripPrefix (p :: ps) (q :: s) = none := by
  simp [stripPrefix, h]

theorem NumberText.parseScalar {s : Str} (h : NumberText s) : parseScalar s = parseNumber s := by
  obtain ⟨neg, d, t, rfl, hd⟩ := h
  have hI := (ne_of_isDigit (c := 'I') hd (by decide)).symm
  have hN := (ne_of_isDigit (c := 'N') hd (by decide)).symm
  have hn := (ne_of_isDigit (c := 'n') hd (by decide)).symm
  have ht := (ne_of_isDigit (c := 't') hd (by decide)).symm
  have hf := (ne_of_isDigit (c := 'f') hd (by decide)).symm
  have hm := (ne_of_isDigit (c := '-') hd (by decide)).symm
  have hnone : keywords.findSome?
      (fun w => (stripPrefix w.1 (signText neg ++ d :: t)).map (fun u => (w.2, u))) = none := by
    rw [List.findSome?_eq_none_iff]
    intro w hw
    rw [Option.map_eq_none_iff]
    simp only [keywords, List.mem_cons, List.not_mem_nil, or_false] at hw
    cases neg with
    | true =>
        rcases hw with rfl | rfl | rfl | rfl | rfl | rfl
        · exact stripPrefix_ne (by decide) _ _
        · exact stripPrefix_ne (by decide) _ _
        · exact stripPrefix_ne (by decide) _ _
        · exact stripPrefix_ne (by decide) _ _
        · exact stripPrefix_ne (by decide) _ _
        · exact stripPrefix_ne hI _ _
    | false =>
        rcases hw with rfl | rfl | rfl | rfl | rfl | rfl
        · exact stripPrefix_ne hn _ _
        · exact stripPrefix_ne ht _ _
        · exact stripPrefix_ne hf _ _
        · exact stripPrefix_ne hN _ _
        · exact stripPrefix_ne hI _ _
        · exact stripPrefix_ne hm _ _
  rw [Python.parseScalar, hnone]

theorem NumberText.parseValue {s : Str} (h : NumberText s) (depth fuel : Nat) :
    parseValue depth (fuel + 1) s = parseNumber s := by
  rw [← h.parseScalar]
  obtain ⟨p, t, rfl, -, -, h₁, h₂, h₃⟩ := h.head
  rw [Python.parseValue.eq_def]
  simp only [h₁, h₂, h₃, if_false]

theorem intRepr_eq (i : ℤ) :
    ∃ (neg : Bool) (n : Nat), i = (if neg then -(n : ℤ) else n) ∧ i.natAbs = n ∧
      intRepr i = signText neg ++ digits n := by
  cases i with
  | ofNat n => exact ⟨false, n, rfl, rfl, rfl⟩
  | negSucc n => exact ⟨true, n + 1, rfl, rfl, rfl⟩

theorem parseValue_int {i : ℤ} (h : (digits i.natAbs).length ≤ maxStrDigits) {rest : Str}
    (hr : Stops rest) (depth fuel : Nat) :
    parseValue depth (fuel + 1) (intRepr i ++ rest) = .ok (.int i, rest) := by
  obtain ⟨neg, n, hi, hn, htext⟩ := intRepr_eq i
  rw [hn] at h
  rw [htext, List.append_assoc, (numberText_of_whole (whole_digits n) neg rest).parseValue,
    parseNumber_int neg hr h, ← hi]

theorem floatText_finite (neg : Bool) (m : Magnitude) :
    ∃ whole t, floatText (.finite neg m) = signText neg ++ (whole ++ t) ∧ Whole whole := by
  obtain ⟨whole, frac, exp, htext, hw, -⟩ :=
    magnitudeRepr_shape (e := m.exp) (magnitude_zero_exp m)
  refine ⟨whole, fractionText frac ++ exponentText exp, ?_, hw⟩
  rw [floatText, htext]
  rfl

theorem parseValue_float (f : PyFloat) {rest : Str} (hr : Stops rest) (depth fuel : Nat) :
    parseValue depth (fuel + 1) (floatText f ++ rest) = .ok (.float f, rest) := by
  cases f with
  | nan => rfl
  | inf neg => cases neg <;> rfl
  | finite neg m =>
      obtain ⟨whole, t, htext, hw⟩ := floatText_finite neg m
      have hnum : NumberText (floatText (.finite neg m) ++ rest) := by
        rw [htext, List.append_assoc, List.append_assoc]
        exact numberText_of_whole hw neg (t ++ rest)
      rw [hnum.parseValue, parseNumber_finite neg m hr]

theorem Opens.append {s : Str} (h : Opens s) (t : Str) : Opens (s ++ t) := by
  obtain ⟨p, u, rfl, hp⟩ := h
  exact ⟨p, u ++ t, rfl, hp⟩

theorem Opens.skipSpace {s : Str} (h : Opens s) : skipSpace s = s := by
  obtain ⟨p, t, rfl, hp, -⟩ := h
  simp [Python.skipSpace, hp]

theorem opens_quote (ascii : Bool) (s : Str) : Opens (quote ascii s) :=
  ⟨ofChar '"', s.flatMap (escapePoint ascii) ++ lit "\"", rfl, by decide⟩

theorem opens_intRepr (i : ℤ) : Opens (intRepr i) := by
  obtain ⟨neg, n, -, -, htext⟩ := intRepr_eq i
  have hnum := numberText_of_whole (whole_digits n) neg []
  obtain ⟨p, t, heq, hp, hq, -⟩ := hnum.head
  rw [List.append_nil, ← htext] at heq
  exact ⟨p, t, heq, hp, hq⟩

theorem opens_floatText (f : PyFloat) : Opens (floatText f) := by
  cases f with
  | nan => exact ⟨ofChar 'N', lit "aN", rfl, by decide⟩
  | inf neg =>
      cases neg with
      | true => exact ⟨ofChar '-', lit "Infinity", rfl, by decide⟩
      | false => exact ⟨ofChar 'I', lit "nfinity", rfl, by decide⟩
  | finite neg m =>
      obtain ⟨whole, t, htext, hw⟩ := floatText_finite neg m
      obtain ⟨p, u, heq, hp, hq, -⟩ := (numberText_of_whole hw neg t).head
      exact ⟨p, u, htext.trans heq, hp, hq⟩

theorem stops_of_head {p : CodePoint} {rest : Str}
    (h : isDigit p = false ∧ p ≠ ofChar '.' ∧ p ≠ ofChar 'e' ∧ p ≠ ofChar 'E') :
    Stops (p :: rest) := by
  intro q hq
  obtain rfl := Option.some.inj hq
  exact h

theorem stops_nil : Stops [] := by
  intro p hp
  cases hp

variable (sty : Style)

theorem Style.comma_eq : ∃ t, sty.comma = ofChar ',' :: t ∧ ∀ s, Opens s → skipSpace (t ++ s) = s := by
  unfold Style.comma
  split
  · refine ⟨lit " ", rfl, ?_⟩
    intro s hs
    rw [show lit " " ++ s = ofChar ' ' :: s from rfl, skipSpace, List.dropWhile_cons_of_pos rfl]
    exact hs.skipSpace
  · exact ⟨[], rfl, fun s hs => hs.skipSpace⟩

theorem Style.colon_eq : ∃ t, sty.colon = ofChar ':' :: t ∧ ∀ s, Opens s → skipSpace (t ++ s) = s := by
  unfold Style.colon
  split
  · refine ⟨lit " ", rfl, ?_⟩
    intro s hs
    rw [show lit " " ++ s = ofChar ' ' :: s from rfl, skipSpace, List.dropWhile_cons_of_pos rfl]
    exact hs.skipSpace
  · exact ⟨[], rfl, fun s hs => hs.skipSpace⟩

-- how floats are written, and what is read in the place of one
structure FloatFormat where
  text : PyFloat → Str
  read : PyFloat → Json
  opens : ∀ f, Opens (text f)
  parse : ∀ f rest, Stops rest → ∀ depth fuel,
    parseValue depth (fuel + 1) (text f ++ rest) = .ok (read f, rest)

def reprFormat : FloatFormat where
  text := floatText
  read := .float
  opens := opens_floatText
  parse := fun f _ hr depth fuel => parseValue_float f hr depth fuel

namespace Json

variable (fmt : FloatFormat)

mutual
def renderWith : Json → Str
  | .null => lit "null"
  | .bool b => if b then lit "true" else lit "false"
  | .int i => intRepr i
  | .float f => fmt.text f
  | .str s => quote sty.ascii s
  | .arr [] => lit "[]"
  | .arr (x :: xs) => lit "[" ++ renderWith x ++ renderItemsWith xs ++ lit "]"
  | .obj [] => lit "\x7b\x7d"
  | .obj ((k, v) :: ms) =>
      lit "\x7b" ++ quote sty.ascii k ++ sty.colon ++ renderWith v ++ renderMembersWith ms ++
        lit "\x7d"

def renderItemsWith : List Json → Str
  | [] => []
  | x :: xs => sty.comma ++ renderWith x ++ renderItemsWith xs

def renderMembersWith : List (Str × Json) → Str
  | [] => []
  | (k, v) :: ms =>
      sty.comma ++ quote sty.ascii k ++ sty.colon ++ renderWith v ++ renderMembersWith ms
end

mutual
def readWith : Json → Json
  | .float f => fmt.read f
  | .arr xs => .arr (readItemsWith xs)
  | .obj ms => .obj (readMembersWith ms)
  | j => j

def readItemsWith : List Json → List Json
  | [] => []
  | x :: xs => readWith x :: readItemsWith xs

def readMembersWith : List (Str × Json) → List (Str × Json)
  | [] => []
  | (k, v) :: ms => (k, readWith v) :: readMembersWith ms
end

mutual
def hear (ascii : Bool) : Json → Json
  | .str s => .str (heard ascii s)
  | .arr xs => .arr (hearItems ascii xs)
  | .obj ms => .obj (hearMembers ascii ms)
  | j => j

def hearItems (ascii : Bool) : List Json → List Json
  | [] => []
  | x :: xs => hear ascii x :: hearItems ascii xs

def hearMembers (ascii : Bool) : List (Str × Json) → List (Str × Json)
  | [] => []
  | (k, v) :: ms => (heard ascii k, hear ascii v) :: hearMembers ascii ms
end

mutual
theorem hear_eq {ascii : Bool} : ∀ (j : Json) (depth : Nat), j.Readable ascii depth →
    j.hear ascii = j ∧ j.Readable false depth
  | .null, _, _ => ⟨rfl, trivial⟩
  | .bool _, _, _ => ⟨rfl, trivial⟩
  | .int _, _, h => ⟨rfl, h⟩
  | .float _, _, _ => ⟨rfl, trivial⟩
  | .str s, _, h => ⟨by rw [hear, heard_eq h], nofun⟩
  | .arr _, 0, h => absurd h (by simp [Readable])
  | .arr xs, depth + 1, h => by
      obtain ⟨heq, hread⟩ := hearItems_eq xs depth h
      exact ⟨by rw [hear, heq], hread⟩
  | .obj _, 0, h => absurd h (by simp [Readable])
  | .obj ms, depth + 1, h => by
      obtain ⟨heq, hread⟩ := hearMembers_eq ms depth h
      exact ⟨by rw [hear, heq], hread⟩

theorem hearItems_eq {ascii : Bool} : ∀ (xs : List Json) (depth : Nat),
    ReadableItems ascii depth xs → hearItems ascii xs = xs ∧ ReadableItems false depth xs
  | [], _, _ => ⟨rfl, trivial⟩
  | x :: xs, depth, h => by
      obtain ⟨hx, hread⟩ := hear_eq x depth h.1
      obtain ⟨hxs, hreads⟩ := hearItems_eq xs depth h.2
      exact ⟨by rw [hearItems, hx, hxs], hread, hreads⟩

theorem hearMembers_eq {ascii : Bool} : ∀ (ms : List (Str × Json)) (depth : Nat),
    ReadableMembers ascii depth ms → hearMembers ascii ms = ms ∧ ReadableMembers false depth ms
  | [], _, _ => ⟨rfl, trivial⟩
  | (k, v) :: ms, depth, h => by
      obtain ⟨hv, hread⟩ := hear_eq v depth h.2.1
      obtain ⟨hms, hreads⟩ := hearMembers_eq ms depth h.2.2
      exact ⟨by rw [hearMembers, heard_eq h.1, hv, hms], nofun, hread, hreads⟩
end

mutual
theorem renderWith_repr : ∀ j : Json, j.renderWith sty reprFormat = j.render sty
  | .null => rfl
  | .bool _ => rfl
  | .int _ => rfl
  | .float _ => rfl
  | .str _ => rfl
  | .arr [] => rfl
  | .arr (x :: xs) => by
      rw [renderWith, render, renderWith_repr x, renderItemsWith_repr xs]
  | .obj [] => rfl
  | .obj ((k, v) :: ms) => by
      rw [renderWith, render, renderWith_repr v, renderMembersWith_repr ms]

theorem renderItemsWith_repr : ∀ xs : List Json,
    renderItemsWith sty reprFormat xs = renderItems sty xs
  | [] => rfl
  | x :: xs => by rw [renderItemsWith, renderItems, renderWith_repr x, renderItemsWith_repr xs]

theorem renderMembersWith_repr : ∀ ms : List (Str × Json),
    renderMembersWith sty reprFormat ms = renderMembers sty ms
  | [] => rfl
  | (k, v) :: ms => by
      rw [renderMembersWith, renderMembers, renderWith_repr v, renderMembersWith_repr ms]
end

mutual
theorem readWith_repr : ∀ j : Json, j.readWith reprFormat = j
  | .null => rfl
  | .bool _ => rfl
  | .int _ => rfl
  | .float _ => rfl
  | .str _ => rfl
  | .arr xs => by rw [readWith, readItemsWith_repr xs]
  | .obj ms => by rw [readWith, readMembersWith_repr ms]

theorem readItemsWith_repr : ∀ xs : List Json, readItemsWith reprFormat xs = xs
  | [] => rfl
  | x :: xs => by rw [readItemsWith, readWith_repr x, readItemsWith_repr xs]

theorem readMembersWith_repr : ∀ ms : List (Str × Json), readMembersWith reprFormat ms = ms
  | [] => rfl
  | (k, v) :: ms => by rw [readMembersWith, readWith_repr v, readMembersWith_repr ms]
end

theorem opens_renderWith (j : Json) : Opens (j.renderWith sty fmt) := by
  cases j with
  | null => exact ⟨ofChar 'n', lit "ull", rfl, by decide⟩
  | bool b =>
      cases b with
      | true => exact ⟨ofChar 't', lit "rue", rfl, by decide⟩
      | false => exact ⟨ofChar 'f', lit "alse", rfl, by decide⟩
  | int i => exact opens_intRepr i
  | float f => exact fmt.opens f
  | str s => exact opens_quote sty.ascii s
  | arr xs =>
      cases xs with
      | nil => exact ⟨ofChar '[', lit "]", rfl, by decide⟩
      | cons x xs => exact ⟨ofChar '[', _, rfl, by decide⟩
  | obj ms =>
      cases ms with
      | nil => exact ⟨ofChar '{', lit "\x7d", rfl, by decide⟩
      | cons m ms => exact ⟨ofChar '{', _, rfl, by decide⟩

theorem length_pos_of_opens {s : Str} (h : Opens s) : 0 < s.length := by
  obtain ⟨p, t, rfl, -⟩ := h
  simp

theorem comma_pos : 0 < sty.comma.length := by
  obtain ⟨t, h, -⟩ := sty.comma_eq
  simp [h]

mutual
theorem steps_le_renderWith : ∀ j : Json, j.steps ≤ (j.renderWith sty fmt).length
  | .null => length_pos_of_opens (opens_renderWith sty fmt .null)
  | .bool b => length_pos_of_opens (opens_renderWith sty fmt (.bool b))
  | .int i => length_pos_of_opens (opens_renderWith sty fmt (.int i))
  | .float f => length_pos_of_opens (opens_renderWith sty fmt (.float f))
  | .str s => length_pos_of_opens (opens_renderWith sty fmt (.str s))
  | .arr [] => length_pos_of_opens (opens_renderWith sty fmt (.arr []))
  | .arr (x :: xs) => by
      have hx := steps_le_renderWith x
      have hxs := stepsItems_le_renderWith xs
      have hb : (lit "[").length = 1 ∧ (lit "]").length = 1 := ⟨rfl, rfl⟩
      simp only [steps, stepsItems, renderWith, List.length_append]
      omega
  | .obj [] => length_pos_of_opens (opens_renderWith sty fmt (.obj []))
  | .obj ((k, v) :: ms) => by
      have hv := steps_le_renderWith v
      have hms := stepsMembers_le_renderWith ms
      have hb : (lit "\x7b").length = 1 ∧ (lit "\x7d").length = 1 := ⟨rfl, rfl⟩
      simp only [steps, stepsMembers, renderWith, List.length_append]
      omega

theorem stepsItems_le_renderWith : ∀ xs : List Json,
    stepsItems xs ≤ (renderItemsWith sty fmt xs).length
  | [] => Nat.zero_le _
  | x :: xs => by
      have hx := steps_le_renderWith x
      have hxs := stepsItems_le_renderWith xs
      have hc := comma_pos sty
      simp only [stepsItems, renderItemsWith, List.length_append]
      omega

theorem stepsMembers_le_renderWith : ∀ ms : List (Str × Json),
    stepsMembers ms ≤ (renderMembersWith sty fmt ms).length
  | [] => Nat.zero_le _
  | (k, v) :: ms => by
      have hv := steps_le_renderWith v
      have hms := stepsMembers_le_renderWith ms
      have hc := comma_pos sty
      simp only [stepsMembers, renderMembersWith, List.length_append]
      omega
end

theorem stops_renderItemsWith (xs : List Json) (rest : Str) :
    Stops (renderItemsWith sty fmt xs ++ (lit "]" ++ rest)) := by
  cases xs with
  | nil => exact stops_of_head (by decide)
  | cons x xs =>
      obtain ⟨t, h, -⟩ := sty.comma_eq
      simp only [renderItemsWith, h, List.append_assoc, List.cons_append]
      exact stops_of_head (by decide)

theorem stops_renderMembersWith (ms : List (Str × Json)) (rest : Str) :
    Stops (renderMembersWith sty fmt ms ++ (lit "\x7d" ++ rest)) := by
  cases ms with
  | nil => exact stops_of_head (by decide)
  | cons m ms =>
      obtain ⟨t, h, -⟩ := sty.comma_eq
      simp only [renderMembersWith, h, List.append_assoc, List.cons_append]
      exact stops_of_head (by decide)

theorem head_ne_of_opens {s : Str} (h : Opens s) : s.head? ≠ some (ofChar ']') := by
  obtain ⟨p, t, rfl, -, hp⟩ := h
  simpa using hp

theorem quote_append (s rest : Str) : quote sty.ascii s ++ rest =
    ofChar '"' :: (s.flatMap (escapePoint sty.ascii) ++ (lit "\"" ++ rest)) := by
  simp only [quote, List.append_assoc]
  rfl

mutual
theorem parseValue_renderWith : ∀ (j : Json) (depth fuel : Nat) (rest : Str),
    j.Readable false depth → j.steps ≤ fuel → Stops rest →
      parseValue depth fuel (j.renderWith sty fmt ++ rest) =
        .ok ((j.hear sty.ascii).readWith fmt, rest)
  | j, depth, 0, rest, _, hf, _ => by
      exact absurd hf (by cases j <;> simp [steps])
  | .null, _, _ + 1, _, _, _, _ => by rw [parseValue.eq_def]; rfl
  | .bool true, _, _ + 1, _, _, _, _ => by rw [parseValue.eq_def]; rfl
  | .bool false, _, _ + 1, _, _, _, _ => by rw [parseValue.eq_def]; rfl
  | .int i, depth, fuel + 1, rest, hj, _, hr => parseValue_int hj hr depth fuel
  | .float f, depth, fuel + 1, rest, _, _, hr => fmt.parse f rest hr depth fuel
  | .str s, depth, fuel + 1, rest, hj, _, _ => by
      rw [renderWith, quote_append, parseValue.eq_def]
      simp only [if_true, scanString_quoted]
      rfl
  | .arr xs, 0, _ + 1, _, hj, _, _ => absurd hj (by simp [Readable])
  | .arr [], depth + 1, fuel + 1, rest, _, _, _ => by rw [parseValue.eq_def]; rfl
  | .arr (x :: xs), depth + 1, fuel + 1, rest, hj, hf, _ => by
      have hitems := parseItems_renderWith x xs depth fuel rest hj.1 hj.2
        (by simp only [steps, stepsItems] at hf; omega)
      have hopen := (opens_renderWith sty fmt x).append
        (renderItemsWith sty fmt xs ++ (lit "]" ++ rest))
      have htext : (Json.arr (x :: xs)).renderWith sty fmt ++ rest =
          ofChar '[' ::
            (x.renderWith sty fmt ++ (renderItemsWith sty fmt xs ++ (lit "]" ++ rest))) := by
        simp only [renderWith, List.append_assoc]
        rfl
      rw [htext, parseValue, if_neg (by decide), if_pos rfl, hopen.skipSpace,
        if_neg (head_ne_of_opens hopen), hitems]
      rfl
  | .obj ms, 0, _ + 1, _, hj, _, _ => absurd hj (by simp [Readable])
  | .obj [], depth + 1, fuel + 1, rest, _, _, _ => by rw [parseValue.eq_def]; rfl
  | .obj ((k, v) :: ms), depth + 1, fuel + 1, rest, hj, hf, _ => by
      have hmembers := parseMembers_renderWith k v ms depth fuel rest hj.2.1 hj.2.2
        (by simp only [steps, stepsMembers] at hf; omega)
      have htext : (Json.obj ((k, v) :: ms)).renderWith sty fmt ++ rest =
          ofChar '{' :: (quote sty.ascii k ++ (sty.colon ++
            (v.renderWith sty fmt ++ (renderMembersWith sty fmt ms ++ (lit "\x7d" ++ rest))))) := by
        simp only [renderWith, List.append_assoc]
        rfl
      have hopen := (opens_quote sty.ascii k).append (sty.colon ++
            (v.renderWith sty fmt ++ (renderMembersWith sty fmt ms ++ (lit "\x7d" ++ rest))))
      rw [htext, parseValue, if_neg (by decide), if_neg (by decide), if_pos rfl, hopen.skipSpace,
        if_neg (by rw [quote_append, List.head?_cons]; decide), hmembers]
      rfl

theorem parseItems_renderWith : ∀ (x : Json) (xs : List Json) (depth fuel : Nat) (rest : Str),
    x.Readable false depth → ReadableItems false depth xs →
      1 + x.steps + stepsItems xs ≤ fuel →
        parseItems depth fuel
            (x.renderWith sty fmt ++ (renderItemsWith sty fmt xs ++ (lit "]" ++ rest))) =
          .ok ((x.hear sty.ascii).readWith fmt :: readItemsWith fmt (hearItems sty.ascii xs), rest)
  | x, xs, depth, 0, rest, _, _, hf => by omega
  | x, [], depth, fuel + 1, rest, hx, _, hf => by
      have hv := parseValue_renderWith x depth fuel (lit "]" ++ rest) hx (by omega)
        (stops_renderItemsWith sty fmt [] rest)
      rw [parseItems, renderItemsWith, List.nil_append, hv]
      rfl
  | x, y :: ys, depth, fuel + 1, rest, hx, hys, hf => by
      have hv := parseValue_renderWith x depth fuel
        (renderItemsWith sty fmt (y :: ys) ++ (lit "]" ++ rest)) hx (by omega)
        (stops_renderItemsWith sty fmt (y :: ys) rest)
      have hitems := parseItems_renderWith y ys depth fuel rest hys.1 hys.2
        (by simp only [stepsItems] at hf; omega)
      obtain ⟨t, hcomma, hskip⟩ := sty.comma_eq
      have htext : renderItemsWith sty fmt (y :: ys) ++ (lit "]" ++ rest) =
          ofChar ',' :: (t ++ (y.renderWith sty fmt ++
            (renderItemsWith sty fmt ys ++ (lit "]" ++ rest)))) := by
        simp only [renderItemsWith, hcomma, List.append_assoc, List.cons_append]
      have hspace : isSpace (ofChar ',') = false := by decide
      have hne : ¬ ofChar ',' = ofChar ']' := by decide
      rw [parseItems, hv]
      simp only [htext, skipSpace, List.dropWhile_cons, hspace, Bool.false_eq_true, if_false, hne,
        if_true, bind, Except.bind]
      rw [← skipSpace, hskip _ ((opens_renderWith sty fmt y).append _), hitems]
      rfl

theorem parseMembers_renderWith : ∀ (k : Str) (v : Json) (ms : List (Str × Json)) (depth fuel : Nat)
    (rest : Str), v.Readable false depth → ReadableMembers false depth ms →
      1 + v.steps + stepsMembers ms ≤ fuel →
        parseMembers depth fuel (quote sty.ascii k ++ (sty.colon ++ (v.renderWith sty fmt ++
          (renderMembersWith sty fmt ms ++ (lit "\x7d" ++ rest))))) =
            .ok ((heard sty.ascii k, (v.hear sty.ascii).readWith fmt) ::
              readMembersWith fmt (hearMembers sty.ascii ms), rest)
  | k, v, ms, depth, 0, rest, _, _, hf => by omega
  | k, v, [], depth, fuel + 1, rest, hv, _, hf => by
      have hval := parseValue_renderWith v depth fuel (lit "\x7d" ++ rest) hv (by omega)
        (stops_renderMembersWith sty fmt [] rest)
      obtain ⟨t, hcolon, hskip⟩ := sty.colon_eq
      have hspace : isSpace (ofChar ':') = false := by decide
      rw [quote_append, parseMembers, if_pos rfl, scanString_quoted, renderMembersWith,
        List.nil_append, hcolon]
      simp only [List.cons_append, skipSpace, List.dropWhile_cons, hspace, Bool.false_eq_true,
        if_false, if_true, bind, Except.bind]
      rw [← skipSpace, hskip _ ((opens_renderWith sty fmt v).append _), hval]
      rfl
  | k, v, (k', v') :: ms, depth, fuel + 1, rest, hv, hms, hf => by
      have hval := parseValue_renderWith v depth fuel
        (renderMembersWith sty fmt ((k', v') :: ms) ++ (lit "\x7d" ++ rest)) hv (by omega)
        (stops_renderMembersWith sty fmt ((k', v') :: ms) rest)
      have hmembers := parseMembers_renderWith k' v' ms depth fuel rest hms.2.1 hms.2.2
        (by simp only [stepsMembers] at hf; omega)
      obtain ⟨t, hcolon, hskip⟩ := sty.colon_eq
      obtain ⟨u, hcomma, hskip'⟩ := sty.comma_eq
      have hspace : isSpace (ofChar ':') = false := by decide
      have hspace' : isSpace (ofChar ',') = false := by decide
      have hne : ¬ ofChar ',' = ofChar '}' := by decide
      have htext : renderMembersWith sty fmt ((k', v') :: ms) ++ (lit "\x7d" ++ rest) =
          ofChar ',' :: (u ++ (quote sty.ascii k' ++ (sty.colon ++ (v'.renderWith sty fmt ++
            (renderMembersWith sty fmt ms ++ (lit "\x7d" ++ rest)))))) := by
        simp only [renderMembersWith, hcomma, List.append_assoc, List.cons_append]
      rw [quote_append, parseMembers, if_pos rfl, scanString_quoted]
      simp only [hcolon, List.cons_append, skipSpace, List.dropWhile_cons, hspace,
        Bool.false_eq_true, if_false, if_true, bind, Except.bind]
      rw [← skipSpace, hskip _ ((opens_renderWith sty fmt v).append _), hval]
      simp only [htext, List.dropWhile_cons, hspace', Bool.false_eq_true, if_false, if_true, hne]
      rw [← skipSpace, hskip' _ ((opens_quote sty.ascii k').append _), hmembers]
      rfl
end

theorem parseDocument_renderWith_hear {j : Json} {depth : Nat} (h : j.Readable false depth) :
    parseDocument depth (j.renderWith sty fmt) = .ok ((j.hear sty.ascii).readWith fmt) := by
  have hsteps := steps_le_renderWith sty fmt j
  have hv := parseValue_renderWith sty fmt j depth (2 * (j.renderWith sty fmt).length + 2) [] h
    (by omega) stops_nil
  rw [List.append_nil] at hv
  rw [parseDocument, (opens_renderWith sty fmt j).skipSpace, hv]
  rfl

theorem parseDocument_renderWith {j : Json} {depth : Nat} (h : j.Readable sty.ascii depth) :
    parseDocument depth (j.renderWith sty fmt) = .ok (j.readWith fmt) := by
  obtain ⟨heq, hread⟩ := hear_eq j depth h
  rw [parseDocument_renderWith_hear sty fmt hread, heq]

theorem parseDocument_render {j : Json} {depth : Nat} (h : j.Readable sty.ascii depth) :
    parseDocument depth (j.render sty) = .ok j := by
  rw [← renderWith_repr sty j, parseDocument_renderWith sty reprFormat h, readWith_repr]

end Json

end Python
