import GovernedAutonomy.Python.Encodable

namespace GovernedAutonomy

open Python

def isHexText (s : String) : Bool :=
  !s.toList.isEmpty && s.toList.all (fun c => "0123456789abcdef".toList.contains c)

structure HexDigest where
  text : String
  hex : isHexText text = true
deriving DecidableEq

structure PublicKey where
  raw : List UInt8
deriving DecidableEq

-- the interpreter together with the hash and signature primitives the program calls
structure Primitives extends Interpreter where
  sha256 : String → HexDigest
  edVerify : PublicKey → List UInt8 → String → Bool

def compactStyle : Style := ⟨false, false⟩

variable (P : Primitives)

def canonicalJson (value : PyVal) : Result String := do
  let text ← P.dumps compactStyle value
  match encode text with
  | some bytes => .ok bytes
  | none => .error (.builtin .unicodeEncodeError)

def hexdigest (bytes : String) : Str := lit (P.sha256 bytes).text

def canonicalDigest (value : PyVal) : Result Str := do
  let bytes ← canonicalJson P value
  .ok (hexdigest P bytes)

structure Base64State where
  quad : Nat
  left : Nat
  pads : Nat
  bytes : List UInt8

def base64Value? (p : CodePoint) : Option Nat :=
  if 65 ≤ p.val ∧ p.val ≤ 90 then some (p.val - 65)
  else if 97 ≤ p.val ∧ p.val ≤ 122 then some (p.val - 71)
  else if 48 ≤ p.val ∧ p.val ≤ 57 then some (p.val + 4)
  else if p = ofChar '+' ∨ p = ofChar '-' then some 62
  else if p = ofChar '/' ∨ p = ofChar '_' then some 63
  else none

-- binascii.a2b_base64 outside strict mode: characters of no alphabet are skipped
def a2bBase64 : Base64State → Str → Result (List UInt8)
  | st, [] =>
      if st.quad = 0 then .ok st.bytes
      else if st.quad = 1 then
        .error (.valueError (lit "Invalid base64-encoded string"))
      else .error (.valueError (lit "Incorrect padding"))
  | st, p :: rest =>
      if p = ofChar '=' then
        if st.quad < 2 then a2bBase64 st rest
        else if 4 ≤ st.quad + st.pads + 1 then .ok st.bytes
        else a2bBase64 { st with pads := st.pads + 1 } rest
      else
        match base64Value? p with
        | none => a2bBase64 st rest
        | some n =>
            match st.quad with
            | 0 => a2bBase64 ⟨1, n, 0, st.bytes⟩ rest
            | 1 => a2bBase64 ⟨2, n % 16, 0, st.bytes ++ [UInt8.ofNat (4 * st.left + n / 16)]⟩ rest
            | 2 => a2bBase64 ⟨3, n % 4, 0, st.bytes ++ [UInt8.ofNat (16 * st.left + n / 4)]⟩ rest
            | _ => a2bBase64 ⟨0, 0, 0, st.bytes ++ [UInt8.ofNat (64 * st.left + n)]⟩ rest

def b64decode (value : Str) : Result (List UInt8) :=
  let padded := value ++ List.replicate ((4 - value.length % 4) % 4) (ofChar '=')
  if padded.all (fun p => decide (p.val < 128)) then a2bBase64 ⟨0, 0, 0, []⟩ padded
  else .error (.builtin .unicodeEncodeError)

def base64Char (n : Nat) : CodePoint :=
  ("ABCDEFGHIJKLMNOPQRSTUVWXYZabcdefghijklmnopqrstuvwxyz0123456789-_".toList.map ofChar).getD n
    (ofChar '_')

def b64encode : List UInt8 → Str
  | [] => []
  | [a] => [base64Char (a.toNat / 4), base64Char (a.toNat % 4 * 16)]
  | [a, b] =>
      [base64Char (a.toNat / 4), base64Char (a.toNat % 4 * 16 + b.toNat / 16),
        base64Char (b.toNat % 16 * 4)]
  | a :: b :: c :: rest =>
      base64Char (a.toNat / 4) :: base64Char (a.toNat % 4 * 16 + b.toNat / 16) ::
        base64Char (b.toNat % 16 * 4 + c.toNat / 64) :: base64Char (c.toNat % 64) ::
          b64encode rest

def verifySignature (key : PublicKey) (payload : String) (signature : Str) : Bool :=
  match b64decode signature with
  | .ok raw => P.edVerify key raw payload
  | .error _ => false

theorem canonicalJson_eq_ok {value : PyVal} {bytes : String} :
    canonicalJson P value = .ok bytes ↔
      ∃ t, value.toTree P.recursionLimit = .ok t ∧ encode (t.render compactStyle) = some bytes := by
  simp only [canonicalJson, Interpreter.dumps, bind_eq_ok]
  constructor
  · rintro ⟨text, ⟨t, ht, htext⟩, h⟩
    obtain rfl := Except.ok.inj htext
    split at h
    · rename_i b hb
      obtain rfl := Except.ok.inj h
      exact ⟨t, ht, hb⟩
    · cases h
  · rintro ⟨t, ht, hb⟩
    exact ⟨t.render compactStyle, ⟨t, ht, rfl⟩, by simp only [hb]⟩

theorem canonicalJson_isOk {value : PyVal} :
    (∃ bytes, canonicalJson P value = .ok bytes) ↔ value.Encodable P.recursionLimit := by
  constructor
  · rintro ⟨bytes, h⟩
    obtain ⟨t, ht, hb⟩ := (canonicalJson_eq_ok P).mp h
    exact ⟨t, ht, (Json.encode_render compactStyle rfl t).mp (by rw [hb]; rfl)⟩
  · rintro ⟨t, ht, hc⟩
    have hsome := (Json.encode_render compactStyle rfl t).mpr hc
    obtain ⟨bytes, hb⟩ := Option.isSome_iff_exists.mp hsome
    exact ⟨bytes, (canonicalJson_eq_ok P).mpr ⟨t, ht, hb⟩⟩

theorem canonicalDigest_isOk {value : PyVal} :
    (∃ digest, canonicalDigest P value = .ok digest) ↔ value.Encodable P.recursionLimit := by
  rw [← canonicalJson_isOk]
  constructor
  · rintro ⟨digest, h⟩
    obtain ⟨bytes, hb, -⟩ := bind_eq_ok.mp h
    exact ⟨bytes, hb⟩
  · rintro ⟨bytes, hb⟩
    exact ⟨hexdigest P bytes, bind_eq_ok.mpr ⟨bytes, hb, rfl⟩⟩

theorem render_compact_injective {t u : Json} {d : Nat} (ht : t.Readable false d)
    (hu : u.Readable false d) (h : t.render compactStyle = u.render compactStyle) : t = u := by
  have hpt := Json.parseDocument_render compactStyle ht
  have hpu := Json.parseDocument_render compactStyle hu
  rw [h, hpu] at hpt
  exact (Except.ok.inj hpt).symm

theorem canonicalJson_injective {v w : PyVal} {t u : Json} {bytes : String}
    (ht : v.toTree P.recursionLimit = .ok t) (hu : w.toTree P.recursionLimit = .ok u)
    (hv : canonicalJson P v = .ok bytes) (hw : canonicalJson P w = .ok bytes) : t = u := by
  obtain ⟨t', ht', hb⟩ := (canonicalJson_eq_ok P).mp hv
  obtain ⟨u', hu', hb'⟩ := (canonicalJson_eq_ok P).mp hw
  rw [ht] at ht'
  rw [hu] at hu'
  obtain rfl := Except.ok.inj ht'
  obtain rfl := Except.ok.inj hu'
  exact render_compact_injective (PyVal.toTree_readable ht) (PyVal.toTree_readable hu)
    (encode_injective hb hb')

section Injective

variable {P}

theorem loads_canonicalJson {value : PyVal} {encoded : String}
    (h : canonicalJson P value = .ok encoded) :
    ∃ t, value.toTree P.recursionLimit = .ok t ∧ P.loads (decode encoded) = .ok (.ofTree t) := by
  obtain ⟨t, ht, hencode⟩ := (canonicalJson_eq_ok P).mp h
  refine ⟨t, ht, ?_⟩
  rw [decode, ← encode_eq_some.mp hencode, Interpreter.loads,
    Json.parseDocument_render compactStyle (PyVal.toTree_readable ht)]

theorem hexdigest_injective (hsha : Function.Injective P.sha256) {a b : String}
    (h : hexdigest P a = hexdigest P b) : a = b := by
  have htext := lit_inj.mp h
  refine hsha ?_
  cases ha : P.sha256 a
  cases hb : P.sha256 b
  rw [ha, hb] at htext
  simpa using htext

theorem hexdigest_ne_nil (bytes : String) : hexdigest P bytes ≠ [] := by
  have hhex := (P.sha256 bytes).hex
  intro h
  simp only [hexdigest, lit, List.map_eq_nil_iff] at h
  simp [isHexText, h] at hhex

theorem clean_hexdigest (bytes : String) : Json.Clean (hexdigest P bytes) := Json.clean_lit _

theorem canonicalDigest_eq_ok {value : PyVal} {digest : Str}
    (h : canonicalDigest P value = .ok digest) : digest ≠ [] ∧ Json.Clean digest := by
  obtain ⟨bytes, -, h⟩ := bind_eq_ok.mp h
  rw [← Except.ok.inj h]
  exact ⟨hexdigest_ne_nil bytes, clean_hexdigest bytes⟩

theorem canonicalDigest_injective (hsha : Function.Injective P.sha256) {v w : PyVal} {digest : Str}
    (hv : canonicalDigest P v = .ok digest) (hw : canonicalDigest P w = .ok digest) :
    ∃ t, v.toTree P.recursionLimit = .ok t ∧ w.toTree P.recursionLimit = .ok t := by
  obtain ⟨bytes, hbytes, hdigest⟩ := bind_eq_ok.mp hv
  obtain ⟨bytes', hbytes', hdigest'⟩ := bind_eq_ok.mp hw
  have hsame : bytes' = bytes := by
    refine hexdigest_injective hsha ?_
    rw [Except.ok.inj hdigest, Except.ok.inj hdigest']
  rw [hsame] at hbytes'
  obtain ⟨t, ht, -⟩ := (canonicalJson_eq_ok P).mp hbytes
  obtain ⟨u, hu, -⟩ := (canonicalJson_eq_ok P).mp hbytes'
  obtain rfl := canonicalJson_injective P ht hu hbytes hbytes'
  exact ⟨t, ht, hu⟩

end Injective

def positional (s : String) : Nat := s.toList.foldl (fun n c => n * 0x110000 + c.toNat) 1

theorem isHexText_toDigits (n : Nat) : isHexText (String.ofList (Nat.toDigits 10 n)) = true := by
  have hne := Nat.toDigits_ne_nil (n := n) (b := 10)
  have hall : ∀ c ∈ Nat.toDigits 10 n, "0123456789abcdef".toList.contains c = true := by
    intro c hc
    have hdigit : ofChar c ∈ digits n := List.mem_map.mpr ⟨c, hc, rfl⟩
    have hd := isDigit_of_mem_digits hdigit
    simp only [isDigit, decide_eq_true_eq] at hd
    have hval : (ofChar c).val = c.toNat := rfl
    have hmem : ∀ n, 48 ≤ n → n ≤ 57 → "0123456789abcdef".toList.contains (Char.ofNat n) := by
      decide
    simpa using hmem c.toNat (hval ▸ hd.1) (hval ▸ hd.2)
  simpa [isHexText, hne] using hall

def decimalDigest (s : String) : HexDigest where
  text := String.ofList (Nat.toDigits 10 (positional s))
  hex := isHexText_toDigits (positional s)

-- a stand-in for the primitives: the digest writes its input out, every signature passes
def referencePrimitives : Primitives where
  recursionLimit := 100
  copyLimit := 50
  printable := fun _ => true
  objectText := fun _ => .ok (lit "object")
  sha256 := decimalDigest
  edVerify := fun _ _ _ => true

-- another one, quick to run, whose digest writes the size of its input
def sizePrimitives : Primitives :=
  { referencePrimitives with
    sha256 := fun s =>
      ⟨String.ofList (Nat.toDigits 10 s.utf8ByteSize), isHexText_toDigits s.utf8ByteSize⟩ }

theorem verifySignature_size (key : PublicKey) (payload : String) :
    verifySignature sizePrimitives key payload "c2ln" = true := by
  obtain ⟨raw, hraw⟩ := exists_of_toOption
    (show (b64decode "c2ln").toOption.isSome = true by decide +kernel)
  simp only [verifySignature, hraw]
  rfl

theorem positional_snoc (cs : List Char) (c : Char) :
    (cs ++ [c]).foldl (fun n c => n * 0x110000 + c.toNat) 1 =
      cs.foldl (fun n c => n * 0x110000 + c.toNat) 1 * 0x110000 + c.toNat := by
  simp

theorem positional_pos (cs : List Char) : 0 < cs.foldl (fun n c => n * 0x110000 + c.toNat) 1 := by
  induction cs using List.reverseRecOn with
  | nil => decide
  | append_singleton cs c ih =>
      rw [positional_snoc]
      omega

theorem positional_inj {cs ds : List Char}
    (h : cs.foldl (fun n c => n * 0x110000 + c.toNat) 1 =
      ds.foldl (fun n c => n * 0x110000 + c.toNat) 1) : cs = ds := by
  induction cs using List.reverseRecOn generalizing ds with
  | nil =>
      cases ds using List.reverseRecOn with
      | nil => rfl
      | append_singleton ds d =>
          rw [positional_snoc] at h
          have := positional_pos ds
          simp only [List.foldl_nil] at h
          omega
  | append_singleton cs c ih =>
      cases ds using List.reverseRecOn with
      | nil =>
          rw [positional_snoc] at h
          have := positional_pos cs
          simp only [List.foldl_nil] at h
          omega
      | append_singleton ds d =>
          rw [positional_snoc, positional_snoc] at h
          have hc := toNat_lt c
          have hd := toNat_lt d
          rw [ih (show cs.foldl _ 1 = ds.foldl _ 1 by omega),
            Char.ext (UInt32.toNat_inj.mp (show c.toNat = d.toNat by omega))]

theorem referencePrimitives_sha256_injective :
    Function.Injective referencePrimitives.sha256 := by
  intro a b h
  have htext := congrArg HexDigest.text h
  have hdigits := congrArg (fun l => Nat.ofDigitChars 10 l 0) (String.ofList_injective htext)
  simp only [Nat.ofDigitChars_ten_toDigits] at hdigits
  exact String.toList_inj.mp (positional_inj hdigits)

end GovernedAutonomy
