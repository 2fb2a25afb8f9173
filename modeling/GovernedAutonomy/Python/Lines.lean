import GovernedAutonomy.Python.Content

namespace Python

def isLineBreak (p : CodePoint) : Bool :=
  [0x0A, 0x0B, 0x0C, 0x0D, 0x1C, 0x1D, 0x1E, 0x85, 0x2028, 0x2029].contains p.val

def prepend (p : CodePoint) : List Str → List Str
  | [] => [[p]]
  | line :: lines => (p :: line) :: lines

-- str.splitlines: a carriage return swallows the line feed after it, and no last empty line
def splitAfter (afterReturn : Bool) : Str → List Str
  | [] => []
  | p :: rest =>
      if isLineBreak p then
        if afterReturn ∧ p = ofChar '\n' then splitAfter false rest
        else [] :: splitAfter (decide (p = ofChar '\r')) rest
      else prepend p (splitAfter false rest)

def splitLines (text : Str) : List Str := splitAfter false text

theorem not_isLineBreak_of_printable {p : CodePoint} (h : Printable p) : isLineBreak p = false := by
  obtain ⟨hlow, hhigh⟩ := h
  simp only [isLineBreak, List.contains_eq_mem, List.mem_cons, List.not_mem_nil, or_false,
    decide_eq_false_iff_not]
  omega

theorem splitLines_line {line : Str} (h : ∀ p ∈ line, isLineBreak p = false) (rest : Str) :
    splitLines (line ++ ofChar '\n' :: rest) = line :: splitLines rest := by
  induction line with
  | nil =>
      have hbreak : isLineBreak (ofChar '\n') = true := by decide
      have hreturn : decide (ofChar '\n' = ofChar '\r') = false := by decide
      rw [splitLines, List.nil_append, splitAfter, if_pos hbreak, if_neg (by simp), hreturn]
      rfl
  | cons p line ih =>
      have ih := ih (fun q hq => h q (List.mem_cons_of_mem _ hq))
      rw [splitLines] at ih
      rw [splitLines, List.cons_append, splitAfter, if_neg (by simp [h p List.mem_cons_self]), ih]
      rfl

theorem splitLines_unlines {lines : List Str} (h : ∀ line ∈ lines, ∀ p ∈ line, Printable p) :
    splitLines (lines.flatMap (fun line => line ++ lit "\n")) = lines := by
  induction lines with
  | nil => rfl
  | cons line lines ih =>
      have hline : ∀ p ∈ line, isLineBreak p = false :=
        fun p hp => not_isLineBreak_of_printable (h line List.mem_cons_self p hp)
      have hstep := splitLines_line hline (lines.flatMap (fun line => line ++ lit "\n"))
      rw [ih (fun l hl => h l (List.mem_cons_of_mem _ hl))] at hstep
      rw [List.flatMap_cons, List.append_assoc]
      exact hstep

end Python
