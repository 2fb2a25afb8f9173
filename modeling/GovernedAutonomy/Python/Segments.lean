import GovernedAutonomy.Python.Text
import Mathlib.Data.List.DropRight

namespace Python

def startsWith (s : Str) (start : String) : Bool := (lit start).isPrefixOf s

theorem startsWith_iff {s : Str} {start : String} :
    startsWith s start = true ↔ ∃ rest, s = lit start ++ rest := by
  rw [startsWith, List.isPrefixOf_iff_prefix]
  constructor
  · rintro ⟨rest, rfl⟩
    exact ⟨rest, rfl⟩
  · rintro ⟨rest, rfl⟩
    exact ⟨rest, rfl⟩

-- no text has two starts of which neither starts with the other
theorem not_startsWith_of_apart {s : Str} {start other : String}
    (hstart : startsWith s start = true) (hother : startsWith s other = true)
    (h : startsWith (lit start) other = false) (h' : startsWith (lit other) start = false) :
    False := by
  rw [startsWith, List.isPrefixOf_iff_prefix] at hstart hother
  rcases List.prefix_or_prefix_of_prefix hstart hother with hprefix | hprefix
  · rw [startsWith, List.isPrefixOf_iff_prefix.mpr hprefix] at h'
    cases h'
  · rw [startsWith, List.isPrefixOf_iff_prefix.mpr hprefix] at h
    cases h

namespace Segments

def slash : CodePoint := ofChar '/'

-- s.strip("/")
def strip (s : Str) : Str := (s.dropWhile (· = slash)).rdropWhile (· = slash)

-- the parts of s.split("/") that are not empty
def parts (s : Str) : List Str := (s.splitOn slash).filter (· ≠ [])

structure IsSegment (segment : Str) : Prop where
  nonempty : segment ≠ []
  solid : slash ∉ segment

-- what lies between the two ends of a text that has both
def middle (before after : String) (s : Str) : Option Str :=
  if startsWith s before = true ∧ (lit after).isSuffixOf (s.drop (lit before).length) = true then
    some ((s.drop (lit before).length).rdrop (lit after).length)
  else none

-- re.fullmatch of before, [^/]+ and after
def between (before after : String) (s : Str) : Bool :=
  match middle before after s with
  | some segment => decide (segment ≠ [] ∧ slash ∉ segment)
  | none => false

theorem middle_eq_some {before after : String} {s segment : Str} :
    middle before after s = some segment ↔ s = lit before ++ (segment ++ lit after) := by
  rw [middle]
  constructor
  · intro h
    split at h
    · next hends =>
        obtain ⟨hstart, hend⟩ := hends
        obtain ⟨rest, rfl⟩ := startsWith_iff.mp hstart
        rw [List.drop_left] at h hend
        obtain ⟨start, rfl⟩ := List.isSuffixOf_iff_suffix.mp hend
        rw [List.rdrop_append_length] at h
        rw [Option.some.inj h]
    · cases h
  · rintro rfl
    rw [List.drop_left, List.rdrop_append_length, if_pos]
    exact ⟨startsWith_iff.mpr ⟨_, rfl⟩, List.isSuffixOf_iff_suffix.mpr ⟨segment, rfl⟩⟩

theorem between_iff {before after : String} {s : Str} :
    between before after s = true ↔
      ∃ segment, IsSegment segment ∧ s = lit before ++ (segment ++ lit after) := by
  rw [between]
  constructor
  · intro h
    cases hmiddle : middle before after s with
    | none =>
        rw [hmiddle] at h
        cases h
    | some segment =>
        rw [hmiddle] at h
        obtain ⟨hnonempty, hsolid⟩ := of_decide_eq_true h
        exact ⟨segment, ⟨hnonempty, hsolid⟩, middle_eq_some.mp hmiddle⟩
  · rintro ⟨segment, hsegment, hs⟩
    rw [middle_eq_some.mpr hs]
    exact decide_eq_true ⟨hsegment.nonempty, hsegment.solid⟩

theorem startsWith_of_between {before after : String} {s : Str}
    (h : between before after s = true) : startsWith s before = true := by
  obtain ⟨segment, -, hs⟩ := between_iff.mp h
  exact startsWith_iff.mpr ⟨_, hs⟩

theorem IsSegment.head {segment : Str} (h : IsSegment segment) :
    ∃ p rest, segment = p :: rest ∧ p ≠ slash := by
  cases segment with
  | nil => exact absurd rfl h.nonempty
  | cons p rest => exact ⟨p, rest, rfl, fun hp => h.solid (hp ▸ List.mem_cons_self)⟩

theorem IsSegment.last {segment : Str} (h : IsSegment segment) :
    ∀ hne : segment ≠ [], segment.getLast hne ≠ slash :=
  fun hne hlast => h.solid (hlast ▸ List.getLast_mem hne)

theorem parts_segment {segment : Str} (h : IsSegment segment) : parts segment = [segment] := by
  rw [parts, List.splitOn_eq_singleton h.solid]
  simp [h.nonempty]

theorem parts_cons {segment rest : Str} (h : IsSegment segment) :
    parts (segment ++ slash :: rest) = segment :: parts rest := by
  rw [parts, List.splitOn_append_cons_self_of_not_mem h.solid, List.filter_cons_of_pos, parts]
  simp [h.nonempty]

theorem parts_strip {segment last : Str} (h : IsSegment segment) (hlast : IsSegment last) :
    parts (strip (slash :: (segment ++ slash :: last))) = [segment, last] := by
  have hleft : (slash :: (segment ++ slash :: last)).dropWhile (· = slash) =
      segment ++ slash :: last := by
    obtain ⟨p, rest, rfl, hp⟩ := h.head
    simp [hp]
  have hright : (segment ++ slash :: last).rdropWhile (· = slash) = segment ++ slash :: last := by
    rw [List.rdropWhile_eq_self_iff]
    intro hne
    rw [List.getLast_append_of_ne_nil _ (List.cons_ne_nil _ _), List.getLast_cons hlast.nonempty]
    simp [hlast.last]
  rw [strip, hleft, hright, parts_cons h, parts_segment hlast]

end Segments

end Python
