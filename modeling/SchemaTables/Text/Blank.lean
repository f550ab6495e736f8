import SchemaTables.Text.Ranges

/-! White space in the wide sense: the Unicode separators, the usual controls, and the four
information separators U+001C to U+001F. -/
namespace SchemaTables.Blank

def ranges : List (Nat × Nat) := [
  (0x09, 0x0D), (0x1C, 0x20), (0x85, 0x85), (0xA0, 0xA0), (0x1680, 0x1680), (0x2000, 0x200A),
  (0x2028, 0x2029), (0x202F, 0x202F), (0x205F, 0x205F), (0x3000, 0x3000)]

def isBlank (c : Char) : Bool := Ranges.covers ranges c

def trimStart (cs : List Char) : List Char := cs.dropWhile isBlank

theorem trimStart_of_head {cs : List Char} (h : ∀ c ∈ cs.head?, isBlank c = false) :
    trimStart cs = cs := by
  cases cs with
  | nil => rfl
  | cons c cs => simp [trimStart, h c rfl]

theorem head_trimStart (cs : List Char) : ∀ c ∈ (trimStart cs).head?, isBlank c = false := by
  intro c h
  have first := List.head?_dropWhile_not isBlank cs
  rw [← trimStart, Option.mem_def.mp h] at first
  exact first

def trimEnd (cs : List Char) : List Char := (trimStart cs.reverse).reverse

theorem trimEnd_prefix (cs : List Char) : trimEnd cs <+: cs := by
  have h := List.reverse_prefix.mpr (List.dropWhile_suffix (l := cs.reverse) isBlank)
  rwa [List.reverse_reverse] at h

def trimChars (cs : List Char) : List Char := trimEnd (trimStart cs)

theorem trimStart_trimChars (cs : List Char) : trimStart (trimChars cs) = trimChars cs := by
  refine trimStart_of_head fun c h => head_trimStart cs c ?_
  obtain ⟨rest, eq⟩ := trimEnd_prefix (trimStart cs)
  rw [← eq, List.head?_append, ← trimChars, Option.mem_def.mp h]
  rfl

theorem trimEnd_trimChars (cs : List Char) : trimEnd (trimChars cs) = trimChars cs := by
  rw [trimChars, trimEnd, trimEnd, List.reverse_reverse,
    trimStart_of_head (head_trimStart (trimStart cs).reverse)]

/-- The text without the white space around it. -/
def trim (text : String) : String := String.ofList (trimChars text.toList)

end SchemaTables.Blank
