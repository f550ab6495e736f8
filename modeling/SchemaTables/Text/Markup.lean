/-! Text as the content of HTML. The characters that begin and end tags, attribute values and entities
are replaced by entities; what is left holds none of them, and the text can be read back. -/
namespace SchemaTables.Markup

def escapeChar (c : Char) : List Char :=
  if c = '&' then ['&', 'a', 'm', 'p', ';']
  else if c = '<' then ['&', 'l', 't', ';']
  else if c = '>' then ['&', 'g', 't', ';']
  else if c = '"' then ['&', '#', '3', '4', ';']
  else if c = '\x27' then ['&', '#', '3', '9', ';']
  else [c]

def escapeChars (cs : List Char) : List Char := cs.flatMap escapeChar

def escape (text : String) : String := String.ofList (escapeChars text.toList)

/-- The characters that begin and end tags and attribute values. -/
def isDelimiter (c : Char) : Bool := c == '<' || c == '>' || c == '"' || c == '\x27'

theorem isDelimiter_of_mem_escapeChar {c d : Char} (h : d ∈ escapeChar c) :
    isDelimiter d = false := by
  unfold escapeChar at h
  repeat' split at h
  all_goals simp only [List.mem_cons, List.not_mem_nil, or_false] at h
  · rcases h with rfl | rfl | rfl | rfl | rfl <;> rfl
  · rcases h with rfl | rfl | rfl | rfl <;> rfl
  · rcases h with rfl | rfl | rfl | rfl <;> rfl
  · rcases h with rfl | rfl | rfl | rfl | rfl <;> rfl
  · rcases h with rfl | rfl | rfl | rfl | rfl <;> rfl
  · subst h
    simp [isDelimiter, *]

theorem isDelimiter_of_mem_escape {text : String} {c : Char} (h : c ∈ (escape text).toList) :
    isDelimiter c = false := by
  rw [escape, String.toList_ofList, escapeChars, List.mem_flatMap] at h
  obtain ⟨_, _, h⟩ := h
  exact isDelimiter_of_mem_escapeChar h

/-- Reads the entities back. -/
def unescapeChars : List Char → List Char
  | '&' :: 'a' :: 'm' :: 'p' :: ';' :: cs => '&' :: unescapeChars cs
  | '&' :: 'l' :: 't' :: ';' :: cs => '<' :: unescapeChars cs
  | '&' :: 'g' :: 't' :: ';' :: cs => '>' :: unescapeChars cs
  | '&' :: '#' :: '3' :: '4' :: ';' :: cs => '"' :: unescapeChars cs
  | '&' :: '#' :: '3' :: '9' :: ';' :: cs => '\x27' :: unescapeChars cs
  | c :: cs => c :: unescapeChars cs
  | [] => []

theorem unescapeChars_escapeChar (c : Char) (cs : List Char) :
    unescapeChars (escapeChar c ++ cs) = c :: unescapeChars cs := by
  unfold escapeChar
  repeat' split
  all_goals simp_all [unescapeChars]

theorem unescapeChars_escapeChars (cs : List Char) : unescapeChars (escapeChars cs) = cs := by
  induction cs with
  | nil => rfl
  | cons c cs ih => rw [escapeChars, List.flatMap_cons, unescapeChars_escapeChar, ← escapeChars, ih]

theorem escape_inj {s t : String} : escape s = escape t ↔ s = t := by
  refine ⟨fun h => ?_, fun h => h ▸ rfl⟩
  rw [escape, escape, String.ofList_inj] at h
  have read := congrArg unescapeChars h
  rw [unescapeChars_escapeChars, unescapeChars_escapeChars] at read
  exact String.toList_inj.mp read

end SchemaTables.Markup
