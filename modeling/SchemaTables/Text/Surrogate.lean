/-! Texts with surrogates. An escape can put any code point into a text, and for the surrogates there
are no characters. Here a surrogate is spelled with two characters: a mark, which is the last
character before the surrogates and which Unicode assigns to nothing, and an ideograph that tells the
surrogates apart. Where the mark itself is meant another ideograph follows it. So spelled, texts stay
apart and in the order of their code points. -/
namespace SchemaTables.Surrogate

def mark : Char := '\uD7FF'

/-- What follows the mark where the mark itself is meant. -/
def itself : Char := '\u3400'

/-- How far the ideographs for the surrogates are from the surrogates. -/
def distance : Nat := 0x8A00

def isSurrogate (code : Nat) : Bool := 0xD800 ≤ code && code < 0xE000

/-- The characters for a code point. -/
def spell (code : Nat) : List Char :=
  if isSurrogate code then [mark, Char.ofNat (code - distance)]
  else if code = mark.toNat then [mark, itself]
  else [Char.ofNat code]

/-- A text that a file can hold, with its marks spelled. -/
def spellChars (cs : List Char) : List Char := cs.flatMap fun c => spell c.toNat

def spelled (text : String) : String := String.ofList (spellChars text.toList)

/-- The code points that characters spell. -/
def codes : List Char → List Nat
  | [] => []
  | [c] => [c.toNat]
  | c :: d :: cs =>
    if c = mark ∧ d = itself then mark.toNat :: codes cs
    else if c = mark ∧ isSurrogate (d.toNat + distance) then (d.toNat + distance) :: codes cs
    else c.toNat :: codes (d :: cs)

theorem codes_cons {c : Char} (plain : c ≠ mark) (cs : List Char) :
    codes (c :: cs) = c.toNat :: codes cs := by
  cases cs with
  | nil => rfl
  | cons d cs => simp [codes, plain]

theorem toNat_ofNat {code : Nat} (valid : code.isValidChar) : (Char.ofNat code).toNat = code := by
  rw [Char.ofNat, dif_pos valid]
  rfl

theorem isValidChar_of_plain {code : Nat} (small : code < 0x110000) (plain : isSurrogate code = false) :
    code.isValidChar := by
  simp only [isSurrogate, Bool.and_eq_false_iff, decide_eq_false_iff_not] at plain
  unfold Nat.isValidChar
  omega

theorem codes_spell {code : Nat} (small : code < 0x110000) (cs : List Char) :
    codes (spell code ++ cs) = code :: codes cs := by
  unfold spell
  split
  · next surrogate =>
    have range := surrogate
    simp only [isSurrogate, Bool.and_eq_true, decide_eq_true_eq] at range
    have back : (Char.ofNat (code - distance)).toNat = code - distance :=
      toNat_ofNat (by unfold Nat.isValidChar distance; omega)
    have again : code - distance + distance = code := by unfold distance; omega
    have other : Char.ofNat (code - distance) ≠ itself := by
      intro same
      have number := congrArg Char.toNat same
      rw [back] at number
      have : itself.toNat = 0x3400 := rfl
      unfold distance at number
      omega
    simp [codes, other, back, again, surrogate]
  · next plain =>
    split
    · next same =>
      subst same
      simp [codes]
    · next other =>
      have back := toNat_ofNat (isValidChar_of_plain small (by simpa using plain))
      have unmarked : Char.ofNat code ≠ mark := by
        intro same
        exact other (by rw [← back, same])
      rw [List.singleton_append, codes_cons unmarked, back]

/-- What is spelled can be read back. -/
theorem codes_flatMap_spell {points : List Nat} (small : ∀ code ∈ points, code < 0x110000) :
    codes (points.flatMap spell) = points := by
  induction points with
  | nil => rfl
  | cons code rest ih =>
    obtain ⟨first, others⟩ := List.forall_mem_cons.mp small
    rw [List.flatMap_cons, codes_spell first, ih others]

theorem codes_of_unmarked {cs : List Char} (plain : ∀ c ∈ cs, c ≠ mark) :
    codes cs = cs.map Char.toNat := by
  induction cs with
  | nil => rfl
  | cons c cs ih =>
    obtain ⟨first, others⟩ := List.forall_mem_cons.mp plain
    rw [codes_cons first, ih others, List.map_cons]

theorem unmarked_ofList {cs : List Char} (plain : cs.all (· != mark)) :
    ∀ c ∈ (String.ofList cs).toList, c ≠ mark := by
  rw [String.toList_ofList]
  simpa using plain

theorem unmarked_join {texts : List String} (each : ∀ text ∈ texts, ∀ c ∈ text.toList, c ≠ mark) :
    ∀ c ∈ (String.join texts).toList, c ≠ mark := by
  induction texts with
  | nil => nofun
  | cons text rest ih =>
    obtain ⟨first, others⟩ := List.forall_mem_cons.mp each
    rw [String.join_cons, String.toList_append]
    exact List.forall_mem_append.mpr ⟨first, ih others⟩

/-- Characters of which no mark in front takes the first. -/
def StandsAlone (cs : List Char) : Prop :=
  ∀ c ∈ cs.head?, c ≠ itself ∧ isSurrogate (c.toNat + distance) = false

theorem codes_append (cs : List Char) {ds : List Char} (alone : StandsAlone ds) :
    codes (cs ++ ds) = codes cs ++ codes ds := by
  fun_induction codes cs with
  | case1 => rfl
  | case2 c =>
    cases ds with
    | nil => rfl
    | cons d ds =>
      obtain ⟨other, plain⟩ := alone d rfl
      simp [codes, other, plain]
  | case3 c d cs same ih => simp [codes, same, ih]
  | case4 c d cs other same ih =>
    have apart : d ≠ itself := fun taken => other ⟨same.1, taken⟩
    simp [codes, apart, same, ih]
  | case5 c d cs other plain ih => simpa [codes, other, plain] using ih

/-- Surrogates have no place in an encoding. -/
def encodable (text : String) : Bool := (codes text.toList).all fun code => !isSurrogate code

theorem encodable_append {first rest : String} (begins : encodable first) (ends : encodable rest)
    (alone : StandsAlone rest.toList) : encodable (first ++ rest) := by
  unfold encodable at *
  rw [String.toList_append, codes_append _ alone, List.all_append, begins, ends]
  rfl

/-- What a text that can be encoded spells. -/
def plainText (text : String) : String := String.ofList ((codes text.toList).map Char.ofNat)

/-- The bytes of a text that can be encoded. -/
def bytes (text : String) : ByteArray := (plainText text).toUTF8

/-- No character is a surrogate. -/
theorem not_isSurrogate_toNat (c : Char) : isSurrogate c.toNat = false := by
  have valid := c.valid
  unfold UInt32.isValidChar Nat.isValidChar at valid
  simp only [isSurrogate, Char.toNat, Bool.and_eq_false_iff, decide_eq_false_iff_not]
  omega

theorem encodable_of_unmarked {text : String} (plain : ∀ c ∈ text.toList, c ≠ mark) :
    encodable text := by
  rw [encodable, codes_of_unmarked plain, List.all_eq_true]
  intro code found
  obtain ⟨c, -, rfl⟩ := List.mem_map.mp found
  rw [not_isSurrogate_toNat, Bool.not_false]

/-- A text without the mark is encoded as it is. -/
theorem bytes_of_unmarked {text : String} (plain : ∀ c ∈ text.toList, c ≠ mark) :
    bytes text = text.toUTF8 := by
  have same : ((codes text.toList).map Char.ofNat) = text.toList := by
    rw [codes_of_unmarked plain, List.map_map]
    simp [Function.comp_def, Char.ofNat_toNat]
  rw [bytes, plainText, same, String.ofList_toList]

end SchemaTables.Surrogate
