import SchemaTables.Yaml.Timestamp

/-! The types of scalars that are left to their texts. A dialect lists the forms that are tried, by the
first characters of the texts: the dialects of documents and of configurations differ in the words that
stand for truth values. -/
namespace SchemaTables.Yaml

inductive Tag where
  | null
  | bool
  | int
  | float
  | binary
  | timestamp
  | orderedMap
  | pairs
  | set
  | str
  | seq
  | map
  | merge
  | value
  | unknown (tag : String)
deriving DecidableEq, Repr

def Tag.known : List (String × Tag) := [
  ("tag:yaml.org,2002:null", .null), ("tag:yaml.org,2002:bool", .bool),
  ("tag:yaml.org,2002:int", .int), ("tag:yaml.org,2002:float", .float),
  ("tag:yaml.org,2002:binary", .binary), ("tag:yaml.org,2002:timestamp", .timestamp),
  ("tag:yaml.org,2002:omap", .orderedMap), ("tag:yaml.org,2002:pairs", .pairs),
  ("tag:yaml.org,2002:set", .set), ("tag:yaml.org,2002:str", .str),
  ("tag:yaml.org,2002:seq", .seq), ("tag:yaml.org,2002:map", .map),
  ("tag:yaml.org,2002:merge", .merge), ("tag:yaml.org,2002:value", .value)]

def Tag.ofText (text : String) : Tag := (Tag.known.lookup text).getD (.unknown text)

namespace Implicit

def dropSign : List Char → List Char
  | '+' :: cs => cs
  | '-' :: cs => cs
  | cs => cs

def isDigitOrGap (c : Char) : Bool := c.isDigit || c == '_'

def isOctalOrGap (c : Char) : Bool := ('0' ≤ c && c ≤ '7') || c == '_'

def isHexOrGap (c : Char) : Bool :=
  isDigitOrGap c || ('a' ≤ c && c ≤ 'f') || ('A' ≤ c && c ≤ 'F')

/-- Non-empty, all in a class. -/
def allOf (isIn : Char → Bool) (cs : List Char) : Bool := !cs.isEmpty && cs.all isIn

/-- One digit, or two of which the first is at most 5. -/
def isSixtieth : List Char → Bool
  | [d] => d.isDigit
  | [t, d] => '0' ≤ t && t ≤ '5' && d.isDigit
  | _ => false

/-- Sixtieths, each behind a colon; `pending` are the digits since the last one. -/
def sixtiethsFrom (pending : List Char) : List Char → Bool
  | [] => isSixtieth pending
  | c :: cs =>
    if c = ':' then isSixtieth pending && sixtiethsFrom [] cs else sixtiethsFrom (pending ++ [c]) cs

/-- At least one sixtieth, and nothing else. -/
def isSixtieths : List Char → Bool
  | ':' :: cs => sixtiethsFrom [] cs
  | _ => false

def isInt (text : List Char) : Bool :=
  match dropSign text with
  | ['0'] => true
  | '0' :: 'b' :: cs => allOf (fun c => c == '0' || c == '1' || c == '_') cs
  | '0' :: 'x' :: cs => allOf isHexOrGap cs
  | '0' :: cs => cs.all isOctalOrGap
  | c :: cs =>
    c.isDigit && (cs.all isDigitOrGap || isSixtieths (cs.dropWhile isDigitOrGap))
  | [] => false

/-- An exponent needs its sign. -/
def isExponent : List Char → Bool
  | [] => true
  | e :: sign :: cs => (e == 'e' || e == 'E') && (sign == '+' || sign == '-') && allOf Char.isDigit cs
  | _ => false

def isFraction (cs : List Char) : Bool := isExponent (cs.dropWhile isDigitOrGap)

def infinities : List (List Char) := [['i', 'n', 'f'], ['I', 'n', 'f'], ['I', 'N', 'F']]

def nans : List (List Char) := [['n', 'a', 'n'], ['N', 'a', 'N'], ['N', 'A', 'N']]

/-- Sixtieths before a point. -/
def isSixtiethFloat (cs : List Char) : Bool :=
  let whole := cs.takeWhile (· != '.')
  match cs.dropWhile (· != '.') with
  | '.' :: fraction => isSixtieths whole && fraction.all isDigitOrGap
  | _ => false

def isFloat (text : List Char) : Bool :=
  (match dropSign text with
  | '.' :: cs => infinities.contains cs
  | c :: cs =>
    c.isDigit &&
      match cs.dropWhile isDigitOrGap with
      | '.' :: fraction => isFraction fraction
      | ':' :: sixtieths => isSixtiethFloat (':' :: sixtieths)
      | _ => false
  | [] => false) ||
  match text with
  | '.' :: cs => nans.contains cs || (cs.head?.any Char.isDigit && isFraction cs)
  | _ => false

end Implicit

/-- A form of texts, and the tag of the scalars that have it. -/
structure Resolver where
  tag : Tag
  form : List Char → Bool

namespace Resolver

/-- A line feed at the end of a text does not change its form. -/
def accepts (resolver : Resolver) (text : List Char) : Bool :=
  resolver.form text || (text.getLast? == some '\n' && resolver.form text.dropLast)

def ofWords (tag : Tag) (words : List String) : Resolver :=
  ⟨tag, fun text => words.any (·.toList == text)⟩

def booleans (words : List String) : Resolver := ofWords .bool words

end Resolver

/-- The resolvers of texts by their first characters; the empty text has none. Those in one row are
tried in their order. -/
structure Dialect where
  rows : List (Option Char × List Resolver)

namespace Dialect

def resolvers (dialect : Dialect) (first : Option Char) : List Resolver :=
  (dialect.rows.lookup first).getD []

def addTo (resolver : Resolver) (first : Option Char) :
    List (Option Char × List Resolver) → List (Option Char × List Resolver)
  | [] => [(first, [resolver])]
  | (other, resolvers) :: rest =>
    if first = other then (other, resolvers ++ [resolver]) :: rest
    else (other, resolvers) :: addTo resolver first rest

/-- Adds a resolver for texts with these first characters, behind those that are there. -/
def add (dialect : Dialect) (resolver : Resolver) (firsts : List (Option Char)) : Dialect :=
  ⟨firsts.foldl (fun rows first => addTo resolver first rows) dialect.rows⟩

/-- Takes away the resolvers of a tag. -/
def without (dialect : Dialect) (tag : Tag) : Dialect :=
  ⟨dialect.rows.map fun row => (row.1, row.2.filter (·.tag != tag))⟩

theorem resolvers_cons (first other : Option Char) (resolvers : List Resolver)
    (rest : List (Option Char × List Resolver)) :
    (Dialect.mk ((other, resolvers) :: rest)).resolvers first =
      if first = other then resolvers else (Dialect.mk rest).resolvers first := by
  by_cases same : first = other
  · simp [Dialect.resolvers, same]
  · have apart : (first == other) = false := beq_false_of_ne same
    simp [Dialect.resolvers, List.lookup_cons, apart, same]

theorem resolvers_addTo (resolver : Resolver) (other first : Option Char)
    (rows : List (Option Char × List Resolver)) :
    (Dialect.mk (addTo resolver other rows)).resolvers first =
      (Dialect.mk rows).resolvers first ++ if first = other then [resolver] else [] := by
  induction rows with
  | nil =>
    simp only [addTo, resolvers_cons]
    rfl
  | cons row rest ih =>
    obtain ⟨row, resolvers⟩ := row
    by_cases here : first = row <;> by_cases added : other = row <;>
      simp_all [addTo, resolvers_cons, eq_comm]

/-- A resolver stands behind all others in the rows that it was added to. -/
theorem resolvers_add (dialect : Dialect) (resolver : Resolver) (firsts : List (Option Char))
    (first : Option Char) : (dialect.add resolver firsts).resolvers first =
      dialect.resolvers first ++ List.replicate (firsts.count first) resolver := by
  obtain ⟨rows⟩ := dialect
  unfold add
  dsimp only
  induction firsts generalizing rows with
  | nil => simp
  | cons other rest ih =>
    rw [List.foldl_cons, ih, resolvers_addTo, List.append_assoc, List.count_cons]
    by_cases same : first = other
    · simp [same, List.replicate_succ]
    · simp [same, Ne.symm same]

theorem resolvers_without (dialect : Dialect) (tag : Tag) (first : Option Char) :
    (dialect.without tag).resolvers first = (dialect.resolvers first).filter (·.tag != tag) := by
  obtain ⟨rows⟩ := dialect
  unfold without
  dsimp only
  induction rows with
  | nil => rfl
  | cons row rest ih =>
    rw [List.map_cons, resolvers_cons, resolvers_cons, ih]
    split <;> rfl

def beginning (characters : String) : List (Option Char) := characters.toList.map some

def plainBooleans : List String := ["true", "True", "TRUE", "false", "False", "FALSE"]

/-- The words that `document` reads as text and `configuration` as truth values. -/
def extraBooleans : List String :=
  ["yes", "Yes", "YES", "no", "No", "NO", "on", "On", "ON", "off", "Off", "OFF"]

/-- The forms of YAML 1.1, in the order in which they are tried. -/
def forms : List (Resolver × List (Option Char)) := [
  (.booleans (plainBooleans ++ extraBooleans), beginning "yYnNtTfFoO"),
  (⟨.float, Implicit.isFloat⟩, beginning "-+0123456789."),
  (⟨.int, Implicit.isInt⟩, beginning "-+0123456789"),
  (.ofWords .merge ["<<"], beginning "<"),
  (.ofWords .null ["", "~", "null", "Null", "NULL"], none :: beginning "~nN"),
  (⟨.timestamp, Timestamp.isPlain⟩, beginning "0123456789"),
  (.ofWords .value ["="], beginning "="),
  (.ofWords (.unknown "tag:yaml.org,2002:yaml") ["!", "&", "*"], beginning "!&*")]

def configuration : Dialect :=
  forms.foldl (fun dialect form => dialect.add form.1 form.2) ⟨[]⟩

/-- Only true and false are truth values; all else is as in `configuration`. -/
def document : Dialect :=
  (configuration.without .bool).add (.booleans plainBooleans) (beginning "tTfF")

end Dialect

/-- The tag of a text that is left to its form. -/
def Implicit.tag (dialect : Dialect) (text : String) : Tag :=
  match (dialect.resolvers text.toList.head?).find? (·.accepts text.toList) with
  | some resolver => resolver.tag
  | none => .str

end SchemaTables.Yaml
