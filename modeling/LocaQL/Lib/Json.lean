import Mathlib.Data.List.Sort
import Mathlib.Data.String.Basic

/-!
# JSON as Go decodes and encodes it

Values are what `encoding/json` decodes into `any`, with a number kept as the
literal that was read.  `decode` accepts what `json.Unmarshal` accepts: the JSON
grammar, at most `maxNestingDepth` levels, and only numbers that a 64-bit float can
hold.  `encode` is `json.Marshal` on such a value.
-/

inductive Json where
  | null
  | bool (b : Bool)
  | num (literal : List Char)
  | str (s : String)
  | arr (items : List Json)
  | obj (members : List (String × Json))
deriving Repr, Inhabited

namespace Json

/-- `obj[name]`: the last member of that name, and nil without one. -/
def lookup (members : List (String × Json)) (name : String) : Json :=
  match members.reverse.find? fun m => m.1 == name with
  | some m => m.2
  | none => .null

/-- `obj[name]` with its `ok` flag. -/
def lookup? (members : List (String × Json)) (name : String) : Option Json :=
  (members.reverse.find? fun m => m.1 == name).map (·.2)

/-- The assertions `v.(string)`, `v.(bool)`, `v.([]any)` and `v.(map[string]any)`. -/
def str? : Json → Option String
  | .str s => some s
  | _ => none

def bool? : Json → Option Bool
  | .bool b => some b
  | _ => none

def arr? : Json → Option (List Json)
  | .arr items => some items
  | _ => none

def obj? : Json → Option (List (String × Json))
  | .obj members => some members
  | _ => none

theorem exists_of_lookup_ne_null {members : List (String × Json)} {name : String}
    (h : lookup members name ≠ .null) : ∃ m ∈ members, m.1 = name := by
  rw [lookup] at h
  split at h
  next m found =>
    exact ⟨m, List.mem_reverse.mp (List.mem_of_find?_eq_some found),
      by simpa using List.find?_some found⟩
  · exact absurd rfl h

/-- The elements of an array, or the value itself. -/
def parts : Json → List Json
  | .arr items => items
  | v => [v]

/-- The member of an object, and nil for any other value. -/
def member (name : String) : Json → Json
  | .obj members => lookup members name
  | _ => .null

/-- Whether there is a value at a path of member names, in some element where the path leads
through an array. -/
def present : List String → Json → Bool
  | [], .null => false
  | [], _ => true
  | name :: path, v => v.parts.any fun part => present path (part.member name)

theorem ne_null_of_present {path : List String} {v : Json} (h : present path v) : v ≠ .null := by
  induction path generalizing v with
  | nil =>
    rintro rfl
    cases h
  | cons name path ih =>
    rintro rfl
    simp only [present, parts, member, List.any_cons, List.any_nil, Bool.or_false] at h
    exact ih h rfl

/-! ## Decoding -/

def maxNestingDepth : Nat := 10000

def isWhite (c : Char) : Bool := c == ' ' || c == '\t' || c == '\r' || c == '\n'

def skipWhite (s : List Char) : List Char := s.dropWhile isWhite

def hexValue (c : Char) : Option Nat :=
  if '0' ≤ c && c ≤ '9' then some (c.toNat - '0'.toNat)
  else if 'a' ≤ c && c ≤ 'f' then some (c.toNat - 'a'.toNat + 10)
  else if 'A' ≤ c && c ≤ 'F' then some (c.toNat - 'A'.toNat + 10)
  else none

def hex4 (a b c d : Char) : Option Nat := do
  let a ← hexValue a
  let b ← hexValue b
  let c ← hexValue c
  let d ← hexValue d
  return ((a * 16 + b) * 16 + c) * 16 + d

/-- The replacement character, for a surrogate without its partner. -/
def runeError : Char := '\ufffd'

/-- A code unit of a `\u` escape that stands alone. -/
def runeOf (n : Nat) : Char := if 0xD800 ≤ n && n < 0xE000 then runeError else Char.ofNat n

def isHighSurrogate (n : Nat) : Bool := 0xD800 ≤ n && n < 0xDC00

def isLowSurrogate (n : Nat) : Bool := 0xDC00 ≤ n && n < 0xE000

def simpleEscape : Char → Option Char
  | '"' => some '"'
  | '\\' => some '\\'
  | '/' => some '/'
  | 'b' => some '\x08'
  | 'f' => some '\x0c'
  | 'n' => some '\n'
  | 'r' => some '\r'
  | 't' => some '\t'
  | _ => none

/-- The rest of a string literal after its opening quote: its value and what follows.
`high` is a high surrogate still waiting for its partner. -/
def stringBody (high : Option Nat) (acc : List Char) : List Char → Option (List Char × List Char)
  | [] => none
  | '"' :: s => some (((high.map fun _ => runeError).toList ++ acc).reverse, s)
  | '\\' :: 'u' :: a :: b :: c :: d :: s =>
    match hex4 a b c d with
    | none => none
    | some n =>
      match high with
      | some h =>
        if isLowSurrogate n then
          let rune := Char.ofNat (0x10000 + (h - 0xD800) * 0x400 + (n - 0xDC00))
          stringBody none (rune :: acc) s
        else if isHighSurrogate n then stringBody (some n) (runeError :: acc) s
        else stringBody none (runeOf n :: runeError :: acc) s
      | none =>
        if isHighSurrogate n then stringBody (some n) acc s
        else stringBody none (runeOf n :: acc) s
  | '\\' :: c :: s =>
    match simpleEscape c with
    | some r => stringBody none (r :: ((high.map fun _ => runeError).toList ++ acc)) s
    | none => none
  | c :: s =>
    if c.toNat < 0x20 || c == '\\' then none
    else stringBody none (c :: ((high.map fun _ => runeError).toList ++ acc)) s

def isDigit (c : Char) : Bool := '0' ≤ c && c ≤ '9'

def digitsValue (ds : List Char) : Nat :=
  ds.foldl (fun n c => n * 10 + (c.toNat - '0'.toNat)) 0

/-- Whether the decimal `int.frac` times ten to the `exp` rounds to an infinite float. -/
def overflows (int frac : List Char) (exp : Int) : Bool :=
  let mantissa := digitsValue (int ++ frac)
  let scale := exp - frac.length
  -- the midpoint between the largest float and the next power of two
  let bound := 2 ^ 1024 - 2 ^ 970
  if mantissa == 0 then false
  else if 0 ≤ scale then bound ≤ mantissa * 10 ^ scale.toNat
  else bound * 10 ^ (-scale).toNat ≤ mantissa

/-- The exponent part of a number, with the text it was read from. -/
def exponent (s : List Char) : Option (Int × List Char × List Char) :=
  match s with
  | e :: s =>
    if e == 'e' || e == 'E' then
      let sign := match s with
        | '+' :: _ => ['+']
        | '-' :: _ => ['-']
        | _ => []
      let s := s.drop sign.length
      let ds := s.takeWhile isDigit
      if ds.isEmpty then none
      else
        let n : Int := digitsValue ds
        some (if sign == ['-'] then -n else n, e :: sign ++ ds, s.dropWhile isDigit)
    else some (0, [], e :: s)
  | [] => some (0, [], [])

/-- A number literal and what follows it. -/
def number (s : List Char) : Option (List Char × List Char) := do
  let sign := match s with
    | '-' :: _ => ['-']
    | _ => []
  let s := s.drop sign.length
  let (int, s) ← match s with
    | '0' :: s => some (['0'], s)
    | s =>
      let ds := s.takeWhile isDigit
      if ds.isEmpty then none else some (ds, s.dropWhile isDigit)
  let (point, frac, s) ← match s with
    | '.' :: s =>
      let ds := s.takeWhile isDigit
      if ds.isEmpty then none else some (['.'], ds, s.dropWhile isDigit)
    | s => some ([], [], s)
  let (exp, expText, s) ← exponent s
  if overflows int frac exp then none
  else some (sign ++ int ++ point ++ frac ++ expText, s)

/-! ## Numbers

A number literal denotes the 64-bit float nearest to it, a multiple of a power of two. -/

/-- The sign, the digits and the decimal exponent of a literal. -/
def decimal (literal : List Char) : Bool × Nat × Int :=
  let negative := literal.head? == some '-'
  let s := if negative then literal.tail else literal
  let int := s.takeWhile isDigit
  let s := s.dropWhile isDigit
  let frac := if s.head? == some '.' then s.tail.takeWhile isDigit else []
  let s := if s.head? == some '.' then s.tail.dropWhile isDigit else s
  let exp := ((exponent s).map (·.1)).getD 0
  (negative, digitsValue (int ++ frac), exp - frac.length)

/-- The exponent of the highest power of two that is not above `num / den`. -/
def floorLog2 (num den : Nat) : Int :=
  let e : Int := (Nat.log2 num : Int) - Nat.log2 den
  if num * 2 ^ (-e).toNat < den * 2 ^ e.toNat then e - 1 else e

def roundHalfEven (num den : Nat) : Nat :=
  let q := num / den
  let r := num % den
  if 2 * r < den ∨ (2 * r = den ∧ q % 2 = 0) then q else q + 1

/-- The float nearest to `num / den`: a 53-bit mantissa and a binary exponent. -/
def nearestFloat (num den : Nat) : Nat × Int :=
  let k := max (floorLog2 num den - 52) (-1074)
  (roundHalfEven (num * 2 ^ (-k).toNat) (den * 2 ^ k.toNat), k)

/-- The integer part of the float that a literal denotes, and whether the float is that
integer. -/
def truncate (literal : List Char) : Int × Bool :=
  let (negative, mantissa, exp) := decimal literal
  let (q, k) := nearestFloat (mantissa * 10 ^ exp.toNat) (10 ^ (-exp).toNat)
  let whole := if 0 ≤ k then q * 2 ^ k.toNat else q / 2 ^ (-k).toNat
  let exact := decide (0 ≤ k) || q % 2 ^ (-k).toNat == 0
  (if negative then -(whole : Int) else whole, exact)

example : truncate "1.5e3".toList = (1500, true) := by decide +kernel

example : truncate "-0.75".toList = (0, false) := by decide +kernel

example : truncate "9007199254740993".toList = (9007199254740992, true) := by decide +kernel

mutual

/-- A value and what follows it.  The fuel bounds the characters still to be read. -/
def value : Nat → Nat → List Char → Option (Json × List Char)
  | 0, _, _ => none
  | fuel + 1, depth, s =>
    match skipWhite s with
    | 'n' :: 'u' :: 'l' :: 'l' :: s => some (.null, s)
    | 't' :: 'r' :: 'u' :: 'e' :: s => some (.bool true, s)
    | 'f' :: 'a' :: 'l' :: 's' :: 'e' :: s => some (.bool false, s)
    | '"' :: s => (stringBody none [] s).map fun r => (.str (String.ofList r.1), r.2)
    | '[' :: s =>
      if maxNestingDepth ≤ depth then none
      else
        match skipWhite s with
        | ']' :: s => some (.arr [], s)
        | s => elements fuel (depth + 1) [] s
    | '\x7b' :: s =>
      if maxNestingDepth ≤ depth then none
      else
        match skipWhite s with
        | '\x7d' :: s => some (.obj [], s)
        | s => members fuel (depth + 1) [] s
    | s => (number s).map fun r => (.num r.1, r.2)

/-- The elements of an array up to its closing bracket. -/
def elements : Nat → Nat → List Json → List Char → Option (Json × List Char)
  | 0, _, _, _ => none
  | fuel + 1, depth, acc, s =>
    match value fuel depth s with
    | none => none
    | some (v, s) =>
      match skipWhite s with
      | ',' :: s => elements fuel depth (v :: acc) s
      | ']' :: s => some (.arr (v :: acc).reverse, s)
      | _ => none

/-- The members of an object up to its closing brace. -/
def members : Nat → Nat → List (String × Json) → List Char → Option (Json × List Char)
  | 0, _, _, _ => none
  | fuel + 1, depth, acc, s =>
    match skipWhite s with
    | '"' :: s =>
      match stringBody none [] s with
      | none => none
      | some (name, s) =>
        match skipWhite s with
        | ':' :: s =>
          match value fuel depth s with
          | none => none
          | some (v, s) =>
            match skipWhite s with
            | ',' :: s => members fuel depth ((String.ofList name, v) :: acc) s
            | '\x7d' :: s => some (.obj ((String.ofList name, v) :: acc).reverse, s)
            | _ => none
        | _ => none
    | _ => none

end

/-- `json.Unmarshal` into `any`; `none` stands for its error. -/
def decode (text : String) : Option Json :=
  let s := text.toList
  match value (2 * s.length + 1) 0 s with
  | some (v, rest) => if (skipWhite rest).isEmpty then some v else none
  | none => none

/-! ## Encoding -/

def hexDigit (n : Nat) : Char :=
  if n < 10 then Char.ofNat (n + '0'.toNat) else Char.ofNat (n - 10 + 'a'.toNat)

def unicodeEscape (n : Nat) : List Char :=
  ['\\', 'u', hexDigit (n / 4096 % 16), hexDigit (n / 256 % 16), hexDigit (n / 16 % 16),
    hexDigit (n % 16)]

/-- One character of a string, with HTML escaped as `json.Marshal` does. -/
def escape (c : Char) : List Char :=
  if c == '"' then ['\\', '"']
  else if c == '\\' then ['\\', '\\']
  else if c == '\x08' then ['\\', 'b']
  else if c == '\x0c' then ['\\', 'f']
  else if c == '\n' then ['\\', 'n']
  else if c == '\r' then ['\\', 'r']
  else if c == '\t' then ['\\', 't']
  else if c.toNat < 0x20 || c ∈ ['<', '>', '&', '\u2028', '\u2029'] then unicodeEscape c.toNat
  else [c]

def encodeString (s : String) : List Char := '"' :: s.toList.flatMap escape ++ ['"']

/-- `json.Marshal` of a list of strings. -/
def encodeStrings (ss : List String) : List Char :=
  '[' :: [','].intercalate (ss.map encodeString) ++ [']']

/-- The members of a map in the order `json.Marshal` writes them: by name, the last
value of a repeated name. -/
def sortMembers (ms : List (String × List Char)) : List (String × List Char) :=
  let last := ms.foldr (fun m kept => if kept.any (·.1 == m.1) then kept else m :: kept) []
  last.insertionSort fun a b => a.1 ≤ b.1

mutual

/-- `json.Marshal` of a decoded value; `num` writes a number. -/
def encode (num : List Char → List Char) : Json → List Char
  | .null => ['n', 'u', 'l', 'l']
  | .bool true => ['t', 'r', 'u', 'e']
  | .bool false => ['f', 'a', 'l', 's', 'e']
  | .num literal => num literal
  | .str s => encodeString s
  | .arr items => '[' :: [','].intercalate (encodeItems num items) ++ [']']
  | .obj ms =>
    let written := (sortMembers (encodeMembers num ms)).map fun m => encodeString m.1 ++ ':' :: m.2
    '\x7b' :: [','].intercalate written ++ ['\x7d']

def encodeItems (num : List Char → List Char) : List Json → List (List Char)
  | [] => []
  | v :: vs => encode num v :: encodeItems num vs

def encodeMembers (num : List Char → List Char) : List (String × Json) → List (String × List Char)
  | [] => []
  | (name, v) :: ms => (name, encode num v) :: encodeMembers num ms

end

end Json
