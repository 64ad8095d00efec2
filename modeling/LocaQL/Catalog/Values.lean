import LocaQL.Lib.Float64
import LocaQL.Catalog.Pseudocolumns
import LocaQL.Streaming.InsertAll

/-!
# Values on their way into cells

What `encoding/json` decodes, what the engine scans and what a statement binds are all Go
values of type `any`.  A number read from JSON is a float, a number of the engine is an
integer or a float.  `scalarValueToString` turns such a value into a stored cell.  A float
without a fraction is converted to a 64-bit integer and printed as one, which is exact for the
integers that the conversion can represent and for no other (`integral_stored_iff`).
-/

namespace LocaQL

/-- A value of type `any`.  Bytes are the text they spell; the integers and floats of 32 bits,
which only Avro has, are left out. -/
inductive GoValue where
  | nil
  | bool (b : Bool)
  | int (n : Int64)
  | float (x : Float64)
  | text (s : String)
  | list (items : List GoValue)
  | map (members : List (String × GoValue))
deriving Repr, Inhabited

/-- What `strconv` and `fmt` do that is not said here: the float of a text or its error, and
the verb `%v` of a value that is neither a string nor a boolean. -/
class GoFormat where
  parseFloat : String → Except String Float64
  sprint : GoValue → String

/-- No text is a float and no value has a text. -/
@[reducible] def GoFormat.none : GoFormat := ⟨fun _ => .error "", fun _ => ""⟩

namespace GoValue

mutual

/-- The value that `encoding/json` decodes into. -/
def ofJson : Json → GoValue
  | .null => .nil
  | .bool b => .bool b
  | .num literal => .float (Float64.ofLiteral literal)
  | .str s => .text s
  | .arr items => .list (ofItems items)
  | .obj members => .map (ofMembers members)

def ofItems : List Json → List GoValue
  | [] => []
  | v :: vs => ofJson v :: ofItems vs

def ofMembers : List (String × Json) → List (String × GoValue)
  | [] => []
  | (name, v) :: ms => (name, ofJson v) :: ofMembers ms

end

mutual

/-- The JSON that `json.Marshal` writes; a value with an infinity or NaN has none. -/
def toJson : GoValue → Option Json
  | .nil => some .null
  | .bool b => some (.bool b)
  | .int n => some (.num (toString n.toInt).toList)
  | .float x => x.marshal.map .num
  | .text s => some (.str s)
  | .list items => (toItems items).map .arr
  | .map members => (toMembers members).map .obj

def toItems : List GoValue → Option (List Json)
  | [] => some []
  | v :: vs =>
    match toJson v, toItems vs with
    | some w, some ws => some (w :: ws)
    | _, _ => none

def toMembers : List (String × GoValue) → Option (List (String × Json))
  | [] => some []
  | (name, v) :: ms =>
    match toJson v, toMembers ms with
    | some w, some ws => some ((name, w) :: ws)
    | _, _ => none

end

/-- `obj[name]`: the last member of that name, and nil without one. -/
def lookup (members : List (String × GoValue)) (name : String) : GoValue :=
  match members.reverse.find? fun m => m.1 == name with
  | some m => m.2
  | none => .nil

/-- `json.Marshal`. -/
def marshal (v : GoValue) : Option String := v.toJson.map fun w => String.ofList (Json.encode id w)

/-- `fmt.Sprintf("%v", v)`. -/
def sprint [GoFormat] : GoValue → String
  | .text s => s
  | .bool true => "true"
  | .bool false => "false"
  | v => GoFormat.sprint v

end GoValue

/-- The text of a float in a cell. -/
def floatText (x : Float64) : String :=
  if x.isIntegral then toString x.toInt64.toInt else String.ofList x.format

namespace AnyValue

variable [GoFormat]

def scalarValueToPlainString : GoValue → String
  | .nil => ""
  | .text s => s
  | .bool true => "true"
  | .bool false => "false"
  | .int n => toString n.toInt
  | .float x => floatText x
  | v => v.marshal.getD v.sprint

def scalarValueToString : GoValue → String
  | .nil => storedNullCell
  | v => storeStringCell (scalarValueToPlainString v)

end AnyValue

/-! ## Integral floats -/

/-- The integer that a decimal text spells. -/
def spelled (text : String) : Option Int :=
  let s := text.toList
  let negative := s.head? == some '-'
  let ds := if negative then s.tail else s
  if ds.isEmpty || !ds.all Json.isDigit then none
  else some (signed negative (Json.digitsValue ds))

theorem spelled_toString (n : Int) : spelled (toString n) = some n := by
  obtain ⟨ne, digits⟩ := GoText.all_digits_repr n.natAbs
  have empty : (Nat.repr n.natAbs).toList.isEmpty = false := by
    rwa [Bool.eq_false_iff, ne_eq, List.isEmpty_iff]
  have head : ((toString n).toList.head? == some '-') = decide (n < 0) := by
    rw [Float64.toString_toList]
    by_cases neg : n < 0
    · rw [decide_eq_true neg]
      rfl
    · rw [decide_eq_false neg]
      exact Bool.eq_false_iff.mpr fun is =>
        GoText.not_mem_repr rfl n.natAbs (List.mem_of_head? (eq_of_beq is))
  have tail : (if decide (n < 0) then (toString n).toList.tail else (toString n).toList) =
      (Nat.repr n.natAbs).toList := by
    rw [Float64.toString_toList]
    by_cases neg : n < 0
    · rw [decide_eq_true neg]
      rfl
    · rw [decide_eq_false neg]
      rfl
  have all : (Nat.repr n.natAbs).toList.all Json.isDigit = true := digits
  simp only [spelled, head, tail, empty, all, Bool.not_true, Bool.or_self, Bool.false_eq_true,
    if_false, Float64.digitsValue_repr, signed_natAbs]

/-- A cell is a decimal text of an integer. -/
def CellDenotes (cell : String) (n : Int) : Prop :=
  ∃ text, loadStoredCell cell = some text ∧ spelled text = some n

theorem floatText_of_isInt {x : Float64} {n : Int} (h : x.IsInt n) :
    floatText x = toString (if -2 ^ 63 ≤ n ∧ n < 2 ^ 63 then n else -2 ^ 63) := by
  rw [floatText, if_pos (Float64.isIntegral_of_isInt h), Float64.toInt64_of_isInt h]
  split
  next fits => rw [Int64.toInt_ofInt_of_le fits.1 fits.2]
  · rfl

/-- A float that is an integer is stored as that integer exactly when it fits 64 bits. -/
theorem integral_stored_iff [GoFormat] {x : Float64} {n : Int} (h : x.IsInt n) :
    CellDenotes (AnyValue.scalarValueToString (.float x)) n ↔ -2 ^ 63 ≤ n ∧ n < 2 ^ 63 := by
  have cell : loadStoredCell (AnyValue.scalarValueToString (.float x)) = some (floatText x) :=
    loadStoredCell_storeStringCell _
  simp only [CellDenotes, cell, Option.some.injEq, exists_eq_left', floatText_of_isInt h,
    spelled_toString]
  constructor
  · intro eq
    split at eq
    next fits => exact fits
    · omega
  · exact fun fits => if_pos fits

section

attribute [local instance] GoFormat.none

theorem integral_stored_twelve :
    (Float64.ofLiteral "12.0".toList).IsInt 12 ∧
      (CellDenotes (AnyValue.scalarValueToString (.float (Float64.ofLiteral "12.0".toList))) 12 ↔
        -2 ^ 63 ≤ (12 : Int) ∧ (12 : Int) < 2 ^ 63) :=
  have isInt : (Float64.ofLiteral "12.0".toList).IsInt 12 := by decide +kernel
  ⟨isInt, integral_stored_iff isInt⟩

/-- The JSON number `1e19` is stored as the least integer of 64 bits. -/
theorem large_stored_least :
    (Float64.ofLiteral "1e19".toList).IsInt 10000000000000000000 ∧
      loadStoredCell (AnyValue.scalarValueToString (GoValue.ofJson (.num "1e19".toList))) =
        some "-9223372036854775808" := by
  refine ⟨by decide +kernel, ?_⟩
  decide +kernel

end

end LocaQL
