import CustomerSegments.Json.Decoder

namespace CustomerSegments

/-- An identifier of 128 bits. -/
structure Uuid where
  value : Nat
  value_lt : value < 340282366920938463463374607431768211456
deriving DecidableEq

namespace Uuid

instance : Inhabited Uuid := ⟨0, by decide⟩

instance : LT Uuid := ⟨fun a b => a.value < b.value⟩

instance : LE Uuid := ⟨fun a b => a.value ≤ b.value⟩

instance (a b : Uuid) : Decidable (a < b) :=
  inferInstanceAs (Decidable (a.value < b.value))

instance (a b : Uuid) : Decidable (a ≤ b) :=
  inferInstanceAs (Decidable (a.value ≤ b.value))

theorem eq_of_value_eq {a b : Uuid} (h : a.value = b.value) : a = b := by
  cases a; cases b; cases h; rfl

instance : Ord Uuid := ⟨fun a b => compare a.value b.value⟩

instance : Std.TransOrd Uuid where
  eq_swap {a b} := @Std.OrientedCmp.eq_swap Nat compare _ a.value b.value
  isLE_trans {a b c} := @Std.TransCmp.isLE_trans Nat compare _ a.value b.value c.value

instance : Std.LawfulEqOrd Uuid where
  compare_self {a} := @Std.ReflCmp.compare_self Nat compare _ a.value
  eq_of_compare h := eq_of_value_eq (@Std.LawfulEqCmp.eq_of_compare Nat compare _ _ _ h)

/-- The hexadecimal digits of a number, the most significant first, in a given width. -/
def hexDigits : Nat → Nat → List Char
  | 0, _ => []
  | width + 1, n => hexDigits width (n / 16) ++ [Nat.digitChar (n % 16)]

/-- The number of a run of hexadecimal digits in either case. -/
def ofHex? (cs : List Char) : Option Nat :=
  cs.foldlM (fun n c =>
    if '0' ≤ c ∧ c ≤ '9' then some (16 * n + (c.toNat - 48))
    else if 'a' ≤ c ∧ c ≤ 'f' then some (16 * n + (c.toNat - 87))
    else if 'A' ≤ c ∧ c ≤ 'F' then some (16 * n + (c.toNat - 55))
    else none) 0

/-- Eight, four, four, four and twelve digits with hyphens between them, in lower case. -/
def chars (id : Uuid) : List Char :=
  let ds := hexDigits 32 id.value
  ds.take 8 ++ '-' :: (ds.drop 8).take 4 ++ '-' :: (ds.drop 12).take 4 ++
    '-' :: (ds.drop 16).take 4 ++ '-' :: ds.drop 20

def text (id : Uuid) : String :=
  String.ofList id.chars

/-- The identifier of 32 hexadecimal digits. -/
def ofDigits? (cs : List Char) : Option Uuid :=
  if cs.length = 32 then
    (ofHex? cs).bind fun n => if h : n < 340282366920938463463374607431768211456 then some ⟨n, h⟩ else none
  else none

/-- The identifier of 32 digits in five groups with hyphens between them. -/
def ofGroups? (cs : List Char) : Option Uuid :=
  if cs.length = 36 ∧ cs[8]? = some '-' ∧ cs[13]? = some '-' ∧ cs[18]? = some '-' ∧
      cs[23]? = some '-' then
    ofDigits? (cs.take 8 ++ (cs.drop 9).take 4 ++ (cs.drop 14).take 4 ++ (cs.drop 19).take 4 ++
      cs.drop 24)
  else none

/-- The digits alone, in groups, in groups inside braces, or in groups behind `urn:uuid:`. -/
def ofChars? (cs : List Char) : Option Uuid :=
  if cs.length = 32 then ofDigits? cs
  else if cs.length = 36 then ofGroups? cs
  else if cs.length = 38 ∧ cs.head? = some '{' ∧ cs[37]? = some '}' then
    ofGroups? ((cs.drop 1).take 36)
  else if cs.length = 45 ∧ cs.take 9 = ['u', 'r', 'n', ':', 'u', 'u', 'i', 'd', ':'] then
    ofGroups? (cs.drop 9)
  else none

def ofText? (s : String) : Option Uuid :=
  ofChars? s.toList

def toJson (id : Uuid) : Json :=
  .string id.text

def decoder : Json.Decoder Uuid :=
  Json.Decoder.string.check ofText?

end Uuid

end CustomerSegments
