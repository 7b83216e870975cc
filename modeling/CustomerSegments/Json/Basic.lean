import CustomerSegments.Json.Number

namespace CustomerSegments

/-- A JSON document. An object that is read, or made by `mk`, has its members in the order of their
names, each name once; one that is only written may have them in another order. -/
inductive Json where
  | null
  | bool (b : Bool)
  | number (n : Number)
  | string (s : String)
  | array (items : List Json)
  | object (members : List (String × Json))

namespace Json

instance : Inhabited Json := ⟨null⟩

mutual

/-- Equality of documents, decided member by member. -/
def decEq : (a b : Json) → Decidable (a = b)
  | null, null => isTrue rfl
  | bool a, bool b =>
    if h : a = b then isTrue (h ▸ rfl) else isFalse fun e => h (by injection e)
  | number a, number b =>
    if h : a = b then isTrue (h ▸ rfl) else isFalse fun e => h (by injection e)
  | string a, string b =>
    if h : a = b then isTrue (h ▸ rfl) else isFalse fun e => h (by injection e)
  | array a, array b =>
    match decEqItems a b with
    | isTrue h => isTrue (h ▸ rfl)
    | isFalse h => isFalse fun e => h (by injection e)
  | object a, object b =>
    match decEqMembers a b with
    | isTrue h => isTrue (h ▸ rfl)
    | isFalse h => isFalse fun e => h (by injection e)
  | null, bool _ | null, number _ | null, string _ | null, array _ | null, object _
  | bool _, null | bool _, number _ | bool _, string _ | bool _, array _ | bool _, object _
  | number _, null | number _, bool _ | number _, string _ | number _, array _
  | number _, object _
  | string _, null | string _, bool _ | string _, number _ | string _, array _
  | string _, object _
  | array _, null | array _, bool _ | array _, number _ | array _, string _ | array _, object _
  | object _, null | object _, bool _ | object _, number _ | object _, string _
  | object _, array _ => isFalse (by intro e; injection e)

def decEqItems : (a b : List Json) → Decidable (a = b)
  | [], [] => isTrue rfl
  | [], _ :: _ | _ :: _, [] => isFalse (by intro e; injection e)
  | x :: xs, y :: ys =>
    match decEq x y, decEqItems xs ys with
    | isTrue h, isTrue hs => isTrue (by rw [h, hs])
    | isFalse h, _ => isFalse fun e => h (by injection e)
    | _, isFalse hs => isFalse fun e => hs (by injection e)

def decEqMembers : (a b : List (String × Json)) → Decidable (a = b)
  | [], [] => isTrue rfl
  | [], _ :: _ | _ :: _, [] => isFalse (by intro e; injection e)
  | (k, x) :: xs, (l, y) :: ys =>
    if hk : k = l then
      match decEq x y, decEqMembers xs ys with
      | isTrue h, isTrue hs => isTrue (by rw [hk, h, hs])
      | isFalse h, _ => isFalse fun e => h (by injection e with e; injection e)
      | _, isFalse hs => isFalse fun e => hs (by injection e)
    else isFalse fun e => hk (by injection e with e; injection e)

end

instance : DecidableEq Json := decEq

mutual

/-- Equality of values: numbers are equal within their kind, and the two zeros are equal. -/
def same : Json → Json → Bool
  | null, null => true
  | bool a, bool b => a == b
  | number a, number b => a.same b
  | string a, string b => a == b
  | array a, array b => sameItems a b
  | object a, object b => sameMembers a b
  | _, _ => false

def sameItems : List Json → List Json → Bool
  | [], [] => true
  | x :: xs, y :: ys => same x y && sameItems xs ys
  | _, _ => false

def sameMembers : List (String × Json) → List (String × Json) → Bool
  | [], [] => true
  | (k, x) :: xs, (l, y) :: ys => k == l && same x y && sameMembers xs ys
  | _, _ => false

end

def isNull : Json → Bool
  | null => true
  | _ => false

/-- Puts a member in its place; a member of that name is replaced. -/
def putMember (name : String) (value : Json) : List (String × Json) → List (String × Json)
  | [] => [(name, value)]
  | (k, v) :: rest =>
    if name < k then (name, value) :: (k, v) :: rest
    else if name = k then (name, value) :: rest
    else (k, v) :: putMember name value rest

/-- Members put one after the other: in order of their names, the last of a name. -/
def ofMembers (members : List (String × Json)) : List (String × Json) :=
  members.foldl (fun done (name, value) => putMember name value done) []

/-- The object with these members. -/
def mk (members : List (String × Json)) : Json :=
  object (ofMembers members)

/-- The member of an object; none for any other document. -/
def get? (name : String) : Json → Option Json
  | object members => members.lookup name
  | _ => none

/-- Descends through objects along a path of member names. -/
def lookup? (document : Json) (path : List String) : Option Json :=
  path.foldlM (fun node name => node.get? name) document

/-- A value or null. -/
def ofOption (f : α → Json) : Option α → Json
  | none => null
  | some a => f a

/-- An integer; one of more than 64 bits is null. -/
def ofInt (n : Int) : Json :=
  match Integer.ofInt? n with
  | some i => number (.integer i)
  | none => null

def ofNat (n : Nat) : Json :=
  ofInt n

def ofInt64 (n : Int64) : Json :=
  number (.integer ⟨n.toInt, by have := n.le_toInt; have := n.toInt_lt; omega⟩)

def ofUInt64 (n : UInt64) : Json :=
  number (.integer ⟨n.toNat, by have := n.toNat_lt; omega⟩)

def ofDouble (x : Double) : Json :=
  number (.double x)

end Json

end CustomerSegments
