import CustomerSegments.Proofs.JsonMembers
import CustomerSegments.Proofs.JsonReading

namespace CustomerSegments.Json

mutual

/-- How many arrays and objects stand inside one another. -/
def depth : Json → Nat
  | .array items => depthOfItems items + 1
  | .object members => depthOfMembers members + 1
  | _ => 0

def depthOfItems : List Json → Nat
  | [] => 0
  | x :: xs => max x.depth (depthOfItems xs)

def depthOfMembers : List (String × Json) → Nat
  | [] => 0
  | (_, x) :: ms => max x.depth (depthOfMembers ms)

end

mutual

/-- Every object has its members in order, as the type promises. -/
def Ordered : Json → Prop
  | .array items => ItemsOrdered items
  | .object members => InOrder members ∧ MembersOrdered members
  | _ => True

def ItemsOrdered : List Json → Prop
  | [] => True
  | x :: xs => x.Ordered ∧ ItemsOrdered xs

def MembersOrdered : List (String × Json) → Prop
  | [] => True
  | (_, x) :: ms => x.Ordered ∧ MembersOrdered ms

end

/-- A document that its text names. -/
structure Storable (j : Json) : Prop where
  numbers : j.NumbersReadBack
  ordered : j.Ordered
  shallow : j.depth ≤ maxDepth

/-- A document of such a depth may be read from here. -/
def Source.Allows : Source → Nat → Prop
  | text room, depth => depth ≤ room
  | value, _ => True

theorem Source.Allows.mono {source : Source} {least most : Nat} (allowed : source.Allows most) (le : least ≤ most) :
    source.Allows least := by
  cases source with
  | text room => exact Nat.le_trans le allowed
  | value => trivial

theorem Source.Allows.enter {source : Source} {depth : Nat} (allowed : source.Allows (depth + 1)) :
    ∃ inner, source.enter = .ok inner ∧ inner.Allows depth := by
  cases source with
  | text room =>
    cases room with
    | zero => exact absurd allowed (Nat.not_succ_le_zero depth)
    | succ room => exact ⟨.text room, rfl, Nat.le_of_succ_le_succ allowed⟩
  | value => exact ⟨.value, rfl, trivial⟩

namespace Decoder

mutual

/-- A document at hand is decoded as it is. -/
theorem json_ofJson (j : Json) (ordered : j.Ordered) {source : Source} (allowed : source.Allows j.depth) :
    json source (.ofJson j) = .ok j := by
  match j with
  | .null | .bool b | .number n | .string s => rfl
  | .array items =>
    obtain ⟨inner, entered, allowed⟩ := Source.Allows.enter allowed
    rw [Reading.ofJson, json, entered]
    dsimp only [bind, Except.bind]
    rw [jsonItems_ofItems items ordered allowed]
    rfl
  | .object members =>
    obtain ⟨inner, entered, allowed⟩ := Source.Allows.enter allowed
    rw [Reading.ofJson, json, entered]
    dsimp only [bind, Except.bind]
    rw [jsonMembers_ofMembers members ordered.2 allowed]
    change Except.ok (Json.object (ofMembers members)) = _
    rw [ofMembers_of_inOrder ordered.1]

theorem jsonItems_ofItems (items : List Json) (ordered : ItemsOrdered items) {source : Source}
    (allowed : source.Allows (depthOfItems items)) : jsonItems source (Reading.ofItems items) = .ok items := by
  match items with
  | [] => rfl
  | x :: xs =>
    rw [Reading.ofItems, jsonItems, json_ofJson x ordered.1 (allowed.mono (Nat.le_max_left _ _)),
      jsonItems_ofItems xs ordered.2 (allowed.mono (Nat.le_max_right _ _))]
    rfl

theorem jsonMembers_ofMembers (members : List (String × Json)) (ordered : MembersOrdered members) {source : Source}
    (allowed : source.Allows (depthOfMembers members)) :
    jsonMembers source (Reading.ofMembers members) = .ok members := by
  match members with
  | [] => rfl
  | (k, x) :: ms =>
    rw [Reading.ofMembers, jsonMembers, json_ofJson x ordered.1 (allowed.mono (Nat.le_max_left _ _)),
      jsonMembers_ofMembers ms ordered.2 (allowed.mono (Nat.le_max_right _ _))]
    rfl

end

variable {α β : Type} {source : Source}

theorem check_of_ok {d : Decoder α} {f : α → Option β} {r : Reading} {a : α} {b : β} (read : d source r = .ok a)
    (accepted : f a = some b) : check d f source r = .ok b := by
  rw [check, read]
  dsimp only [bind, Except.bind]
  rw [accepted]

theorem integer_ofJson {least most : Int} {n : Integer} (least_le : least ≤ n.val) (le_most : n.val ≤ most) :
    integer least most source (.ofJson (.number (.integer n))) = .ok n.val := by
  exact check_of_ok rfl (if_pos ⟨least_le, le_most⟩)

theorem double_ofJson (x : Double) : double source (.ofJson (.ofDouble x)) = .ok x := by
  refine check_of_ok rfl ?_
  rw [Number.toFloat, Double.ofFloat?, dif_pos x.finite]

theorem option_of_ne_null {d : Decoder α} {r : Reading} (other : r ≠ .null) :
    option d source r = (d source r).map some := by
  cases r <;> first | rfl | exact absurd rfl other

theorem option_ofJson {d : Decoder α} {f : α → Json} {o : Option α} (other : ∀ a, Reading.ofJson (f a) ≠ .null)
    (read : ∀ a, o = some a → d source (.ofJson (f a)) = .ok a) :
    option d source (.ofJson (.ofOption f o)) = .ok o := by
  cases o with
  | none => rfl
  | some a =>
    rw [ofOption, option_of_ne_null (other a), read a rfl]
    rfl

theorem mapM_ofItems {d : Decoder α} {f : α → Json} {l : List α} (read : ∀ a ∈ l, d source (.ofJson (f a)) = .ok a) :
    (Reading.ofItems (l.map f)).mapM (d source) = .ok l := by
  induction l with
  | nil => rfl
  | cons a rest ih =>
    rw [List.map_cons, Reading.ofItems, List.mapM_cons, read a List.mem_cons_self,
      ih fun b mem => read b (List.mem_cons_of_mem _ mem)]
    rfl

theorem list_ofJson {d : Decoder α} {f : α → Json} {l : List α} {inner : Source} (entered : source.enter = .ok inner)
    (read : ∀ a ∈ l, d inner (.ofJson (f a)) = .ok a) : list d source (.ofJson (.array (l.map f))) = .ok l := by
  rw [Reading.ofJson, list, entered]
  dsimp only [bind, Except.bind]
  rw [mapM_ofItems read]
  rfl

end Decoder

end CustomerSegments.Json
