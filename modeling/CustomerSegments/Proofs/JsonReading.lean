import CustomerSegments.Proofs.JsonTokens

namespace CustomerSegments.Json

/-- Goes on behind a value inside some containers. -/
def proceed (value : Reading) (frames : List Frame) (tokens : List Token) : Document :=
  match frames with
  | [] => ⟨value, tokens⟩
  | frame :: outer => read (frame.add value :: outer) .commaOrClose tokens

variable {outer : List Frame} {ts : List Token}

/-- A value may stand here. -/
def Expect.OfValue (expect : Expect) : Prop :=
  expect = .value ∨ expect = .valueOrClose

theorem read_closeArray (items : List Reading) :
    read (.array items :: outer) .commaOrClose (.closeArray :: ts) = proceed (.array items.reverse true) outer ts := by
  cases outer <;> rfl

theorem read_closeObject (members : List (Option String × Reading)) :
    read (.object members :: outer) .commaOrClose (.closeObject :: ts) =
      proceed (.object members.reverse true) outer ts := by
  cases outer <;> rfl

theorem read_member {expect : Expect} (members : List (Option String × Reading)) (k : String)
    (place : expect = .name ∨ expect = .nameOrClose) :
    read (.object members :: outer) expect (.string (some k) :: .colon :: ts) =
      read (.member (some k) members :: outer) .value ts := by
  rcases place with rfl | rfl <;> simp only [read]

mutual

theorem read_tokensOf (j : Json) {expect : Expect} (place : expect.OfValue) (frames : List Frame)
    (ts : List Token) : read frames expect (tokensOf j ++ ts) = proceed (.ofJson j) frames ts := by
  match j with
  | .null | .bool b | .number n | .string s =>
    rcases place with rfl | rfl <;> cases frames <;> rfl
  | .array [] =>
    rcases place with rfl | rfl <;> cases frames <;> rfl
  | .array (x :: xs) =>
    have inner := read_tokensOfItems (x :: xs) (List.cons_ne_nil _ _) (.inr rfl) [] frames ts
    rw [tokensOf, List.cons_append, List.cons_append, List.append_assoc]
    rcases place with rfl | rfl <;> exact inner
  | .object [] =>
    rcases place with rfl | rfl <;> cases frames <;> rfl
  | .object (m :: ms) =>
    have inner := read_tokensOfMembers (m :: ms) (List.cons_ne_nil _ _) (.inr rfl) [] frames ts
    rw [tokensOf, List.cons_append, List.cons_append, List.append_assoc]
    rcases place with rfl | rfl <;> exact inner

theorem read_tokensOfItems (items : List Json) (some : items ≠ []) {expect : Expect} (place : expect.OfValue)
    (done : List Reading) (outer : List Frame) (ts : List Token) :
    read (.array done :: outer) expect (tokensOfItems items ++ .closeArray :: ts) =
      proceed (.array (done.reverse ++ Reading.ofItems items) true) outer ts := by
  match items with
  | [] => exact absurd rfl some
  | [x] =>
    rw [tokensOfItems, read_tokensOf x place, proceed, Frame.add, read_closeArray, List.reverse_cons]
    rfl
  | x :: y :: xs =>
    have others := read_tokensOfItems (y :: xs) (List.cons_ne_nil _ _) (.inl rfl) (.ofJson x :: done) outer ts
    rw [List.reverse_cons, List.append_assoc] at others
    rw [tokensOfItems, List.append_assoc, read_tokensOf x place, proceed, Frame.add]
    exact others

theorem read_tokensOfMembers (members : List (String × Json)) (some : members ≠ []) {expect : Expect}
    (place : expect = .name ∨ expect = .nameOrClose) (done : List (Option String × Reading))
    (outer : List Frame) (ts : List Token) :
    read (.object done :: outer) expect (tokensOfMembers members ++ .closeObject :: ts) =
      proceed (.object (done.reverse ++ Reading.ofMembers members) true) outer ts := by
  match members with
  | [] => exact absurd rfl some
  | [(k, x)] =>
    rw [tokensOfMembers, List.cons_append, List.cons_append, read_member done k place, read_tokensOf x (.inl rfl),
      proceed, Frame.add, read_closeObject, List.reverse_cons]
    rfl
  | (k, x) :: m :: ms =>
    have others := read_tokensOfMembers (m :: ms) (List.cons_ne_nil _ _) (.inl rfl)
      ((Option.some k, .ofJson x) :: done) outer ts
    rw [List.reverse_cons, List.append_assoc] at others
    rw [tokensOfMembers, List.cons_append, List.cons_append, List.append_assoc, read_member done k place,
      read_tokensOf x (.inl rfl), proceed, Frame.add]
    exact others

end

/-- The text of a document is read as the document, and nothing is left. -/
theorem Document.ofText_text {j : Json} (faithful : j.NumbersReadBack) :
    Document.ofText j.text = ⟨.ofJson j, []⟩ := by
  have all := tokens_write j faithful .nil
  rw [List.append_nil, show tokens [] = [] from rfl] at all
  rw [Document.ofText, Json.text, String.toList_ofList, all, read_tokensOf j (.inl rfl), proceed]

/-- What is read of a text is read of its characters. -/
theorem Decoder.decodeText_of_toList {α : Type} (d : Decoder α) {s : String} {cs : List Char} (chars : s.toList = cs) :
    d.decodeText s = (d (.text maxDepth) (read [] .value (tokens cs)).value).bind fun value =>
      if (read [] .value (tokens cs)).rest.isEmpty then .ok value else .error .malformed := by
  rw [decodeText, Document.ofText, chars]
  rfl

end CustomerSegments.Json
