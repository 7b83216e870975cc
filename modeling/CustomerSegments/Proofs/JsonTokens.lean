import CustomerSegments.Json.Decoder
import CustomerSegments.Json.Text
import CustomerSegments.Proofs.DecimalText

namespace CustomerSegments

/-- The text of a number names the number. -/
def Number.ReadsBack (n : Number) : Prop :=
  Json.ofText? (Json.number n).text = .ok (.number n)

namespace Json

/-- Nothing that goes on with a number stands in front. -/
def Delimited (cs : List Char) : Prop :=
  ∀ c ∈ cs.head?, c = ',' ∨ c = ']' ∨ c = '}'

theorem Delimited.nil : Delimited [] := by
  nofun

theorem Delimited.cons {c : Char} {cs : List Char} (mark : c = ',' ∨ c = ']' ∨ c = '}') : Delimited (c :: cs) := by
  intro d same
  cases same
  exact mark

namespace Scan

theorem tokens_cons_some {scan next : Scan} {c : Char} {cs : List Char} {done : List Token}
    (step : scan.step c = (done, some next)) : scan.tokens (c :: cs) = done ++ next.tokens cs := by
  simp only [tokens, step]

theorem tokens_cons_none {scan : Scan} {c : Char} {cs : List Char} {done : List Token}
    (step : scan.step c = (done, none)) : scan.tokens (c :: cs) = done := by
  simp only [tokens, step]

/-- A literal that has begun gives a number, or nothing can be read of it. -/
theorem tokens_numeral (place : NumeralPlace) (read cs : List Char) :
    ∃ token rest, (numeral place read).tokens cs = token :: rest ∧ (token = .stray ∨ ∃ n, token = .number n) := by
  induction cs generalizing place read with
  | nil =>
    rw [tokens, finish]
    split
    · exact ⟨_, [], rfl, .inr ⟨_, rfl⟩⟩
    · exact ⟨_, [], rfl, .inl rfl⟩
  | cons c cs ih =>
    cases on : place.step c with
    | some next =>
      have step : (numeral place read).step c = ([], some (numeral next (c :: read))) := by
        simp only [Scan.step, on]
      rw [tokens_cons_some step]
      exact ih next (c :: read)
    | none =>
      by_cases ends : place.mayEnd (some c) = true
      · have step : (numeral place read).step c = (numberOf read :: (start c).1, (start c).2) := by
          simp only [Scan.step, on, if_pos ends]
        cases after : (start c).2 with
        | some next =>
          rw [after] at step
          exact ⟨numberOf read, _, tokens_cons_some step, .inr ⟨_, rfl⟩⟩
        | none =>
          rw [after] at step
          exact ⟨numberOf read, _, tokens_cons_none step, .inr ⟨_, rfl⟩⟩
      · have step : (numeral place read).step c = ([.stray], none) := by
          simp only [Scan.step, on, if_neg ends]
        exact ⟨.stray, _, tokens_cons_none step, .inl rfl⟩

/-- Inside a token, every character completes one or leaves the scanner inside. -/
theorem step_of_busy {scan : Scan} (busy : scan ≠ .between) (c : Char) :
    (scan.step c).1 ≠ [] ∨ ∃ next, (scan.step c).2 = some next ∧ next ≠ .between := by
  fun_cases Scan.step scan c <;> simp_all

theorem tokens_ne_nil {scan : Scan} (busy : scan ≠ .between) (cs : List Char) : scan.tokens cs ≠ [] := by
  induction cs generalizing scan with
  | nil =>
    cases scan with
    | between => exact absurd rfl busy
    | numeral place read =>
      rw [tokens, finish]
      split <;> exact List.cons_ne_nil _ _
    | word | quoted | escape | unit => exact List.cons_ne_nil _ _
  | cons c cs ih =>
    rw [tokens]
    rcases step_of_busy busy c with completed | ⟨next, inside, busy'⟩
    · split
      · next step =>
        rw [step] at completed
        exact List.append_ne_nil_of_left_ne_nil completed _
      · next step =>
        rwa [step] at completed
    · split
      · next step =>
        rw [step] at inside
        cases inside
        exact List.append_ne_nil_of_right_ne_nil _ (ih busy')
      · next step =>
        rw [step] at inside
        cases inside

theorem start_ne_nil_of_stop {c : Char} (stops : (start c).2 = none) : (start c).1 ≠ [] := by
  revert stops
  fun_cases start c <;> simp

/-- Space at the end of a text is space inside a longer one. -/
theorem tokens_append_of_silent {cs : List Char} (silent : between.tokens cs = []) (rest : List Char) :
    between.tokens (cs ++ rest) = between.tokens rest := by
  induction cs with
  | nil => rfl
  | cons c cs ih =>
    have step : between.step c = ((start c).1, (start c).2) := rfl
    cases after : (start c).2 with
    | none =>
      rw [after] at step
      rw [tokens_cons_none step] at silent
      exact absurd silent (start_ne_nil_of_stop after)
    | some next =>
      rw [after] at step
      rw [tokens_cons_some step, List.append_eq_nil_iff] at silent
      have space : next = .between := Classical.byContradiction fun busy => tokens_ne_nil busy cs silent.2
      subst space
      rw [List.cons_append, tokens_cons_some step, silent.1, List.nil_append, ih silent.2]

/-- A literal may end before a delimiter exactly where it may end with the text. -/
theorem step_numeral_of_mark {place : NumeralPlace} {c : Char} (mark : c = ',' ∨ c = ']' ∨ c = '}')
    (ends : place.mayEnd none = true) (read : List Char) :
    (numeral place read).step c = (numberOf read :: (start c).1, (start c).2) := by
  rcases mark with rfl | rfl | rfl <;> cases place <;> first | rfl | cases ends

/-- A literal that is a whole text is one also before a delimiter. -/
theorem tokens_numeral_append {place : NumeralPlace} {read cs rest : List Char} {n : Option Number}
    (alone : (numeral place read).tokens cs = [.number n]) (delimited : Delimited rest) :
    (numeral place read).tokens (cs ++ rest) = .number n :: between.tokens rest := by
  induction cs generalizing place read with
  | nil =>
    rw [tokens, finish] at alone
    split at alone
    · next ends =>
      have same : numberOf read = .number n := (List.cons.inj alone).1
      cases rest with
      | nil => rw [List.append_nil, tokens, finish, if_pos ends, same]; rfl
      | cons c cs =>
        have step := step_numeral_of_mark (delimited c rfl) ends read
        have first : between.step c = ((start c).1, (start c).2) := rfl
        cases after : (start c).2 with
        | none =>
          rw [after] at step first
          rw [List.nil_append, tokens_cons_none step, tokens_cons_none first, same]
        | some next =>
          rw [after] at step first
          rw [List.nil_append, tokens_cons_some step, tokens_cons_some first, same, List.cons_append]
    · cases (List.cons.inj alone).1
  | cons c cs ih =>
    cases on : place.step c with
    | some next =>
      have step : (numeral place read).step c = ([], some (numeral next (c :: read))) := by
        simp only [Scan.step, on]
      rw [tokens_cons_some step, List.nil_append] at alone
      rw [List.cons_append, tokens_cons_some step, List.nil_append, ih alone]
    | none =>
      by_cases ends : place.mayEnd (some c) = true
      · have step : (numeral place read).step c = (numberOf read :: (start c).1, (start c).2) := by
          simp only [Scan.step, on, if_pos ends]
        have first : between.step c = ((start c).1, (start c).2) := rfl
        cases after : (start c).2 with
        | none =>
          rw [after] at step
          rw [tokens_cons_none step] at alone
          exact absurd (List.cons.inj alone).2 (start_ne_nil_of_stop after)
        | some next =>
          rw [after] at step first
          rw [tokens_cons_some step, List.cons_append] at alone
          obtain ⟨same, silent⟩ := List.cons.inj alone
          rw [← tokens_cons_some first] at silent
          have whole := tokens_append_of_silent silent rest
          rw [List.cons_append, tokens_cons_some first] at whole
          rw [List.cons_append, tokens_cons_some step, same, List.cons_append, whole]
      · have step : (numeral place read).step c = ([.stray], none) := by
          simp only [Scan.step, on, if_neg ends]
        rw [tokens_cons_none step] at alone
        cases (List.cons.inj alone).1

theorem hexValue?_digitChar {d : Nat} (small : d < 16) : hexValue? (Nat.digitChar d) = some d := by
  revert d
  decide

theorem step_quoted_plain {read : List Piece} {c : Char} (quote : c ≠ '"') (slash : c ≠ '\\')
    (printed : ¬ c.toNat < 0x20) : (quoted read).step c = ([], some (quoted (.char c :: read))) := by
  simp only [Scan.step, if_neg quote, if_neg slash, if_neg printed]

/-- The four digits of a control character give the character back. -/
theorem tokens_unit (read : List Piece) {c : Char} (control : c.toNat < 0x20) (cs : List Char) :
    (unit read 2 0).tokens (Nat.digitChar (c.toNat / 16) :: Nat.digitChar (c.toNat % 16) :: cs) =
      (quoted (.char c :: read)).tokens cs := by
  have high : hexValue? (Nat.digitChar (c.toNat / 16)) = some (c.toNat / 16) := hexValue?_digitChar (by omega)
  have low : hexValue? (Nat.digitChar (c.toNat % 16)) = some (c.toNat % 16) := hexValue?_digitChar (by omega)
  have third : (unit read 2 0).step (Nat.digitChar (c.toNat / 16)) = ([], some (unit read 3 (c.toNat / 16))) := by
    simp [Scan.step, high]
  have value : 16 * (c.toNat / 16) + c.toNat % 16 = c.toNat := Nat.div_add_mod _ _
  have last : (unit read 3 (c.toNat / 16)).step (Nat.digitChar (c.toNat % 16)) =
      ([], some (quoted (.char c :: read))) := by
    have whole : Piece.ofUnit c.toNat = .char c := by
      rw [Piece.ofUnit, if_neg (by omega), Char.ofNat_toNat]
    simp only [Scan.step, low, if_true, value, whole]
  rw [tokens_cons_some third, tokens_cons_some last]
  rfl

/-- The scanner undoes the escape of a character. -/
theorem tokens_escapeChar (read : List Piece) (c : Char) (cs : List Char) :
    (quoted read).tokens (escapeChar c ++ cs) = (quoted (.char c :: read)).tokens cs := by
  unfold escapeChar
  split
  · next same => subst same; rfl
  split
  · next same => subst same; rfl
  split
  · next same => subst same; rfl
  split
  · next same => subst same; rfl
  split
  · next same => subst same; rfl
  split
  · next same => subst same; rfl
  split
  · next same => subst same; rfl
  split
  · next control => exact tokens_unit read control cs
  · next quote slash _ _ _ _ _ printed =>
    exact tokens_cons_some (step_quoted_plain quote slash printed)

theorem tokens_flatMap_escapeChar (read : List Piece) (text cs : List Char) :
    (quoted read).tokens (text.flatMap escapeChar ++ cs) =
      (quoted ((text.map Piece.char).reverse ++ read)).tokens cs := by
  induction text generalizing read with
  | nil => rfl
  | cons c text ih =>
    rw [List.flatMap_cons, List.append_assoc, tokens_escapeChar, ih, List.map_cons, List.reverse_cons,
      List.append_assoc, List.singleton_append]

theorem join_map_char (text : List Char) : join (text.map Piece.char) = some text := by
  induction text with
  | nil => rfl
  | cons c text ih => rw [List.map_cons, join, ih]; rfl

/-- A quoted text gives one token, the text. -/
theorem tokens_quote (s : String) (rest : List Char) :
    between.tokens (quote s ++ rest) = .string (some s) :: between.tokens rest := by
  have opened : between.step '"' = ([], some (quoted [])) := rfl
  have joined : join (((s.toList.map Piece.char).reverse ++ []).reverse) = some s.toList := by
    rw [List.append_nil, List.reverse_reverse, join_map_char]
  have closed : (quoted ((s.toList.map Piece.char).reverse ++ [])).step '"' =
      ([.string (some s)], some .between) := by
    simp only [Scan.step, if_true, joined, Option.map_some, String.ofList_toList]
  rw [quote, List.cons_append, List.cons_append, tokens_cons_some opened, List.append_assoc,
    tokens_flatMap_escapeChar, List.singleton_append, tokens_cons_some closed]
  rfl

end Scan

theorem exists_write_eq_cons (style : Decimal.Notation) (d : Decimal.Scaled) :
    ∃ c cs, style.write d = c :: cs ∧ Decimal.isDigit c = true := by
  obtain ⟨c, cs, shape, digit⟩ := Decimal.exists_digits_eq_cons d.significand
  unfold Decimal.Notation.write
  rw [shape]
  dsimp only
  split
  · split
    · exact ⟨c, _, rfl, digit⟩
    · split
      · next some =>
        have room : (((c :: cs).length : Int) + d.power).toNat ≠ 0 := by omega
        obtain ⟨k, taken⟩ := Nat.exists_eq_succ_of_ne_zero room
        rw [taken]
        exact ⟨c, _, rfl, digit⟩
      · exact ⟨'0', _, rfl, rfl⟩
  · exact ⟨c, _, rfl, digit⟩

/-- A number begins with a sign or a digit. -/
theorem exists_text_eq_cons (n : Number) :
    ∃ c cs, n.text = c :: cs ∧ (c = '-' ∨ Decimal.isDigit c = true) := by
  cases n with
  | integer n =>
    rw [Number.text]
    cases n.val with
    | ofNat k =>
      obtain ⟨c, cs, shape, digit⟩ := Decimal.exists_digits_eq_cons k
      exact ⟨c, cs, shape, .inr digit⟩
    | negSucc k => exact ⟨'-', _, rfl, .inl rfl⟩
  | double x =>
    rw [Number.text, Decimal.Notation.text]
    split
    · exact ⟨'-', _, rfl, .inl rfl⟩
    · split
      · obtain ⟨c, cs, shape, digit⟩ := exists_write_eq_cons Number.notation16 ⟨0, 0⟩
        exact ⟨c, cs, shape, .inr digit⟩
      · obtain ⟨c, cs, shape, digit⟩ := exists_write_eq_cons Number.notation16 (Decimal.shortest x)
        exact ⟨c, cs, shape, .inr digit⟩

theorem start_of_digit {c : Char} (digit : Decimal.isDigit c = true) (unlike : c ≠ '0') :
    start c = ([], some (.numeral .whole [c])) := by
  have printed : isSpace c = false := by
    cases space : isSpace c with
    | false => rfl
    | true =>
      simp only [isSpace, Bool.or_eq_true, decide_eq_true_eq] at space
      rcases space with ((rfl | rfl) | rfl) | rfl <;> cases digit
  have unsigned : c ≠ '-' := by
    rintro rfl
    cases digit
  simp only [start, printed, Bool.false_eq_true, if_false, if_neg unsigned, if_neg unlike, digit, if_true]

theorem start_of_sign_or_digit {c : Char} (first : c = '-' ∨ Decimal.isDigit c = true) :
    ∃ place, start c = ([], some (.numeral place [c])) := by
  rcases first with rfl | digit
  · exact ⟨.sign, rfl⟩
  · by_cases zero : c = '0'
    · subst zero
      exact ⟨.zero, rfl⟩
    · exact ⟨.whole, start_of_digit digit zero⟩

theorem read_stray (rest : List Token) : read [] .value (.stray :: rest) = ⟨.broken, rest⟩ := by
  simp only [read, breakOff]

theorem read_number (n : Option Number) (rest : List Token) :
    read [] .value (.number n :: rest) = ⟨.number n, rest⟩ := by
  simp only [read]

/-- A number that reads back gives one token, alone and before a delimiter. -/
theorem tokens_number {n : Number} (faithful : n.ReadsBack) {rest : List Char} (delimited : Delimited rest) :
    tokens (n.text ++ rest) = .number (some n) :: tokens rest := by
  obtain ⟨c, cs, shape, first⟩ := exists_text_eq_cons n
  obtain ⟨place, begun⟩ := start_of_sign_or_digit first
  have step : Scan.between.step c = ([], some (.numeral place [c])) := begun
  have alone : (Scan.numeral place [c]).tokens cs = [.number (some n)] := by
    have whole : tokens (Json.number n).text.toList = (Scan.numeral place [c]).tokens cs := by
      rw [Json.text, write, String.toList_ofList, shape, tokens, Scan.tokens_cons_some step]
      rfl
    obtain ⟨token, left, read, kind⟩ := Scan.tokens_numeral place [c] cs
    rw [read] at whole ⊢
    rw [Number.ReadsBack, ofText?, Decoder.decodeText, Document.ofText, whole] at faithful
    rcases kind with rfl | ⟨m, rfl⟩
    · rw [read_stray] at faithful
      cases faithful
    · rw [read_number] at faithful
      cases m with
      | none => cases faithful
      | some m =>
        cases left with
        | nil =>
          cases faithful
          rfl
        | cons more left => cases faithful
  rw [shape, List.cons_append, tokens, Scan.tokens_cons_some step, List.nil_append,
    Scan.tokens_numeral_append alone delimited]
  rfl

mutual

/-- The tokens of a document. -/
def tokensOf : Json → List Token
  | .null => [.null]
  | .bool b => [.bool b]
  | .number n => [.number (some n)]
  | .string s => [.string (some s)]
  | .array items => .openArray :: tokensOfItems items ++ [.closeArray]
  | .object members => .openObject :: tokensOfMembers members ++ [.closeObject]

def tokensOfItems : List Json → List Token
  | [] => []
  | [x] => tokensOf x
  | x :: y :: xs => tokensOf x ++ .comma :: tokensOfItems (y :: xs)

def tokensOfMembers : List (String × Json) → List Token
  | [] => []
  | [(k, x)] => .string (some k) :: .colon :: tokensOf x
  | (k, x) :: m :: ms => .string (some k) :: .colon :: (tokensOf x ++ .comma :: tokensOfMembers (m :: ms))

end

mutual

/-- Every number inside reads back. -/
def NumbersReadBack : Json → Prop
  | .number n => n.ReadsBack
  | .array items => ItemsReadBack items
  | .object members => MembersReadBack members
  | _ => True

def ItemsReadBack : List Json → Prop
  | [] => True
  | x :: xs => x.NumbersReadBack ∧ ItemsReadBack xs

def MembersReadBack : List (String × Json) → Prop
  | [] => True
  | (_, x) :: ms => x.NumbersReadBack ∧ MembersReadBack ms

end

theorem tokens_mark {c : Char} {token : Token} (single : start c = ([token], some .between)) (rest : List Char) :
    tokens (c :: rest) = token :: tokens rest :=
  Scan.tokens_cons_some (show Scan.between.step c = _ from single)

mutual

/-- The text of a document gives its tokens, whatever delimiter follows. -/
theorem tokens_write (j : Json) (faithful : j.NumbersReadBack) {rest : List Char} (delimited : Delimited rest) :
    tokens (write j ++ rest) = tokensOf j ++ tokens rest := by
  match j with
  | .null => rfl
  | .bool true => rfl
  | .bool false => rfl
  | .number n => exact tokens_number faithful delimited
  | .string s => exact Scan.tokens_quote s rest
  | .array items =>
    have closed : Delimited (']' :: rest) := .cons (.inr (.inl rfl))
    have inner := tokens_writeItems items faithful closed
    rw [write, List.cons_append, List.cons_append, List.append_assoc, List.singleton_append]
    rw [tokens_mark rfl, inner, tokens_mark rfl, tokensOf]
    simp only [List.cons_append, List.append_assoc, List.nil_append]
  | .object members =>
    have closed : Delimited ('}' :: rest) := .cons (.inr (.inr rfl))
    have inner := tokens_writeMembers members faithful closed
    rw [write, List.cons_append, List.cons_append, List.append_assoc, List.singleton_append]
    rw [tokens_mark rfl, inner, tokens_mark rfl, tokensOf]
    simp only [List.cons_append, List.append_assoc, List.nil_append]

theorem tokens_writeItems (items : List Json) (faithful : ItemsReadBack items) {rest : List Char}
    (delimited : Delimited rest) : tokens (writeItems items ++ rest) = tokensOfItems items ++ tokens rest := by
  match items with
  | [] => rfl
  | [x] => exact tokens_write x faithful.1 delimited
  | x :: y :: xs =>
    have others := tokens_writeItems (y :: xs) faithful.2 delimited
    rw [writeItems, tokensOfItems, List.append_assoc, List.cons_append,
      tokens_write x faithful.1 (.cons (.inl rfl)), tokens_mark rfl, others]
    simp only [List.append_assoc, List.cons_append]

theorem tokens_writeMembers (members : List (String × Json)) (faithful : MembersReadBack members)
    {rest : List Char} (delimited : Delimited rest) :
    tokens (writeMembers members ++ rest) = tokensOfMembers members ++ tokens rest := by
  match members with
  | [] => rfl
  | [(k, x)] =>
    have name := Scan.tokens_quote k (':' :: (write x ++ rest))
    rw [writeMembers, tokensOfMembers, List.append_assoc, List.cons_append, tokens, name, ← tokens,
      tokens_mark rfl, tokens_write x faithful.1 delimited]
    rfl
  | (k, x) :: m :: ms =>
    have others := tokens_writeMembers (m :: ms) faithful.2 delimited
    have name := Scan.tokens_quote k (':' :: (write x ++ ',' :: (writeMembers (m :: ms) ++ rest)))
    rw [writeMembers, tokensOfMembers, List.append_assoc, List.cons_append, List.append_assoc,
      List.cons_append, tokens, name, ← tokens, tokens_mark rfl,
      tokens_write x faithful.1 (.cons (.inl rfl)), tokens_mark rfl, others]
    simp only [List.cons_append, List.append_assoc]

end

end Json

end CustomerSegments
