import CustomerSegments.Text.CaseTable

namespace CustomerSegments.Text

/-- The lower case of a character by itself: of `İ` it is an `i` and a combining dot, of any
other character one character, and mostly the character itself. -/
def lowerChar (c : Char) : List Char :=
  let n := c.toNat
  if n < 0x80 then [c.toLower]
  else if n = 0x130 then ['i', Char.ofNat 0x307]
  else
    match caseRanges.find? (fun r => r.first ≤ n && n ≤ r.last && (n - r.first) % r.stride == 0) with
    | some r => [Char.ofNat (n + r.shift).toNat]
    | none => [c]

/-- A letter, or a letter-like character, that has a case. -/
def isCased (c : Char) : Bool :=
  casedRanges.any fun (first, last) => first ≤ c.toNat && c.toNat ≤ last

/-- A character that the search for a neighbouring cased character skips. -/
def isCaseIgnorable (c : Char) : Bool :=
  caseIgnorableRanges.any fun (first, last) => first ≤ c.toNat && c.toNat ≤ last

/-- The next character that is not skipped has a case. -/
def casedAhead (cs : List Char) : Bool :=
  match cs.dropWhile isCaseIgnorable with
  | [] => false
  | c :: _ => isCased c

/-- Lower case of what is left of a text; `inWord` says that a cased character comes before it.
A capital sigma that ends a word becomes the final sigma. -/
def lowerFrom (inWord : Bool) : List Char → List Char
  | [] => []
  | c :: cs =>
    let lowered :=
      if c = 'Σ' then [if inWord && !casedAhead cs then 'ς' else 'σ'] else lowerChar c
    lowered ++ lowerFrom (if isCaseIgnorable c then inWord else isCased c) cs

/-- A text in lower case, by Unicode's full case mapping. -/
def lower (s : String) : String :=
  String.ofList (lowerFrom false s.toList)

/-- One text occurs in another as a contiguous part. -/
def occursIn (needle : List Char) : List Char → Bool
  | [] => needle.isEmpty
  | c :: cs => needle.isPrefixOf (c :: cs) || occursIn needle cs

theorem occursIn_iff {needle text : List Char} :
    occursIn needle text = true ↔ needle <:+: text := by
  induction text with
  | nil => simp [occursIn]
  | cons c cs ih => simp [occursIn, ih, List.infix_cons_iff]

end CustomerSegments.Text
