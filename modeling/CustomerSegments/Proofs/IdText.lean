import CustomerSegments.Id.Set
import CustomerSegments.Proofs.JsonDecoding
import Mathlib.Algebra.Group.Nat.Defs

namespace CustomerSegments

namespace Uuid

theorem length_hexDigits (width n : Nat) : (hexDigits width n).length = width := by
  induction width generalizing n with
  | zero => rfl
  | succ width ih => rw [hexDigits, List.length_append, ih, List.length_singleton]

/-- A hexadecimal digit is a decimal one or a lower-case letter. -/
theorem digitChar_cases {d : Nat} (small : d < 16) :
    ('0' ≤ Nat.digitChar d ∧ Nat.digitChar d ≤ '9' ∧ (Nat.digitChar d).toNat - 48 = d) ∨
      ¬ Nat.digitChar d ≤ '9' ∧ 'a' ≤ Nat.digitChar d ∧ Nat.digitChar d ≤ 'f' ∧ (Nat.digitChar d).toNat - 87 = d := by
  revert d
  decide

theorem ofHex?_concat {cs : List Char} {n d : Nat} (read : ofHex? cs = some n) (small : d < 16) :
    ofHex? (cs ++ [Nat.digitChar d]) = some (16 * n + d) := by
  unfold ofHex? at read ⊢
  rw [List.foldlM_append, read, Option.bind_eq_bind, Option.bind_some, List.foldlM_cons]
  rcases digitChar_cases small with ⟨least, most, value⟩ | ⟨letter, least, most, value⟩
  · rw [if_pos ⟨least, most⟩, value]
    rfl
  · rw [if_neg fun digit => letter digit.2, if_pos ⟨least, most⟩, value]
    rfl

theorem ofHex?_hexDigits (width n : Nat) : ofHex? (hexDigits width n) = some (n % 16 ^ width) := by
  induction width generalizing n with
  | zero => rw [Nat.pow_zero, Nat.mod_one]; rfl
  | succ width ih =>
    have split : 16 * (n / 16 % 16 ^ width) + n % 16 = n % 16 ^ (width + 1) := by
      rw [Nat.pow_succ, Nat.mul_comm (16 ^ width), Nat.mod_mul]
      omega
    rw [hexDigits, ofHex?_concat (ih (n / 16)) (Nat.mod_lt n (by decide)), split]

/-- The digits of five groups are the digits without the hyphens. -/
theorem ofGroups?_append {a b c d e : List Char} (ha : a.length = 8) (hb : b.length = 4) (hc : c.length = 4)
    (hd : d.length = 4) (he : e.length = 12) :
    ofGroups? (a ++ '-' :: b ++ '-' :: c ++ '-' :: d ++ '-' :: e) = ofDigits? (a ++ b ++ c ++ d ++ e) := by
  have shape : (a ++ '-' :: b ++ '-' :: c ++ '-' :: d ++ '-' :: e).length = 36 := by
    simp only [List.length_append, List.length_cons]
    omega
  rw [ofGroups?, if_pos ⟨shape, by simp [List.getElem?_append, ha, hb, hc, hd]⟩]
  simp [List.drop_append, ha, hb, hc, hd, List.drop_of_length_le]

theorem chars_eq (id : Uuid) :
    ∃ a b c d e : List Char, a.length = 8 ∧ b.length = 4 ∧ c.length = 4 ∧ d.length = 4 ∧ e.length = 12 ∧
      id.chars = a ++ '-' :: b ++ '-' :: c ++ '-' :: d ++ '-' :: e ∧ hexDigits 32 id.value = a ++ b ++ c ++ d ++ e := by
  have whole := length_hexDigits 32 id.value
  refine ⟨(hexDigits 32 id.value).take 8, ((hexDigits 32 id.value).drop 8).take 4,
    ((hexDigits 32 id.value).drop 12).take 4, ((hexDigits 32 id.value).drop 16).take 4,
    (hexDigits 32 id.value).drop 20, ?_, ?_, ?_, ?_, ?_, rfl, ?_⟩
  · rw [List.length_take, whole]
    rfl
  · rw [List.length_take, List.length_drop, whole]
    rfl
  · rw [List.length_take, List.length_drop, whole]
    rfl
  · rw [List.length_take, List.length_drop, whole]
    rfl
  · rw [List.length_drop, whole]
  · generalize hexDigits 32 id.value = ds
    have split (k l : Nat) : (ds.drop k).take l ++ ds.drop (k + l) = ds.drop k := by
      rw [← List.drop_drop, List.take_append_drop]
    rw [List.append_assoc, List.append_assoc, List.append_assoc, split 16 4, split 12 4, split 8 4,
      List.take_append_drop]

/-- The text of an identifier names it. -/
theorem ofText?_text (id : Uuid) : ofText? id.text = some id := by
  obtain ⟨a, b, c, d, e, ha, hb, hc, hd, he, grouped, digits⟩ := chars_eq id
  have shape : id.chars.length = 36 := by
    rw [grouped]
    simp only [List.length_append, List.length_cons]
    omega
  have value : id.value % 16 ^ 32 = id.value := Nat.mod_eq_of_lt id.value_lt
  rw [ofText?, text, String.toList_ofList, ofChars?, if_neg (by rw [shape]; decide), if_pos shape, grouped,
    ofGroups?_append ha hb hc hd he, ← digits, ofDigits?, if_pos (length_hexDigits 32 _), ofHex?_hexDigits, value]
  exact dif_pos id.value_lt

theorem text_injective {a b : Uuid} (same : a.text = b.text) : a = b := by
  have read := congrArg ofText? same
  rwa [ofText?_text, ofText?_text, Option.some.injEq] at read

theorem decoder_ofJson (id : Uuid) {source : Json.Source} : decoder source (.ofJson id.toJson) = .ok id :=
  Json.Decoder.check_of_ok rfl (ofText?_text id)

end Uuid

namespace IdSet

theorem insert_ofList_of_lt {id : Uuid} {l : List Uuid} (first : ∀ x ∈ l, id < x) : place id l = id :: l := by
  cases l with
  | nil => rfl
  | cons a rest => rw [place, if_pos (first a List.mem_cons_self)]

/-- A set is the set of its list. -/
theorem ofList_toList (s : IdSet) : ofList s.toList = s := by
  obtain ⟨l, sorted⟩ := s
  have list : (ofList l).toList = l := by
    induction l with
    | nil => rfl
    | cons a rest ih =>
      obtain ⟨first, others⟩ := List.pairwise_cons.1 sorted
      change place a (ofList rest).toList = a :: rest
      rw [ih others, insert_ofList_of_lt first]
  cases shape : ofList l with
  | mk l' sorted' =>
    rw [shape] at list
    cases list
    rfl

theorem decoder_ofJson (s : IdSet) {source : Json.Source} (allowed : source.Allows 1) :
    decoder source (.ofJson s.toJson) = .ok s := by
  obtain ⟨inner, entered, _⟩ := Json.Source.Allows.enter allowed
  have read : Json.Decoder.list Uuid.decoder source (.ofJson (.array (s.toList.map Uuid.toJson))) = .ok s.toList :=
    Json.Decoder.list_ofJson entered fun id _ => Uuid.decoder_ofJson id
  rw [decoder, toJson, read]
  exact congrArg Except.ok (ofList_toList s)

end IdSet

end CustomerSegments
