import CustomerSegments.Proofs.Slots

namespace CustomerSegments

namespace Uuid

theorem digitChar_ne_colon : ∀ d < 16, Nat.digitChar d ≠ ':' := by decide

theorem colon_notMem_hexDigits (width n : Nat) : ':' ∉ hexDigits width n := by
  induction width generalizing n with
  | zero => exact List.not_mem_nil
  | succ width ih =>
    rw [hexDigits, List.mem_append, not_or, List.mem_singleton]
    exact ⟨ih (n / 16), (digitChar_ne_colon _ (Nat.mod_lt n (by decide))).symm⟩

theorem colon_notMem_text (id : Uuid) : ':' ∉ id.text.toList := by
  obtain ⟨a, b, c, d, e, -, -, -, -, -, grouped, digits⟩ := id.chars_eq
  have none := colon_notMem_hexDigits 32 id.value
  rw [digits] at none
  rw [text, String.toList_ofList, grouped]
  simp only [List.mem_append, List.mem_cons, not_or] at none ⊢
  simp [none]

end Uuid

namespace Redis.Layout

/-- What stands in a key between the prefix and the last colon. -/
def stem : Slot → String
  | .customer _ => ":customer"
  | .segment _ => ":segment"
  | .customers | .segments | .names | .audience => ""

/-- What follows the last colon in a key. -/
def field : Slot → String
  | .customer id | .segment id => id.text
  | .customers => "customers"
  | .segments => "segments"
  | .names => "segment_names"
  | .audience => "audience"

theorem ending_eq (slot : Slot) : ending slot = stem slot ++ ":" ++ field slot := by
  cases slot with
  | customer id | segment id | customers | segments | names | audience => rfl

theorem colon_notMem_field (slot : Slot) : ':' ∉ (field slot).toList := by
  cases slot with
  | customer id | segment id => exact id.colon_notMem_text
  | customers | segments | names | audience => decide

theorem toList_key (l : Layout) (slot : Slot) :
    (l.key slot).toList = (l.keyPrefix ++ stem slot).toList ++ ':' :: (field slot).toList := by
  rw [key_eq, ending_eq]
  simp

/-- The identifier in a slot. -/
def id? : Slot → Option Uuid
  | .customer id | .segment id => some id
  | .customers | .segments | .names | .audience => none

theorem ofText?_field (slot : Slot) : Uuid.ofText? (field slot) = id? slot := by
  cases slot with
  | customer id | segment id => exact id.ofText?_text
  | customers | segments | names | audience => decide

theorem customer_ne_segment (p q : String) : p ++ ":customer" ≠ q ++ ":segment" := by
  intro same
  have lasts := congrArg (fun s : String => s.toList.getLast?) same
  simp at lasts

/-- What comes before the last field tells a customer from a segment. -/
theorem stem_eq {p q : String} {a b : Slot} (fields : field a = field b) (fronts : p ++ stem a = q ++ stem b) :
    stem a = stem b := by
  have ids : id? a = id? b := by rw [← ofText?_field, ← ofText?_field, fields]
  cases a with
  | customer id =>
    cases b with
    | customer id' => rfl
    | segment id' => exact absurd fronts (customer_ne_segment p q)
    | customers | segments | names | audience => cases ids
  | segment id =>
    cases b with
    | customer id' => exact absurd fronts.symm (customer_ne_segment q p)
    | segment id' => rfl
    | customers | segments | names | audience => cases ids
  | customers | segments | names | audience =>
    cases b with
    | customer id' | segment id' => cases ids
    | customers | segments | names | audience => rfl

/-- The last occurrence of a letter divides a text in one way. -/
theorem append_cons_inj_of_last {c : Char} {front front' rest rest' : List Char} (last : c ∉ rest) (last' : c ∉ rest')
    (same : front ++ c :: rest = front' ++ c :: rest') : front = front' ∧ rest = rest' := by
  rcases List.append_eq_append_iff.1 same with ⟨between, fronts, rests⟩ | ⟨between, fronts, rests⟩
  · cases between with
    | nil => exact ⟨(List.append_nil front ▸ fronts).symm, (List.cons.inj rests).2⟩
    | cons _ between => exact absurd ((List.cons.inj rests).2 ▸ by simp) last
  · cases between with
    | nil => exact ⟨List.append_nil front' ▸ fronts, (List.cons.inj rests).2.symm⟩
    | cons _ between => exact absurd ((List.cons.inj rests).2 ▸ by simp) last'

/-- Two keys are the same for the same prefix and the same slot only, whatever colons the prefixes have in them and
whichever begins with the other. -/
theorem key_eq_key_iff {l l' : Layout} {a b : Slot} : l.key a = l'.key b ↔ l.keyPrefix = l'.keyPrefix ∧ a = b := by
  constructor
  · intro same
    have lists := congrArg String.toList same
    rw [toList_key, toList_key] at lists
    obtain ⟨fronts, fields⟩ := append_cons_inj_of_last (colon_notMem_field a) (colon_notMem_field b) lists
    have stems := stem_eq (String.toList_inj.1 fields) (String.toList_inj.1 fronts)
    rw [stems, String.toList_append, String.toList_append, List.append_cancel_right_eq] at fronts
    refine ⟨String.toList_inj.1 fronts, ending_injective ?_⟩
    rw [ending_eq, ending_eq, stems, String.toList_inj.1 fields]
  · rintro ⟨prefixes, rfl⟩
    rw [key_eq, key_eq, prefixes]

end Redis.Layout

end CustomerSegments
