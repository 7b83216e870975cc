import CustomerSegments.Proofs.IdText
import CustomerSegments.Proofs.Tables
import CustomerSegments.Redis.Layout
import CustomerSegments.Redis.Server

namespace CustomerSegments.Redis

/-- What a key of a layout is for. -/
inductive Slot where
  | customer (id : Uuid)
  | customers
  | segment (id : Uuid)
  | segments
  | names
  | audience
deriving DecidableEq

namespace Layout

def key (l : Layout) : Slot → String
  | .customer id => l.customerKey id.text
  | .customers => l.customersKey
  | .segment id => l.segmentKey id.text
  | .segments => l.segmentsKey
  | .names => l.namesKey
  | .audience => l.audienceKey

theorem append_left_cancel {front a b : String} (same : front ++ a = front ++ b) : a = b := by
  have lists := congrArg String.toList same
  rw [String.toList_append, String.toList_append] at lists
  exact String.toList_inj.1 (List.append_cancel_left lists)

/-- What follows the prefix in a key. -/
def ending : Slot → String
  | .customer id => ":customer:" ++ id.text
  | .customers => ":customers"
  | .segment id => ":segment:" ++ id.text
  | .segments => ":segments"
  | .names => ":segment_names"
  | .audience => ":audience"

theorem key_eq (l : Layout) (slot : Slot) : l.key slot = l.keyPrefix ++ ending slot := by
  cases slot with
  | customer id | segment id => exact String.append_assoc
  | customers | segments | names | audience => rfl

theorem ending_injective {a b : Slot} (same : ending a = ending b) : a = b := by
  have lists := congrArg String.toList same
  cases a with
  | customer id =>
    cases b with
    | customer id' => rw [Uuid.text_injective (append_left_cancel same)]
    | _ => simp [ending] at lists
  | segment id =>
    cases b with
    | segment id' => rw [Uuid.text_injective (append_left_cancel same)]
    | _ => simp [ending] at lists
  | customers | segments | names | audience => cases b <;> first | rfl | simp [ending] at lists

/-- Different slots have different keys. -/
theorem key_injective {l : Layout} {a b : Slot} (same : l.key a = l.key b) : a = b := by
  rw [key_eq, key_eq] at same
  exact ending_injective (append_left_cancel same)

end Layout

namespace Server

variable {s s' : Server} {k k' : String}

theorem get?_putSet_of_ne (members : Table String Unit) (other : k ≠ k') : (s.putSet k members).get? k' = s.get? k' := by
  rw [putSet]
  split
  · rw [Table.get?_erase, if_neg other]
  · rw [Table.get?_insert, if_neg other]

theorem get?_putHash_of_ne (fields : Table String String) (other : k ≠ k') :
    (s.putHash k fields).get? k' = s.get? k' := by
  rw [putHash]
  split
  · rw [Table.get?_erase, if_neg other]
  · rw [Table.get?_insert, if_neg other]

theorem eq_empty_of_isEmpty {ν : Type} {t : Table String ν} (bare : t.isEmpty = true) : t = .empty := by
  obtain ⟨entries, sorted⟩ := t
  cases entries with
  | nil => rfl
  | cons _ _ => cases bare

theorem set?_putSet (s : Server) (k : String) (members : Table String Unit) :
    (s.putSet k members).set? k = .ok members := by
  by_cases bare : members.isEmpty = true
  · rw [putSet, if_pos bare, set?, Table.get?_erase, if_pos rfl, eq_empty_of_isEmpty bare]
  · rw [putSet, if_neg bare, set?, Table.get?_insert, if_pos rfl]

theorem hash?_putHash (s : Server) (k : String) (fields : Table String String) :
    (s.putHash k fields).hash? k = .ok fields := by
  by_cases bare : fields.isEmpty = true
  · rw [putHash, if_pos bare, hash?, Table.get?_erase, if_pos rfl, eq_empty_of_isEmpty bare]
  · rw [putHash, if_neg bare, hash?, Table.get?_insert, if_pos rfl]

theorem string?_eq_ok_iff {o : Option String} : s.string? k = .ok o ↔ s.get? k = o.map .string := by
  rw [string?]
  cases s.get? k with
  | none => cases o <;> simp
  | some entry => cases entry <;> cases o <;> simp

theorem string?_insert (s : Server) (k value : String) : string? (s.insert k (.string value)) k = .ok (some value) := by
  rw [string?, Table.get?_insert, if_pos rfl]

theorem string?_erase (s : Server) (k : String) : string? (s.erase k) k = .ok none := by
  rw [string?, Table.get?_erase, if_pos rfl]

/-- Only some slots of a layout differ. -/
def Keeps (l : Layout) (changed : List Slot) (s s' : Server) : Prop :=
  ∀ slot, slot ∉ changed → s'.get? (l.key slot) = s.get? (l.key slot)

namespace Keeps

variable {l : Layout} {changed later : List Slot} {slot : Slot} {s'' : Server}

theorem refl (s : Server) : Keeps l [] s s :=
  fun _ _ => rfl

theorem trans (first : Keeps l changed s s') (rest : Keeps l later s' s'') : Keeps l (changed ++ later) s s'' := by
  intro slot new
  rw [List.mem_append, not_or] at new
  exact (rest slot new.2).trans (first slot new.1)

theorem insert (slot : Slot) (entry : Entry) : Keeps l [slot] s (s.insert (l.key slot) entry) := by
  intro other new
  rw [Table.get?_insert, if_neg fun same => new (List.mem_singleton.2 (Layout.key_injective same).symm)]

theorem erase (slot : Slot) : Keeps l [slot] s (s.erase (l.key slot)) := by
  intro other new
  rw [Table.get?_erase, if_neg fun same => new (List.mem_singleton.2 (Layout.key_injective same).symm)]

theorem putSet (slot : Slot) (members : Table String Unit) : Keeps l [slot] s (s.putSet (l.key slot) members) :=
  fun _ new => get?_putSet_of_ne members fun same => new (List.mem_singleton.2 (Layout.key_injective same).symm)

theorem putHash (slot : Slot) (fields : Table String String) : Keeps l [slot] s (s.putHash (l.key slot) fields) :=
  fun _ new => get?_putHash_of_ne fields fun same => new (List.mem_singleton.2 (Layout.key_injective same).symm)

theorem string? (keeps : Keeps l changed s s') (kept : slot ∉ changed) :
    s'.string? (l.key slot) = s.string? (l.key slot) := by
  rw [Server.string?, Server.string?, keeps slot kept]

theorem set? (keeps : Keeps l changed s s') (kept : slot ∉ changed) :
    s'.set? (l.key slot) = s.set? (l.key slot) := by
  rw [Server.set?, Server.set?, keeps slot kept]

theorem hash? (keeps : Keeps l changed s s') (kept : slot ∉ changed) :
    s'.hash? (l.key slot) = s.hash? (l.key slot) := by
  rw [Server.hash?, Server.hash?, keeps slot kept]

end Keeps

end Server

end CustomerSegments.Redis
