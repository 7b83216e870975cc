import CustomerSegments.Store.Call

namespace CustomerSegments

namespace Instant

theorem isBefore_iff {a b : Instant} :
    a.isBefore b = true ↔ a.second < b.second ∨ (a.second = b.second ∧ a.nano < b.nano) := by
  simp only [isBefore, Bool.or_eq_true, Bool.and_eq_true, decide_eq_true_eq, beq_iff_eq]

theorem eq_of_not_isBefore {a b : Instant} (left : a.isBefore b = false) (right : b.isBefore a = false) : a = b := by
  have left : ¬ a.isBefore b = true := by simp [left]
  have right : ¬ b.isBefore a = true := by simp [right]
  rw [isBefore_iff] at left right
  have seconds : a.second = b.second := by omega
  have nanos : a.nano = b.nano := by omega
  cases a
  cases b
  cases seconds
  cases nanos
  rfl

instance : Std.TransCmp compare :=
  inferInstanceAs (Std.TransCmp (compareLex (compareOn second) (compareOn nano)))

instance : Std.LawfulEqCmp compare where
  eq_of_compare {a b} equal := by
    obtain ⟨seconds, nanos⟩ := Ordering.then_eq_eq.1 equal
    cases a
    cases b
    cases Int.compare_eq_eq.1 seconds
    cases Nat.compare_eq_eq.1 nanos
    rfl

theorem compare_eq_lt_iff {a b : Instant} : a.compare b = .lt ↔ a.isBefore b = true := by
  rw [compare, Ordering.then_eq_lt, Int.compare_eq_lt, Int.compare_eq_eq, Nat.compare_eq_lt, isBefore_iff]

theorem compare_eq_gt_iff {a b : Instant} : a.compare b = .gt ↔ b.isBefore a = true := by
  rw [Std.OrientedCmp.gt_iff_lt, compare_eq_lt_iff]

end Instant

namespace Store

variable {α : Type} {createdAt : α → Instant}

theorem newestFirst_perm (createdAt : α → Instant) (records : List α) : (newestFirst createdAt records).Perm records :=
  List.mergeSort_perm _ _

/-- No record comes before a newer one. -/
theorem newestFirst_sorted (records : List α) :
    (newestFirst createdAt records).Pairwise fun a b => (createdAt a).isBefore (createdAt b) = false := by
  have later (a b : α) : (!(createdAt a).isBefore (createdAt b)) = true ↔ ¬ (createdAt a).isBefore (createdAt b) = true := by
    simp
  have sorted : (newestFirst createdAt records).Pairwise fun a b => (!(createdAt a).isBefore (createdAt b)) = true := by
    refine List.pairwise_mergeSort (fun a b c => ?_) (fun a b => ?_) records
    · rw [later, later, later, Instant.isBefore_iff, Instant.isBefore_iff, Instant.isBefore_iff]
      omega
    · rw [Bool.or_eq_true, later, later, Instant.isBefore_iff, Instant.isBefore_iff]
      omega
  exact sorted.imp fun {a b} le => by simpa using le

/-- The times in a listing depend on what is listed only. -/
theorem newestFirst_times {a b : List α} (same : (a.map createdAt).Perm (b.map createdAt)) :
    (newestFirst createdAt a).map createdAt = (newestFirst createdAt b).map createdAt := by
  have sorted (records : List α) :
      ((newestFirst createdAt records).map createdAt).Pairwise fun a b => a.isBefore b = false :=
    List.pairwise_map.2 (newestFirst_sorted records)
  have perm := (((newestFirst_perm createdAt a).map createdAt).trans same).trans
    ((newestFirst_perm createdAt b).map createdAt).symm
  exact List.Perm.eq_of_pairwise (fun x y _ _ => Instant.eq_of_not_isBefore) (sorted a) (sorted b) perm

end Store

end CustomerSegments
