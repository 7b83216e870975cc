namespace CustomerSegments

/-- A finite map: entries in the order of their keys, each key once. -/
structure Table (κ ν : Type) [Ord κ] where
  entries : List (κ × ν)
  sorted : entries.Pairwise fun a b => compare a.1 b.1 = .lt

namespace Table

variable {κ ν : Type} [Ord κ]

def empty : Table κ ν := ⟨[], .nil⟩

instance : Inhabited (Table κ ν) := ⟨empty⟩

instance [DecidableEq κ] [DecidableEq ν] : DecidableEq (Table κ ν) := fun a b =>
  if h : a.entries = b.entries then isTrue (by cases a; cases b; cases h; rfl)
  else isFalse fun e => h (e ▸ rfl)

def keys (t : Table κ ν) : List κ :=
  t.entries.map (·.1)

def values (t : Table κ ν) : List ν :=
  t.entries.map (·.2)

def size (t : Table κ ν) : Nat :=
  t.entries.length

def isEmpty (t : Table κ ν) : Bool :=
  t.entries.isEmpty

/-- The value of a key. -/
def get? (t : Table κ ν) (key : κ) : Option ν :=
  (t.entries.find? fun e => compare e.1 key == .eq).map (·.2)

def contains (t : Table κ ν) (key : κ) : Bool :=
  (t.get? key).isSome

@[simp]
theorem get?_empty {key : κ} : (empty : Table κ ν).get? key = none := rfl

/-- Puts an entry in its place in a list in the order of keys. -/
def place (key : κ) (value : ν) : List (κ × ν) → List (κ × ν)
  | [] => [(key, value)]
  | (k, v) :: rest =>
    match compare key k with
    | .lt => (key, value) :: (k, v) :: rest
    | .eq => (key, value) :: rest
    | .gt => (k, v) :: place key value rest

theorem mem_place {key : κ} {value : ν} {l : List (κ × ν)} {e : κ × ν}
    (h : e ∈ place key value l) : e = (key, value) ∨ e ∈ l := by
  induction l with
  | nil => simpa [place] using h
  | cons a rest ih =>
    simp only [place] at h
    split at h <;> grind

variable [Std.TransOrd κ] [Std.LawfulEqOrd κ]

theorem pairwise_place {key : κ} {value : ν} {l : List (κ × ν)}
    (h : l.Pairwise fun a b => compare a.1 b.1 = .lt) :
    (place key value l).Pairwise fun a b => compare a.1 b.1 = .lt := by
  induction l with
  | nil => simp [place]
  | cons a rest ih =>
    rw [List.pairwise_cons] at h
    simp only [place]
    split
    · next lt =>
      refine List.pairwise_cons.2 ⟨?_, List.pairwise_cons.2 h⟩
      intro e he
      rcases List.mem_cons.1 he with rfl | he
      · exact lt
      · exact Std.TransCmp.lt_trans lt (h.1 e he)
    · next eq =>
      have : key = a.1 := Std.LawfulEqCmp.eq_of_compare eq
      subst this
      exact List.pairwise_cons.2 h
    · next gt =>
      refine List.pairwise_cons.2 ⟨?_, ih h.2⟩
      intro e he
      rcases mem_place he with rfl | he
      · exact Std.OrientedCmp.gt_iff_lt.1 gt
      · exact h.1 e he

/-- Puts a value under a key, in place of the one that was there. -/
def insert (t : Table κ ν) (key : κ) (value : ν) : Table κ ν :=
  ⟨place key value t.entries, pairwise_place t.sorted⟩

def erase (t : Table κ ν) (key : κ) : Table κ ν :=
  ⟨t.entries.filter fun e => compare e.1 key != .eq, t.sorted.filter _⟩

/-- Changes every value. -/
def map {μ : Type} (t : Table κ ν) (f : ν → μ) : Table κ μ :=
  ⟨t.entries.map fun e => (e.1, f e.2), by
    rw [List.pairwise_map]
    exact t.sorted⟩

/-- The entries put in one after the other; of a repeated key the last one stays. -/
def ofList (entries : List (κ × ν)) : Table κ ν :=
  entries.foldl (fun t (key, value) => t.insert key value) empty

omit [Std.TransOrd κ] in
theorem get?_eq_some_iff {t : Table κ ν} {key : κ} {value : ν} :
    t.get? key = some value ↔ (key, value) ∈ t.entries := by
  obtain ⟨l, h⟩ := t
  simp only [get?]
  induction l with
  | nil => simp
  | cons a rest ih =>
    rw [List.pairwise_cons] at h
    by_cases eq : compare a.1 key = .eq
    · have : a.1 = key := Std.LawfulEqCmp.eq_of_compare eq
      subst this
      simp only [List.find?_cons, eq, beq_self_eq_true, Option.map_some, Option.some.injEq,
        List.mem_cons]
      constructor
      · rintro rfl
        exact .inl rfl
      · rintro (e | mem)
        · rw [← e]
        · have := h.1 _ mem
          simp at this
    · have ne : a.1 ≠ key := fun e => eq (e ▸ Std.ReflCmp.compare_self)
      rw [List.find?_cons, show (compare a.1 key == Ordering.eq) = false by simpa using eq]
      simp only [List.mem_cons]
      rw [ih h.2]
      constructor
      · exact .inr
      · rintro (e | mem)
        · exact absurd (e ▸ rfl) ne
        · exact mem

theorem get?_insert [DecidableEq κ] {t : Table κ ν} {key other : κ} {value : ν} :
    (t.insert key value).get? other = if key = other then some value else t.get? other := by
  obtain ⟨l, h⟩ := t
  simp only [insert, get?]
  clear h
  induction l with
  | nil =>
    by_cases e : key = other
    · subst e
      simp [place]
    · simp [place, e]
  | cons a rest ih =>
    simp only [place]
    split
    · next lt =>
      by_cases e : key = other
      · subst e
        simp
      · simp [List.find?_cons, e]
    · next eq =>
      have : key = a.1 := Std.LawfulEqCmp.eq_of_compare eq
      by_cases e : key = other
      · subst e
        simp
      · have : ¬ a.1 = other := by grind
        simp [e, this]
    · next gt =>
      by_cases e : a.1 = other
      · subst e
        have : ¬ key = a.1 := fun e => by
          rw [e] at gt
          simp at gt
        simp [this]
      · simp [e, ih]

omit [Std.TransOrd κ] in
theorem get?_erase [DecidableEq κ] {t : Table κ ν} {key other : κ} :
    (t.erase key).get? other = if key = other then none else t.get? other := by
  obtain ⟨l, h⟩ := t
  simp only [erase, get?, List.find?_filter]
  clear h
  induction l with
  | nil => simp
  | cons a rest ih =>
    rw [List.find?_cons, List.find?_cons]
    by_cases e : key = other
    · subst e
      by_cases e' : a.1 = key <;> simp_all
    · by_cases e' : a.1 = other
      · subst e'
        have : ¬ a.1 = key := fun e' => e e'.symm
        simp [e, this]
      · have : (compare a.1 other == Ordering.eq) = false := by simpa using e'
        simp only [this, Bool.false_eq_true, and_false, decide_false]
        exact ih

omit [Std.TransOrd κ] [Std.LawfulEqOrd κ] in
theorem get?_map {μ : Type} {t : Table κ ν} {f : ν → μ} {key : κ} :
    (t.map f).get? key = (t.get? key).map f := by
  obtain ⟨l, h⟩ := t
  simp only [map, get?]
  clear h
  induction l with
  | nil => rfl
  | cons a rest ih =>
    simp only [List.map_cons, List.find?_cons]
    split <;> simp_all

/-- Two tables with the same values are equal. -/
@[ext]
theorem ext {s t : Table κ ν} (h : ∀ key, s.get? key = t.get? key) : s = t := by
  have entries : s.entries = t.entries := by
    have mem (e : κ × ν) : e ∈ s.entries ↔ e ∈ t.entries := by
      rw [← get?_eq_some_iff, ← get?_eq_some_iff, h]
    obtain ⟨l, hl⟩ := s
    obtain ⟨m, hm⟩ := t
    simp only at mem ⊢
    clear h
    induction l generalizing m with
    | nil =>
      cases m with
      | nil => rfl
      | cons b _ => exact absurd ((mem b).2 List.mem_cons_self) List.not_mem_nil
    | cons a rest ih =>
      cases m with
      | nil => exact absurd ((mem a).1 List.mem_cons_self) List.not_mem_nil
      | cons b rest' =>
        rw [List.pairwise_cons] at hl hm
        have head : a = b := by
          rcases List.mem_cons.1 ((mem a).1 List.mem_cons_self) with e | ha
          · exact e
          · rcases List.mem_cons.1 ((mem b).2 List.mem_cons_self) with e | hb
            · exact e.symm
            · have := Std.TransCmp.lt_trans (hl.1 b hb) (hm.1 a ha)
              simp at this
        subst head
        refine congrArg _ (ih hl.2 rest' hm.2 fun e => ?_)
        constructor
        · intro he
          rcases List.mem_cons.1 ((mem e).1 (List.mem_cons_of_mem _ he)) with rfl | he'
          · have := hl.1 _ he
            simp at this
          · exact he'
        · intro he
          rcases List.mem_cons.1 ((mem e).2 (List.mem_cons_of_mem _ he)) with rfl | he'
          · have := hm.1 _ he
            simp at this
          · exact he'
  cases s
  cases t
  cases entries
  rfl

theorem erase_of_get?_eq_none [DecidableEq κ] {t : Table κ ν} {key : κ} (absent : t.get? key = none) :
    t.erase key = t := by
  ext1 other
  rw [get?_erase]
  split
  · next same => rw [← same, absent]
  · rfl

end Table

end CustomerSegments
