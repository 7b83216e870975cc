import CustomerSegments.Id.Basic

namespace CustomerSegments

/-- A finite set of identifiers, in increasing order. -/
structure IdSet where
  toList : List Uuid
  sorted : toList.Pairwise (· < ·)
deriving DecidableEq

namespace IdSet

def empty : IdSet := ⟨[], .nil⟩

instance : Inhabited IdSet := ⟨empty⟩

instance : Membership Uuid IdSet := ⟨fun s id => id ∈ s.toList⟩

instance (id : Uuid) (s : IdSet) : Decidable (id ∈ s) :=
  inferInstanceAs (Decidable (id ∈ s.toList))

/-- Puts an identifier in its place in a list in increasing order. -/
def place (id : Uuid) : List Uuid → List Uuid
  | [] => [id]
  | a :: rest => if id < a then id :: a :: rest else if id = a then a :: rest else a :: place id rest

theorem mem_place {id x : Uuid} {l : List Uuid} : x ∈ place id l ↔ x = id ∨ x ∈ l := by
  induction l with
  | nil => simp [place]
  | cons a rest ih =>
    simp only [place]
    split
    · simp
    · split
      · next h => simp [h]
      · simp [ih]; grind

theorem pairwise_place {id : Uuid} {l : List Uuid} (h : l.Pairwise (· < ·)) :
    (place id l).Pairwise (· < ·) := by
  induction l with
  | nil => simp [place]
  | cons a rest ih =>
    rw [List.pairwise_cons] at h
    simp only [place]
    split
    · next lt =>
      refine List.pairwise_cons.2 ⟨?_, List.pairwise_cons.2 h⟩
      intro x hx
      rcases List.mem_cons.1 hx with rfl | hx
      · exact lt
      · exact Nat.lt_trans lt (h.1 x hx)
    · split
      · exact List.pairwise_cons.2 h
      · next ge ne =>
        refine List.pairwise_cons.2 ⟨?_, ih h.2⟩
        intro x hx
        rcases mem_place.1 hx with rfl | hx
        · have : ¬ x.value < a.value := ge
          have : x.value ≠ a.value := fun e => ne (Uuid.eq_of_value_eq e)
          change a.value < x.value
          omega
        · exact h.1 x hx

def insert (id : Uuid) (s : IdSet) : IdSet :=
  ⟨place id s.toList, pairwise_place s.sorted⟩

def erase (id : Uuid) (s : IdSet) : IdSet :=
  ⟨s.toList.filter (· ≠ id), s.sorted.filter _⟩

/-- The members of the first set that the second one lacks. -/
def diff (s t : IdSet) : IdSet :=
  ⟨s.toList.filter (· ∉ t), s.sorted.filter _⟩

def ofList (ids : List Uuid) : IdSet :=
  ids.foldr insert empty

@[simp]
theorem mem_toList {id : Uuid} {s : IdSet} : id ∈ s.toList ↔ id ∈ s := Iff.rfl

@[simp]
theorem not_mem_empty {id : Uuid} : id ∉ empty := List.not_mem_nil

@[simp]
theorem mem_insert {id x : Uuid} {s : IdSet} : x ∈ s.insert id ↔ x = id ∨ x ∈ s :=
  mem_place

@[simp]
theorem mem_erase {id x : Uuid} {s : IdSet} : x ∈ s.erase id ↔ x ∈ s ∧ x ≠ id := by
  change x ∈ s.toList.filter (· ≠ id) ↔ _
  simp

@[simp]
theorem mem_diff {x : Uuid} {s t : IdSet} : x ∈ s.diff t ↔ x ∈ s ∧ x ∉ t := by
  change x ∈ s.toList.filter (· ∉ t) ↔ _
  simp

@[simp]
theorem mem_ofList {x : Uuid} {ids : List Uuid} : x ∈ ofList ids ↔ x ∈ ids := by
  induction ids with
  | nil => simp [ofList]
  | cons a rest ih => simp [ofList] at ih ⊢; simp [ih]

def toJson (s : IdSet) : Json :=
  .array (s.toList.map Uuid.toJson)

def decoder : Json.Decoder IdSet := fun source r =>
  (Json.Decoder.list Uuid.decoder source r).map ofList

end IdSet

end CustomerSegments
