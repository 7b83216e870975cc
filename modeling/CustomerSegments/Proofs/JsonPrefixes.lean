import CustomerSegments.Proofs.RecordText
namespace CustomerSegments.Json

/-- A container that has some members; `done` lists them from the last one back. -/
def Frame.Has (done : List (Option String × Reading)) : Frame → Prop
  | .array _ => False
  | .object members | .member _ members => done <:+ members

/-- The outermost container has some members. -/
def Rooted (done : List (Option String × Reading)) : List Frame → Prop
  | [] => False
  | [frame] => frame.Has done
  | _ :: frame :: outer => Rooted done (frame :: outer)

/-- An object that starts with some members. -/
def Reading.Extends (done : List (Option String × Reading)) (r : Reading) : Prop :=
  ∃ more closed, r = .object (done.reverse ++ more) closed

variable {done : List (Option String × Reading)} {frame frame' : Frame} {outer frames : List Frame}

theorem Frame.Has.add (has : frame.Has done) (value : Reading) : (frame.add value).Has done := by
  cases frame with
  | array items => exact has
  | object members => exact has
  | member name members => exact has.trans (List.suffix_cons _ _)

theorem Frame.Has.close (has : frame.Has done) (closed : Bool) : (frame.close closed).Extends done := by
  cases frame with
  | array items => exact has.elim
  | object members =>
    obtain ⟨more, rfl⟩ := has
    exact ⟨more.reverse, closed, by rw [Frame.close, List.reverse_append]⟩
  | member name members =>
    obtain ⟨more, rfl⟩ := has
    exact ⟨more.reverse ++ [(name, .broken)], closed, by
      rw [Frame.close, List.reverse_cons, List.reverse_append, List.append_assoc]⟩

namespace Rooted

theorem replace (rooted : Rooted done (frame :: outer)) (same : frame.Has done → frame'.Has done) :
    Rooted done (frame' :: outer) := by
  cases outer with
  | nil => exact same rooted
  | cons _ _ => exact rooted

theorem push (rooted : Rooted done frames) (frame : Frame) : Rooted done (frame :: frames) := by
  cases frames with
  | nil => exact rooted.elim
  | cons _ _ => exact rooted

theorem add (rooted : Rooted done (frame :: outer)) (value : Reading) : Rooted done (frame.add value :: outer) :=
  rooted.replace fun has => has.add value

theorem breakOff (rooted : Rooted done frames) : (Json.breakOff frames).Extends done := by
  fun_induction Json.breakOff frames with
  | case1 => exact rooted.elim
  | case2 frame => exact rooted.close false
  | case3 frame outer rest ih =>
    have inside : Rooted done (outer :: rest) := rooted
    exact ih (inside.add _)

/-- A value is put into the innermost container, and reading goes on. -/
theorem proceed {value : Reading} {tokens : List Token} (rooted : Rooted done frames)
    (later : ∀ value frame outer, Rooted done (Frame.add value frame :: outer) →
      (read (Frame.add value frame :: outer) .commaOrClose tokens).value.Extends done) :
    (Json.proceed value frames tokens).value.Extends done := by
  cases frames with
  | nil => exact rooted.elim
  | cons frame outer => exact later _ _ _ (rooted.add value)

/-- The innermost container is closed, and reading goes on, unless that is all. -/
theorem closing {tokens : List Token} (rooted : Rooted done (frame :: outer))
    (later : ∀ value frame outer, Rooted done (Frame.add value frame :: outer) →
      (read (Frame.add value frame :: outer) .commaOrClose tokens).value.Extends done) :
    (Json.proceed (frame.close true) outer tokens).value.Extends done := by
  cases outer with
  | nil => exact rooted.close true
  | cons frame' outer =>
    have inside : Rooted done (frame' :: outer) := rooted
    exact inside.proceed later

/-- Whatever follows, the members of the outermost container stay. -/
theorem read (rooted : Rooted done frames) (expect : Expect) (tokens : List Token) :
    (Json.read frames expect tokens).value.Extends done := by
  -- A token breaks off, completes a value, closes the innermost container, opens another one, or is a mark.
  fun_induction Json.read frames expect tokens
  all_goals first
    | exact breakOff rooted
    | exact proceed rooted ‹_›
    | exact closing rooted ‹_›
    | exact False.elim rooted
    | (rename_i ih; exact ih (push rooted _))
    | (rename_i ih; exact ih rooted)
    | (rename_i ih; exact ih (rooted.replace id))

end Rooted

/-- A text goes on with a comma behind some of the members of an object. -/
theorem writeMembers_append {front : List (String × Json)} (some : front ≠ []) (m : String × Json)
    (back : List (String × Json)) :
    writeMembers (front ++ m :: back) = writeMembers front ++ ',' :: writeMembers (m :: back) := by
  induction front with
  | nil => exact absurd rfl some
  | cons a rest ih =>
    obtain ⟨k, x⟩ := a
    cases rest with
    | nil => simp only [List.cons_append, List.nil_append, writeMembers, List.append_assoc]
    | cons b rest =>
      have others := ih (List.cons_ne_nil _ _)
      simp only [List.cons_append, writeMembers] at others ⊢
      rw [others]
      simp only [List.append_assoc, List.cons_append]

/-- Some members of an object are read, and the object stays open. -/
theorem read_front (front : List (String × Json)) (some : front ≠ []) {expect : Expect}
    (place : expect = .name ∨ expect = .nameOrClose) (done : List (Option String × Reading)) (outer : List Frame)
    (ts : List Token) :
    read (.object done :: outer) expect (tokensOfMembers front ++ ts) =
      read (.object ((Reading.ofMembers front).reverse ++ done) :: outer) .commaOrClose ts := by
  induction front generalizing expect done with
  | nil => exact absurd rfl some
  | cons m rest ih =>
    obtain ⟨k, x⟩ := m
    cases rest with
    | nil =>
      rw [tokensOfMembers, List.cons_append, List.cons_append, read_member done k place, read_tokensOf x (.inl rfl)]
      rfl
    | cons m rest =>
      have others := ih (List.cons_ne_nil _ _) (.inl rfl) ((Option.some k, .ofJson x) :: done)
      rw [tokensOfMembers, List.cons_append, List.cons_append, List.append_assoc, read_member done k place,
        read_tokensOf x (.inl rfl), Json.proceed, Frame.add, Reading.ofMembers, List.reverse_cons, List.append_assoc]
      exact others

/-- What is read of the text of an object starts with its first members, if their numbers read back. -/
theorem Document.ofText_extends {front back : List (String × Json)} {m : String × Json} (some : front ≠ [])
    (faithful : MembersReadBack front) :
    (Document.ofText (Json.object (front ++ m :: back)).text).value.Extends (Reading.ofMembers front).reverse := by
  have delimited : Delimited (',' :: (writeMembers (m :: back) ++ ['}'])) := .cons (.inl rfl)
  have shape : Json.write (.object (front ++ m :: back)) =
      '{' :: (writeMembers front ++ ',' :: (writeMembers (m :: back) ++ ['}'])) := by
    rw [Json.write, writeMembers_append some, List.cons_append, List.append_assoc, List.cons_append]
  rw [Document.ofText, Json.text, String.toList_ofList, shape, tokens_mark rfl,
    tokens_writeMembers front faithful delimited]
  change (Json.read [.object []] .nameOrClose _).value.Extends _
  rw [read_front front some (.inr rfl), List.append_nil]
  have rooted : Rooted (Reading.ofMembers front).reverse [.object (Reading.ofMembers front).reverse] :=
    List.suffix_refl _
  exact rooted.read _ _

namespace Located

variable {α β : Type} {f : Located (α → β)} {a : Located α} {b : β}

theorem seq_eq_ok (built : f <*> a = .ok b) : ∃ g x, f = .ok g ∧ a = .ok x ∧ b = g x := by
  cases f with
  | ok g =>
    cases a with
    | ok x => exact ⟨g, x, rfl, rfl, (Located.ok.inj built).symm⟩
    | fault place problem => cases built
  | fault place problem =>
    cases a with
    | ok x => cases built
    | fault place' problem' =>
      change (if place' < place then fault place' problem' else fault place problem) = Located.ok b at built
      split at built <;> cases built

theorem map_eq_ok {g : α → β} (built : g <$> a = .ok b) : ∃ x, a = .ok x ∧ b = g x := by
  cases a with
  | ok x => exact ⟨x, rfl, (Located.ok.inj built).symm⟩
  | fault place problem => cases built

end Located

namespace Fields

variable {names : List String} {α : Type} {key name : String} {entry : Nat × Reading}

/-- A member that is kept stays, for a repeated one is a fault. -/
theorem lookup_ofMembers_of_kept (place : Nat) (members : List (Option String × Reading))
    (found : List (String × Nat × Reading) × List (Nat × Problem)) (kept : found.1.lookup key = some entry) :
    (ofMembers names place members found).1.lookup key = some entry := by
  induction members generalizing place found with
  | nil => exact kept
  | cons m rest ih =>
    obtain ⟨name, value⟩ := m
    obtain ⟨entries, faults⟩ := found
    cases name with
    | none => exact ih _ _ kept
    | some name =>
      refine ih _ _ ?_
      split
      · split
        · exact kept
        · next new =>
          have apart : key ≠ name := by
            rintro rfl
            obtain ⟨front, back, shape, _⟩ := List.lookup_eq_some_iff.1 kept
            have shape : entries = front ++ (key, entry) :: back := shape
            exact new (List.any_eq_true.2 ⟨(key, entry), shape ▸ List.mem_append_right _ List.mem_cons_self, beq_self_eq_true _⟩)
          change ((name, place, value) :: entries).lookup key = some entry
          rw [List.lookup_cons, beq_eq_false_iff_ne.2 apart]
          exact kept
      · split <;> exact kept

theorem ofMembers_append (place : Nat) (front back : List (Option String × Reading))
    (found : List (String × Nat × Reading) × List (Nat × Problem)) :
    ofMembers names place (front ++ back) found =
      ofMembers names (place + front.length) back (ofMembers names place front found) := by
  induction front generalizing place found with
  | nil => rfl
  | cons m rest ih =>
    obtain ⟨name, value⟩ := m
    obtain ⟨entries, faults⟩ := found
    rw [List.cons_append, List.length_cons, Nat.add_comm rest.length, ← Nat.add_assoc]
    cases name <;> exact ih _ _

theorem eq_ok_of_settle {fields : Fields} {outcome : Located α} {a : α} (settled : fields.settle outcome = .ok a) :
    outcome = .ok a := by
  have first (faults : List (Nat × Problem)) (outcome : Located α)
      (ended : faults.foldl (fun found fault => (Located.fault fault.1 fault.2).both found) outcome = .ok a) :
      outcome = .ok a := by
    induction faults generalizing outcome with
    | nil => exact ended
    | cons f rest ih =>
      have never := ih _ ended
      cases outcome with
      | ok a => cases never
      | fault place problem =>
        dsimp only [Located.both] at never
        split at never <;> cases never
  refine first fields.faults outcome ?_
  rw [settle] at settled
  dsimp only at settled
  split at settled
  · next found =>
    rw [found, Except.ok.inj settled]
  · cases settled

theorem required_eq_ok {fields : Fields} {d : Decoder α} {a : α} {value : Reading} {place : Nat}
    (found : fields.find? name = some (place, value)) (read : fields.required name d = .ok a) :
    d fields.source value = .ok a := by
  rw [required, found] at read
  dsimp only at read
  split at read
  · next ok => rw [ok, Located.ok.inj read]
  · cases read

/-- A record read from an object has the first members of the object. -/
theorem exists_of_record {members : List (String × Json)} {build : Fields → Located α} {source : Source} {r : Reading}
    {a : α} (read : Decoder.record names build source r = .ok a)
    (starts : r.Extends (Reading.ofMembers members).reverse) (known : ∀ m ∈ members, m.1 ∈ names)
    (distinct : (members.map (·.1)).Nodup) :
    ∃ fields : Fields, build fields = .ok a ∧
      ∀ key value, members.lookup key = some value → ∃ place, fields.find? key = some (place, .ofJson value) := by
  obtain ⟨more, closed, rfl⟩ := starts
  rw [List.reverse_reverse] at read
  obtain ⟨entries, kept, found⟩ := @ofMembers_of_distinct names members 0 [] [] known distinct fun _ _ => rfl
  cases entered : source.enter with
  | error problem =>
    rw [Decoder.record, ofReading, entered] at read
    cases read
  | ok inner =>
    rw [Decoder.record, ofReading, entered] at read
    dsimp only [bind, Except.bind] at read
    refine ⟨_, eq_ok_of_settle read, fun key value member => ?_⟩
    have there := found key
    rw [member, Option.map_some, Option.some_or, Option.map_eq_some_iff] at there
    obtain ⟨⟨place, _⟩, stored, rfl⟩ := there
    refine ⟨place, ?_⟩
    dsimp only [find?]
    rw [ofMembers_append, kept]
    exact lookup_ofMembers_of_kept _ _ _ stored

end Fields

end CustomerSegments.Json

namespace CustomerSegments.Segment

open Json

/-- The members in front of the rules. -/
def frontMembers (g : Segment) : List (String × Json) :=
  [("id", g.id.toJson), ("name", .string g.name), ("description", .ofOption .string g.description)]

theorem members_eq_front (g : Segment) (rules : List Json) :
    g.members rules = g.frontMembers ++ ("rules", .array rules) ::
      [("audienceSize", .ofInt64 g.audienceSize), ("isActive", .bool g.isActive), ("createdAt", g.createdAt.toJson),
        ("updatedAt", g.updatedAt.toJson), ("createdBy", .string g.createdBy)] := rfl

theorem frontMembers_readBack (g : Segment) : MembersReadBack g.frontMembers :=
  ⟨trivial, trivial, (nestable_ofOption nestable_string _).numbers, trivial⟩

/-- Whatever is read of the text of a segment, be it too deep or its numbers off, has the name of the
segment. -/
theorem name_of_decodeText {g read : Segment} (decoded : decoder.decodeText g.text = .ok read) :
    read.name = g.name := by
  have kept : (Document.ofText g.text).value.Extends (Reading.ofMembers g.frontMembers).reverse := by
    rw [text, members_eq_front]
    exact Document.ofText_extends (List.cons_ne_nil _ _) g.frontMembers_readBack
  have value : decoder (.text maxDepth) (Document.ofText g.text).value = .ok read := by
    rw [Decoder.decodeText] at decoded
    cases found : decoder (.text maxDepth) (Document.ofText g.text).value with
    | error problem =>
      rw [found] at decoded
      cases decoded
    | ok a =>
      rw [found] at decoded
      dsimp only [bind, Except.bind] at decoded
      split at decoded
      · exact decoded
      · cases decoded
  obtain ⟨fields, built, found⟩ := Fields.exists_of_record value kept (by simp [frontMembers]) (by simp [frontMembers])
  obtain ⟨_, _, updated, _, rfl⟩ := Located.seq_eq_ok built
  obtain ⟨_, _, created, _, rfl⟩ := Located.seq_eq_ok updated
  obtain ⟨_, _, activity, _, rfl⟩ := Located.seq_eq_ok created
  obtain ⟨_, _, size, _, rfl⟩ := Located.seq_eq_ok activity
  obtain ⟨_, _, rules, _, rfl⟩ := Located.seq_eq_ok size
  obtain ⟨_, _, description, _, rfl⟩ := Located.seq_eq_ok rules
  obtain ⟨_, _, naming, _, rfl⟩ := Located.seq_eq_ok description
  obtain ⟨_, _, start, named, rfl⟩ := Located.seq_eq_ok naming
  obtain ⟨_, _, rfl⟩ := Located.map_eq_ok start
  obtain ⟨place, there⟩ := found "name" (.string g.name) rfl
  have same := Fields.required_eq_ok there named
  exact (Except.ok.inj same).symm

end CustomerSegments.Segment
