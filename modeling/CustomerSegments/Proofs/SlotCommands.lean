import CustomerSegments.Proofs.ServerRuns
import CustomerSegments.Proofs.Slots

namespace CustomerSegments.Redis.Settles

variable {s : Server} {key : String}

section

variable {o : Option String} {members : Table String Unit} {fields : Table String String}

theorem get (stored : s.string? key = .ok o) : Settles (Redis.send (.get key)) s (.ok o) s := by
  have executed : s.execute (.get key) = .ok (o, s) := by
    rw [Server.execute, stored]
    rfl
  exact .send executed

theorem contains (stored : s.string? key = .ok o) : Settles (Redis.send (.contains key)) s (.ok o.isSome) s := by
  have present : Table.contains s key = o.isSome := by
    rw [Table.contains, Server.string?_eq_ok_iff.1 stored, Option.isSome_map]
  have executed : s.execute (.contains key) = .ok (o.isSome, s) := by
    rw [Server.execute, present]
  exact .send executed

theorem smembers (stored : s.set? key = .ok members) : Settles (Redis.send (.smembers key)) s (.ok members.keys) s := by
  have executed : s.execute (.smembers key) = .ok (members.keys, s) := by
    rw [Server.execute, stored]
    rfl
  exact .send executed

theorem hget (stored : s.hash? key = .ok fields) (field : String) :
    Settles (Redis.send (.hget key field)) s (.ok (fields.get? field)) s := by
  have executed : s.execute (.hget key field) = .ok (fields.get? field, s) := by
    rw [Server.execute, stored]
    rfl
  exact .send executed

theorem hgetall (stored : s.hash? key = .ok fields) : Settles (Redis.send (.hgetall key)) s (.ok fields.entries) s := by
  have executed : s.execute (.hgetall key) = .ok (fields.entries, s) := by
    rw [Server.execute, stored]
    rfl
  exact .send executed

theorem hsetnx_of_taken {field value owner : String} (stored : s.hash? key = .ok fields)
    (taken : fields.get? field = some owner) : Settles (Redis.send (.hsetnx key field value)) s (.ok false) s := by
  have present : fields.contains field = true := by rw [Table.contains, taken, Option.isSome_some]
  have executed : s.execute (.hsetnx key field value) = .ok (false, s) := by
    rw [Server.execute, stored]
    dsimp only [Bind.bind, Except.bind]
    rw [present]
    rfl
  exact .send executed

end

variable (l : Layout) (slot : Slot)

open Server (Keeps)

/-- A string is written to one slot. -/
theorem set (s : Server) (text : String) :
    ∃ s', Settles (Redis.send (.set (l.key slot) text)) s (.ok ()) s' ∧
      s'.string? (l.key slot) = .ok (some text) ∧ Keeps l [slot] s s' :=
  ⟨_, .send rfl, Server.string?_insert _ _ _, .insert _ _⟩

theorem del (s : Server) :
    ∃ s', Settles (Redis.send (.del (l.key slot))) s (.ok ()) s' ∧ s'.string? (l.key slot) = .ok none ∧
      Keeps l [slot] s s' :=
  ⟨_, .send rfl, Server.string?_erase _ _, .erase _⟩

/-- A swap for the text that is stored is made. -/
theorem compareAndSet {expected : String} (stored : s.string? (l.key slot) = .ok (some expected)) (text : String) :
    ∃ s', Settles (Redis.send (.compareAndSet (l.key slot) expected text)) s (.ok true) s' ∧
      s'.string? (l.key slot) = .ok (some text) ∧ Keeps l [slot] s s' := by
  refine ⟨_, .send ?_, Server.string?_insert _ _ _, .insert _ _⟩
  rw [Server.execute, stored]
  dsimp only [Bind.bind, Except.bind]
  rw [if_pos rfl]

section

variable {members : Table String Unit} (stored : s.set? (l.key slot) = .ok members)

include stored

theorem sadd (element : String) :
    ∃ s', Settles (Redis.send (.sadd (l.key slot) element)) s (.ok ()) s' ∧
      s'.set? (l.key slot) = .ok (members.insert element ()) ∧ Keeps l [slot] s s' := by
  refine ⟨_, .send ?_, Server.set?_putSet _ _ _, .putSet _ _⟩
  rw [Server.execute, stored]
  rfl

theorem srem (element : String) :
    ∃ s', Settles (Redis.send (.srem (l.key slot) element)) s (.ok ()) s' ∧
      s'.set? (l.key slot) = .ok (members.erase element) ∧ Keeps l [slot] s s' := by
  refine ⟨_, .send ?_, Server.set?_putSet _ _ _, .putSet _ _⟩
  rw [Server.execute, stored]
  rfl

end

section

variable {fields : Table String String} (stored : s.hash? (l.key slot) = .ok fields)

include stored

theorem hset (field value : String) :
    ∃ s', Settles (Redis.send (.hset (l.key slot) field value)) s (.ok ()) s' ∧
      s'.hash? (l.key slot) = .ok (fields.insert field value) ∧ Keeps l [slot] s s' := by
  refine ⟨_, .send ?_, Server.hash?_putHash _ _ _, .putHash _ _⟩
  rw [Server.execute, Server.setField, stored]
  rfl

theorem hdel (field : String) :
    ∃ s', Settles (Redis.send (.hdel (l.key slot) field)) s (.ok ()) s' ∧
      s'.hash? (l.key slot) = .ok (fields.erase field) ∧ Keeps l [slot] s s' := by
  refine ⟨_, .send ?_, Server.hash?_putHash _ _ _, .putHash _ _⟩
  rw [Server.execute, stored]
  rfl

theorem hsetnx_of_free {field : String} (free : fields.get? field = none) (value : String) :
    ∃ s', Settles (Redis.send (.hsetnx (l.key slot) field value)) s (.ok true) s' ∧
      s'.hash? (l.key slot) = .ok (fields.insert field value) ∧ Keeps l [slot] s s' := by
  have absent : fields.contains field = false := by rw [Table.contains, free, Option.isSome_none]
  refine ⟨_, .send ?_, Server.hash?_putHash _ _ _, .putHash _ _⟩
  rw [Server.execute, stored]
  dsimp only [Bind.bind, Except.bind]
  rw [absent]
  rfl

end

section

variable {live : String} {members : Table String Unit} {field : String}

/-- A size is set for an id that is live. -/
theorem setIfLive {fields : Table String String} (known : s.set? live = .ok members)
    (present : members.contains field = true) (stored : s.hash? (l.key slot) = .ok fields) (size : Int) :
    ∃ s', Settles (Redis.send (.setIfLive live (l.key slot) field size)) s (.ok true) s' ∧
      s'.hash? (l.key slot) = .ok (fields.insert field (String.ofList (Decimal.ofInt size))) ∧
      Keeps l [slot] s s' := by
  refine ⟨_, .send ?_, Server.hash?_putHash _ _ _, .putHash _ _⟩
  rw [Server.execute, known]
  dsimp only [Bind.bind, Except.bind]
  rw [present, Server.setField, stored]
  rfl

theorem setIfLive_of_gone (known : s.set? live = .ok members) (gone : members.contains field = false)
    (hash : String) (size : Int) : Settles (Redis.send (.setIfLive live hash field size)) s (.ok false) s := by
  refine .send ?_
  rw [Server.execute, known]
  dsimp only [Bind.bind, Except.bind]
  rw [gone]
  rfl

/-- A size is added to for an id that is live, and the answer comes through a script. -/
theorem incrementIfLive {fields : Table String String} {delta size : Int} (known : s.set? live = .ok members)
    (present : members.contains field = true) (stored : s.hash? (l.key slot) = .ok fields)
    (added : Server.added? fields field delta = .ok size) :
    ∃ s', Settles (Redis.send (.incrementIfLive live (l.key slot) field delta)) s
        (.ok (some (Server.throughScript size))) s' ∧
      s'.hash? (l.key slot) = .ok (fields.insert field (String.ofList (Decimal.ofInt size))) ∧
      Keeps l [slot] s s' := by
  refine ⟨_, .send ?_, Server.hash?_putHash _ _ _, .putHash _ _⟩
  rw [Server.execute, known]
  dsimp only [Bind.bind, Except.bind]
  rw [present, if_pos rfl, stored]
  dsimp only [Bind.bind, Except.bind]
  rw [added]

theorem incrementIfLive_of_gone (known : s.set? live = .ok members) (gone : members.contains field = false)
    (hash : String) (delta : Int) :
    Settles (Redis.send (.incrementIfLive live hash field delta)) s (.ok none) s := by
  refine .send ?_
  rw [Server.execute, known]
  dsimp only [Bind.bind, Except.bind]
  rw [gone]
  rfl

end

end CustomerSegments.Redis.Settles
