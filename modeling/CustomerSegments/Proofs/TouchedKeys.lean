import CustomerSegments.Proofs.CommandEffects

namespace CustomerSegments.Redis

/-- The keys whose entries a command can see or change. -/
def Command.keys : Command → List String
  | .ping => []
  | .get key | .set key _ | .del key | .contains key | .sadd key _ | .srem key _ | .smembers key | .hget key _
  | .hset key _ _ | .hsetnx key _ _ | .hdel key _ | .hgetall key | .compareAndSet key _ _ => [key]
  | .mget keys => keys
  | .incrementIfLive live hash _ _ | .setIfLive live hash _ _ => [live, hash]

theorem Command.mem_keys_of_written {c : Command} {key : String} (written : key ∈ c.written) : key ∈ c.keys := by
  cases c with
  | ping | get key | contains key | mget keys | smembers key | hget key field | hgetall key => cases written
  | set key value | del key | sadd key element | srem key element | hset key field value | hsetnx key field value
  | hdel key field | compareAndSet key expected replacement => exact written
  | incrementIfLive live hash field n | setIfLive live hash field n => exact .tail live written

namespace Server

variable {p : String → Prop} {s t : Server} {key : String}

/-- Two servers with the same entries under some keys. -/
def Agrees (p : String → Prop) (s t : Server) : Prop :=
  ∀ key, p key → s.get? key = t.get? key

namespace Agrees

theorem string? (agrees : Agrees p s t) (within : p key) : s.string? key = t.string? key := by
  rw [Server.string?, Server.string?, agrees key within]

theorem set? (agrees : Agrees p s t) (within : p key) : s.set? key = t.set? key := by
  rw [Server.set?, Server.set?, agrees key within]

theorem hash? (agrees : Agrees p s t) (within : p key) : s.hash? key = t.hash? key := by
  rw [Server.hash?, Server.hash?, agrees key within]

theorem insert (agrees : Agrees p s t) (key : String) (entry : Entry) :
    Agrees p (Table.insert s key entry) (Table.insert t key entry) := by
  intro other within
  rw [Table.get?_insert, Table.get?_insert, agrees other within]

theorem erase (agrees : Agrees p s t) (key : String) : Agrees p (Table.erase s key) (Table.erase t key) := by
  intro other within
  rw [Table.get?_erase, Table.get?_erase, agrees other within]

theorem putSet (agrees : Agrees p s t) (key : String) (members : Table String Unit) :
    Agrees p (s.putSet key members) (t.putSet key members) := by
  unfold Server.putSet
  split
  · exact agrees.erase key
  · exact agrees.insert key _

theorem putHash (agrees : Agrees p s t) (key : String) (fields : Table String String) :
    Agrees p (s.putHash key fields) (t.putHash key fields) := by
  unfold Server.putHash
  split
  · exact agrees.erase key
  · exact agrees.insert key _

end Agrees

/-- Two outcomes that differ at most in the entries under other keys. -/
def Alike {α : Type} (p : String → Prop) : Except Refusal (α × Server) → Except Refusal (α × Server) → Prop
  | .ok (a, s), .ok (b, t) => a = b ∧ Agrees p s t
  | .error refusal, .error refusal' => refusal = refusal'
  | _, _ => False

theorem Alike.bind {α β : Type} {x : Except Refusal α} {f g : α → Except Refusal (β × Server)}
    (alike : ∀ a, Alike p (f a) (g a)) : Alike p (x >>= f) (x >>= g) := by
  cases x with
  | ok a => exact alike a
  | error refusal => exact rfl

/-- A command sees and changes nothing but its keys. -/
theorem execute_alike {c : Command} (agrees : Agrees p s t) (within : ∀ key ∈ c.keys, p key) :
    Alike p (s.execute c) (t.execute c) := by
  cases c with
  | ping => exact ⟨rfl, agrees⟩
  | get key =>
    rw [execute, execute, agrees.string? (within key (.head _))]
    exact .bind fun text => ⟨rfl, agrees⟩
  | set key value => exact ⟨rfl, agrees.insert key _⟩
  | del key => exact ⟨rfl, agrees.erase key⟩
  | contains key =>
    refine ⟨?_, agrees⟩
    rw [Table.contains, Table.contains, agrees key (within key (.head _))]
  | mget keys =>
    refine ⟨List.map_congr_left fun key mem => ?_, agrees⟩
    rw [agrees.string? (within key mem)]
  | sadd key element =>
    rw [execute, execute, agrees.set? (within key (.head _))]
    exact .bind fun members => ⟨rfl, agrees.putSet key _⟩
  | srem key element =>
    rw [execute, execute, agrees.set? (within key (.head _))]
    exact .bind fun members => ⟨rfl, agrees.putSet key _⟩
  | smembers key =>
    rw [execute, execute, agrees.set? (within key (.head _))]
    exact .bind fun members => ⟨rfl, agrees⟩
  | hget key field =>
    rw [execute, execute, agrees.hash? (within key (.head _))]
    exact .bind fun fields => ⟨rfl, agrees⟩
  | hset key field value =>
    rw [execute, execute, setField, setField, agrees.hash? (within key (.head _)), bind_assoc, bind_assoc]
    exact .bind fun fields => ⟨rfl, agrees.putHash key _⟩
  | hsetnx key field value =>
    rw [execute, execute, agrees.hash? (within key (.head _))]
    refine .bind fun fields => ?_
    split
    · exact ⟨rfl, agrees⟩
    · exact ⟨rfl, agrees.putHash key _⟩
  | hdel key field =>
    rw [execute, execute, agrees.hash? (within key (.head _))]
    exact .bind fun fields => ⟨rfl, agrees.putHash key _⟩
  | hgetall key =>
    rw [execute, execute, agrees.hash? (within key (.head _))]
    exact .bind fun fields => ⟨rfl, agrees⟩
  | incrementIfLive live hash field delta =>
    rw [execute, execute, agrees.set? (within live (.head _)), agrees.hash? (within hash (.tail _ (.head _)))]
    refine .bind fun members => ?_
    split
    · exact .bind fun fields => .bind fun new => ⟨rfl, agrees.putHash hash _⟩
    · exact ⟨rfl, agrees⟩
  | setIfLive live hash field value =>
    rw [execute, execute, setField, setField, agrees.set? (within live (.head _)),
      agrees.hash? (within hash (.tail _ (.head _)))]
    refine .bind fun members => ?_
    split
    · rw [bind_assoc, bind_assoc]
      exact .bind fun fields => ⟨rfl, agrees.putHash hash _⟩
    · exact ⟨rfl, agrees⟩
  | compareAndSet key expected replacement =>
    rw [execute, execute, agrees.string? (within key (.head _))]
    refine .bind fun found => ?_
    split
    · exact ⟨rfl, agrees.insert key _⟩
    · exact ⟨rfl, agrees⟩

theorem answer_agrees {c : Command} (agrees : Agrees p s t) (within : ∀ key ∈ c.keys, p key) :
    (s.answer c).1 = (t.answer c).1 ∧ Agrees p (s.answer c).2 (t.answer c).2 := by
  have alike := execute_alike agrees within
  rw [answer, answer]
  cases first : s.execute c with
  | ok reply =>
    cases second : t.execute c with
    | ok reply' =>
      rw [first, second] at alike
      exact ⟨congrArg Except.ok alike.1, alike.2⟩
    | error refusal =>
      rw [first, second] at alike
      exact alike.elim
  | error refusal =>
    cases second : t.execute c with
    | ok reply' =>
      rw [first, second] at alike
      exact alike.elim
    | error refusal' =>
      rw [first, second] at alike
      exact ⟨congrArg Except.error alike, agrees⟩

/-- A command leaves the entries under other keys alone, whether it is refused or not. -/
theorem answer_keeps {c : Command} (apart : key ∉ c.keys) : (s.answer c).2.get? key = s.get? key := by
  rw [answer]
  cases executed : s.execute c with
  | ok reply => exact execute_keeps executed fun written => apart (Command.mem_keys_of_written written)
  | error refusal => rfl

end Server

end CustomerSegments.Redis
