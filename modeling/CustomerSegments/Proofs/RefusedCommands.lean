import CustomerSegments.Proofs.SegmentWrites
import CustomerSegments.Proofs.SharedCounters

namespace CustomerSegments

section

variable {R : Type} {A : R → Type} {σ ι α : Type} {p : Provision R A σ} {c : Conduct σ ι}

/-- A task that runs alone ends as it should, and all its requests together are one step of its conduct if any two
are. -/
theorem Task.Secures.run {backend : (r : R) → Instant → σ → A r × σ} {task : Task R A α}
    {post : α → ι → σ → Prop} {v : ι} {w : World σ} (replies : ∀ r now s, p.replies r s (backend r now s).1 (backend r now s).2)
    (minted : ∀ id, p.minted id)
    (composed : ∀ {v s v' s' v'' s''}, c.step v s v' s' → c.step v' s' v'' s'' → c.step v s v'' s'')
    (secures : task.Secures p c post v w.state) :
    ∃ v', post (World.run backend task w).1 v' (World.run backend task w).2.state ∧
      c.step v w.state v' (World.run backend task w).2.state := by
  induction task generalizing v w with
  | done a => exact ⟨v, secures.ended, c.idle v _⟩
  | ask e next ih =>
    have answered : p.answers e w.state (World.answer backend e w).1 (World.answer backend e w).2.state := by
      cases e with
      | now | tally metric amount => rfl
      | freshId entity => exact ⟨minted _, rfl⟩
      | backend r => exact replies r _ _
    obtain ⟨v', step, rest⟩ := Program.Secures.answered secures answered
    obtain ⟨v'', ends, more⟩ := ih _ rest
    exact ⟨v'', ends, composed step more⟩

end

namespace Redis

open Server

/-- A command and the reply to it. -/
abbrev Note := (c : Command) × c.Reply

namespace Note

def refused (c : Command) (refusal : Refusal) : Note :=
  ⟨c, .error refusal⟩

def accepted (c : Command) (result : c.Result) : Note :=
  ⟨c, .ok result⟩

end Note

/-- A server that notes what it is sent and refuses the commands at some places. A refused command does nothing. -/
def faulty (fails : Nat → Bool) (c : Command) (_ : Instant) (r : Recorded) : c.Reply × Recorded :=
  let answered : c.Reply × Server := if fails r.notes.length then (.error .unavailable, r.state) else r.state.answer c
  (answered.1, ⟨answered.2, r.notes ++ [⟨c, answered.1⟩]⟩)

/-- A server that may refuse any command, and does nothing then. -/
def failing : Provision Command Command.Reply Recorded where
  minted _ := True
  replies c r a r' :=
    (∃ refusal, a = .error refusal ∧ r' = ⟨r.state, r.notes ++ [Note.refused c refusal]⟩) ∨
      ∃ result s', a = .ok result ∧ r.state.execute c = .ok (result, s') ∧
        r' = ⟨s', r.notes ++ [Note.accepted c result]⟩

theorem replies_faulty (fails : Nat → Bool) (c : Command) (now : Instant) (r : Recorded) :
    failing.replies c r (faulty fails c now r).1 (faulty fails c now r).2 := by
  dsimp only [faulty]
  cases fails r.notes.length with
  | true => exact .inl ⟨.unavailable, rfl, rfl⟩
  | false =>
    rw [if_neg Bool.false_ne_true, Server.answer]
    cases executed : r.state.execute c with
    | ok answered => exact .inr ⟨answered.1, answered.2, rfl, executed, rfl⟩
    | error refusal => exact .inl ⟨refusal, rfl, rfl⟩

namespace Layout

variable (l : Layout) (fails : Nat → Bool)

/-- Makes a call of a server that refuses commands. -/
def perform (c : Store.Call) (w : World Recorded) : Except Error c.Result × World Recorded :=
  World.run (faulty fails) (l.operation c).run w

/-- Makes one call after the other. -/
def performAll (calls : List Store.Call) (w : World Recorded) : World Recorded :=
  calls.foldl (fun w c => (l.perform fails c w).2) w

end Layout

variable {l : Layout} {id : Uuid} {α β : Type} {r : Recorded} {F : File} {notes : List Note}

theorem secures_send_failing {ι : Type} {conduct : Conduct Recorded ι} {v : ι} {c : Command}
    {post : Except Error c.Result → ι → Recorded → Prop} (alone : ∀ {r r'}, conduct.rely r r' → r' = r)
    (refused : ∀ refusal, post (.error (.store (.refused refusal))) v ⟨r.state, r.notes ++ [Note.refused c refusal]⟩ ∧
      conduct.step v r v ⟨r.state, r.notes ++ [Note.refused c refusal]⟩)
    (executed : ∀ result s, r.state.execute c = .ok (result, s) →
      post (.ok result) v ⟨s, r.notes ++ [Note.accepted c result]⟩ ∧
        conduct.step v r v ⟨s, r.notes ++ [Note.accepted c result]⟩) :
    Attempt.Secures failing conduct (send c) post v r := by
  refine Program.Secures.ask fun r' others a r'' answered => ?_
  rw [alone others] at answered ⊢
  rcases answered with ⟨refusal, rfl, rfl⟩ | ⟨result, s, rfl, ran, rfl⟩
  · refine ⟨v, (refused refusal).2, Program.Secures.pure fun t more => ?_⟩
    rw [alone more]
    exact (refused refusal).1
  · refine ⟨v, (executed result s ran).2, Program.Secures.pure fun t more => ?_⟩
    rw [alone more]
    exact (executed result s ran).1

/-- Every audience size can be read. -/
def Server.Legible (l : Layout) (s : Server) : Prop :=
  ∀ id, ∃ n, s.audienceSize? l id = some n

/-- What a call on one segment does, at a server that may refuse its commands. -/
structure Mends (l : Layout) (id : Uuid) (r r' : Recorded) : Prop where
  edit : Edit l id r.state r'.state
  legible : r.state.Legible l → r'.state.Legible l
  notes : r.notes <+: r'.notes

theorem Edit.trans {s s' s'' : Server} (first : Edit l id s s') (rest : Edit l id s' s'') : Edit l id s s'' :=
  ⟨fun other apart => (rest.others other apart).trans (first.others other apart), rest.tidy ∘ first.tidy⟩

theorem Mends.trans {r r' r'' : Recorded} (first : Mends l id r r') (rest : Mends l id r' r'') : Mends l id r r'' :=
  ⟨first.edit.trans rest.edit, rest.legible ∘ first.legible, first.notes.trans rest.notes⟩

/-- A call on one segment, with no other calls at the same time. -/
def keeping (l : Layout) (id : Uuid) : Conduct Recorded Unit where
  rely r r' := r' = r
  step _ r _ r' := Mends l id r r'
  rely_refl _ := rfl
  rely_trans first rest := rest.trans first
  idle _ r := ⟨.refl l id r.state, fun legible => legible, List.prefix_rfl⟩

/-- An operation that finds something stored for a segment leaves, with an outcome, something else and more notes. -/
def Handles (l : Layout) (id : Uuid) {α : Type} (op : Operation α) (F : File) (notes : List Note)
    (after : Except Error α → File → List Note → Prop) : Prop :=
  ∀ r : Recorded, r.state.file l id = F → r.notes = notes →
    Attempt.Secures failing (keeping l id) op (fun o _ r' => after o (r'.state.file l id) r'.notes) () r

/-- A refused command leaves everything as it was, another one has a result. -/
def Tries (F : File) (notes : List Note) (c : Command) (done : c.Result → File → Prop) (o : Except Error c.Result)
    (F' : File) (notes' : List Note) : Prop :=
  (∃ refusal, o = .error (.store (.refused refusal)) ∧ F' = F ∧ notes' = notes ++ [Note.refused c refusal]) ∨
    ∃ r, o = .ok r ∧ done r F' ∧ notes' = notes ++ [Note.accepted c r]

namespace Handles

variable {after : Except Error α → File → List Note → Prop}

theorem pure {a : α} (ends : after (.ok a) F notes) : Handles l id (Pure.pure a) F notes after := by
  rintro r rfl rfl
  refine Attempt.secures_pure fun r' same => ?_
  rw [show r' = r from same]
  exact ends

theorem settled {outcome : Except Error α} (ends : after outcome F notes) :
    Handles l id (Attempt.settled outcome) F notes after := by
  rintro r rfl rfl
  refine Attempt.secures_settled fun r' same => ?_
  rw [show r' = r from same]
  exact ends

theorem throw {e : Error} (ends : after (.error e) F notes) : Handles l id (MonadExcept.throw e) F notes after :=
  settled ends

theorem bind {op : Operation α} {next : α → Operation β} {mid : Except Error α → File → List Note → Prop}
    {after : Except Error β → File → List Note → Prop} (first : Handles l id op F notes mid)
    (failed : ∀ e F' notes', mid (.error e) F' notes' → after (.error e) F' notes')
    (rest : ∀ a F' notes', mid (.ok a) F' notes' → Handles l id (next a) F' notes' after) :
    Handles l id (op >>= next) F notes after := by
  intro r found noted
  refine Attempt.secures_bind ((first r found noted).mono fun o _ r' reached => ?_)
  cases o with
  | ok a => exact rest a _ _ reached r' rfl rfl
  | error e =>
    intro r'' same
    rw [show r'' = r' from same]
    exact failed e _ _ reached

theorem mono {op : Operation α} {after' : Except Error α → File → List Note → Prop} (ran : Handles l id op F notes after)
    (weaker : ∀ o F' notes', after o F' notes' → after' o F' notes') : Handles l id op F notes after' :=
  fun r found noted => (ran r found noted).mono fun o _ _ => weaker o _ _

theorem map {op : Operation α} {f : α → β} {after : Except Error β → File → List Note → Prop}
    (ran : Handles l id op F notes fun o F' notes' => after (o.map f) F' notes') : Handles l id (f <$> op) F notes after :=
  fun r found noted => Attempt.secures_map (ran r found noted)

/-- The call ends with a refusal, or goes on with a result. -/
theorem next {c : Command} {next : c.Result → Operation α} {done : c.Result → File → Prop}
    (tries : Handles l id (send c) F notes (Tries F notes c done))
    (refused : ∀ refusal, after (.error (.store (.refused refusal))) F (notes ++ [Note.refused c refusal]))
    (goes : ∀ r F', done r F' → Handles l id (next r) F' (notes ++ [Note.accepted c r]) after) :
    Handles l id (send c >>= next) F notes after := by
  refine tries.bind ?_ ?_
  · rintro e _ _ (⟨refusal, same, rfl, rfl⟩ | ⟨_, same, _⟩)
    · cases same
      exact refused refusal
    · cases same
  · rintro r F' _ (⟨_, same, _⟩ | ⟨_, same, reached, rfl⟩)
    · cases same
    · cases same
      exact goes r F' reached

/-- The last command of a call. -/
theorem last {c : Command} {done : c.Result → File → Prop} {after : Except Error c.Result → File → List Note → Prop}
    (tries : Handles l id (send c) F notes (Tries F notes c done))
    (refused : ∀ refusal, after (.error (.store (.refused refusal))) F (notes ++ [Note.refused c refusal]))
    (ends : ∀ r F', done r F' → after (.ok r) F' (notes ++ [Note.accepted c r])) : Handles l id (send c) F notes after := by
  refine tries.mono ?_
  rintro _ F' _ (⟨refusal, rfl, rfl, rfl⟩ | ⟨r, rfl, reached, rfl⟩)
  · exact refused refusal
  · exact ends r F' reached

theorem send {c : Command} {done : c.Result → File → Prop}
    (edits : ∀ s r s', s.file l id = F → s.execute c = .ok (r, s') →
      Edit l id s s' ∧ (s.Legible l → s'.Legible l) ∧ done r (s'.file l id)) :
    Handles l id (send c) F notes (Tries F notes c done) := by
  rintro r rfl rfl
  refine secures_send_failing (fun same => same) (fun refusal => ?_) fun result s executed => ?_
  · exact ⟨.inl ⟨refusal, rfl, rfl, rfl⟩, .refl l id _, fun legible => legible, List.prefix_append _ _⟩
  · obtain ⟨edit, legible, reached⟩ := edits _ _ _ rfl executed
    exact ⟨.inr ⟨result, rfl, reached, rfl⟩, edit, legible, List.prefix_append _ _⟩

/-- A command that does not write sizes. -/
theorem send_of_written {c : Command} {done : c.Result → File → Prop} (sizes : l.key .audience ∉ c.written)
    (edits : ∀ s r s', s.file l id = F → s.execute c = .ok (r, s') → Edit l id s s' ∧ done r (s'.file l id)) :
    Handles l id (Redis.send c) F notes (Tries F notes c done) := by
  refine send fun s r s' found executed => ?_
  obtain ⟨edit, reached⟩ := edits s r s' found executed
  refine ⟨edit, fun legible other => ?_, reached⟩
  rw [audienceSize?_of_eq (execute_keeps executed sizes)]
  exact legible other

theorem key_not_mem {slot other : Slot} (apart : other ≠ slot) : l.key slot ∉ [l.key other] := fun mem =>
  apart (Layout.key_injective (List.mem_singleton.1 mem)).symm

theorem set (text : String) :
    Handles l id (Redis.send (.set (l.segmentKey id.text) text)) F notes
      (Tries F notes _ fun _ F' => F' = { F with record := some (.string text) }) :=
  send_of_written (@key_not_mem l .audience (.segment id) nofun) fun _ _ _ found executed => found ▸ edit_set executed

theorem del :
    Handles l id (Redis.send (.del (l.segmentKey id.text))) F notes
      (Tries F notes _ fun _ F' => F' = { F with record := none }) :=
  send_of_written (@key_not_mem l .audience (.segment id) nofun) fun _ _ _ found executed => found ▸ edit_del executed

theorem sadd :
    Handles l id (Redis.send (.sadd l.segmentsKey id.text)) F notes
      (Tries F notes _ fun _ F' => F' = { F with listed := true }) :=
  send_of_written (@key_not_mem l .audience .segments nofun) fun _ _ _ found executed => found ▸ edit_sadd executed

theorem srem :
    Handles l id (Redis.send (.srem l.segmentsKey id.text)) F notes
      (Tries F notes _ fun _ F' => F' = { F with listed := false }) :=
  send_of_written (@key_not_mem l .audience .segments nofun) fun _ _ _ found executed => found ▸ edit_srem executed

theorem hdel_name {name : String} (led : F.names name = true) :
    Handles l id (Redis.send (.hdel l.namesKey name)) F notes
      (Tries F notes _ fun _ F' => F' = { F with names := fun n => !decide (n = name) && F.names n }) := by
  refine send_of_written (@key_not_mem l .audience .names nofun) fun s r s' found executed => ?_
  subst found
  exact edit_hdel_name executed led

theorem hsetnx (name : String) :
    Handles l id (Redis.send (.hsetnx l.namesKey name id.text)) F notes
      (Tries F notes _ fun claimed F' =>
        F' = if claimed then { F with names := fun n => decide (n = name) || F.names n } else F) := by
  refine send_of_written (@key_not_mem l .audience .names nofun) fun s claimed s' found executed => ?_
  rcases edit_hsetnx executed with ⟨rfl, edit, reached⟩ | ⟨rfl, rfl⟩
  · exact ⟨edit, found ▸ reached⟩
  · exact ⟨.refl l id s', found⟩

/-- A look at something. -/
theorem look {c : Command} {done : c.Result → File → Prop}
    (reads : ∀ {s s' : Server} {r}, s.execute c = .ok (r, s') → s' = s)
    (sees : ∀ (s : Server) r, s.file l id = F → s.execute c = .ok (r, s) → done r F) :
    Handles l id (Redis.send c) F notes (Tries F notes c done) := by
  refine send fun s r s' found executed => ?_
  have same := reads executed
  subst same
  exact ⟨.refl l id s', fun legible => legible, found.symm ▸ sees s' r found executed⟩

/-- A look at where a name leads. -/
theorem hget_name (name : String) :
    Handles l id (Redis.send (.hget l.namesKey name)) F notes
      (Tries F notes _ fun owner F' => F' = F ∧ F.names name = decide (owner = some id.text)) := by
  refine look (fun executed => ?_) fun s owner found executed => ⟨rfl, ?_⟩
  · obtain ⟨_, _, _, rfl⟩ := execute_hget.1 executed
    rfl
  · obtain ⟨rows, stored, rfl, _⟩ := execute_hget.1 executed
    rw [← found, file, nameRows_of_ok stored]

theorem hget_size :
    Handles l id (Redis.send (.hget l.audienceKey id.text)) F notes (Tries F notes _ fun _ F' => F' = F) := by
  refine look (fun executed => ?_) fun _ _ _ _ => rfl
  obtain ⟨_, _, _, rfl⟩ := execute_hget.1 executed
  rfl

end Handles

section

variable {s : Server} {rows : Table String String} {text : String} {n : Int}

theorem Server.Legible.insert (legible : s.Legible l) (stored : s.hash? l.audienceKey = .ok rows)
    (read : Decimal.int64? text.toList = some n) : (s.putHash l.audienceKey (rows.insert id.text text)).Legible l := by
  intro other
  rw [audienceSize?_putHash stored]
  split
  · exact ⟨n, read⟩
  · exact legible other

theorem Server.Legible.erase (legible : s.Legible l) (stored : s.hash? l.audienceKey = .ok rows) :
    (s.putHash l.audienceKey (rows.erase id.text)).Legible l := by
  intro other
  obtain ⟨n, held⟩ := legible other
  rw [audienceSize?, stored] at held
  rw [audienceSize?, hash?_putHash]
  dsimp only at held ⊢
  rw [Table.get?_erase]
  by_cases same : id.text = other.text
  · rw [if_pos same]
    exact ⟨0, rfl⟩
  · rw [if_neg same]
    exact ⟨n, held⟩

theorem int64?_toInt (n : Int64) : Decimal.int64? (String.ofList (Decimal.ofInt n.toInt)).toList = some n.toInt := by
  have least := n.le_toInt
  have most := n.toInt_lt
  rw [String.toList_ofList]
  exact Decimal.int64?_ofInt (by omega) (by omega)

end

/-- A size is written that was computed from a size that could be read. -/
theorem edit_size {s s' : Server} {rows : Table String String} {text : String}
    (stored : s.hash? l.audienceKey = .ok rows) (read : s.Legible l → ∃ n, Decimal.int64? text.toList = some n)
    (written : s' = s.putHash l.audienceKey (rows.insert id.text text)) :
    Edit l id s s' ∧ (s.Legible l → s'.Legible l) ∧ s'.file l id = { s.file l id with sized := true } := by
  have executed : s.execute (.hset l.audienceKey id.text text) = .ok ((), s') := execute_hset.2 ⟨rows, stored, written⟩
  obtain ⟨edit, reached⟩ := edit_hset executed
  refine ⟨edit, fun legible => ?_, reached⟩
  obtain ⟨n, read⟩ := read legible
  exact written ▸ legible.insert stored read

namespace Handles

theorem hset (n : Int64) :
    Handles l id (Redis.send (.hset l.audienceKey id.text (String.ofList (Decimal.ofInt n.toInt)))) F notes
      (Tries F notes _ fun _ F' => F' = { F with sized := true }) := by
  refine send fun s r s' found executed => ?_
  obtain ⟨rows, stored, written⟩ := execute_hset.1 executed
  exact found ▸ edit_size stored (fun _ => ⟨_, int64?_toInt n⟩) written

theorem hdel_size :
    Handles l id (Redis.send (.hdel l.audienceKey id.text)) F notes
      (Tries F notes _ fun _ F' => F' = { F with sized := false }) := by
  refine send fun s r s' found executed => ?_
  obtain ⟨edit, reached⟩ := edit_hdel_size executed
  obtain ⟨rows, stored, rfl⟩ := execute_hdel.1 executed
  exact ⟨edit, fun legible => legible.erase stored, found ▸ reached⟩

theorem setIfLive (n : Int64) :
    Handles l id (Redis.send (.setIfLive l.segmentsKey l.audienceKey id.text n.toInt)) F notes
      (Tries F notes _ fun _ F' => F' = F ∨ F' = { F with sized := true }) := by
  refine send fun s r s' found executed => ?_
  obtain ⟨_, _, _, written⟩ := execute_setIfLive.1 executed
  split at written
  · obtain ⟨rows, stored, written⟩ := written
    obtain ⟨edit, legible, reached⟩ := @edit_size l id _ _ _ _ stored (fun _ => ⟨_, int64?_toInt n⟩) written
    exact ⟨edit, legible, .inr (found ▸ reached)⟩
  · subst written
    exact ⟨.refl l id s', fun legible => legible, .inl found⟩

theorem incrementIfLive (delta : Int) :
    Handles l id (Redis.send (.incrementIfLive l.segmentsKey l.audienceKey id.text delta)) F notes
      (Tries F notes _ fun _ F' => F' = F ∨ F' = { F with sized := true }) := by
  refine send fun s r s' found executed => ?_
  obtain ⟨_, _, written⟩ := execute_incrementIfLive.1 executed
  split at written
  · obtain ⟨rows, size, stored, added, _, written⟩ := written
    have read (legible : s.Legible l) : ∃ n, Decimal.int64? (String.ofList (Decimal.ofInt size)).toList = some n := by
      obtain ⟨n, held⟩ := legible id
      obtain ⟨_, least, most⟩ := added?_eq_ok stored added held
      rw [String.toList_ofList]
      exact ⟨size, Decimal.int64?_ofInt least most⟩
    obtain ⟨edit, legible, reached⟩ := edit_size stored read written
    exact ⟨edit, legible, .inr (found ▸ reached)⟩
  · obtain ⟨_, rfl⟩ := written
    exact ⟨.refl l id s', fun legible => legible, .inl found⟩

end Handles

end Redis

end CustomerSegments
