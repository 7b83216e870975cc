import CustomerSegments.Proofs.OverlappingEdits
import CustomerSegments.Proofs.SharedCounters
import CustomerSegments.Service.Run
import Mathlib.Algebra.BigOperators.Fin

namespace CustomerSegments

/-- What changes of sets of segments come to for the size of one segment. -/
def totalGain (segment : Uuid) (edits : List (IdSet × IdSet)) : Int :=
  (edits.map fun e => e.1.gain e.2 segment).sum

/-- The sets of segments of a new customer before and after its creation, unless it is refused. -/
def NewCustomer.edits (request : NewCustomer) : List (IdSet × IdSet) :=
  if Text.trim request.profile.name = "" then [] else [(.empty, request.profile.segments)]

namespace Service.Request

/-- The customer whom a request replaces or deletes. -/
def target? : Request → Option Uuid
  | updateCustomer id _ | deleteCustomer id => some id
  | _ => none

/-- The sets of segments of customers before and after a request, given who is stored. -/
def edits (stored : Uuid → Option Customer) : Request → List (IdSet × IdSet)
  | createCustomer request => request.edits
  | importCustomers requests => requests.flatMap NewCustomer.edits
  | updateCustomer id patch =>
    match stored id with
    | some c =>
      if patch.name.map Text.trim = some "" then [] else [(c.segments, patch.segments.getD c.segments)]
    | none => []
  | deleteCustomer id =>
    match stored id with
    | some c => [(c.segments, .empty)]
    | none => []
  | _ => []

/-- A request that creates, imports, updates or deletes customers, or that updates a segment without giving
it rules. -/
def KeepsRules : Request → Prop
  | createCustomer _ | importCustomers _ | updateCustomer _ _ | deleteCustomer _ => True
  | updateSegment _ patch => patch.rules = none
  | _ => False

end Service.Request

namespace Redis

open Server

variable {l : Layout} {spared minted : Uuid → Prop} {segment : Uuid} {own : Option Uuid} {v : Int} {s : Server}

theorem totalGain_append (segment : Uuid) (first rest : List (IdSet × IdSet)) :
    totalGain segment (first ++ rest) = totalGain segment first + totalGain segment rest := by
  rw [totalGain, List.map_append, List.sum_append]
  rfl

theorem totalGain_one (segment : Uuid) (before after : IdSet) :
    totalGain segment [(before, after)] = before.gain after segment :=
  Int.add_zero _

theorem createCustomer_secures (free : ∀ id, minted id → ¬ spared id) (request : NewCustomer)
    (listed : s.Lists l segment) :
    Attempt.Secures (serving minted) (adding l spared segment own) (l.realized (Customers.create request))
      (fun o v' s' => (∀ e, o = .error e → ∃ message, e = .validation message) ∧
        Summed l segment (v + totalGain segment request.edits) v' s') v s := by
  refine Layout.secures_bind (Attempt.secures_settled fun s₁ others => ?_)
  have listed := others.2 listed
  cases valid : validName .customer request.profile.name with
  | error e =>
    obtain ⟨rfl, blank⟩ := validName_eq_error_iff.1 valid
    rw [NewCustomer.edits, if_pos blank, show totalGain segment [] = 0 from rfl, Int.add_zero]
    exact fun _ others => ⟨fun e same => ⟨_, (Except.error.inj same).symm⟩, rfl, others.2 listed⟩
  | ok name =>
    rw [NewCustomer.edits, if_neg (validName_eq_ok_iff.1 valid).2, totalGain_one]
    refine Layout.secures_bind (Attempt.secures_now fun now s₂ others => ?_)
    have listed := others.2 listed
    refine Layout.secures_bind (Attempt.secures_freshId fun id s₃ fresh others => ?_)
    have listed := others.2 listed
    refine Layout.secures_bind (Layout.secures_call ((insertCustomer_secures (free id fresh) listed).mono ?_))
    rintro _ _ s₄ ⟨rfl, rfl, listed⟩
    refine Layout.secures_bind (Layout.secures_sure ((customerCreated_secures _ listed).mono ?_))
    intro outcome v' s₅ reached
    refine Attempt.secures_pure fun _ others => ⟨?_, reached.rely others⟩
    rintro _ ⟨⟩

theorem importCustomers_secures (free : ∀ id, minted id → ¬ spared id) (requests : List NewCustomer) (index : Nat)
    (done : BulkImport) (listed : s.Lists l segment) :
    Attempt.Secures (serving minted) (adding l spared segment own) (l.realized (Customers.importFrom index done requests))
      (fun _ => Summed l segment (v + totalGain segment (requests.flatMap NewCustomer.edits))) v s := by
  induction requests generalizing index done v s with
  | nil => exact Attempt.secures_pure fun _ others => ⟨(Int.add_zero v).symm, others.2 listed⟩
  | cons request rest ih =>
    rw [List.flatMap_cons, totalGain_append, ← Int.add_assoc, Customers.importFrom]
    refine Layout.secures_bind (Layout.secures_outcome ((createCustomer_secures free request listed).mono ?_))
    intro outcome v' s₁ ⟨refused, reached⟩
    rw [← reached.1]
    have listed := reached.2
    cases outcome with
    | ok change => exact ih _ _ listed
    | error e =>
      obtain ⟨message, rfl⟩ := refused e rfl
      exact ih _ _ listed

theorem replaceCustomer_secures {old : Customer} (patch : CustomerPatch) (name : String) (mine : own = some old.id)
    (free : ¬ spared old.id) (stored : s.customer? l old.id = some old) (listed : s.Lists l segment) :
    Attempt.Secures (serving minted) (adding l spared segment own) (l.realized (Customers.replace old patch name))
      (fun _ => Summed l segment (v + old.segments.gain (patch.segments.getD old.segments) segment)) v s := by
  refine Layout.secures_bind (Attempt.secures_now fun now s₁ others => ?_)
  rw [← customer?_of_eq (others.1 _ mine)] at stored
  refine Layout.secures_bind (Layout.secures_call
    ((updateCustomer_secures (c := Customers.revised old patch name now) mine free stored (others.2 listed)).mono ?_))
  rintro _ _ s₂ ⟨rfl, rfl, listed⟩
  have after : (Customers.revised old patch name now).segments = patch.segments.getD old.segments := rfl
  rw [← after]
  generalize Customers.revised old patch name now = c
  dsimp only
  split
  · refine Layout.secures_bind (Layout.secures_sure ((customerUpdated_secures old.segments c.segments listed).mono ?_))
    intro outcome v' s₃ reached
    exact Attempt.secures_pure fun _ others => reached.rely others
  · next same =>
    have none : old.segments.gain c.segments segment = 0 := by
      rw [Classical.not_not.1 same]
      exact Int.sub_self _
    rw [none, Int.add_zero]
    exact Attempt.secures_pure fun _ others => ⟨rfl, others.2 listed⟩

/-- A request finds the customer whom it has to itself as the request found him stored. -/
theorem foundCustomer_secures {id : Uuid} (mine : own = some id) (listed : s.Lists l segment) :
    Attempt.Secures (serving minted) (adding l spared segment own) (l.realized (Customers.get id))
      (fun o v' s' =>
        o.toOption = s.customer? l id ∧ s'.customer? l id = s.customer? l id ∧ Summed l segment v v' s') v s := by
  refine Layout.secures_bind (Layout.secures_call ((getCustomer_secures mine listed).mono ?_))
  intro o v' s₁ ⟨found, kept, reached⟩
  have last {t : Server} (others : (adding l spared segment own).rely s₁ t) :
      t.customer? l id = s.customer? l id ∧ Summed l segment v v' t :=
    ⟨(customer?_of_eq (others.1 id mine)).trans kept, reached.rely others⟩
  cases o with
  | error e => exact fun _ others => ⟨Eq.symm found, last others⟩
  | ok stored =>
    cases stored with
    | none => exact Attempt.secures_throw fun _ others => ⟨found, last others⟩
    | some c => exact Attempt.secures_pure fun _ others => ⟨found, last others⟩

theorem updateCustomer_gains {id : Uuid} (patch : CustomerPatch) (mine : own = some id)
    (free : ∀ c, s.customer? l id = some c → ¬ spared id) (sound : ∀ c, s.customer? l id = some c → c.id = id)
    (listed : s.Lists l segment) :
    Attempt.Secures (serving minted) (adding l spared segment own) (l.realized (Customers.update id patch))
      (fun _ => Summed l segment
        (v + totalGain segment ((Service.Request.updateCustomer id patch).edits (s.customer? l)))) v s := by
  refine Layout.secures_bind ((foundCustomer_secures mine listed).mono ?_)
  intro o v' s₁ ⟨found, kept, reached⟩
  rw [Service.Request.edits, ← found]
  cases o with
  | error e => exact fun _ others => ⟨reached.1.trans (Int.add_zero v).symm, others.2 reached.2⟩
  | ok old =>
    have stored : s.customer? l id = some old := found.symm
    obtain rfl := sound old stored
    rw [stored] at kept
    obtain ⟨rfl, listed⟩ := reached
    have replaced (name : String) {t : Server} (others : (adding l spared segment own).rely s₁ t) :=
      @replaceCustomer_secures l spared minted segment own v' t old patch name mine (free old stored)
        ((customer?_of_eq (others.1 _ mine)).trans kept) (others.2 listed)
    simp only [Except.toOption]
    cases named : patch.name with
    | none =>
      simp only [Option.map_none, reduceCtorEq, if_false, totalGain_one]
      exact replaced old.profile.name ((adding l spared segment own).rely_refl s₁)
    | some raw =>
      refine Layout.secures_bind (Attempt.secures_settled fun s₂ others => ?_)
      cases valid : validName .customer raw with
      | error e =>
        obtain ⟨_, blank⟩ := validName_eq_error_iff.1 valid
        simp only [Option.map_some, blank, if_true]
        exact fun _ more => ⟨(Int.add_zero _).symm, more.2 (others.2 listed)⟩
      | ok name =>
        have filled := (validName_eq_ok_iff.1 valid).2
        simp only [Option.map_some, Option.some.injEq, filled, if_false, totalGain_one]
        exact replaced name others

theorem deleteCustomer_gains {id : Uuid} (mine : own = some id) (free : ∀ c, s.customer? l id = some c → ¬ spared id)
    (listed : s.Lists l segment) :
    Attempt.Secures (serving minted) (adding l spared segment own) (l.realized (Customers.delete id))
      (fun _ => Summed l segment
        (v + totalGain segment ((Service.Request.deleteCustomer id).edits (s.customer? l)))) v s := by
  refine Layout.secures_bind (Layout.secures_call ((deleteCustomer_secures mine free listed).mono ?_))
  intro o v' s₁ ⟨found, reached⟩
  rw [Service.Request.edits]
  cases o with
  | error e =>
    rw [show s.customer? l id = none from found]
    exact fun _ others => ⟨reached.1.trans (Int.add_zero v).symm, others.2 reached.2⟩
  | ok stored =>
    rw [← show stored = s.customer? l id from found]
    obtain ⟨rfl, listed⟩ := reached
    cases stored with
    | none => exact Attempt.secures_throw fun _ others => ⟨(Int.add_zero _).symm, others.2 listed⟩
    | some c =>
      dsimp only
      rw [totalGain_one]
      exact Layout.secures_sure (customerDeleted_secures c listed)

/-- An update of a segment that brings no rules adds nothing to any size. -/
theorem updateSegment_gains {id : Uuid} {patch : SegmentPatch} (kept : patch.rules = none) (listed : s.Lists l segment) :
    Attempt.Secures (serving minted) (adding l spared segment own) (l.realized (Segments.update id patch))
      (fun _ => Summed l segment v) v s := by
  refine neutral_of_asksOnly (Service.CallsOnly.asks ?_) listed
  unfold Segments.update
  refine .bind (Service.getSegment_calls (fun id => .getSegment id) id) fun g => ?_
  refine .bind (Service.newName_calls (fun name => .findSegmentByName name) id g patch.name) fun name => ?_
  refine .bind .now fun now => .bind (.call (.updateSegment _)) fun _ => ?_
  rw [kept]
  exact Service.getSegment_calls (fun id => .getSegment id) id

/-- What a request adds to the size of a segment is the difference of the sets of segments that its customers
have when it starts and when it has ended. -/
theorem request_gains {r : Service.Request} (keeps : r.KeepsRules) (fresh : ∀ id, minted id → ¬ spared id)
    (free : ∀ id c, r.target? = some id → s.customer? l id = some c → ¬ spared id)
    (sound : ∀ id c, r.target? = some id → s.customer? l id = some c → c.id = id) (listed : s.Lists l segment) :
    Attempt.Secures (serving minted) (adding l spared segment r.target?) (l.realized r.operation)
      (fun _ => Summed l segment (v + totalGain segment (r.edits (s.customer? l)))) v s := by
  cases r with
  | createCustomer request => exact (createCustomer_secures fresh request listed).mono fun _ _ _ => And.right
  | importCustomers requests => exact importCustomers_secures fresh requests 0 ⟨0, [], .empty⟩ listed
  | updateCustomer id patch =>
    exact updateCustomer_gains patch rfl (fun c => free id c rfl) (fun c => sound id c rfl) listed
  | deleteCustomer id => exact deleteCustomer_gains rfl (fun c => free id c rfl) listed
  | updateSegment id patch =>
    rw [show totalGain segment ((Service.Request.updateSegment id patch).edits (s.customer? l)) = 0 from rfl, Int.add_zero]
    exact updateSegment_gains keeps listed
  | _ => exact keeps.elim

/-- A request as a task over a server, with its outcome at the end. -/
def Layout.task (l : Layout) (r : Service.Request) : Action ((r : Service.Request) × Except Error r.Result) :=
  (fun o => ⟨r, o⟩) <$> l.realize r.operation.run

/-- Requests that are served at the same time, before the first turn. -/
def Layout.together (l : Layout) (requests : List Service.Request) (w : World Recorded) :
    Turns Command Command.Reply Recorded ((r : Service.Request) × Except Error r.Result) :=
  ⟨requests.map l.task, w⟩

/-- What a request among others adds to a size, all in all. -/
def gainAt (l : Layout) (s : Server) (segment : Uuid) (requests : List Service.Request) (i : Nat) : Int :=
  (requests[i]?).elim 0 fun r => totalGain segment (r.edits (s.customer? l))

theorem task_gains {r : Service.Request} (keeps : r.KeepsRules) (fresh : ∀ id, minted id → ¬ spared id)
    (free : ∀ id c, r.target? = some id → s.customer? l id = some c → ¬ spared id)
    (sound : ∀ id c, r.target? = some id → s.customer? l id = some c → c.id = id) (listed : s.Lists l segment) :
    (l.task r).Secures (serving minted) (adding l spared segment r.target?)
      (fun _ => Summed l segment (totalGain segment (r.edits (s.customer? l)))) 0 s := by
  rw [Layout.task, map_eq_pure_bind]
  refine Program.Secures.bind (Program.Secures.mono (request_gains (v := 0) keeps fresh free sound listed) ?_)
  intro o v s reached
  rw [Int.zero_add] at reached
  exact Program.Secures.pure fun _ others => reached.rely others

/-- The customers whose records the request at a place among others has to spare: the targets of the others. -/
def sparedAt (l : Layout) (s : Server) (requests : List Service.Request) (i : Nat) (id : Uuid) : Prop :=
  (∃ r ∈ requests, r.target? = some id) ∧ ((requests[i]?).bind (·.target?) = some id → s.customer? l id = none)

/-- Requests of which no two have an existing customer as their target. -/
def Apart (l : Layout) (s : Server) (requests : List Service.Request) : Prop :=
  requests.Pairwise fun r r' => ∀ id, r.target? = some id → r'.target? = some id → s.customer? l id = none

/-- The target of one request is spared by all others. -/
theorem Apart.spares {requests : List Service.Request} {i j : Nat} {id : Uuid} (apart : Apart l s requests)
    (other : j ≠ i) (mine : (requests[j]?).bind (·.target?) = some id) : sparedAt l s requests i id := by
  obtain ⟨r, there, target⟩ := Option.bind_eq_some_iff.1 mine
  refine ⟨⟨r, List.mem_of_getElem? there, target⟩, fun its => ?_⟩
  obtain ⟨r', there', target'⟩ := Option.bind_eq_some_iff.1 its
  obtain ⟨bound, rfl⟩ := List.getElem?_eq_some_iff.1 there
  obtain ⟨bound', rfl⟩ := List.getElem?_eq_some_iff.1 there'
  rcases Nat.lt_or_gt_of_ne other with before | after
  · exact List.pairwise_iff_getElem.1 apart j i bound bound' before id target target'
  · exact List.pairwise_iff_getElem.1 apart i j bound' bound after id target' target

/-- Each of some requests adds what it has to, and the size of a segment is the first one and what they have added so
far. -/
structure Together (l : Layout) (start : Server) (segment : Uuid) (n : Int) (requests : List Service.Request)
    (t : Turns Command Command.Reply Recorded ((r : Service.Request) × Except Error r.Result)) (v : Nat → Int) : Prop where
  secured : t.Secured (serving fun id => ∀ r ∈ requests, r.target? ≠ some id)
    (fun i => adding l (sparedAt l start requests i) segment ((requests[i]?).bind (·.target?)))
    (fun i _ => Summed l segment (gainAt l start segment requests i)) (·.state.state) (fun _ => True) v
  listed : t.world.state.state.Lists l segment
  size : t.world.state.state.audienceSize? l segment = some (n + ∑ i ∈ Finset.range requests.length, v i)

section

variable {requests : List Service.Request} {w : World Recorded} {n : Int}

theorem together_start (keeps : ∀ r ∈ requests, r.KeepsRules)
    (sound : ∀ r ∈ requests, ∀ id c, r.target? = some id → w.state.state.customer? l id = some c → c.id = id)
    (listed : w.state.state.Lists l segment) (size : w.state.state.audienceSize? l segment = some n) :
    Together l w.state.state segment n requests (l.together requests w) fun _ => 0 := by
  refine ⟨fun i _ task found => ?_, listed, ?_⟩
  · change (requests.map l.task)[i]? = some task at found
    rw [List.getElem?_map, Option.map_eq_some_iff] at found
    obtain ⟨r, there, rfl⟩ := found
    have mem := List.mem_of_getElem? there
    have own : (requests[i]?).bind (·.target?) = r.target? := by rw [there, Option.bind_some]
    have free (id : Uuid) (c : Customer) (target : r.target? = some id)
        (stored : w.state.state.customer? l id = some c) : ¬ sparedAt l w.state.state requests i id := fun spared => by
      rw [spared.2 (own.trans target)] at stored
      cases stored
    have gain : gainAt l w.state.state segment requests i = totalGain segment (r.edits (w.state.state.customer? l)) := by
      simp only [gainAt, there, Option.elim_some]
    dsimp only
    rw [gain, own]
    exact task_gains (keeps r mem) (fun id minted ⟨⟨r', mem', same⟩, _⟩ => minted r' mem' same) free (sound r mem) listed
  · rw [Finset.sum_const_zero, Int.add_zero]
    exact size

/-- A turn of one request goes into the sum. -/
theorem Together.advance {start : Server} {v : Nat → Int} {i : Nat}
    {t : Turns Command Command.Reply Recorded ((r : Service.Request) × Except Error r.Result)}
    (together : Together l start segment n requests t v) (long : t.tasks.length = requests.length)
    (apart : Apart l start requests) (issued : ∀ k, ∀ r ∈ requests, r.target? ≠ some (t.world.supply k))
    (accepted : (t.advance recording i).world.state.Accepted) :
    ∃ v, Together l start segment n requests (t.advance recording i) v := by
  obtain ⟨secured, listed, size⟩ := together
  by_cases bound : i < requests.length
  · obtain ⟨value, step, secured⟩ := secured.advance (i := i) trivial
      (fun e next turn => answers_of_accepted issued accepted turn)
      fun j _ other v s v' s' step =>
        ⟨fun id mine => step.others id (apart.spares other mine), (·.of_eq step.listed)⟩
    refine ⟨Function.update v i value, secured, listed.of_eq step.listed, ?_⟩
    rw [step.size listed _ size, Finset.sum_update_of_mem (Finset.mem_range.2 bound),
      ← Finset.add_sum_erase _ _ (Finset.mem_range.2 bound), Finset.sdiff_singleton_eq_erase]
    exact congrArg some (by omega)
  · rw [Turns.advance_of_le (by omega)]
    exact ⟨v, secured, listed, size⟩

/-- While requests are served at the same time and no command is refused. -/
theorem together_after (schedule : List Nat) (keeps : ∀ r ∈ requests, r.KeepsRules) (apart : Apart l w.state.state requests)
    (fresh : ∀ k, ∀ r ∈ requests, r.target? ≠ some (w.supply k))
    (sound : ∀ r ∈ requests, ∀ id c, r.target? = some id → w.state.state.customer? l id = some c → c.id = id)
    (listed : w.state.state.Lists l segment) (size : w.state.state.audienceSize? l segment = some n)
    (accepted : (Turns.after recording schedule (l.together requests w)).world.state.Accepted) :
    ∃ v, Together l w.state.state segment n requests (Turns.after recording schedule (l.together requests w)) v := by
  induction schedule using List.reverseRecOn with
  | nil => exact ⟨_, together_start keeps sound listed size⟩
  | append_singleton schedule i ih =>
    rw [Turns.after_concat] at accepted ⊢
    obtain ⟨v, together⟩ := ih accepted.of_advance
    refine together.advance ((Turns.length_after _).trans (List.length_map _)) apart (fun k => ?_) accepted
    rw [(Turns.after_follows schedule).supply]
    exact fresh k

end

theorem sum_gainAt (l : Layout) (s : Server) (segment : Uuid) (requests : List Service.Request) :
    ∑ i ∈ Finset.range requests.length, gainAt l s segment requests i =
      (requests.map fun r => totalGain segment (r.edits (s.customer? l))).sum := by
  rw [Finset.sum_range, ← Fin.sum_univ_fun_getElem]
  refine Finset.sum_congr rfl fun i _ => ?_
  simp [gainAt]

/-- However the commands of requests that are served at the same time are interleaved, as long as no command
is refused: when all have returned, the size of every listed segment is the first one and the differences of
the sets of segments that the customers had before and have after their requests. -/
theorem sizes_after_together {l : Layout} {requests : List Service.Request} {w : World Recorded} {schedule : List Nat}
    (keeps : ∀ r ∈ requests, r.KeepsRules) (apart : Apart l w.state.state requests)
    (fresh : ∀ k, ∀ r ∈ requests, r.target? ≠ some (w.supply k))
    (sound : ∀ r ∈ requests, ∀ id c, r.target? = some id → w.state.state.customer? l id = some c → c.id = id)
    (accepted : (Turns.after recording schedule (l.together requests w)).world.state.Accepted)
    (returned : ∀ task ∈ (Turns.after recording schedule (l.together requests w)).tasks, task.result?.isSome) :
    ∀ segment n, w.state.state.Lists l segment → w.state.state.audienceSize? l segment = some n →
      (Turns.after recording schedule (l.together requests w)).world.state.state.audienceSize? l segment =
        some (n + (requests.map fun r => totalGain segment (r.edits (w.state.state.customer? l))).sum) := by
  intro segment n listed size
  obtain ⟨v, secured, _, size'⟩ := together_after schedule keeps apart fresh sound listed size accepted
  have long : (Turns.after recording schedule (l.together requests w)).tasks.length = requests.length :=
    (Turns.length_after _).trans (List.length_map _)
  rw [size', ← sum_gainAt]
  refine congrArg (fun sum => some (n + sum)) (Finset.sum_congr rfl fun i mem => ?_)
  rw [Finset.mem_range, ← long] at mem
  have ended := returned _ (List.getElem_mem mem)
  have secures := secured i trivial _ (List.getElem?_eq_getElem mem)
  cases found : (Turns.after recording schedule (l.together requests w)).tasks[i] with
  | ask e next =>
    rw [found] at ended
    cases ended
  | done a =>
    rw [found] at secures
    exact (secures.ended).1

/-- A server with a segment of size five and a customer in no segment. -/
def five : World Recorded :=
  .start
    ⟨.ofList
      [("p:audience", .hash (.ofList [("00000000-0000-0000-0000-000000000002", "5")])),
        ("p:customer:00000000-0000-0000-0000-000000000001",
          .string "\x7b\"id\":\"00000000-0000-0000-0000-000000000001\",\"name\":\"Ada\",\"createdAt\":\"1970-01-01T00:00:00Z\",\"updatedAt\":\"1970-01-01T00:00:00Z\"\x7d"),
        ("p:segment:00000000-0000-0000-0000-000000000002",
          .string "\x7b\"id\":\"00000000-0000-0000-0000-000000000002\",\"name\":\"Regulars\",\"createdAt\":\"1970-01-01T00:00:00Z\",\"updatedAt\":\"1970-01-01T00:00:00Z\",\"createdBy\":\"ops\"\x7d"),
        ("p:segment_names", .hash (.ofList [("Regulars", "00000000-0000-0000-0000-000000000002")])),
        ("p:segments", .set (.ofList [("00000000-0000-0000-0000-000000000002", ())]))],
      []⟩
    (fun _ => .epoch) fun _ => Uuid.counting 7

/-- One customer is created in the segment, one is put into it, one who is not there is deleted, and the segment is
switched off meanwhile. -/
def joining : List Service.Request :=
  [.createCustomer ⟨{ Profile.named "Bo" with segments := .ofList [Uuid.counting 2] }, none⟩,
    .updateCustomer (Uuid.counting 1) (Customers.onlySegments (.ofList [Uuid.counting 2])),
    .deleteCustomer (Uuid.counting 5), .updateSegment (Uuid.counting 2) ⟨none, none, none, some false⟩]

/-- They take turns one after the other. -/
def joined : Turns Command Command.Reply Recorded ((r : Service.Request) × Except Error r.Result) :=
  Turns.after recording ((List.range 32).map (· % 4)) (Layout.together ⟨"p", 1⟩ joining five)

/-- All four requests end, three of them well, and the segment, which is written meanwhile, has two customers besides
the five. -/
theorem sizes_after_together_joining :
    joined.world.state.Accepted ∧ (∀ task ∈ joined.tasks, task.result?.isSome) ∧
      joined.tasks.map (fun task => task.result?.map fun ended => ended.2.isOk) =
        [some true, some true, some false, some true] ∧
      joined.world.state.state.audienceSize? ⟨"p", 1⟩ (Uuid.counting 2) = some (5 + 2) := by
  have run : (joined.world.state.Accepted ∧ (∀ task ∈ joined.tasks, task.result?.isSome) ∧
      joined.tasks.map (fun task => task.result?.map fun ended => ended.2.isOk) =
        [some true, some true, some false, some true]) ∧
        (five.state.state.customer? ⟨"p", 1⟩ (Uuid.counting 1)).map (fun c => (c.id, c.segments)) =
          some (Uuid.counting 1, .empty) ∧
        five.state.state.customer? ⟨"p", 1⟩ (Uuid.counting 5) = none ∧
        five.state.state.audienceSize? ⟨"p", 1⟩ (Uuid.counting 2) = some 5 ∧
        (five.state.state.set? (Layout.segmentsKey ⟨"p", 1⟩)).toOption.map (·.contains (Uuid.counting 2).text) =
          some true := by
    decide +kernel
  obtain ⟨run, stored, absent, size, known⟩ := run
  unfold joined at run ⊢
  obtain ⟨c, found, same⟩ := Option.map_eq_some_iff.1 stored
  obtain ⟨own, bare⟩ := Prod.mk.inj same
  have listed : five.state.state.Lists ⟨"p", 1⟩ (Uuid.counting 2) := by
    cases read : five.state.state.set? (Layout.segmentsKey ⟨"p", 1⟩) with
    | error refusal =>
      rw [read] at known
      cases known
    | ok ids =>
      rw [read] at known
      exact ⟨ids, read, Option.some.inj known⟩
  have differ : Uuid.counting 5 ≠ Uuid.counting 1 := by decide
  have keeps : ∀ r ∈ joining, r.KeepsRules := by simp [joining, Service.Request.KeepsRules]
  have apart : Apart ⟨"p", 1⟩ five.state.state joining := by
    simp [Apart, joining, Service.Request.target?, differ]
  have fresh : ∀ k, ∀ r ∈ joining, r.target? ≠ some (five.supply k) := by
    intro k
    change ∀ r ∈ joining, r.target? ≠ some (Uuid.counting 7)
    simp [joining, Service.Request.target?]
    decide
  have sound : ∀ r ∈ joining, ∀ id c,
      r.target? = some id → five.state.state.customer? ⟨"p", 1⟩ id = some c → c.id = id := by
    intro r mem id c' target stored'
    simp only [joining, List.mem_cons, List.not_mem_nil, or_false] at mem
    rcases mem with rfl | rfl | rfl | rfl <;> cases target
    · rw [found] at stored'
      exact Option.some.inj stored' ▸ own
    · rw [absent] at stored'
      cases stored'
  have grown := @sizes_after_together ⟨"p", 1⟩ joining five ((List.range 32).map (· % 4)) keeps apart fresh sound run.1
    run.2.1 (Uuid.counting 2) 5 listed size
  have gains (stored : Uuid → Option Customer) (there : stored (.counting 1) = some c)
      (gone : stored (.counting 5) = none) :
      (joining.map fun r => totalGain (.counting 2) (r.edits stored)).sum = 2 := by
    simp only [joining, List.map_cons, List.map_nil, Service.Request.edits, there, gone, bare]
    decide
  exact ⟨run.1, run.2.1, run.2.2, grown.trans (congrArg (fun n => some (5 + n)) (gains _ found absent))⟩

end Redis

end CustomerSegments
