import CustomerSegments.Proofs.Confinement
import CustomerSegments.Proofs.KeyPrefixes
import Mathlib.Logic.Function.Basic

namespace CustomerSegments.Redis

/-- One client gets an answer, with the time and the identifier that are at hand for it. -/
structure Visit (ι : Type) where
  client : ι
  now : Instant
  id : Uuid

variable {ι : Type} {s t : Server} {p : String → Prop} {l l' : Layout} {e : Effect Command}

namespace Visit

/-- Answers a request on a server. -/
def answer (v : Visit ι) (e : Effect Command) (s : Server) : e.Answer Command.Reply × Server :=
  let (reply, w) := World.answer (fun c _ s => s.answer c) e (.start s (fun _ => v.now) fun _ => v.id)
  (reply, w.state)

variable {v : Visit ι}

theorem answer_agrees (within : e.Within fun c => ∀ key ∈ c.keys, p key) (agrees : Server.Agrees p s t) :
    (v.answer e s).1 = (v.answer e t).1 ∧ Server.Agrees p (v.answer e s).2 (v.answer e t).2 := by
  cases e with
  | now | freshId entity | tally metric amount => exact ⟨rfl, agrees⟩
  | backend c => exact Server.answer_agrees agrees within

theorem answer_keeps {key : String} (within : e.Within fun c => key ∉ c.keys) :
    (v.answer e s).2.get? key = s.get? key := by
  cases e with
  | now | freshId entity | tally metric amount => rfl
  | backend c => exact Server.answer_keeps within

theorem listsIds_answer (lists : l.ListsIds s) (permits : e.Within l'.Permits) :
    l.ListsIds (v.answer e s).2 := by
  cases e with
  | now | freshId entity | tally metric amount => exact lists
  | backend c => exact lists.answer permits

theorem credible_answer (lists : l.ListsIds s) (permits : e.Within l.Permits) : Credible e (v.answer e s).1 := by
  cases e with
  | now | freshId entity | tally metric amount => trivial
  | backend c => exact Redis.credible_answer lists permits

end Visit

/-- Clients of one server with what is left of their tasks, and the commands that they have sent, the earliest first. -/
structure Clients (ι : Type) (α : ι → Type) where
  tasks : (i : ι) → Action (α i)
  server : Server
  sent : List (ι × Command)

/-- The command of a request. -/
def command? : Effect Command → Option Command
  | .backend c => some c
  | _ => none

namespace Clients

variable [DecidableEq ι] {α : ι → Type} {layout : ι → Layout} {h h' : Clients ι α} {v : Visit ι}

def start (tasks : (i : ι) → Action (α i)) (s : Server) : Clients ι α :=
  ⟨tasks, s, []⟩

/-- The next request of a client is answered; a client that is done makes none. -/
def visit (h : Clients ι α) (v : Visit ι) : Clients ι α :=
  match h.tasks v.client with
  | .done _ => h
  | .ask e next =>
    let (reply, server) := v.answer e h.server
    ⟨Function.update h.tasks v.client (next reply), server, h.sent ++ (command? e).toList.map (v.client, ·)⟩

/-- The clients are answered in the order of the visits. -/
def after (visits : List (Visit ι)) (h : Clients ι α) : Clients ι α :=
  visits.foldl visit h

theorem visit_of_done {a : α v.client} (done : h.tasks v.client = .done a) : h.visit v = h := by
  rw [visit, done]

theorem visit_of_ask {next : e.Answer Command.Reply → Action (α v.client)} (turn : h.tasks v.client = .ask e next) :
    h.visit v = ⟨Function.update h.tasks v.client (next (v.answer e h.server).1), (v.answer e h.server).2,
      h.sent ++ (command? e).toList.map (v.client, ·)⟩ := by
  rw [visit, turn]

theorem tasks_visit_self {next : e.Answer Command.Reply → Action (α v.client)} (turn : h.tasks v.client = .ask e next) :
    (h.visit v).tasks v.client = next (v.answer e h.server).1 := by
  rw [visit_of_ask turn]
  exact Function.update_self _ _ _

theorem tasks_visit_of_ne {i : ι} (other : i ≠ v.client) : (h.visit v).tasks i = h.tasks i := by
  cases turn : h.tasks v.client with
  | done a => rw [visit_of_done turn]
  | ask e next =>
    rw [visit_of_ask turn]
    exact Function.update_of_ne other _ _

/-- Every client keeps to its layout, and the server lists nothing but identifiers for any of them. -/
structure Orderly (layout : ι → Layout) (h : Clients ι α) : Prop where
  confined : ∀ i, Confined (layout i) (h.tasks i)
  lists : ∀ i, (layout i).ListsIds h.server
  sent : ∀ note ∈ h.sent, ∀ key ∈ note.2.keys, (layout note.1).Owns key

omit [DecidableEq ι] in
theorem Orderly.turn {next : e.Answer Command.Reply → Action (α v.client)} (orderly : h.Orderly layout)
    (turn : h.tasks v.client = .ask e next) :
    e.Within (layout v.client).Permits ∧ ∀ reply, Credible e reply → Confined (layout v.client) (next reply) := by
  have confined := orderly.confined v.client
  rwa [turn] at confined

theorem Orderly.visit (orderly : h.Orderly layout) (v : Visit ι) : (h.visit v).Orderly layout := by
  cases turn : h.tasks v.client with
  | done a =>
    rw [visit_of_done turn]
    exact orderly
  | ask e next =>
    obtain ⟨permits, later⟩ := orderly.turn turn
    refine ⟨fun i => ?_, ?_, ?_⟩
    · by_cases same : i = v.client
      · subst same
        rw [tasks_visit_self turn]
        exact later _ (Visit.credible_answer (orderly.lists _) permits)
      · rw [tasks_visit_of_ne same]
        exact orderly.confined i
    · rw [visit_of_ask turn]
      exact fun i => Visit.listsIds_answer (orderly.lists i) permits
    · rw [visit_of_ask turn]
      intro note mem key inside
      rcases List.mem_append.1 mem with old | new
      · exact orderly.sent note old key inside
      · cases e with
        | now | freshId entity | tally metric amount => cases new
        | backend c =>
          cases List.mem_singleton.1 new
          exact Layout.Permits.owns permits inside

theorem Orderly.after (orderly : h.Orderly layout) (visits : List (Visit ι)) : (h.after visits).Orderly layout := by
  induction visits generalizing h with
  | nil => exact orderly
  | cons v rest ih => exact ih (orderly.visit v)

/-- The clients with the prefix of a layout are at the same places, and find the same under their keys. -/
structure Alike (layout : ι → Layout) (l : Layout) (h h' : Clients ι α) : Prop where
  tasks : ∀ i, (layout i).keyPrefix = l.keyPrefix → h.tasks i = h'.tasks i
  server : Server.Agrees l.Owns h.server h'.server

/-- A client with the prefix is served alike. -/
theorem Alike.visit_own (alike : Alike layout l h h') (orderly : h.Orderly layout)
    (own : (layout v.client).keyPrefix = l.keyPrefix) : Alike layout l (h.visit v) (h'.visit v) := by
  have same := alike.tasks v.client own
  cases turn : h.tasks v.client with
  | done a =>
    rw [visit_of_done turn, visit_of_done (same.symm.trans turn)]
    exact alike
  | ask e next =>
    have turn' : h'.tasks v.client = .ask e next := same.symm.trans turn
    have within : e.Within fun c => ∀ key ∈ c.keys, l.Owns key := by
      cases e with
      | now | freshId entity | tally metric amount => trivial
      | backend c =>
        intro key inside
        obtain ⟨slot, rfl⟩ := Layout.Permits.owns (orderly.turn turn).1 inside
        exact ⟨slot, Layout.key_eq_key_iff.2 ⟨own.symm, rfl⟩⟩
    obtain ⟨replies, servers⟩ := Visit.answer_agrees (v := v) within alike.server
    refine ⟨fun i ofPrefix => ?_, ?_⟩
    · by_cases visited : i = v.client
      · subst visited
        rw [tasks_visit_self turn, tasks_visit_self turn', replies]
      · rw [tasks_visit_of_ne visited, tasks_visit_of_ne visited, alike.tasks i ofPrefix]
    · rw [visit_of_ask turn, visit_of_ask turn']
      exact servers

/-- A client with another prefix is as good as absent. -/
theorem Alike.visit_other (alike : Alike layout l h h') (orderly : h.Orderly layout)
    (other : (layout v.client).keyPrefix ≠ l.keyPrefix) : Alike layout l (h.visit v) h' := by
  refine ⟨fun i ofPrefix => ?_, ?_⟩
  · have apart : i ≠ v.client := fun same => other (same ▸ ofPrefix)
    rw [tasks_visit_of_ne apart, alike.tasks i ofPrefix]
  · cases turn : h.tasks v.client with
    | done a =>
      rw [visit_of_done turn]
      exact alike.server
    | ask e next =>
      rw [visit_of_ask turn]
      intro key owned
      have apart : e.Within fun c => key ∉ c.keys := by
        cases e with
        | now | freshId entity | tally metric amount => trivial
        | backend c =>
          -- a key of both would make their prefixes the same
          intro inside
          obtain ⟨slot, ofClient⟩ := Layout.Permits.owns (orderly.turn turn).1 inside
          obtain ⟨slot', ofLayout⟩ := owned
          exact other (Layout.key_eq_key_iff.1 (ofClient.trans ofLayout.symm)).1
      exact (Visit.answer_keeps apart).trans (alike.server key owned)

/-- So are all the clients with other prefixes. -/
theorem Alike.after (alike : Alike layout l h h') (orderly : h.Orderly layout) (visits : List (Visit ι)) :
    Alike layout l (h.after visits)
      (h'.after (visits.filter fun v => (layout v.client).keyPrefix = l.keyPrefix)) := by
  induction visits generalizing h h' with
  | nil => exact alike
  | cons v rest ih =>
    by_cases own : (layout v.client).keyPrefix = l.keyPrefix
    · rw [List.filter_cons_of_pos (by simpa using own)]
      exact ih (alike.visit_own orderly own) (orderly.visit v)
    · rw [List.filter_cons_of_neg (by simpa using own)]
      exact ih (alike.visit_other orderly own) (orderly.visit v)

end Clients

/-- Prefixes isolate the stores on one server. The keys of two of them are the same for one prefix and one slot only.
Let their clients do what they like, in turns of single commands, from a server that lists only identifiers for them, as
an empty one does. Then each sends commands for keys of its own prefix only, still only identifiers are listed, and each
is where it would be, with the same results, if the clients with other prefixes and their records did not exist. -/
theorem prefixes_isolate_stores :
    (∀ (l l' : Layout) (a b : Slot), l.key a = l'.key b ↔ l.keyPrefix = l'.keyPrefix ∧ a = b) ∧
      ∀ {ι : Type} [DecidableEq ι] {α : ι → Type} (layout : ι → Layout) (tasks : (i : ι) → Store.Action (α i))
        (s : Server) (visits : List (Visit ι)), (∀ i, (layout i).ListsIds s) →
        let start := Clients.start fun i => (layout i).realize (tasks i)
        let ended := (start s).after visits
        (∀ note ∈ ended.sent, ∀ key ∈ note.2.keys, ∃ slot, (layout note.1).key slot = key) ∧
          (∀ i, (layout i).ListsIds ended.server) ∧
          ∀ (i : ι) (alone : Server), (∀ slot, alone.get? ((layout i).key slot) = s.get? ((layout i).key slot)) →
            let served := visits.filter fun v => (layout v.client).keyPrefix = (layout i).keyPrefix
            ended.tasks i = ((start alone).after served).tasks i := by
  refine ⟨fun l l' a b => Layout.key_eq_key_iff, fun layout tasks s visits listed => ?_⟩
  intro start ended
  have orderly : (start s).Orderly layout := ⟨fun i => confined_realize _ _, listed, fun _ mem => nomatch mem⟩
  have settled := orderly.after visits
  refine ⟨settled.sent, settled.lists, fun i alone kept => ?_⟩
  have alike : Clients.Alike layout (layout i) (start s) (start alone) := by
    refine ⟨fun _ _ => rfl, ?_⟩
    rintro _ ⟨slot, rfl⟩
    exact (kept slot).symm
  exact (alike.after orderly visits).tasks i rfl

/-- One prefix inside another. -/
def nested (inner : Bool) : Layout :=
  ⟨if inner then "a:customer" else "a", 1⟩

/-- Both insert a customer of one identifier; then the one has it deleted, and the other writes it again. -/
def storing (inner : Bool) : Store.Action (Except Error Unit) := ExceptT.run do
  let ada : Customer := ⟨.counting 1, .named "Ada", .epoch, .epoch⟩
  Store.call (.insertCustomer ada)
  if inner then discard (Store.call (.deleteCustomer ada.id)) else Store.call (.updateCustomer ada)

def alternating : List (Visit Bool) :=
  [false, true, false, true, true, true, true, false, false].map fun client => ⟨client, .epoch, .counting 2⟩

theorem prefixes_isolate_stores_of_one_id :
    (((Clients.start (fun i => (nested i).realize (storing i)) .empty).after alternating).tasks false).result?.map
      Except.toOption = some (some ()) := by
  have listed : ∀ i, (nested i).ListsIds .empty := by
    rintro i slot - text ⟨members, stored, -⟩
    cases stored
  obtain ⟨-, -, isolated⟩ := prefixes_isolate_stores.2 nested storing .empty alternating listed
  rw [isolated false .empty fun slot => rfl]
  decide +kernel

end CustomerSegments.Redis
